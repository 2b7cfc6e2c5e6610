import WinProcessThread.HexParser.CommandLine

/-!
# What the command line means

The loop of `main` carries a file name and a stream from round to round.  Read without the loop,
which file a report reads and which text a search looks for is determined by the arguments alone: a
report reads the file behind the last `File:` up to its argument, and a search looks for the first
brackets in all the texts that the options `-h` up to its argument join.  It follows which command
lines search for one text only.
-/

namespace WinProcessThread.HexParser

open Text

variable {arguments : List (List Char)} {name : List Char} {k : ℕ}

/-! ## The meaning of the arguments -/

/-- The argument at this position is taken for an option of this name. -/
def Named (name : List Char) (arguments : List (List Char)) (k : ℕ) : Prop :=
  ∃ argument ∈ arguments[k]?, SameText argument name

instance (name : List Char) (arguments : List (List Char)) (k : ℕ) :
    Decidable (Named name arguments k) :=
  inferInstanceAs (Decidable (∃ argument ∈ arguments[k]?, SameText argument name))

/-- The positions in front of `k` at which an option stands. -/
def positions (name : List Char) (arguments : List (List Char)) (k : ℕ) : List ℕ :=
  (List.range k).filter fun j ↦ Named name arguments j

/-- The buffer of the file name once the options in front of `k` are done. -/
def bufferUpTo (arguments : List (List Char)) (k : ℕ) : List Char :=
  match (positions "File:".toList arguments k).getLast? with
  | none => List.replicate maxFilepath '\x00'
  | some j => ((arguments[j + 1]?.getD []) ++ ['\x00']).take maxFilepath

/-- The texts that the options `-h` in front of `k` have joined. -/
def joinedUpTo (arguments : List (List Char)) (k : ℕ) : List Char :=
  (positions "-h".toList arguments k).flatMap fun j ↦ joined (arguments.drop j)

/-- What the argument at position `k`, which is `argv[k + 1]`, prints. -/
def reportsAt (behind : ℕ → List Char) (arguments : List (List Char)) (k : ℕ) : List Report :=
  let opened := cStr (bufferUpTo arguments (k + 1) ++ behind (k + 1))
  (if Named "-h".toList arguments k then
    (bracketed (joinedUpTo arguments (k + 1))).toList.map (.compares opened)
  else []) ++
    if Named "HEX_all".toList arguments k then [.hexAll opened] else []

/-! ## One argument more -/

theorem named_iff {argument : List Char} (hargument : arguments[k]? = some argument) :
    Named name arguments k ↔ SameText argument name := by
  simp [Named, hargument]

theorem positions_succ (name : List Char) (arguments : List (List Char)) (k : ℕ) :
    positions name arguments (k + 1) =
      positions name arguments k ++ if Named name arguments k then [k] else [] := by
  rw [positions, List.range_succ, List.filter_append]
  by_cases hnamed : Named name arguments k
  · simp [positions, hnamed]
  · simp [positions, hnamed]

theorem bufferUpTo_succ_of_not (hnamed : ¬ Named "File:".toList arguments k) :
    bufferUpTo arguments (k + 1) = bufferUpTo arguments k := by
  rw [bufferUpTo, positions_succ, if_neg hnamed, List.append_nil, bufferUpTo]

theorem bufferUpTo_succ_of_named {path : List Char} (hnamed : Named "File:".toList arguments k)
    (hpath : arguments[k + 1]? = some path) :
    bufferUpTo arguments (k + 1) = (path ++ ['\x00']).take maxFilepath := by
  rw [bufferUpTo, positions_succ, if_pos hnamed, List.getLast?_concat]
  simp [hpath]

theorem joinedUpTo_succ_of_not (hnamed : ¬ Named "-h".toList arguments k) :
    joinedUpTo arguments (k + 1) = joinedUpTo arguments k := by
  rw [joinedUpTo, positions_succ, if_neg hnamed, List.append_nil, joinedUpTo]

theorem joinedUpTo_succ_of_named (hnamed : Named "-h".toList arguments k) :
    joinedUpTo arguments (k + 1) = joinedUpTo arguments k ++ joined (arguments.drop k) := by
  rw [joinedUpTo, positions_succ, if_pos hnamed, List.flatMap_append, joinedUpTo]
  simp

/-! ## The loop -/

/-- What the variables of `main` hold in front of position `k`. -/
structure Holds (arguments : List (List Char)) (k : ℕ) (state : MainState) : Prop where
  fileName : state.fileName = bufferUpTo arguments k
  width : state.hexC.width = 0
  joins : state.hexC.str = joinedUpTo arguments k

theorem holds_initial (arguments : List (List Char)) : Holds arguments 0 .initial where
  fileName := rfl
  width := rfl
  joins := rfl

/-- The branch of `File:`, unless it is the last argument. -/
theorem Holds.copied {state : MainState} {argument : List Char} {rest : List (List Char)}
    (hholds : Holds arguments k state) (hrest : arguments.drop k = argument :: rest)
    (hlast : ¬ (SameText argument "File:".toList ∧ rest = [])) :
    ∃ next : MainState,
      (if SameText argument "File:".toList then copyFileName rest state else some state) =
        some next ∧
      next.fileName = bufferUpTo arguments (k + 1) ∧ next.hexC = state.hexC := by
  have hargument : arguments[k]? = some argument := by
    rw [← List.head?_drop, hrest, List.head?_cons]
  have hnamed : Named "File:".toList arguments k ↔ SameText argument "File:".toList :=
    named_iff hargument
  by_cases hfile : SameText argument "File:".toList
  · cases hpaths : rest with
    | nil => exact absurd ⟨hfile, hpaths⟩ hlast
    | cons path more =>
      have hpath : arguments[k + 1]? = some path := by
        rw [← List.head?_drop, ← List.drop_drop, hrest, List.drop_one, List.tail_cons, hpaths,
          List.head?_cons]
      refine ⟨_, if_pos hfile, ?_, rfl⟩
      exact (bufferUpTo_succ_of_named (hnamed.mpr hfile) hpath).symm
  · refine ⟨state, if_neg hfile, ?_, rfl⟩
    rw [bufferUpTo_succ_of_not (mt hnamed.mp hfile)]
    exact hholds.fileName

/-- The branch of `-h`. -/
theorem Holds.searched (memory : List Char) {state : MainState} {argument : List Char}
    {rest : List (List Char)} (hrest : arguments.drop k = argument :: rest)
    (hfile : state.fileName = bufferUpTo arguments (k + 1)) (hwidth : state.hexC.width = 0)
    (hjoins : state.hexC.str = joinedUpTo arguments k) :
    ∃ next : MainState,
      (if SameText argument "-h".toList then searchFile memory (argument :: rest) state
        else some (state, [])) =
        some (next,
          if Named "-h".toList arguments k then
            (bracketed (joinedUpTo arguments (k + 1))).toList.map
              (.compares (cStr (bufferUpTo arguments (k + 1) ++ memory)))
          else []) ∧
      Holds arguments (k + 1) next := by
  have hargument : arguments[k]? = some argument := by
    rw [← List.head?_drop, hrest, List.head?_cons]
  have hnamed : Named "-h".toList arguments k ↔ SameText argument "-h".toList :=
    named_iff hargument
  by_cases hhex : SameText argument "-h".toList
  · have hmeant : Named "-h".toList arguments k := hnamed.mpr hhex
    have hstream : (putArguments state.hexC (argument :: rest)).str =
        joinedUpTo arguments (k + 1) := by
      rw [putArguments_str _ hwidth, hjoins, joinedUpTo_succ_of_named hmeant, hrest]
    obtain ⟨text, htext⟩ := exists_bracketed (joinedUpTo arguments (k + 1))
    refine ⟨{ state with hexC := putArguments state.hexC (argument :: rest) }, ?_,
      hfile, putArguments_width _ hwidth _, hstream⟩
    rw [if_pos hhex, if_pos hmeant, searchFile, hstream, htext]
    simp [MainState.openedName, hfile]
  · refine ⟨state, ?_, hfile, hwidth, ?_⟩
    · rw [if_neg hhex, if_neg (mt hnamed.mp hhex)]
    · rw [joinedUpTo_succ_of_not (mt hnamed.mp hhex)]
      exact hjoins

/-- A round prints what its argument means and leaves the variables for the next one. -/
theorem Holds.round {state : MainState} {argument : List Char} {rest : List (List Char)}
    (hholds : Holds arguments k state) (behind : ℕ → List Char)
    (hrest : arguments.drop k = argument :: rest)
    (hlast : ¬ (SameText argument "File:".toList ∧ rest = [])) :
    ∃ next, mainRound (behind (k + 1)) argument rest state =
        some (next, reportsAt behind arguments k) ∧ Holds arguments (k + 1) next := by
  have hargument : arguments[k]? = some argument := by
    rw [← List.head?_drop, hrest, List.head?_cons]
  obtain ⟨copied, hcopied, hfile, hkept⟩ := hholds.copied hrest hlast
  have hwidth : copied.hexC.width = 0 := by rw [hkept]; exact hholds.width
  have hjoins : copied.hexC.str = joinedUpTo arguments k := by rw [hkept]; exact hholds.joins
  obtain ⟨next, hsearched, hnext⟩ :=
    Holds.searched (behind (k + 1)) hrest hfile hwidth hjoins
  refine ⟨next, ?_, hnext⟩
  have hnamed : Named "HEX_all".toList arguments k ↔ SameText argument "HEX_all".toList :=
    named_iff hargument
  unfold mainRound
  dsimp only
  rw [hcopied, Option.bind_some, hsearched, Option.map_some]
  dsimp only
  unfold reportsAt
  dsimp only
  by_cases hall : SameText argument "HEX_all".toList
  · rw [if_pos hall, if_pos (hnamed.mpr hall), MainState.openedName, hnext.fileName]
  · rw [if_neg hall, if_neg (mt hnamed.mp hall), List.append_nil]

/-- A `File:` that no path follows is the last argument, and it prints nothing. -/
theorem reportsAt_of_file {behind : ℕ → List Char} {argument : List Char}
    (hargument : arguments[k]? = some argument) (hfile : SameText argument "File:".toList) :
    reportsAt behind arguments k = [] := by
  have hhex : ¬ SameText argument "-h".toList := not_sameText_of_sameText hfile (by decide)
  have hall : ¬ SameText argument "HEX_all".toList := not_sameText_of_sameText hfile (by decide)
  unfold reportsAt
  dsimp only
  rw [if_neg (mt (named_iff hargument).mp hhex), if_neg (mt (named_iff hargument).mp hall)]
  rfl

theorem mainLoop_eq (behind : ℕ → List Char) (arguments : List (List Char)) {count k : ℕ}
    {state : MainState} (hcount : k + count = arguments.length)
    (hholds : Holds arguments k state) :
    mainLoop behind (k + 1) (arguments.drop k) state =
      (List.range' k count).flatMap (reportsAt behind arguments) := by
  induction count generalizing k state with
  | zero =>
    rw [List.drop_of_length_le (by omega)]
    rfl
  | succ count ih =>
    have hinside : k < arguments.length := by omega
    have hrest : arguments.drop k = arguments[k] :: arguments.drop (k + 1) :=
      List.drop_eq_getElem_cons hinside
    rw [hrest, mainLoop, List.range'_succ, List.flatMap_cons]
    by_cases hlast : SameText arguments[k] "File:".toList ∧ arguments.drop (k + 1) = []
    · obtain ⟨hfile, hnothing⟩ := hlast
      have hend : arguments.length ≤ k + 1 := List.drop_eq_nil_iff.mp hnothing
      have hstops : mainRound (behind (k + 1)) arguments[k] (arguments.drop (k + 1)) state =
          none := by
        rw [hnothing, mainRound, if_pos hfile]
        rfl
      have hrounds : count = 0 := by omega
      rw [hstops, hrounds, reportsAt_of_file (List.getElem?_eq_getElem hinside) hfile]
      rfl
    · obtain ⟨next, hround, hnext⟩ := hholds.round behind hrest hlast
      rw [hround]
      dsimp only
      rw [ih (by omega) hnext]

/-- **The meaning of a command line.**  For every command line, `main` prints at each argument in
turn what the arguments up to it and the joined texts mean there. -/
theorem main_eq_reportsAt (behind : ℕ → List Char) (argv : List (List Char)) :
    main behind argv =
      (List.range (argv.drop 1).length).flatMap (reportsAt behind (argv.drop 1)) := by
  have hloop := mainLoop_eq behind (argv.drop 1) (Nat.zero_add _) (holds_initial (argv.drop 1))
  rw [List.drop_zero] at hloop
  rw [main, hloop, List.range_eq_range']

/-! ## What is searched for -/

/-- The text of the search at position `k`. -/
def textAt (arguments : List (List Char)) (k : ℕ) : List Char :=
  (bracketed (joinedUpTo arguments (k + 1))).getD []

theorem searches_reportsAt (behind : ℕ → List Char) (arguments : List (List Char)) (k : ℕ) :
    searches (reportsAt behind arguments k) =
      if Named "-h".toList arguments k then
        [(cStr (bufferUpTo arguments (k + 1) ++ behind (k + 1)), textAt arguments k)]
      else [] := by
  have hnoSearch : ∀ opened,
      searches (if Named "HEX_all".toList arguments k then [.hexAll opened] else []) = [] := by
    intro opened
    split <;> rfl
  unfold reportsAt
  dsimp only
  rw [searches_append, hnoSearch, List.append_nil]
  by_cases hhex : Named "-h".toList arguments k
  · obtain ⟨text, htext⟩ := exists_bracketed (joinedUpTo arguments (k + 1))
    rw [if_pos hhex, if_pos hhex, textAt, htext]
    rfl
  · rw [if_neg hhex, if_neg hhex]
    rfl

/-- The searches of a run, one for each option `-h`. -/
theorem searches_main_eq (behind : ℕ → List Char) (argv : List (List Char)) :
    searches (main behind argv) =
      (positions "-h".toList (argv.drop 1) (argv.drop 1).length).map fun k ↦
        (cStr (bufferUpTo (argv.drop 1) (k + 1) ++ behind (k + 1)), textAt (argv.drop 1) k) := by
  rw [main_eq_reportsAt]
  generalize argv.drop 1 = arguments
  generalize arguments.length = count
  induction count with
  | zero => rfl
  | succ count ih =>
    rw [List.range_succ, List.flatMap_append, searches_append, ih, positions_succ,
      List.map_append, List.flatMap_singleton, searches_reportsAt]
    by_cases hhex : Named "-h".toList arguments count
    · rw [if_pos hhex, if_pos hhex]
      rfl
    · rw [if_neg hhex, if_neg hhex]
      rfl

/-! ## One text or all different -/

/-- The first closing bracket has an opening one in front of it, or there is none at all. -/
def Settled (text : List Char) : Prop :=
  ∃ front back, text = front ++ ']' :: back ∧ ']' ∉ front ∧ ('[' ∈ front ∨ '[' ∉ back)

/-- More characters of the same kinds behind a settled text change nothing. -/
theorem Settled.exists_bracketText {text : List Char} (hsettled : Settled text) :
    ∃ inner, ∀ extra, (∀ char ∈ extra, char ∈ text) → BracketText (text ++ extra) inner := by
  obtain ⟨front, back, rfl, hfront, hopen⟩ := hsettled
  by_cases hbracket : '[' ∈ front
  · obtain ⟨before, inner, rfl, hbefore⟩ := List.eq_append_cons_of_mem hbracket
    rw [List.mem_append, not_or] at hfront
    refine ⟨inner, fun extra _ ↦ ?_⟩
    have hsplit : before ++ '[' :: inner ++ ']' :: back ++ extra =
        before ++ '[' :: (inner ++ ']' :: (back ++ extra)) := by simp
    rw [hsplit]
    exact .between before inner (back ++ extra) hbefore hfront.1
      (fun hclose ↦ hfront.2 (List.mem_cons_of_mem _ hclose))
  · have hback : '[' ∉ back := hopen.resolve_left hbracket
    refine ⟨front, fun extra hextra ↦ ?_⟩
    have hmissing : '[' ∉ extra := fun hmember ↦ by
      have htext := hextra '[' hmember
      simp [hbracket, hback] at htext
    rw [List.append_assoc, List.cons_append]
    exact .before front (back ++ extra) (by simp [hbracket, hback, hmissing]) hfront

/-- Behind any other text they all belong to what the brackets stand for. -/
theorem exists_bracketText_append {text : List Char} (hopen : ¬ Settled text) :
    ∃ inner, ∀ extra, (∀ char ∈ extra, char ∈ text) →
      BracketText (text ++ extra) (inner ++ extra) := by
  by_cases hclose : ']' ∈ text
  · obtain ⟨front, back, rfl, hfront⟩ := List.eq_append_cons_of_mem hclose
    have hnone : '[' ∉ front := fun hmember ↦ hopen ⟨front, back, rfl, hfront, .inl hmember⟩
    have hsome : '[' ∈ back := by
      by_contra hmissing
      exact hopen ⟨front, back, rfl, hfront, .inr hmissing⟩
    obtain ⟨before, rest, rfl, hbefore⟩ := List.eq_append_cons_of_mem hsome
    refine ⟨rest, fun extra _ ↦ ?_⟩
    have hsplit : front ++ ']' :: (before ++ '[' :: rest) ++ extra =
        (front ++ ']' :: before) ++ '[' :: (rest ++ extra) := by simp
    rw [hsplit]
    exact .behind _ _ (by simp [hnone, hbefore]) (.inl (by simp))
  · by_cases hbracket : '[' ∈ text
    · obtain ⟨front, rest, rfl, hfront⟩ := List.eq_append_cons_of_mem hbracket
      refine ⟨rest, fun extra hextra ↦ ?_⟩
      have hnone : ']' ∉ rest ++ extra := by
        intro hmember
        rcases List.mem_append.mp hmember with hrest | hmore
        · exact hclose (by simp [hrest])
        · exact hclose (hextra ']' hmore)
      rw [List.append_assoc, List.cons_append]
      exact .behind front (rest ++ extra) hfront (.inr hnone)
    · refine ⟨text, fun extra hextra ↦ .whole _ ?_ ?_⟩
      · intro hmember
        exact hbracket ((List.mem_append.mp hmember).elim id (hextra '['))
      · intro hmember
        exact hclose ((List.mem_append.mp hmember).elim id (hextra ']'))

/-! ## The growing stream -/

theorem mem_joined_drop {char : Char} {p : ℕ} (hp : p ≤ k)
    (hchar : char ∈ joined (arguments.drop k)) : char ∈ joined (arguments.drop p) := by
  obtain ⟨argument, hargument, hmember⟩ := List.mem_flatMap.mp hchar
  exact List.mem_flatMap.mpr
    ⟨argument, (List.drop_suffix_drop_left arguments hp).subset hargument, hmember⟩

theorem length_joined_drop_le (arguments : List (List Char)) (k : ℕ) :
    (joined (arguments.drop k)).length ≤ (joined arguments).length := by
  have hsplit := congrArg List.length (joined_append (arguments.take k) (arguments.drop k))
  rw [List.take_append_drop, List.length_append] at hsplit
  omega

theorem joined_drop_ne_nil (hnamed : Named name arguments k) : joined (arguments.drop k) ≠ [] := by
  obtain ⟨argument, hargument, -⟩ := hnamed
  obtain ⟨hinside, -⟩ := List.getElem?_eq_some_iff.mp hargument
  rw [List.drop_eq_getElem_cons hinside, joined_cons]
  simp

theorem length_le_joined (arguments : List (List Char)) :
    arguments.length ≤ (joined arguments).length := by
  induction arguments with
  | nil => exact Nat.zero_le _
  | cons argument rest ih =>
    calc
      (argument :: rest).length ≤ 1 + (joined rest).length := by
        rw [List.length_cons]
        omega
      _ ≤ argument.length + (1 + (joined rest).length) := Nat.le_add_left _ _
      _ = (joined (argument :: rest)).length := by
        rw [joined_cons, List.length_append, List.length_append, List.length_singleton,
          Nat.add_assoc]

theorem joinedUpTo_le_succ (arguments : List (List Char)) (k : ℕ) :
    (joinedUpTo arguments k).length ≤ (joinedUpTo arguments (k + 1)).length := by
  by_cases hnamed : Named "-h".toList arguments k
  · rw [joinedUpTo_succ_of_named hnamed, List.length_append]
    exact Nat.le_add_right _ _
  · rw [joinedUpTo_succ_of_not hnamed]

/-- Every search leaves a longer text to the searches behind it. -/
theorem joinedUpTo_lt {j : ℕ} (hlt : j < k) (hnamed : Named "-h".toList arguments k) :
    (joinedUpTo arguments (j + 1)).length < (joinedUpTo arguments (k + 1)).length := by
  have hmonotone : (joinedUpTo arguments (j + 1)).length ≤ (joinedUpTo arguments k).length :=
    monotone_nat_of_le_succ (joinedUpTo_le_succ arguments) hlt
  have hgrows : 0 < (joined (arguments.drop k)).length :=
    List.length_pos_iff.mpr (joined_drop_ne_nil hnamed)
  rw [joinedUpTo_succ_of_named hnamed, List.length_append]
  omega

theorem length_joinedUpTo_le (arguments : List (List Char)) (k : ℕ) :
    (joinedUpTo arguments k).length ≤ k * (joined arguments).length := by
  induction k with
  | zero => exact Nat.zero_le _
  | succ k ih =>
    have hround := length_joined_drop_le arguments k
    rw [Nat.succ_mul]
    by_cases hnamed : Named "-h".toList arguments k
    · rw [joinedUpTo_succ_of_named hnamed, List.length_append]
      exact Nat.add_le_add ih hround
    · rw [joinedUpTo_succ_of_not hnamed]
      exact ih.trans (Nat.le_add_right _ _)

/-- The limit of a command line keeps all positions in the stream within 32 bits. -/
theorem joinedUpTo_short (hshort : (joined arguments).length < 2 ^ 16) (hk : k ≤ arguments.length) :
    (joinedUpTo arguments k).length < 2 ^ 32 := by
  have hrounds : k ≤ (joined arguments).length := hk.trans (length_le_joined arguments)
  calc
    (joinedUpTo arguments k).length ≤ k * (joined arguments).length :=
      length_joinedUpTo_le arguments k
    _ ≤ (joined arguments).length * (joined arguments).length := Nat.mul_le_mul_right _ hrounds
    _ < 2 ^ 16 * 2 ^ 16 := Nat.mul_lt_mul'' hshort hshort
    _ = 2 ^ 32 := by norm_num

/-- The first option `-h` of the arguments. -/
structure FirstHex (arguments : List (List Char)) (p : ℕ) : Prop where
  named : Named "-h".toList arguments p
  first : positions "-h".toList arguments p = []

/-- Behind the text of the first search the stream only repeats parts of it. -/
theorem FirstHex.joinedUpTo_eq {p : ℕ} (hfirst : FirstHex arguments p) (offset : ℕ) :
    ∃ extra, joinedUpTo arguments (p + offset + 1) = joined (arguments.drop p) ++ extra ∧
      ∀ char ∈ extra, char ∈ joined (arguments.drop p) := by
  induction offset with
  | zero =>
    have hbefore : joinedUpTo arguments p = [] := by
      rw [joinedUpTo, hfirst.first, List.flatMap_nil]
    refine ⟨[], ?_, nofun⟩
    rw [Nat.add_zero, joinedUpTo_succ_of_named hfirst.named, hbefore, List.nil_append,
      List.append_nil]
  | succ offset ih =>
    obtain ⟨extra, hextra, hkinds⟩ := ih
    rw [← Nat.add_assoc]
    by_cases hnamed : Named "-h".toList arguments (p + offset + 1)
    · refine ⟨extra ++ joined (arguments.drop (p + offset + 1)), ?_, ?_⟩
      · rw [joinedUpTo_succ_of_named hnamed, hextra, List.append_assoc]
      · intro char hchar
        rcases List.mem_append.mp hchar with hearlier | hlater
        · exact hkinds char hearlier
        · exact mem_joined_drop (by omega) hlater
    · exact ⟨extra, by rw [joinedUpTo_succ_of_not hnamed, hextra], hkinds⟩

theorem named_of_mem_positions {count : ℕ} (hk : k ∈ positions name arguments count) :
    Named name arguments k := by
  rw [positions, List.mem_filter] at hk
  exact of_decide_eq_true hk.2

theorem Named.lt_length (hnamed : Named name arguments k) : k < arguments.length := by
  obtain ⟨argument, hargument, -⟩ := hnamed
  exact (List.getElem?_eq_some_iff.mp hargument).1

/-- No option stands in front of the first one. -/
theorem FirstHex.le {p : ℕ} (hfirst : FirstHex arguments p)
    (hnamed : Named "-h".toList arguments k) : p ≤ k := by
  by_contra hlt
  have hmember : k ∈ positions "-h".toList arguments p := by
    rw [positions, List.mem_filter, List.mem_range]
    exact ⟨not_le.mp hlt, decide_eq_true hnamed⟩
  rw [hfirst.first] at hmember
  cases hmember

/-- The text of a search, from what the brackets of its stream stand for. -/
theorem textAt_eq {inner : List Char} (hshort : (joined arguments).length < 2 ^ 16)
    (hnamed : Named "-h".toList arguments k)
    (htext : BracketText (joinedUpTo arguments (k + 1)) inner) : textAt arguments k = inner := by
  rw [textAt, bracketed_of_bracketText (joinedUpTo_short hshort hnamed.lt_length) htext]
  rfl

/-- The stream of any search, from that of the first one. -/
theorem FirstHex.stream {p : ℕ} (hfirst : FirstHex arguments p)
    (hnamed : Named "-h".toList arguments k) :
    ∃ extra, joinedUpTo arguments (k + 1) = joined (arguments.drop p) ++ extra ∧
      ∀ char ∈ extra, char ∈ joined (arguments.drop p) := by
  obtain ⟨offset, rfl⟩ := Nat.exists_eq_add_of_le (hfirst.le hnamed)
  exact hfirst.joinedUpTo_eq offset

/-- As long as the bracket is open, the length of a text follows the length of its stream. -/
theorem FirstHex.length_textAt {p : ℕ} {inner : List Char} (hfirst : FirstHex arguments p)
    (hshort : (joined arguments).length < 2 ^ 16)
    (hinner : ∀ extra, (∀ char ∈ extra, char ∈ joined (arguments.drop p)) →
      BracketText (joined (arguments.drop p) ++ extra) (inner ++ extra))
    (hnamed : Named "-h".toList arguments k) :
    (textAt arguments k).length + (joined (arguments.drop p)).length =
      inner.length + (joinedUpTo arguments (k + 1)).length := by
  obtain ⟨extra, hextra, hkinds⟩ := hfirst.stream hnamed
  have htext : textAt arguments k = inner ++ extra := by
    apply textAt_eq hshort hnamed
    rw [hextra]
    exact hinner extra hkinds
  rw [htext, hextra, List.length_append, List.length_append]
  omega

/-- **One text or all different.**  Within the limit of a command line, all searches of a run are
for one text if the arguments from the first `-h` on settle it; otherwise no two of them are for the
same text, whatever the later options name. -/
theorem one_text_or_all_different (behind : ℕ → List Char) (argv : List (List Char)) {p : ℕ}
    (hshort : (joined (argv.drop 1)).length < 2 ^ 16) (hfirst : FirstHex (argv.drop 1) p) :
    (Settled (joined ((argv.drop 1).drop p)) →
        ∃ text, ∀ search ∈ searches (main behind argv), search.2 = text) ∧
      (¬ Settled (joined ((argv.drop 1).drop p)) →
        ((searches (main behind argv)).map Prod.snd).Nodup) := by
  rw [searches_main_eq]
  generalize argv.drop 1 = arguments at hshort hfirst
  constructor
  · intro hsettled
    obtain ⟨inner, hinner⟩ := hsettled.exists_bracketText
    refine ⟨inner, List.forall_mem_map.mpr fun k hk ↦ ?_⟩
    have hnamed := named_of_mem_positions hk
    obtain ⟨extra, hextra, hkinds⟩ := hfirst.stream hnamed
    apply textAt_eq hshort hnamed
    rw [hextra]
    exact hinner extra hkinds
  · intro hopen
    obtain ⟨inner, hinner⟩ := exists_bracketText_append hopen
    rw [List.map_map, List.nodup_iff_pairwise_ne, List.pairwise_map]
    have hsorted : (positions "-h".toList arguments arguments.length).Pairwise (· < ·) :=
      List.pairwise_lt_range.filter _
    refine hsorted.imp_of_mem fun {j k} hj hk hlt ↦ ?_
    intro hsame
    have hearlier := hfirst.length_textAt hshort hinner (named_of_mem_positions hj)
    have hlater := hfirst.length_textAt hshort hinner (named_of_mem_positions hk)
    have hgrows := joinedUpTo_lt hlt (named_of_mem_positions hk)
    have htexts : (textAt arguments j).length = (textAt arguments k).length :=
      congrArg List.length hsame
    omega

theorem twoSearches_one_text :
    ∃ text, ∀ search ∈ searches (main (fun _ ↦ []) twoSearches.argv), search.2 = text := by
  have hsettled : Settled (joined ((twoSearches.argv.drop 1).drop 2)) :=
    ⟨"-h [41".toList, " -h [42] ".toList, by decide, by decide, .inl (by decide)⟩
  exact (one_text_or_all_different (fun _ ↦ []) twoSearches.argv (by decide)
    ⟨by decide, by decide⟩).1 hsettled

end WinProcessThread.HexParser
