import WinProcessThread.HexParser.Brackets
import WinProcessThread.HexParser.FileRead

/-!
# The options of the command line

`main` goes through its arguments and acts on the option names it meets.  The stream that a search
joins its arguments in is never emptied, and each search joins all arguments up to the end, so every
search finds the brackets of the first one.  The file is the one whose name has been copied so far.
-/

namespace WinProcessThread.HexParser

open Text

/-! ## The code -/

def maxFilepath : ℕ := 255

/-- `lstrcmpi` finds the strings equal: case does not matter. -/
def SameText (string other : List Char) : Prop :=
  string.map Char.toLower = other.map Char.toLower

instance (string other : List Char) : Decidable (SameText string other) :=
  inferInstanceAs (Decidable (_ = _))

/-- The variables of `main` that a round of its loop leaves to the next one. -/
structure MainState where
  /-- The characters of the buffer, up to its end or a terminator. -/
  fileName : List Char
  hexC : OutputStream
deriving DecidableEq, Repr

/-- What a round prints, by the call that it prints the result of. -/
inductive Report
  | compares (fileName findHexInfile : List Char)
  | hexAll (fileName : List Char)
deriving DecidableEq, Repr

/-- The printed text, for what `file_append_log` has returned. -/
def Report.text (hstr : HexString) : Report → List Char
  | .compares _ findHexInfile => findAllCompares hstr.hexLine findHexInfile
  | .hexAll _ => hstr.hexLine

/-- The file name as a C string.  Without a terminator in the buffer it goes on in the memory behind
it. -/
def MainState.openedName (state : MainState) (behind : List Char) : List Char :=
  cStr (state.fileName ++ behind)

/-- `memcpy_s` from the next argument.  There is a null pointer behind the last argument, which
`memcpy_s` ends the process for. -/
def copyFileName (rest : List (List Char)) (state : MainState) : Option MainState :=
  match rest with
  | [] => none
  | path :: _ => some { state with fileName := (path ++ ['\x00']).take maxFilepath }

/-- The loop over `j`. -/
def putArguments (hexC : OutputStream) : List (List Char) → OutputStream
  | [] => hexC
  | argument :: rest => putArguments ((hexC.put argument).put " ".toList) rest

/-- The branch of `-h`; the exception of `substr` ends the process. -/
def searchFile (behind : List Char) (arguments : List (List Char)) (state : MainState) :
    Option (MainState × List Report) :=
  let hexC := putArguments state.hexC arguments
  (bracketed hexC.str).map fun findHexInfile ↦
    ({ state with hexC := hexC }, [.compares (state.openedName behind) findHexInfile])

/-- The body of the loop on `argv[i]` and the arguments behind it. -/
def mainRound (behind argument : List Char) (rest : List (List Char)) (state : MainState) :
    Option (MainState × List Report) :=
  let copied := if SameText argument "File:".toList then copyFileName rest state else some state
  copied.bind fun state ↦
    let searched :=
      if SameText argument "-h".toList then searchFile behind (argument :: rest) state
      else some (state, [])
    searched.map fun (state, reports) ↦
      if SameText argument "HEX_all".toList then
        (state, reports ++ [.hexAll (state.openedName behind)])
      else
        (state, reports)

/-- The loop of `main` on the arguments from `argv[i]` on.  `behind i` is the memory behind the
buffer of the file name in round `i`. -/
def mainLoop (behind : ℕ → List Char) (i : ℕ) : List (List Char) → MainState → List Report
  | [], _ => []
  | argument :: rest, state =>
    match mainRound (behind i) argument rest state with
    | some (next, reports) => reports ++ mainLoop behind (i + 1) rest next
    | none => []

def MainState.initial : MainState where
  fileName := List.replicate maxFilepath '\x00'
  hexC := .empty

/-- `main`. -/
def main (behind : ℕ → List Char) (argv : List (List Char)) : List Report :=
  mainLoop behind 1 (argv.drop 1) .initial

/-- The searches among the reports: in which file, and for what. -/
def searches (reports : List Report) : List (List Char × List Char) :=
  reports.filterMap fun
    | .compares fileName findHexInfile => some (fileName, findHexInfile)
    | .hexAll _ => none

/-! ## Options -/

/-- `-h [pattern]`, the brackets attached to the pattern or in arguments of their own. -/
structure HexOption where
  name : List Char
  words : List (List Char)
  pattern : List Char
  name_same : SameText name "-h".toList
  words_joined : joined words = "[".toList ++ pattern ++ "] ".toList
  without_brackets : '[' ∉ pattern ∧ ']' ∉ pattern
  words_plain : ∀ word ∈ words, ¬ SameText word "File:".toList ∧ ¬ SameText word "-h".toList

def HexOption.arguments (option : HexOption) : List (List Char) :=
  option.name :: option.words

/-- `File: <path>`. -/
structure FileOption where
  name : List Char
  path : List Char
  name_same : SameText name "File:".toList
  path_string : '\x00' ∉ path

/-- One `File:` option among any number of `-h` options. -/
structure CommandLine where
  program : List Char
  before : List HexOption
  file : FileOption
  after : List HexOption

def CommandLine.options (line : CommandLine) : List HexOption :=
  line.before ++ line.after

def CommandLine.argv (line : CommandLine) : List (List Char) :=
  line.program :: (line.before.flatMap HexOption.arguments ++
    line.file.name :: line.file.path :: line.after.flatMap HexOption.arguments)

/-- Each search is made in the named file and for the pattern of its own option, whatever the memory
behind the buffer holds. -/
def Undisturbed (line : CommandLine) : Prop :=
  ∀ behind, searches (main behind line.argv) =
    line.options.map fun option ↦ (line.file.path, option.pattern)

/-- The options that do not disturb each other: one pattern only, a path that is not taken for an
option and fits the buffer, and no search in front of it unless it is empty. -/
structure Compatible (line : CommandLine) : Prop where
  path_plain : ¬ SameText line.file.path "-h".toList
  before : line.before ≠ [] → line.file.path = []
  after : line.after ≠ [] →
    ¬ SameText line.file.path "File:".toList ∧ line.file.path.length < maxFilepath
  same : ∀ option ∈ line.options, ∀ other ∈ line.options, option.pattern = other.pattern
  short : ∀ option ∈ line.options, option.pattern.length < 2 ^ 32

/-! ## The joined arguments -/

variable {behind : ℕ → List Char} {argument name text : List Char} {rest more : List (List Char)}
variable {state : MainState} {i : ℕ}

@[simp]
theorem joined_nil : joined [] = [] := rfl

@[simp]
theorem joined_cons (argument : List Char) (rest : List (List Char)) :
    joined (argument :: rest) = argument ++ [' '] ++ joined rest := rfl

theorem joined_append (arguments more : List (List Char)) :
    joined (arguments ++ more) = joined arguments ++ joined more :=
  List.flatMap_append

theorem putArguments_width (hexC : OutputStream) (hwidth : hexC.width = 0)
    (arguments : List (List Char)) : (putArguments hexC arguments).width = 0 := by
  induction arguments generalizing hexC with
  | nil => exact hwidth
  | cons argument rest ih => exact ih _ (OutputStream.put_width _ _)

theorem putArguments_str (hexC : OutputStream) (hwidth : hexC.width = 0)
    (arguments : List (List Char)) :
    (putArguments hexC arguments).str = hexC.str ++ joined arguments := by
  induction arguments generalizing hexC with
  | nil => simp [putArguments]
  | cons argument rest ih =>
    calc
      (putArguments hexC (argument :: rest)).str =
          ((hexC.put argument).put " ".toList).str ++ joined rest :=
        ih _ (OutputStream.put_width _ _)
      _ = hexC.str ++ joined (argument :: rest) := by
        rw [OutputStream.put_str_of_width (OutputStream.put_width _ _),
          OutputStream.put_str_of_width hwidth, joined_cons]
        simp

/-! ## Option names -/

theorem hexName_same : SameText "-h".toList "-h".toList := rfl

/-- An argument is taken for one name only. -/
theorem not_sameText_of_sameText {other : List Char} (hsame : SameText argument name)
    (hnames : ¬ SameText name other) : ¬ SameText argument other := by
  intro hother
  exact hnames (hsame.symm.trans hother)

theorem not_file_of_hex (hhex : SameText argument "-h".toList) :
    ¬ SameText argument "File:".toList :=
  not_sameText_of_sameText hhex (by decide)

theorem HexOption.name_length (option : HexOption) : option.name.length = 2 := by
  have hlength := congrArg List.length option.name_same
  rw [List.length_map] at hlength
  exact hlength

theorem not_mem_of_sameText {other : List Char} (char : Char) (hsame : SameText argument other)
    (hchar : char.toLower ∉ other.map Char.toLower) : char ∉ argument := by
  intro hmember
  apply hchar
  rw [← hsame]
  exact List.mem_map_of_mem hmember

/-! ## One argument -/

@[simp]
theorem searches_nil : searches [] = [] := rfl

@[simp]
theorem searches_append (reports more : List Report) :
    searches (reports ++ more) = searches reports ++ searches more :=
  List.filterMap_append

/-- An argument that is neither name searches for nothing. -/
theorem searches_plain (hfile : ¬ SameText argument "File:".toList)
    (hhex : ¬ SameText argument "-h".toList) :
    searches (mainLoop behind i (argument :: rest) state) =
      searches (mainLoop behind (i + 1) rest state) := by
  rw [mainLoop, mainRound, if_neg hfile]
  dsimp only [Option.bind_some]
  rw [if_neg hhex]
  dsimp only [Option.map_some]
  by_cases hall : SameText argument "HEX_all".toList
  · rw [if_pos hall, searches_append]
    rfl
  · rw [if_neg hall, searches_append]
    rfl

theorem searches_words {words : List (List Char)}
    (hplain : ∀ word ∈ words, ¬ SameText word "File:".toList ∧ ¬ SameText word "-h".toList) :
    searches (mainLoop behind i (words ++ more) state) =
      searches (mainLoop behind (i + words.length) more state) := by
  induction words generalizing i with
  | nil => rfl
  | cons word rest ih =>
    obtain ⟨⟨hfile, hhex⟩, hrest⟩ := List.forall_mem_cons.mp hplain
    calc
      searches (mainLoop behind i (word :: rest ++ more) state) =
          searches (mainLoop behind (i + 1) (rest ++ more) state) := searches_plain hfile hhex
      _ = searches (mainLoop behind (i + 1 + rest.length) more state) := ih hrest
      _ = searches (mainLoop behind (i + (word :: rest).length) more state) := by
        rw [List.length_cons, Nat.add_assoc, Nat.add_comm 1]

theorem searches_hex (behind : ℕ → List Char) (i : ℕ) (state : MainState)
    (hhex : SameText argument "-h".toList) (hwidth : state.hexC.width = 0)
    (htext : bracketed (state.hexC.str ++ joined (argument :: rest)) = some text) :
    searches (mainLoop behind i (argument :: rest) state) =
      (state.openedName (behind i), text) ::
        searches (mainLoop behind (i + 1) rest
          { state with hexC := putArguments state.hexC (argument :: rest) }) := by
  rw [← putArguments_str state.hexC hwidth] at htext
  rw [mainLoop, mainRound, if_neg (not_file_of_hex hhex)]
  dsimp only [Option.bind_some]
  rw [if_pos hhex, searchFile, htext]
  dsimp only [Option.map_some]
  rw [if_neg (not_sameText_of_sameText hhex (by decide))]
  rfl

theorem searches_file {path : List Char} (hfile : SameText argument "File:".toList) :
    searches (mainLoop behind i (argument :: path :: more) state) =
      searches (mainLoop behind (i + 1) (path :: more)
        { state with fileName := (path ++ ['\x00']).take maxFilepath }) := by
  have hhex : ¬ SameText argument "-h".toList := not_sameText_of_sameText hfile (by decide)
  have hall : ¬ SameText argument "HEX_all".toList := not_sameText_of_sameText hfile (by decide)
  rw [mainLoop, mainRound, if_pos hfile, copyFileName]
  dsimp only [Option.bind_some]
  rw [if_neg hhex]
  dsimp only [Option.map_some]
  rw [if_neg hall]
  rfl

theorem searches_file_last (hfile : SameText argument "File:".toList) :
    searches (mainLoop behind i [argument] state) = [] := by
  rw [mainLoop, mainRound, if_pos hfile]
  rfl

/-! ## Several options -/

/-- A search is made for every option, whatever it is for. -/
theorem length_searches_options (behind : ℕ → List Char) (i : ℕ) (state : MainState)
    (options : List HexOption) (more : List (List Char)) (hwidth : state.hexC.width = 0) :
    ∃ next j, next.hexC.width = 0 ∧
      (searches (mainLoop behind i (options.flatMap HexOption.arguments ++ more) state)).length =
        options.length + (searches (mainLoop behind j more next)).length := by
  induction options generalizing i state with
  | nil => exact ⟨state, i, hwidth, (Nat.zero_add _).symm⟩
  | cons option rest ih =>
    obtain ⟨text, htext⟩ := exists_bracketed (state.hexC.str ++ joined (option.name ::
      (option.words ++ (rest.flatMap HexOption.arguments ++ more))))
    obtain ⟨next, j, hnext, hlength⟩ := ih (i + 1 + option.words.length) { state with
      hexC := putArguments state.hexC (option.name ::
        (option.words ++ (rest.flatMap HexOption.arguments ++ more))) }
      (putArguments_width _ hwidth _)
    refine ⟨next, j, hnext, ?_⟩
    have hsearch := searches_hex behind i state option.name_same hwidth htext
    calc
      (searches (mainLoop behind i
            ((option :: rest).flatMap HexOption.arguments ++ more) state)).length =
          (searches (mainLoop behind i (option.name :: (option.words ++
            (rest.flatMap HexOption.arguments ++ more))) state)).length := by
        rw [List.flatMap_cons, List.append_assoc, HexOption.arguments, List.cons_append]
      _ = rest.length + (searches (mainLoop behind j more next)).length + 1 := by
        rw [hsearch, List.length_cons, searches_words option.words_plain, hlength]
      _ = (option :: rest).length + (searches (mainLoop behind j more next)).length := by
        rw [List.length_cons]
        omega

/-- What the first brackets enclose, as far as 32 bits count it. -/
def cut (pattern : List Char) : List Char :=
  pattern.take (pattern.length % 2 ^ 32)

/-- The searches of these options all find the same text between brackets. -/
structure Extracts (hexC : OutputStream) (options : List HexOption) (text : List Char) : Prop where
  width : hexC.width = 0
  first : ∀ option ∈ options.head?, ∀ extra,
    bracketed (hexC.str ++ joined option.arguments ++ extra) = some text

/-- From the empty stream it is the text of the first option. -/
theorem extracts_empty {options : List HexOption}
    (htext : ∀ option ∈ options.head?, text = cut option.pattern) :
    Extracts .empty options text where
  width := rfl
  first option hoption extra := by
    have hopen : '[' ∉ option.name ++ [' '] := by
      simp [not_mem_of_sameText '[' option.name_same (by decide)]
    have hclose : ']' ∉ option.name ++ [' '] := by
      simp [not_mem_of_sameText ']' option.name_same (by decide)]
    have hjoined : OutputStream.empty.str ++ joined option.arguments ++ extra =
        (option.name ++ [' ']) ++ '[' :: (option.pattern ++ ']' :: (' ' :: extra)) := by
      rw [HexOption.arguments, joined_cons, option.words_joined]
      simp [OutputStream.empty]
    rw [hjoined, bracketed_between _ hopen hclose option.without_brackets.2, htext option hoption,
      cut]
    rw [List.length_append, option.name_length]
    decide

/-- A search leaves all arguments in the stream, and with them its brackets. -/
theorem Extracts.next {option : HexOption} {options later : List HexOption}
    (hextracts : Extracts state.hexC (option :: options) text) (more : List (List Char)) :
    Extracts (putArguments state.hexC (option.arguments ++ more)) later text where
  width := putArguments_width _ hextracts.width _
  first other _ extra := by
    have hstr : (putArguments state.hexC (option.arguments ++ more)).str =
        state.hexC.str ++ joined option.arguments ++ joined more := by
      rw [putArguments_str _ hextracts.width, joined_append, List.append_assoc]
    rw [hstr, List.append_assoc, List.append_assoc]
    exact hextracts.first option rfl _

theorem searches_options (behind : ℕ → List Char) (i : ℕ) (state : MainState)
    (options later : List HexOption) (more : List (List Char))
    (hextracts : Extracts state.hexC (options ++ later) text)
    (hname : ∀ i, state.openedName (behind i) = name) :
    ∃ next j, next.fileName = state.fileName ∧ Extracts next.hexC later text ∧
      searches (mainLoop behind i (options.flatMap HexOption.arguments ++ more) state) =
        List.replicate options.length (name, text) ++ searches (mainLoop behind j more next) := by
  induction options generalizing i state with
  | nil => exact ⟨state, i, rfl, hextracts, rfl⟩
  | cons option rest ih =>
    have hfirst := hextracts.first option rfl (joined (rest.flatMap HexOption.arguments ++ more))
    rw [List.append_assoc, ← joined_append] at hfirst
    obtain ⟨next, j, hfile, hnext, hsearches⟩ := ih (i + 1 + option.words.length)
      { state with hexC := putArguments state.hexC (option.arguments ++
        (rest.flatMap HexOption.arguments ++ more)) } (hextracts.next _) hname
    refine ⟨next, j, hfile, hnext, ?_⟩
    rw [HexOption.arguments, List.cons_append] at hfirst hsearches
    have hsearch := searches_hex behind i state option.name_same hextracts.width hfirst
    calc
      searches (mainLoop behind i ((option :: rest).flatMap HexOption.arguments ++ more) state) =
          searches (mainLoop behind i (option.name :: (option.words ++
            (rest.flatMap HexOption.arguments ++ more))) state) := by
        rw [List.flatMap_cons, List.append_assoc, HexOption.arguments, List.cons_append]
      _ = (name, text) :: (List.replicate rest.length (name, text) ++
            searches (mainLoop behind j more next)) := by
        rw [hsearch, searches_words option.words_plain, hsearches, hname]
      _ = List.replicate (option :: rest).length (name, text) ++
            searches (mainLoop behind j more next) := by
        rw [List.length_cons, List.replicate_succ, List.cons_append]

/-! ## The file name -/

theorem openedName_initial (memory : List Char) : MainState.initial.openedName memory = [] := rfl

theorem openedName_copied {path : List Char} (hstring : '\x00' ∉ path)
    (hfits : path.length < maxFilepath) (memory : List Char) (hexC : OutputStream) :
    MainState.openedName ⟨(path ++ ['\x00']).take maxFilepath, hexC⟩ memory = path := by
  have hwhole : (path ++ ['\x00']).take maxFilepath = path ++ ['\x00'] := by
    apply List.take_of_length_le
    rw [List.length_append, List.length_singleton]
    exact hfits
  have hbefore : ∀ char ∈ path, decide (char ≠ '\x00') = true := by
    intro char hchar
    rw [decide_eq_true_eq]
    exact ne_of_mem_of_not_mem hchar hstring
  calc
    MainState.openedName ⟨(path ++ ['\x00']).take maxFilepath, hexC⟩ memory =
        cStr (path ++ '\x00' :: memory) := by
      rw [MainState.openedName, hwhole, List.append_assoc, List.singleton_append]
    _ = path ++ cStr ('\x00' :: memory) := List.takeWhile_append_of_pos hbefore
    _ = path := List.append_nil path

/-- A path that does not fit goes on in the memory behind the buffer. -/
theorem openedName_cut {path : List Char} (hstring : '\x00' ∉ path)
    (hlong : maxFilepath ≤ path.length) (memory : List Char) (hexC : OutputStream) :
    MainState.openedName ⟨(path ++ ['\x00']).take maxFilepath, hexC⟩ memory =
      path.take maxFilepath ++ cStr memory := by
  have hbefore : ∀ char ∈ path.take maxFilepath, decide (char ≠ '\x00') = true := by
    intro char hchar
    rw [decide_eq_true_eq]
    exact ne_of_mem_of_not_mem (List.mem_of_mem_take hchar) hstring
  calc
    MainState.openedName ⟨(path ++ ['\x00']).take maxFilepath, hexC⟩ memory =
        cStr (path.take maxFilepath ++ memory) := by
      rw [MainState.openedName, List.take_append_of_le_length hlong]
    _ = path.take maxFilepath ++ cStr memory := List.takeWhile_append_of_pos hbefore

/-! ## The whole command line -/

variable {line : CommandLine}

theorem main_argv (line : CommandLine) :
    main behind line.argv = mainLoop behind 1 (line.before.flatMap HexOption.arguments ++
      line.file.name :: line.file.path :: line.after.flatMap HexOption.arguments) .initial := rfl

/-- The searches in front of `File:` are made in a file without a name. -/
theorem searches_before (behind : ℕ → List Char)
    (htext : ∀ option ∈ line.options.head?, text = cut option.pattern) :
    ∃ hexC j, Extracts hexC line.after text ∧
      searches (main behind line.argv) =
        List.replicate line.before.length ([], text) ++
          searches (mainLoop behind j (line.file.path :: line.after.flatMap HexOption.arguments)
            ⟨(line.file.path ++ ['\x00']).take maxFilepath, hexC⟩) := by
  obtain ⟨next, j, -, hextracts, hsearches⟩ :=
    searches_options behind 1 .initial line.before line.after
      (line.file.name :: line.file.path :: line.after.flatMap HexOption.arguments)
      (extracts_empty htext) (fun i ↦ openedName_initial (behind i))
  refine ⟨next.hexC, j + 1, hextracts, ?_⟩
  rw [main_argv, hsearches, searches_file line.file.name_same]

/-- A path that is no option name is the file of all searches behind it. -/
theorem searches_main (htext : ∀ option ∈ line.options.head?, text = cut option.pattern)
    (hfile : ¬ SameText line.file.path "File:".toList)
    (hhex : ¬ SameText line.file.path "-h".toList)
    (hname : ∀ i hexC, MainState.openedName ⟨(line.file.path ++ ['\x00']).take maxFilepath, hexC⟩
      (behind i) = name) :
    searches (main behind line.argv) =
      List.replicate line.before.length ([], text) ++
        List.replicate line.after.length (name, text) := by
  obtain ⟨hexC, j, hextracts, hsearches⟩ := searches_before behind htext
  obtain ⟨next, k, -, -, hafter⟩ := searches_options behind (j + 1)
    ⟨(line.file.path ++ ['\x00']).take maxFilepath, hexC⟩ line.after [] []
    (by rwa [List.append_nil]) (fun i ↦ hname i hexC)
  rw [List.append_nil, mainLoop, searches_nil, List.append_nil] at hafter
  rw [hsearches, searches_plain hfile hhex, hafter]

/-- A path `-h` is taken for an option of its own. -/
theorem length_searches_of_hex_path (behind : ℕ → List Char)
    (hhex : SameText line.file.path "-h".toList) :
    (searches (main behind line.argv)).length = line.options.length + 1 := by
  obtain ⟨next, j, hwidth, hbefore⟩ := length_searches_options behind 1 .initial line.before
    (line.file.name :: line.file.path :: line.after.flatMap HexOption.arguments) rfl
  obtain ⟨text, htext⟩ := exists_bracketed (next.hexC.str ++
    joined (line.file.path :: line.after.flatMap HexOption.arguments))
  obtain ⟨last, k, -, hafter⟩ := length_searches_options behind (j + 1 + 1)
    ⟨(line.file.path ++ ['\x00']).take maxFilepath,
      putArguments next.hexC (line.file.path :: line.after.flatMap HexOption.arguments)⟩
    line.after [] (putArguments_width _ hwidth _)
  rw [List.append_nil, mainLoop, searches_nil, List.length_nil] at hafter
  have hpath := searches_hex behind (j + 1)
    ⟨(line.file.path ++ ['\x00']).take maxFilepath, next.hexC⟩ hhex hwidth htext
  have hoptions : line.options.length = line.before.length + line.after.length := by
    rw [CommandLine.options, List.length_append]
  calc
    (searches (main behind line.argv)).length =
        line.before.length + (searches (mainLoop behind j (line.file.name :: line.file.path ::
          line.after.flatMap HexOption.arguments) next)).length := by
      rw [main_argv, hbefore]
    _ = line.before.length + (line.after.length + 1) := by
      rw [searches_file line.file.name_same, hpath, List.length_cons, hafter]
    _ = line.options.length + 1 := by
      rw [hoptions, Nat.add_assoc]

/-- A path `File:` is taken for the option, and the next argument for the path. -/
theorem searches_of_file_path (htext : ∀ option ∈ line.options.head?, text = cut option.pattern)
    (hfile : SameText line.file.path "File:".toList) :
    searches (main behind line.argv) =
      List.replicate line.before.length ([], text) ++
        line.after.head?.toList.flatMap fun option ↦
          List.replicate line.after.length (option.name, text) := by
  obtain ⟨hexC, j, hextracts, hsearches⟩ := searches_before behind htext
  rw [hsearches]
  apply congrArg (List.replicate line.before.length ([], text) ++ ·)
  cases hafter : line.after with
  | nil => exact searches_file_last hfile
  | cons option rest =>
    have hstring : '\x00' ∉ option.name := not_mem_of_sameText _ option.name_same (by decide)
    have hfits : option.name.length < maxFilepath := by
      rw [option.name_length]
      decide
    rw [hafter] at hextracts
    obtain ⟨next, k, -, -, hrest⟩ := searches_options behind (j + 1)
      ⟨(option.name ++ ['\x00']).take maxFilepath, hexC⟩ (option :: rest) [] []
      (by rwa [List.append_nil])
      (fun i ↦ openedName_copied hstring hfits (behind i) hexC)
    rw [List.append_nil, mainLoop, searches_nil, List.append_nil, List.flatMap_cons,
      HexOption.arguments, List.cons_append] at hrest
    calc
      searches (mainLoop behind j (line.file.path :: (option :: rest).flatMap HexOption.arguments)
            ⟨(line.file.path ++ ['\x00']).take maxFilepath, hexC⟩) =
          searches (mainLoop behind j
            (line.file.path :: option.name :: (option.words ++ rest.flatMap HexOption.arguments))
            ⟨(line.file.path ++ ['\x00']).take maxFilepath, hexC⟩) := by
        rw [List.flatMap_cons, HexOption.arguments, List.cons_append]
      _ = List.replicate (option :: rest).length (option.name, text) := by
        rw [searches_file hfile, hrest]
      _ = (option :: rest).head?.toList.flatMap fun option ↦
            List.replicate (option :: rest).length (option.name, text) := by
        simp

theorem replicate_eq_map_iff {α β : Type*} {value : β} {f : α → β} {list : List α} :
    List.replicate list.length value = list.map f ↔ ∀ element ∈ list, value = f element := by
  rw [eq_comm, List.map_eq_replicate_iff]
  exact forall₂_congr fun _ _ ↦ eq_comm

/-- A text that is `cut` of the first pattern is every pattern exactly when they are all the same
and short. -/
theorem eq_pattern_iff (htext : ∀ option ∈ line.options.head?, text = cut option.pattern) :
    (∀ option ∈ line.options, text = option.pattern) ↔
      (∀ option ∈ line.options, ∀ other ∈ line.options, option.pattern = other.pattern) ∧
        ∀ option ∈ line.options, option.pattern.length < 2 ^ 32 := by
  cases hoptions : line.options with
  | nil => simp
  | cons first rest =>
    rw [hoptions] at htext
    have hcut : text = cut first.pattern := htext first rfl
    constructor
    · intro hpattern
      have hfirst : text = first.pattern := hpattern first List.mem_cons_self
      have hshort : first.pattern.length < 2 ^ 32 := by
        have hlength : (cut first.pattern).length = first.pattern.length := by
          rw [← hcut, hfirst]
        rw [cut, List.length_take] at hlength
        have hmod : first.pattern.length % 2 ^ 32 < 2 ^ 32 := Nat.mod_lt _ (by decide)
        omega
      constructor
      · intro option hoption other hother
        exact (hpattern option hoption).symm.trans (hpattern other hother)
      · intro option hoption
        rwa [← hpattern option hoption, hfirst]
    · rintro ⟨hsame, hshort⟩ option hoption
      have hfirst : first.pattern.length < 2 ^ 32 := hshort first List.mem_cons_self
      rw [hcut, cut, Nat.mod_eq_of_lt hfirst, List.take_length]
      exact hsame first List.mem_cons_self option hoption

theorem exists_cut_head (options : List HexOption) :
    ∃ text, ∀ option ∈ options.head?, text = cut option.pattern := by
  cases options with
  | nil => exact ⟨[], nofun⟩
  | cons option rest =>
    refine ⟨cut option.pattern, ?_⟩
    rintro other ⟨⟩
    rfl

theorem Undisturbed.path_plain (hright : Undisturbed line) :
    ¬ SameText line.file.path "-h".toList := by
  intro hhex
  have hlength := length_searches_of_hex_path (fun _ ↦ []) hhex
  rw [hright, List.length_map] at hlength
  omega

/-- The searches in front of `File:` are judged apart from those behind it. -/
theorem searches_right_iff {after : List (List Char × List Char)} :
    List.replicate line.before.length ([], text) ++ after =
        line.options.map (fun option ↦ (line.file.path, option.pattern)) ↔
      (∀ option ∈ line.before, [] = line.file.path ∧ text = option.pattern) ∧
        after = line.after.map fun option ↦ (line.file.path, option.pattern) := by
  have hbefore : List.replicate line.before.length (([] : List Char), text) =
      line.before.map (fun option ↦ (line.file.path, option.pattern)) ↔
        ∀ option ∈ line.before, [] = line.file.path ∧ text = option.pattern := by
    rw [replicate_eq_map_iff]
    exact forall₂_congr fun _ _ ↦ Prod.mk_inj
  rw [CommandLine.options, List.map_append, ← hbefore]
  constructor
  · intro happend
    apply List.append_inj happend
    rw [List.length_replicate, List.length_map]
  · rintro ⟨hleft, hright⟩
    rw [hleft, hright]

/-- A file of this name is searched by the options behind `File:`. -/
theorem replicate_after_iff :
    List.replicate line.after.length (name, text) =
        line.after.map (fun option ↦ (line.file.path, option.pattern)) ↔
      ∀ option ∈ line.after, name = line.file.path ∧ text = option.pattern := by
  rw [replicate_eq_map_iff]
  exact forall₂_congr fun _ _ ↦ Prod.mk_inj

theorem Undisturbed.after_of_file_path (hright : Undisturbed line)
    (hfile : SameText line.file.path "File:".toList) : line.after = [] := by
  obtain ⟨text, htext⟩ := exists_cut_head line.options
  have hsearches := hright fun _ ↦ []
  rw [searches_of_file_path htext hfile, searches_right_iff] at hsearches
  have hafter := hsearches.2
  cases hcases : line.after with
  | nil => rfl
  | cons option rest =>
    rw [hcases] at hafter
    have hpath : option.name = line.file.path := by
      have hfirst := congrArg List.head? hafter
      simp only [List.head?_cons, Option.toList_some, List.flatMap_cons, List.flatMap_nil,
        List.append_nil, List.length_cons, List.replicate_succ, List.map_cons, Option.some.injEq,
        Prod.mk.injEq] at hfirst
      exact hfirst.1
    rw [← hpath] at hfile
    exact absurd hfile (not_file_of_hex option.name_same)

/-- A path that does not fit is the right one for one content of the memory behind it at most. -/
theorem Undisturbed.fits (hright : Undisturbed line)
    (hfile : ¬ SameText line.file.path "File:".toList) (hafter : line.after ≠ []) :
    line.file.path.length < maxFilepath := by
  by_contra hlong
  obtain ⟨text, htext⟩ := exists_cut_head line.options
  obtain ⟨option, hoption⟩ := List.exists_mem_of_ne_nil _ hafter
  have hmemory : ∀ memory, line.file.path.take maxFilepath ++ cStr memory = line.file.path := by
    intro memory
    have hsearches := hright fun _ ↦ memory
    rw [searches_main htext hfile hright.path_plain
      (fun _ hexC ↦ openedName_cut line.file.path_string (not_lt.mp hlong) memory hexC),
      searches_right_iff, replicate_after_iff] at hsearches
    exact (hsearches.2 option hoption).1
  have hshorter := congrArg List.length (hmemory [])
  have hlonger := congrArg List.length (hmemory ['x'])
  rw [List.length_append] at hshorter hlonger
  have hempty : (cStr []).length = 0 := by decide
  have hsingle : (cStr ['x']).length = 1 := by decide
  omega

/-- Every option searches for its own pattern, and those in front of `File:` in its own file. -/
theorem Undisturbed.parts (hright : Undisturbed line)
    (htext : ∀ option ∈ line.options.head?, text = cut option.pattern) :
    (∀ option ∈ line.before, [] = line.file.path ∧ text = option.pattern) ∧
      ∀ option ∈ line.after, text = option.pattern := by
  have hsearches := hright fun _ ↦ []
  by_cases hfile : SameText line.file.path "File:".toList
  · rw [searches_of_file_path htext hfile, searches_right_iff] at hsearches
    refine ⟨hsearches.1, ?_⟩
    rw [hright.after_of_file_path hfile]
    exact nofun
  · have hname : ∀ _ : ℕ, ∀ hexC, MainState.openedName
        ⟨(line.file.path ++ ['\x00']).take maxFilepath, hexC⟩ [] =
          MainState.openedName ⟨(line.file.path ++ ['\x00']).take maxFilepath, .empty⟩ [] :=
      fun _ _ ↦ rfl
    rw [searches_main htext hfile hright.path_plain hname, searches_right_iff,
      replicate_after_iff] at hsearches
    exact ⟨hsearches.1, fun option hoption ↦ (hsearches.2 option hoption).2⟩

theorem Undisturbed.compatible (hright : Undisturbed line) : Compatible line := by
  obtain ⟨text, htext⟩ := exists_cut_head line.options
  obtain ⟨hbefore, hafter⟩ := hright.parts htext
  have hpattern : ∀ option ∈ line.options, text = option.pattern :=
    List.forall_mem_append.mpr ⟨fun option hoption ↦ (hbefore option hoption).2, hafter⟩
  obtain ⟨hsame, hshort⟩ := (eq_pattern_iff htext).mp hpattern
  refine ⟨hright.path_plain, ?_, ?_, hsame, hshort⟩
  · intro hsome
    obtain ⟨option, hoption⟩ := List.exists_mem_of_ne_nil _ hsome
    exact (hbefore option hoption).1.symm
  · intro hsome
    have hfile : ¬ SameText line.file.path "File:".toList :=
      fun hfile ↦ hsome (hright.after_of_file_path hfile)
    exact ⟨hfile, hright.fits hfile hsome⟩

theorem Compatible.undisturbed (hcompatible : Compatible line) : Undisturbed line := by
  intro behind
  obtain ⟨text, htext⟩ := exists_cut_head line.options
  have hpattern := (eq_pattern_iff htext).mpr ⟨hcompatible.same, hcompatible.short⟩
  obtain ⟨hbefore, hafter⟩ := List.forall_mem_append.mp hpattern
  have hfront : ∀ option ∈ line.before, [] = line.file.path ∧ text = option.pattern := by
    intro option hoption
    exact ⟨(hcompatible.before (List.ne_nil_of_mem hoption)).symm, hbefore option hoption⟩
  by_cases hsome : line.after = []
  · -- Behind the last search nothing depends on the path any more.
    by_cases hfile : SameText line.file.path "File:".toList
    · rw [searches_of_file_path htext hfile, searches_right_iff, hsome]
      exact ⟨hfront, rfl⟩
    · obtain ⟨hexC, j, -, hsearches⟩ := searches_before behind htext
      rw [hsearches, searches_plain hfile hcompatible.path_plain, searches_right_iff, hsome]
      exact ⟨hfront, rfl⟩
  · obtain ⟨hfile, hfits⟩ := hcompatible.after hsome
    rw [searches_main htext hfile hcompatible.path_plain
      (fun i hexC ↦ openedName_copied line.file.path_string hfits (behind i) hexC),
      searches_right_iff, replicate_after_iff]
    exact ⟨hfront, fun option hoption ↦ ⟨rfl, hafter option hoption⟩⟩

/-- Options do not disturb each other exactly when they are compatible; compatible options in
another order search the same. -/
theorem undisturbed_iff_compatible (line : CommandLine) :
    (Undisturbed line ↔ Compatible line) ∧
      ∀ other, Compatible line → Compatible other → line.file.path = other.file.path →
        line.options.Perm other.options → ∀ behind,
          (searches (main behind line.argv)).Perm (searches (main behind other.argv)) := by
  constructor
  · exact ⟨Undisturbed.compatible, Compatible.undisturbed⟩
  · intro other hline hother hpath hperm behind
    rw [hline.undisturbed, hother.undisturbed, hpath]
    exact hperm.map _

/-- An option with both brackets attached to a single argument. -/
def attachedOption (pattern : List Char) (hopen : '[' ∉ pattern) (hclose : ']' ∉ pattern)
    (hplain : ¬ SameText ("[".toList ++ pattern ++ "]".toList) "File:".toList ∧
      ¬ SameText ("[".toList ++ pattern ++ "]".toList) "-h".toList) : HexOption where
  name := "-h".toList
  words := ["[".toList ++ pattern ++ "]".toList]
  pattern := pattern
  name_same := hexName_same
  words_joined := by simp
  without_brackets := ⟨hopen, hclose⟩
  words_plain := by simpa using hplain

/-- `File: a -h [41] -h [42]`: the second search is for `41` again. -/
def twoSearches : CommandLine where
  program := "parser".toList
  before := []
  file := ⟨"File:".toList, "a".toList, rfl, by decide⟩
  after := [attachedOption "41".toList (by decide) (by decide) (by decide),
    attachedOption "42".toList (by decide) (by decide) (by decide)]

theorem twoSearches_disturbed : ¬ Undisturbed twoSearches := by
  intro hright
  have hsearches := hright fun _ ↦ []
  revert hsearches
  decide

end WinProcessThread.HexParser
