import WinProcessThread.HexParser.CommandLine

/-!
# The spelling of the brackets

Brackets in arguments of their own leave a space on both sides of the pattern.  The rendering of a
file has a space behind each byte and none in front of the first one, so the two spellings report
the same matches except for one at the very beginning of the file.
-/

namespace WinProcessThread.HexParser

open Text

def attachOpen : List (List Char) → List (List Char)
  | [] => []
  | first :: rest => ("[".toList ++ first) :: rest

def attachClose : List (List Char) → List (List Char)
  | [] => []
  | [last] => [last ++ "]".toList]
  | argument :: next :: rest => argument :: attachClose (next :: rest)

/-- The byte arguments. -/
def byteArguments (bytes : List UInt8) : List (List Char) :=
  bytes.map hexDigits

/-- The brackets attached to the first and the last byte. -/
def attachedArguments (bytes : List UInt8) : List (List Char) :=
  attachOpen (attachClose (byteArguments bytes))

/-- The brackets as arguments of their own. -/
def separateArguments (bytes : List UInt8) : List (List Char) :=
  "[".toList :: (byteArguments bytes ++ ["]".toList])

/-- A command line around the arguments of its only `-h` option. -/
structure OneSearch where
  program : List Char
  front : List (List Char)
  name : List Char
  back : List (List Char)
  name_same : SameText name "-h".toList
  front_plain : ∀ argument ∈ front, ¬ SameText argument "-h".toList
  back_plain : ∀ argument ∈ back, ¬ SameText argument "-h".toList

def OneSearch.argv (line : OneSearch) (arguments : List (List Char)) : List (List Char) :=
  line.program :: (line.front ++ (line.name :: arguments ++ line.back))

/-- The matches that `main` reports when it is given a file with this content. -/
def matchesReported (content : List UInt8) (behind : ℕ → List Char) (argv : List (List Char)) : ℕ :=
  lineCount ((main behind argv).flatMap (Report.text (renderings content)))

variable {behind : ℕ → List Char} {argument name text : List Char} {more : List (List Char)}
variable {state : MainState} {i : ℕ} {bytes content : List UInt8}

theorem searches_of_no_hex {arguments : List (List Char)}
    (hplain : ∀ argument ∈ arguments, ¬ SameText argument "-h".toList) :
    searches (mainLoop behind i arguments state) = [] := by
  induction arguments generalizing i state with
  | nil => rfl
  | cons argument rest ih =>
    obtain ⟨hhex, hrest⟩ := List.forall_mem_cons.mp hplain
    by_cases hfile : SameText argument "File:".toList
    · cases rest with
      | nil => exact searches_file_last hfile
      | cons path rest =>
        rw [searches_file hfile]
        exact ih hrest
    · rw [searches_plain hfile hhex]
      exact ih hrest

/-- The arguments in front of an option name may set the file name and leave the stream empty. -/
theorem searches_front (behind : ℕ → List Char) (i : ℕ) (state : MainState) (argument : List Char)
    (more : List (List Char)) {front : List (List Char)}
    (hplain : ∀ argument ∈ front, ¬ SameText argument "-h".toList) :
    ∃ fileName j, searches (mainLoop behind i (front ++ argument :: more) state) =
      searches (mainLoop behind j (argument :: more) ⟨fileName, state.hexC⟩) := by
  induction front generalizing i state with
  | nil => exact ⟨state.fileName, i, rfl⟩
  | cons first rest ih =>
    obtain ⟨hhex, hrest⟩ := List.forall_mem_cons.mp hplain
    by_cases hfile : SameText first "File:".toList
    · obtain ⟨path, after, hafter⟩ : ∃ path after, rest ++ argument :: more = path :: after :=
        List.exists_cons_of_ne_nil (by simp)
      obtain ⟨fileName, j, hsearches⟩ :=
        ih (i + 1) ⟨(path ++ ['\x00']).take maxFilepath, state.hexC⟩ hrest
      refine ⟨fileName, j, ?_⟩
      calc
        searches (mainLoop behind i (first :: (rest ++ argument :: more)) state) =
            searches (mainLoop behind (i + 1) (rest ++ argument :: more)
              ⟨(path ++ ['\x00']).take maxFilepath, state.hexC⟩) := by
          rw [hafter, searches_file hfile]
        _ = searches (mainLoop behind j (argument :: more) ⟨fileName, state.hexC⟩) := hsearches
    · obtain ⟨fileName, j, hsearches⟩ := ih (i + 1) state hrest
      refine ⟨fileName, j, ?_⟩
      calc
        searches (mainLoop behind i (first :: (rest ++ argument :: more)) state) =
            searches (mainLoop behind (i + 1) (rest ++ argument :: more) state) :=
          searches_plain hfile hhex
        _ = searches (mainLoop behind j (argument :: more) ⟨fileName, state.hexC⟩) := hsearches

/-- Arguments that spell a pattern are searched for once, whatever stands around them. -/
theorem searches_argv (behind : ℕ → List Char) (line : OneSearch) (option : HexOption)
    (hname : option.name = line.name) :
    ∃ fileName, searches (main behind (line.argv option.words)) =
      [(fileName, cut option.pattern)] := by
  obtain ⟨fileName, j, hfront⟩ := searches_front behind 1 .initial line.name
    (option.words ++ line.back) line.front_plain
  have hextracts : Extracts MainState.initial.hexC [option] (cut option.pattern) := by
    apply extracts_empty
    rintro other ⟨⟩
    rfl
  have hfirst := hextracts.first option rfl (joined line.back)
  rw [List.append_assoc, ← joined_append, HexOption.arguments, hname, List.cons_append] at hfirst
  have hrest : ∀ word ∈ option.words ++ line.back, ¬ SameText word "-h".toList := by
    intro word hword
    rcases List.mem_append.mp hword with hwords | hback
    · exact (option.words_plain word hwords).2
    · exact line.back_plain word hback
  refine ⟨MainState.openedName ⟨fileName, .empty⟩ (behind j), ?_⟩
  calc
    searches (main behind (line.argv option.words)) =
        searches (mainLoop behind j (line.name :: (option.words ++ line.back))
          ⟨fileName, MainState.initial.hexC⟩) := hfront
    _ = [(MainState.openedName ⟨fileName, .empty⟩ (behind j), cut option.pattern)] := by
      rw [searches_hex behind j ⟨fileName, MainState.initial.hexC⟩ line.name_same rfl hfirst,
        searches_of_no_hex hrest]
      rfl

/-- Only searches write lines. -/
theorem lineCount_reports (reports : List Report) :
    lineCount (reports.flatMap (Report.text (renderings content))) =
      ((searches reports).map fun search ↦
        lineCount (findAllCompares (bytesToHex content) search.2)).sum := by
  induction reports with
  | nil => rfl
  | cons report rest ih =>
    rw [List.flatMap_cons, lineCount, List.count_append, ← lineCount, ← lineCount, ih]
    cases report with
    | compares fileName findHexInfile => rfl
    | hexAll fileName =>
      have hnone : lineCount (Report.text (renderings content) (.hexAll fileName)) = 0 :=
        List.count_eq_zero_of_not_mem (newline_not_mem_bytesToHex content)
      rw [hnone, Nat.zero_add]
      rfl

/-- The characters of a rendering. -/
theorem forall_mem_bytesToHex {p : Char → Prop} (hspace : p ' ')
    (hdigit : ∀ digit < 16, p digit.digitChar) (bytes : List UInt8) :
    ∀ char ∈ bytesToHex bytes, p char := by
  induction bytes with
  | nil => exact nofun
  | cons byte rest ih =>
    have hbyte : byte.toNat < 256 := byte.toNat_lt
    rw [bytesToHex_cons, List.forall_mem_cons, List.forall_mem_cons, List.forall_mem_cons]
    exact ⟨hdigit _ (by omega), hdigit _ (by omega), hspace, ih⟩

theorem joined_byteArguments (bytes : List UInt8) :
    joined (byteArguments bytes) = bytesToHex bytes := by
  rw [joined, byteArguments, List.flatMap_map, bytesToHex_eq_encode]
  rfl

theorem joined_attachOpen {words : List (List Char)} (hwords : words ≠ []) :
    joined (attachOpen words) = "[".toList ++ joined words := by
  cases words with
  | nil => exact absurd rfl hwords
  | cons first rest => simp [attachOpen]

theorem attachClose_ne_nil {words : List (List Char)} (hwords : words ≠ []) :
    attachClose words ≠ [] := by
  fun_cases attachClose words with
  | case1 => exact absurd rfl hwords
  | case2 last => exact List.cons_ne_nil _ _
  | case3 argument next rest => exact List.cons_ne_nil _ _

theorem joined_attachClose {words : List (List Char)} (hwords : words ≠ []) :
    joined (attachClose words) = (joined words).dropLast ++ "] ".toList := by
  fun_induction attachClose words with
  | case1 => exact absurd rfl hwords
  | case2 last => simp
  | case3 argument next rest ih =>
    have hrest : joined (next :: rest) ≠ [] := by simp
    calc
      joined (argument :: attachClose (next :: rest)) =
          argument ++ [' '] ++ ((joined (next :: rest)).dropLast ++ "] ".toList) := by
        rw [joined_cons, ih (List.cons_ne_nil _ _)]
      _ = argument ++ [' '] ++ (joined (next :: rest)).dropLast ++ "] ".toList :=
        (List.append_assoc _ _ _).symm
      _ = (joined (argument :: next :: rest)).dropLast ++ "] ".toList := by
        rw [joined_cons argument, List.dropLast_append_of_ne_nil hrest]

theorem mem_joined_of_mem {words : List (List Char)} {word : List Char} {char : Char}
    (hword : word ∈ words) (hchar : char ∈ word) : char ∈ joined words :=
  List.mem_flatMap.mpr ⟨word, hword, List.mem_append_left _ hchar⟩

theorem not_sameText_of_forall {word other : List Char} {lower : Char}
    (hother : lower ∈ other.map Char.toLower) (hword : ∀ char ∈ word, char.toLower ≠ lower) :
    ¬ SameText word other := by
  intro hsame
  rw [← hsame] at hother
  obtain ⟨char, hchar, hlower⟩ := List.mem_map.mp hother
  exact hword char hchar hlower

/-- Words without `-` and `:` are no option names. -/
theorem words_plain_of_forall {words : List (List Char)}
    (hjoined : ∀ char ∈ joined words, char.toLower ≠ '-' ∧ char.toLower ≠ ':') :
    ∀ word ∈ words, ¬ SameText word "File:".toList ∧ ¬ SameText word "-h".toList := by
  intro word hword
  have hchars : ∀ char ∈ word, char.toLower ≠ '-' ∧ char.toLower ≠ ':' :=
    fun char hchar ↦ hjoined char (mem_joined_of_mem hword hchar)
  constructor
  · exact not_sameText_of_forall (by decide) fun char hchar ↦ (hchars char hchar).2
  · exact not_sameText_of_forall (by decide) fun char hchar ↦ (hchars char hchar).1

theorem joined_attachedArguments (hbytes : bytes ≠ []) :
    joined (attachedArguments bytes) = "[".toList ++ hexPattern bytes ++ "] ".toList := by
  have harguments : byteArguments bytes ≠ [] := by simpa [byteArguments] using hbytes
  calc
    joined (attachedArguments bytes) =
        "[".toList ++ joined (attachClose (byteArguments bytes)) :=
      joined_attachOpen (attachClose_ne_nil harguments)
    _ = "[".toList ++ ((bytesToHex bytes).dropLast ++ "] ".toList) := by
      rw [joined_attachClose harguments, joined_byteArguments]
    _ = "[".toList ++ hexPattern bytes ++ "] ".toList := by
      rw [hexPattern, List.append_assoc]

theorem joined_separateArguments (bytes : List UInt8) :
    joined (separateArguments bytes) = "[".toList ++ ' ' :: bytesToHex bytes ++ "] ".toList := by
  rw [separateArguments, joined_cons, joined_append, joined_byteArguments]
  simp

/-- No character of a rendering stands in an option name or is a bracket. -/
theorem rendering_plain (bytes : List UInt8) :
    ∀ char ∈ bytesToHex bytes,
      (char.toLower ≠ '-' ∧ char.toLower ≠ ':') ∧ char ≠ '[' ∧ char ≠ ']' := by
  apply forall_mem_bytesToHex
  · decide
  · decide

theorem pattern_plain {pattern : List Char} (hpattern : pattern ⊆ ' ' :: bytesToHex bytes) :
    ∀ char ∈ "[".toList ++ pattern ++ "] ".toList, char.toLower ≠ '-' ∧ char.toLower ≠ ':' := by
  intro char hchar
  rcases List.mem_append.mp hchar with hfront | hend
  · rcases List.mem_append.mp hfront with hopen | hinner
    · rw [List.mem_singleton.mp hopen]
      decide
    · rcases List.mem_cons.mp (hpattern hinner) with hspace | hrendering
      · rw [hspace]
        decide
      · exact (rendering_plain bytes char hrendering).1
  · have htable : ∀ char ∈ "] ".toList, char.toLower ≠ '-' ∧ char.toLower ≠ ':' := by simp
    exact htable char hend

theorem pattern_without_brackets {pattern : List Char}
    (hpattern : pattern ⊆ ' ' :: bytesToHex bytes) : '[' ∉ pattern ∧ ']' ∉ pattern := by
  constructor
  · intro hopen
    rcases List.mem_cons.mp (hpattern hopen) with hspace | hrendering
    · exact absurd hspace (by decide)
    · exact (rendering_plain bytes '[' hrendering).2.1 rfl
  · intro hclose
    rcases List.mem_cons.mp (hpattern hclose) with hspace | hrendering
    · exact absurd hspace (by decide)
    · exact (rendering_plain bytes ']' hrendering).2.2 rfl

/-- Byte arguments with brackets around them are those of an option with this pattern. -/
def OneSearch.option (line : OneSearch) (arguments : List (List Char)) (pattern : List Char)
    (hjoined : joined arguments = "[".toList ++ pattern ++ "] ".toList)
    (hpattern : pattern ⊆ ' ' :: bytesToHex bytes) : HexOption where
  name := line.name
  words := arguments
  pattern := pattern
  name_same := line.name_same
  words_joined := hjoined
  without_brackets := pattern_without_brackets hpattern
  words_plain := by
    apply words_plain_of_forall
    rw [hjoined]
    exact pattern_plain hpattern

theorem matchesReported_eq (line : OneSearch) (bytes : List UInt8)
    {arguments : List (List Char)} {pattern : List Char}
    (hjoined : joined arguments = "[".toList ++ pattern ++ "] ".toList)
    (hpattern : pattern ⊆ ' ' :: bytesToHex bytes) (hshort : pattern.length < 2 ^ 32) :
    matchesReported content behind (line.argv arguments) =
      (occurrences pattern (bytesToHex content)).length := by
  obtain ⟨fileName, hsearches⟩ :=
    searches_argv behind line (line.option arguments pattern hjoined hpattern) rfl
  have hwhole : cut pattern = pattern := by
    rw [cut, Nat.mod_eq_of_lt hshort, List.take_length]
  have hnewline : '\n' ∉ pattern := by
    intro hmember
    rcases List.mem_cons.mp (hpattern hmember) with hspace | hrendering
    · exact absurd hspace (by decide)
    · exact newline_not_mem_bytesToHex bytes hrendering
  calc
    matchesReported content behind (line.argv arguments) =
        lineCount (findAllCompares (bytesToHex content) (cut pattern)) := by
      rw [matchesReported, lineCount_reports]
      exact congrArg (fun found ↦ (found.map fun search : List Char × List Char ↦
        lineCount (findAllCompares (bytesToHex content) search.2)).sum) hsearches
    _ = (occurrences pattern (bytesToHex content)).length := by
      rw [hwhole, findAllCompares_eq, lineCount_compareLines hnewline]

theorem bytesToHex_length (bytes : List UInt8) : (bytesToHex bytes).length = 3 * bytes.length := by
  rw [bytesToHex_eq_encode, BlockCode.encode_length]
  rfl

theorem matchesReported_attached (line : OneSearch) (hbytes : bytes ≠ [])
    (hshort : 3 * bytes.length + 1 < 2 ^ 32) :
    matchesReported content behind (line.argv (attachedArguments bytes)) =
      (occurrences (hexPattern bytes) (bytesToHex content)).length := by
  apply matchesReported_eq line bytes (joined_attachedArguments hbytes)
  · exact fun char hchar ↦ List.mem_cons_of_mem _ (List.mem_of_mem_dropLast hchar)
  · rw [hexPattern, List.length_dropLast, bytesToHex_length]
    omega

theorem matchesReported_separate (line : OneSearch) (hshort : 3 * bytes.length + 1 < 2 ^ 32) :
    matchesReported content behind (line.argv (separateArguments bytes)) =
      (occurrences (' ' :: bytesToHex bytes) (bytesToHex content)).length := by
  apply matchesReported_eq line bytes (joined_separateArguments bytes)
  · exact List.Subset.refl _
  · rw [List.length_cons, bytesToHex_length]
    exact hshort

/-- The spellings report the same number of matches exactly when the file does not begin with the
bytes.  Arguments of `2 ^ 32` characters are more than a command line of the system can hold. -/
theorem spellings_agree_iff (line : OneSearch) (behind : ℕ → List Char) (content bytes : List UInt8)
    (hbytes : bytes ≠ []) (hshort : 3 * bytes.length + 1 < 2 ^ 32) :
    matchesReported content behind (line.argv (attachedArguments bytes)) =
        matchesReported content behind (line.argv (separateArguments bytes)) ↔
      ¬ bytes <+: content := by
  have hcount : (occurrences (hexPattern bytes) (bytesToHex content)).length =
      (if bytes <+: content then 1 else 0) +
        (occurrences (' ' :: bytesToHex bytes) (bytesToHex content)).length := by
    rw [hexPattern_eq_trimmed, bytesToHex_eq_encode, bytesToHex_eq_encode]
    exact byteCode.length_occurrences_separated hbytes content
  rw [matchesReported_attached line hbytes hshort, matchesReported_separate line hshort, hcount]
  by_cases hprefix : bytes <+: content
  · rw [if_pos hprefix]
    exact iff_of_false (by omega) (not_not_intro hprefix)
  · rw [if_neg hprefix, Nat.zero_add]
    exact iff_of_true rfl hprefix

/-- `-h` behind the name of a file. -/
def bareSearch : OneSearch where
  program := "parser".toList
  front := ["File:".toList, "a.bin".toList]
  name := "-h".toList
  back := []
  name_same := hexName_same
  front_plain := by decide
  back_plain := List.forall_mem_nil _

/-- The byte stands behind another one. -/
theorem spellings_agree_behind :
    matchesReported [0, 0xAA] (fun _ ↦ []) (bareSearch.argv (attachedArguments [0xAA])) =
        matchesReported [0, 0xAA] (fun _ ↦ []) (bareSearch.argv (separateArguments [0xAA])) ↔
      ¬ [(0xAA : UInt8)] <+: [0, 0xAA] :=
  spellings_agree_iff bareSearch (fun _ ↦ []) [0, 0xAA] [0xAA] (by decide) (by decide)

/-- A file of one byte, which only the attached spelling finds. -/
theorem spellings_differ :
    ¬ matchesReported [0xAA] (fun _ ↦ []) (bareSearch.argv (attachedArguments [0xAA])) =
      matchesReported [0xAA] (fun _ ↦ []) (bareSearch.argv (separateArguments [0xAA])) := by
  rw [matchesReported_attached bareSearch (by decide) (by decide),
    matchesReported_separate bareSearch (by decide)]
  decide

end WinProcessThread.HexParser
