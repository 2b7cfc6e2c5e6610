import WinProcessThread.HexParser.Render
import Mathlib.Data.List.TakeWhile

/-!
# Searching the rendered text

`find_all_compares` calls `find` again and again, one position behind the last match, and writes a
numbered line for every match.  The number of lines is the number of occurrences in the text, and
for a pattern in hex form that is the number of byte offsets at which the pattern stands.  The
numbers count the lines from one as long as an `int` can.
-/

namespace WinProcessThread.HexParser

open Text

/-- `std::string::find`: the first position from `pos` on at which the needle stands; `none` is
`npos`. -/
def find (ch needle : List Char) (pos : ℕ) : Option ℕ :=
  (List.range' pos (ch.length + 1 - pos)).find? fun start ↦ OccursAt needle ch start

theorem find_eq_some_iff {ch needle : List Char} {pos start : ℕ} :
    find ch needle pos = some start ↔
      IsLeast {start | pos ≤ start ∧ OccursAt needle ch start} start := by
  simp only [find, List.find?_range'_eq_some, List.mem_range'_1, decide_eq_true_eq,
    Bool.not_eq_true', decide_eq_false_iff_not]
  constructor
  · rintro ⟨hoccurs, ⟨hpos, -⟩, hbefore⟩
    refine ⟨⟨hpos, hoccurs⟩, ?_⟩
    rintro other ⟨hother, hoccursOther⟩
    by_contra hlt
    exact hbefore other hother (not_le.mp hlt) hoccursOther
  · rintro ⟨⟨hpos, hoccurs⟩, hbound⟩
    have hinside : start ≤ ch.length := hoccurs.1
    refine ⟨hoccurs, ⟨hpos, by omega⟩, ?_⟩
    intro other hother hlt hoccursOther
    exact absurd (hbound ⟨hother, hoccursOther⟩) (not_le.mpr hlt)

theorem find_eq_none_iff {ch needle : List Char} {pos : ℕ} :
    find ch needle pos = none ↔ ∀ start, pos ≤ start → ¬ OccursAt needle ch start := by
  simp only [find, List.find?_range'_eq_none, Bool.not_eq_true', decide_eq_false_iff_not]
  constructor
  · intro hnone start hpos hoccurs
    have hinside : start ≤ ch.length := hoccurs.1
    exact hnone start hpos (by omega) hoccurs
  · intro hnone start hpos _
    exact hnone start hpos

/-- `c_str()` inserted into a stream: the characters before the first NUL. -/
def cStr (string : List Char) : List Char :=
  string.takeWhile (· ≠ '\x00')

/-- `chout<<i<<":  "<<find_hex_infile.c_str()<<"\n"`. -/
def putCompare (chout : OutputStream) (i : Int32) (findHexInfile : List Char) : OutputStream :=
  (((chout.putInt i).put ":  ".toList).put (cStr findHexInfile)).put "\n".toList

/-- The `while` loop of `find_all_compares`. -/
def findAllComparesLoop (ch findHexInfile : List Char) (pos : Option ℕ) (i : Int32)
    (chout : OutputStream) : OutputStream :=
  match pos with
  | none => chout
  | some pos =>
    let i := i + 1
    findAllComparesLoop ch findHexInfile (find ch findHexInfile (pos + 1)) i
      (putCompare chout i findHexInfile)
termination_by pos.elim 0 fun pos ↦ ch.length + 2 - min pos ch.length
decreasing_by
  cases hfind : find ch findHexInfile (pos + 1) with
  | none => simp
  | some next =>
    obtain ⟨⟨hnext, hinside, -⟩, -⟩ := find_eq_some_iff.mp hfind
    simp only [Option.elim_some]
    omega

/-- `find_all_compares`. -/
def findAllCompares (ch findHexInfile : List Char) : List Char :=
  (findAllComparesLoop ch findHexInfile (find ch findHexInfile 0) 0 OutputStream.empty).str

/-- One line of the report. -/
def compareLine (i : Int32) (findHexInfile : List Char) : List Char :=
  (toString i.toInt).toList ++ ":  ".toList ++ cStr findHexInfile ++ "\n".toList

/-- The next `count` lines of the report when `i` lines have been written. -/
def compareLines (findHexInfile : List Char) (i : Int32) : ℕ → List Char
  | 0 => []
  | count + 1 => compareLine (i + 1) findHexInfile ++ compareLines findHexInfile (i + 1) count

/-- A decimal stream without a width, as the loop leaves it after every line. -/
structure Plain (chout : OutputStream) : Prop where
  radix : chout.radix = .dec
  width : chout.width = 0

theorem plain_empty : Plain OutputStream.empty :=
  ⟨rfl, rfl⟩

theorem Plain.putCompare {chout : OutputStream} (hplain : Plain chout) (i : Int32)
    (findHexInfile : List Char) : Plain (putCompare chout i findHexInfile) := by
  constructor
  · simp [HexParser.putCompare, OutputStream.putInt, OutputStream.put, hplain.radix]
  · rfl

theorem Plain.putCompare_str {chout : OutputStream} (hplain : Plain chout) (i : Int32)
    (findHexInfile : List Char) :
    (HexParser.putCompare chout i findHexInfile).str =
      chout.str ++ compareLine i findHexInfile := by
  have hnumber : chout.putInt i = chout.put (toString i.toInt).toList := by
    rw [OutputStream.putInt, hplain.radix]
  calc
    (HexParser.putCompare chout i findHexInfile).str =
        ((((chout.put (toString i.toInt).toList).put ":  ".toList).put (cStr findHexInfile)).put
          "\n".toList).str := by
      rw [HexParser.putCompare, hnumber]
    _ = (chout.put (toString i.toInt).toList).str ++ ":  ".toList ++ cStr findHexInfile ++
          "\n".toList := by
      rw [OutputStream.put_str_of_width (OutputStream.put_width _ _),
        OutputStream.put_str_of_width (OutputStream.put_width _ _),
        OutputStream.put_str_of_width (OutputStream.put_width _ _)]
    _ = chout.str ++ compareLine i findHexInfile := by
      rw [OutputStream.put_str_of_width hplain.width]
      simp only [compareLine, List.append_assoc]

theorem findAllComparesLoop_str (ch findHexInfile : List Char) (start : ℕ) (i : Int32)
    {chout : OutputStream} (hplain : Plain chout) :
    (findAllComparesLoop ch findHexInfile (find ch findHexInfile start) i chout).str =
      chout.str ++
        compareLines findHexInfile i (occurrencesFrom findHexInfile ch start).length := by
  induction start using search_induction findHexInfile ch generalizing i chout with
  | absent start habsent =>
    rw [find_eq_none_iff.mpr habsent, occurrencesFrom_of_absent habsent, findAllComparesLoop]
    simp [compareLines]
  | least start position hleast ih =>
    have hlater := ih (i + 1) (hplain.putCompare (i + 1) findHexInfile)
    calc
      (findAllComparesLoop ch findHexInfile (find ch findHexInfile start) i chout).str =
          (HexParser.putCompare chout (i + 1) findHexInfile).str ++
            compareLines findHexInfile (i + 1)
              (occurrencesFrom findHexInfile ch (position + 1)).length := by
        rw [find_eq_some_iff.mpr hleast, findAllComparesLoop, hlater]
      _ = chout.str ++ (compareLine (i + 1) findHexInfile ++
            compareLines findHexInfile (i + 1)
              (occurrencesFrom findHexInfile ch (position + 1)).length) := by
        rw [hplain.putCompare_str, List.append_assoc]
      _ = chout.str ++
            compareLines findHexInfile i (occurrencesFrom findHexInfile ch start).length := by
        rw [occurrencesFrom_of_least hleast, List.length_cons, compareLines]

/-- The report has one numbered line for each occurrence. -/
theorem findAllCompares_eq (ch findHexInfile : List Char) :
    findAllCompares ch findHexInfile =
      compareLines findHexInfile 0 (occurrences findHexInfile ch).length := by
  rw [findAllCompares, findAllComparesLoop_str ch findHexInfile 0 0 plain_empty,
    occurrencesFrom_zero]
  rfl

/-- The line of the report with this number. -/
def numberedLine (number : ℕ) (needle : List Char) : List Char :=
  (toString number).toList ++ ":  ".toList ++ needle ++ "\n".toList

theorem cStr_of_not_mem {string : List Char} (hstring : '\x00' ∉ string) :
    cStr string = string := by
  apply List.takeWhile_eq_self_iff.mpr
  intro char hchar
  rw [decide_eq_true_eq]
  exact ne_of_mem_of_not_mem hchar hstring

theorem compareLine_ofNat {needle : List Char} (hneedle : '\x00' ∉ needle) {number : ℕ}
    (hnumber : number < 2 ^ 31) :
    compareLine (Int32.ofNat number) needle = numberedLine number needle := by
  have hprinted : toString (Int32.ofNat number).toInt = toString number := by
    rw [Int32.toInt_ofNat_of_lt hnumber]
    rfl
  rw [compareLine, numberedLine, hprinted, cStr_of_not_mem hneedle]

/-- The lines behind those that are written take the next numbers. -/
theorem compareLines_ofNat {needle : List Char} (hneedle : '\x00' ∉ needle) {written count : ℕ}
    (hcount : written + count < 2 ^ 31) :
    compareLines needle (Int32.ofNat written) count =
      (List.range' (written + 1) count).flatMap fun number ↦ numberedLine number needle := by
  induction count generalizing written with
  | zero => rfl
  | succ count ih =>
    have hnext : Int32.ofNat written + 1 = Int32.ofNat (written + 1) :=
      (Int32.ofNat_add written 1).symm
    have hfirst : written + 1 < 2 ^ 31 := by omega
    have hrest : written + 1 + count < 2 ^ 31 := by omega
    calc
      compareLines needle (Int32.ofNat written) (count + 1) =
          compareLine (Int32.ofNat (written + 1)) needle ++
            compareLines needle (Int32.ofNat (written + 1)) count := by
        rw [compareLines, hnext]
      _ = numberedLine (written + 1) needle ++
            (List.range' (written + 1 + 1) count).flatMap fun number ↦
              numberedLine number needle := by
        rw [compareLine_ofNat hneedle hfirst, ih hrest]
      _ = (List.range' (written + 1) (count + 1)).flatMap fun number ↦
            numberedLine number needle := by
        rw [List.range'_succ, List.flatMap_cons]

/-- **Every occurrence once.**  The lines are numbered from one to the number of positions at which
the needle stands; an empty needle stands at every position, the end of the text included. -/
theorem findAllCompares_numbered (ch findHexInfile : List Char) (hneedle : '\x00' ∉ findHexInfile)
    (hcount : (occurrences findHexInfile ch).length < 2 ^ 31) :
    findAllCompares ch findHexInfile =
      (List.range' 1 (occurrences findHexInfile ch).length).flatMap fun number ↦
        numberedLine number findHexInfile := by
  have hbound : 0 + (occurrences findHexInfile ch).length < 2 ^ 31 := by
    rwa [Nat.zero_add]
  calc
    findAllCompares ch findHexInfile =
        compareLines findHexInfile (Int32.ofNat 0) (occurrences findHexInfile ch).length :=
      findAllCompares_eq ch findHexInfile
    _ = (List.range' (0 + 1) (occurrences findHexInfile ch).length).flatMap fun number ↦
          numberedLine number findHexInfile := compareLines_ofNat hneedle hbound
    _ = (List.range' 1 (occurrences findHexInfile ch).length).flatMap fun number ↦
          numberedLine number findHexInfile := by
      rw [Nat.zero_add]

/-- The needle stands at two positions that overlap. -/
theorem findAllCompares_numbered_overlapping :
    findAllCompares "aaa".toList "aa".toList =
      (List.range' 1 (occurrences "aa".toList "aaa".toList).length).flatMap fun number ↦
        numberedLine number "aa".toList :=
  findAllCompares_numbered "aaa".toList "aa".toList (by decide) (by decide)

/-- The number of lines of a text in which every line is ended. -/
def lineCount (text : List Char) : ℕ :=
  text.count '\n'

theorem newline_not_mem_toString (value : ℤ) : '\n' ∉ (toString value).toList := by
  intro hmember
  have hdigit : ∀ number : ℕ, '\n' ∉ Nat.toDigits 10 number := by
    intro number hchar
    have := Nat.isDigit_of_mem_toDigits (by decide) (by decide) hchar
    exact absurd this (by decide)
  cases value with
  | ofNat number =>
    apply hdigit number
    simpa [toString, Int.repr, Nat.repr] using hmember
  | negSucc number =>
    apply hdigit (number + 1)
    simpa [toString, Int.repr, Nat.repr] using hmember

theorem lineCount_compareLine {findHexInfile : List Char} (hneedle : '\n' ∉ findHexInfile)
    (i : Int32) : lineCount (compareLine i findHexInfile) = 1 := by
  have hnumber : (toString i.toInt).toList.count '\n' = 0 :=
    List.count_eq_zero_of_not_mem (newline_not_mem_toString i.toInt)
  have hcStr : (cStr findHexInfile).count '\n' = 0 := by
    apply List.count_eq_zero_of_not_mem
    intro hmember
    exact hneedle ((List.takeWhile_prefix _).mem hmember)
  have hcolon : ":  ".toList.count '\n' = 0 := by decide
  have hend : "\n".toList.count '\n' = 1 := by decide
  calc
    lineCount (compareLine i findHexInfile) =
        (toString i.toInt).toList.count '\n' + ":  ".toList.count '\n' +
          (cStr findHexInfile).count '\n' + "\n".toList.count '\n' := by
      rw [lineCount, compareLine, List.count_append, List.count_append, List.count_append]
    _ = 1 := by
      rw [hnumber, hcolon, hcStr, hend]

theorem lineCount_compareLines {findHexInfile : List Char} (hneedle : '\n' ∉ findHexInfile)
    (i : Int32) (count : ℕ) : lineCount (compareLines findHexInfile i count) = count := by
  induction count generalizing i with
  | zero => rfl
  | succ count ih =>
    calc
      lineCount (compareLines findHexInfile i (count + 1)) =
          lineCount (compareLine (i + 1) findHexInfile) +
            lineCount (compareLines findHexInfile (i + 1) count) := by
        simp [lineCount, compareLines]
      _ = count + 1 := by
        rw [lineCount_compareLine hneedle, ih, Nat.add_comm]

theorem newline_not_mem_bytesToHex (bytes : List UInt8) : '\n' ∉ bytesToHex bytes := by
  have htable : ∀ digit < 16, digit.digitChar ≠ '\n' := by decide
  rw [bytesToHex_eq_encode]
  intro hmember
  obtain ⟨byte, -, hblock⟩ := List.mem_flatMap.mp hmember
  have hbyte : byte.toNat < 256 := byte.toNat_lt
  have hcases : '\n' ∈ hexDigits byte ∨ '\n' = ' ' := by
    simpa [BlockCode.block, byteCode] using hblock
  rcases hcases with hdigits | hspace
  · rw [hexDigits_eq, List.mem_pair] at hdigits
    rcases hdigits with hdigit | hdigit
    · exact htable _ (by omega) hdigit.symm
    · exact htable _ (by omega) hdigit.symm
  · exact absurd hspace (by decide)

/-- The text of a byte pattern: its hex form without the final space. -/
def hexPattern (pattern : List UInt8) : List Char :=
  (bytesToHex pattern).dropLast

theorem hexPattern_eq_trimmed (pattern : List UInt8) :
    hexPattern pattern = byteCode.trimmed pattern := by
  rw [hexPattern, bytesToHex_eq_encode, BlockCode.trimmed]

theorem newline_not_mem_hexPattern (pattern : List UInt8) : '\n' ∉ hexPattern pattern :=
  fun hmember ↦ newline_not_mem_bytesToHex pattern (List.mem_of_mem_dropLast hmember)

/-- The pattern stands in the file at this byte offset. -/
def StandsAt (pattern file : List UInt8) (offset : ℕ) : Prop :=
  offset + pattern.length ≤ file.length ∧ (file.drop offset).take pattern.length = pattern

instance (pattern file : List UInt8) (offset : ℕ) : Decidable (StandsAt pattern file offset) :=
  inferInstanceAs (Decidable (_ ∧ _))

/-- **Exact hex search.**  The report has one line for each byte offset at which the pattern stands,
every match of the text is at the first digit of such an offset, and every such offset is
matched. -/
theorem findAllCompares_exact (file pattern : List UInt8) (hpattern : pattern ≠ []) :
    lineCount (findAllCompares (bytesToHex file) (hexPattern pattern)) =
        (List.range (file.length + 1)).countP (fun offset ↦ StandsAt pattern file offset) ∧
      (∀ pos start, find (bytesToHex file) (hexPattern pattern) pos = some start →
        ∃ offset, start = 3 * offset ∧ StandsAt pattern file offset) ∧
      (∀ offset, StandsAt pattern file offset →
        find (bytesToHex file) (hexPattern pattern) (3 * offset) = some (3 * offset)) := by
  have hmatch : ∀ start, OccursAt (hexPattern pattern) (bytesToHex file) start ↔
      ∃ offset, start = 3 * offset ∧ OccursAt pattern file offset := by
    rw [bytesToHex_eq_encode, hexPattern_eq_trimmed]
    exact byteCode.occursAt_trimmed_iff hpattern file
  refine ⟨?_, ?_, ?_⟩
  · calc
      lineCount (findAllCompares (bytesToHex file) (hexPattern pattern)) =
          (occurrences (hexPattern pattern) (bytesToHex file)).length := by
        rw [findAllCompares_eq, lineCount_compareLines (newline_not_mem_hexPattern pattern)]
      _ = (occurrences pattern file).length := by
        rw [bytesToHex_eq_encode, hexPattern_eq_trimmed, byteCode.occurrences_trimmed hpattern,
          List.length_map]
      _ = (List.range (file.length + 1)).countP (fun offset ↦ StandsAt pattern file offset) := by
        rw [occurrences, ← List.countP_eq_length_filter]
        apply List.countP_congr
        intro offset _
        rw [decide_eq_true_eq, decide_eq_true_eq]
        exact occursAt_iff_take
  · intro pos start hfind
    obtain ⟨⟨-, hoccurs⟩, -⟩ := find_eq_some_iff.mp hfind
    obtain ⟨offset, hstart, hoffset⟩ := (hmatch start).mp hoccurs
    exact ⟨offset, hstart, occursAt_iff_take.mp hoffset⟩
  · intro offset hstands
    have hoccurs : OccursAt (hexPattern pattern) (bytesToHex file) (3 * offset) :=
      (hmatch _).mpr ⟨offset, rfl, occursAt_iff_take.mpr hstands⟩
    apply find_eq_some_iff.mpr
    exact ⟨⟨le_rfl, hoccurs⟩, fun other hother ↦ hother.1⟩

theorem findAllCompares_exact_overlapping :
    lineCount (findAllCompares (bytesToHex [0xAA, 0xAA, 0xAA]) (hexPattern [0xAA, 0xAA])) = 2 ∧
      find (bytesToHex [0xAA, 0xAA, 0xAA]) (hexPattern [0xAA, 0xAA]) 3 = some 3 := by
  obtain ⟨hcount, -, hfound⟩ :=
    findAllCompares_exact [0xAA, 0xAA, 0xAA] [0xAA, 0xAA] (by decide)
  exact ⟨hcount, hfound 1 (by decide)⟩

end WinProcessThread.HexParser
