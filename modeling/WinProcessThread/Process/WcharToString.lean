import WinProcessThread.Process.CommandLine

/-!
# The copies of `WCHAR_to_String`

Three files have a copy of the function.  Each clears an array of 2000 bytes and converts into it
with a limit of its own.  A limit of the size of the array leaves no room for a terminator when the
characters in front of the string fill it.
-/

namespace WinProcessThread.Process

open Text

/-- `WCHAR_to_String` of `WCHAR_to_string.cpp`, where the size of the array is `slength`. -/
def WcharToString.wcharToString (locale : Locale UInt16 UInt8) (wch : ℕ → UInt16) :
    Option (List UInt8) :=
  convertWith 2000 locale wch

/-- `WCHAR_to_String` of `enum_process_suspend_resume_process.cpp`, where it is `SLENGTH`. -/
def EnumProcess.wcharToString (locale : Locale UInt16 UInt8) (wch : ℕ → UInt16) :
    Option (List UInt8) :=
  convertWith 2000 locale wch

/-- The files with a copy. -/
inductive Copy
  | wcharToString
  | enumProcess
  | commandLine
deriving DecidableEq, Repr

def Copy.limit : Copy → ℕ
  | .wcharToString => 2000
  | .enumProcess => 2000
  | .commandLine => conversionLimit

/-- `WCHAR_to_String` as the file has it. -/
def Copy.convert : Copy → Locale UInt16 UInt8 → (ℕ → UInt16) → Option (List UInt8)
  | .wcharToString => WcharToString.wcharToString
  | .enumProcess => EnumProcess.wcharToString
  | .commandLine => Process.wcharToString

/-- A wide string in memory, with its terminator. -/
structure WideString where
  units : List UInt16
  memory : ℕ → UInt16
  zero_not_mem : 0 ∉ units
  stands : StandsIn memory 0 (units ++ [0])

/-- The array keeps its size and is terminated, and the string in it is the longest run of whole
characters that can be converted and fits the limit. -/
structure Copy.Converts (copy : Copy) (locale : Locale UInt16 UInt8) (string : WideString) :
    Prop where
  length_eq : (filled strLength copy.limit locale string.memory).length = strLength
  terminated : 0 ∈ filled strLength copy.limit locale string.memory
  longest : ∃ count bytes,
    IsGreatest {count | Fits locale copy.limit string.units count} count ∧
      converted locale (string.units.take count) = some bytes ∧
      copy.convert locale string.memory = some bytes

/-- No whole characters at the beginning of the string fill the array. -/
def WideString.LeavesRoom (locale : Locale UInt16 UInt8) (string : WideString) : Prop :=
  ∀ front bytes, front <+: string.units → converted locale front = some bytes →
    bytes.length ≠ strLength

variable {copy : Copy} {locale : Locale UInt16 UInt8} {string : WideString}

theorem Copy.limit_le (copy : Copy) : copy.limit ≤ strLength := by
  cases copy with
  | wcharToString => exact le_rfl
  | enumProcess => exact le_rfl
  | commandLine => decide

theorem Copy.convert_eq (copy : Copy) (locale : Locale UInt16 UInt8) (wch : ℕ → UInt16) :
    copy.convert locale wch = cString (filled strLength copy.limit locale wch) := by
  cases copy with
  | wcharToString => rfl
  | enumProcess => rfl
  | commandLine => rfl

/-- What the array holds behind the conversion. -/
theorem cString_array (copy : Copy) (locale : Locale UInt16 UInt8) (string : WideString) :
    ∃ count bytes, IsGreatest {count | Fits locale copy.limit string.units count} count ∧
      converted locale (string.units.take count) = some bytes ∧ bytes.length ≤ copy.limit ∧
      cString (filled strLength copy.limit locale string.memory) =
        if bytes.length = strLength then none else some bytes :=
  cString_filled string.zero_not_mem string.stands copy.limit_le

/-- Whole characters that fill the array are the longest run that fits, without a terminator. -/
theorem not_converts_of_fills {front : List UInt16} {bytes : List UInt8}
    (hlimit : copy.limit = strLength) (hfront : front <+: string.units)
    (hbytes : converted locale front = some bytes) (hfills : bytes.length = strLength) :
    ¬ copy.Converts locale string := by
  obtain ⟨count, most, hgreatest, hmost, hfits, hstring⟩ := cString_array copy locale string
  have hcount : front.length ≤ count := by
    apply hgreatest.2
    exact fits_of_prefix hfront hbytes (hfills.trans hlimit.symm).le
  have hinside : front <+: string.units.take count := List.prefix_take_iff.mpr ⟨hfront, hcount⟩
  have hfull : most.length = strLength := by
    have hle := length_converted_le hinside hbytes hmost
    omega
  intro hconverts
  obtain ⟨_, _, _, _, hsome⟩ := hconverts.longest
  rw [copy.convert_eq, hstring, if_pos hfull] at hsome
  cases hsome

theorem converts_of_room (hroom : copy.limit < strLength ∨ string.LeavesRoom locale) :
    copy.Converts locale string := by
  obtain ⟨count, bytes, hgreatest, hbytes, hfits, hstring⟩ := cString_array copy locale string
  have hne : bytes.length ≠ strLength := by
    rcases hroom with hlimit | hroom
    · omega
    · exact hroom _ bytes (List.take_prefix count string.units) hbytes
  rw [if_neg hne] at hstring
  constructor
  · exact length_filled copy.limit_le
  · by_contra hzero
    rw [cString, if_neg hzero] at hstring
    cases hstring
  · exact ⟨count, bytes, hgreatest, hbytes, by rw [copy.convert_eq, hstring]⟩

/-- A copy converts a string as it should exactly when its limit is below the size of the array or
the string leaves room in the array. -/
theorem converts_iff (copy : Copy) (locale : Locale UInt16 UInt8) (string : WideString) :
    copy.Converts locale string ↔ copy.limit < strLength ∨ string.LeavesRoom locale := by
  constructor
  · intro hconverts
    by_contra hneither
    obtain ⟨hlimit, hroom⟩ := not_or.mp hneither
    unfold WideString.LeavesRoom at hroom
    push Not at hroom
    obtain ⟨front, bytes, hfront, hbytes, hfills⟩ := hroom
    have hsize : copy.limit = strLength := le_antisymm copy.limit_le (not_lt.mp hlimit)
    exact not_converts_of_fills hsize hfront hbytes hfills hconverts
  · exact converts_of_room

/-- Any characters but the terminator, in a memory of zeros. -/
def WideString.ofUnits (units : List UInt16) (hunits : 0 ∉ units) : WideString where
  units := units
  memory index := units.getD index 0
  zero_not_mem := hunits
  stands := by
    intro offset unit hunit
    rw [Nat.zero_add]
    change units.getD offset 0 = unit
    rw [List.getD_eq_getElem?_getD]
    rcases Nat.lt_or_ge offset units.length with hinside | hbehind
    · rw [List.getElem?_append_left hinside] at hunit
      rw [hunit, Option.getD_some]
    · rw [List.getElem?_append_right hbehind] at hunit
      rw [List.getElem?_eq_none hbehind, Option.getD_none]
      exact (List.mem_singleton.mp (List.mem_of_getElem? hunit)).symm

/-- 2000 letters `a`. -/
def longString : WideString :=
  .ofUnits (List.replicate strLength 97) fun hzero ↦
    absurd (List.eq_of_mem_replicate hzero) (by decide)

/-- The letters fill the array, and nothing terminates them. -/
theorem longString_not_converts : ¬ Copy.wcharToString.Converts cLocale longString := by
  have hencodes : Encodes cLocale (fun _ ↦ [97]) longString.units := by
    intro unit hunit
    rw [List.eq_of_mem_replicate hunit]
    decide
  apply not_converts_of_fills rfl List.prefix_rfl (converted_of_encodes hencodes)
  rw [← List.map_eq_flatMap, List.length_map]
  exact List.length_replicate

end WinProcessThread.Process
