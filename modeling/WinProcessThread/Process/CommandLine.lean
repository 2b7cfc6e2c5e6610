import Mathlib.Data.UInt
import WinProcessThread.Service.Status
import WinProcessThread.Text.Wcstombs

/-!
# The command line of another process

`readRTLcommandLine` copies the bytes of a command line into a block of just that size, and
`WCHAR_to_String` reads the block up to a terminator or for 1000 characters.  No terminator is ever
stored, so a shorter command line is read on into the memory behind the block.
-/

namespace WinProcessThread.Process

open Service (DWORD)
open Text

/-- `UNICODE_STRING`, with its length in bytes. -/
structure UnicodeString where
  length : UInt16
  buffer : ℕ
deriving DecidableEq, Repr

/-- The outcome of `ReadProcessMemory`; before it fails it may copy some of the bytes. -/
inductive ReadMemory
  | succeeded
  | failed (lastError : DWORD) (copied : ℕ)
deriving DecidableEq, Repr

/-- What `readRTLcommandLine` prints. -/
def ReadMemory.printed : ReadMemory → List String
  | .succeeded => []
  | .failed lastError _ =>
    ["Could not read  commandLine.Buffer string" ++ toString lastError.toNat ++ "\n"]

/-- The memory from an address on with its first bytes replaced. -/
def copyBytes (count : ℕ) (source target : ℕ → UInt8) : ℕ → UInt8 :=
  fun index ↦ if index < count then source index else target index

/-- `readRTLcommandLine`.  `heap` is the memory from the allocated block on; it is returned as the
call leaves it, with what has been printed. -/
def readRTLcommandLine (outcome : ReadMemory) (remote heap : ℕ → UInt8)
    (commandLine : UnicodeString) : (ℕ → UInt8) × List String :=
  let contents := fun index ↦ remote (commandLine.buffer + index)
  match outcome with
  | .succeeded => (copyBytes commandLine.length.toNat contents heap, outcome.printed)
  | .failed _ copied =>
    (copyBytes (min copied commandLine.length.toNat) contents heap, outcome.printed)

/-- A pointer to bytes read as one to `WCHAR`. -/
def wcharAt (memory : ℕ → UInt8) (index : ℕ) : UInt16 :=
  UInt16.ofNat ((memory (2 * index)).toNat + 256 * (memory (2 * index + 1)).toNat)

def strLength : ℕ := 2000

/-- `WCHAR_to_String` with the limit that it passes to `wcstombs`.  There is no result when the
array is not terminated. -/
def convertWith (limit : ℕ) (locale : Locale UInt16 UInt8) (wch : ℕ → UInt16) :
    Option (List UInt8) :=
  let stored := (wcstombs locale wch limit).stored
  cString (stored ++ List.replicate (strLength - stored.length) 0)

def conversionLimit : ℕ := 1000

/-- `WCHAR_to_String`. -/
def wcharToString (locale : Locale UInt16 UInt8) (wch : ℕ → UInt16) : Option (List UInt8) :=
  convertWith conversionLimit locale wch

/-- A command line of single-byte characters in the memory of another process. -/
structure RemoteCommandLine where
  locale : Locale UInt16 UInt8
  units : List UInt16
  byteOf : UInt16 → UInt8
  remote : ℕ → UInt8
  address : ℕ
  length_le : units.length ≤ 32767
  encodes : Encodes locale (fun unit ↦ [byteOf unit]) units
  stands : StandsIn (wcharAt fun index ↦ remote (address + index)) 0 units

def RemoteCommandLine.commandLine (line : RemoteCommandLine) : UnicodeString where
  length := UInt16.ofNat (2 * line.units.length)
  buffer := line.address

/-- The pointer that is converted when the bytes have been read. -/
def RemoteCommandLine.contents (line : RemoteCommandLine) (heap : ℕ → UInt8) : ℕ → UInt16 :=
  wcharAt (readRTLcommandLine .succeeded line.remote heap line.commandLine).1

/-- The characters of the command line are returned and no element behind them is read, whatever the
memory from the block on holds. -/
def ReadBack (line : RemoteCommandLine) : Prop :=
  ∀ heap, wcharToString line.locale (line.contents heap) = some (line.units.map line.byteOf) ∧
    (wcstombs line.locale (line.contents heap) conversionLimit).elementsRead ≤ line.units.length

variable {line : RemoteCommandLine}

theorem contents_eq (heap : ℕ → UInt8) {index : ℕ} (hindex : index < line.units.length) :
    line.contents heap index = wcharAt (fun index ↦ line.remote (line.address + index)) index := by
  have hlength : line.commandLine.length.toNat = 2 * line.units.length := by
    have hle := line.length_le
    exact UInt16.toNat_ofNat_of_lt' (by change 2 * line.units.length < 65536; omega)
  have hlow : 2 * index < 2 * line.units.length := by omega
  have hhigh : 2 * index + 1 < 2 * line.units.length := by omega
  simp only [RemoteCommandLine.contents, readRTLcommandLine, wcharAt, hlength, copyBytes,
    if_pos hlow, if_pos hhigh]
  rfl

theorem standsIn_contents (line : RemoteCommandLine) (heap : ℕ → UInt8) :
    StandsIn (line.contents heap) 0 line.units := by
  intro offset unit hunit
  have hoffset : offset < line.units.length := (List.getElem?_eq_some_iff.mp hunit).1
  rw [Nat.zero_add, contents_eq heap hoffset]
  simpa only [Nat.zero_add] using line.stands offset unit hunit

theorem zero_not_mem_bytes (line : RemoteCommandLine) (count : ℕ) :
    (0 : UInt8) ∉ (line.units.take count).map line.byteOf := by
  intro hmember
  obtain ⟨unit, hunit, hzero⟩ := List.mem_map.mp hmember
  obtain ⟨hne, hconvert⟩ := line.encodes unit (List.mem_of_mem_take hunit)
  exact line.locale.zero_not_mem unit _ hne hconvert (List.mem_singleton.mpr hzero.symm)

/-- A command line as long as the limit ends the conversion, and the rest of it is lost. -/
theorem convert_of_limit_le (line : RemoteCommandLine)
    (hlong : conversionLimit ≤ line.units.length) (heap : ℕ → UInt8) :
    wcharToString line.locale (line.contents heap) =
        some ((line.units.take conversionLimit).map line.byteOf) ∧
      (wcstombs line.locale (line.contents heap) conversionLimit).elementsRead =
        conversionLimit := by
  have hlength : (line.units.take conversionLimit).length = conversionLimit :=
    List.length_take_of_le hlong
  have hbytes : (line.units.take conversionLimit).flatMap (fun unit ↦ [line.byteOf unit]) =
      (line.units.take conversionLimit).map line.byteOf := List.map_eq_flatMap.symm
  have hstands : StandsIn (line.contents heap) 0 (line.units.take conversionLimit) := by
    intro offset unit hunit
    rw [List.getElem?_take] at hunit
    split_ifs at hunit with hoffset
    · exact standsIn_contents line heap offset unit hunit
    · cases hunit
  have hencodes : Encodes line.locale (fun unit ↦ [line.byteOf unit])
      (line.units.take conversionLimit) :=
    fun unit hunit ↦ line.encodes unit (List.mem_of_mem_take hunit)
  have hsize : ((line.units.take conversionLimit).flatMap
      (fun unit ↦ [line.byteOf unit])).length = conversionLimit := by
    rw [hbytes, List.length_map, hlength]
  have hfull := wcstombs_of_full hencodes hstands hsize
  constructor
  · rw [wcharToString, convertWith, hfull, hbytes]
    apply cString_append_zeros (zero_not_mem_bytes line conversionLimit)
    rw [List.length_map, hlength]
    decide
  · rw [hfull, hlength]

/-- A shorter command line is read past its end. -/
theorem reads_past_of_lt_limit (hshort : line.units.length < conversionLimit) (heap : ℕ → UInt8) :
    line.units.length <
      (wcstombs line.locale (line.contents heap) conversionLimit).elementsRead := by
  apply lt_elementsRead_wcstombs line.encodes (standsIn_contents line heap)
  rwa [← List.map_eq_flatMap, List.length_map]

theorem ReadBack.length_eq (hread : ReadBack line) : line.units.length = conversionLimit := by
  obtain ⟨hstring, hreads⟩ := hread fun _ ↦ 0
  have hlong : conversionLimit ≤ line.units.length := by
    by_contra hshort
    exact absurd hreads (not_le.mpr (reads_past_of_lt_limit (not_le.mp hshort) _))
  rw [(convert_of_limit_le line hlong _).1, Option.some.injEq] at hstring
  have hlength := congrArg List.length hstring
  rw [List.length_map, List.length_map, List.length_take_of_le hlong] at hlength
  exact hlength.symm

/-- A command line is read back exactly when it has as many characters as are converted at most. -/
theorem readBack_iff (line : RemoteCommandLine) : ReadBack line ↔ line.units.length = 1000 := by
  constructor
  · exact ReadBack.length_eq
  · intro hlength heap
    obtain ⟨hstring, hreads⟩ := convert_of_limit_le line (le_of_eq hlength.symm) heap
    have hwhole : line.units.take conversionLimit = line.units := List.take_of_length_le hlength.le
    rw [hwhole] at hstring
    exact ⟨hstring, by rw [hreads, hlength]; exact le_rfl⟩

/-- The locale `C`: characters below 256 are the bytes of these values. -/
def cLocale : Locale UInt16 UInt8 where
  convert wide := if wide < 256 then some [wide.toUInt8] else none
  convert_ne_nil wide bytes hconvert := by
    by_cases hwide : wide < 256
    · rw [if_pos hwide] at hconvert
      cases hconvert
      exact List.cons_ne_nil _ _
    · rw [if_neg hwide] at hconvert
      cases hconvert
  zero_not_mem wide bytes hne hconvert := by
    by_cases hwide : wide < 256
    · rw [if_pos hwide] at hconvert
      cases hconvert
      rw [List.mem_singleton]
      intro hzero
      apply hne
      have hbyte : wide.toNat % 2 ^ 8 = 0 := by
        rw [← UInt16.toNat_toUInt8, ← hzero]
        rfl
      have hsmall : wide.toNat < 256 := UInt16.lt_iff_toNat_lt.mp hwide
      apply UInt16.toNat_inj.mp
      exact (Nat.mod_eq_of_lt hsmall).symm.trans hbyte
    · rw [if_neg hwide] at hconvert
      cases hconvert

/-- The command line `a`. -/
def shortCommandLine : RemoteCommandLine where
  locale := cLocale
  units := [97]
  byteOf := UInt16.toUInt8
  remote index := if index = 0 then 97 else 0
  address := 0
  length_le := by decide
  encodes := by
    intro unit hunit
    rw [List.mem_singleton.mp hunit]
    decide
  stands := by
    intro offset unit hunit
    cases offset with
    | zero =>
      cases hunit
      decide
    | succ offset => cases hunit

theorem shortCommandLine_not_readBack : ¬ ReadBack shortCommandLine := by
  intro hread
  have hlength : shortCommandLine.units.length = conversionLimit := hread.length_eq
  revert hlength
  decide

end WinProcessThread.Process
