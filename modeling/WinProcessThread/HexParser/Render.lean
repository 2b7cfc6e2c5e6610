import WinProcessThread.Text.BlockCode
import WinProcessThread.Text.OutputStream

/-!
# Rendering bytes as text

`bytes_to_hex` writes two lower-case hex digits and a space for every byte, `bytes_to_string` the
byte itself and a space.  Both are loops over an output stream; the theorems say what the loops
leave in it, and that the hex rendering is a block code.
-/

namespace WinProcessThread.HexParser

open Text

/-- The `while` loop of `bytes_to_hex`. -/
def bytesToHexLoop (hex : OutputStream) : List UInt8 → OutputStream
  | [] => hex
  | byte :: rest =>
    let hex := ((hex.hex.setw 2).setfill '0').putUnsigned byte.toUInt32
    bytesToHexLoop (hex.putChar ' ') rest

/-- `bytes_to_hex`. -/
def bytesToHex (bytes : List UInt8) : List Char :=
  (bytesToHexLoop OutputStream.empty.hex bytes).str

/-- The `while` loop of `bytes_to_string`. -/
def bytesToStringLoop (hex : OutputStream) : List UInt8 → OutputStream
  | [] => hex
  | byte :: rest =>
    let hex := hex.putChar (Char.ofNat byte.toNat)
    bytesToStringLoop (hex.putChar ' ') rest

/-- `bytes_to_string`. -/
def bytesToString (bytes : List UInt8) : List Char :=
  (bytesToStringLoop OutputStream.empty.hex bytes).str

/-- The digits of a byte as the stream writes them in width two. -/
def hexDigits (byte : UInt8) : List Char :=
  (Nat.toDigits 16 byte.toNat).leftpad 2 '0'

theorem hexDigits_eq (byte : UInt8) :
    hexDigits byte = [(byte.toNat / 16).digitChar, (byte.toNat % 16).digitChar] := by
  have hbyte : byte.toNat < 256 := byte.toNat_lt
  by_cases hsmall : byte.toNat < 16
  · have hhigh : byte.toNat / 16 = 0 := Nat.div_eq_of_lt hsmall
    have hlow : byte.toNat % 16 = byte.toNat := Nat.mod_eq_of_lt hsmall
    rw [hexDigits, Nat.toDigits_of_lt_base hsmall, hhigh, hlow]
    rfl
  · have hhigh : byte.toNat / 16 < 16 := by omega
    rw [hexDigits, Nat.toDigits_of_base_le (by decide) (by omega), Nat.toDigits_of_lt_base hhigh]
    rfl

theorem digitChar_injective_of_lt {digit other : ℕ} (hdigit : digit < 16) (hother : other < 16)
    (heq : digit.digitChar = other.digitChar) : digit = other := by
  have htable : ∀ digit < 16, ∀ other < 16,
      digit.digitChar = other.digitChar → digit = other := by decide
  exact htable digit hdigit other hother heq

theorem digitChar_ne_space_of_lt {digit : ℕ} (hdigit : digit < 16) : digit.digitChar ≠ ' ' := by
  have htable : ∀ digit < 16, digit.digitChar ≠ ' ' := by decide
  exact htable digit hdigit

theorem hexDigits_injective : Function.Injective hexDigits := by
  intro byte other heq
  have hbyte : byte.toNat < 256 := byte.toNat_lt
  have hotherLt : other.toNat < 256 := other.toNat_lt
  rw [hexDigits_eq, hexDigits_eq, List.cons_eq_cons, List.cons_eq_cons] at heq
  have hhigh : byte.toNat / 16 = other.toNat / 16 :=
    digitChar_injective_of_lt (by omega) (by omega) heq.1
  have hlow : byte.toNat % 16 = other.toNat % 16 :=
    digitChar_injective_of_lt (by omega) (by omega) heq.2.1
  apply UInt8.toNat_inj.mp
  omega

/-- The hex rendering is a block code: two digits, then a space. -/
def byteCode : BlockCode UInt8 Char where
  body := hexDigits
  separator := ' '
  width := 2
  width_pos := by decide
  body_length byte := by rw [hexDigits_eq]; rfl
  separator_not_mem byte := by
    have hbyte : byte.toNat < 256 := byte.toNat_lt
    rw [hexDigits_eq, List.mem_pair]
    rintro (hspace | hspace)
    · exact digitChar_ne_space_of_lt (by omega) hspace.symm
    · exact digitChar_ne_space_of_lt (by omega) hspace.symm
  body_injective := hexDigits_injective

theorem bytesToHexLoop_str (hex : OutputStream) (bytes : List UInt8) :
    (bytesToHexLoop hex bytes).str = hex.str ++ byteCode.encode bytes := by
  induction bytes generalizing hex with
  | nil => simp [bytesToHexLoop]
  | cons byte rest ih =>
    -- Each round sets radix, width and fill itself, so the stream it starts from does not matter.
    have hround :
        ((((hex.hex.setw 2).setfill '0').putUnsigned byte.toUInt32).putChar ' ').str =
          hex.str ++ hexDigits byte ++ [' '] := by
      rfl
    calc
      (bytesToHexLoop hex (byte :: rest)).str =
          hex.str ++ hexDigits byte ++ [' '] ++ byteCode.encode rest := by
        rw [bytesToHexLoop, ih, hround]
      _ = hex.str ++ byteCode.encode (byte :: rest) := by
        rw [BlockCode.encode_cons]
        simp [byteCode]

theorem bytesToHex_eq_encode (bytes : List UInt8) : bytesToHex bytes = byteCode.encode bytes := by
  rw [bytesToHex, bytesToHexLoop_str]
  rfl

theorem bytesToStringLoop_str (hex : OutputStream) (hwidth : hex.width = 0) (bytes : List UInt8) :
    (bytesToStringLoop hex bytes).str =
      hex.str ++ bytes.flatMap fun byte ↦ [Char.ofNat byte.toNat, ' '] := by
  induction bytes generalizing hex with
  | nil => simp [bytesToStringLoop]
  | cons byte rest ih =>
    have hround : ((hex.putChar (Char.ofNat byte.toNat)).putChar ' ').str =
        hex.str ++ [Char.ofNat byte.toNat] ++ [' '] := by
      rw [OutputStream.putChar_str_of_width (OutputStream.putChar_width _ _),
        OutputStream.putChar_str_of_width hwidth]
    rw [bytesToStringLoop, ih _ rfl, hround]
    simp

theorem bytesToString_eq (bytes : List UInt8) :
    bytesToString bytes = bytes.flatMap fun byte ↦ [Char.ofNat byte.toNat, ' '] := by
  rw [bytesToString, bytesToStringLoop_str _ rfl]
  rfl

end WinProcessThread.HexParser
