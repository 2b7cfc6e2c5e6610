import WinProcessThread.HexParser.Render

/-!
# Reading the renderings back

The hex rendering is read in groups of two lower-case digits and a space.  Exactly the renderings
are made of such groups, and the groups give the bytes back.  The plain rendering gives them back as
well, since every second character of it is a byte.
-/

namespace WinProcessThread.HexParser

open Text

/-- The value of a lower-case hex digit. -/
def digitValue (char : Char) : Option ℕ :=
  (List.range 16).find? fun digit ↦ digit.digitChar = char

def decodeByte (high low : Char) : Option UInt8 :=
  (digitValue high).bind fun high ↦ (digitValue low).map fun low ↦ UInt8.ofNat (16 * high + low)

/-- Groups of two digits and a space. -/
def decodeHex : List Char → Option (List UInt8)
  | [] => some []
  | high :: low :: ' ' :: rest =>
    (decodeByte high low).bind fun byte ↦ (decodeHex rest).map fun bytes ↦ byte :: bytes
  | _ => none

theorem digitValue_digitChar {digit : ℕ} (hdigit : digit < 16) :
    digitValue digit.digitChar = some digit := by
  have htable : ∀ digit < 16, digitValue digit.digitChar = some digit := by decide
  exact htable digit hdigit

theorem digitChar_of_digitValue {char : Char} {digit : ℕ} (hvalue : digitValue char = some digit) :
    digit < 16 ∧ digit.digitChar = char := by
  have hchar := List.find?_some hvalue
  have hdigit := List.mem_of_find?_eq_some hvalue
  exact ⟨List.mem_range.mp hdigit, of_decide_eq_true hchar⟩

/-- Two characters are read as a byte exactly when they are its digits. -/
theorem decodeByte_eq_some_iff {high low : Char} {byte : UInt8} :
    decodeByte high low = some byte ↔ hexDigits byte = [high, low] := by
  have hbyte : byte.toNat < 256 := byte.toNat_lt
  rw [decodeByte, Option.bind_eq_some_iff, hexDigits_eq]
  constructor
  · rintro ⟨highDigit, hhigh, hrest⟩
    obtain ⟨lowDigit, hlow, hvalue⟩ := Option.map_eq_some_iff.mp hrest
    obtain ⟨hhighLt, hhighChar⟩ := digitChar_of_digitValue hhigh
    obtain ⟨hlowLt, hlowChar⟩ := digitChar_of_digitValue hlow
    have hnat : byte.toNat = 16 * highDigit + lowDigit := by
      rw [← hvalue]
      exact UInt8.toNat_ofNat_of_lt' (by change 16 * highDigit + lowDigit < 256; omega)
    have hhighDigit : byte.toNat / 16 = highDigit := by omega
    have hlowDigit : byte.toNat % 16 = lowDigit := by omega
    rw [hhighDigit, hlowDigit, hhighChar, hlowChar]
  · intro hdigits
    obtain ⟨hhighChar, hlowChar⟩ : (byte.toNat / 16).digitChar = high ∧
        (byte.toNat % 16).digitChar = low := by simpa using hdigits
    have hvalue : 16 * (byte.toNat / 16) + byte.toNat % 16 = byte.toNat := by omega
    refine ⟨byte.toNat / 16, ?_, ?_⟩
    · rw [← hhighChar]
      exact digitValue_digitChar (by omega)
    · rw [← hlowChar, digitValue_digitChar (by omega), Option.map_some, hvalue, UInt8.ofNat_toNat]

theorem bytesToHex_cons (byte : UInt8) (rest : List UInt8) :
    bytesToHex (byte :: rest) =
      (byte.toNat / 16).digitChar :: (byte.toNat % 16).digitChar :: ' ' :: bytesToHex rest := by
  rw [bytesToHex_eq_encode, bytesToHex_eq_encode, BlockCode.encode_cons]
  change hexDigits byte ++ _ = _
  rw [hexDigits_eq]
  rfl

theorem bytesToHex_append (bytes more : List UInt8) :
    bytesToHex (bytes ++ more) = bytesToHex bytes ++ bytesToHex more := by
  simp only [bytesToHex_eq_encode, BlockCode.encode_append]

theorem decodeHex_bytesToHex (bytes : List UInt8) : decodeHex (bytesToHex bytes) = some bytes := by
  induction bytes with
  | nil => rfl
  | cons byte rest ih =>
    have hdigits : decodeByte (byte.toNat / 16).digitChar (byte.toNat % 16).digitChar = some byte :=
      decodeByte_eq_some_iff.mpr (hexDigits_eq byte)
    rw [bytesToHex_cons, decodeHex, hdigits, ih]
    rfl

/-- A text of groups is the rendering of its bytes. -/
theorem bytesToHex_of_decodeHex {text : List Char} {bytes : List UInt8}
    (hdecode : decodeHex text = some bytes) : bytesToHex bytes = text := by
  induction text using decodeHex.induct generalizing bytes with
  | case1 =>
    rw [← Option.some.inj hdecode]
    rfl
  | case2 high low rest ih =>
    rw [decodeHex, Option.bind_eq_some_iff] at hdecode
    obtain ⟨byte, hbyte, hrest⟩ := hdecode
    obtain ⟨restBytes, hrestBytes, hbytes⟩ := Option.map_eq_some_iff.mp hrest
    have hdigits := decodeByte_eq_some_iff.mp hbyte
    calc
      bytesToHex bytes = hexDigits byte ++ ' ' :: bytesToHex restBytes := by
        rw [← hbytes, bytesToHex_eq_encode, BlockCode.encode_cons, ← bytesToHex_eq_encode]
        rfl
      _ = hexDigits byte ++ ' ' :: rest := by
        rw [ih hrestBytes]
      _ = high :: low :: ' ' :: rest := by
        rw [hdigits]
        rfl
  | case3 text hnil hgroup =>
    rw [decodeHex.eq_3 text hnil hgroup] at hdecode
    cases hdecode

/-- The decoder accepts the renderings and nothing else. -/
theorem decodeHex_eq_some_iff {text : List Char} {bytes : List UInt8} :
    decodeHex text = some bytes ↔ bytesToHex bytes = text := by
  constructor
  · exact bytesToHex_of_decodeHex
  · intro htext
    rw [← htext]
    exact decodeHex_bytesToHex bytes

/-- A byte has its group at three times its index. -/
theorem drop_bytesToHex (bytes : List UInt8) (index : ℕ) :
    (bytesToHex bytes).drop (3 * index) = bytesToHex (bytes.drop index) := by
  rw [bytesToHex_eq_encode, bytesToHex_eq_encode]
  exact byteCode.drop_encode bytes index

/-- The character that a byte is written as. -/
def byteChar (byte : UInt8) : Char :=
  Char.ofNat byte.toNat

theorem byteChar_injective : Function.Injective byteChar := by
  intro byte other heq
  have hvalid : ∀ byte : UInt8, (byteChar byte).toNat = byte.toNat := by
    intro byte
    have hbyte : byte.toNat < 256 := byte.toNat_lt
    have hscalar : byte.toNat.isValidChar := .inl (by omega)
    rw [byteChar, Char.ofNat, dif_pos hscalar]
    rfl
  apply UInt8.toNat_inj.mp
  rw [← hvalid byte, heq, hvalid other]

theorem bytesToString_cons (byte : UInt8) (rest : List UInt8) :
    bytesToString (byte :: rest) = byteChar byte :: ' ' :: bytesToString rest := by
  rw [bytesToString_eq, bytesToString_eq]
  rfl

theorem getElem?_bytesToString (bytes : List UInt8) (index : ℕ) :
    (bytesToString bytes)[2 * index]? = bytes[index]?.map byteChar := by
  induction bytes generalizing index with
  | nil => rfl
  | cons byte rest ih =>
    rw [bytesToString_cons]
    cases index with
    | zero => rfl
    | succ index =>
      have hplace : 2 * (index + 1) = 2 * index + 1 + 1 := by ring
      calc
        (byteChar byte :: ' ' :: bytesToString rest)[2 * (index + 1)]? =
            (bytesToString rest)[2 * index]? := by
          rw [hplace, List.getElem?_cons_succ, List.getElem?_cons_succ]
        _ = (byte :: rest)[index + 1]?.map byteChar := by
          rw [ih, List.getElem?_cons_succ]

theorem bytesToString_injective : Function.Injective bytesToString := by
  intro bytes other heq
  apply List.ext_getElem?
  intro index
  apply Option.map_injective byteChar_injective
  rw [← getElem?_bytesToString, heq, getElem?_bytesToString]

/-- **Lossless renderings.**  The decoder of the hex rendering is its inverse, concatenation is
rendered as concatenation, the plain rendering determines the bytes, and a byte stands at three
times its index in the one and at twice its index in the other. -/
theorem renderings_lossless :
    (∀ bytes, decodeHex (bytesToHex bytes) = some bytes) ∧
      (∀ text bytes, decodeHex text = some bytes ↔ bytesToHex bytes = text) ∧
      (∀ bytes more, bytesToHex (bytes ++ more) = bytesToHex bytes ++ bytesToHex more) ∧
      Function.Injective bytesToString ∧
      (∀ (bytes : List UInt8) (index : Fin bytes.length),
        ((bytesToHex bytes).drop (3 * index)).take 2 = hexDigits bytes[index]) ∧
      ∀ (bytes : List UInt8) (index : Fin bytes.length),
        (bytesToString bytes)[2 * index.val]? = some (byteChar bytes[index]) := by
  refine ⟨decodeHex_bytesToHex, fun _ _ ↦ decodeHex_eq_some_iff, bytesToHex_append,
    bytesToString_injective, ?_, ?_⟩
  · intro bytes index
    rw [drop_bytesToHex, List.drop_eq_getElem_cons index.isLt, bytesToHex_cons, hexDigits_eq]
    rfl
  · intro bytes index
    rw [getElem?_bytesToString, List.getElem?_eq_getElem index.isLt]
    rfl

end WinProcessThread.HexParser
