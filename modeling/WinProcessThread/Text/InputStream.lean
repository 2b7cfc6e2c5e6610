import Mathlib.Data.UInt

/-!
# Formatted input

Formatted extraction from a sequence of characters that several input streams may share.  A stream
itself is two flags: the end of the input was reached, and an extraction has failed.  A stream that
is not good extracts nothing, leaves the target as it is and is marked as failed.
-/

namespace WinProcessThread.Text

/-- The state flags of an input stream. -/
structure InputStream where
  eof : Bool
  fail : Bool
deriving DecidableEq, Repr

namespace InputStream

def good (stream : InputStream) : Bool :=
  !stream.eof && !stream.fail

/-- A stream nothing has been read from. -/
def fresh : InputStream where
  eof := false
  fail := false

end InputStream

/-- The result of an extraction: the target behind it, the stream and the unread characters. -/
structure Extraction (Value : Type) where
  value : Value
  stream : InputStream
  unread : List Char
deriving DecidableEq, Repr

/-- White space of the C locale. -/
def isSpace (char : Char) : Bool :=
  char ∈ [' ', '\t', '\n', '\x0B', '\x0C', '\r']

/-- The common part of formatted extractions: skip white space and go on with what follows it. -/
def formatted {Value : Type} (stream : InputStream) (input : List Char) (target : Value)
    (extract : List Char → Extraction Value) : Extraction Value :=
  if stream.good then
    match input.dropWhile isSpace with
    | [] => ⟨target, ⟨true, true⟩, []⟩
    | chars => extract chars
  else
    ⟨target, { stream with fail := true }, input⟩

/-- A failed stream extracts nothing, and stays failed. -/
theorem formatted_of_fail {Value : Type} {stream : InputStream} (hfail : stream.fail = true)
    (input : List Char) (target : Value) (extract : List Char → Extraction Value) :
    formatted stream input target extract = ⟨target, stream, input⟩ := by
  have hgood : stream.good = false := by simp [InputStream.good, hfail]
  have hsame : { stream with fail := true } = stream := by
    rw [← hfail]
  rw [formatted, if_neg (by rw [hgood]; exact Bool.false_ne_true), hsame]

/-- What an extraction leaves of the stream and the input does not depend on its target. -/
theorem formatted_target {Value : Type} (stream : InputStream) (input : List Char)
    (target other : Value) (extract : List Char → Extraction Value) :
    (formatted stream input target extract).stream =
        (formatted stream input other extract).stream ∧
      (formatted stream input target extract).unread =
        (formatted stream input other extract).unread := by
  unfold formatted
  split
  · split
    · exact ⟨rfl, rfl⟩
    · exact ⟨rfl, rfl⟩
  · exact ⟨rfl, rfl⟩

/-- Extraction of a word: the characters up to the next white space. -/
def extractWord (stream : InputStream) (input target : List Char) : Extraction (List Char) :=
  formatted stream input target fun chars ↦
    let unread := chars.dropWhile fun char ↦ !isSpace char
    ⟨chars.takeWhile fun char ↦ !isSpace char, ⟨unread.isEmpty, false⟩, unread⟩

/-- The text in an array of `size` characters, one of which is its terminator. -/
structure CharArray (size : ℕ) where
  text : List Char
  fits : text.length < size
deriving DecidableEq, Repr

/-- The first characters of a text, as many as an array takes. -/
def CharArray.store {size : ℕ} (target : CharArray size) (chars : List Char) : CharArray size where
  text := chars.take (size - 1)
  fits := by
    have hsize := target.fits
    rw [List.length_take]
    omega

/-- Extraction of a word to an array, which stops when the array is full.  What is left of a longer
word is not read, and a word that fills the array is not looked behind. -/
def extractArray {size : ℕ} (stream : InputStream) (input : List Char) (target : CharArray size) :
    Extraction (CharArray size) :=
  formatted stream input target fun chars ↦
    let value := target.store (chars.takeWhile fun char ↦ !isSpace char)
    let unread := chars.drop value.text.length
    ⟨value, ⟨value.text.length < size - 1 && unread.isEmpty, value.text.isEmpty⟩, unread⟩

/-- A word is extracted with at least one character, or the extraction fails and leaves its target
alone. -/
theorem extractWord_cases (stream : InputStream) (input : List Char) :
    (∀ target, (extractWord stream input target).value = target ∧
        (extractWord stream input target).stream.fail = true) ∨
      ∃ word eof unread, unread.length < input.length ∧
        ∀ target, extractWord stream input target = ⟨word, ⟨eof, false⟩, unread⟩ := by
  unfold extractWord formatted
  by_cases hgood : stream.good = true
  · have hskip : (input.dropWhile isSpace).length ≤ input.length :=
      (List.dropWhile_sublist isSpace).length_le
    have hhead := List.head?_dropWhile_not isSpace input
    simp only [if_pos hgood]
    cases hchars : input.dropWhile isSpace with
    | nil => exact .inl fun _ ↦ ⟨rfl, rfl⟩
    | cons first rest =>
      refine .inr ⟨_, _, (first :: rest).dropWhile fun char ↦ !isSpace char, ?_, fun _ ↦ rfl⟩
      rw [hchars] at hskip hhead
      have hfirst : isSpace first = false := hhead
      have hrest := (List.dropWhile_sublist (fun char ↦ !isSpace char) (l := rest)).length_le
      rw [List.dropWhile_cons_of_pos (by rw [hfirst]; rfl)]
      rw [List.length_cons] at hskip
      omega
  · left
    intro target
    rw [if_neg hgood]
    exact ⟨rfl, rfl⟩

/-- A decimal number with an optional sign at the start of a text, and the text behind it. -/
def scanInteger (chars : List Char) : Option ℤ × List Char :=
  let negative := chars.head? = some '-'
  let unsigned := if negative ∨ chars.head? = some '+' then chars.tail else chars
  let digits := unsigned.takeWhile Char.isDigit
  let unread := unsigned.dropWhile Char.isDigit
  if digits.isEmpty then
    (none, unread)
  else
    let magnitude : ℤ := Nat.ofDigitChars 10 digits 0
    (some (if negative then -magnitude else magnitude), unread)

theorem length_scanInteger (chars : List Char) :
    (scanInteger chars).2.length ≤ chars.length := by
  have hunread : (scanInteger chars).2 =
      (if chars.head? = some '-' ∨ chars.head? = some '+' then chars.tail else chars).dropWhile
        Char.isDigit := by
    unfold scanInteger
    simp only [apply_ite Prod.snd, ite_self]
  rw [hunread]
  refine (List.dropWhile_sublist Char.isDigit).length_le.trans ?_
  split
  · exact (List.tail_sublist chars).length_le
  · exact le_rfl

/-- The value lies in the range of `int`. -/
def InRange (value : ℤ) : Prop :=
  -2 ^ 31 ≤ value ∧ value < 2 ^ 31

instance (value : ℤ) : Decidable (InRange value) :=
  inferInstanceAs (Decidable (_ ∧ _))

/-- Extraction of an `int`.  Without digits it stores zero and out of range the nearest limit; both
fail. -/
def extractInt (stream : InputStream) (input : List Char) (target : Int32) : Extraction Int32 :=
  formatted stream input target fun chars ↦
    match scanInteger chars with
    | (none, unread) => ⟨0, ⟨unread.isEmpty, true⟩, unread⟩
    | (some value, unread) =>
      if InRange value then
        ⟨Int32.ofInt value, ⟨unread.isEmpty, false⟩, unread⟩
      else
        ⟨if value < 0 then Int32.minValue else Int32.maxValue, ⟨unread.isEmpty, true⟩, unread⟩

theorem extractInt_target (stream : InputStream) (input : List Char) (target other : Int32) :
    (extractInt stream input target).stream = (extractInt stream input other).stream ∧
      (extractInt stream input target).unread = (extractInt stream input other).unread :=
  formatted_target stream input target other _

theorem extractArray_target {size : ℕ} (stream : InputStream) (input : List Char)
    (target other : CharArray size) :
    (extractArray stream input target).stream = (extractArray stream input other).stream ∧
      (extractArray stream input target).unread = (extractArray stream input other).unread :=
  formatted_target stream input target other _


/-- An extraction never gives characters back. -/
theorem length_formatted_unread {Value : Type} (stream : InputStream) (input : List Char)
    (target : Value) {extract : List Char → Extraction Value}
    (hextract : ∀ chars, (extract chars).unread.length ≤ chars.length) :
    (formatted stream input target extract).unread.length ≤ input.length := by
  have hskip : (input.dropWhile isSpace).length ≤ input.length :=
    (List.dropWhile_sublist isSpace).length_le
  unfold formatted
  split
  · split
    · exact Nat.zero_le _
    · exact (hextract _).trans hskip
  · exact le_rfl

theorem length_extractWord_unread (stream : InputStream) (input target : List Char) :
    (extractWord stream input target).unread.length ≤ input.length := by
  apply length_formatted_unread
  intro chars
  exact (List.dropWhile_sublist _).length_le

theorem length_extractArray_unread {size : ℕ} (stream : InputStream) (input : List Char)
    (target : CharArray size) :
    (extractArray stream input target).unread.length ≤ input.length := by
  apply length_formatted_unread
  intro chars
  exact (List.drop_sublist _ chars).length_le

theorem length_extractInt_unread (stream : InputStream) (input : List Char) (target : Int32) :
    (extractInt stream input target).unread.length ≤ input.length := by
  apply length_formatted_unread
  intro chars
  have hscan := length_scanInteger chars
  split
  next unread hnone =>
    rw [hnone] at hscan
    exact hscan
  next value unread hsome =>
    rw [hsome] at hscan
    split
    · exact hscan
    · exact hscan

/-- Conversion of a text to an `int`: the number it begins with.  `none` is an exception. -/
def stoi (text : List Char) : Option Int32 :=
  match (scanInteger (text.dropWhile isSpace)).1 with
  | some value => if InRange value then some (Int32.ofInt value) else none
  | none => none

end WinProcessThread.Text
