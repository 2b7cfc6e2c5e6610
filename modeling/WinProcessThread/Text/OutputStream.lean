import Mathlib.Data.UInt
import Mathlib.Tactic.Basic

/-!
# Formatted output into a string

The part of an output string stream that formatted inserters use: the radix of integers, the
minimum width of the next insertion and the character that fills it up.  Every formatted insertion
resets the width to zero; radix and fill stay as they are.  Characters are those of a one-byte
encoding, so a byte is written as the character with its code.
-/

namespace WinProcessThread.Text

inductive Radix
  | dec
  | hex
deriving DecidableEq, Repr

structure OutputStream where
  str : List Char
  radix : Radix
  width : ℕ
  fill : Char
deriving DecidableEq, Repr

namespace OutputStream

/-- A stream that was just constructed. -/
def empty : OutputStream where
  str := []
  radix := .dec
  width := 0
  fill := ' '

variable (stream : OutputStream)

def hex : OutputStream :=
  { stream with radix := .hex }

def setw (width : ℕ) : OutputStream :=
  { stream with width := width }

def setfill (fill : Char) : OutputStream :=
  { stream with fill := fill }

/-- A formatted insertion, right-adjusted in the current width. -/
def put (chars : List Char) : OutputStream :=
  { stream with
    str := stream.str ++ chars.leftpad stream.width stream.fill
    width := 0 }

def putChar (char : Char) : OutputStream :=
  stream.put [char]

def putUnsigned (value : UInt32) : OutputStream :=
  match stream.radix with
  | .dec => stream.put (Nat.toDigits 10 value.toNat)
  | .hex => stream.put (Nat.toDigits 16 value.toNat)

/-- A signed value is written with its sign in decimal and as its bit pattern otherwise. -/
def putInt (value : Int32) : OutputStream :=
  match stream.radix with
  | .dec => stream.put (toString value.toInt).toList
  | .hex => stream.putUnsigned value.toUInt32

@[simp]
theorem put_width (chars : List Char) : (stream.put chars).width = 0 := rfl

/-- Without a width an insertion appends its characters as they are. -/
theorem put_str_of_width {stream : OutputStream} (hwidth : stream.width = 0) (chars : List Char) :
    (stream.put chars).str = stream.str ++ chars := by
  simp [put, List.leftpad, hwidth]

@[simp]
theorem putChar_width (char : Char) : (stream.putChar char).width = 0 := rfl

theorem putChar_str_of_width {stream : OutputStream} (hwidth : stream.width = 0) (char : Char) :
    (stream.putChar char).str = stream.str ++ [char] :=
  put_str_of_width hwidth [char]

end OutputStream

end WinProcessThread.Text
