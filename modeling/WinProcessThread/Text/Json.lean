import Mathlib.Data.Char
import Mathlib.Data.List.Basic
import Mathlib.Data.Nat.Basic

/-!
# JSON texts

The grammar of JSON as relations between a text, the value in front of it and the rest of the text.
Strings denote lists of characters; an escaped surrogate denotes one only together with its other
half.  The last section is about a string literal whose content is put between quotes as it is.
-/

namespace WinProcessThread.Text

inductive Json
  | null
  | bool (value : Bool)
  /-- A number, as it is written. -/
  | number (literal : List Char)
  | string (text : List Char)
  | array (items : List Json)
  | object (members : List (List Char × Json))

namespace Json

def IsSpace (char : Char) : Prop :=
  char ∈ [' ', '\t', '\n', '\r']

instance (char : Char) : Decidable (IsSpace char) :=
  inferInstanceAs (Decidable (_ ∈ _))

def skipSpace (text : List Char) : List Char :=
  text.dropWhile fun char ↦ IsSpace char

/-- A character that is no space stays in front. -/
theorem skipSpace_of_not_space {char : Char} (hchar : ¬ IsSpace char) (text : List Char) :
    skipSpace (char :: text) = char :: text := by
  simp [skipSpace, hchar]

theorem skipSpace_space (text : List Char) : skipSpace (' ' :: text) = skipSpace text := rfl

/-- A character that stands for itself in a string. -/
def IsUnescaped (char : Char) : Prop :=
  char ≠ '"' ∧ char ≠ '\\' ∧ 0x20 ≤ char.toNat

instance (char : Char) : Decidable (IsUnescaped char) :=
  inferInstanceAs (Decidable (_ ∧ _))

/-- The characters behind a backslash that stand for one character. -/
def escapes : List (Char × Char) :=
  [('"', '"'), ('\\', '\\'), ('/', '/'), ('b', '\x08'), ('f', '\x0c'), ('n', '\n'), ('r', '\r'),
    ('t', '\t')]

def hexValue (char : Char) : Option ℕ :=
  (List.range 16).find? fun digit ↦ digit.digitChar = char ∨ digit.digitChar.toUpper = char

/-- Four hex digits. -/
inductive HexUnit : List Char → ℕ → List Char → Prop
  | digits {first second third fourth : Char} {a b c d : ℕ} (rest : List Char)
      (hfirst : hexValue first = some a) (hsecond : hexValue second = some b)
      (hthird : hexValue third = some c) (hfourth : hexValue fourth = some d) :
      HexUnit (first :: second :: third :: fourth :: rest) (((a * 16 + b) * 16 + c) * 16 + d) rest

/-- What stands behind a backslash, and the character that it denotes. -/
inductive Escape : List Char → Char → List Char → Prop
  | short {symbol char : Char} (rest : List Char) (hescape : (symbol, char) ∈ escapes) :
      Escape (symbol :: rest) char rest
  | unit {text rest : List Char} {unit : ℕ} (hunit : HexUnit text unit rest)
      (hvalid : unit.isValidChar) : Escape ('u' :: text) (Char.ofNat unit) rest
  | pair {text behind rest : List Char} {high low : ℕ}
      (hhigh : HexUnit text high ('\\' :: 'u' :: behind)) (hlow : HexUnit behind low rest)
      (hhighRange : 0xD800 ≤ high ∧ high < 0xDC00)
      (hlowRange : 0xDC00 ≤ low ∧ low < 0xE000) :
      Escape ('u' :: text) (Char.ofNat (0x10000 + (high - 0xD800) * 0x400 + (low - 0xDC00))) rest

/-- A string behind its opening quote. -/
inductive StringBody : List Char → List Char → List Char → Prop
  | close (rest : List Char) : StringBody ('"' :: rest) [] rest
  | unescaped {text decoded rest : List Char} {char : Char} (hchar : IsUnescaped char)
      (hbody : StringBody text decoded rest) : StringBody (char :: text) (char :: decoded) rest
  | escaped {text behind decoded rest : List Char} {char : Char}
      (hescape : Escape text char behind) (hbody : StringBody behind decoded rest) :
      StringBody ('\\' :: text) (char :: decoded) rest

def IsDigits (text : List Char) : Prop :=
  text ≠ [] ∧ ∀ char ∈ text, char.isDigit

/-- A number without its sign: digits without a leading zero, a fraction and an exponent. -/
def IsMagnitude (text : List Char) : Prop :=
  ∃ whole fraction exponent, text = whole ++ fraction ++ exponent ∧
    IsDigits whole ∧ (whole = ['0'] ∨ whole.head? ≠ some '0') ∧
    (fraction = [] ∨ ∃ digits, fraction = '.' :: digits ∧ IsDigits digits) ∧
    (exponent = [] ∨ ∃ mark sign digits, exponent = mark :: (sign ++ digits) ∧
      mark ∈ ['e', 'E'] ∧ sign ∈ [[], ['+'], ['-']] ∧ IsDigits digits)

def IsNumber (text : List Char) : Prop :=
  IsMagnitude text ∨ ∃ magnitude, text = '-' :: magnitude ∧ IsMagnitude magnitude

mutual

/-- A value stands in front of the text. -/
inductive Reads : List Char → Json → List Char → Prop
  | null (rest : List Char) : Reads ('n' :: 'u' :: 'l' :: 'l' :: rest) .null rest
  | true (rest : List Char) : Reads ('t' :: 'r' :: 'u' :: 'e' :: rest) (.bool true) rest
  | false (rest : List Char) : Reads ('f' :: 'a' :: 'l' :: 's' :: 'e' :: rest) (.bool false) rest
  | number {text literal rest : List Char} (htext : text = literal ++ rest)
      (hnumber : IsNumber literal) : Reads text (.number literal) rest
  | string {text decoded rest : List Char} (hbody : StringBody text decoded rest) :
      Reads ('"' :: text) (.string decoded) rest
  | emptyArray {text rest : List Char} (hclose : skipSpace text = ']' :: rest) :
      Reads ('[' :: text) (.array []) rest
  | array {text rest : List Char} {items : List Json} (hitems : Items text items rest) :
      Reads ('[' :: text) (.array items) rest
  | emptyObject {text rest : List Char} (hclose : skipSpace text = '}' :: rest) :
      Reads ('{' :: text) (.object []) rest
  | object {text rest : List Char} {members : List (List Char × Json)}
      (hmembers : Members text members rest) : Reads ('{' :: text) (.object members) rest

/-- The items of an array up to its closing bracket. -/
inductive Items : List Char → List Json → List Char → Prop
  | last {text behind rest : List Char} {item : Json} (hitem : Reads (skipSpace text) item behind)
      (hclose : skipSpace behind = ']' :: rest) : Items text [item] rest
  | more {text behind next rest : List Char} {item : Json} {items : List Json}
      (hitem : Reads (skipSpace text) item behind) (hcomma : skipSpace behind = ',' :: next)
      (hitems : Items next items rest) : Items text (item :: items) rest

/-- A name and a value. -/
inductive Member : List Char → List Char × Json → List Char → Prop
  | member {text body behind value rest : List Char} {name : List Char} {json : Json}
      (hquote : skipSpace text = '"' :: body) (hname : StringBody body name behind)
      (hcolon : skipSpace behind = ':' :: value) (hvalue : Reads (skipSpace value) json rest) :
      Member text (name, json) rest

/-- The members of an object up to its closing brace. -/
inductive Members : List Char → List (List Char × Json) → List Char → Prop
  | last {text behind rest : List Char} {member : List Char × Json}
      (hmember : Member text member behind) (hclose : skipSpace behind = '}' :: rest) :
      Members text [member] rest
  | more {text behind next rest : List Char} {member : List Char × Json}
      {members : List (List Char × Json)} (hmember : Member text member behind)
      (hcomma : skipSpace behind = ',' :: next) (hmembers : Members next members rest) :
      Members text (member :: members) rest

end

/-- The text is one JSON text, of this value. -/
def Denotes (text : List Char) (value : Json) : Prop :=
  ∃ rest, Reads (skipSpace text) value rest ∧ skipSpace rest = []

variable {content behind decoded rest text : List Char}

/-- Content that needs no escapes. -/
def Unescaped (content : List Char) : Prop :=
  ∀ char ∈ content, IsUnescaped char

instance (content : List Char) : Decidable (Unescaped content) :=
  List.decidableBAll IsUnescaped content

theorem stringBody_quote_iff :
    StringBody ('"' :: text) decoded rest ↔ decoded = [] ∧ rest = text := by
  constructor
  · intro hbody
    cases hbody with
    | close => exact ⟨rfl, rfl⟩
    | unescaped hchar _ => exact absurd rfl hchar.1
  · rintro ⟨rfl, rfl⟩
    exact .close rest

/-- Content without escapes denotes itself. -/
theorem stringBody_unescaped_iff (hcontent : Unescaped content) :
    StringBody (content ++ '"' :: behind) decoded rest ↔ decoded = content ∧ rest = behind := by
  induction content generalizing decoded with
  | nil => exact stringBody_quote_iff
  | cons char content ih =>
    obtain ⟨hchar, hrest⟩ := List.forall_mem_cons.mp hcontent
    constructor
    · intro hbody
      rw [List.cons_append] at hbody
      cases hbody with
      | close => exact absurd rfl hchar.1
      | unescaped _ hbody =>
        obtain ⟨rfl, rfl⟩ := (ih hrest).mp hbody
        exact ⟨rfl, rfl⟩
      | escaped _ _ => exact absurd rfl hchar.2.1
    · rintro ⟨rfl, rfl⟩
      exact .unescaped hchar ((ih hrest).mpr ⟨rfl, rfl⟩)

theorem hexValue_quote : hexValue '"' = none := by decide

/-- Four hex digits in front of a quote that has not been reached. -/
theorem HexUnit.append_cases {unit : ℕ} (hunit : HexUnit (content ++ '"' :: behind) unit rest) :
    ∃ left, rest = left ++ '"' :: behind ∧ left.length < content.length := by
  generalize htext : content ++ '"' :: behind = text at hunit
  cases hunit with
  | digits rest hfirst hsecond hthird hfourth =>
    match content with
    | [] =>
      cases htext
      exact absurd hfirst (by simp [hexValue_quote])
    | [_] =>
      cases htext
      exact absurd hsecond (by simp [hexValue_quote])
    | [_, _] =>
      cases htext
      exact absurd hthird (by simp [hexValue_quote])
    | [_, _, _] =>
      cases htext
      exact absurd hfourth (by simp [hexValue_quote])
    | _ :: _ :: _ :: _ :: left =>
      cases htext
      refine ⟨left, rfl, ?_⟩
      simp only [List.length_cons]
      omega

/-- An escape ends in front of the quote, or the content ended with the backslash. -/
theorem Escape.append_cases {char : Char} (hescape : Escape (content ++ '"' :: behind) char rest) :
    rest = behind ∨ ∃ left, rest = left ++ '"' :: behind ∧ left.length < content.length := by
  generalize htext : content ++ '"' :: behind = text at hescape
  cases content with
  | nil =>
    cases htext
    cases hescape with
    | short => exact .inl rfl
  | cons symbol content =>
    cases htext
    right
    cases hescape with
    | short => exact ⟨content, rfl, Nat.lt_succ_self _⟩
    | unit hunit _ =>
      obtain ⟨left, hleft, hlt⟩ := hunit.append_cases
      exact ⟨left, hleft, Nat.lt_succ_of_lt hlt⟩
    | pair hhigh hlow _ _ =>
      obtain ⟨middle, hmiddle, hmiddleLt⟩ := hhigh.append_cases
      match middle with
      | [] => cases hmiddle
      | [_] => cases hmiddle
      | _ :: _ :: middle =>
        cases hmiddle
        obtain ⟨left, hleft, hlt⟩ := hlow.append_cases
        refine ⟨left, hleft, ?_⟩
        simp only [List.length_cons] at hmiddleLt ⊢
        omega

/-- Content between quotes denotes something shorter, or itself, or its quote does not close it. -/
theorem StringBody.append_cases (hbody : StringBody (content ++ '"' :: behind) decoded rest) :
    decoded.length < content.length ∨
      (decoded = content ∧ rest = behind ∧ Unescaped content) ∨
      ∃ more, StringBody behind more rest := by
  generalize htext : content ++ '"' :: behind = text at hbody
  induction hbody generalizing content with
  | close rest =>
    cases content with
    | nil =>
      cases htext
      exact .inr (.inl ⟨rfl, rfl, nofun⟩)
    | cons char content => exact .inl (Nat.succ_pos _)
  | unescaped hchar _ ih =>
    cases content with
    | nil =>
      cases htext
      exact absurd rfl hchar.1
    | cons char content =>
      cases htext
      rcases ih rfl with hshort | ⟨rfl, rfl, hcontent⟩ | hmore
      · exact .inl (Nat.succ_lt_succ hshort)
      · exact .inr (.inl ⟨rfl, rfl, List.forall_mem_cons.mpr ⟨hchar, hcontent⟩⟩)
      · exact .inr (.inr hmore)
  | escaped hescape hbody ih =>
    cases content with
    | nil => cases htext
    | cons char content =>
      cases htext
      rcases hescape.append_cases with rfl | ⟨left, rfl, hlt⟩
      · exact .inr (.inr ⟨_, hbody⟩)
      · rw [List.length_cons, List.length_cons]
        rcases ih rfl with hshort | ⟨rfl, -, -⟩ | hmore
        · exact .inl (by omega)
        · exact .inl (by omega)
        · exact .inr (.inr hmore)

theorem IsMagnitude.exists_digit {magnitude : List Char} (hmagnitude : IsMagnitude magnitude) :
    ∃ digit more, magnitude = digit :: more ∧ digit.isDigit := by
  obtain ⟨whole, fraction, exponent, rfl, ⟨hne, hdigits⟩, -⟩ := hmagnitude
  obtain ⟨digit, more, rfl⟩ := List.exists_cons_of_ne_nil hne
  exact ⟨digit, more ++ fraction ++ exponent, rfl, hdigits digit List.mem_cons_self⟩

theorem IsNumber.not_quote {literal : List Char} (hnumber : IsNumber literal) :
    '"' :: text ≠ literal ++ rest := by
  intro htext
  rcases hnumber with hmagnitude | ⟨magnitude, rfl, -⟩
  · obtain ⟨digit, more, rfl, hdigit⟩ := hmagnitude.exists_digit
    cases htext
    exact absurd hdigit (by decide)
  · cases htext

/-- In front of a quote stands a string. -/
theorem reads_quote_iff {json : Json} :
    Reads ('"' :: text) json rest ↔
      ∃ decoded, StringBody text decoded rest ∧ json = .string decoded := by
  constructor
  · intro hreads
    cases hreads with
    | number htext hnumber => exact absurd htext hnumber.not_quote
    | string hbody => exact ⟨_, hbody, rfl⟩
  · rintro ⟨decoded, hbody, rfl⟩
    exact .string hbody

variable {name : List Char} {members : List (List Char × Json)}

/-- A member with an unescaped name and a string. -/
theorem member_string_iff {member : List Char × Json} (hname : Unescaped name)
    (htext : skipSpace text = '"' :: (name ++ "\" : \"".toList ++ content)) :
    Member text member rest ↔ ∃ decoded, StringBody content decoded rest ∧
      member = (name, .string decoded) := by
  have hcolon : skipSpace (" : \"".toList ++ content) = ':' :: ' ' :: '"' :: content := rfl
  have hvalue : skipSpace (' ' :: '"' :: content) = '"' :: content := rfl
  have hsplit : name ++ "\" : \"".toList ++ content =
      name ++ '"' :: (" : \"".toList ++ content) := by
    simp
  rw [hsplit] at htext
  constructor
  · intro hmember
    cases hmember with
    | member hquote hreadName hreadColon hreadValue =>
      rw [htext] at hquote
      cases hquote
      obtain ⟨rfl, rfl⟩ := (stringBody_unescaped_iff hname).mp hreadName
      rw [hcolon] at hreadColon
      cases hreadColon
      rw [hvalue, reads_quote_iff] at hreadValue
      obtain ⟨decoded, hbody, rfl⟩ := hreadValue
      exact ⟨decoded, hbody, rfl⟩
  · rintro ⟨decoded, hbody, rfl⟩
    apply Member.member htext ((stringBody_unescaped_iff hname).mpr ⟨rfl, rfl⟩) hcolon
    rw [hvalue]
    exact .string hbody

/-- What follows a member with an unescaped name and a string. -/
theorem members_string_iff (hname : Unescaped name)
    (htext : skipSpace text = '"' :: (name ++ "\" : \"".toList ++ content)) :
    Members text members rest ↔ ∃ decoded behind more, StringBody content decoded behind ∧
      members = (name, .string decoded) :: more ∧
        (skipSpace behind = '}' :: rest ∧ more = [] ∨
          ∃ next, skipSpace behind = ',' :: next ∧ Members next more rest) := by
  constructor
  · intro hmembers
    cases hmembers with
    | last hmember hclose =>
      obtain ⟨decoded, hbody, rfl⟩ := (member_string_iff hname htext).mp hmember
      exact ⟨decoded, _, [], hbody, rfl, .inl ⟨hclose, rfl⟩⟩
    | more hmember hcomma hmembers =>
      obtain ⟨decoded, hbody, rfl⟩ := (member_string_iff hname htext).mp hmember
      exact ⟨decoded, _, _, hbody, rfl, .inr ⟨_, hcomma, hmembers⟩⟩
  · rintro ⟨decoded, behind, more, hbody, rfl, hbehind⟩
    have hmember := (member_string_iff hname htext).mpr ⟨decoded, hbody, rfl⟩
    rcases hbehind with ⟨hclose, rfl⟩ | ⟨next, hcomma, hmembers⟩
    · exact .last hmember hclose
    · exact .more hmember hcomma hmembers

/-- An object that begins with a member. -/
theorem denotes_object_iff (htext : skipSpace text = '"' :: content) :
    Denotes ('{' :: text) (.object members) ↔
      ∃ rest, Members text members rest ∧ skipSpace rest = [] := by
  have hbrace : skipSpace ('{' :: text) = '{' :: text := rfl
  constructor
  · rintro ⟨rest, hreads, hend⟩
    rw [hbrace] at hreads
    cases hreads with
    | emptyObject hclose =>
      rw [htext] at hclose
      cases hclose
    | object hmembers => exact ⟨rest, hmembers, hend⟩
  · rintro ⟨rest, hmembers, hend⟩
    exact ⟨rest, hbrace ▸ .object hmembers, hend⟩

end Json

end WinProcessThread.Text
