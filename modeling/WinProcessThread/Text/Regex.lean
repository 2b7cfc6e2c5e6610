import Mathlib.Data.Nat.Notation

/-!
# Regular expressions without repetition of unbounded length

Character classes, sequences, alternatives and bounded repetition, with the matcher that lists what
each match leaves over.
-/

namespace WinProcessThread.Text

inductive Regex
  | empty
  | char (accepts : Char → Bool)
  | seq (first second : Regex)
  | alt (first second : Regex)

namespace Regex

/-- The expression or nothing. -/
def optional (regex : Regex) : Regex :=
  alt regex empty

/-- Exactly `count` times the expression. -/
def times (regex : Regex) : ℕ → Regex
  | 0 => empty
  | count + 1 => seq regex (times regex count)

/-- A character between two characters. -/
def range (first last : Char) : Regex :=
  char fun char ↦ first ≤ char ∧ char ≤ last

def literal (text : List Char) : Regex :=
  text.foldr (fun letter rest ↦ seq (char (· = letter)) rest) empty

/-- The language of the expression. -/
def Matches : Regex → List Char → Prop
  | empty, text => text = []
  | char accepts, text => ∃ letter, accepts letter = true ∧ text = [letter]
  | seq first second, text =>
    ∃ front rest, text = front ++ rest ∧ first.Matches front ∧ second.Matches rest
  | alt first second, text => first.Matches text ∨ second.Matches text

theorem matches_optional {regex : Regex} {text : List Char} :
    regex.optional.Matches text ↔ regex.Matches text ∨ text = [] :=
  Iff.rfl

theorem matches_range {first last : Char} {text : List Char} :
    (range first last).Matches text ↔
      ∃ letter, text = [letter] ∧ first ≤ letter ∧ letter ≤ last := by
  simp [range, Matches, and_comm]

theorem matches_literal {word text : List Char} : (literal word).Matches text ↔ text = word := by
  induction word generalizing text with
  | nil => rfl
  | cons letter word ih =>
    have hcons : (literal (letter :: word)).Matches text ↔
        ∃ front rest, text = front ++ rest ∧ front = [letter] ∧ (literal word).Matches rest := by
      simp [literal, Matches]
    rw [hcons]
    simp [ih]

theorem matches_seq {first second : Regex} {text : List Char} :
    (seq first second).Matches text ↔
      ∃ front rest, text = front ++ rest ∧ first.Matches front ∧ second.Matches rest :=
  Iff.rfl

theorem matches_seq_assoc {first second third : Regex} {text : List Char} :
    (seq (seq first second) third).Matches text ↔ (seq first (seq second third)).Matches text := by
  simp only [matches_seq]
  constructor
  · rintro ⟨_, rest, rfl, ⟨front, middle, rfl, hfront, hmiddle⟩, hrest⟩
    exact ⟨front, middle ++ rest, List.append_assoc _ _ _, hfront, middle, rest, rfl, hmiddle,
      hrest⟩
  · rintro ⟨front, _, rfl, hfront, middle, rest, rfl, hmiddle, hrest⟩
    exact ⟨front ++ middle, rest, (List.append_assoc _ _ _).symm, ⟨front, middle, rfl, hfront,
      hmiddle⟩, hrest⟩

/-- Repetition with a separator: the words in between are words of the expression. -/
theorem matches_separated {item : Regex} {separator : List Char} (count : ℕ) {text : List Char} :
    (seq (times (seq item (literal separator)) count) item).Matches text ↔
      ∃ words : List (List Char), words.length = count + 1 ∧ (∀ word ∈ words, item.Matches word) ∧
        text = separator.intercalate words := by
  induction count generalizing text with
  | zero =>
    constructor
    · rintro ⟨_, _, rfl, rfl, hitem⟩
      exact ⟨[_], rfl, List.forall_mem_singleton.mpr hitem, List.intercalate_singleton.symm⟩
    · rintro ⟨words, hlength, hwords, rfl⟩
      obtain ⟨word, rfl⟩ := List.length_eq_one_iff.mp hlength
      rw [List.intercalate_singleton]
      exact ⟨[], word, rfl, rfl, hwords word (List.mem_singleton_self word)⟩
  | succ count ih =>
    rw [times, matches_seq_assoc, matches_seq_assoc]
    constructor
    · rintro ⟨word, _, rfl, hword, _, behind, rfl, hseparator, hbehind⟩
      obtain ⟨words, hlength, hwords, rfl⟩ := ih.mp hbehind
      have hnonempty : words ≠ [] := List.ne_nil_of_length_eq_add_one hlength
      refine ⟨word :: words, congrArg (· + 1) hlength, List.forall_mem_cons.mpr ⟨hword, hwords⟩, ?_⟩
      rw [matches_literal.mp hseparator, List.intercalate_cons_of_ne_nil hnonempty,
        List.append_assoc]
    · rintro ⟨words, hlength, hwords, rfl⟩
      obtain ⟨word, rest, rfl⟩ := List.exists_cons_of_length_eq_add_one hlength
      have hrest : rest.length = count + 1 := Nat.succ.inj hlength
      have hnonempty : rest ≠ [] := List.ne_nil_of_length_eq_add_one hrest
      obtain ⟨hword, hothers⟩ := List.forall_mem_cons.mp hwords
      rw [List.intercalate_cons_of_ne_nil hnonempty, List.append_assoc]
      exact ⟨word, _, rfl, hword, separator, _, rfl, matches_literal.mpr rfl,
        ih.mpr ⟨rest, hrest, hothers, rfl⟩⟩

/-- The rest of the text behind every match at its start. -/
def leftovers : Regex → List Char → List (List Char)
  | empty, text => [text]
  | char _, [] => []
  | char accepts, letter :: rest => if accepts letter then [rest] else []
  | seq first second, text => (first.leftovers text).flatMap second.leftovers
  | alt first second, text => first.leftovers text ++ second.leftovers text

/-- The expression matches the whole text. -/
def fullMatch (regex : Regex) (text : List Char) : Bool :=
  [] ∈ regex.leftovers text

/-- What is left over is exactly what stands behind a word of the language. -/
theorem mem_leftovers_iff (regex : Regex) (text rest : List Char) :
    rest ∈ regex.leftovers text ↔ ∃ front, text = front ++ rest ∧ regex.Matches front := by
  induction regex generalizing text rest with
  | empty =>
    simp [leftovers, Matches, eq_comm]
  | char accepts =>
    cases text with
    | nil => simp [leftovers, Matches]
    | cons letter tail =>
      by_cases haccepts : accepts letter = true
      · rw [leftovers, if_pos haccepts, List.mem_singleton]
        constructor
        · rintro rfl
          exact ⟨[letter], rfl, letter, haccepts, rfl⟩
        · rintro ⟨front, htext, other, -, rfl⟩
          exact (List.cons.inj htext).2.symm
      · rw [leftovers, if_neg haccepts]
        apply iff_of_false List.not_mem_nil
        rintro ⟨front, htext, other, hother, rfl⟩
        have hsame : letter = other := (List.cons.inj htext).1
        exact haccepts (hsame ▸ hother)
  | seq first second ihfirst ihsecond =>
    simp only [leftovers, Matches, List.mem_flatMap, ihfirst, ihsecond]
    constructor
    · rintro ⟨middle, ⟨front, htext, hfirst⟩, next, hmiddle, hsecond⟩
      refine ⟨front ++ next, ?_, front, next, rfl, hfirst, hsecond⟩
      rw [htext, hmiddle, List.append_assoc]
    · rintro ⟨whole, htext, front, next, hwhole, hfirst, hsecond⟩
      refine ⟨next ++ rest, ⟨front, ?_, hfirst⟩, next, rfl, hsecond⟩
      rw [htext, hwhole, List.append_assoc]
  | alt first second ihfirst ihsecond =>
    simp only [leftovers, Matches, List.mem_append, ihfirst, ihsecond]
    constructor
    · rintro (⟨front, htext, hfirst⟩ | ⟨front, htext, hsecond⟩)
      · exact ⟨front, htext, .inl hfirst⟩
      · exact ⟨front, htext, .inr hsecond⟩
    · rintro ⟨front, htext, hfirst | hsecond⟩
      · exact .inl ⟨front, htext, hfirst⟩
      · exact .inr ⟨front, htext, hsecond⟩

theorem fullMatch_iff {regex : Regex} {text : List Char} :
    regex.fullMatch text = true ↔ regex.Matches text := by
  rw [fullMatch, decide_eq_true_eq, mem_leftovers_iff]
  simp

end Regex

end WinProcessThread.Text
