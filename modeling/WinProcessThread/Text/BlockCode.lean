import WinProcessThread.Text.Occurrences
import Mathlib.Algebra.Order.Monoid.Unbundled.Basic
import Mathlib.Tactic.Ring

/-!
# Codes made of equally long blocks with a separator

A block code writes each symbol as a body of fixed width followed by a separator that no body
contains.  Because the separator can only stand at the end of a block, a code word without its last
separator occurs in another code word at block boundaries only, so searching the code text is
searching the symbols (`BlockCode.occurrences_trimmed`).
-/

namespace WinProcessThread.Text

variable {Symbol Letter : Type*}

structure BlockCode (Symbol Letter : Type*) where
  body : Symbol → List Letter
  separator : Letter
  width : ℕ
  width_pos : 0 < width
  body_length : ∀ symbol, (body symbol).length = width
  separator_not_mem : ∀ symbol, separator ∉ body symbol
  body_injective : Function.Injective body

namespace BlockCode

variable (code : BlockCode Symbol Letter)

/-- A body with the separator that ends it. -/
def block (symbol : Symbol) : List Letter :=
  code.body symbol ++ [code.separator]

def encode (symbols : List Symbol) : List Letter :=
  symbols.flatMap code.block

/-- The code word without its last separator. -/
def trimmed (symbols : List Symbol) : List Letter :=
  (code.encode symbols).dropLast

@[simp]
theorem encode_nil : code.encode [] = [] := rfl

theorem encode_cons (symbol : Symbol) (rest : List Symbol) :
    code.encode (symbol :: rest) = code.body symbol ++ code.separator :: code.encode rest := by
  simp [encode, block]

@[simp]
theorem encode_length (symbols : List Symbol) :
    (code.encode symbols).length = (code.width + 1) * symbols.length := by
  induction symbols with
  | nil => rfl
  | cons symbol rest ih =>
    calc
      (code.encode (symbol :: rest)).length =
          code.width + ((code.width + 1) * rest.length + 1) := by
        rw [encode_cons, List.length_append, List.length_cons, ih, code.body_length]
      _ = (code.width + 1) * (rest.length + 1) := by ring

theorem encode_append (front back : List Symbol) :
    code.encode (front ++ back) = code.encode front ++ code.encode back :=
  List.flatMap_append

/-- Blocks are dropped with their symbols. -/
theorem drop_encode (symbols : List Symbol) (index : ℕ) :
    (code.encode symbols).drop ((code.width + 1) * index) = code.encode (symbols.drop index) := by
  induction index generalizing symbols with
  | zero => rfl
  | succ index ih =>
    cases symbols with
    | nil => simp
    | cons symbol rest =>
      have hplace : (code.width + 1) * (index + 1) =
          (code.block symbol).length + (code.width + 1) * index := by
        rw [block, List.length_append, code.body_length, List.length_singleton]
        ring
      calc
        (code.encode (symbol :: rest)).drop ((code.width + 1) * (index + 1)) =
            (code.block symbol ++ code.encode rest).drop
              ((code.block symbol).length + (code.width + 1) * index) := by
          rw [hplace]
          rfl
        _ = (code.encode rest).drop ((code.width + 1) * index) := List.drop_length_add_append ..
        _ = code.encode ((symbol :: rest).drop (index + 1)) := by
          rw [ih, List.drop_succ_cons]

theorem trimmed_singleton (symbol : Symbol) : code.trimmed [symbol] = code.body symbol := by
  simp [trimmed, encode_cons]

theorem trimmed_cons_cons (symbol next : Symbol) (rest : List Symbol) :
    code.trimmed (symbol :: next :: rest) =
      code.body symbol ++ code.separator :: code.trimmed (next :: rest) := by
  have hne : code.encode (next :: rest) ≠ [] := by
    simp [encode_cons]
  calc
    code.trimmed (symbol :: next :: rest) =
        (code.body symbol ++ code.separator :: code.encode (next :: rest)).dropLast := by
      rw [trimmed, encode_cons]
    _ = code.body symbol ++ (code.separator :: code.encode (next :: rest)).dropLast :=
      List.dropLast_append_of_ne_nil (List.cons_ne_nil _ _)
    _ = code.body symbol ++ code.separator :: code.trimmed (next :: rest) := by
      rw [List.dropLast_cons_of_ne_nil hne, trimmed]

/-- A trimmed code word begins with a whole body. -/
theorem body_prefix_trimmed (symbol : Symbol) (rest : List Symbol) :
    code.body symbol <+: code.trimmed (symbol :: rest) := by
  cases rest with
  | nil =>
    exact (code.trimmed_singleton symbol).symm ▸ List.prefix_rfl
  | cons next rest =>
    rw [trimmed_cons_cons]
    exact List.prefix_append _ _

theorem trimmed_ne_nil {symbols : List Symbol} (hsymbols : symbols ≠ []) :
    code.trimmed symbols ≠ [] := by
  obtain ⟨symbol, rest, rfl⟩ := List.exists_cons_of_ne_nil hsymbols
  intro hnil
  have hlength : (code.body symbol).length ≤ 0 := by
    simpa [hnil] using (code.body_prefix_trimmed symbol rest).length_le
  have hwidth : (code.body symbol).length = code.width := code.body_length symbol
  have hpos : 0 < code.width := code.width_pos
  omega

/-- Two bodies in front of two texts: the first text begins the second exactly when the bodies
agree and the rests do. -/
theorem body_append_prefix_iff {symbol other : Symbol} {front text : List Letter} :
    code.body symbol ++ front <+: code.body other ++ text ↔ symbol = other ∧ front <+: text := by
  constructor
  · intro hprefix
    have hbody : code.body symbol = code.body other := by
      have hfirst : code.body symbol <+: code.body other ++ text :=
        (List.prefix_append _ _).trans hprefix
      have hlength : (code.body symbol).length = (code.body other).length := by
        rw [code.body_length, code.body_length]
      apply List.IsPrefix.eq_of_length
      · exact List.prefix_of_prefix_length_le hfirst (List.prefix_append _ _) hlength.le
      · exact hlength
    rw [hbody, List.prefix_append_right_inj] at hprefix
    exact ⟨code.body_injective hbody, hprefix⟩
  · rintro ⟨rfl, hprefix⟩
    exact (List.prefix_append_right_inj _).mpr hprefix

/-- At a block boundary, matching the code text is matching the symbols. -/
theorem trimmed_prefix_encode_iff {symbols : List Symbol} (hsymbols : symbols ≠ [])
    (text : List Symbol) : code.trimmed symbols <+: code.encode text ↔ symbols <+: text := by
  induction symbols generalizing text with
  | nil => exact absurd rfl hsymbols
  | cons symbol rest ih =>
    cases text with
    | nil =>
      simp only [encode_nil, List.prefix_nil, code.trimmed_ne_nil hsymbols, reduceCtorEq]
    | cons head tail =>
      rw [encode_cons, List.cons_prefix_cons]
      cases rest with
      | nil =>
        have hsingle : code.body symbol ++ [] <+:
            code.body head ++ code.separator :: code.encode tail ↔
              symbol = head ∧ [] <+: code.separator :: code.encode tail :=
          code.body_append_prefix_iff
        simpa [trimmed_singleton] using hsingle
      | cons next rest =>
        rw [trimmed_cons_cons, body_append_prefix_iff, List.cons_prefix_cons,
          ih (List.cons_ne_nil next rest)]
        simp

/-- Inside a block nothing matches: the separator would stand inside a body. -/
theorem not_trimmed_prefix_of_misaligned {symbols : List Symbol} (hsymbols : symbols ≠ [])
    (head : Symbol) (tail : List Symbol) {offset : ℕ} (hpos : 0 < offset)
    (hoffset : offset ≤ code.width) :
    ¬ code.trimmed symbols <+: (code.encode (head :: tail)).drop offset := by
  obtain ⟨symbol, rest, rfl⟩ := List.exists_cons_of_ne_nil hsymbols
  intro hprefix
  have hbody : code.body symbol <+: (code.encode (head :: tail)).drop offset :=
    (code.body_prefix_trimmed symbol rest).trans hprefix
  have hinside : code.width - offset < (code.body symbol).length := by
    rw [code.body_length]
    omega
  have hseparator : ((code.encode (head :: tail)).drop offset)[code.width - offset]? =
      some code.separator := by
    have hplace : offset + (code.width - offset) = code.width := by omega
    rw [List.getElem?_drop, hplace, encode_cons,
      List.getElem?_append_right (code.body_length head).le]
    simp [code.body_length]
  have hletter : (code.body symbol)[code.width - offset]? = some code.separator := by
    rw [← hseparator]
    exact (List.prefix_iff_getElem?.mp hbody _ hinside).symm ▸ List.getElem?_eq_getElem hinside
  exact code.separator_not_mem symbol (List.mem_of_getElem? hletter)

/-- Every match of a trimmed code word is at a block boundary and is a match of the symbols. -/
theorem trimmed_prefix_drop_iff {symbols : List Symbol} (hsymbols : symbols ≠ [])
    (text : List Symbol) (position : ℕ) :
    code.trimmed symbols <+: (code.encode text).drop position ↔
      ∃ index, position = (code.width + 1) * index ∧ symbols <+: text.drop index := by
  induction text generalizing position with
  | nil => simp [code.trimmed_ne_nil hsymbols, hsymbols]
  | cons head tail ih =>
    by_cases hinside : position ≤ code.width
    · rcases Nat.eq_zero_or_pos position with rfl | hpos
      · rw [List.drop_zero, code.trimmed_prefix_encode_iff hsymbols]
        constructor
        · intro hprefix
          exact ⟨0, rfl, hprefix⟩
        · rintro ⟨index, hindex, hprefix⟩
          have hzero : index = 0 := by simpa using hindex.symm
          simpa [hzero] using hprefix
      · have hnone := code.not_trimmed_prefix_of_misaligned hsymbols head tail hpos hinside
        apply iff_of_false hnone
        rintro ⟨index, rfl, -⟩
        have hindex : 0 < index := Nat.pos_of_mul_pos_left hpos
        have hlarge : code.width + 1 ≤ (code.width + 1) * index := Nat.le_mul_of_pos_right _ hindex
        omega
    · obtain ⟨rest, rfl⟩ : ∃ rest, position = code.width + 1 + rest :=
        ⟨position - (code.width + 1), by omega⟩
      have hdrop : (code.encode (head :: tail)).drop (code.width + 1 + rest) =
          (code.encode tail).drop rest := by
        have hblock := code.drop_encode (head :: tail) 1
        rw [Nat.mul_one, List.drop_succ_cons, List.drop_zero] at hblock
        rw [← List.drop_drop, hblock]
      rw [hdrop, ih]
      constructor
      · rintro ⟨index, rfl, hprefix⟩
        exact ⟨index + 1, by ring, by simpa using hprefix⟩
      · rintro ⟨index, hposition, hprefix⟩
        cases index with
        | zero => omega
        | succ index =>
          have hrest : rest = (code.width + 1) * index := by
            rw [Nat.mul_succ] at hposition
            omega
          exact ⟨index, hrest, by simpa using hprefix⟩

/-- Searching the code text for a trimmed code word is searching the symbols. -/
theorem occursAt_trimmed_iff {symbols : List Symbol} (hsymbols : symbols ≠ [])
    (text : List Symbol) (position : ℕ) :
    OccursAt (code.trimmed symbols) (code.encode text) position ↔
      ∃ index, position = (code.width + 1) * index ∧ OccursAt symbols text index := by
  simp only [occursAt_iff_prefix_drop (code.trimmed_ne_nil hsymbols),
    occursAt_iff_prefix_drop hsymbols, trimmed_prefix_drop_iff code hsymbols]

theorem occurrences_trimmed [DecidableEq Symbol] [DecidableEq Letter] {symbols : List Symbol}
    (hsymbols : symbols ≠ []) (text : List Symbol) :
    occurrences (code.trimmed symbols) (code.encode text) =
      (occurrences symbols text).map fun index ↦ (code.width + 1) * index := by
  apply occurrences_eq_map
  · intro index other hlt
    exact Nat.mul_lt_mul_of_pos_left hlt (Nat.succ_pos code.width)
  · exact code.occursAt_trimmed_iff hsymbols text

theorem trimmed_append_separator {symbols : List Symbol} (hsymbols : symbols ≠ []) :
    code.trimmed symbols ++ [code.separator] = code.encode symbols := by
  obtain ⟨front, symbol, rfl⟩ := (List.eq_nil_or_concat symbols).resolve_left hsymbols
  have hlast : code.encode (front ++ [symbol]) =
      (code.encode front ++ code.body symbol) ++ [code.separator] := by
    rw [encode_append, encode_cons, encode_nil, List.append_assoc]
  calc
    code.trimmed (front.concat symbol) ++ [code.separator] =
        (code.encode front ++ code.body symbol) ++ [code.separator] := by
      rw [List.concat_eq_append, trimmed, hlast, List.dropLast_concat]
    _ = code.encode (front.concat symbol) := by
      rw [List.concat_eq_append, hlast]

theorem encode_prefix_encode {symbols text : List Symbol} (hbegins : symbols <+: text) :
    code.encode symbols <+: code.encode text := by
  obtain ⟨rest, rfl⟩ := hbegins
  rw [encode_append]
  exact List.prefix_append _ _

/-- Behind each body stands its separator and the code word of the symbols that follow. -/
theorem drop_body (head : Symbol) {tail : List Symbol} {index : ℕ} (hindex : index ≤ tail.length) :
    (code.encode (head :: tail)).drop ((code.width + 1) * index + code.width) =
      code.separator :: code.encode (tail.drop index) := by
  have hlt : index < (head :: tail).length := Nat.lt_succ_of_le hindex
  calc
    (code.encode (head :: tail)).drop ((code.width + 1) * index + code.width) =
        (code.encode ((head :: tail).drop index)).drop code.width := by
      rw [← List.drop_drop, drop_encode]
    _ = (code.encode ((head :: tail)[index] :: tail.drop index)).drop code.width := by
      rw [List.drop_eq_getElem_cons hlt, List.drop_succ_cons]
    _ = code.separator :: code.encode (tail.drop index) := by
      rw [encode_cons, List.drop_left' (code.body_length _)]

/-- A separator in front of a code word matches the separator of the block before it: at the first
block there is none. -/
theorem occursAt_separated_iff {symbols : List Symbol} (hsymbols : symbols ≠ [])
    (head : Symbol) (tail : List Symbol) (position : ℕ) :
    OccursAt (code.separator :: code.encode symbols) (code.encode (head :: tail)) position ↔
      ∃ index, position = (code.width + 1) * index + code.width ∧ OccursAt symbols tail index := by
  rw [occursAt_iff_prefix_drop (List.cons_ne_nil _ _)]
  constructor
  · intro hprefix
    have htrimmed : code.trimmed symbols <+: (code.encode (head :: tail)).drop (position + 1) := by
      rw [← code.trimmed_append_separator hsymbols] at hprefix
      obtain ⟨rest, hrest⟩ := hprefix
      rw [← List.tail_drop, ← hrest, List.cons_append, List.tail_cons, List.append_assoc]
      exact List.prefix_append _ _
    obtain ⟨index, hindex, hsymbol⟩ := (code.trimmed_prefix_drop_iff hsymbols _ _).mp htrimmed
    cases index with
    | zero => exact absurd hindex (Nat.succ_ne_zero position)
    | succ index =>
      have hposition : position = (code.width + 1) * index + code.width := by
        rw [Nat.mul_succ] at hindex
        omega
      rw [List.drop_succ_cons] at hsymbol
      exact ⟨index, hposition, (occursAt_iff_prefix_drop hsymbols).mpr hsymbol⟩
  · rintro ⟨index, rfl, hinside, hsymbol⟩
    rw [code.drop_body head hinside, List.cons_prefix_cons]
    exact ⟨rfl, code.encode_prefix_encode hsymbol⟩

/-- With a separator in front of it, a code word misses the match at the very first block only. -/
theorem length_occurrences_separated [DecidableEq Symbol] [DecidableEq Letter]
    {symbols : List Symbol} (hsymbols : symbols ≠ []) (text : List Symbol) :
    (occurrences (code.trimmed symbols) (code.encode text)).length =
      (if symbols <+: text then 1 else 0) +
        (occurrences (code.separator :: code.encode symbols) (code.encode text)).length := by
  rw [occurrences_trimmed code hsymbols, List.length_map]
  cases text with
  | nil =>
    have hsymbol : occurrences symbols ([] : List Symbol) = [] := by
      apply List.filter_eq_nil_iff.mpr
      simp [OccursAt, hsymbols]
    have hletter : occurrences (code.separator :: code.encode symbols) (code.encode []) = [] := by
      apply List.filter_eq_nil_iff.mpr
      simp [OccursAt]
    rw [hsymbol, hletter, if_neg (by simpa using hsymbols)]
    rfl
  | cons head tail =>
    have hseparated : occurrences (code.separator :: code.encode symbols)
        (code.encode (head :: tail)) =
          (occurrences symbols tail).map fun index ↦ (code.width + 1) * index + code.width := by
      apply occurrences_eq_map
      · intro index other hlt
        exact Nat.add_lt_add_right (Nat.mul_lt_mul_of_pos_left hlt (Nat.succ_pos _)) _
      · exact code.occursAt_separated_iff hsymbols head tail
    rw [hseparated, occurrences_cons, List.length_append, List.length_map, List.length_map]
    by_cases hprefix : symbols <+: head :: tail
    · rw [if_pos hprefix, if_pos hprefix]
      rfl
    · rw [if_neg hprefix, if_neg hprefix]
      rfl

end BlockCode

end WinProcessThread.Text
