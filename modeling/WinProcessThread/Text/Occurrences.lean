import Mathlib.Data.List.Sort
import Mathlib.Order.Bounds.Basic

/-!
# Occurrences of one list in another

`occurrences needle text` lists the positions at which `needle` stands in `text`, in increasing
order and with overlaps.  A search that returns the least position from a given one enumerates
them: this is the content of `occurrencesFrom_of_least` and `occurrencesFrom_of_absent`, the two
rules for a loop that searches, moves on by one and searches again.
-/

namespace WinProcessThread.Text

variable {α : Type*}

/-- The needle stands in the text at this position. -/
def OccursAt (needle text : List α) (position : ℕ) : Prop :=
  position ≤ text.length ∧ needle <+: text.drop position

instance [DecidableEq α] (needle text : List α) (position : ℕ) :
    Decidable (OccursAt needle text position) :=
  inferInstanceAs (Decidable (_ ∧ _))

/-- Comparing the text behind a position with the needle is the same as looking for it there. -/
theorem occursAt_iff_take {needle text : List α} {position : ℕ} :
    OccursAt needle text position ↔
      position + needle.length ≤ text.length ∧
        (text.drop position).take needle.length = needle := by
  constructor
  · rintro ⟨hposition, hneedle⟩
    have hlength : needle.length ≤ text.length - position := by
      simpa using hneedle.length_le
    exact ⟨by omega, (List.prefix_iff_eq_take.mp hneedle).symm⟩
  · rintro ⟨hlength, htake⟩
    exact ⟨by omega, List.prefix_iff_eq_take.mpr htake.symm⟩

/-- Some letter of the needle has to be found inside the text. -/
theorem occursAt_iff_prefix_drop {needle text : List α} {position : ℕ} (hneedle : needle ≠ []) :
    OccursAt needle text position ↔ needle <+: text.drop position := by
  rw [OccursAt, and_iff_right_iff_imp]
  intro hprefix
  by_contra houtside
  rw [List.drop_of_length_le (not_le.mp houtside).le] at hprefix
  exact hneedle (List.prefix_nil.mp hprefix)

theorem occursAt_cons_succ {needle text : List α} {head : α} {position : ℕ} :
    OccursAt needle (head :: text) (position + 1) ↔ OccursAt needle text position := by
  rw [OccursAt, OccursAt, List.length_cons, Nat.add_le_add_iff_right, List.drop_succ_cons]

theorem occursAt_zero {needle text : List α} : OccursAt needle text 0 ↔ needle <+: text := by
  rw [OccursAt, List.drop_zero]
  exact and_iff_right (Nat.zero_le _)

variable [DecidableEq α]

/-- All positions of the needle in the text. -/
def occurrences (needle text : List α) : List ℕ :=
  (List.range (text.length + 1)).filter fun position ↦ OccursAt needle text position

/-- The positions of the needle that are not before `start`. -/
def occurrencesFrom (needle text : List α) (start : ℕ) : List ℕ :=
  (occurrences needle text).filter fun position ↦ start ≤ position

variable {needle text : List α} {position start : ℕ}

@[simp]
theorem mem_occurrences : position ∈ occurrences needle text ↔ OccursAt needle text position := by
  simp only [occurrences, List.mem_filter, List.mem_range, decide_eq_true_eq, and_iff_right_iff_imp]
  intro hoccurs
  exact Nat.lt_succ_of_le hoccurs.1

@[simp]
theorem mem_occurrencesFrom :
    position ∈ occurrencesFrom needle text start ↔
      OccursAt needle text position ∧ start ≤ position := by
  simp [occurrencesFrom]

theorem occurrences_increasing (needle text : List α) :
    (occurrences needle text).Pairwise (· < ·) :=
  List.pairwise_lt_range.filter _

theorem occurrencesFrom_increasing (needle text : List α) (start : ℕ) :
    (occurrencesFrom needle text start).Pairwise (· < ·) :=
  (occurrences_increasing needle text).filter _

@[simp]
theorem occurrencesFrom_zero : occurrencesFrom needle text 0 = occurrences needle text := by
  simp [occurrencesFrom]

/-- The search has failed: nothing is left to enumerate. -/
theorem occurrencesFrom_of_absent
    (habsent : ∀ position, start ≤ position → ¬ OccursAt needle text position) :
    occurrencesFrom needle text start = [] := by
  apply List.eq_nil_iff_forall_not_mem.mpr
  intro position hmember
  obtain ⟨hoccurs, hstart⟩ := mem_occurrencesFrom.mp hmember
  exact habsent position hstart hoccurs

/-- The search has found the least position: it comes first, and the rest starts one further. -/
theorem occurrencesFrom_of_least
    (hleast : IsLeast {position | start ≤ position ∧ OccursAt needle text position} position) :
    occurrencesFrom needle text start = position :: occurrencesFrom needle text (position + 1) := by
  obtain ⟨⟨hstart, hoccurs⟩, hbound⟩ := hleast
  have hhead : ∀ other ∈ occurrencesFrom needle text (position + 1), position < other := by
    intro other hother
    exact (mem_occurrencesFrom.mp hother).2
  apply List.Pairwise.eq_of_mem_iff (occurrencesFrom_increasing needle text start)
  · exact List.pairwise_cons.mpr ⟨hhead, occurrencesFrom_increasing needle text (position + 1)⟩
  · intro other
    rw [List.mem_cons, mem_occurrencesFrom, mem_occurrencesFrom]
    constructor
    · rintro ⟨hother, hfrom⟩
      have hle : position ≤ other := hbound ⟨hfrom, hother⟩
      rcases hle.eq_or_lt with heq | hlt
      · exact .inl heq.symm
      · exact .inr ⟨hother, hlt⟩
    · rintro (heq | ⟨hother, hlt⟩)
      · exact heq ▸ ⟨hoccurs, hstart⟩
      · exact ⟨hother, by omega⟩

/-- The occurrences behind the first letter are those in the rest, one position later. -/
theorem occurrences_cons (needle : List α) (head : α) (tail : List α) :
    occurrences needle (head :: tail) =
      (if needle <+: head :: tail then [0] else []) ++ (occurrences needle tail).map Nat.succ := by
  have htail : (fun position ↦ decide (OccursAt needle (head :: tail) position)) ∘ Nat.succ =
      fun position ↦ decide (OccursAt needle tail position) := by
    funext position
    exact decide_eq_decide.mpr occursAt_cons_succ
  calc
    occurrences needle (head :: tail) =
        if decide (OccursAt needle (head :: tail) 0) then
          0 :: (occurrences needle tail).map Nat.succ
        else
          (occurrences needle tail).map Nat.succ := by
      rw [occurrences, List.length_cons, List.range_succ_eq_map, List.filter_cons,
        List.filter_map, htail, occurrences]
    _ = (if needle <+: head :: tail then [0] else []) ++
          (occurrences needle tail).map Nat.succ := by
      by_cases hprefix : needle <+: head :: tail
      · rw [if_pos (decide_eq_true (occursAt_zero.mpr hprefix)), if_pos hprefix]
        rfl
      · rw [if_neg (by simpa [occursAt_zero] using hprefix), if_neg hprefix]
        rfl

omit [DecidableEq α] in
/-- Induction along a repeated search: a search that fails, or a search that finds the least
position followed by the searches from behind it. -/
theorem search_induction (needle text : List α) {motive : ℕ → Prop}
    (absent : ∀ start, (∀ position, start ≤ position → ¬ OccursAt needle text position) →
      motive start)
    (least : ∀ start position,
      IsLeast {position | start ≤ position ∧ OccursAt needle text position} position →
        motive (position + 1) → motive start)
    (start : ℕ) : motive start := by
  induction hremaining : text.length + 1 - start using Nat.strong_induction_on
    generalizing start with
  | _ remaining ih =>
    by_cases hfound : ∃ position, start ≤ position ∧ OccursAt needle text position
    · classical
      have hleast : IsLeast {position | start ≤ position ∧ OccursAt needle text position}
          (Nat.find hfound) :=
        ⟨Nat.find_spec hfound, fun _ hposition ↦ Nat.find_min' hfound hposition⟩
      obtain ⟨hstart, hinside, -⟩ := Nat.find_spec hfound
      exact least start _ hleast (ih _ (by omega) _ rfl)
    · exact absent start fun position hposition hoccurs ↦ hfound ⟨position, hposition, hoccurs⟩

/-- A strictly monotone renaming of positions carries one list of occurrences to another. -/
theorem occurrences_eq_map {β : Type*} [DecidableEq β] {code : List β} {pattern : List β}
    {place : ℕ → ℕ} (hplace : StrictMono place)
    (hmatch : ∀ position, OccursAt pattern code position ↔
      ∃ index, position = place index ∧ OccursAt needle text index) :
    occurrences pattern code = (occurrences needle text).map place := by
  apply List.Pairwise.eq_of_mem_iff (occurrences_increasing pattern code)
  · exact (occurrences_increasing needle text).map place fun _ _ hlt ↦ hplace hlt
  · intro position
    simp only [mem_occurrences, List.mem_map, hmatch]
    constructor
    · rintro ⟨index, rfl, hoccurs⟩
      exact ⟨index, hoccurs, rfl⟩
    · rintro ⟨index, hoccurs, rfl⟩
      exact ⟨index, rfl, hoccurs⟩

end WinProcessThread.Text
