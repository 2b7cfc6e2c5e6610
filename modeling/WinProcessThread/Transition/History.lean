import Mathlib.Data.List.Induction

/-!
# Laws of a growing history

A history is a list of events in the order they happened.  `Throughout law history` says that each
event obeys `law` together with the events before it.  Such a law is checked once, when the event
is appended, and can never be repaired afterwards.
-/

namespace WinProcessThread.Transition

variable {Event : Type*}

/-- Every event of the history obeys the law with respect to the events before it. -/
def Throughout (law : List Event → Event → Prop) (history : List Event) : Prop :=
  ∀ earlier event later, history = earlier ++ event :: later → law earlier event

variable {law : List Event → Event → Prop} {history : List Event} {event : Event}

@[simp]
theorem throughout_nil : Throughout law [] := by
  intro earlier event later hsplit
  simp at hsplit

@[simp]
theorem throughout_snoc :
    Throughout law (history ++ [event]) ↔ Throughout law history ∧ law history event := by
  constructor
  · intro hall
    refine ⟨fun earlier last later hsplit ↦ ?_, hall history event [] rfl⟩
    exact hall earlier last (later ++ [event]) (by simp [hsplit])
  · rintro ⟨hall, hlast⟩ earlier last later hsplit
    rcases List.eq_nil_or_concat later with rfl | ⟨later, tail, rfl⟩
    · obtain ⟨rfl, hsingle⟩ := List.append_inj' hsplit rfl
      obtain rfl := List.singleton_inj.mp hsingle
      exact hlast
    · rw [List.concat_eq_append, ← List.cons_append, ← List.append_assoc] at hsplit
      exact hall earlier last later (List.append_inj' hsplit rfl).1

/-- The events that follow a history obey the law together with that history. -/
theorem throughout_append {later : List Event} :
    Throughout law (history ++ later) ↔
      Throughout law history ∧
        Throughout (fun earlier event ↦ law (history ++ earlier) event) later := by
  induction later using List.reverseRecOn with
  | nil => simp
  | append_singleton later event ih =>
    calc
      Throughout law (history ++ (later ++ [event])) ↔
          Throughout law (history ++ later) ∧ law (history ++ later) event := by
        rw [← List.append_assoc, throughout_snoc]
      _ ↔ Throughout law history ∧
            Throughout (fun earlier event ↦ law (history ++ earlier) event) (later ++ [event]) := by
        rw [ih, throughout_snoc, and_assoc]

theorem throughout_cons {rest : List Event} :
    Throughout law (event :: rest) ↔
      law [] event ∧ Throughout (fun earlier last ↦ law (event :: earlier) last) rest := by
  have hsingle : Throughout law [event] ↔ law [] event := by
    rw [← List.nil_append [event], throughout_snoc]
    simp
  rw [← List.singleton_append, throughout_append, hsingle]
  rfl

theorem throughout_of_append {later : List Event} (hall : Throughout law (history ++ later)) :
    Throughout law history :=
  (throughout_append.mp hall).1

theorem Throughout.mono {weaker : List Event → Event → Prop} (hall : Throughout law history)
    (himp : ∀ earlier event, law earlier event → weaker earlier event) :
    Throughout weaker history := by
  intro earlier event later hsplit
  exact himp earlier event (hall earlier event later hsplit)

theorem throughout_iff_take :
    Throughout law history ↔
      ∀ index, (hindex : index < history.length) → law (history.take index) history[index] := by
  constructor
  · intro hall index hindex
    exact hall _ _ (history.drop (index + 1))
      (by rw [List.getElem_cons_drop hindex, List.take_append_drop])
  · intro hall earlier event later hsplit
    subst hsplit
    simpa using hall earlier.length (by simp)

instance [∀ earlier event, Decidable (law earlier event)] (history : List Event) :
    Decidable (Throughout law history) :=
  decidable_of_iff _ throughout_iff_take.symm

end WinProcessThread.Transition
