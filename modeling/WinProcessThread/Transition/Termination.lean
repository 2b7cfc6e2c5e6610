import WinProcessThread.Transition.Run

/-!
# Termination on a sequence of actions

A partial step function takes the actions of an infinite sequence one after the other.  It
terminates on the sequence when one of them finds no next state.
-/

namespace WinProcessThread.Transition

variable {State Action : Type*} {next : State → Action → Option State} {start : State}
variable {actions : ℕ → Action}

/-- The first actions of a sequence. -/
def firstActions (actions : ℕ → Action) (count : ℕ) : List Action :=
  (List.range count).map actions

/-- Some prefix of the sequence is no run. -/
def Terminates (next : State → Action → Option State) (start : State) (actions : ℕ → Action) :
    Prop :=
  ∃ count, ∀ finish, ¬ Run (ofPartial next) start (firstActions actions count) finish

theorem firstActions_succ (count : ℕ) :
    firstActions actions (count + 1) =
      actions 0 :: firstActions (fun index ↦ actions (index + 1)) count := by
  simp [firstActions, List.range_succ_eq_map, Function.comp_def]

theorem forall_mem_firstActions {count : ℕ} {accepts : Action → Prop} :
    (∀ action ∈ firstActions actions count, accepts action) ↔
      ∀ index < count, accepts (actions index) := by
  simp [firstActions]

/-- The first actions are those before one of them, this one, and some others. -/
theorem exists_firstActions_eq_append (actions : ℕ → Action) {index count : ℕ}
    (hindex : index < count) :
    ∃ rest, firstActions actions count = firstActions actions index ++ actions index :: rest := by
  have hsplit : List.range count =
      List.range index ++ index :: (List.range (count - index - 1)).map (index + 1 + ·) := by
    have hcount : count = index + 1 + (count - index - 1) := by omega
    nth_rewrite 1 [hcount]
    rw [List.range_add, List.range_succ, List.append_assoc, List.singleton_append]
  refine ⟨((List.range (count - index - 1)).map (index + 1 + ·)).map actions, ?_⟩
  rw [firstActions, hsplit, List.map_append, List.map_cons]
  rfl

theorem terminates_of_none (hnone : next start (actions 0) = none) :
    Terminates next start actions := by
  refine ⟨1, fun finish hrun ↦ ?_⟩
  rw [firstActions_succ, Run.cons_iff, hnone] at hrun
  obtain ⟨middle, hstep, -⟩ := hrun
  cases hstep

/-- A sequence is followed as far as the sequence behind its first action. -/
theorem terminates_iff_of_some {middle : State} (hstep : next start (actions 0) = some middle) :
    Terminates next start actions ↔
      Terminates next middle fun index ↦ actions (index + 1) := by
  constructor
  · rintro ⟨count, hnone⟩
    cases count with
    | zero => exact absurd .refl (hnone start)
    | succ count =>
      refine ⟨count, fun finish hrun ↦ hnone finish ?_⟩
      rw [firstActions_succ, Run.cons_iff]
      exact ⟨middle, hstep, hrun⟩
  · rintro ⟨count, hnone⟩
    refine ⟨count + 1, fun finish hrun ↦ ?_⟩
    rw [firstActions_succ, Run.cons_iff, hstep] at hrun
    obtain ⟨other, hother, hrest⟩ := hrun
    rw [← Option.some.inj hother] at hrest
    exact hnone finish hrest

/-- An invariant under which every action is possible keeps the run going for ever. -/
theorem not_terminates_of_invariant (Inv : State → Prop) (hstart : Inv start)
    (hstep : ∀ state action, Inv state → ∃ after, next state action = some after ∧ Inv after) :
    ¬ Terminates next start actions := by
  have hruns : ∀ list : List Action, ∃ finish, Run (ofPartial next) start list finish ∧
      Inv finish := by
    intro list
    induction list using List.reverseRecOn with
    | nil => exact ⟨start, .refl, hstart⟩
    | append_singleton list action ih =>
      obtain ⟨middle, hrun, hmiddle⟩ := ih
      obtain ⟨finish, hlast, hfinish⟩ := hstep middle action hmiddle
      exact ⟨finish, .snoc hrun hlast, hfinish⟩
  rintro ⟨count, hnone⟩
  obtain ⟨finish, hrun, -⟩ := hruns (firstActions actions count)
  exact hnone finish hrun

end WinProcessThread.Transition
