import Mathlib.Data.List.Induction
import Mathlib.Data.Option.Basic

/-!
# Finite runs of labelled transition relations

A step relation is labelled by the action it performs, and `Run` records the actions of a finite
run in order.  Invariants are proved one step at a time, runs are split at any of their actions,
and a partial step function gives a deterministic relation whose runs can be computed.

The monitored-run rules at the end are for properties of a growing history and of all the states a
run passes through.  They reduce a property of whole runs to a guard on the single steps, in both
directions.
-/

namespace WinProcessThread.Transition

variable {State Action : Type*}

/-- The finite runs from `start`, with their actions in the order they were taken. -/
inductive Run (step : State → Action → State → Prop) (start : State) :
    List Action → State → Prop
  | refl : Run step start [] start
  | snoc {actions : List Action} {action : Action} {middle finish : State} :
      Run step start actions middle → step middle action finish →
      Run step start (actions ++ [action]) finish

/-- The relation of a partial step function: `none` means that the action is not possible. -/
def ofPartial (next : State → Action → Option State) (before : State) (action : Action)
    (after : State) : Prop :=
  next before action = some after

/-- The steps of a relation that an environment allows. -/
def guarded (allow : State → Action → Prop) (step : State → Action → State → Prop)
    (before : State) (action : Action) (after : State) : Prop :=
  allow before action ∧ step before action after

/-- A partial step function under an environment that can be decided. -/
def restrict (allow : State → Action → Prop) [∀ state action, Decidable (allow state action)]
    (next : State → Action → Option State) (before : State) (action : Action) : Option State :=
  if allow before action then next before action else none

namespace Run

variable {step : State → Action → State → Prop} {start middle finish : State}
variable {actions first second : List Action}

theorem nil_iff : Run step start [] finish ↔ finish = start := by
  constructor
  · intro hrun
    generalize hnil : ([] : List Action) = actions at hrun
    cases hrun with
    | refl => rfl
    | snoc _ _ => simp at hnil
  · rintro rfl
    exact .refl

theorem snoc_iff {action : Action} :
    Run step start (actions ++ [action]) finish ↔
      ∃ middle, Run step start actions middle ∧ step middle action finish := by
  constructor
  · intro hrun
    generalize hall : actions ++ [action] = all at hrun
    cases hrun with
    | refl => simp at hall
    | snoc hearlier hlast =>
      obtain ⟨rfl, hsingle⟩ := List.append_inj' hall rfl
      obtain rfl := List.singleton_inj.mp hsingle
      exact ⟨_, hearlier, hlast⟩
  · rintro ⟨middle, hearlier, hlast⟩
    exact .snoc hearlier hlast

theorem singleton_iff {action : Action} :
    Run step start [action] finish ↔ step start action finish := by
  rw [← List.nil_append [action], snoc_iff]
  simp only [nil_iff, exists_eq_left]

/-- A property that holds at the start and that every step preserves holds after every run. -/
theorem invariant (hrun : Run step start actions finish) (Inv : State → Prop)
    (hstart : Inv start)
    (hstep : ∀ before action after, Inv before → step before action after → Inv after) :
    Inv finish := by
  induction hrun with
  | refl => exact hstart
  | snoc _ hlast ih => exact hstep _ _ _ ih hlast

theorem append_iff : Run step start (first ++ second) finish ↔
    ∃ middle, Run step start first middle ∧ Run step middle second finish := by
  induction second using List.reverseRecOn generalizing finish with
  | nil => simp [nil_iff]
  | append_singleton second action ih =>
    rw [← List.append_assoc, snoc_iff]
    simp only [ih, snoc_iff]
    constructor
    · rintro ⟨last, ⟨middle, hfirst, hsecond⟩, hstep⟩
      exact ⟨middle, hfirst, last, hsecond, hstep⟩
    · rintro ⟨middle, hfirst, last, hsecond, hstep⟩
      exact ⟨last, ⟨middle, hfirst, hsecond⟩, hstep⟩

theorem trans (hfirst : Run step start first middle) (hsecond : Run step middle second finish) :
    Run step start (first ++ second) finish :=
  append_iff.mpr ⟨middle, hfirst, hsecond⟩

theorem mono {wider : State → Action → State → Prop} (hrun : Run step start actions finish)
    (hstep : ∀ before action after, step before action after → wider before action after) :
    Run wider start actions finish := by
  induction hrun with
  | refl => exact .refl
  | snoc _ hlast ih => exact .snoc ih (hstep _ _ _ hlast)

/-- A run all of whose actions the environment allows in every state. -/
theorem guarded {allow : State → Action → Prop} (hrun : Run step start actions finish)
    (hallow : ∀ action ∈ actions, ∀ state, allow state action) :
    Run (Transition.guarded allow step) start actions finish := by
  induction hrun with
  | refl => exact .refl
  | snoc _ hlast ih =>
    have hearlier := ih fun action hmem ↦ hallow action (List.mem_append_left _ hmem)
    exact .snoc hearlier ⟨hallow _ (by simp) _, hlast⟩

end Run

section Partial

variable {next : State → Action → Option State} {start finish : State} {actions : List Action}

/-- Runs of a partial step function are computed by folding it over the actions. -/
theorem run_ofPartial_iff :
    Run (ofPartial next) start actions finish ↔ actions.foldlM next start = some finish := by
  induction actions using List.reverseRecOn generalizing finish with
  | nil =>
    rw [Run.nil_iff, List.foldlM_nil]
    exact ⟨fun h ↦ by rw [h]; rfl, fun h ↦ (Option.some.inj h).symm⟩
  | append_singleton actions action ih =>
    rw [Run.snoc_iff, List.foldlM_append]
    simp only [ih, ofPartial, List.foldlM_cons, List.foldlM_nil, bind_pure]
    exact Option.bind_eq_some_iff.symm

theorem Run.cons_iff {action : Action} {rest : List Action} :
    Run (ofPartial next) start (action :: rest) finish ↔
      ∃ middle, next start action = some middle ∧ Run (ofPartial next) middle rest finish := by
  rw [← List.singleton_append, Run.append_iff]
  simp only [Run.singleton_iff, ofPartial]

/-- A run is exhibited by computing it, together with a test of its last state. -/
theorem exists_run_of_any {test : State → Bool}
    (hcomputes : (actions.foldlM next start).any test = true) :
    ∃ finish, Run (ofPartial next) start actions finish ∧ test finish = true := by
  cases hfold : actions.foldlM next start with
  | none => simp [hfold] at hcomputes
  | some finish =>
    rw [hfold] at hcomputes
    exact ⟨finish, run_ofPartial_iff.mpr hfold, hcomputes⟩

theorem ofPartial_restrict (allow : State → Action → Prop)
    [∀ state action, Decidable (allow state action)] :
    ofPartial (restrict allow next) = guarded allow (ofPartial next) := by
  funext before action after
  unfold ofPartial restrict guarded
  split <;> simp_all

theorem Run.unique {other : State} (hrun : Run (ofPartial next) start actions finish)
    (hother : Run (ofPartial next) start actions other) : finish = other :=
  Option.some.inj ((run_ofPartial_iff.mp hrun).symm.trans (run_ofPartial_iff.mp hother))

end Partial

section Monitored

variable {next : State → Action → Option State} {start finish : State} {actions : List Action}

/-- Every action of the run from `start` meets the guard in the state it is taken in. -/
def EveryStep (next : State → Action → Option State) (start : State)
    (guard : State → Action → Prop) (actions : List Action) : Prop :=
  ∀ before action after state, actions = before ++ action :: after →
    Run (ofPartial next) start before state → guard state action

theorem everyStep_nil {guard : State → Action → Prop} : EveryStep next start guard [] := by
  intro before action after state hsplit
  simp at hsplit

theorem everyStep_snoc {guard : State → Action → Prop} {action : Action} {last : State}
    (hrun : Run (ofPartial next) start actions last) :
    EveryStep next start guard (actions ++ [action]) ↔
      EveryStep next start guard actions ∧ guard last action := by
  constructor
  · intro hall
    refine ⟨fun before act after state hsplit hearlier ↦ ?_,
      hall actions action [] last rfl hrun⟩
    exact hall before act (after ++ [action]) state (by simp [hsplit]) hearlier
  · rintro ⟨hall, hlast⟩ before act after state hsplit hearlier
    rcases List.eq_nil_or_concat after with rfl | ⟨after, tail, rfl⟩
    · obtain ⟨rfl, hsingle⟩ := List.append_inj' hsplit rfl
      obtain rfl := List.singleton_inj.mp hsingle
      rwa [hearlier.unique hrun]
    · rw [List.concat_eq_append, ← List.cons_append, ← List.append_assoc] at hsplit
      exact hall before act after state (List.append_inj' hsplit rfl).1 hearlier

theorem everyStep_cons {guard : State → Action → Prop} {action : Action} {rest : List Action} :
    EveryStep next start guard (action :: rest) ↔
      guard start action ∧
        ∀ middle, next start action = some middle → EveryStep next middle guard rest := by
  constructor
  · intro hall
    refine ⟨hall [] action rest start rfl .refl, fun middle hstep ↦ ?_⟩
    intro before act after state hsplit hearlier
    exact hall (action :: before) act after state (by rw [hsplit]; rfl)
      (Run.cons_iff.mpr ⟨middle, hstep, hearlier⟩)
  · rintro ⟨hfirst, hrest⟩ before act after state hsplit hearlier
    cases before with
    | nil =>
      obtain ⟨rfl, -⟩ := List.cons.inj hsplit
      rwa [Run.nil_iff.mp hearlier]
    | cons head before =>
      obtain ⟨rfl, hbehind⟩ := List.cons.inj hsplit
      obtain ⟨middle, hstep, hearlier⟩ := Run.cons_iff.mp hearlier
      exact hrest middle hstep before act after state hbehind hearlier

instance decidableEveryStep {guard : State → Action → Prop}
    [∀ state action, Decidable (guard state action)] (start : State) :
    ∀ actions, Decidable (EveryStep next start guard actions)
  | [] => isTrue everyStep_nil
  | action :: rest =>
    have : ∀ middle, Decidable (EveryStep next middle guard rest) := fun middle ↦
      decidableEveryStep middle rest
    decidable_of_iff
      (guard start action ∧ ∀ middle ∈ next start action, EveryStep next middle guard rest)
      everyStep_cons.symm

/-- **Monitored runs.**  `Good` is a property of the history that a step can only lose, and a step
from a good state keeps it exactly when the step meets the guard.  Then a run ends in a good state
exactly when all its steps meet the guard. -/
theorem Run.good_iff_everyStep {guard : State → Action → Prop}
    (hrun : Run (ofPartial next) start actions finish) (Good Inv : State → Prop)
    (hgood : Good start) (hinv : Inv start)
    (hclosed : ∀ before action after, next before action = some after → Good after → Good before)
    (hkeep : ∀ before action after, Good before → Inv before →
      next before action = some after → (Good after ↔ guard before action))
    (hnext : ∀ before action after, Good after → Inv before →
      next before action = some after → Inv after) :
    Good finish ↔ EveryStep next start guard actions := by
  suffices h : (Good finish ↔ EveryStep next start guard actions) ∧ (Good finish → Inv finish) by
    exact h.1
  induction hrun with
  | refl => exact ⟨iff_of_true hgood everyStep_nil, fun _ ↦ hinv⟩
  | snoc hearlier hlast ih =>
    obtain ⟨hiff, hmiddle⟩ := ih
    rw [everyStep_snoc hearlier]
    have hback := hclosed _ _ _ hlast
    refine ⟨⟨fun hafter ↦ ?_, fun ⟨hall, hguard⟩ ↦ ?_⟩, fun hafter ↦ ?_⟩
    · exact ⟨hiff.mp (hback hafter),
        (hkeep _ _ _ (hback hafter) (hmiddle (hback hafter)) hlast).mp hafter⟩
    · have hbefore := hiff.mpr hall
      exact (hkeep _ _ _ hbefore (hmiddle hbefore) hlast).mpr hguard
    · exact hnext _ _ _ hafter (hmiddle (hback hafter)) hlast

/-- The property holds in every state that the run from `start` passes through. -/
def EveryState (next : State → Action → Option State) (start : State) (Good : State → Prop)
    (actions : List Action) : Prop :=
  ∀ before after state, actions = before ++ after →
    Run (ofPartial next) start before state → Good state

theorem everyState_nil {Good : State → Prop} : EveryState next start Good [] ↔ Good start := by
  constructor
  · exact fun hall ↦ hall [] [] start rfl .refl
  · intro hgood before after state hsplit hrun
    obtain ⟨rfl, -⟩ := List.append_eq_nil_iff.mp hsplit.symm
    rwa [Run.nil_iff.mp hrun]

theorem everyState_snoc {Good : State → Prop} {action : Action}
    (hrun : Run (ofPartial next) start (actions ++ [action]) finish) :
    EveryState next start Good (actions ++ [action]) ↔
      EveryState next start Good actions ∧ Good finish := by
  constructor
  · intro hall
    refine ⟨fun before after state hsplit hearlier ↦ ?_, hall _ [] finish (by simp) hrun⟩
    exact hall before (after ++ [action]) state (by simp [hsplit]) hearlier
  · rintro ⟨hall, hlast⟩ before after state hsplit hearlier
    rcases List.eq_nil_or_concat after with rfl | ⟨after, tail, rfl⟩
    · rw [List.append_nil] at hsplit
      rw [← hsplit] at hearlier
      rwa [hearlier.unique hrun]
    · rw [List.concat_eq_append, ← List.append_assoc] at hsplit
      exact hall before after state (List.append_inj' hsplit rfl).1 hearlier

/-- **Every state of a run.**  While an invariant holds, a step leads to a good state exactly when
it meets the guard, and a step to a good state keeps the invariant.  Then a run passes through good
states only exactly when all its steps meet the guard. -/
theorem Run.everyState_iff_everyStep {guard : State → Action → Prop}
    (hrun : Run (ofPartial next) start actions finish) (Good Inv : State → Prop)
    (hgood : Good start) (hinv : Inv start)
    (hkeep : ∀ before action after, Inv before →
      next before action = some after → (Good after ↔ guard before action))
    (hnext : ∀ before action after, Good after → Inv before →
      next before action = some after → Inv after) :
    EveryState next start Good actions ↔ EveryStep next start guard actions := by
  suffices h : (EveryState next start Good actions ↔ EveryStep next start guard actions) ∧
      (EveryState next start Good actions → Inv finish) by
    exact h.1
  induction hrun with
  | refl => exact ⟨iff_of_true (everyState_nil.mpr hgood) everyStep_nil, fun _ ↦ hinv⟩
  | snoc hearlier hlast ih =>
    obtain ⟨hiff, hmiddle⟩ := ih
    rw [everyStep_snoc hearlier, everyState_snoc (.snoc hearlier hlast)]
    refine ⟨⟨fun ⟨hall, hafter⟩ ↦ ?_, fun ⟨hall, hguard⟩ ↦ ?_⟩, fun ⟨hall, hafter⟩ ↦ ?_⟩
    · exact ⟨hiff.mp hall, (hkeep _ _ _ (hmiddle hall) hlast).mp hafter⟩
    · have hstates := hiff.mpr hall
      exact ⟨hstates, (hkeep _ _ _ (hmiddle hstates) hlast).mpr hguard⟩
    · exact hnext _ _ _ hafter (hmiddle hall) hlast

end Monitored

end WinProcessThread.Transition
