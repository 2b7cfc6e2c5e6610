import WinProcessThread.Transition.Run

/-!
# Infinite executions and weak fairness

An execution is an infinite sequence of states in which every instant performs one action or
idles.  Weak fairness of a class of actions (the steps of one thread) excludes executions that leave
the class enabled for ever without performing any of its actions; `eventually_takes` is the
resulting progress rule.
-/

namespace WinProcessThread.Transition

variable {State Action : Type*}

/-- An infinite execution; `action n = none` means that nothing happens at instant `n`. -/
structure Execution (step : State → Action → State → Prop) (start : State) where
  state : ℕ → State
  action : ℕ → Option Action
  starts : state 0 = start
  idles : ∀ n, action n = none → state (n + 1) = state n
  moves : ∀ n act, action n = some act → step (state n) act (state (n + 1))

namespace Execution

variable {step : State → Action → State → Prop} {start : State}

/-- A class of actions that is enabled from some instant on is performed after that instant. -/
def WeaklyFair (exec : Execution step start) (thread : Action → Prop) : Prop :=
  ∀ n, (∀ m, n ≤ m → ∃ act after, thread act ∧ step (exec.state m) act after) →
    ∃ m act, n ≤ m ∧ exec.action m = some act ∧ thread act

/-- A condition on the actions of an execution may be used in the preservation of an invariant. -/
theorem invariant_of_actions (exec : Execution step start) (Inv : State → Prop)
    (allowed : State → Action → Prop) (hstart : Inv start)
    (hallowed : ∀ n act, exec.action n = some act → allowed (exec.state n) act)
    (hstep : ∀ before action after, Inv before → allowed before action →
      step before action after → Inv after) (n : ℕ) : Inv (exec.state n) := by
  induction n with
  | zero => rw [exec.starts]; exact hstart
  | succ n ih =>
    cases haction : exec.action n with
    | none => rw [exec.idles n haction]; exact ih
    | some act => exact hstep _ act _ ih (hallowed n act haction) (exec.moves n act haction)

theorem invariant (exec : Execution step start) (Inv : State → Prop) (hstart : Inv start)
    (hstep : ∀ before action after, Inv before → step before action after → Inv after) (n : ℕ) :
    Inv (exec.state n) :=
  exec.invariant_of_actions Inv (fun _ _ ↦ True) hstart (fun _ _ _ ↦ trivial)
    (fun before action after hinv _ ↦ hstep before action after hinv) n

/-- What every step of an execution keeps holds from the first instant at which it holds. -/
theorem stable (exec : Execution step start) (P : State → Prop)
    (hstep : ∀ n act, P (exec.state n) → step (exec.state n) act (exec.state (n + 1)) →
      P (exec.state (n + 1)))
    {n m : ℕ} (hnow : P (exec.state n)) (hle : n ≤ m) : P (exec.state m) := by
  obtain ⟨offset, rfl⟩ := Nat.exists_eq_add_of_le hle
  induction offset with
  | zero => exact hnow
  | succ offset ih =>
    have hbefore := ih (Nat.le_add_right n offset)
    cases haction : exec.action (n + offset) with
    | none =>
      rw [← Nat.add_assoc, exec.idles _ haction]
      exact hbefore
    | some act => exact hstep _ act hbefore (exec.moves _ act haction)

/-- **Progress.**  If `P` enables a weakly fair thread and only that thread can leave `P`, then
the thread takes a step from a state with `P`. -/
theorem eventually_takes (exec : Execution step start) {thread : Action → Prop}
    (hfair : exec.WeaklyFair thread) (P : State → Prop)
    (henabled : ∀ state, P state → ∃ act after, thread act ∧ step state act after)
    (hkeep : ∀ before act after, P before → ¬ thread act → step before act after → P after)
    {n : ℕ} (hnow : P (exec.state n)) :
    ∃ m act, n ≤ m ∧ P (exec.state m) ∧ exec.action m = some act ∧ thread act := by
  by_contra hnever
  push Not at hnever
  have hall : ∀ offset, P (exec.state (n + offset)) := by
    intro offset
    induction offset with
    | zero => exact hnow
    | succ offset ih =>
      cases haction : exec.action (n + offset) with
      | none => rw [← Nat.add_assoc, exec.idles _ haction]; exact ih
      | some act =>
        have hother := hnever (n + offset) act (by omega) ih haction
        exact hkeep _ act _ ih hother (exec.moves _ act haction)
  have hlater : ∀ m, n ≤ m → P (exec.state m) := by
    intro m hm
    obtain ⟨offset, rfl⟩ := Nat.exists_eq_add_of_le hm
    exact hall offset
  obtain ⟨m, act, hm, haction, hthread⟩ :=
    hfair n (fun m hm ↦ henabled _ (hlater m hm))
  exact hnever m act hm (hlater m hm) haction hthread

/-- **Ranked progress.**  Only a weakly fair thread can leave `Busy`, no other step changes the rank
there, and each step of the thread reaches the goal or stays in `Busy` at a lower rank. -/
theorem eventually_of_rank (exec : Execution step start) {thread : Action → Prop}
    (hfair : exec.WeaklyFair thread) (Goal Busy : State → Prop) (rank : State → ℕ)
    (henabled : ∀ state, Busy state → ∃ act after, thread act ∧ step state act after)
    (hother : ∀ before act after, Busy before → ¬ thread act → step before act after →
      Busy after ∧ rank after = rank before)
    (hthread : ∀ n act, exec.action n = some act → thread act → Busy (exec.state n) →
      Goal (exec.state (n + 1)) ∨
        Busy (exec.state (n + 1)) ∧ rank (exec.state (n + 1)) < rank (exec.state n))
    {n : ℕ} (hbusy : Busy (exec.state n)) : ∃ m, n ≤ m ∧ Goal (exec.state m) := by
  induction hrank : rank (exec.state n) using Nat.strongRecOn generalizing n with
  | ind value ih =>
    obtain ⟨m, act, hm, ⟨hthere, hsame⟩, haction, hact⟩ :=
      exec.eventually_takes hfair (fun state ↦ Busy state ∧ rank state = value)
        (fun state hstate ↦ henabled state hstate.1)
        (fun before act after hbefore hact hstep ↦ by
          have hafter := hother before act after hbefore.1 hact hstep
          exact ⟨hafter.1, hafter.2.trans hbefore.2⟩)
        ⟨hbusy, hrank⟩
    rcases hthread m act haction hact hthere with hgoal | ⟨hstill, hlower⟩
    · exact ⟨m + 1, by omega, hgoal⟩
    · obtain ⟨k, hk, hgoal⟩ := ih _ (by rw [← hsame]; exact hlower) hstill rfl
      exact ⟨k, by omega, hgoal⟩

/-- What holds at some instant but not at the first one begins with an action. -/
theorem exists_entry (exec : Execution step start) (P : State → Prop) (hstart : ¬ P start) {n : ℕ}
    (hnow : P (exec.state n)) :
    ∃ m act, exec.action m = some act ∧ ¬ P (exec.state m) ∧ P (exec.state (m + 1)) := by
  induction n with
  | zero =>
    rw [exec.starts] at hnow
    exact absurd hnow hstart
  | succ n ih =>
    by_cases hbefore : P (exec.state n)
    · exact ih hbefore
    · cases haction : exec.action n with
      | none =>
        rw [exec.idles n haction] at hnow
        exact absurd hnow hbefore
      | some act => exact ⟨n, act, haction, hbefore, hnow⟩

section Project

variable {View Seen : Type*} {viewStep : View → Seen → View → Prop}

/-- An execution seen through a part of its state, on which the actions without a label have no
effect. -/
def project (exec : Execution step start) (view : State → View) (label : Action → Option Seen)
    (hseen : ∀ before act after seen, step before act after → label act = some seen →
      viewStep (view before) seen (view after))
    (hsilent : ∀ before act after, step before act after → label act = none →
      view after = view before) :
    Execution viewStep (view start) where
  state n := view (exec.state n)
  action n := (exec.action n).bind label
  starts := congrArg view exec.starts
  idles n hnone := by
    cases haction : exec.action n with
    | none => rw [exec.idles n haction]
    | some act =>
      rw [haction] at hnone
      exact hsilent _ act _ (exec.moves n act haction) hnone
  moves n seen hsome := by
    obtain ⟨act, haction, hlabel⟩ := Option.bind_eq_some_iff.mp hsome
    exact hseen _ act _ seen (exec.moves n act haction) hlabel

end Project

/-- An execution all of whose actions the environment allows where they are taken. -/
def guarded {allow : State → Action → Prop} (exec : Execution step start)
    (hallow : ∀ n act, exec.action n = some act → allow (exec.state n) act) :
    Execution (Transition.guarded allow step) start where
  state := exec.state
  action := exec.action
  starts := exec.starts
  idles := exec.idles
  moves n act haction := ⟨hallow n act haction, exec.moves n act haction⟩

/-- An execution without the guard of its environment. -/
def unguarded {allow : State → Action → Prop}
    (exec : Execution (Transition.guarded allow step) start) : Execution step start where
  state := exec.state
  action := exec.action
  starts := exec.starts
  idles := exec.idles
  moves n act haction := (exec.moves n act haction).2

/-- Fairness to a thread that the environment does not guard is kept. -/
theorem WeaklyFair.unguarded {allow : State → Action → Prop}
    {exec : Execution (Transition.guarded allow step) start} {thread : Action → Prop}
    (hfair : exec.WeaklyFair thread) (hfree : ∀ state act, thread act → allow state act) :
    exec.unguarded.WeaklyFair thread := by
  intro n henabled
  apply hfair n
  intro m hm
  obtain ⟨act, after, hact, hstep⟩ := henabled m hm
  exact ⟨act, after, hact, hfree _ act hact, hstep⟩

/-- The environment enables no thread, so fairness to a thread is kept. -/
theorem WeaklyFair.guarded {allow : State → Action → Prop} {exec : Execution step start}
    {thread : Action → Prop} (hfair : exec.WeaklyFair thread)
    (hallow : ∀ n act, exec.action n = some act → allow (exec.state n) act) :
    (exec.guarded hallow).WeaklyFair thread := by
  intro n henabled
  apply hfair n
  intro m hm
  obtain ⟨act, after, hact, -, hstep⟩ := henabled m hm
  exact ⟨act, after, hact, hstep⟩

end Execution

section Schedule

variable {next : State → Action → Option State} {start : State}

/-- The states visited when the scheduled actions are tried in turn and impossible ones skipped. -/
def scheduledState (next : State → Action → Option State) (start : State)
    (schedule : ℕ → Action) : ℕ → State
  | 0 => start
  | n + 1 =>
    (next (scheduledState next start schedule n) (schedule n)).getD
      (scheduledState next start schedule n)

/-- Every schedule of a partial step function gives an execution. -/
def scheduled (next : State → Action → Option State) (start : State) (schedule : ℕ → Action) :
    Execution (ofPartial next) start where
  state := scheduledState next start schedule
  action n :=
    if (next (scheduledState next start schedule n) (schedule n)).isSome then some (schedule n)
    else none
  starts := rfl
  idles n hnone := by
    have hstuck : next (scheduledState next start schedule n) (schedule n) = none := by
      simpa using hnone
    simp [scheduledState, hstuck]
  moves n act hsome := by
    split at hsome
    · obtain rfl := Option.some.inj hsome
      next hmoves =>
        obtain ⟨after, hafter⟩ := Option.isSome_iff_exists.mp hmoves
        simp [ofPartial, scheduledState, hafter]
    · cases hsome

/-- A schedule that offers a thread a possible step again and again is weakly fair to it. -/
theorem weaklyFair_scheduled {schedule : ℕ → Action} {thread : Action → Prop}
    (hoften : ∀ n, ∃ m, n ≤ m ∧ thread (schedule m) ∧
      ∀ state act after, thread act → next state act = some after →
        (next state (schedule m)).isSome) :
    (scheduled next start schedule).WeaklyFair thread := by
  intro n henabled
  obtain ⟨m, hm, hthread, hpossible⟩ := hoften n
  obtain ⟨act, after, hact, hstep⟩ := henabled m hm
  refine ⟨m, schedule m, hm, ?_, hthread⟩
  exact if_pos (hpossible _ act after hact hstep)

end Schedule

end WinProcessThread.Transition
