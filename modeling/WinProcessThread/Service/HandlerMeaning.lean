import WinProcessThread.Service.PlainControls
import Mathlib.Tactic.Tauto

/-!
# What the controls should mean

Controls should do what their names say: only `STOP` and `SHUTDOWN` signal the stop event, a
`SHUTDOWN` is reported as stopping, and a paused (continued) service stays reported as paused
(running) until the next control.  The `SHUTDOWN` branch stores the control code in place of a
state, and the `PAUSE` and `CONTINUE` branches signal the stop event.  The law therefore holds for
the runs over a set of control codes exactly when that set has none of the three.
-/

namespace WinProcessThread.Service

open Transition

def stopEventLaw (earlier : List Event) : Event → Prop
  | .setEvent => .deliver serviceControlStop ∈ earlier ∨ .deliver serviceControlShutdown ∈ earlier
  | _ => True

def shutdownLaw (earlier : List Event) : Event → Prop
  | .report _ status _ => .branch serviceControlShutdown ∈ earlier →
      status.dwCurrentState = serviceStopped ∨ status.dwCurrentState = serviceStopPending
  | _ => True

/-- From the branch of `controlCode` to the next delivery every report has the state `held`. -/
def heldLaw (controlCode held : DWORD) (earlier : List Event) : Event → Prop
  | .report _ status _ => ∀ before since, earlier = before ++ .branch controlCode :: since →
      (∀ later, .deliver later ∉ since) → status.dwCurrentState = held
  | _ => True

structure HandlerMeaning (log : List Event) : Prop where
  stopEvent : Throughout stopEventLaw log
  shutdown : Throughout shutdownLaw log
  pause : Throughout (heldLaw serviceControlPause servicePaused) log
  «continue» : Throughout (heldLaw serviceControlContinue serviceRunning) log

instance (earlier : List Event) : (event : Event) → Decidable (stopEventLaw earlier event)
  | .deliver _ => .isTrue trivial
  | .branch _ => .isTrue trivial
  | .report _ _ _ => .isTrue trivial
  | .setEvent => inferInstanceAs (Decidable (_ ∨ _))

instance (earlier : List Event) : (event : Event) → Decidable (shutdownLaw earlier event)
  | .deliver _ => .isTrue trivial
  | .branch _ => .isTrue trivial
  | .report _ _ _ => inferInstanceAs (Decidable (_ → _))
  | .setEvent => .isTrue trivial

/-- An environment that delivers controls of one set only. -/
def DeliversOnly (codes : DWORD → Prop) (_ : World) : Action → Prop
  | .deliver controlCode => codes controlCode
  | _ => True

theorem plainHandler_of_run {codes : DWORD → Prop} (hcodes : ∀ code, codes code → Plain code)
    {actions : List Action} {w : World}
    (hrun : Run (guarded (DeliversOnly codes) Step) initial actions w) : PlainHandler w := by
  apply hrun.invariant PlainHandler plainHandler_initial
  rintro before action after hplain ⟨hallowed, hstep⟩
  refine hplain.step (fun controlCode hcode ↦ ?_) hstep
  subst hcode
  exact hcodes controlCode hallowed

/-- The three laws about a branch hold when the branch is never taken. -/
theorem PlainHandler.not_branch {w : World} (hplain : PlainHandler w) {controlCode : DWORD}
    (hnotPlain : ¬ Plain controlCode) {earlier later : List Event} {event : Event}
    (hsplit : w.log = earlier ++ event :: later) : .branch controlCode ∉ earlier := by
  intro hbranch
  obtain ⟨before, since, rfl⟩ := List.append_of_mem hbranch
  have hlaw : plainLaw before (.branch controlCode) :=
    hplain.lawful before _ (since ++ event :: later) (by simp [hsplit])
  exact hnotPlain hlaw

theorem PlainHandler.handlerMeaning {w : World} (hplain : PlainHandler w) :
    HandlerMeaning w.log where
  stopEvent := by
    refine hplain.lawful.mono fun earlier event hlaw ↦ ?_
    cases event with
    | setEvent => exact .inl hlaw
    | _ => trivial
  shutdown := by
    intro earlier event later hsplit
    cases event with
    | report caller status lastError =>
      intro hbranch
      exact absurd hbranch (hplain.not_branch (fun h ↦ h.1 rfl) hsplit)
    | _ => trivial
  pause := by
    intro earlier event later hsplit
    cases event with
    | report caller status lastError =>
      rintro before since rfl -
      exact absurd (by simp) (hplain.not_branch (fun h ↦ h.2.1 rfl) hsplit)
    | _ => trivial
  «continue» := by
    intro earlier event later hsplit
    cases event with
    | report caller status lastError =>
      rintro before since rfl -
      exact absurd (by simp) (hplain.not_branch (fun h ↦ h.2.2 rfl) hsplit)
    | _ => trivial

theorem exists_controlRun_of_not_plain {controlCode : DWORD} (hnotPlain : ¬ Plain controlCode) :
    ∃ w, Run Step initial (controlRun controlCode) w ∧
      ¬ (Throughout stopEventLaw w.log ∧ Throughout shutdownLaw w.log) := by
  have hcodes : controlCode = serviceControlShutdown ∨ controlCode = serviceControlPause ∨
      controlCode = serviceControlContinue := by
    unfold Plain at hnotPlain
    tauto
  have hbreaks : ∃ w, Run Step initial (controlRun controlCode) w ∧
      decide (¬ (Throughout stopEventLaw w.log ∧ Throughout shutdownLaw w.log)) = true := by
    rcases hcodes with rfl | rfl | rfl
    · exact exists_run_of_any (by decide)
    · exact exists_run_of_any (by decide)
    · exact exists_run_of_any (by decide)
  obtain ⟨w, hrun, hbroken⟩ := hbreaks
  exact ⟨w, hrun, of_decide_eq_true hbroken⟩

theorem deliversOnly_controlRun {codes : DWORD → Prop} {controlCode : DWORD}
    (hcode : codes controlCode) {w : World}
    (hrun : Run Step initial (controlRun controlCode) w) :
    Run (guarded (DeliversOnly codes) Step) initial (controlRun controlCode) w := by
  refine hrun.guarded fun action haction state ↦ ?_
  simp only [controlRun, List.mem_cons, List.not_mem_nil, or_false] at haction
  rcases haction with rfl | rfl | rfl | rfl | rfl | rfl | rfl | rfl | rfl
  all_goals first | exact hcode | trivial

/-- **Meaning of the controls.**  All runs over a set of control codes give the controls their
meaning exactly when the set contains neither `SHUTDOWN` nor `PAUSE` nor `CONTINUE`. -/
theorem handlerMeaning_iff (codes : DWORD → Prop) :
    (∀ actions w, Run (guarded (DeliversOnly codes) Step) initial actions w →
      HandlerMeaning w.log) ↔
    ¬ codes serviceControlShutdown ∧ ¬ codes serviceControlPause ∧
      ¬ codes serviceControlContinue := by
  constructor
  · intro hmeaning
    have hplain : ∀ code, codes code → Plain code := by
      intro code hcode
      by_contra hnotPlain
      obtain ⟨w, hrun, hbroken⟩ := exists_controlRun_of_not_plain hnotPlain
      have hlaw := hmeaning _ w (deliversOnly_controlRun hcode hrun)
      exact hbroken ⟨hlaw.stopEvent, hlaw.shutdown⟩
    exact ⟨fun h ↦ (hplain _ h).1 rfl, fun h ↦ (hplain _ h).2.1 rfl,
      fun h ↦ (hplain _ h).2.2 rfl⟩
  · rintro ⟨hshutdown, hpause, hcontinue⟩ actions w hrun
    have hplain : ∀ code, codes code → Plain code := by
      intro code hcode
      refine ⟨?_, ?_, ?_⟩
      · rintro rfl
        exact hshutdown hcode
      · rintro rfl
        exact hpause hcode
      · rintro rfl
        exact hcontinue hcode
    exact (plainHandler_of_run hplain hrun).handlerMeaning

/-- A `PAUSE` of the running service signals the stop event. -/
theorem pause_run_without_meaning :
    ∃ w, Run Step initial (controlRun serviceControlPause) w ∧ ¬ HandlerMeaning w.log := by
  obtain ⟨w, hrun, hbroken⟩ := exists_controlRun_of_not_plain (fun h ↦ h.2.1 rfl)
  exact ⟨w, hrun, fun hmeaning ↦ hbroken ⟨hmeaning.stopEvent, hmeaning.shutdown⟩⟩

end WinProcessThread.Service
