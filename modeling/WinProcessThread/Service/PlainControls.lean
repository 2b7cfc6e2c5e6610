import WinProcessThread.Service.Status

/-!
# Runs without `SHUTDOWN`, `PAUSE` and `CONTINUE`

The three branches that store a state behind the back of `ReportServiceStatus` are the delicate
ones.  As long as no such control is delivered the handler is simple: it reaches `SetEvent` only
from the `STOP` branch.
-/

namespace WinProcessThread.Service

open Transition

/-- A control whose branch leaves `Service_Status` to `ReportServiceStatus`. -/
def Plain (controlCode : DWORD) : Prop :=
  controlCode ≠ serviceControlShutdown ∧ controlCode ≠ serviceControlPause ∧
    controlCode ≠ serviceControlContinue

/-- Only plain branches are taken, and the event is set after a delivered `STOP`. -/
def plainLaw (earlier : List Event) : Event → Prop
  | .branch controlCode => Plain controlCode
  | .setEvent => .deliver serviceControlStop ∈ earlier
  | _ => True

structure PlainHandler (w : World) : Prop where
  lawful : Throughout plainLaw w.log
  dispatched : ∀ controlCode, w.handler = .dispatched controlCode →
    Plain controlCode ∧ .deliver controlCode ∈ w.log
  signaling : w.handler = .setEvent → .deliver serviceControlStop ∈ w.log
  signaled : w.stopServiceEvent = some true → .deliver serviceControlStop ∈ w.log

theorem plainHandler_initial : PlainHandler initial where
  lawful := throughout_nil
  dispatched := by simp [initial]
  signaling := by simp [initial]
  signaled := by simp [initial]

/-- Appending to the log and moving the handler on, from what the new event and place need. -/
theorem PlainHandler.append {w after : World} (hplain : PlainHandler w) {event : Event}
    (hlog : after.log = w.log ++ [event]) (hevent : plainLaw w.log event)
    (hdispatched : ∀ controlCode, after.handler = .dispatched controlCode →
      Plain controlCode ∧ .deliver controlCode ∈ after.log)
    (hsignaling : after.handler = .setEvent → .deliver serviceControlStop ∈ w.log)
    (hsignaled : after.stopServiceEvent = some true → .deliver serviceControlStop ∈ w.log) :
    PlainHandler after where
  lawful := by rw [hlog]; exact throughout_snoc.mpr ⟨hplain.lawful, hevent⟩
  dispatched := hdispatched
  signaling h := by rw [hlog]; exact List.mem_append_left _ (hsignaling h)
  signaled h := by rw [hlog]; exact List.mem_append_left _ (hsignaled h)

/-- A report by `ServiceMain` leaves the handler where it is. -/
theorem PlainHandler.report_main {w after : World} (hplain : PlainHandler w)
    {status : ServiceStatus} {lastError : Option DWORD}
    (hlog : after.log = w.log ++ [.report .serviceMain status lastError])
    (hhandler : after.handler = w.handler)
    (hevent : after.stopServiceEvent = w.stopServiceEvent) : PlainHandler after := by
  apply hplain.append hlog trivial
  · intro controlCode hcode
    have hbefore := hplain.dispatched controlCode (by rw [← hhandler, hcode])
    exact ⟨hbefore.1, by rw [hlog]; exact List.mem_append_left _ hbefore.2⟩
  · intro hsetting
    exact hplain.signaling (by rw [← hhandler, hsetting])
  · intro hset
    exact hplain.signaled (by rw [← hevent, hset])

theorem PlainHandler.main_step {w after : World} {lastError : Option DWORD}
    (hplain : PlainHandler w) (hmove : Move w (.main lastError) after) : PlainHandler after := by
  cases hmove with
  | registerHandler => exact { hplain with }
  | reportStartPending => exact hplain.report_main rfl rfl rfl
  | setInitialStatus => exact hplain.report_main rfl rfl rfl
  | createEvent =>
    refine { hplain with signaled := fun hset ↦ ?_ }
    split at hset <;> simp at hset
  | reportInitial => exact hplain.report_main rfl rfl rfl
  | waitForStop => exact { hplain with }
  | reportStopped => exact hplain.report_main rfl rfl rfl

theorem PlainHandler.branch {w after : World} {controlCode : DWORD} {lastError : Option DWORD}
    (hplain : PlainHandler w) (hhandler : w.handler = .dispatched controlCode)
    (hbranch : Branch lastError { w with log := w.log ++ [.branch controlCode] } controlCode
      after) : PlainHandler after := by
  have hdispatched := hplain.dispatched controlCode hhandler
  have hlogged : PlainHandler { w with
      handler := .setFinalStatus, log := w.log ++ [.branch controlCode] } :=
    hplain.append rfl hdispatched.1 (by simp) (by simp) hplain.signaled
  cases hbranch with
  | none => exact hlogged
  | shutdown => exact absurd rfl hdispatched.1.1
  | stop =>
    have hstop : Event.deliver serviceControlStop ∈ w.log ++ [.branch serviceControlStop] :=
      List.mem_append_left _ hdispatched.2
    exact hlogged.append rfl trivial (by simp) (fun _ ↦ hstop) (fun _ ↦ hstop)
  | pause => exact absurd rfl hdispatched.1.2.1
  | «continue» => exact absurd rfl hdispatched.1.2.2

theorem PlainHandler.handler_step {w after : World} {lastError : Option DWORD}
    (hplain : PlainHandler w) (hmove : Move w (.handler lastError) after) :
    PlainHandler after := by
  cases hmove with
  | branch controlCode _ hhandler hbranch => exact hplain.branch hhandler hbranch
  | setEvent _ hhandler =>
    have hstop := hplain.signaling hhandler
    unfold setEvent
    split
    · exact { hplain with dispatched := by simp, signaling := by simp }
    · exact hplain.append rfl hstop (by simp) (by simp) (fun _ ↦ hstop)
  | setFinalStatus => exact hplain.append rfl trivial (by simp) (by simp) hplain.signaled

/-- Deliveries of plain controls only keep the handler plain. -/
theorem PlainHandler.step {w after : World} {action : Action} (hplain : PlainHandler w)
    (hdelivers : ∀ controlCode, action = .deliver controlCode → Plain controlCode)
    (hstep : Step w action after) : PlainHandler after := by
  have hmove := move_of_step hstep
  cases action with
  | main lastError => exact hplain.main_step hmove
  | handler lastError => exact hplain.handler_step hmove
  | deliver controlCode =>
    cases hmove with
    | deliver =>
      refine hplain.append rfl trivial (fun code hcode ↦ ?_) (by simp) hplain.signaled
      obtain rfl := HandlerThread.dispatched.inj hcode
      exact ⟨hdelivers controlCode rfl, by simp⟩

end WinProcessThread.Service
