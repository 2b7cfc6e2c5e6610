import WinProcessThread.TcpClient.Connection
import WinProcessThread.Transition.History

/-!
# Resource balance of the socket calls

Every function of the client cleans up behind its own errors, and `connect_s` goes on whatever the
functions it calls return.  A run keeps the balance exactly when each command starts in a state in
which its calls are due: no `connect_s` over an open socket, no query of a closed one, and no more
clean-ups than start-ups that succeeded.
-/

namespace WinProcessThread.TcpClient

open Transition

variable {world next : World} {commands : List Command}

def Call.isStartup : Call → Bool
  | .wsaStartup iResult => iResult = 0
  | _ => false

def Call.isCleanup : Call → Bool
  | .wsaCleanup => true
  | _ => false

/-- The successful `WSAStartup` calls. -/
def startups (log : List Call) : ℕ :=
  log.countP Call.isStartup

/-- The `WSACleanup` calls. -/
def cleanups (log : List Call) : ℕ :=
  log.countP Call.isCleanup

/-- The socket that is passed to a call. -/
def Call.handle : Call → Option SOCKET
  | .wsaStartup _ | .wsaCleanup | .socket _ _ => none
  | .connect used _ _ | .closesocket used | .shutdown used _ | .getsockopt used _ => some used

/-- The balance of a log. -/
structure Balanced (log : List Call) : Prop where
  /-- At every point there are at most as many clean-ups as successful start-ups. -/
  cleanups_le : ∀ earlier later, log = earlier ++ later → cleanups earlier ≤ startups earlier
  /-- No closed socket is closed again or passed to another call. -/
  not_closed : ∀ earlier call later, log = earlier ++ call :: later →
    ∀ socket ∈ call.handle, handleState earlier socket ≠ .closed
  /-- A handle is not replaced while it is an open socket. -/
  replaced : ∀ earlier held result later, log = earlier ++ .socket held result :: later →
    handleState earlier held ≠ .opened

/-- What the balance asks of one call after the earlier ones. -/
def balanceLaw (earlier : List Call) : Call → Prop
  | .wsaStartup _ => True
  | .wsaCleanup => cleanups earlier < startups earlier
  | .socket held _ => handleState earlier held ≠ .opened
  | .connect socket _ _ | .closesocket socket | .shutdown socket _ | .getsockopt socket _ =>
    handleState earlier socket ≠ .closed

instance (earlier : List Call) : ∀ call, Decidable (balanceLaw earlier call)
  | .wsaStartup _ => inferInstanceAs (Decidable True)
  | .wsaCleanup => inferInstanceAs (Decidable (_ < _))
  | .socket _ _ | .connect _ _ _ | .closesocket _ | .shutdown _ _ | .getsockopt _ _ =>
    inferInstanceAs (Decidable (_ ≠ _))

@[simp]
theorem startups_append (log new : List Call) :
    startups (log ++ new) = startups log + startups new :=
  List.countP_append

@[simp]
theorem cleanups_append (log new : List Call) :
    cleanups (log ++ new) = cleanups log + cleanups new :=
  List.countP_append

theorem startups_cons (call : Call) (rest : List Call) :
    startups (call :: rest) = startups rest + if call.isStartup then 1 else 0 :=
  List.countP_cons

theorem cleanups_cons (call : Call) (rest : List Call) :
    cleanups (call :: rest) = cleanups rest + if call.isCleanup then 1 else 0 :=
  List.countP_cons

@[simp]
theorem startups_nil : startups [] = 0 := rfl

@[simp]
theorem cleanups_nil : cleanups [] = 0 := rfl

theorem cleanups_le_of_throughout {log : List Call} (hlaw : Throughout balanceLaw log) :
    cleanups log ≤ startups log := by
  induction log using List.reverseRecOn with
  | nil => exact le_rfl
  | append_singleton log call ih =>
    obtain ⟨hearlier, hlast⟩ := throughout_snoc.mp hlaw
    have hle := ih hearlier
    rw [cleanups_append, startups_append]
    by_cases hcleanup : call = .wsaCleanup
    · subst hcleanup
      have hlt : cleanups log < startups log := hlast
      have hone : cleanups [.wsaCleanup] = 1 := rfl
      omega
    · have hzero : cleanups [call] = 0 := by
        cases call <;> first | rfl | exact absurd rfl hcleanup
      omega

/-- The balance is a law of the history. -/
theorem balanced_iff_throughout {log : List Call} :
    Balanced log ↔ Throughout balanceLaw log := by
  constructor
  · intro hbalanced earlier call later hsplit
    cases call with
    | wsaStartup iResult => trivial
    | wsaCleanup =>
      have hle := hbalanced.cleanups_le (earlier ++ [.wsaCleanup]) later (by simp [hsplit])
      rw [cleanups_append, startups_append] at hle
      exact hle
    | socket held result => exact hbalanced.replaced earlier held result later hsplit
    | connect socket serverAddress lastError =>
      exact hbalanced.not_closed earlier _ later hsplit socket rfl
    | closesocket socket => exact hbalanced.not_closed earlier _ later hsplit socket rfl
    | shutdown socket lastError => exact hbalanced.not_closed earlier _ later hsplit socket rfl
    | getsockopt socket val => exact hbalanced.not_closed earlier _ later hsplit socket rfl
  · intro hlaw
    refine ⟨fun earlier later hsplit ↦ ?_, fun earlier call later hsplit socket hsocket ↦ ?_,
      fun earlier held result later hsplit ↦ hlaw earlier _ later hsplit⟩
    · exact cleanups_le_of_throughout (throughout_of_append (hsplit ▸ hlaw))
    · have hcall := hlaw earlier call later hsplit
      cases call <;> simp_all [Call.handle, balanceLaw]

instance (log : List Call) : Decidable (Balanced log) :=
  decidable_of_iff _ balanced_iff_throughout.symm

/-- The start-ups behind the `WSAStartup` of a `connect_s`. -/
def startupsAfter (world : World) (outcome : ConnectOutcome) : ℕ :=
  startups world.log + startups [.wsaStartup outcome.wsaStartup]

/-- The state a command needs to keep the balance. -/
def KeepsBalance (world : World) : Command → Prop
  | .connectS _ _ outcome =>
    ¬ world.IsOpen ∧
      (outcome.socket = invalidSocket →
        cleanups world.log + 1 < startupsAfter world outcome) ∧
      (outcome.socket ≠ invalidSocket → outcome.connect ≠ none →
        cleanups world.log < startupsAfter world outcome)
  | .create _ _ _ _ => handleState world.log world.client.connectSocket ≠ .closed
  | .destroy _ => True
  | .status _ _ => handleState world.log world.client.connectSocket ≠ .closed
  | .disconnectS first second shutdown =>
    world.client.objects = [] →
      handleState world.log world.client.connectSocket ≠ .closed ∧
        (Usable world first second → shutdown ≠ none →
          cleanups world.log < startups world.log)

/-- The calls that follow a log obey the law together with it. -/
def LawfulAfter (log new : List Call) : Prop :=
  Throughout (fun earlier call ↦ balanceLaw (log ++ earlier) call) new

theorem lawfulAfter_checkCalls (world : World) (first second : Int32) :
    LawfulAfter world.log (checkCalls world first second) ↔
      handleState world.log world.client.connectSocket ≠ .closed := by
  unfold LawfulAfter checkCalls
  split <;> simp [throughout_cons, balanceLaw, checkCall, Handle.after]

theorem lawfulAfter_connectCalls (world : World) (ip : List Char) (port : Int32)
    (outcome : ConnectOutcome) :
    LawfulAfter world.log (connectCalls world.client.connectSocket ip port outcome) ↔
      KeepsBalance world (.connectS ip port outcome) := by
  unfold LawfulAfter connectCalls KeepsBalance startupsAfter World.IsOpen
  by_cases hinvalid : outcome.socket = invalidSocket
  · simp only [hinvalid, closingOnError]
    simp [throughout_cons, balanceLaw, handleState_append, Handle.after, startups_cons,
      cleanups_cons, Call.isStartup, Call.isCleanup]
    intro _
    omega
  · cases hconnect : outcome.connect with
    | none =>
      simp [throughout_cons, balanceLaw, hinvalid, hconnect, closingOnError, handleState_append,
        Handle.after]
    | some code =>
      simp [throughout_cons, balanceLaw, hinvalid, hconnect, closingOnError, handleState_append,
        Handle.after, startups_cons, cleanups_cons, Call.isStartup, Call.isCleanup]

/-- On an open socket, a call that is closed off when it fails needs a start-up to clean up. -/
theorem lawfulAfter_shutdown {log : List Call} {socket : SOCKET}
    (hopen : handleState log socket = .opened) (lastError : Option Int32) :
    LawfulAfter log (closingOnError socket (.shutdown socket) lastError) ↔
      (lastError ≠ none → cleanups log < startups log) := by
  unfold LawfulAfter
  cases lastError with
  | none => simp [closingOnError, throughout_cons, balanceLaw, hopen]
  | some code =>
    simp [closingOnError, throughout_cons, balanceLaw, hopen, handleState_append, Handle.after,
      startups_cons, cleanups_cons, Call.isStartup, Call.isCleanup]

theorem lawfulAfter_append {log first second : List Call} :
    LawfulAfter log (first ++ second) ↔
      LawfulAfter log first ∧ LawfulAfter (log ++ first) second := by
  unfold LawfulAfter
  rw [throughout_append]
  simp only [List.append_assoc]

/-- Error queries are neither start-ups nor clean-ups. -/
theorem Silent.countP_eq_zero {new : List Call} (hsilent : Silent new) {counted : Call → Bool}
    (hquery : ∀ socket val, counted (.getsockopt socket val) = false) :
    new.countP counted = 0 := by
  apply List.countP_eq_zero.mpr
  intro call hcall
  obtain ⟨socket, val, rfl⟩ := hsilent call hcall
  rw [hquery]
  exact Bool.false_ne_true

/-- The calls of a command obey the law exactly when the command keeps the balance. -/
theorem lawfulAfter_calls_iff (world : World) (command : Command) :
    LawfulAfter world.log (calls world command) ↔ KeepsBalance world command := by
  cases command with
  | connectS ip port outcome => exact lawfulAfter_connectCalls world ip port outcome
  | create nType szName indeterminate pending =>
    simp [LawfulAfter, calls, KeepsBalance, throughout_cons, balanceLaw, checkCall]
  | destroy id => simp [LawfulAfter, calls, KeepsBalance]
  | status first second => exact lawfulAfter_checkCalls world first second
  | disconnectS first second shutdown =>
    rw [calls, KeepsBalance]
    by_cases hempty : world.client.objects = []
    · have hsilent := silent_checkCalls world first second
      rw [if_pos hempty, disconnectCalls]
      by_cases husable : Usable world first second
      · have hopen : handleState (world.log ++ checkCalls world first second)
            world.client.connectSocket = .opened := by
          rw [handleState_checkCalls]
          exact husable.1
        have hstartups : startups (checkCalls world first second) = 0 :=
          hsilent.countP_eq_zero fun _ _ ↦ rfl
        have hcleanups : cleanups (checkCalls world first second) = 0 :=
          hsilent.countP_eq_zero fun _ _ ↦ rfl
        rw [if_pos husable, lawfulAfter_append, lawfulAfter_checkCalls,
          lawfulAfter_shutdown hopen, startups_append, cleanups_append, hstartups, hcleanups]
        simp [hempty, husable]
      · rw [if_neg husable, lawfulAfter_checkCalls]
        simp [hempty, husable]
    · simp [hempty, LawfulAfter]

/-- **Resource balance.**  The log of a run from a fresh client is balanced exactly when every
command of the run starts in a state in which it keeps the balance. -/
theorem balanced_iff_everyStep {serverPort : Int32} {connectSocket : SOCKET}
    {bufferSizePriv : Int32}
    (hrun : Run (ofPartial exec) (newClient serverPort connectSocket bufferSizePriv) commands
      world) :
    Balanced world.log ↔
      EveryStep exec (newClient serverPort connectSocket bufferSizePriv) KeepsBalance
        commands := by
  have hstep : ∀ before command after, exec before command = some after →
      (Balanced after.log ↔ Balanced before.log ∧ KeepsBalance before command) := by
    intro before command after hexec
    calc
      Balanced after.log ↔ Throughout balanceLaw (before.log ++ calls before command) := by
        rw [balanced_iff_throughout, exec_log hexec]
      _ ↔ Throughout balanceLaw before.log ∧ LawfulAfter before.log (calls before command) :=
        throughout_append
      _ ↔ Balanced before.log ∧ KeepsBalance before command := by
        rw [balanced_iff_throughout, lawfulAfter_calls_iff]
  apply hrun.good_iff_everyStep (fun world ↦ Balanced world.log) (fun _ ↦ True)
  · exact balanced_iff_throughout.mpr throughout_nil
  · trivial
  · intro before command after hexec hbalanced
    exact ((hstep before command after hexec).mp hbalanced).1
  · intro before command after hbalanced _ hexec
    rw [hstep before command after hexec]
    exact and_iff_right hbalanced
  · intro _ _ _ _ _ _
    trivial

/-- A client that connects and asks for its status keeps the balance. -/
theorem connectStatus_keepsBalance :
    EveryStep exec (newClient 0 invalidSocket 0) KeepsBalance
      [.connectS "10.0.0.1".toList 80 ⟨0, 4, 0, none⟩, .status 0 0] := by
  have hbalanced : ∃ world, Run (ofPartial exec) (newClient 0 invalidSocket 0)
      [.connectS "10.0.0.1".toList 80 ⟨0, 4, 0, none⟩, .status 0 0] world ∧
        decide (Balanced world.log) = true :=
    exists_run_of_any (by decide)
  obtain ⟨world, hrun, hlog⟩ := hbalanced
  exact (balanced_iff_everyStep hrun).mp (of_decide_eq_true hlog)

/-- `socket` fails: `sock_cli` cleans up, and so does `connect_too`, for a single start-up. -/
theorem socketFails_not_balanced :
    ∃ world, Run (ofPartial exec) (newClient 0 invalidSocket 0)
      [.connectS "10.0.0.1".toList 80 ⟨0, invalidSocket, 10024, none⟩] world ∧
        ¬ Balanced world.log := by
  have hunbalanced : ∃ world, Run (ofPartial exec) (newClient 0 invalidSocket 0)
      [.connectS "10.0.0.1".toList 80 ⟨0, invalidSocket, 10024, none⟩] world ∧
        decide (¬ Balanced world.log) = true :=
    exists_run_of_any (by decide)
  obtain ⟨world, hrun, hlog⟩ := hunbalanced
  exact ⟨world, hrun, of_decide_eq_true hlog⟩

end WinProcessThread.TcpClient
