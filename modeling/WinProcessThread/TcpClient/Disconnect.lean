import WinProcessThread.TcpClient.ObjectStore

/-!
# What disconnecting leaves behind

The help text of `disconnect` and `exit` promises to notify the server and to destroy all objects.
The loop of `disconnect_s` returns after the first object it erases, so both halves of the promise
are kept only by a client without objects, or by one with a single object and no usable socket.
-/

namespace WinProcessThread.TcpClient

open Transition

variable {world after : World}

/-- The calls made since `world`. -/
def callsSince (world after : World) : List Call :=
  after.log.drop world.log.length

theorem callsSince_eq {new : List Call} (hlog : after.log = world.log ++ new) :
    callsSince world after = new := by
  rw [callsSince, hlog, List.drop_left]

/-- `disconnect_s` leaves no object, and it shuts a usable socket down. -/
def EmptiesClient (world : World) (first second : Int32) (shutdown : Option Int32) : Prop :=
  let after := disconnectS first second shutdown world
  after.client.objects = [] ∧
    (Usable world first second →
      ∃ lastError,
        .shutdown world.client.connectSocket lastError ∈ callsSince world after)

theorem shutdown_not_mem_checkCalls (world : World) (first second : Int32) (socket : SOCKET)
    (lastError : Option Int32) : .shutdown socket lastError ∉ checkCalls world first second := by
  unfold checkCalls
  split <;> simp [checkCall]

/-- A shutdown is made exactly when the store is empty and a check finds the socket usable. -/
theorem shutdown_mem_disconnectS_iff (first second : Int32) (shutdown : Option Int32) :
    (∃ lastError, .shutdown world.client.connectSocket lastError ∈
        callsSince world (disconnectS first second shutdown world)) ↔
      world.client.objects = [] ∧ Usable world first second := by
  rw [callsSince_eq (disconnectS_effect first second shutdown world).2, calls]
  by_cases hempty : world.client.objects = []
  · by_cases husable : Usable world first second
    · refine iff_of_true ⟨shutdown, ?_⟩ ⟨hempty, husable⟩
      rw [if_pos hempty, disconnectCalls, if_pos husable]
      apply List.mem_append_right
      cases shutdown <;> simp [closingOnError]
    · have hnone := shutdown_not_mem_checkCalls world first second
      simp [hempty, husable, disconnectCalls, hnone]
  · simp [hempty]

theorem emptiesClient_iff (world : World) (first second : Int32) (shutdown : Option Int32) :
    EmptiesClient world first second shutdown ↔
      world.client.objects = [] ∨
        world.client.objects.length = 1 ∧ ¬ Usable world first second := by
  have hobjects : (disconnectS first second shutdown world).client.objects =
      world.client.objects.tail := by
    rw [(disconnectS_effect first second shutdown world).1]
    rfl
  unfold EmptiesClient
  dsimp only
  rw [shutdown_mem_disconnectS_iff, hobjects]
  cases world.client.objects with
  | nil => simp
  | cons obj rest =>
    rw [List.tail_cons, List.length_cons]
    simp

/-- Two objects are created and then the client disconnects: one object is left. -/
theorem twoCreates_not_emptiesClient :
    ∃ world, Run (ofPartial exec) (newClient 0 invalidSocket 0) twoCreates world ∧
      ¬ EmptiesClient world 0 0 none := by
  have hworld : ∃ world, Run (ofPartial exec) (newClient 0 invalidSocket 0) twoCreates world ∧
      decide (world.client.objects.length = 2) = true :=
    exists_run_of_any (by decide)
  obtain ⟨world, hrun, htwo⟩ := hworld
  have hlength : world.client.objects.length = 2 := of_decide_eq_true htwo
  refine ⟨world, hrun, ?_⟩
  rintro ⟨hempty, -⟩
  rw [(disconnectS_effect 0 0 none world).1] at hempty
  have htail : world.client.objects.tail.length = 0 := by
    rw [List.length_eq_zero_iff]
    exact hempty
  rw [List.length_tail] at htail
  omega

end WinProcessThread.TcpClient
