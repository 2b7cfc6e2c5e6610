import WinProcessThread.TcpClient.Effects
import WinProcessThread.Transition.Run
import WinProcessThread.Store.Issuer

/-!
# The object store

`create` takes its identifier from `next_id`, `destroy` erases the first object with the given
identifier, and `disconnect_s` erases the object at the front.  The identifiers of the store follow
an issuer as long as `next_id` does not overflow, so they increase along the vector, `destroy`
finds the only object it can mean, and no identifier comes back once it has left.
-/

namespace WinProcessThread.TcpClient

open Transition Store

variable {world after : World} {commands : List Command}

/-- The store holds an object with this identifier. -/
def Client.Live (client : Client) (id : Int32) : Prop :=
  ∃ obj ∈ client.objects, obj.nId = id

instance (client : Client) (id : Int32) : Decidable (client.Live id) :=
  inferInstanceAs (Decidable (∃ obj ∈ client.objects, obj.nId = id))

/-- The identifiers of the store in vector order, as numbers. -/
def Client.ids (client : Client) : List ℤ :=
  client.objects.map fun obj ↦ obj.nId.toInt

theorem Client.live_iff {client : Client} {id : Int32} :
    client.Live id ↔ id.toInt ∈ client.ids := by
  simp [Live, ids, Int32.toInt_inj]

/-- The store uses the identifiers the issuer has in use, and `next_id` is the next one. -/
structure Tracks (client : Client) (issuer : Issuer) : Prop where
  live : client.ids = issuer.live
  next : client.nextId.toInt = issuer.next

def Command.isCreate : Command → Bool
  | .create _ _ _ _ => true
  | _ => false

/-- The number of `create` commands. -/
def creates (commands : List Command) : ℕ :=
  commands.countP Command.isCreate

theorem tracks_newClient (serverPort : Int32) (connectSocket : SOCKET) (bufferSizePriv : Int32) :
    Tracks (newClient serverPort connectSocket bufferSizePriv).client .fresh :=
  ⟨rfl, rfl⟩

/-- Below the largest `int`, the counter is increased without a wrap. -/
theorem toInt_succ {counter : Int32} (hnonneg : 0 ≤ counter.toInt)
    (hlt : counter.toInt + 1 < 2 ^ 31) : (counter + 1).toInt = counter.toInt + 1 := by
  have hone : (1 : Int32).toInt = 1 := rfl
  rw [Int32.toInt_add, hone]
  exact Int.bmod_eq_of_le (by omega) (by omega)

theorem Tracks.create {client : Client} {issuer : Issuer} (htracks : Tracks client issuer)
    (hroom : issuer.next + 1 < 2 ^ 31) (nType : Int32) (szName : List Char)
    (indeterminate pending : Int32) :
    Tracks (clientAfter client (.create nType szName indeterminate pending)) issuer.issue := by
  have hnext : client.nextId.toInt = issuer.next := htracks.next
  have hnonneg : 0 ≤ issuer.next := issuer.next_nonneg
  constructor
  · have hids : client.ids ++ [client.nextId.toInt] = issuer.live ++ [issuer.next] := by
      rw [htracks.live, hnext]
    simpa [Client.ids, clientAfter, newObject, Issuer.issue] using hids
  · calc
      (client.nextId + 1).toInt = client.nextId.toInt + 1 := toInt_succ (by omega) (by omega)
      _ = issuer.next + 1 := by rw [hnext]

/-- A command that only takes objects away releases their identifiers. -/
theorem Tracks.release {client : Client} {issuer : Issuer} (htracks : Tracks client issuer)
    {objects : List Object} (hobjects : objects.Sublist client.objects) :
    ∃ hrest, Tracks { client with objects := objects }
      (issuer.release (objects.map fun obj ↦ obj.nId.toInt) hrest) := by
  have hrest : (objects.map fun obj ↦ obj.nId.toInt).Sublist issuer.live := by
    rw [← htracks.live]
    exact hobjects.map _
  exact ⟨hrest, rfl, htracks.next⟩

/-- One command moves the issuer on: by one for a `create`, and never backwards. -/
theorem Tracks.step {issuer : Issuer} {command : Command}
    (htracks : Tracks world.client issuer)
    (hroom : issuer.next + (if command.isCreate then 1 else 0) < 2 ^ 31)
    (hexec : exec world command = some after) :
    ∃ next : Issuer, Tracks after.client next ∧
      next.next = issuer.next + (if command.isCreate then 1 else 0) ∧
      ∀ id, issuer.Retired id → next.Retired id := by
  rw [exec_client hexec]
  cases command with
  | connectS ip port outcome =>
    exact ⟨issuer, ⟨htracks.live, htracks.next⟩, by simp [Command.isCreate], fun _ h ↦ h⟩
  | create nType szName indeterminate pending =>
    exact ⟨issuer.issue, htracks.create hroom nType szName indeterminate pending,
      by simp [Command.isCreate, Issuer.issue], fun _ ↦ Issuer.Retired.issue⟩
  | destroy id =>
    obtain ⟨hrest, hnext⟩ := htracks.release (List.eraseP_sublist (p := fun obj ↦ obj.nId = id))
    exact ⟨_, hnext, by simp [Command.isCreate, Issuer.release], fun _ ↦ .release hrest⟩
  | status first second =>
    exact ⟨issuer, htracks, by simp [Command.isCreate], fun _ h ↦ h⟩
  | disconnectS first second shutdown =>
    obtain ⟨hrest, hnext⟩ := htracks.release (List.tail_sublist world.client.objects)
    exact ⟨_, hnext, by simp [Command.isCreate, Issuer.release], fun _ ↦ .release hrest⟩

theorem creates_append (front rest : List Command) :
    creates (front ++ rest) = creates front + creates rest :=
  List.countP_append

theorem Tracks.run {issuer : Issuer} (htracks : Tracks world.client issuer)
    (hrun : Run (ofPartial exec) world commands after)
    (hroom : issuer.next + creates commands < 2 ^ 31) :
    ∃ next : Issuer, Tracks after.client next ∧ next.next = issuer.next + creates commands ∧
      ∀ id, issuer.Retired id → next.Retired id := by
  induction hrun with
  | refl => exact ⟨issuer, htracks, by simp [creates], fun _ h ↦ h⟩
  | @snoc earlier command middle finish hearlier hlast ih =>
    have hsplit : (creates (earlier ++ [command]) : ℤ) =
        creates earlier + (if command.isCreate then 1 else 0) := by
      rw [creates_append]
      simp [creates, List.countP_singleton]
    rw [hsplit] at hroom
    obtain ⟨before, hbefore, hnext, hretired⟩ := ih (by split at hroom <;> omega)
    obtain ⟨next, hafter, hlastNext, hlastRetired⟩ :=
      hbefore.step (by rw [hnext]; omega) hlast
    refine ⟨next, hafter, ?_, fun id hid ↦ hlastRetired id (hretired id hid)⟩
    calc
      next.next = before.next + (if command.isCreate then 1 else 0) := hlastNext
      _ = issuer.next + creates earlier + (if command.isCreate then 1 else 0) := by rw [hnext]
      _ = issuer.next + creates (earlier ++ [command]) := by
        rw [hsplit]
        omega

theorem Tracks.increasing {client : Client} {issuer : Issuer} (htracks : Tracks client issuer) :
    client.objects.Pairwise fun earlier later ↦ earlier.nId < later.nId := by
  have hids : client.ids.Pairwise (· < ·) := htracks.live ▸ issuer.increasing
  exact (List.pairwise_map.mp hids).imp fun hlt ↦ Int32.lt_iff_toInt_lt.mpr hlt

theorem Tracks.bounded {client : Client} {issuer : Issuer} (htracks : Tracks client issuer)
    {obj : Object} (hobj : obj ∈ client.objects) : 0 ≤ obj.nId ∧ obj.nId < client.nextId := by
  have hmember : obj.nId.toInt ∈ issuer.live := by
    rw [← htracks.live]
    exact List.mem_map_of_mem hobj
  obtain ⟨hnonneg, hlt⟩ := issuer.bounded _ hmember
  rw [← htracks.next] at hlt
  exact ⟨Int32.le_iff_toInt_le.mpr hnonneg, Int32.lt_iff_toInt_lt.mpr hlt⟩

/-- When identifiers increase, `destroy` removes the only object with the identifier. -/
theorem destroy_live {front rest : List Object} {obj : Object}
    (hincreasing : world.client.objects.Pairwise fun earlier later ↦ earlier.nId < later.nId)
    (hobjects : world.client.objects = front ++ obj :: rest) :
    (destroy obj.nId world).client = { world.client with objects := front ++ rest } ∧
      ∀ other ∈ front ++ rest, other.nId ≠ obj.nId := by
  rw [hobjects] at hincreasing
  obtain ⟨-, htail, hfront⟩ := List.pairwise_append.mp hincreasing
  have hbefore : ∀ other ∈ front, other.nId ≠ obj.nId := fun other hother ↦
    Int32.ne_of_lt (hfront other hother obj List.mem_cons_self)
  have hbehind : ∀ other ∈ rest, other.nId ≠ obj.nId := fun other hother ↦
    (Int32.ne_of_lt (List.rel_of_pairwise_cons htail hother)).symm
  constructor
  · have herase : world.client.objects.eraseP (fun other ↦ other.nId = obj.nId) =
        front ++ rest := by
      have hskip : ∀ other ∈ front, ¬ decide (other.nId = obj.nId) = true := by
        simpa using hbefore
      rw [hobjects, List.eraseP_append_right _ hskip, List.eraseP_cons_of_pos (by simp)]
    rw [destroy_client, clientAfter, herase]
  · intro other hother
    rcases List.mem_append.mp hother with hmember | hmember
    · exact hbefore other hmember
    · exact hbehind other hmember

theorem destroy_not_live {id : Int32} (hid : ¬ world.client.Live id) :
    (destroy id world).client = world.client := by
  have herase : world.client.objects.eraseP (fun obj ↦ obj.nId = id) = world.client.objects := by
    apply List.eraseP_of_forall_not
    intro obj hobj hsame
    exact hid ⟨obj, hobj, by simpa using hsame⟩
  rw [destroy_client, clientAfter, herase]

/-- An identifier below the counter that is not live stays out of the store, because the counter
only grows. -/
theorem Tracks.not_live_again {issuer : Issuer} {next : List Command} {future : World} {id : Int32}
    (htracks : Tracks world.client issuer) (hold : id.toInt < issuer.next)
    (hgone : ¬ world.client.Live id)
    (hfuture : Run (ofPartial exec) world next future)
    (hroom : issuer.next + creates next < 2 ^ 31) : ¬ future.client.Live id := by
  rw [Client.live_iff, htracks.live] at hgone
  have hretired : issuer.Retired id.toInt := ⟨hold, hgone⟩
  obtain ⟨last, hlast, -, hkeep⟩ := htracks.run hfuture hroom
  rw [Client.live_iff, hlast.live]
  exact (hkeep _ hretired).2

/-- **The object store.**  After every run from a fresh client with fewer than `2 ^ 31` creates, the
identifiers increase along the vector and lie in `[0, next_id)`; `destroy` removes exactly the one
object with a live identifier and otherwise changes nothing; and an identifier that has been in the
store and has left it does not appear in any continuation of the run. -/
theorem objectStore_of_run {serverPort : Int32} {connectSocket : SOCKET} {bufferSizePriv : Int32}
    (hrun : Run (ofPartial exec) (newClient serverPort connectSocket bufferSizePriv) commands world)
    (hcreates : creates commands < 2 ^ 31) :
    (world.client.objects.Pairwise fun earlier later ↦ earlier.nId < later.nId) ∧
      (∀ obj ∈ world.client.objects, 0 ≤ obj.nId ∧ obj.nId < world.client.nextId) ∧
      (∀ id,
        (∀ front obj rest, world.client.objects = front ++ obj :: rest → obj.nId = id →
          (destroy id world).client = { world.client with objects := front ++ rest } ∧
            ∀ other ∈ front ++ rest, other.nId ≠ id) ∧
        (¬ world.client.Live id → (destroy id world).client = world.client) ∧
        (destroy id world).log = world.log) ∧
      (∀ earlier later past,
        commands = earlier ++ later →
        Run (ofPartial exec) (newClient serverPort connectSocket bufferSizePriv) earlier past →
        ∀ id, past.client.Live id → ¬ world.client.Live id →
          ∀ next future, Run (ofPartial exec) world next future →
            creates (commands ++ next) < 2 ^ 31 → ¬ future.client.Live id) := by
  have hfresh := tracks_newClient serverPort connectSocket bufferSizePriv
  obtain ⟨issuer, htracks, hnext, -⟩ := hfresh.run hrun (by
    change (0 : ℤ) + creates commands < 2 ^ 31
    omega)
  refine ⟨htracks.increasing, fun _ ↦ htracks.bounded, ?_, ?_⟩
  · intro id
    refine ⟨?_, destroy_not_live, destroy_log id world⟩
    rintro front obj rest hobjects rfl
    exact destroy_live htracks.increasing hobjects
  · intro earlier later past hsplit hpast id hlive hgone next future hfuture hroom
    rw [creates_append] at hroom
    have hbound : creates commands = creates earlier + creates later := by
      rw [hsplit, creates_append]
    have hzero : Issuer.fresh.next = 0 := rfl
    obtain ⟨before, hbefore, hbeforeNext, -⟩ := hfresh.run hpast (by omega)
    have hold : id.toInt < issuer.next := by
      rw [Client.live_iff, hbefore.live] at hlive
      have hlt := (before.bounded _ hlive).2
      omega
    exact htracks.not_live_again hold hgone hfuture (by omega)

def twoCreates : List Command :=
  [.create 1 "a".toList 0 0, .create 2 "b".toList 0 0]

/-- Once the first of two objects is destroyed, no later object has its identifier. -/
theorem objectStore_of_run_twoCreates :
    ∃ world, Run (ofPartial exec) (newClient 0 invalidSocket 0) (twoCreates ++ [.destroy 0]) world ∧
      (world.client.objects.Pairwise fun earlier later ↦ earlier.nId < later.nId) ∧
      ∀ next future, Run (ofPartial exec) world next future →
        creates (twoCreates ++ [.destroy 0] ++ next) < 2 ^ 31 → ¬ future.client.Live 0 := by
  have hpast : ∃ past, Run (ofPartial exec) (newClient 0 invalidSocket 0) twoCreates past ∧
      decide (past.client.Live 0) = true :=
    exists_run_of_any (by decide)
  have hworld : ∃ world,
      Run (ofPartial exec) (newClient 0 invalidSocket 0) (twoCreates ++ [.destroy 0]) world ∧
        decide (¬ world.client.Live 0) = true :=
    exists_run_of_any (by decide)
  obtain ⟨past, hpast, hlive⟩ := hpast
  obtain ⟨world, hworld, hgone⟩ := hworld
  obtain ⟨hincreasing, -, -, hnever⟩ := objectStore_of_run hworld (by decide)
  refine ⟨world, hworld, hincreasing, ?_⟩
  exact hnever twoCreates [.destroy 0] past rfl hpast 0 (of_decide_eq_true hlive)
    (of_decide_eq_true hgone)

end WinProcessThread.TcpClient
