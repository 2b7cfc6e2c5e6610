import Mathlib
import WinProcessThread.TcpClient.Sending

/-!
# What `status` lists

`status` prints the positions of the vector where it means the identifiers of its objects.  The two
are the same numbers until an object is erased that is not the last one, or until an object is
created after an erasure.

That different numbers have different texts, `Int.repr_inj`, comes with no smaller import than the
whole of Mathlib.
-/

namespace WinProcessThread.TcpClient

open Transition

variable {world after : World} {first second : Int32}

/-! ## Positions -/

/-- The positions of a vector of this size, in order. -/
def positions (size : ℕ) : List ℤ :=
  (List.range size).map Nat.cast

theorem mem_positions {size : ℕ} {id : ℤ} : id ∈ positions size ↔ 0 ≤ id ∧ id < size := by
  simp only [positions, List.mem_map, List.mem_range]
  constructor
  · rintro ⟨i, hi, rfl⟩
    omega
  · intro hid
    exact ⟨id.toNat, by omega, by omega⟩

theorem positions_succ (size : ℕ) : positions (size + 1) = positions size ++ [(size : ℤ)] := by
  simp [positions, List.range_succ]

theorem nodup_positions (size : ℕ) : (positions size).Nodup :=
  List.nodup_range.map Nat.cast_injective

theorem count_positions (size : ℕ) (id : ℤ) :
    (positions size).count id = if id ∈ positions size then 1 else 0 :=
  (nodup_positions size).count

/-- When one of the positions is erased, positions of a shorter vector are left exactly when it was
the last. -/
theorem erase_positions_iff {size : ℕ} {erased : ℤ} (herased : erased ∈ positions (size + 1)) :
    (∀ id, id ∈ positions size ↔ id ∈ (positions (size + 1)).erase erased) ↔ erased = size := by
  have hbound := mem_positions.mp herased
  simp only [(nodup_positions (size + 1)).mem_erase_iff, mem_positions]
  constructor
  · intro hall
    have hself := hall erased
    omega
  · intro hlast id
    omega

theorem erase_last_position (size : ℕ) :
    (positions (size + 1)).erase (size : ℤ) = positions size := by
  have hfresh : (size : ℤ) ∉ positions size := by
    rw [mem_positions]
    omega
  rw [positions_succ, List.erase_append_right _ hfresh]
  simp

/-! ## The lines of `status` -/

/-- The line of an identifier. -/
def idLine (id : ℤ) : Message :=
  ⟨.cout, "Object with id ".toList ++ (toString id).toList ++ " , ".toList⟩

theorem idLine_injective : Function.Injective idLine := by
  intro id other hsame
  have htext := congrArg Message.text hsame
  have hdigits : (toString id).toList = (toString other).toList :=
    List.append_cancel_left (List.append_cancel_right htext)
  exact Int.repr_inj.mp (String.toList_inj.mp hdigits)

theorem map_objectWithId (size : ℕ) :
    (List.range size).map objectWithId = (positions size).map idLine := by
  rw [positions, List.map_map]
  rfl

theorem connectedTo_ne_idLine (ip : List Char) (port : Int32) (id : ℤ) :
    connectedTo ip port ≠ idLine id := by
  simp [idLine, connectedTo]

theorem numberOfObjects_ne_idLine (size : ℕ) (id : ℤ) : numberOfObjects size ≠ idLine id := by
  simp [idLine, numberOfObjects]

theorem newline_ne_idLine (id : ℤ) : newline ≠ idLine id := by
  simp [idLine, newline]

/-- What one `status` prints. -/
def statusLines (world : World) (first second : Int32) : List Message :=
  printedSince world (status first second world)

/-- `status` prints the line of every position of the store once. -/
theorem count_statusLines (world : World) (first second : Int32) (id : ℤ) :
    (statusLines world first second).count (idLine id) =
      (positions world.client.objects.length).count id := by
  have hlisting : (listing world.client.objects.length).count (idLine id) =
      (positions world.client.objects.length).count id := by
    unfold listing
    split
    next hempty => simp [hempty, positions, numberOfObjects_ne_idLine, newline_ne_idLine]
    next =>
      rw [List.count_append, map_objectWithId, List.count_map_of_injective _ _ idLine_injective]
      simp [numberOfObjects_ne_idLine, newline_ne_idLine]
  have hprinted := congrArg World.printed (status_eq first second world)
  rw [List.append_assoc] at hprinted
  rw [statusLines, printedSince_eq hprinted, List.count_append, hlisting]
  split
  · simp [connectedTo_ne_idLine]
  · simp

theorem idLine_mem_statusLines {id : ℤ} :
    idLine id ∈ statusLines world first second ↔ id ∈ positions world.client.objects.length := by
  rw [← List.count_pos_iff, count_statusLines, List.count_pos_iff]

/-! ## What `destroy` accepts -/

/-- `destroy` reports that it has destroyed the object. -/
def Destroys (id : Int32) (world : World) : Prop :=
  destroyedObject id.toInt ∈ printedSince world (destroy id world)

theorem destroyedObject_ne_objectNotFound (value : ℤ) (id : Int32) :
    destroyedObject value ≠ objectNotFound id := by
  simp [destroyedObject, objectNotFound]

theorem destroyedObject_ne_numberOfObjects (value : ℤ) (size : ℕ) :
    destroyedObject value ≠ numberOfObjects size := by
  simp [destroyedObject, numberOfObjects]

theorem destroys_iff {id : Int32} : Destroys id world ↔ world.client.Live id := by
  have hother := destroyedObject_ne_objectNotFound id.toInt id
  have hnumber := destroyedObject_ne_numberOfObjects id.toInt 0
  by_cases hlive : world.client.Live id
  · have hfound : (world.client.objects.findIdx? fun obj ↦ obj.nId = id).isSome := by
      simpa [List.findIdx?_isSome, Client.Live] using hlive
    obtain ⟨i, hi⟩ := Option.isSome_iff_exists.mp hfound
    have hsize : world.client.objects.length ≠ 0 := by
      obtain ⟨obj, hobj, -⟩ := hlive
      exact (List.length_pos_of_mem hobj).ne'
    have hprinted : (destroy id world).printed = world.printed ++ [destroyedObject id.toInt] := by
      simp [destroy, hsize, hi, World.print]
    rw [Destroys, printedSince_eq hprinted]
    exact iff_of_true (List.mem_singleton_self _) hlive
  · refine iff_of_false (fun hdestroys ↦ ?_) hlive
    have hfound : (world.client.objects.findIdx? fun obj ↦ obj.nId = id) = none := by
      simpa [Client.Live] using hlive
    by_cases hsize : world.client.objects.length = 0
    · have hprinted : (destroy id world).printed =
          world.printed ++ [numberOfObjects 0, objectNotFound id] := by
        simp [destroy, hsize, World.print]
      rw [Destroys, printedSince_eq hprinted] at hdestroys
      simp [hother, hnumber] at hdestroys
    · have hprinted : (destroy id world).printed = world.printed ++ [objectNotFound id] := by
        simp [destroy, hsize, hfound, World.print]
      rw [Destroys, printedSince_eq hprinted] at hdestroys
      simp [hother] at hdestroys

/-! ## Listing the live identifiers -/

/-- `status` prints the identifiers of the objects in the store, each once, and `destroy` accepts
the printed ones. -/
structure ListsLiveIds (world : World) : Prop where
  live : ∀ first second id,
    (statusLines world first second).count (idLine id) = if id ∈ world.client.ids then 1 else 0
  destroys : ∀ first second (id : Int32),
    idLine id.toInt ∈ statusLines world first second ↔ Destroys id world

theorem listsLiveIds_iff :
    ListsLiveIds world ↔
      ∀ id, id ∈ positions world.client.objects.length ↔ id ∈ world.client.ids := by
  constructor
  · intro hlists id
    have hcount := hlists.live 0 0 id
    rw [count_statusLines, count_positions] at hcount
    split_ifs at hcount with hposition hlive hlive
    · exact iff_of_true hposition hlive
    · exact iff_of_false hposition hlive
  · intro hall
    constructor
    · intro first second id
      rw [count_statusLines, count_positions]
      exact if_congr (hall id) rfl rfl
    · intro first second id
      rw [idLine_mem_statusLines, hall, destroys_iff, Client.live_iff]

/-- The identifiers in the store are its positions, in order. -/
def Client.Positional (client : Client) : Prop :=
  client.ids = positions client.objects.length

/-- The store has the positions as its identifiers, in some order. -/
def Client.Lists (client : Client) : Prop :=
  ∀ id, id ∈ positions client.objects.length ↔ id ∈ client.ids

theorem Client.Positional.lists {client : Client} (hpositional : client.Positional) :
    client.Lists := by
  intro id
  rw [hpositional]

/-- A command after which positions and identifiers agree when they have agreed before it: the next
identifier is the next position, and only the last object is taken away. -/
def KeepsPositions (world : World) : Command → Prop
  | .connectS _ _ _ => True
  | .create _ _ _ _ => world.client.nextId.toInt = world.client.objects.length
  | .destroy id => world.client.Live id → world.client.ids.getLast? = some id.toInt
  | .status _ _ => True
  | .disconnectS _ _ _ => world.client.objects.length ≤ 1

instance (world : World) : ∀ command, Decidable (KeepsPositions world command)
  | .connectS _ _ _ => inferInstanceAs (Decidable True)
  | .create _ _ _ _ => inferInstanceAs (Decidable (_ = _))
  | .destroy _ => inferInstanceAs (Decidable (_ → _))
  | .status _ _ => inferInstanceAs (Decidable True)
  | .disconnectS _ _ _ => inferInstanceAs (Decidable (_ ≤ _))

section Step

variable {client : Client} {nType indeterminate pending : Int32} {szName : List Char} {id : Int32}

@[simp]
theorem length_ids (client : Client) : client.ids.length = client.objects.length :=
  List.length_map _

theorem ids_create :
    (clientAfter client (.create nType szName indeterminate pending)).ids =
      client.ids ++ [client.nextId.toInt] := by
  simp [Client.ids, clientAfter, newObject]

theorem ids_destroy : (clientAfter client (.destroy id)).ids = client.ids.erase id.toInt := by
  have hsame : ∀ obj : Object, obj.nId = id ↔ obj.nId.toInt = id.toInt := fun obj ↦
    Int32.toInt_inj.symm
  simp only [Client.ids, clientAfter, List.erase_eq_eraseP, List.eraseP_map, hsame]
  congr 2
  ext obj
  exact decide_eq_decide.mpr eq_comm

/-- With the positions as identifiers, a `create` is fine exactly when it issues the next one. -/
theorem lists_create_iff (hpositional : client.Positional) :
    (clientAfter client (.create nType szName indeterminate pending)).Lists ↔
      client.nextId.toInt = client.objects.length := by
  have hlength : (clientAfter client (.create nType szName indeterminate pending)).objects.length =
      client.objects.length + 1 := List.length_append
  have hmem : ∀ id, id ∈ positions client.objects.length ↔ 0 ≤ id ∧ id < client.objects.length :=
    fun _ ↦ mem_positions
  unfold Client.Lists
  rw [hlength, ids_create, hpositional, positions_succ]
  simp only [List.mem_append, List.mem_singleton, hmem]
  constructor
  · intro hall
    have hlast := hall client.objects.length
    omega
  · intro hnext id
    rw [hnext]

theorem positional_create (hpositional : client.Positional)
    (hnext : client.nextId.toInt = client.objects.length) :
    (clientAfter client (.create nType szName indeterminate pending)).Positional := by
  have hlength : (clientAfter client (.create nType szName indeterminate pending)).objects.length =
      client.objects.length + 1 := List.length_append
  calc
    (clientAfter client (.create nType szName indeterminate pending)).ids =
        client.ids ++ [client.nextId.toInt] := ids_create
    _ = positions client.objects.length ++ [(client.objects.length : ℤ)] := by
      rw [hpositional, hnext]
    _ = positions (client.objects.length + 1) := (positions_succ _).symm
    _ = positions
          (clientAfter client (.create nType szName indeterminate pending)).objects.length := by
      rw [hlength]

theorem length_of_erase {rest : Client} {erased : ℤ} (hpositional : client.Positional)
    (herased : erased ∈ client.ids) (hrest : rest.ids = client.ids.erase erased) :
    client.ids = positions (rest.objects.length + 1) := by
  have hpos : 0 < client.ids.length := List.length_pos_of_mem herased
  have hlength : client.objects.length = rest.objects.length + 1 := by
    rw [← length_ids rest, hrest, List.length_erase_of_mem herased, ← length_ids client]
    omega
  rw [← hlength]
  exact hpositional

/-- Taking one object away is fine exactly when it has the last identifier. -/
theorem lists_erase_iff {rest : Client} {erased : ℤ} (hpositional : client.Positional)
    (herased : erased ∈ client.ids) (hrest : rest.ids = client.ids.erase erased) :
    rest.Lists ↔ client.ids.getLast? = some erased := by
  have hids := length_of_erase hpositional herased hrest
  rw [hids] at herased
  calc
    rest.Lists ↔ erased = rest.objects.length := by
      rw [Client.Lists, hrest, hids, erase_positions_iff herased]
    _ ↔ client.ids.getLast? = some erased := by
      rw [hids, positions_succ, List.getLast?_concat, Option.some.injEq, eq_comm]

theorem positional_erase {rest : Client} {erased : ℤ} (hpositional : client.Positional)
    (herased : erased ∈ client.ids) (hrest : rest.ids = client.ids.erase erased)
    (hlast : client.ids.getLast? = some erased) : rest.Positional := by
  have hids := length_of_erase hpositional herased hrest
  rw [hids, positions_succ, List.getLast?_concat, Option.some.injEq] at hlast
  calc
    rest.ids = (positions (rest.objects.length + 1)).erase erased := by
      rw [hrest, hids]
    _ = positions rest.objects.length := by
      rw [← hlast, erase_last_position]

/-- `disconnect_s` takes the object in position zero away. -/
theorem ids_disconnectS {first second : Int32} {shutdown : Option Int32}
    (hpositional : client.Positional) :
    (clientAfter client (.disconnectS first second shutdown)).ids = client.ids.erase 0 := by
  have htail : (clientAfter client (.disconnectS first second shutdown)).ids = client.ids.tail :=
    List.map_tail
  rw [htail, hpositional]
  cases client.objects.length with
  | zero => rfl
  | succ size => simp [positions, List.range_succ_eq_map]

/-- The identifier zero is the last one exactly when there is one object. -/
theorem getLast_eq_zero_iff (hpositional : client.Positional) (hobjects : client.objects ≠ []) :
    client.ids.getLast? = some 0 ↔ client.objects.length ≤ 1 := by
  rw [hpositional]
  cases hsize : client.objects.length with
  | zero => exact absurd (List.length_eq_zero_iff.mp hsize) hobjects
  | succ size =>
    rw [positions_succ, List.getLast?_concat, Option.some.injEq]
    omega

theorem clientAfter_disconnectS_of_empty {first second : Int32} {shutdown : Option Int32}
    (hobjects : client.objects = []) :
    clientAfter client (.disconnectS first second shutdown) = client := by
  rw [clientAfter, hobjects, List.tail_nil, ← hobjects]

theorem zero_mem_ids (hpositional : client.Positional) (hobjects : client.objects ≠ []) :
    (0 : ℤ) ∈ client.ids := by
  have hpos : 0 < client.objects.length := List.length_pos_iff.mpr hobjects
  rw [hpositional, mem_positions]
  omega

end Step

/-! ## Runs -/

/-- With the positions as identifiers, one command keeps the listing right exactly when it meets
the guard. -/
theorem lists_step_iff {command : Command} (hpositional : world.client.Positional)
    (hexec : exec world command = some after) :
    after.client.Lists ↔ KeepsPositions world command := by
  rw [exec_client hexec]
  cases command with
  | connectS ip port outcome => exact iff_of_true hpositional.lists trivial
  | create nType szName indeterminate pending => exact lists_create_iff hpositional
  | destroy id =>
    by_cases hlive : world.client.Live id
    · rw [lists_erase_iff hpositional (Client.live_iff.mp hlive) ids_destroy]
      exact ⟨fun hlast _ ↦ hlast, fun hkeeps ↦ hkeeps hlive⟩
    · rw [← destroy_client, destroy_not_live hlive]
      exact iff_of_true hpositional.lists fun hid ↦ absurd hid hlive
  | status first second => exact iff_of_true hpositional.lists trivial
  | disconnectS first second shutdown =>
    by_cases hobjects : world.client.objects = []
    · rw [clientAfter_disconnectS_of_empty hobjects]
      refine iff_of_true hpositional.lists ?_
      simp [KeepsPositions, hobjects]
    · have hzero := zero_mem_ids hpositional hobjects
      rw [lists_erase_iff hpositional hzero (ids_disconnectS hpositional),
        getLast_eq_zero_iff hpositional hobjects]
      rfl

theorem positional_step {command : Command} (hpositional : world.client.Positional)
    (hlists : after.client.Lists) (hexec : exec world command = some after) :
    after.client.Positional := by
  have hkeeps := (lists_step_iff hpositional hexec).mp hlists
  rw [exec_client hexec] at hlists ⊢
  cases command with
  | connectS ip port outcome => exact hpositional
  | create nType szName indeterminate pending => exact positional_create hpositional hkeeps
  | destroy id =>
    by_cases hlive : world.client.Live id
    · exact positional_erase hpositional (Client.live_iff.mp hlive) ids_destroy (hkeeps hlive)
    · rw [← destroy_client, destroy_not_live hlive]
      exact hpositional
  | status first second => exact hpositional
  | disconnectS first second shutdown =>
    by_cases hobjects : world.client.objects = []
    · rw [clientAfter_disconnectS_of_empty hobjects]
      exact hpositional
    · have hzero := zero_mem_ids hpositional hobjects
      exact positional_erase hpositional hzero (ids_disconnectS hpositional)
        ((getLast_eq_zero_iff hpositional hobjects).mpr hkeeps)

/-- **Listing.**  `status` lists the live identifiers in all states of a run from a fresh client
exactly when every `create` of the run issues the next position, every `destroy` that finds its
object finds the last one, and the client disconnects with one object at most. -/
theorem listing_of_run {serverPort : Int32} {connectSocket : SOCKET} {bufferSizePriv : Int32}
    {commands : List Command}
    (hrun : Run (ofPartial exec) (newClient serverPort connectSocket bufferSizePriv) commands
      world) :
    EveryState exec (newClient serverPort connectSocket bufferSizePriv) ListsLiveIds commands ↔
      EveryStep exec (newClient serverPort connectSocket bufferSizePriv) KeepsPositions
        commands := by
  apply hrun.everyState_iff_everyStep ListsLiveIds fun world ↦ world.client.Positional
  · exact listsLiveIds_iff.mpr fun _ ↦ Iff.rfl
  · rfl
  · intro before command after hpositional hexec
    exact listsLiveIds_iff.trans (lists_step_iff hpositional hexec)
  · intro before command after hlists hpositional hexec
    exact positional_step hpositional (listsLiveIds_iff.mp hlists) hexec

/-- Destroying the second of two objects leaves the listing right. -/
theorem destroyLast_listing :
    EveryState exec (newClient 0 invalidSocket 0) ListsLiveIds (twoCreates ++ [.destroy 1]) := by
  have hworld : ∃ world, Run (ofPartial exec) (newClient 0 invalidSocket 0)
      (twoCreates ++ [.destroy 1]) world ∧ decide (world.client.Live 0) = true :=
    exists_run_of_any (by decide)
  obtain ⟨world, hrun, -⟩ := hworld
  exact (listing_of_run hrun).mpr (by decide)

/-- Once the first of two objects is destroyed, `status` prints zero where one is left. -/
theorem destroyFirst_not_listing :
    ∃ world, Run (ofPartial exec) (newClient 0 invalidSocket 0) (twoCreates ++ [.destroy 0]) world ∧
      ¬ ListsLiveIds world := by
  have hworld : ∃ world, Run (ofPartial exec) (newClient 0 invalidSocket 0)
      (twoCreates ++ [.destroy 0]) world ∧
        decide (0 ∈ positions world.client.objects.length ∧ 0 ∉ world.client.ids) = true :=
    exists_run_of_any (by decide)
  obtain ⟨world, hrun, hids⟩ := hworld
  obtain ⟨hposition, hgone⟩ := of_decide_eq_true hids
  refine ⟨world, hrun, fun hlists ↦ hgone ?_⟩
  exact (listsLiveIds_iff.mp hlists 0).mp hposition

end WinProcessThread.TcpClient
