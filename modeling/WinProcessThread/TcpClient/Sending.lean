import WinProcessThread.TcpClient.Disconnect

/-!
# Sending an object

`send_sock` compares a result it has not fetched yet with `SOCKET_ERROR` and returns in both
branches, so no byte is ever offered to `send`.  The loop behind the comparison is followed here
all the same: `sent_bytes` is never assigned in it, so it would offer the whole buffer again and
again.

`create` fills the address of the server into its local object behind the two copies, so neither
the record it passes on nor the one it stores has it.
-/

namespace WinProcessThread.TcpClient

variable {world after : World} {connectSocket : SOCKET} {buffer : List UInt8}
variable {nType : Int32} {szName : List Char} {indeterminate pending : Int32}

/-! ## `send_sock` with its loop -/

/-- What one `send` returns; a failure comes with the code of `WSAGetLastError`. -/
inductive SendResult
  | accepted (count : ℕ)
  | failed (lastError : Int32)
deriving DecidableEq, Repr

/-- What `send` has been called for: its results, the bytes it has taken, and the world. -/
structure Sent where
  results : List SendResult
  accepted : List (List UInt8)
  world : World
deriving DecidableEq, Repr

def socketError : Int32 := -1

/-- The message shows the buffer up to its first zero byte. -/
def sentLine (buffer : List UInt8) : Message :=
  ⟨.cout, "Sent: ".toList ++ (buffer.takeWhile (· ≠ 0)).map (fun byte ↦ Char.ofNat byte.toNat) ++
    "\n".toList⟩

/-- The failure branch, which stands before the loop and inside it. -/
def closeUnsent (connectSocket : SOCKET) (lastError : Int32) (world : World) : World :=
  let world := world.print (apiError "send failed: " lastError)
  (world.call (.closesocket connectSocket)).call .wsaCleanup

/-- The loop of `send_sock` and what follows it, on the results that `send` gives.  `none`: the loop
goes on when the results are used up. -/
def sendLoop (connectSocket : SOCKET) (buffer : List UInt8) (bufferSize sentBytes : Int32)
    (totalSent : Int32) (sent : Sent) : List SendResult → Option (Int32 × Sent)
  | [] =>
    if totalSent < bufferSize then
      none
    else
      some (0, { sent with world := sent.world.print (sentLine buffer) })
  | result :: rest =>
    if totalSent < bufferSize then
      let sent := { sent with results := sent.results ++ [result] }
      match result with
      | .failed lastError =>
        some (1, { sent with world := closeUnsent connectSocket lastError sent.world })
      | .accepted count =>
        let offered := buffer.drop totalSent.toInt.toNat
        let sent := { sent with accepted := sent.accepted ++ [offered.take count] }
        if sentBytes = -1 then
          some (1, { sent with world := sent.world.print sendFailed })
        else
          let totalSent := totalSent + sentBytes
          sendLoop connectSocket buffer bufferSize sentBytes totalSent sent rest
    else
      some (0, { sent with world := sent.world.print (sentLine buffer) })

/-- `send_sock` on a buffer of bytes. -/
def sendBytes (connectSocket : SOCKET) (buffer : List UInt8) (bufferSize lastError : Int32)
    (results : List SendResult) (world : World) : Option (Int32 × Sent) :=
  let sentBytes := 0
  let totalSent := 0
  let iResult := 0
  let sent : Sent := ⟨[], [], world⟩
  let early : Option (Int32 × Sent) :=
    if iResult = socketError then
      some (1, { sent with world := closeUnsent connectSocket lastError world })
    else
      some (1, { sent with world := world.print sendFailed })
  match early with
  | some result => some result
  | none => sendLoop connectSocket buffer bufferSize sentBytes totalSent sent results

/-- `send_sock` always says that sending has failed, without having tried. -/
theorem sendBytes_eq (connectSocket : SOCKET) (buffer : List UInt8) (bufferSize lastError : Int32)
    (results : List SendResult) (world : World) :
    sendBytes connectSocket buffer bufferSize lastError results world =
      some (1, ⟨[], [], world.print sendFailed⟩) := by
  have hearly : ¬ (0 : Int32) = socketError := by decide
  unfold sendBytes
  dsimp only
  rw [if_neg hearly]

/-- On a record, `send_sock` is this function. -/
theorem sendBytes_eq_sendSock (record : Object) (bufferSize lastError : Int32)
    (results : List SendResult) :
    sendBytes connectSocket buffer bufferSize lastError results world =
      some ((sendSock connectSocket record bufferSize world).1,
        ⟨[], [], (sendSock connectSocket record bufferSize world).2⟩) :=
  sendBytes_eq connectSocket buffer bufferSize lastError results world

/-- The loop itself would not end either: as long as no `send` fails, it offers the buffer from its
start again. -/
theorem sendLoop_stuck {bufferSize : Int32} (hsize : 0 < bufferSize) {results : List SendResult}
    (haccepted : ∀ result ∈ results, ∃ count, result = .accepted count) (sent : Sent) :
    sendLoop connectSocket buffer bufferSize 0 0 sent results = none := by
  induction results generalizing sent with
  | nil => exact if_pos hsize
  | cons result rest ih =>
    obtain ⟨hfirst, hrest⟩ := List.forall_mem_cons.mp haccepted
    obtain ⟨count, rfl⟩ := hfirst
    have hsent : ¬ (0 : Int32) = -1 := by decide
    rw [sendLoop, if_pos hsize]
    dsimp only
    rw [if_neg hsent]
    exact ih hrest _

/-- What sending a buffer is for: it succeeds exactly when no `send` fails, and then `send` has
taken the bytes of the buffer in order; otherwise the socket is closed. -/
structure Complete (connectSocket : SOCKET) (buffer : List UInt8) (before : World) (code : Int32)
    (sent : Sent) : Prop where
  succeeds : code = 0 ↔ ∀ result ∈ sent.results, ∃ count, result = .accepted count
  transmits : code = 0 → sent.accepted.flatten = buffer
  closes : code ≠ 0 → code = 1 ∧ .closesocket connectSocket ∈ callsSince before sent.world

/-- On this sequence of results `send_sock` ends, and what it has done is complete. -/
def TransmitsCompletely (connectSocket : SOCKET) (buffer : List UInt8)
    (bufferSize lastError : Int32) (results : ℕ → SendResult) (world : World) : Prop :=
  ∃ count code sent,
    sendBytes connectSocket buffer bufferSize lastError ((List.range count).map results) world =
        some (code, sent) ∧
      Complete connectSocket buffer world code sent

theorem not_transmitsCompletely (connectSocket : SOCKET) (buffer : List UInt8)
    (bufferSize lastError : Int32) (results : ℕ → SendResult) (world : World) :
    ¬ TransmitsCompletely connectSocket buffer bufferSize lastError results world := by
  intro hcompletely
  obtain ⟨count, code, sent, hsend, hcomplete⟩ := hcompletely
  rw [sendBytes_eq] at hsend
  obtain ⟨rfl, rfl⟩ := Prod.mk.inj (Option.some.inj hsend)
  -- No `send` has failed, because none was made.
  have hzero := hcomplete.succeeds.mpr fun result hresult ↦ absurd hresult List.not_mem_nil
  cases hzero

/-! ## `create` with any sending function -/

abbrev SendFunction := SOCKET → Object → Int32 → World → Int32 × World

/-- `transmit` with the sending function as a parameter. -/
def transmitWith (send : SendFunction) (obj buffer : Object) (pending : Int32) (world : World) :
    World :=
  let (state, world) := checkConnectionState world.client.connectSocket pending world
  if state = 0 then
    let _obj :=
      { obj with serverIp := world.client.serverIp, serverPort := world.client.serverPort }
    let (_, world) := send world.client.connectSocket buffer world.client.bufferSizePriv world
    world.print (objectSendTo world.client.serverIp world.client.serverPort)
  else
    world

/-- `create` with the sending function as a parameter. -/
def createWith (send : SendFunction) (nType : Int32) (szName : List Char) (indeterminate : Int32)
    (pending : Int32) (world : World) : Option World :=
  let nId := world.client.nextId
  let world := { world with client := { world.client with nextId := nId + 1 } }
  if szName.length < 32 then
    let obj : Object := ⟨nId, szName, nType, [], indeterminate⟩
    let world :=
      { world with client := { world.client with objects := world.client.objects ++ [obj] } }
    let world := world.print (createdObject obj.nId obj.szName)
    let (buffer, world) := serialize obj world
    some (transmitWith send obj buffer pending world)
  else
    none

theorem create_eq_createWith : create = createWith sendSock := rfl

/-- The world in which `create` calls the sending function. -/
def whenSending (nType : Int32) (szName : List Char) (indeterminate pending : Int32)
    (world : World) : World :=
  let obj := newObject world.client nType szName indeterminate
  { client := clientAfter world.client (.create nType szName indeterminate pending)
    log := world.log ++ [checkCall world pending]
    printed := world.printed ++ [createdObject obj.nId obj.szName] }

theorem transmitWith_eq (send : SendFunction) (obj buffer : Object) (pending : Int32)
    (world : World) :
    transmitWith send obj buffer pending world =
      if world.IsOpen ∧ pending = 0 then
        let sent := (send world.client.connectSocket buffer world.client.bufferSizePriv
          (world.call (checkCall world pending))).2
        sent.print (objectSendTo sent.client.serverIp sent.client.serverPort)
      else
        world.call (checkCall world pending) := by
  rw [transmitWith, checkConnectionState_eq]
  by_cases hopen : world.IsOpen ∧ pending = 0
  · simp [hopen]
  · simp [hopen]

/-- A name that fits is passed on in the new object when the connection is in order. -/
theorem createWith_eq (send : SendFunction) (nType indeterminate pending : Int32)
    (hname : szName.length < 32) (world : World) :
    createWith send nType szName indeterminate pending world =
      some
        (if world.IsOpen ∧ pending = 0 then
          let sent := (send world.client.connectSocket
            (newObject world.client nType szName indeterminate) sizeofObject
            (whenSending nType szName indeterminate pending world)).2
          sent.print (objectSendTo sent.client.serverIp sent.client.serverPort)
        else
          whenSending nType szName indeterminate pending world) := by
  rw [createWith, if_pos hname]
  exact congrArg some (transmitWith_eq send _ _ pending _)

/-! ## The report of `create` -/

/-- The messages printed since `world`. -/
def printedSince (world after : World) : List Message :=
  after.printed.drop world.printed.length

theorem printedSince_eq {new : List Message} (hprinted : after.printed = world.printed ++ new) :
    printedSince world after = new := by
  rw [printedSince, hprinted, List.drop_left]

/-- When `create` says that the object was sent, `send_sock` has returned zero. -/
def ReportsOnlySent (nType : Int32) (szName : List Char) (indeterminate pending : Int32)
    (world : World) : Prop :=
  ∀ after, create nType szName indeterminate pending world = some after →
    objectSendTo world.client.serverIp world.client.serverPort ∈ printedSince world after →
      (sendSock world.client.connectSocket (newObject world.client nType szName indeterminate)
        sizeofObject (whenSending nType szName indeterminate pending world)).1 = 0

theorem length_of_create
    (hcreate : create nType szName indeterminate pending world = some after) :
    szName.length < 32 := by
  by_contra hlong
  rw [create, if_neg hlong] at hcreate
  cases hcreate

theorem createdObject_ne_objectSendTo (id : Int32) (name ip : List Char) (port : Int32) :
    createdObject id name ≠ objectSendTo ip port := by
  intro hsame
  have hconsole := congrArg Message.console hsame
  cases hconsole

/-- The report is printed exactly when the connection is in order. -/
theorem objectSendTo_mem_iff
    (hcreate : create nType szName indeterminate pending world = some after) :
    objectSendTo world.client.serverIp world.client.serverPort ∈ printedSince world after ↔
      world.IsOpen ∧ pending = 0 := by
  rw [create_eq_createWith,
    createWith_eq sendSock nType indeterminate pending (length_of_create hcreate) world,
    Option.some.injEq] at hcreate
  have hother := createdObject_ne_objectSendTo world.client.nextId szName world.client.serverIp
    world.client.serverPort
  by_cases hopen : world.IsOpen ∧ pending = 0
  · rw [if_pos hopen] at hcreate
    have hprinted : after.printed = world.printed ++ [createdObject world.client.nextId szName,
        sendFailed, objectSendTo world.client.serverIp world.client.serverPort] := by
      rw [← hcreate]
      simp [sendSock, whenSending, World.print, newObject, clientAfter]
    rw [printedSince_eq hprinted]
    exact iff_of_true (by simp) hopen
  · rw [if_neg hopen] at hcreate
    have hprinted :
        after.printed = world.printed ++ [createdObject world.client.nextId szName] := by
      rw [← hcreate]
      rfl
    rw [printedSince_eq hprinted, List.mem_singleton]
    exact iff_of_false hother.symm hopen

theorem reportsOnlySent_iff (nType : Int32) (szName : List Char) (indeterminate pending : Int32)
    (world : World) :
    ReportsOnlySent nType szName indeterminate pending world ↔
      ¬ (szName.length < 32 ∧ world.IsOpen ∧ pending = 0) := by
  have hcode : ∀ record, ¬ (sendSock world.client.connectSocket record sizeofObject
      (whenSending nType szName indeterminate pending world)).1 = 0 := by
    intro record hzero
    cases hzero
  constructor
  · intro hreports hsends
    obtain ⟨hname, hopen⟩ := hsends
    have hcreate := createWith_eq sendSock nType indeterminate pending hname world
    exact hcode _ (hreports _ hcreate ((objectSendTo_mem_iff hcreate).mpr hopen))
  · intro hnot after hcreate hreport
    have hopen := (objectSendTo_mem_iff hcreate).mp hreport
    exact absurd ⟨length_of_create hcreate, hopen⟩ hnot

/-- **Transmission.**  `send_sock` never transmits a buffer, and `create` reports an object that was
not sent whenever the connection is in order. -/
theorem transmission (connectSocket : SOCKET) (buffer : List UInt8) (bufferSize lastError : Int32)
    (results : ℕ → SendResult) (nType : Int32) (szName : List Char) (indeterminate pending : Int32)
    (world : World) :
    ¬ TransmitsCompletely connectSocket buffer bufferSize lastError results world ∧
      (ReportsOnlySent nType szName indeterminate pending world ↔
        ¬ (szName.length < 32 ∧ world.IsOpen ∧ pending = 0)) :=
  ⟨not_transmitsCompletely connectSocket buffer bufferSize lastError results world,
    reportsOnlySent_iff nType szName indeterminate pending world⟩

/-- A client that has connected. -/
def connected : World :=
  connectS "10.0.0.1".toList 80 ⟨0, 4, 0, none⟩ (newClient 0 invalidSocket 0)

/-- `send` would take the two bytes one by one, and the socket is in order. -/
theorem connected_not_transmission :
    ¬ TransmitsCompletely 4 [1, 2] 2 0 (fun _ ↦ .accepted 1) connected ∧
      ¬ ReportsOnlySent 1 "a".toList 0 0 connected := by
  refine ⟨not_transmitsCompletely 4 [1, 2] 2 0 _ connected, ?_⟩
  rw [reportsOnlySent_iff, not_not]
  decide

/-! ## The record of an object -/

/-- `deserialize`: the bytes that `serialize` has copied are copied back. -/
def deserialize (buffer : Object) : Object := buffer

/-- The new object with the address of the server. -/
def addressedObject (client : Client) (nType : Int32) (szName : List Char) : Object :=
  ⟨client.nextId, szName, nType, client.serverIp, client.serverPort⟩

/-- Whatever the sending function does, `create` calls it with this record and then prints. -/
def PassesRecord (nType : Int32) (szName : List Char) (indeterminate pending : Int32)
    (world : World) (record : Object) : Prop :=
  ∃ (bufferSize : Int32) (before : World) (message : World → Message), ∀ send : SendFunction,
    createWith send nType szName indeterminate pending world =
      some
        ((send world.client.connectSocket record bufferSize before).2.print
          (message (send world.client.connectSocket record bufferSize before).2))

/-- A sending function that leaves the record it was given in the store. -/
def recordingSend : SendFunction := fun _ record _ world ↦
  (0, { world with client := { world.client with objects := [record] } })

/-- When the connection is in order, the record passed on is the object without its address. -/
theorem passesRecord_iff (hname : szName.length < 32) (hopen : world.IsOpen ∧ pending = 0)
    {record : Object} :
    PassesRecord nType szName indeterminate pending world record ↔
      record = newObject world.client nType szName indeterminate := by
  constructor
  · rintro ⟨bufferSize, before, message, hpasses⟩
    have hrecorded := hpasses recordingSend
    rw [createWith_eq recordingSend nType indeterminate pending hname world, if_pos hopen,
      Option.some.injEq] at hrecorded
    have hobjects := congrArg (fun world ↦ world.client.objects) hrecorded
    exact (List.singleton_inj.mp hobjects).symm
  · rintro rfl
    refine ⟨sizeofObject, whenSending nType szName indeterminate pending world,
      fun sent ↦ objectSendTo sent.client.serverIp sent.client.serverPort, fun send ↦ ?_⟩
    rw [createWith_eq send nType indeterminate pending hname world, if_pos hopen]

/-- The record passed to `send_sock` and the copy in the store both have the new identifier, the
given type and name, and the address of the server. -/
def RecordsAgree (nType : Int32) (szName : List Char) (indeterminate pending : Int32)
    (world : World) : Prop :=
  ∃ record after,
    PassesRecord nType szName indeterminate pending world record ∧
      create nType szName indeterminate pending world = some after ∧
      deserialize record = addressedObject world.client nType szName ∧
      after.client.objects.getLast? = some (addressedObject world.client nType szName)

theorem newObject_eq_addressedObject_iff (client : Client) (nType : Int32) (szName : List Char)
    (indeterminate : Int32) :
    newObject client nType szName indeterminate = addressedObject client nType szName ↔
      client.serverIp = [] ∧ indeterminate = client.serverPort := by
  simp [newObject, addressedObject, eq_comm]

theorem getLast_of_create
    (hcreate : create nType szName indeterminate pending world = some after) :
    after.client.objects.getLast? = some (newObject world.client nType szName indeterminate) := by
  rw [(create_effect hcreate).1]
  exact List.getLast?_concat

/-- **Records.**  With the connection in order and a name that fits, the record and the stored copy
have the address of the server exactly when it is what the local object happens to hold. -/
theorem recordsAgree_iff (nType indeterminate : Int32) (hname : szName.length < 32)
    (hcheck : (checkConnectionState world.client.connectSocket pending world).1 = 0) :
    RecordsAgree nType szName indeterminate pending world ↔
      world.client.serverIp = [] ∧ indeterminate = world.client.serverPort := by
  have hopen : world.IsOpen ∧ pending = 0 := by
    rw [checkConnectionState_eq] at hcheck
    by_contra hnot
    rw [if_neg hnot] at hcheck
    cases hcheck
  rw [← newObject_eq_addressedObject_iff world.client nType szName indeterminate]
  constructor
  · rintro ⟨record, after, -, hcreate, -, hstored⟩
    rw [getLast_of_create hcreate] at hstored
    exact Option.some.inj hstored
  · intro hsame
    have hcreate := createWith_eq sendSock nType indeterminate pending hname world
    refine ⟨_, _, (passesRecord_iff hname hopen).mpr rfl, hcreate, hsame, ?_⟩
    rw [getLast_of_create hcreate, hsame]

/-- A client whose address is empty, as the one of the local object is. -/
theorem recordsAgree_emptyAddress :
    RecordsAgree 1 "a".toList 80 0
      (connectS [] 80 ⟨0, 4, 0, none⟩ (newClient 0 invalidSocket 0)) :=
  (recordsAgree_iff 1 80 (by decide) (by decide)).mpr (by decide)

/-- The record has no address, even if the port happens to be right. -/
theorem connected_not_recordsAgree : ¬ RecordsAgree 1 "a".toList 80 0 connected := by
  rintro ⟨record, after, -, hcreate, -, hstored⟩
  rw [getLast_of_create hcreate, Option.some.injEq, newObject_eq_addressedObject_iff] at hstored
  exact absurd hstored.1 (by decide)

end WinProcessThread.TcpClient
