import WinProcessThread.TcpClient.Listing

/-!
# The store as the console tells it

The lines about created and destroyed objects are the only record of the store outside the client.
Read back in order they rebuild its identifiers, as long as `disconnect` is right about the object
it names: it always names the identifier 0, whatever stands at the front of the vector.  Once it has
named the wrong one, no later command brings the record and the store together again.
-/

namespace WinProcessThread.TcpClient

open Transition Store

variable {world after : World} {commands : List Command}

/-! ## Reading the lines back -/

inductive StoreLine
  | created (id : ℤ)
  | destroyed (id : ℤ)
deriving DecidableEq, Repr

/-- The number up to the next blank or line break. -/
def readId (text : List Char) : Option ℤ :=
  (String.ofList (text.takeWhile fun char ↦ char ≠ ' ' ∧ char ≠ '\n')).toInt?

def readLine (message : Message) : Option StoreLine :=
  match message.console with
  | .wcout =>
    (message.text.dropPrefix? "Created object with id ".toList).bind fun rest ↦
      (readId rest).map .created
  | .cout =>
    (message.text.dropPrefix? "Destroyed object with id ".toList).bind fun rest ↦
      (readId rest).map .destroyed
  | .cerr => none

def storeLines (printed : List Message) : List StoreLine :=
  printed.filterMap readLine

/-- A reader who keeps a list of the identifiers. -/
def StoreLine.apply (ids : List ℤ) : StoreLine → List ℤ
  | .created id => ids ++ [id]
  | .destroyed id => ids.erase id

def replay (lines : List StoreLine) : List ℤ :=
  lines.foldl StoreLine.apply []

theorem replay_append (lines later : List StoreLine) :
    replay (lines ++ later) = later.foldl StoreLine.apply (replay lines) :=
  List.foldl_append

theorem storeLines_append (printed later : List Message) :
    storeLines (printed ++ later) = storeLines printed ++ storeLines later :=
  List.filterMap_append

/-! ### The two lines -/

theorem plain_of_mem_toString {id : ℤ} {char : Char} (hchar : char ∈ (toString id).toList) :
    char ≠ ' ' ∧ char ≠ '\n' := by
  have hdigit : ∀ number : ℕ, ∀ char ∈ Nat.toDigits 10 number, char ≠ ' ' ∧ char ≠ '\n' := by
    intro number char hmember
    have hisDigit : char.isDigit := Nat.isDigit_of_mem_toDigits (by decide) (by decide) hmember
    constructor
    · rintro rfl
      exact absurd hisDigit (by decide)
    · rintro rfl
      exact absurd hisDigit (by decide)
  cases id with
  | ofNat number =>
    apply hdigit number char
    simpa [toString, Int.repr, Nat.repr] using hchar
  | negSucc number =>
    rcases (by simpa [toString, Int.repr, Nat.repr] using hchar :
      char = '-' ∨ char ∈ Nat.toDigits 10 (number + 1)) with rfl | hmember
    · decide
    · exact hdigit (number + 1) char hmember

/-- A number is read back whatever follows the blank or the line break behind it. -/
theorem readId_toString (id : ℤ) (stop : Char) (hstop : ¬ (stop ≠ ' ' ∧ stop ≠ '\n'))
    (rest : List Char) : readId ((toString id).toList ++ stop :: rest) = some id := by
  have hplain : ∀ char ∈ (toString id).toList, decide (char ≠ ' ' ∧ char ≠ '\n') = true :=
    fun char hchar ↦ decide_eq_true (plain_of_mem_toString hchar)
  have hnumber : ((toString id).toList ++ stop :: rest).takeWhile
      (fun char ↦ char ≠ ' ' ∧ char ≠ '\n') = (toString id).toList := by
    rw [List.takeWhile_append_of_pos hplain, List.takeWhile_cons_of_neg (by simpa using hstop),
      List.append_nil]
  rw [readId, hnumber, String.ofList_toList]
  exact Int.toInt?_repr id

theorem readLine_createdObject (id : Int32) (name : List Char) :
    readLine (createdObject id name) = some (.created id.toInt) := by
  have hread := readId_toString id.toInt ' ' (by simp)
    ("and name ".toList ++ name ++ "\n".toList)
  have htext : (createdObject id name).text = "Created object with id ".toList ++
      ((toString id.toInt).toList ++ ' ' :: ("and name ".toList ++ name ++ "\n".toList)) := by
    simp [createdObject, decimal]
  have hrest : (createdObject id name).text.dropPrefix? "Created object with id ".toList =
      some ((toString id.toInt).toList ++ ' ' :: ("and name ".toList ++ name ++ "\n".toList)) := by
    rw [htext]
    exact List.dropPrefix?_append_of_beq _ BEq.rfl
  change ((createdObject id name).text.dropPrefix? "Created object with id ".toList).bind _ = _
  rw [hrest, Option.bind_some, hread]
  rfl

theorem readLine_destroyedObject (id : ℤ) :
    readLine (destroyedObject id) = some (.destroyed id) := by
  have hread := readId_toString id '\n' (by simp) []
  have hrest : (destroyedObject id).text.dropPrefix? "Destroyed object with id ".toList =
      some ((toString id).toList ++ ['\n']) := by
    have htext : (destroyedObject id).text =
        "Destroyed object with id ".toList ++ ((toString id).toList ++ ['\n']) := by
      simp [destroyedObject]
    rw [htext]
    exact List.dropPrefix?_append_of_beq _ BEq.rfl
  change ((destroyedObject id).text.dropPrefix? "Destroyed object with id ".toList).bind _ = _
  rw [hrest, Option.bind_some, hread]
  rfl

/-! ### The other lines -/

theorem readLine_of_ne {char : Char} (hchar : char ≠ 'D') (rest : List Char) :
    readLine ⟨.cout, char :: rest⟩ = none := by
  have hnot : (char :: rest).dropPrefix? "Destroyed object with id ".toList = none := by
    simp [List.dropPrefix?, hchar]
  change ((char :: rest).dropPrefix? "Destroyed object with id ".toList).bind _ = none
  rw [hnot]
  rfl

section OtherLines

variable (ip : List Char) (port id : Int32)

@[simp]
theorem readLine_apiError (text : String) (code : Int32) : readLine (apiError text code) = none :=
  rfl

@[simp]
theorem readLine_nowConnected : readLine (nowConnected ip port) = none :=
  readLine_of_ne (by decide) _

@[simp]
theorem readLine_notConnected : readLine (notConnected ip port) = none :=
  readLine_of_ne (by decide) _

@[simp]
theorem readLine_connectedTo : readLine (connectedTo ip port) = none :=
  readLine_of_ne (by decide) _

@[simp]
theorem readLine_disconnectedFrom : readLine (disconnectedFrom ip port) = none := by
  simp [readLine, disconnectedFrom, List.dropPrefix?]

@[simp]
theorem readLine_noConnections : readLine noConnections = none :=
  readLine_of_ne (by decide) _

@[simp]
theorem readLine_objectSendTo : readLine (objectSendTo ip port) = none :=
  readLine_of_ne (by decide) _

@[simp]
theorem readLine_numberOfObjects (size : ℕ) : readLine (numberOfObjects size) = none :=
  readLine_of_ne (by decide) _

@[simp]
theorem readLine_objectNotFound : readLine (objectNotFound id) = none :=
  readLine_of_ne (by decide) _

@[simp]
theorem readLine_objectWithId (i : ℕ) : readLine (objectWithId i) = none :=
  readLine_of_ne (by decide) _

@[simp]
theorem readLine_newline : readLine newline = none :=
  readLine_of_ne (by decide) _

@[simp]
theorem readLine_sendFailed : readLine sendFailed = none :=
  readLine_of_ne (by decide) _

end OtherLines

/-! ## What a command tells -/

/-- The lines about objects that a command prints. -/
def linesOf (world : World) : Command → List StoreLine
  | .connectS _ _ _ => []
  | .create _ _ _ _ => [.created world.client.nextId.toInt]
  | .destroy id => if world.client.Live id then [.destroyed id.toInt] else []
  | .status _ _ => []
  | .disconnectS _ _ _ => if world.client.objects = [] then [] else [.destroyed 0]

theorem storeLines_print (world : World) (message : Message) :
    storeLines (world.print message).printed =
      storeLines world.printed ++ (readLine message).toList := by
  rw [World.print, storeLines_append]
  cases hread : readLine message with
  | none => simp [storeLines, hread]
  | some line => simp [storeLines, hread]

theorem storeLines_print_of_none {message : Message} (hread : readLine message = none)
    (world : World) : storeLines (world.print message).printed = storeLines world.printed := by
  rw [storeLines_print, hread, Option.toList_none, List.append_nil]

theorem storeLines_call (world : World) (call : Call) :
    storeLines (world.call call).printed = storeLines world.printed := rfl

theorem storeLines_wsta (iResult : Int32) (world : World) :
    storeLines (wsta iResult world).printed = storeLines world.printed := by
  unfold wsta
  dsimp only
  split
  · rw [storeLines_print_of_none (readLine_apiError _ _), storeLines_call]
  · rw [storeLines_call]

theorem storeLines_sockCli (result : SOCKET) (lastError : Int32) (world : World) :
    storeLines (sockCli result lastError world).printed = storeLines world.printed := by
  unfold sockCli
  dsimp only
  split
  · rw [storeLines_call, storeLines_print_of_none (readLine_apiError _ _)]
    rfl
  · rfl

theorem storeLines_callOrClose (connectSocket : SOCKET) (call : Option Int32 → Call)
    (errorText : String) (lastError : Option Int32) (world : World) :
    storeLines (callOrClose connectSocket call errorText lastError world).2.printed =
      storeLines world.printed := by
  unfold callOrClose
  dsimp only
  split
  · rw [storeLines_call, storeLines_call, storeLines_print_of_none (readLine_apiError _ _),
      storeLines_call]
  · rw [storeLines_call]

theorem storeLines_connectS (ip : List Char) (port : Int32) (outcome : ConnectOutcome)
    (world : World) :
    storeLines (connectS ip port outcome world).printed = storeLines world.printed := by
  unfold connectS connectToo
  dsimp only
  split
  · rw [storeLines_print_of_none (readLine_nowConnected _ _), storeLines_callOrClose,
      storeLines_sockCli, storeLines_wsta]
  · rw [storeLines_print_of_none (readLine_notConnected _ _), storeLines_callOrClose,
      storeLines_sockCli, storeLines_wsta]

theorem storeLines_create {nType : Int32} {szName : List Char} {indeterminate pending : Int32}
    (hcreate : create nType szName indeterminate pending world = some after) :
    storeLines after.printed =
      storeLines world.printed ++ [.created world.client.nextId.toInt] := by
  unfold create at hcreate
  dsimp only at hcreate
  split at hcreate
  · rw [transmit_eq, Option.some.injEq] at hcreate
    split at hcreate
    · rw [← hcreate, storeLines_print_of_none (readLine_objectSendTo _ _),
        storeLines_print_of_none readLine_sendFailed, storeLines_call]
      exact (storeLines_print _ _).trans (by rw [readLine_createdObject]; rfl)
    · rw [← hcreate, storeLines_call]
      exact (storeLines_print _ _).trans (by rw [readLine_createdObject]; rfl)
  · cases hcreate

theorem storeLines_destroy (id : Int32) (world : World) :
    storeLines (destroy id world).printed =
      storeLines world.printed ++
        if world.client.Live id then [.destroyed id.toInt] else [] := by
  have hfind : (world.client.objects.findIdx? fun obj ↦ obj.nId = id).isSome ↔
      world.client.Live id := by
    simp [List.findIdx?_isSome, Client.Live]
  unfold destroy
  dsimp only
  split
  next hempty =>
    have hnone : ¬ world.client.Live id := by
      rintro ⟨obj, hobj, -⟩
      rw [List.length_eq_zero_iff.mp hempty] at hobj
      cases hobj
    rw [if_neg hnone, List.append_nil, storeLines_print_of_none (readLine_objectNotFound _),
      storeLines_print_of_none (readLine_numberOfObjects _)]
  next =>
    split
    next i hi =>
      rw [if_pos (hfind.mp (by rw [hi]; rfl))]
      exact (storeLines_print _ _).trans (by rw [readLine_destroyedObject]; rfl)
    next hi =>
      have hnone : ¬ world.client.Live id := fun hlive ↦ by
        rw [← hfind, hi] at hlive
        cases hlive
      rw [if_neg hnone, List.append_nil, storeLines_print_of_none (readLine_objectNotFound _)]

theorem storeLines_listing (size : ℕ) : storeLines (listing size) = [] := by
  unfold listing
  split
  · simp [storeLines]
  · simp [storeLines, List.filterMap_map]

theorem storeLines_status (first second : Int32) (world : World) :
    storeLines (status first second world).printed = storeLines world.printed := by
  rw [status_eq]
  dsimp only
  rw [storeLines_append, storeLines_append, storeLines_listing, List.append_nil]
  split <;> simp [storeLines]

theorem storeLines_disconnectS (first second : Int32) (shutdown : Option Int32) (world : World) :
    storeLines (disconnectS first second shutdown world).printed =
      storeLines world.printed ++
        if world.client.objects = [] then [] else [.destroyed 0] := by
  by_cases hempty : world.client.objects = []
  · rw [disconnectS_of_empty hempty, if_pos hempty, List.append_nil, disconnectSocket,
      checkTwice_eq]
    dsimp only
    split
    · rw [storeLines_print_of_none (readLine_disconnectedFrom _ _), disconnect,
        storeLines_callOrClose]
      exact storeLines_print_of_none (readLine_numberOfObjects 0) world
    · rw [storeLines_print_of_none readLine_noConnections]
      exact storeLines_print_of_none (readLine_numberOfObjects 0) world
  · rw [disconnectS_of_ne_nil hempty, if_neg hempty, storeLines_print, readLine_destroyedObject]
    rfl

theorem storeLines_exec {command : Command} (hexec : exec world command = some after) :
    storeLines after.printed = storeLines world.printed ++ linesOf world command := by
  cases command with
  | connectS ip port outcome =>
    cases hexec
    rw [storeLines_connectS, linesOf, List.append_nil]
  | create nType szName indeterminate pending => exact storeLines_create hexec
  | destroy id =>
    cases hexec
    exact storeLines_destroy id world
  | status first second =>
    cases hexec
    rw [storeLines_status, linesOf, List.append_nil]
  | disconnectS first second shutdown =>
    cases hexec
    exact storeLines_disconnectS first second shutdown world

/-! ## When the record is right -/

/-- What a reader of all lines takes for the identifiers of the store. -/
def World.toldIds (world : World) : List ℤ :=
  replay (storeLines world.printed)

/-- `disconnect` names the object that it erases. -/
def NamesErased (world : World) : Command → Prop
  | .disconnectS _ _ _ => ∀ obj ∈ world.client.objects.head?, obj.nId = 0
  | _ => True

instance (world : World) : (command : Command) → Decidable (NamesErased world command)
  | .connectS _ _ _ => .isTrue trivial
  | .create _ _ _ _ => .isTrue trivial
  | .destroy _ => .isTrue trivial
  | .status _ _ => .isTrue trivial
  | .disconnectS _ _ _ =>
    inferInstanceAs (Decidable (∀ obj ∈ world.client.objects.head?, obj.nId = 0))

/-- An identifier that the reader keeps although it has left the store for good.  No line takes it
away: `disconnect` names 0, and `destroy` names identifiers of the store only. -/
def Phantom (world : World) (issuer : Issuer) : Prop :=
  ∃ id, id ≠ 0 ∧ id ∈ world.toldIds ∧ issuer.Retired id

theorem toldIds_exec {command : Command} (hexec : exec world command = some after) :
    after.toldIds = (linesOf world command).foldl StoreLine.apply world.toldIds := by
  calc
    after.toldIds = replay (storeLines world.printed ++ linesOf world command) := by
      rw [World.toldIds, storeLines_exec hexec]
    _ = (linesOf world command).foldl StoreLine.apply world.toldIds := replay_append _ _

/-- A command that names the right object keeps the reader right. -/
theorem toldIds_step {command : Command} (htold : world.toldIds = world.client.ids)
    (hnames : NamesErased world command)
    (hexec : exec world command = some after) : after.toldIds = after.client.ids := by
  rw [toldIds_exec hexec, htold]
  cases command with
  | connectS ip port outcome =>
    rw [exec_client hexec]
    rfl
  | create nType szName indeterminate pending =>
    rw [exec_client hexec]
    simp [linesOf, StoreLine.apply, Client.ids, clientAfter, newObject]
  | destroy id =>
    by_cases hlive : world.client.Live id
    · rw [linesOf, if_pos hlive, exec_client hexec, ids_destroy]
      rfl
    · cases hexec
      rw [linesOf, if_neg hlive, destroy_not_live hlive]
      rfl
  | status first second =>
    rw [exec_client hexec]
    rfl
  | disconnectS first second shutdown =>
    rw [exec_client hexec]
    cases hobjects : world.client.objects with
    | nil => simp [linesOf, hobjects, Client.ids, clientAfter]
    | cons obj rest =>
      have hzero : obj.nId = 0 := hnames obj (by simp [hobjects])
      simp [linesOf, hobjects, StoreLine.apply, Client.ids, clientAfter, hzero]

/-- Naming the wrong object leaves a phantom. -/
theorem phantom_of_not_names {issuer next : Issuer} {command : Command}
    (htracks : Tracks world.client issuer) (htold : world.toldIds = world.client.ids)
    (hnames : ¬ NamesErased world command) (hexec : exec world command = some after)
    (hafter : Tracks after.client next) (hnext : issuer.next ≤ next.next) :
    Phantom after next := by
  cases command with
  | disconnectS first second shutdown =>
    simp only [NamesErased, not_forall] at hnames
    obtain ⟨obj, hobj, hother⟩ := hnames
    obtain ⟨rest, hobjects⟩ := List.head?_eq_some_iff.mp hobj
    have hne : obj.nId.toInt ≠ 0 := fun hzero ↦ hother (Int32.toInt_inj.mp hzero)
    refine ⟨obj.nId.toInt, hne, ?_, ?_, ?_⟩
    · have hmember : obj.nId.toInt ∈ world.client.ids := by simp [Client.ids, hobjects]
      rw [toldIds_exec hexec, htold, linesOf, if_neg (by simp [hobjects])]
      exact (List.mem_erase_of_ne hne).mpr hmember
    · have hlive : obj.nId.toInt ∈ issuer.live := by
        rw [← htracks.live]
        simp [Client.ids, hobjects]
      exact (issuer.bounded _ hlive).2.trans_le hnext
    · have hincreasing := htracks.increasing
      rw [hobjects] at hincreasing
      rw [← hafter.live, exec_client hexec, Client.ids, clientAfter, hobjects, List.tail_cons]
      intro hmember
      obtain ⟨other, hmember, hsame⟩ := List.mem_map.mp hmember
      have hlt : obj.nId < other.nId := List.rel_of_pairwise_cons hincreasing hmember
      exact Int32.ne_of_lt hlt (Int32.toInt_inj.mp hsame).symm
  | _ => exact absurd trivial hnames

/-- A phantom stays. -/
theorem Phantom.step {issuer next : Issuer} {command : Command} (hphantom : Phantom world issuer)
    (htracks : Tracks world.client issuer)
    (hretired : ∀ id, issuer.Retired id → next.Retired id)
    (hexec : exec world command = some after) : Phantom after next := by
  obtain ⟨id, hne, htold, hgone⟩ := hphantom
  refine ⟨id, hne, ?_, hretired id hgone⟩
  rw [toldIds_exec hexec]
  cases command with
  | connectS ip port outcome => exact htold
  | create nType szName indeterminate pending => exact List.mem_append_left _ htold
  | destroy other =>
    by_cases hlive : world.client.Live other
    · have hdifferent : id ≠ other.toInt := by
        rintro rfl
        rw [Client.live_iff, htracks.live] at hlive
        exact hgone.2 hlive
      rw [linesOf, if_pos hlive]
      exact (List.mem_erase_of_ne hdifferent).mpr htold
    · rw [linesOf, if_neg hlive]
      exact htold
  | status first second => exact htold
  | disconnectS first second shutdown =>
    by_cases hempty : world.client.objects = []
    · rw [linesOf, if_pos hempty]
      exact htold
    · rw [linesOf, if_neg hempty]
      exact (List.mem_erase_of_ne hne).mpr htold

theorem Phantom.not_told {issuer : Issuer} (hphantom : Phantom world issuer)
    (htracks : Tracks world.client issuer) : world.toldIds ≠ world.client.ids := by
  obtain ⟨id, -, htold, hgone⟩ := hphantom
  intro hsame
  rw [hsame, htracks.live] at htold
  exact hgone.2 htold

/-- Along a run the reader is right as long as every step names the right object, and behind the
first one that does not there is a phantom. -/
theorem told_or_phantom {start : World} (hstart : Tracks start.client .fresh)
    (htold : start.toldIds = start.client.ids)
    (hrun : Run (ofPartial exec) start commands world) (hcreates : creates commands < 2 ^ 31) :
    ∃ issuer : Issuer, Tracks world.client issuer ∧ issuer.next = creates commands ∧
      ((EveryStep exec start NamesErased commands ∧ world.toldIds = world.client.ids) ∨
        (¬ EveryStep exec start NamesErased commands ∧ Phantom world issuer)) := by
  induction hrun with
  | refl => exact ⟨.fresh, hstart, rfl, .inl ⟨everyStep_nil, htold⟩⟩
  | @snoc earlier command middle finish hearlier hlast ih =>
    have hsplit : (creates (earlier ++ [command]) : ℤ) =
        creates earlier + (if command.isCreate then 1 else 0) := by
      rw [creates_append]
      simp [creates, List.countP_singleton]
    have hbound : creates earlier < 2 ^ 31 := by
      rw [creates_append] at hcreates
      omega
    obtain ⟨issuer, htracks, hnext, hcases⟩ := ih hbound
    have hroom : issuer.next + (if command.isCreate then 1 else 0) < 2 ^ 31 := by
      rw [hnext, ← hsplit]
      exact_mod_cast hcreates
    obtain ⟨next, hafter, hlastNext, hretired⟩ := htracks.step hroom hlast
    refine ⟨next, hafter, by rw [hlastNext, hnext, hsplit], ?_⟩
    rw [everyStep_snoc hearlier]
    rcases hcases with ⟨hevery, hright⟩ | ⟨hnot, hphantom⟩
    · by_cases hnames : NamesErased middle command
      · exact .inl ⟨⟨hevery, hnames⟩, toldIds_step hright hnames hlast⟩
      · have hgrows : issuer.next ≤ next.next := by
          rw [hlastNext]
          split <;> omega
        exact .inr ⟨fun h ↦ hnames h.2,
          phantom_of_not_names htracks hright hnames hlast hafter hgrows⟩
    · exact .inr ⟨fun h ↦ hnot h.1, hphantom.step htracks hretired hlast⟩

/-- **The record of the console.**  After every run from a fresh client with fewer than `2 ^ 31`
creates, the lines about created and destroyed objects rebuild the identifiers of the store exactly
when every `disconnect` of the run that erased an object erased the object 0. -/
theorem told_iff_namesErased {serverPort : Int32} {connectSocket : SOCKET} {bufferSizePriv : Int32}
    (hrun : Run (ofPartial exec) (newClient serverPort connectSocket bufferSizePriv) commands world)
    (hcreates : creates commands < 2 ^ 31) :
    replay (storeLines world.printed) = world.client.ids ↔
      EveryStep exec (newClient serverPort connectSocket bufferSizePriv) NamesErased commands := by
  have hfresh := tracks_newClient serverPort connectSocket bufferSizePriv
  obtain ⟨issuer, htracks, -, hcases⟩ := told_or_phantom hfresh rfl hrun hcreates
  rcases hcases with ⟨hevery, htold⟩ | ⟨hnot, hphantom⟩
  · exact iff_of_true htold hevery
  · exact iff_of_false (hphantom.not_told htracks) hnot

/-- Two objects and two `disconnect`: the second one names the object that is already gone. -/
theorem twoDisconnects_not_told :
    ∃ world, Run (ofPartial exec) (newClient 0 invalidSocket 0)
        (twoCreates ++ [.disconnectS 0 0 none, .disconnectS 0 0 none]) world ∧
      replay (storeLines world.printed) ≠ world.client.ids := by
  have hfirst : ∃ world, Run (ofPartial exec) (newClient 0 invalidSocket 0)
      (twoCreates ++ [.disconnectS 0 0 none]) world ∧
        decide (∃ obj ∈ world.client.objects.head?, obj.nId ≠ 0) = true :=
    exists_run_of_any (by decide)
  obtain ⟨middle, hmiddle, hother⟩ := hfirst
  obtain ⟨obj, hobj, hne⟩ := of_decide_eq_true hother
  have hrun : Run (ofPartial exec) (newClient 0 invalidSocket 0)
      (twoCreates ++ [.disconnectS 0 0 none] ++ [.disconnectS 0 0 none])
      (disconnectS 0 0 none middle) := hmiddle.snoc rfl
  refine ⟨disconnectS 0 0 none middle, hrun, ?_⟩
  intro htold
  have hevery := (told_iff_namesErased hrun (by decide)).mp htold
  exact hne (((everyStep_snoc hmiddle).mp hevery).2 obj hobj)

end WinProcessThread.TcpClient
