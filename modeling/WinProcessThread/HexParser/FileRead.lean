import WinProcessThread.HexParser.Decode
import WinProcessThread.Service.Status
import WinProcessThread.Transition.Termination

/-!
# Reading a file

`file_append_log` reads until one `ReadFile` has delivered as many bytes as the file is long.  It
starts to compare before it has read anything, reads to the start of its buffer each time, renders
the buffer whatever has been delivered, and has no way out of the loop for a read that fails.
-/

namespace WinProcessThread.HexParser

open Service (DWORD)
open Transition (firstActions firstActions_succ)

/-! ## The code -/

/-- `HEX_STRING`. -/
structure HexString where
  hexLine : List Char
  strLine : List Char
deriving DecidableEq, Repr

def HexString.empty : HexString where
  hexLine := []
  strLine := []

/-- Both renderings of a buffer. -/
def renderings (buffer : List UInt8) : HexString where
  hexLine := bytesToHex buffer
  strLine := bytesToString buffer

/-- A read succeeds with a number of bytes, or fails; then it delivers none. -/
inductive ReadOutcome
  | failed (lastError : DWORD)
  | delivered (count : DWORD)
deriving DecidableEq, Repr

/-- What `ReadFile` stores as the number of bytes read. -/
def ReadOutcome.bytesRead : ReadOutcome → DWORD
  | .failed _ => 0
  | .delivered count => count

def invalidFileSize : DWORD := 0xFFFFFFFF

/-- `GetFileSize` without a high part: the low part of the size, or the error value for a handle
that is not one of a file.  `none` is a file that could not be opened. -/
def getFileSize : Option (List UInt8) → DWORD
  | some content => UInt32.ofNat content.length
  | none => invalidFileSize

/-- The local variables of the loop, with the position of the file pointer and the output. -/
structure ReadState where
  bytes : DWORD
  /-- The memory from `fileB` on; `none` is a null pointer. -/
  fileB : Option (List UInt8)
  position : ℕ
  hstr : HexString
  printed : List String
deriving DecidableEq, Repr

/-- What a call of `file_append_log` has come to when these reads have been made. -/
inductive FileRun
  | returned (state : ReadState)
  /-- The loop is about to read again. -/
  | reading (state : ReadState)
  /-- The buffer was copied from a null pointer. -/
  | crashed
deriving DecidableEq, Repr

/-- The body of the loop. -/
def readRound (content : List UInt8) (dwSize : DWORD) (outcome : ReadOutcome)
    (state : ReadState) : Option ReadState :=
  let bytes := outcome.bytesRead
  let chunk := (content.drop state.position).take bytes.toNat
  let fileB := state.fileB.map fun memory ↦ chunk ++ memory.drop chunk.length
  let printed :=
    if fileB = none ∨ dwSize = 0 then state.printed ++ ["buffer NULL"] else state.printed
  let buffer : Option (List UInt8) :=
    match fileB with
    | some memory => some (memory.take dwSize.toNat)
    | none => if dwSize = 0 then some [] else none
  buffer.map fun buffer ↦ {
    bytes := bytes
    fileB := fileB
    position := state.position + chunk.length
    hstr := renderings buffer
    printed := printed }

/-- The `while` loop on a list of read outcomes. -/
def readLoop (content : List UInt8) (dwSize : DWORD) (outcomes : List ReadOutcome)
    (state : ReadState) : FileRun :=
  if state.bytes = dwSize then
    .returned state
  else
    match outcomes with
    | [] => .reading state
    | outcome :: rest =>
      match readRound content dwSize outcome state with
      | some next => readLoop content dwSize rest next
      | none => .crashed

/-- The loop is entered with the uninitialised `bytes` and the result of `malloc`.  `CreateFile`
never returns a null handle, so the message of a file that cannot be opened is never printed. -/
def enterLoop (bytes : DWORD) (fileB : Option (List UInt8)) : ReadState where
  bytes := bytes
  fileB := fileB
  position := 0
  hstr := .empty
  printed := []

/-- `file_append_log`. -/
def fileAppendLog (file : Option (List UInt8)) (bytes : DWORD) (fileB : Option (List UInt8))
    (outcomes : List ReadOutcome) : FileRun :=
  readLoop (file.getD []) (getFileSize file) outcomes (enterLoop bytes fileB)

/-! ## What the reads may be -/

/-- The bytes that a list of reads delivers. -/
def delivered (outcomes : List ReadOutcome) : ℕ :=
  (outcomes.map fun outcome ↦ outcome.bytesRead.toNat).sum

@[simp]
theorem delivered_nil : delivered [] = 0 := rfl

@[simp]
theorem delivered_cons (outcome : ReadOutcome) (rest : List ReadOutcome) :
    delivered (outcome :: rest) = outcome.bytesRead.toNat + delivered rest := rfl

theorem delivered_append (outcomes more : List ReadOutcome) :
    delivered (outcomes ++ more) = delivered outcomes + delivered more := by
  simp [delivered]

/-- The outcomes of the reads on a file, for as long as it is read: a success delivers bytes from
the file pointer on, and none only at the end of the file or when none are asked for. -/
structure Reads (file : Option (List UInt8)) where
  outcome : ℕ → ReadOutcome
  le_size : ∀ index, (outcome index).bytesRead ≤ getFileSize file
  inside : ∀ count, delivered (firstActions outcome count) ≤ (file.getD []).length
  at_end : ∀ index, outcome index = .delivered 0 →
    delivered (firstActions outcome index) = (file.getD []).length ∨ getFileSize file = 0
  opened : file = none → ∀ index, ∃ lastError, outcome index = .failed lastError

variable {file : Option (List UInt8)} {bytes : DWORD} {fileB : Option (List UInt8)}
variable {content : List UInt8} {dwSize : DWORD} {state : ReadState}

/-- The call returns in this state. -/
def Returned (bytes : DWORD) (fileB : Option (List UInt8)) (reads : Reads file)
    (state : ReadState) : Prop :=
  ∃ count, fileAppendLog file bytes fileB (firstActions reads.outcome count) = .returned state

/-- The successful reads, each of which goes on behind the one before, deliver the file to its end;
those that the call does not make count as well. -/
def Reads.DeliverAll (reads : Reads file) : Prop :=
  ∃ count, delivered (firstActions reads.outcome count) = (file.getD []).length

/-- The call returns, and when the reads deliver the whole file its result is that of the whole
file. -/
structure ReadsRight (bytes : DWORD) (fileB : Option (List UInt8)) (reads : Reads file) :
    Prop where
  returns : ∃ state, Returned bytes fileB reads state
  whole : ∀ content state, file = some content → reads.DeliverAll →
    Returned bytes fileB reads state → state.hstr = renderings content

/-! ## The loop -/

/-- The buffer can be copied. -/
def HasBuffer (dwSize : DWORD) (fileB : Option (List UInt8)) : Prop :=
  fileB = none → dwSize = 0

theorem readRound_of_hasBuffer (content : List UInt8) (hbuffer : HasBuffer dwSize state.fileB)
    (outcome : ReadOutcome) :
    ∃ next, readRound content dwSize outcome state = some next ∧
      HasBuffer dwSize next.fileB ∧ next.bytes = outcome.bytesRead ∧
      next.position = state.position +
        ((content.drop state.position).take outcome.bytesRead.toNat).length ∧
      (dwSize.toNat ≤ ((content.drop state.position).take outcome.bytesRead.toNat).length →
        next.hstr =
          renderings (((content.drop state.position).take outcome.bytesRead.toNat).take
            dwSize.toNat)) := by
  unfold readRound
  cases hfileB : state.fileB with
  | some memory =>
    refine ⟨_, rfl, nofun, rfl, rfl, fun hfull ↦ ?_⟩
    exact congrArg renderings (List.take_append_of_le_length hfull)
  | none =>
    have hzero : dwSize = 0 := hbuffer hfileB
    refine ⟨_, by simp only [Option.map_none, if_pos hzero]; rfl, fun _ ↦ hzero, rfl, rfl,
      fun _ ↦ ?_⟩
    simp [hzero]

theorem readRound_of_null (hfileB : state.fileB = none) (hsize : dwSize ≠ 0)
    (outcome : ReadOutcome) : readRound content dwSize outcome state = none := by
  simp [readRound, hfileB, hsize]

theorem readLoop_of_equal (hbytes : state.bytes = dwSize) (outcomes : List ReadOutcome) :
    readLoop content dwSize outcomes state = .returned state := by
  unfold readLoop
  exact if_pos hbytes

/-- Reads of another size than that of the file keep the loop going. -/
theorem readLoop_append {used : List ReadOutcome}
    (hused : ∀ outcome ∈ used, outcome.bytesRead ≠ dwSize)
    (hbytes : state.bytes ≠ dwSize) (hbuffer : HasBuffer dwSize state.fileB)
    (hinside : state.position + delivered used ≤ content.length) :
    ∃ middle, (∀ rest, readLoop content dwSize (used ++ rest) state =
        readLoop content dwSize rest middle) ∧
      middle.bytes ≠ dwSize ∧ HasBuffer dwSize middle.fileB ∧
      middle.position = state.position + delivered used := by
  induction used generalizing state with
  | nil => exact ⟨state, fun _ ↦ rfl, hbytes, hbuffer, rfl⟩
  | cons outcome used ih =>
    obtain ⟨hfirst, hothers⟩ := List.forall_mem_cons.mp hused
    obtain ⟨next, hround, hnextBuffer, hnextBytes, hposition, -⟩ :=
      readRound_of_hasBuffer content hbuffer outcome
    rw [delivered_cons] at hinside
    have hmoved : next.position = state.position + outcome.bytesRead.toNat := by
      rw [hposition, List.length_take, List.length_drop]
      omega
    obtain ⟨middle, hloop, hmiddle⟩ :=
      ih hothers (by rw [hnextBytes]; exact hfirst) hnextBuffer (by omega)
    refine ⟨middle, fun rest ↦ ?_, ?_⟩
    · rw [List.cons_append, readLoop, if_neg hbytes, hround]
      exact hloop rest
    · rw [delivered_cons, ← Nat.add_assoc, ← hmoved]
      exact hmiddle

/-- The first read that delivers as many bytes as the loop waits for. -/
def Reads.FirstFull (reads : Reads file) (index : ℕ) : Prop :=
  (∀ earlier < index, (reads.outcome earlier).bytesRead ≠ getFileSize file) ∧
    (reads.outcome index).bytesRead = getFileSize file

theorem Reads.exists_firstFull {reads : Reads file} {index : ℕ}
    (hfull : (reads.outcome index).bytesRead = getFileSize file) :
    ∃ first, reads.FirstFull first := by
  classical
  have hexists : ∃ index, (reads.outcome index).bytesRead = getFileSize file := ⟨index, hfull⟩
  exact ⟨Nat.find hexists, fun _ hearlier ↦ Nat.find_min hexists hearlier, Nat.find_spec hexists⟩

theorem Reads.FirstFull.delivered_succ {reads : Reads file} {index : ℕ}
    (hfull : reads.FirstFull index) :
    delivered (firstActions reads.outcome (index + 1)) =
      delivered (firstActions reads.outcome index) + (getFileSize file).toNat := by
  calc
    delivered (firstActions reads.outcome (index + 1)) =
        delivered (firstActions reads.outcome index) + delivered [reads.outcome index] := by
      rw [firstActions, List.range_succ, List.map_append, delivered_append]
      rfl
    _ = delivered (firstActions reads.outcome index) + (getFileSize file).toNat := by
      rw [← hfull.2]
      rfl

/-- Behind reads of another size the loop reads on. -/
theorem Reads.readLoop_append {reads : Reads file} {count : ℕ}
    (hshort : ∀ index < count, (reads.outcome index).bytesRead ≠ getFileSize file)
    (hbytes : bytes ≠ getFileSize file) (hbuffer : HasBuffer (getFileSize file) fileB) :
    ∃ middle, (∀ rest, fileAppendLog file bytes fileB (firstActions reads.outcome count ++ rest) =
        readLoop (file.getD []) (getFileSize file) rest middle) ∧
      middle.bytes ≠ getFileSize file ∧ HasBuffer (getFileSize file) middle.fileB ∧
      middle.position = delivered (firstActions reads.outcome count) := by
  have hinside : (enterLoop bytes fileB).position + delivered (firstActions reads.outcome count) ≤
      (file.getD []).length := by
    change 0 + _ ≤ _
    rw [Nat.zero_add]
    exact reads.inside count
  obtain ⟨middle, hloop, hmiddleBytes, hmiddleBuffer, hposition⟩ :=
    HexParser.readLoop_append (Transition.forall_mem_firstActions.mpr hshort) hbytes hbuffer hinside
  exact ⟨middle, hloop, hmiddleBytes, hmiddleBuffer, hposition.trans (Nat.zero_add _)⟩

/-- Before the first full read the call has not returned. -/
theorem Reads.not_returned {reads : Reads file} {count : ℕ}
    (hshort : ∀ index < count, (reads.outcome index).bytesRead ≠ getFileSize file)
    (hbytes : bytes ≠ getFileSize file) (hbuffer : HasBuffer (getFileSize file) fileB) :
    fileAppendLog file bytes fileB (firstActions reads.outcome count) ≠ .returned state := by
  intro hcount
  obtain ⟨middle, hloop, hmiddle, -⟩ := reads.readLoop_append hshort hbytes hbuffer
  have hreading := hloop []
  rw [List.append_nil, hcount, readLoop, if_neg hmiddle] at hreading
  cases hreading

/-- A loop that is never entered. -/
theorem returned_iff_of_equal (hbytes : bytes = getFileSize file) (reads : Reads file) :
    Returned bytes fileB reads state ↔ state = enterLoop bytes fileB := by
  have hreturned : ∀ outcomes, fileAppendLog file bytes fileB outcomes =
      .returned (enterLoop bytes fileB) := fun outcomes ↦ readLoop_of_equal hbytes outcomes
  constructor
  · rintro ⟨count, hcount⟩
    exact FileRun.returned.inj (hcount.symm.trans (hreturned _))
  · intro hstate
    exact ⟨0, hstate ▸ hreturned _⟩

theorem not_returned_of_null (hbytes : bytes ≠ getFileSize file)
    (hnull : ¬ HasBuffer (getFileSize file) fileB) (reads : Reads file) :
    ¬ Returned bytes fileB reads state := by
  obtain ⟨hfileB, hsize⟩ := Classical.not_imp.mp hnull
  have hentered : (enterLoop bytes fileB).bytes ≠ getFileSize file := hbytes
  rintro ⟨count, hcount⟩
  cases count with
  | zero =>
    rw [fileAppendLog, firstActions, List.range_zero, List.map_nil, readLoop,
      if_neg hentered] at hcount
    cases hcount
  | succ count =>
    rw [fileAppendLog, firstActions_succ, readLoop, if_neg hentered,
      readRound_of_null hfileB hsize] at hcount
    cases hcount

/-- The call returns right behind the first full read, with what this read has delivered. -/
theorem returned_of_firstFull {reads : Reads file} {index : ℕ} (hfull : reads.FirstFull index)
    (hbytes : bytes ≠ getFileSize file) (hbuffer : HasBuffer (getFileSize file) fileB) :
    ∃ final, (∀ state, Returned bytes fileB reads state ↔ state = final) ∧
      final.hstr = renderings (((file.getD []).drop
        (delivered (firstActions reads.outcome index))).take (getFileSize file).toNat) := by
  have hnext := hfull.delivered_succ
  obtain ⟨hshort, hlast⟩ := hfull
  obtain ⟨middle, hloop, hmiddleBytes, hmiddleBuffer, hposition⟩ :=
    reads.readLoop_append hshort hbytes hbuffer
  obtain ⟨final, hround, -, hfinalBytes, -, hhstr⟩ :=
    readRound_of_hasBuffer (file.getD []) hmiddleBuffer (reads.outcome index)
  have hreturned : ∀ rest, fileAppendLog file bytes fileB
      (firstActions reads.outcome index ++ reads.outcome index :: rest) = .returned final := by
    intro rest
    rw [hloop, readLoop, if_neg hmiddleBytes, hround]
    exact readLoop_of_equal (hfinalBytes.trans hlast) rest
  have hinside := reads.inside (index + 1)
  rw [hposition, hlast, List.length_take, List.length_drop] at hhstr
  refine ⟨final, fun state ↦ ⟨?_, ?_⟩, ?_⟩
  · rintro ⟨count, hcount⟩
    by_cases hlate : index < count
    · obtain ⟨rest, hrest⟩ := Transition.exists_firstActions_eq_append reads.outcome hlate
      rw [hrest, hreturned] at hcount
      exact (FileRun.returned.inj hcount).symm
    · have hearly : ∀ earlier < count, (reads.outcome earlier).bytesRead ≠ getFileSize file :=
        fun earlier hearlier ↦ hshort earlier (by omega)
      exact absurd hcount (reads.not_returned hearly hbytes hbuffer)
  · intro hstate
    obtain ⟨rest, hrest⟩ :=
      Transition.exists_firstActions_eq_append reads.outcome index.lt_succ_self
    exact ⟨index + 1, by rw [hrest, hreturned, hstate]⟩
  · rw [hhstr (by omega), List.take_take, Nat.min_self]

/-! ## When the whole file is read -/

/-- The uninitialised variable happens to hold the size, so that nothing is read, and there is
nothing to be delivered; or it does not, the buffer can be used, a read delivers as many bytes as
the loop waits for, and the file is not one of more bytes than a size has that is delivered all the
same. -/
def Completes (bytes : DWORD) (fileB : Option (List UInt8)) (reads : Reads file) : Prop :=
  bytes = getFileSize file ∧ (reads.DeliverAll → file.getD [] = []) ∨
    bytes ≠ getFileSize file ∧ HasBuffer (getFileSize file) fileB ∧
      (∃ index, (reads.outcome index).bytesRead = getFileSize file) ∧
      (reads.DeliverAll → (file.getD []).length < 2 ^ 32)

theorem renderings_injective : Function.Injective renderings := by
  intro buffer other heq
  have hhex : bytesToHex buffer = bytesToHex other := congrArg HexString.hexLine heq
  have hdecode := decodeHex_bytesToHex buffer
  rw [hhex, decodeHex_bytesToHex] at hdecode
  exact (Option.some.inj hdecode).symm

/-- The bytes that a read of `GetFileSize` bytes delivers are the whole file exactly when its size
has 32 bits. -/
theorem renderings_full_iff {position : ℕ}
    (hinside : position + (getFileSize (some content)).toNat ≤ content.length) :
    renderings ((content.drop position).take (getFileSize (some content)).toNat) =
        renderings content ↔ content.length < 2 ^ 32 := by
  have hsize : (getFileSize (some content)).toNat = content.length % 2 ^ 32 := UInt32.toNat_ofNat'
  constructor
  · intro heq
    have hlength := congrArg List.length (renderings_injective heq)
    rw [List.length_take, List.length_drop] at hlength
    omega
  · intro hsmall
    have hzero : position = 0 := by omega
    have hall : (getFileSize (some content)).toNat = content.length := by omega
    calc
      renderings ((content.drop position).take (getFileSize (some content)).toNat) =
          renderings ((content.drop 0).take content.length) := by
        rw [hzero, hall]
      _ = renderings content := by
        rw [List.drop_zero, List.take_length]

/-- Without a read the result is that of an empty file. -/
theorem readsRight_iff_of_equal (hbytes : bytes = getFileSize file) (reads : Reads file) :
    ReadsRight bytes fileB reads ↔ (reads.DeliverAll → file.getD [] = []) := by
  have hreturned : Returned bytes fileB reads (enterLoop bytes fileB) :=
    (returned_iff_of_equal hbytes reads).mpr rfl
  constructor
  · intro hright hall
    cases file with
    | none => rfl
    | some content =>
      have hempty : renderings [] = renderings content := hright.whole content _ rfl hall hreturned
      exact (renderings_injective hempty).symm
  · intro hempty
    refine ⟨⟨_, hreturned⟩, ?_⟩
    intro content state hfile hall hstate
    have hcontent : content = [] := by
      have hnone := hempty hall
      rwa [hfile, Option.getD_some] at hnone
    rw [(returned_iff_of_equal hbytes reads).mp hstate, hcontent]
    rfl

/-- The reads on a handle that is not one of a file all fail. -/
theorem Reads.FirstFull.file_opened {reads : Reads file} {index : ℕ}
    (hfull : reads.FirstFull index) : ∃ content, file = some content := by
  cases file with
  | none =>
    obtain ⟨lastError, hfailed⟩ := reads.opened rfl index
    have hread := hfull.2
    rw [hfailed] at hread
    have hzero : (0 : DWORD) ≠ invalidFileSize := by decide
    exact absurd hread hzero
  | some content => exact ⟨content, rfl⟩

/-- The first full read gives the whole file unless that is larger. -/
theorem readsRight_iff_of_firstFull {reads : Reads file} {index : ℕ} (hfull : reads.FirstFull index)
    (hbytes : bytes ≠ getFileSize file) (hbuffer : HasBuffer (getFileSize file) fileB) :
    ReadsRight bytes fileB reads ↔ (reads.DeliverAll → (file.getD []).length < 2 ^ 32) := by
  obtain ⟨final, hfinal, hhstr⟩ := returned_of_firstFull hfull hbytes hbuffer
  obtain ⟨content, rfl⟩ := hfull.file_opened
  have hinside := reads.inside (index + 1)
  rw [hfull.delivered_succ] at hinside
  rw [Option.getD_some] at hhstr hinside ⊢
  have hwhole : final.hstr = renderings content ↔ content.length < 2 ^ 32 := by
    rw [hhstr]
    exact renderings_full_iff hinside
  constructor
  · intro hright hall
    exact hwhole.mp (hright.whole content final rfl hall ((hfinal final).mpr rfl))
  · intro hsmall
    refine ⟨⟨final, (hfinal final).mpr rfl⟩, ?_⟩
    intro other state hother hall hreturned
    cases hother
    rw [(hfinal state).mp hreturned]
    exact hwhole.mpr (hsmall hall)

/-- A loop that is entered returns exactly when the buffer can be used and a read is full. -/
theorem returns_iff_full (hbytes : bytes ≠ getFileSize file) (reads : Reads file) :
    (∃ state, Returned bytes fileB reads state) ↔
      HasBuffer (getFileSize file) fileB ∧
        ∃ index, (reads.outcome index).bytesRead = getFileSize file := by
  constructor
  · rintro ⟨state, hstate⟩
    have hbuffer : HasBuffer (getFileSize file) fileB := by
      by_contra hnull
      exact not_returned_of_null hbytes hnull reads hstate
    refine ⟨hbuffer, ?_⟩
    by_contra hnever
    push Not at hnever
    obtain ⟨count, hcount⟩ := hstate
    exact reads.not_returned (fun index _ ↦ hnever index) hbytes hbuffer hcount
  · rintro ⟨hbuffer, _, hsome⟩
    obtain ⟨index, hfull⟩ := Reads.exists_firstFull hsome
    obtain ⟨final, hfinal, -⟩ := returned_of_firstFull hfull hbytes hbuffer
    exact ⟨final, (hfinal final).mpr rfl⟩

/-- **Reading a whole file.**  Whatever the uninitialised variable holds and the reads deliver, the
call returns, with the renderings of the file when the reads deliver it as a whole, exactly under
this condition. -/
theorem readsRight_iff_completes (file : Option (List UInt8)) (bytes : DWORD)
    (fileB : Option (List UInt8)) (reads : Reads file) :
    ReadsRight bytes fileB reads ↔ Completes bytes fileB reads := by
  unfold Completes
  by_cases hbytes : bytes = getFileSize file
  · simp only [hbytes, true_and, ne_eq, not_true_eq_false, false_and, or_false]
    exact readsRight_iff_of_equal rfl reads
  · simp only [hbytes, false_and, false_or, ne_eq, not_false_eq_true, true_and]
    have hreturns : (∃ state, Returned bytes fileB reads state) ↔ _ := returns_iff_full hbytes reads
    constructor
    · intro hright
      obtain ⟨hbuffer, index, hsome⟩ := hreturns.mp hright.returns
      obtain ⟨_, hfull⟩ := Reads.exists_firstFull hsome
      exact ⟨hbuffer, ⟨index, hsome⟩, (readsRight_iff_of_firstFull hfull hbytes hbuffer).mp hright⟩
    · rintro ⟨hbuffer, ⟨_, hsome⟩, hsmall⟩
      obtain ⟨_, hfull⟩ := Reads.exists_firstFull hsome
      exact (readsRight_iff_of_firstFull hfull hbytes hbuffer).mpr hsmall

def errorLockViolation : DWORD := 33

/-- A file of one byte that another process has locked: it can be opened, and every read fails. -/
def lockedReads : Reads (some [0x41]) where
  outcome _ := .failed errorLockViolation
  le_size := by
    intro index
    decide
  inside := by
    intro count
    simp [delivered, firstActions, ReadOutcome.bytesRead]
  at_end := by
    intro index houtcome
    cases houtcome
  opened := by
    intro hnone
    cases hnone

/-- On a file whose reads fail the loop goes on for ever. -/
theorem locked_not_readsRight : ¬ ReadsRight 0 (some [0]) lockedReads := by
  intro hright
  obtain ⟨state, count, hcount⟩ := hright.returns
  have hempty : (0 : DWORD) ≠ getFileSize (some [0x41]) := by decide
  have hbuffer : HasBuffer (getFileSize (some [0x41])) (some [0]) := by
    intro hnone
    cases hnone
  exact lockedReads.not_returned (fun _ _ ↦ hempty) hempty hbuffer hcount

end WinProcessThread.HexParser
