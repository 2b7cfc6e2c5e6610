import WinProcessThread.FileHash.Digest
import WinProcessThread.Resource.Handles

/-!
# Handle discipline of `MD5`

The function releases the hash object, the provider and the file at its end whatever has happened
before.  An error branch that has released one of them, or a call that has never returned one, makes
the last release a wrong one.
-/

namespace WinProcessThread.FileHash

open Resource
open Service (DWORD)

/-! ## The accesses of a run -/

inductive CryptHandle
  | file
  | provider
  | hash
deriving DecidableEq, Repr

/-- What a call does with the handles. -/
def Call.accesses : Call → List (Access CryptHandle)
  | .createFile lastError => if lastError = none then [.obtain .file] else []
  | .cryptAcquireContext _ _ lastError => if lastError = none then [.obtain .provider] else []
  | .cryptCreateHash lastError =>
    if lastError = none then [.use .provider, .obtain .hash] else [.use .provider]
  | .readFile _ => [.use .file]
  | .cryptHashData _ | .cryptGetHashParam _ => [.use .hash]
  | .cryptReleaseContext => [.release .provider]
  | .cryptDestroyHash => [.release .hash]
  | .closeHandle => [.release .file]

def accesses (log : List Call) : List (Access CryptHandle) :=
  log.flatMap Call.accesses

/-- The calls that open something, and all reads and updates of the loop, succeed. -/
structure Outcome.OpensAndReads (outcome : Outcome) (chunks : List (List UInt8)) : Prop where
  createFile : outcome.createFile = none
  cryptAcquireContext : outcome.cryptAcquireContext = none
  cryptCreateHash : outcome.cryptCreateHash = none
  readFile : ∀ index ≤ chunks.length, outcome.readFile index = none
  cryptHashData : ∀ index < chunks.length, outcome.cryptHashData index = none

variable {length : ℕ} {hash : HashFunction length} {world : World hash} {outcome : Outcome}
variable {encprot : ALG_ID} {chunks : List (List UInt8)} {index : ℕ} {lastError : Option DWORD}

/-- The three releases at the end do their part exactly when every handle is held. -/
theorem disciplined_append_releases (trace : List (Access CryptHandle)) :
    Disciplined (trace ++ [.release .hash, .release .provider, .release .file]) ↔
      ∀ handle, ownership trace handle = .held := by
  rw [disciplined_iff]
  apply forall_congr'
  intro handle
  have hlast : ownership (trace ++ [.release .hash, .release .provider, .release .file]) handle =
      if ownership trace handle = .held then .released else .misused := by
    rw [ownership_append]
    cases handle with
    | file => rfl
    | provider => rfl
    | hash => rfl
  rw [hlast]
  by_cases hheld : ownership trace handle = .held
  · rw [if_pos hheld]
    exact iff_of_true (.inr rfl) hheld
  · rw [if_neg hheld]
    exact iff_of_false (by simp) hheld

/-- A closed file is not held. -/
theorem not_held_of_closeHandle {log : List Call} (hclose : .closeHandle ∈ log) :
    ownership (accesses log) .file ≠ .held := by
  rw [Ne, ownership_eq_held_iff]
  rintro ⟨-, hrelease⟩
  exact hrelease (List.mem_flatMap.mpr ⟨_, hclose, List.mem_singleton_self _⟩)

/-! ## The file is open -/

theorem onHandle_eq_none_iff {isOpen : Bool} :
    onHandle isOpen lastError = none ↔ isOpen = true ∧ lastError = none := by
  cases isOpen with
  | false => simp [onHandle]
  | true => simp [onHandle]

theorem createHash_fileOpen (hopen : (createHash lastError world).fileOpen = true) :
    world.fileOpen = true ∧ world.providerOpen = true ∧ lastError = none := by
  unfold createHash at hopen
  cases hresult : onHandle world.providerOpen lastError with
  | none =>
    rw [hresult] at hopen
    exact ⟨hopen, onHandle_eq_none_iff.mp hresult⟩
  | some dwStatus =>
    rw [hresult] at hopen
    cases hopen

/-- For one of the algorithms there is one acquisition. -/
theorem acquireProvider_of_supported (lastError : Option DWORD) (world : World hash)
    (hsupported : Supported encprot) :
    ∃ dwProvType dwFlags, acquireProvider encprot lastError world =
      acquireContext dwProvType dwFlags lastError world := by
  rcases hsupported with rfl | rfl | rfl
  · exact ⟨provRsaFull, cryptVerifyContext, rfl⟩
  · exact ⟨provRsaFull, cryptVerifyContext, rfl⟩
  · exact ⟨provRsaAes, 0, rfl⟩

/-- For another one there is none. -/
theorem acquireProvider_of_not_supported (hsupported : ¬ Supported encprot) :
    acquireProvider encprot lastError world = world := by
  obtain ⟨hmd5, hother⟩ := not_or.mp hsupported
  obtain ⟨hsha1, hsha256⟩ := not_or.mp hother
  unfold acquireProvider
  dsimp only
  rw [if_neg hsha256, if_neg hsha1, if_neg hmd5]

theorem acquireProvider_open (hprovider : world.providerOpen = false)
    (hopen : (acquireProvider encprot lastError world).providerOpen = true) :
    Supported encprot ∧ lastError = none := by
  by_cases hsupported : Supported encprot
  · obtain ⟨dwProvType, dwFlags, hacquire⟩ :=
      acquireProvider_of_supported lastError world hsupported
    rw [hacquire] at hopen
    cases lastError with
    | none => exact ⟨hsupported, rfl⟩
    | some dwStatus => exact absurd (hprovider.symm.trans hopen) Bool.false_ne_true
  · rw [acquireProvider_of_not_supported hsupported, hprovider] at hopen
    cases hopen

theorem acquireProvider_fileOpen
    (hopen : (acquireProvider encprot lastError world).fileOpen = true) :
    world.fileOpen = true := by
  by_cases hsupported : Supported encprot
  · obtain ⟨dwProvType, dwFlags, hacquire⟩ :=
      acquireProvider_of_supported lastError world hsupported
    rw [hacquire] at hopen
    cases lastError with
    | none => exact hopen
    | some dwStatus => cases hopen
  · rw [acquireProvider_of_not_supported hsupported] at hopen
    exact hopen

/-! ## The read loop -/

/-- The reads and updates from an index on succeed. -/
def Outcome.ReadsFrom (outcome : Outcome) (index count : ℕ) : Prop :=
  (∀ offset ≤ count, outcome.readFile (index + offset) = none) ∧
    ∀ offset < count, outcome.cryptHashData (index + offset) = none

theorem readsFrom_succ {count : ℕ} :
    outcome.ReadsFrom index (count + 1) ↔ outcome.readFile index = none ∧
      outcome.cryptHashData index = none ∧ outcome.ReadsFrom (index + 1) count := by
  simp only [Outcome.ReadsFrom, Nat.le_iff_lt_add_one, Nat.forall_lt_succ_left, Nat.add_zero,
    Nat.add_assoc, Nat.add_comm 1]
  tauto

theorem readsFrom_zero {count : ℕ} :
    outcome.ReadsFrom 0 count ↔ (∀ index ≤ count, outcome.readFile index = none) ∧
      ∀ index < count, outcome.cryptHashData index = none := by
  simp only [Outcome.ReadsFrom, Nat.zero_add]

theorem hashData_fileOpen {rgbFile : List UInt8}
    (hopen : (hashData rgbFile lastError world).fileOpen = true) : lastError = none := by
  unfold hashData at hopen
  cases hresult : onHandle world.hashObject.isSome lastError with
  | none => exact (onHandle_eq_none_iff.mp hresult).2
  | some dwStatus =>
    rw [hresult] at hopen
    cases hopen

/-- Without an error the first read has succeeded. -/
theorem firstRead_of_none (hnone : (readLoop outcome chunks index world).1 = none) :
    onHandle world.fileOpen (outcome.readFile index) = none := by
  by_contra herror
  obtain ⟨dwStatus, hread⟩ := Option.ne_none_iff_exists'.mp herror
  rw [readLoop_of_error hread] at hnone
  cases hnone

/-- Without an error the loop has read on an open file throughout. -/
theorem readLoop_of_none (hnone : (readLoop outcome chunks index world).1 = none) :
    world.fileOpen = true ∧ outcome.ReadsFrom index chunks.length := by
  induction chunks generalizing index world with
  | nil =>
    obtain ⟨hopen, hread⟩ := onHandle_eq_none_iff.mp (firstRead_of_none hnone)
    constructor
    · exact hopen
    · constructor
      · intro offset hoffset
        rw [Nat.le_zero.mp hoffset]
        exact hread
      · intro offset hoffset
        exact absurd hoffset offset.not_lt_zero
  | cons rgbFile rest ih =>
    have hfirst := firstRead_of_none hnone
    obtain ⟨hopen, hread⟩ := onHandle_eq_none_iff.mp hfirst
    unfold readLoop at hnone
    rw [hfirst] at hnone
    obtain ⟨hnext, hreads⟩ := ih hnone
    exact ⟨hopen, readsFrom_succ.mpr ⟨hread, hashData_fileOpen hnext, hreads⟩⟩

/-- Calls that release nothing. -/
def Keeps (calls : List Call) : Prop :=
  ∀ call ∈ calls, ∀ handle, .release handle ∉ call.accesses

theorem Keeps.append {calls more : List Call} (hcalls : Keeps calls) (hmore : Keeps more) :
    Keeps (calls ++ more) :=
  fun call hcall ↦ (List.mem_append.mp hcall).elim (hcalls call) (hmore call)

theorem keeps_singleton {call : Call} (hcall : ∀ handle, .release handle ∉ call.accesses) :
    Keeps [call] := by
  intro other hother
  rw [List.mem_singleton.mp hother]
  exact hcall

theorem hashData_of_none {rgbFile : List UInt8} (hhash : world.hashObject.isSome = true)
    (hnone : lastError = none) :
    hashData rgbFile lastError world =
      { world.call (.cryptHashData none) with
        hashObject := world.hashObject.map fun state ↦ hash.update state rgbFile } := by
  unfold hashData
  rw [onHandle_eq_none_iff.mpr ⟨hhash, hnone⟩]
  rfl

/-- On open handles and without an error the loop releases nothing. -/
theorem readLoop_of_reads (index : ℕ) (world : World hash) (hopen : world.fileOpen = true)
    (hhash : world.hashObject.isSome = true) (hreads : outcome.ReadsFrom index chunks.length) :
    (readLoop outcome chunks index world).1 = none ∧
      ∃ calls, (readLoop outcome chunks index world).2.log = world.log ++ calls ∧ Keeps calls := by
  have hkeepsRead : ∀ handle, .release handle ∉ (Call.readFile none).accesses := by
    simp [Call.accesses]
  have hkeepsHash : ∀ handle, .release handle ∉ (Call.cryptHashData none).accesses := by
    simp [Call.accesses]
  induction chunks generalizing index world with
  | nil =>
    have hread : outcome.readFile index = none := hreads.1 0 le_rfl
    unfold readLoop
    rw [onHandle_eq_none_iff.mpr ⟨hopen, hread⟩]
    exact ⟨rfl, [.readFile none], rfl, keeps_singleton hkeepsRead⟩
  | cons rgbFile rest ih =>
    obtain ⟨hread, hupdate, hrest⟩ := readsFrom_succ.mp hreads
    have hfed : hashData rgbFile (outcome.cryptHashData index) (world.call (.readFile none)) =
        { (world.call (.readFile none)).call (.cryptHashData none) with
          hashObject := world.hashObject.map fun state ↦ hash.update state rgbFile } :=
      hashData_of_none hhash hupdate
    unfold readLoop
    rw [onHandle_eq_none_iff.mpr ⟨hopen, hread⟩]
    dsimp only
    rw [hfed]
    obtain ⟨hnone, calls, hlog, hkeeps⟩ := ih (index + 1)
      { (world.call (.readFile none)).call (.cryptHashData none) with
        hashObject := world.hashObject.map fun state ↦ hash.update state rgbFile }
      hopen (by simpa using hhash) hrest
    refine ⟨hnone, [.readFile none, .cryptHashData none] ++ calls, ?_, ?_⟩
    · rw [hlog]
      simp [World.call]
    · exact ((keeps_singleton hkeepsRead).append (keeps_singleton hkeepsHash)).append hkeeps

/-! ## The function -/

variable {filename : String} {size : Int32}

/-- A loop that ends with an error closes the file. -/
theorem closeHandle_mem_readFile {dwStatus : DWORD}
    (hsome : (readLoop outcome chunks 0 world).1 = some dwStatus) :
    .closeHandle ∈ (readFile outcome chunks world).log := by
  unfold readFile
  split
  · next after hafter =>
    rw [hafter] at hsome
    cases hsome
  · simp [releaseAll, World.closeHandle, World.call]

theorem readFile_of_none (hnone : (readLoop outcome chunks 0 world).1 = none) :
    readFile outcome chunks world = (readLoop outcome chunks 0 world).2 := by
  unfold readFile
  split
  · next after hafter => rw [hafter]
  · next dwStatus after hafter =>
    rw [hafter] at hnone
    cases hnone

/-- A loop behind which the file is held has ended without an error. -/
theorem readLoop_of_held
    (hheld : ownership (accesses (readFile outcome chunks world).log) .file = .held) :
    (readLoop outcome chunks 0 world).1 = none := by
  cases hresult : (readLoop outcome chunks 0 world).1 with
  | none => rfl
  | some dwStatus => exact absurd hheld (not_held_of_closeHandle (closeHandle_mem_readFile hresult))

/-- Opening a file, a provider and a hash object. -/
theorem setup_of_opens (filename : String) (hash : HashFunction length)
    (hsupported : Supported encprot) (hopens : outcome.OpensAndReads chunks) :
    ∃ dwProvType dwFlags,
      createHash outcome.cryptCreateHash (acquireProvider encprot outcome.cryptAcquireContext
        (openFile filename outcome.createFile (World.fresh hash))) =
      { fileOpen := true
        providerOpen := true
        hashObject := some hash.init
        log := [.createFile none, .cryptAcquireContext dwProvType dwFlags none,
          .cryptCreateHash none]
        printed := [] } := by
  obtain ⟨dwProvType, dwFlags, hacquire⟩ :=
    acquireProvider_of_supported outcome.cryptAcquireContext
      (openFile filename outcome.createFile (World.fresh hash)) hsupported
  rw [hacquire, hopens.createFile, hopens.cryptAcquireContext, hopens.cryptCreateHash]
  exact ⟨dwProvType, dwFlags, rfl⟩

/-- The log behind the digest is that of the loop and a use of the hash object. -/
theorem digestResult_log (filename : String) (encprot : ALG_ID) (size : Int32) (outcome : Outcome)
    (chunks : List (List UInt8)) (hash : HashFunction length) :
    ∃ lastError, (digestResult filename encprot size outcome chunks hash).2.log =
      (readWorld filename encprot outcome chunks hash).log ++ [.cryptGetHashParam lastError] := by
  unfold digestResult writeDigest
  cases getHashParam size.toUInt32 outcome.cryptGetHashParam
      (readWorld filename encprot outcome chunks hash) with
  | ok rgbHash => exact ⟨none, rfl⟩
  | error dwStatus => exact ⟨some dwStatus, rfl⟩

theorem disciplined_iff_held :
    Disciplined (accesses (md5 filename encprot size outcome chunks (World.fresh hash)).2.log) ↔
      ∀ handle, ownership (accesses (readWorld filename encprot outcome chunks hash).log) handle =
        .held := by
  obtain ⟨lastError, hlog⟩ := digestResult_log filename encprot size outcome chunks hash
  have htrace : accesses (md5 filename encprot size outcome chunks (World.fresh hash)).2.log =
      (accesses (readWorld filename encprot outcome chunks hash).log ++ [.use .hash]) ++
        [.release .hash, .release .provider, .release .file] := by
    rw [md5_log, hlog]
    simp [accesses, Call.accesses]
  rw [htrace, disciplined_append_releases]
  apply forall_congr'
  intro handle
  rw [ownership_eq_held_iff, ownership_eq_held_iff]
  simp

/-- A world in which the file is held came about without an error. -/
theorem opensAndReads_of_held
    (hheld : ownership (accesses (readWorld filename encprot outcome chunks hash).log) .file =
      .held) : Supported encprot ∧ outcome.OpensAndReads chunks := by
  obtain ⟨hopen, hreads⟩ := readLoop_of_none (readLoop_of_held hheld)
  obtain ⟨hacquiredOpen, hprovider, hcreate⟩ := createHash_fileOpen hopen
  have hfresh : (openFile filename outcome.createFile (World.fresh hash)).providerOpen = false := by
    cases outcome.createFile <;> rfl
  obtain ⟨hsupported, hacquire⟩ := acquireProvider_open hfresh hprovider
  have hfile : outcome.createFile = none := by
    have hopened := acquireProvider_fileOpen hacquiredOpen
    cases hresult : outcome.createFile with
    | none => rfl
    | some dwStatus =>
      rw [hresult] at hopened
      cases hopened
  obtain ⟨hreadFile, hcryptHashData⟩ := readsFrom_zero.mp hreads
  exact ⟨hsupported, hfile, hacquire, hcreate, hreadFile, hcryptHashData⟩

/-- Without an error everything that was opened is still held behind the loop. -/
theorem held_of_opensAndReads (hsupported : Supported encprot)
    (hopens : outcome.OpensAndReads chunks) (handle : CryptHandle) :
    ownership (accesses (readWorld filename encprot outcome chunks hash).log) handle = .held := by
  obtain ⟨dwProvType, dwFlags, hsetup⟩ :=
    setup_of_opens filename hash hsupported hopens
  obtain ⟨hnone, calls, hlog, hkeeps⟩ := readLoop_of_reads 0
    (createHash outcome.cryptCreateHash (acquireProvider encprot
      outcome.cryptAcquireContext (openFile filename outcome.createFile (World.fresh hash))))
    (by rw [hsetup]) (by rw [hsetup]; rfl)
    (readsFrom_zero.mpr ⟨hopens.readFile, hopens.cryptHashData⟩)
  have hworld : (readWorld filename encprot outcome chunks hash).log =
      [.createFile none, .cryptAcquireContext dwProvType dwFlags none, .cryptCreateHash none] ++
        calls := by
    rw [readWorld, readFile_of_none hnone, hlog, hsetup]
  have hquiet : .release handle ∉ accesses calls := by
    intro hrelease
    obtain ⟨call, hcall, hmember⟩ := List.mem_flatMap.mp hrelease
    exact hkeeps call hcall handle hmember
  rw [ownership_eq_held_iff, hworld, accesses, List.flatMap_append, List.mem_append,
    List.mem_append, ← accesses, ← accesses]
  constructor
  · left
    cases handle <;> simp [accesses, Call.accesses]
  · rintro (hfirst | hrest)
    · simp [accesses, Call.accesses] at hfirst
    · exact hquiet hrest

/-- The handles are disciplined exactly when the algorithm is one of the three, everything can be
opened, and no read and no update of the loop fails. -/
theorem disciplined_iff_opensAndReads (filename : String) (encprot : ALG_ID) (size : Int32)
    (outcome : Outcome) {content : List UInt8} (chunking : Chunking content)
    (hash : HashFunction length) :
    Disciplined (accesses
        (md5 filename encprot size outcome chunking.chunks (World.fresh hash)).2.log) ↔
      Supported encprot ∧ outcome.OpensAndReads chunking.chunks := by
  rw [disciplined_iff_held]
  constructor
  · intro hheld
    exact opensAndReads_of_held (hheld .file)
  · rintro ⟨hsupported, hopens⟩ handle
    exact held_of_opensAndReads hsupported hopens handle

/-- `CryptAcquireContext` fails. -/
def acquireFails : Outcome :=
  { allSucceed with cryptAcquireContext := some 5 }

theorem acquireFails_not_disciplined :
    ¬ Disciplined (accesses
      (md5 "abc.txt" calgMd5 16 acquireFails abcChunking.chunks
        (World.fresh abcDigest)).2.log) := by
  rw [disciplined_iff_held]
  intro hheld
  have hacquire := (opensAndReads_of_held (hheld .file)).2.cryptAcquireContext
  revert hacquire
  decide

end WinProcessThread.FileHash
