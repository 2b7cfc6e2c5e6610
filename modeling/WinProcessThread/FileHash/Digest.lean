import WinProcessThread.FileHash.Md5
import WinProcessThread.HexParser.Render

/-!
# The digest or nothing

An error branch of `MD5` goes on with handles it has released, and the first call that needs one of
them fails in its turn: without a file the next read fails, and after a failed read there is no hash
object left for `CryptGetHashParam`.  So the buffer is written only when every call has succeeded,
and then the hash object has been fed the whole file.
-/

namespace WinProcessThread.FileHash

open Service (DWORD)
open HexParser (hexDigits hexDigits_eq)

variable {length : ℕ} {hash : HashFunction length} {world : World hash} {outcome : Outcome}

/-! ## The encoding -/

theorem rgbDigits_getD {digit : ℕ} (hdigit : digit < 16) :
    rgbDigits.getD digit '\x00' = digit.digitChar := by
  have htable : ∀ digit < 16, rgbDigits.getD digit '\x00' = digit.digitChar := by decide
  exact htable digit hdigit

/-- The two characters the loop writes for a byte are its hex digits. -/
theorem rgbDigits_byte (byte : UInt8) :
    [rgbDigits.getD (byte >>> 4).toNat '\x00', rgbDigits.getD (byte &&& 0xf).toNat '\x00'] =
      hexDigits byte := by
  have hbyte : byte.toNat < 256 := byte.toNat_lt
  have hhigh : (byte >>> 4).toNat = byte.toNat / 16 := by
    rw [UInt8.toNat_shiftRight]
    exact Nat.shiftRight_eq_div_pow byte.toNat 4
  have hlow : (byte &&& 0xf).toNat = byte.toNat % 16 := by
    rw [UInt8.toNat_and]
    exact Nat.and_two_pow_sub_one_eq_mod byte.toNat 4
  calc
    [rgbDigits.getD (byte >>> 4).toNat '\x00', rgbDigits.getD (byte &&& 0xf).toNat '\x00'] =
        [(byte.toNat / 16).digitChar, (byte.toNat % 16).digitChar] := by
      rw [hhigh, hlow, rgbDigits_getD (by omega), rgbDigits_getD (by omega)]
    _ = hexDigits byte := (hexDigits_eq byte).symm

theorem hexDigits_length (byte : UInt8) : (hexDigits byte).length = 2 := by
  rw [hexDigits_eq]
  rfl

/-- The rendering of a digest. -/
def hexText (bytes : List UInt8) : List Char :=
  bytes.flatMap hexDigits

theorem hexText_length (bytes : List UInt8) : (hexText bytes).length = 2 * bytes.length := by
  induction bytes with
  | nil => rfl
  | cons byte rest ih =>
    rw [hexText, List.flatMap_cons, List.length_append, hexDigits_length]
    rw [hexText] at ih
    rw [ih, List.length_cons]
    omega

theorem set_pair {front : List Char} {count : ℕ} (hfront : front.length = 2 * count)
    (first second filler : Char) (room : ℕ) :
    ((front ++ List.replicate (room + 2) filler).set (count * 2) first).set (count * 2 + 1) second =
      front ++ [first, second] ++ List.replicate room filler := by
  have hindex : count * 2 = front.length := by omega
  rw [hindex, List.set_append_right _ _ le_rfl, List.set_append_right _ _ (by omega)]
  simp [List.replicate_succ]

/-- The loop writes the rendering of the bytes it has passed at the front of an empty buffer. -/
theorem encodeDigest_eq (rgbHash : List UInt8) (room : ℕ) :
    encodeDigest rgbHash rgbHash.length (List.replicate (2 * rgbHash.length + room) '\x00') =
      hexText rgbHash ++ List.replicate room '\x00' := by
  suffices hpassed : ∀ count ≤ rgbHash.length,
      encodeDigest rgbHash count (List.replicate (2 * rgbHash.length + room) '\x00') =
        hexText (rgbHash.take count) ++
          List.replicate (2 * (rgbHash.length - count) + room) '\x00' by
    have hall := hpassed rgbHash.length le_rfl
    simpa using hall
  intro count hcount
  induction count with
  | zero => simp [encodeDigest, hexText]
  | succ count ih =>
    have hlt : count < rgbHash.length := hcount
    have hroom : 2 * (rgbHash.length - count) + room =
        2 * (rgbHash.length - (count + 1)) + room + 2 := by omega
    have hfront : (hexText (rgbHash.take count)).length = 2 * count := by
      rw [hexText_length, List.length_take, Nat.min_eq_left hlt.le]
    have hbyte : rgbHash.getD count 0 = rgbHash[count] := by
      simp [hlt]
    calc
      encodeDigest rgbHash (count + 1) (List.replicate (2 * rgbHash.length + room) '\x00') =
          ((encodeDigest rgbHash count (List.replicate (2 * rgbHash.length + room) '\x00')).set
              (count * 2) (rgbDigits.getD (rgbHash[count] >>> 4).toNat '\x00')).set (count * 2 + 1)
            (rgbDigits.getD (rgbHash[count] &&& 0xf).toNat '\x00') := by
        rw [encodeDigest, List.range_succ, List.foldl_append, ← hbyte]
        rfl
      _ = hexText (rgbHash.take count) ++ hexDigits rgbHash[count] ++
            List.replicate (2 * (rgbHash.length - (count + 1)) + room) '\x00' := by
        rw [ih hlt.le, hroom, set_pair hfront, rgbDigits_byte]
      _ = hexText (rgbHash.take (count + 1)) ++
            List.replicate (2 * (rgbHash.length - (count + 1)) + room) '\x00' := by
        rw [List.take_succ_eq_append_getElem hlt, hexText, hexText, List.flatMap_append]
        simp

/-- A rendering contains no NUL, so it is all of the string in front of the empty rest. -/
theorem cString_hexText (bytes : List UInt8) (room : ℕ) :
    cString (hexText bytes ++ List.replicate room '\x00') = hexText bytes := by
  have hdigits : ∀ digit < 16, digit.digitChar ≠ '\x00' := by decide
  have hnonzero : ∀ char ∈ hexText bytes, decide (char ≠ '\x00') = true := by
    intro char hchar
    obtain ⟨byte, -, hdigit⟩ := List.mem_flatMap.mp hchar
    have hbyte : byte.toNat < 256 := byte.toNat_lt
    rw [hexDigits_eq, List.mem_pair] at hdigit
    rcases hdigit with rfl | rfl
    · exact decide_eq_true (hdigits _ (by omega))
    · exact decide_eq_true (hdigits _ (by omega))
  rw [cString, List.takeWhile_append_of_pos hnonzero]
  cases room with
  | zero => simp
  | succ room => simp [List.replicate_succ]

theorem cString_empty (room : ℕ) : cString (List.replicate room '\x00') = [] := by
  cases room with
  | zero => rfl
  | succ room => simp [cString, List.replicate_succ]

/-! ## Success so far, or a closed file -/

/-- All calls so far have succeeded, and the hash object was fed these chunks. -/
structure Sound (fed : List (List UInt8)) (world : World hash) : Prop where
  fileOpen : world.fileOpen = true
  hashObject : world.hashObject = some (fed.foldl hash.update hash.init)
  succeeded : ∀ call ∈ world.log, call.Succeeded

/-- One of the calls has failed. -/
def HasFailed (world : World hash) : Prop :=
  ∃ call ∈ world.log, ¬ call.Succeeded

/-- A call has failed, and nothing more can be read from the file. -/
structure Broken (world : World hash) : Prop where
  fileOpen : world.fileOpen = false
  failed : HasFailed world

theorem HasFailed.append {after : World hash} (hfailed : HasFailed world) {calls : List Call}
    (hlog : after.log = world.log ++ calls) : HasFailed after := by
  obtain ⟨call, hcall, hnot⟩ := hfailed
  exact ⟨call, hlog ▸ List.mem_append_left calls hcall, hnot⟩

theorem hasFailed_call {call : Call} (world : World hash) (hnot : ¬ call.Succeeded) :
    HasFailed (world.call call) :=
  ⟨call, List.mem_append_right _ (List.mem_singleton_self call), hnot⟩

theorem succeeded_call {call : Call} (hsucceeded : ∀ call ∈ world.log, call.Succeeded)
    (hlast : call.Succeeded) : ∀ other ∈ (world.call call).log, other.Succeeded := by
  intro other hother
  rcases List.mem_append.mp hother with hearlier | hnew
  · exact hsucceeded other hearlier
  · rw [List.mem_singleton.mp hnew]
    exact hlast

/-- The file is open and all calls so far have succeeded, or a call has failed and it is closed. -/
def Opening (world : World hash) : Prop :=
  (world.fileOpen = true ∧ ∀ call ∈ world.log, call.Succeeded) ∨ Broken world

theorem opening_openFile (filename : String) (lastError : Option DWORD) :
    Opening (openFile filename lastError (World.fresh hash)) := by
  cases lastError with
  | none =>
    refine .inl ⟨rfl, fun call hcall ↦ ?_⟩
    rw [List.mem_singleton.mp hcall]
    rfl
  | some dwStatus =>
    exact .inr ⟨rfl, .createFile (some dwStatus), List.mem_singleton_self _,
      Option.some_ne_none dwStatus⟩

theorem Opening.acquireContext (hopening : Opening world) (dwProvType dwFlags : DWORD)
    (lastError : Option DWORD) :
    Opening (acquireContext dwProvType dwFlags lastError world) := by
  cases lastError with
  | none =>
    rcases hopening with ⟨hopen, hsucceeded⟩ | hbroken
    · exact .inl ⟨hopen, succeeded_call hsucceeded rfl⟩
    · exact .inr ⟨hbroken.fileOpen, hbroken.failed.append rfl⟩
  | some dwStatus =>
    refine .inr ⟨rfl, .cryptAcquireContext dwProvType dwFlags (some dwStatus), ?_,
      Option.some_ne_none dwStatus⟩
    exact List.mem_append_left _ (List.mem_append_right _ (List.mem_singleton_self _))

theorem Opening.acquireProvider (hopening : Opening world) (encprot : ALG_ID)
    (lastError : Option DWORD) : Opening (acquireProvider encprot lastError world) := by
  have hstep : ∀ (condition : Prop) [Decidable condition] (dwProvType dwFlags : DWORD)
      (world : World hash), Opening world →
      Opening (if condition then FileHash.acquireContext dwProvType dwFlags lastError world
        else world) := by
    intro condition _ dwProvType dwFlags world hworld
    split_ifs
    · exact hworld.acquireContext dwProvType dwFlags lastError
    · exact hworld
  exact hstep _ _ _ _ (hstep _ _ _ _ (hstep _ _ _ _ hopening))

/-- The hash object is created empty; without a provider the creation fails. -/
theorem Opening.createHash (hopening : Opening world) (lastError : Option DWORD) :
    Sound [] (createHash lastError world) ∨ Broken (createHash lastError world) := by
  unfold FileHash.createHash
  cases hresult : onHandle world.providerOpen lastError with
  | none =>
    rcases hopening with ⟨hopen, hsucceeded⟩ | hbroken
    · exact .inl ⟨hopen, rfl, succeeded_call hsucceeded rfl⟩
    · exact .inr ⟨hbroken.fileOpen, hbroken.failed.append rfl⟩
  | some dwStatus =>
    refine .inr ⟨rfl, .cryptCreateHash (some dwStatus), ?_, Option.some_ne_none dwStatus⟩
    exact List.mem_append_left _ (List.mem_append_left _
      (List.mem_append_right _ (List.mem_singleton_self _)))

/-! ## The read loop -/

theorem Sound.hashData {fed : List (List UInt8)} (hsound : Sound fed world)
    (rgbFile : List UInt8) (lastError : Option DWORD) :
    Sound (fed ++ [rgbFile]) (hashData rgbFile lastError world) ∨
      Broken (hashData rgbFile lastError world) := by
  have hlive : onHandle world.hashObject.isSome lastError = lastError := by
    rw [hsound.hashObject]
    rfl
  unfold FileHash.hashData
  rw [hlive]
  cases lastError with
  | none =>
    refine .inl ⟨hsound.fileOpen, ?_, succeeded_call hsound.succeeded rfl⟩
    change world.hashObject.map _ = _
    rw [hsound.hashObject, List.foldl_append]
    rfl
  | some dwStatus =>
    refine .inr ⟨rfl, .cryptHashData (some dwStatus), ?_, Option.some_ne_none dwStatus⟩
    exact List.mem_append_left _ (List.mem_append_left _ (List.mem_append_left _
      (List.mem_append_right _ (List.mem_singleton_self _))))

theorem readLoop_of_error {index : ℕ} {dwStatus : DWORD}
    (hread : onHandle world.fileOpen (outcome.readFile index) = some dwStatus)
    (chunks : List (List UInt8)) :
    readLoop outcome chunks index world =
      (some dwStatus, world.call (.readFile (some dwStatus))) := by
  unfold readLoop
  rw [hread]

theorem hasFailed_readLoop {index : ℕ} {dwStatus : DWORD}
    (hread : onHandle world.fileOpen (outcome.readFile index) = some dwStatus)
    (chunks : List (List UInt8)) :
    ∃ dwStatus, (readLoop outcome chunks index world).1 = some dwStatus ∧
      HasFailed (readLoop outcome chunks index world).2 := by
  rw [readLoop_of_error hread]
  exact ⟨dwStatus, rfl, hasFailed_call world (Option.some_ne_none dwStatus)⟩

/-- On a closed file the loop ends with the next read. -/
theorem Broken.readLoop (hbroken : Broken world) (outcome : Outcome) (chunks : List (List UInt8))
    (index : ℕ) :
    ∃ dwStatus, (readLoop outcome chunks index world).1 = some dwStatus ∧
      HasFailed (readLoop outcome chunks index world).2 := by
  have hclosed : onHandle world.fileOpen (outcome.readFile index) =
      some ((outcome.readFile index).getD errorInvalidHandle) := by
    rw [hbroken.fileOpen]
    rfl
  rw [readLoop_of_error hclosed]
  exact ⟨_, rfl, hbroken.failed.append rfl⟩

theorem Sound.call_readFile {fed : List (List UInt8)} (hsound : Sound fed world) :
    Sound fed (world.call (.readFile none)) :=
  ⟨hsound.fileOpen, hsound.hashObject, succeeded_call hsound.succeeded rfl⟩

/-- The loop feeds all chunks to the hash object, or a call fails and it ends with an error. -/
theorem Sound.readLoop {fed : List (List UInt8)} (hsound : Sound fed world) (outcome : Outcome)
    (chunks : List (List UInt8)) (index : ℕ) :
    ((readLoop outcome chunks index world).1 = none ∧
        Sound (fed ++ chunks) (readLoop outcome chunks index world).2) ∨
      ∃ dwStatus, (readLoop outcome chunks index world).1 = some dwStatus ∧
        HasFailed (readLoop outcome chunks index world).2 := by
  induction chunks generalizing fed world index with
  | nil =>
    cases hread : onHandle world.fileOpen (outcome.readFile index) with
    | some dwStatus => exact .inr (hasFailed_readLoop hread _)
    | none =>
      unfold FileHash.readLoop
      rw [hread, List.append_nil]
      exact .inl ⟨rfl, hsound.call_readFile⟩
  | cons rgbFile rest ih =>
    cases hread : onHandle world.fileOpen (outcome.readFile index) with
    | some dwStatus => exact .inr (hasFailed_readLoop hread _)
    | none =>
      unfold FileHash.readLoop
      rw [hread]
      rcases hsound.call_readFile.hashData rgbFile (outcome.cryptHashData index) with
        hnext | hbroken
      · have hrest := ih hnext (index + 1)
        rw [List.append_assoc] at hrest
        exact hrest
      · exact .inr (hbroken.readLoop outcome rest (index + 1))

/-- What the read loop and its error branch leave: a hash object that has seen the whole file, or
none at all. -/
def Finished (chunks : List (List UInt8)) (world : World hash) : Prop :=
  Sound chunks world ∨ (world.hashObject = none ∧ HasFailed world)

theorem finished_releaseAll (hfailed : HasFailed world) (text : String) (dwStatus : DWORD)
    (chunks : List (List UInt8)) :
    Finished chunks (releaseAll (world.printError text dwStatus)) := by
  have hlog : (releaseAll (world.printError text dwStatus)).log =
      world.log ++ [.cryptReleaseContext, .cryptDestroyHash, .closeHandle] := by
    simp [releaseAll, World.printError, World.print, World.closeHandle, World.cryptDestroyHash,
      World.cryptReleaseContext, World.call]
  exact .inr ⟨rfl, hfailed.append hlog⟩

theorem finished_readFile (outcome : Outcome) (chunks : List (List UInt8))
    (hopened : Sound [] world ∨ Broken world) :
    Finished chunks (readFile outcome chunks world) := by
  have hloop : ((readLoop outcome chunks 0 world).1 = none ∧
        Sound chunks (readLoop outcome chunks 0 world).2) ∨
      ∃ dwStatus, (readLoop outcome chunks 0 world).1 = some dwStatus ∧
        HasFailed (readLoop outcome chunks 0 world).2 := by
    rcases hopened with hsound | hbroken
    · exact hsound.readLoop outcome chunks 0
    · exact .inr (hbroken.readLoop outcome chunks 0)
  unfold readFile
  rcases hloop with ⟨hnone, hsound⟩ | ⟨dwStatus, hsome, hfailed⟩
  · split
    · next after hafter =>
      rw [hafter] at hsound
      exact .inl hsound
    · next dwStatus after hafter =>
      rw [hafter] at hnone
      cases hnone
  · split
    · next after hafter =>
      rw [hafter] at hsome
      cases hsome
    · next dwStatus after hafter =>
      rw [hafter] at hfailed
      exact finished_releaseAll hfailed _ _ chunks

/-! ## The result -/

/-- A buffer size counts as it is when it is not negative. -/
theorem le_toUInt32 {size : Int32} {count : ℕ} (hsize : (count : ℤ) ≤ size.toInt) :
    count ≤ size.toUInt32.toNat := by
  have hbits : size.toInt = size.toUInt32.toBitVec.toInt := rfl
  have hnat : size.toUInt32.toNat = size.toUInt32.toBitVec.toNat := rfl
  rw [hbits, BitVec.toInt_eq_toNat_cond] at hsize
  rw [hnat]
  split at hsize <;> omega

/-- The buffer holds the digest and every call has succeeded, or it is empty and one has failed. -/
def DigestOrFailure (digest : List UInt8) (result : List Char × World hash) : Prop :=
  (cString result.1 = hexText digest ∧ ∀ call ∈ result.2.log, call.Succeeded) ∨
    (cString result.1 = [] ∧ HasFailed result.2)

/-- On a hash object that has seen the whole file, the last call decides. -/
theorem Sound.writeDigest {chunks : List (List UInt8)} (hsound : Sound chunks world)
    {cbHash : DWORD} (hroom : length ≤ cbHash.toNat) (hlength : 2 * length ≤ 500)
    (lastError : Option DWORD) :
    DigestOrFailure (hash.digest chunks.flatten)
      (writeDigest cbHash lastError zeroedBuffer world) := by
  have hdigest : hash.finish (chunks.foldl hash.update hash.init) = hash.digest chunks.flatten :=
    hash.finish_update chunks
  have hlengthDigest := hash.length_digest chunks.flatten
  cases lastError with
  | none =>
    have hok : getHashParam cbHash none world = .ok (hash.digest chunks.flatten) := by
      unfold getHashParam
      rw [hsound.hashObject]
      dsimp only
      rw [hdigest, if_pos (by omega)]
    have hbuffer : zeroedBuffer =
        List.replicate (2 * (hash.digest chunks.flatten).length + (500 - 2 * length)) '\x00' := by
      unfold zeroedBuffer
      congr 1
      omega
    rw [FileHash.writeDigest, hok]
    refine .inl ⟨?_, succeeded_call hsound.succeeded rfl⟩
    dsimp only
    rw [hbuffer, encodeDigest_eq, cString_hexText]
  | some dwStatus =>
    have herror : getHashParam cbHash (some dwStatus) world = .error dwStatus := by
      unfold getHashParam
      rw [hsound.hashObject]
    rw [FileHash.writeDigest, herror]
    exact .inr ⟨cString_empty 500, hasFailed_call world (Option.some_ne_none dwStatus)⟩

/-- Without a hash object the buffer stays empty. -/
theorem writeDigest_of_none (hnone : world.hashObject = none) (hfailed : HasFailed world)
    (cbHash : DWORD) (lastError : Option DWORD) (digest : List UInt8) :
    DigestOrFailure digest (writeDigest cbHash lastError zeroedBuffer world) := by
  have herror : getHashParam cbHash lastError world =
      .error (lastError.getD errorInvalidHandle) := by
    unfold getHashParam
    rw [hnone]
  rw [writeDigest, herror]
  exact .inr ⟨cString_empty 500, hfailed.append rfl⟩

theorem printResult_log (encprot : ALG_ID) (filename : String) (strHash : List Char)
    (world : World hash) : (printResult encprot filename strHash world).log = world.log := by
  unfold printResult
  dsimp only
  split_ifs <;> rfl

/-- The world in which `CryptGetHashParam` is called. -/
def readWorld (filename : String) (encprot : ALG_ID) (outcome : Outcome)
    (chunks : List (List UInt8)) (hash : HashFunction length) : World hash :=
  readFile outcome chunks (createHash outcome.cryptCreateHash
    (acquireProvider encprot outcome.cryptAcquireContext
      (openFile filename outcome.createFile (World.fresh hash))))

theorem finished_readWorld (filename : String) (encprot : ALG_ID) (outcome : Outcome)
    (chunks : List (List UInt8)) (hash : HashFunction length) :
    Finished chunks (readWorld filename encprot outcome chunks hash) := by
  apply finished_readFile
  have hopened : Opening (openFile filename outcome.createFile (World.fresh hash)) :=
    opening_openFile filename outcome.createFile
  exact (hopened.acquireProvider encprot outcome.cryptAcquireContext).createHash
    outcome.cryptCreateHash

/-- The result of `MD5` before it prints it and releases what is left. -/
def digestResult (filename : String) (encprot : ALG_ID) (size : Int32) (outcome : Outcome)
    (chunks : List (List UInt8)) (hash : HashFunction length) : List Char × World hash :=
  writeDigest size.toUInt32 outcome.cryptGetHashParam zeroedBuffer
    (readWorld filename encprot outcome chunks hash)

theorem md5_fst (filename : String) (encprot : ALG_ID) (size : Int32) (outcome : Outcome)
    (chunks : List (List UInt8)) (hash : HashFunction length) :
    (md5 filename encprot size outcome chunks (World.fresh hash)).1 =
      (digestResult filename encprot size outcome chunks hash).1 := rfl

/-- Behind the digest only releases are logged. -/
theorem md5_log (filename : String) (encprot : ALG_ID) (size : Int32) (outcome : Outcome)
    (chunks : List (List UInt8)) (hash : HashFunction length) :
    (md5 filename encprot size outcome chunks (World.fresh hash)).2.log =
      (digestResult filename encprot size outcome chunks hash).2.log ++
        [.cryptDestroyHash, .cryptReleaseContext, .closeHandle] := by
  have hworld : (md5 filename encprot size outcome chunks (World.fresh hash)).2 =
      (printResult encprot filename
        (digestResult filename encprot size outcome chunks hash).1
        (digestResult filename encprot size outcome chunks hash).2
        ).cryptDestroyHash.cryptReleaseContext.closeHandle := rfl
  rw [hworld]
  simp only [World.closeHandle, World.cryptDestroyHash, World.cryptReleaseContext, World.call,
    printResult_log, List.append_assoc, List.cons_append, List.nil_append]

/-- **Digest or nothing.**  The string that is returned is empty or the hex rendering of the digest
of the whole file, and it is not empty exactly when every call of the run has succeeded. -/
theorem digest_or_nothing (filename : String) {encprot : ALG_ID} {size : Int32}
    (hsize : (digestLength encprot : ℤ) ≤ size.toInt) (outcome : Outcome) {content : List UInt8}
    (chunking : Chunking content) (hash : HashFunction (digestLength encprot)) :
    (cString (md5 filename encprot size outcome chunking.chunks (World.fresh hash)).1 = [] ∨
        cString (md5 filename encprot size outcome chunking.chunks (World.fresh hash)).1 =
          hexText (hash.digest content)) ∧
      (cString (md5 filename encprot size outcome chunking.chunks (World.fresh hash)).1 ≠ [] ↔
        ∀ call ∈ (md5 filename encprot size outcome chunking.chunks (World.fresh hash)).2.log,
          call.Succeeded) := by
  obtain ⟨chunks, rfl, -, -⟩ := chunking
  have hlength : 2 * digestLength encprot ≤ 500 := by
    have hle := digestLength_le encprot
    omega
  have hresult : DigestOrFailure (hash.digest chunks.flatten)
      (digestResult filename encprot size outcome chunks hash) := by
    rcases finished_readWorld filename encprot outcome chunks hash with hsound | ⟨hnone, hfailed⟩
    · exact hsound.writeDigest (le_toUInt32 hsize) hlength outcome.cryptGetHashParam
    · exact writeDigest_of_none hnone hfailed size.toUInt32 outcome.cryptGetHashParam _
  have hnonempty : hexText (hash.digest chunks.flatten) ≠ [] := by
    intro hempty
    have hzero := congrArg List.length hempty
    rw [hexText_length, hash.length_digest, List.length_nil] at hzero
    have hpos := digestLength_pos encprot
    omega
  dsimp only
  rw [md5_fst, md5_log]
  rcases hresult with ⟨hstring, hsucceeded⟩ | ⟨hempty, hfailed⟩
  · refine ⟨.inr hstring, iff_of_true (hstring ▸ hnonempty) fun call hcall ↦ ?_⟩
    rcases List.mem_append.mp hcall with hearlier | hrelease
    · exact hsucceeded call hearlier
    · simp only [List.mem_cons, List.not_mem_nil, or_false] at hrelease
      rcases hrelease with rfl | rfl | rfl <;> trivial
  · refine ⟨.inl hempty, iff_of_false (not_not_intro hempty) fun hall ↦ ?_⟩
    obtain ⟨call, hcall, hnot⟩ := hfailed
    exact hnot (hall call (List.mem_append_left _ hcall))

/-- A provider that knows the MD5 digest of the text `abc`. -/
def abcDigest : HashFunction (digestLength calgMd5) where
  State := List UInt8
  init := []
  update := (· ++ ·)
  finish bytes :=
    if bytes = [0x61, 0x62, 0x63] then
      [0x90, 0x01, 0x50, 0x98, 0x3C, 0xD2, 0x4F, 0xB0,
        0xD6, 0x96, 0x3F, 0x7D, 0x28, 0xE1, 0x7F, 0x72]
    else
      List.replicate 16 0
  digest bytes :=
    if bytes = [0x61, 0x62, 0x63] then
      [0x90, 0x01, 0x50, 0x98, 0x3C, 0xD2, 0x4F, 0xB0,
        0xD6, 0x96, 0x3F, 0x7D, 0x28, 0xE1, 0x7F, 0x72]
    else
      List.replicate 16 0
  finish_update chunks := by
    have hfed : ∀ state : List UInt8, chunks.foldl (· ++ ·) state = state ++ chunks.flatten := by
      intro state
      induction chunks generalizing state with
      | nil => simp
      | cons chunk rest ih => simp [ih]
    rw [hfed, List.nil_append]
  length_digest bytes := by
    split <;> rfl

def abcChunking : Chunking [0x61, 0x62, 0x63] where
  chunks := [[0x61], [0x62, 0x63]]
  flatten_chunks := rfl
  length_pos := by decide
  length_le := by decide

/-- Every call succeeds. -/
def allSucceed : Outcome where
  createFile := none
  cryptAcquireContext := none
  cryptCreateHash := none
  readFile _ := none
  cryptHashData _ := none
  cryptGetHashParam := none

theorem digest_or_nothing_abc :
    cString (md5 "abc.txt" calgMd5 16 allSucceed abcChunking.chunks (World.fresh abcDigest)).1 =
      "900150983cd24fb0d6963f7d28e17f72".toList := by
  have hsize : (digestLength calgMd5 : ℤ) ≤ (16 : Int32).toInt := by decide
  obtain ⟨hstring, hsucceeds⟩ :=
    digest_or_nothing "abc.txt" hsize allSucceed abcChunking abcDigest
  have hnonempty := hsucceeds.mpr (by decide +kernel)
  rw [hstring.resolve_left hnonempty]
  decide

end WinProcessThread.FileHash
