import WinProcessThread.FileHash.Digest

/-!
# What the hash program prints

No error branch of `MD5` returns, so a run prints a line for each call to open, read or hash that
has failed and ends with the line of the digest in any case; what fails to be released is not
reported.  `main` hashes one file three times; its output is the three reports one after the other,
and none of them depends on how the others went.
-/

namespace WinProcessThread.FileHash

open Service (DWORD)

variable {length : ℕ} {hash : HashFunction length} {world : World hash} {outcome : Outcome}
variable {filename : String}

def md5Len : Int32 := 16
def sha1Len : Int32 := 20
def sha256Len : Int32 := 50

/-- The name of the file, with a blank at its end. -/
def cmdExe : String := "C:\\WINDOWS\\system32\\cmd.exe "

/-- One call of `MD5` in `main`: the algorithm as the system has it, what the calls return, and the
pieces in which the file is read. -/
structure Hashing (encprot : ALG_ID) where
  hash : HashFunction (digestLength encprot)
  outcome : Outcome
  content : List UInt8
  chunking : Chunking content

/-- A call of `MD5` with nothing open. -/
def Hashing.run {encprot : ALG_ID} (hashing : Hashing encprot) (size : Int32) :
    List Char × World hashing.hash :=
  md5 cmdExe encprot size hashing.outcome hashing.chunking.chunks (World.fresh hashing.hash)

/-- `main`: everything it prints.  The buffers it is given are dropped. -/
def main (first : Hashing calgMd5) (second : Hashing calgSha1) (third : Hashing calgSha256) :
    List String :=
  (first.run md5Len).2.printed ++ (second.run sha1Len).2.printed ++
    (third.run sha256Len).2.printed

/-- A line that ends in an error code. -/
def withCode (text : String) (dwStatus : DWORD) : String :=
  text ++ toString dwStatus.toInt32.toInt ++ "\n"

/-- The line for a call that has failed.  A hash object that could not be created is reported under
the name of the provider. -/
def errorLine (filename : String) : Call → Option String
  | .createFile lastError =>
    lastError.map (withCode ("Error opening file " ++ filename ++ "\nError: "))
  | .cryptAcquireContext _ _ lastError => lastError.map (withCode "CryptAcquireContext failed: ")
  | .cryptCreateHash lastError => lastError.map (withCode "CryptAcquireContext failed: ")
  | .readFile lastError => lastError.map (withCode "ReadFile failed: ")
  | .cryptHashData lastError => lastError.map (withCode "CryptHashData failed: ")
  | .cryptGetHashParam lastError => lastError.map (withCode "CryptGetHashParam failed: ")
  | .cryptReleaseContext | .cryptDestroyHash | .closeHandle => none

def errorLines (filename : String) (log : List Call) : List String :=
  log.filterMap (errorLine filename)

theorem errorLines_append (log later : List Call) :
    errorLines filename (log ++ later) = errorLines filename log ++ errorLines filename later :=
  List.filterMap_append

/-- The failed calls are the ones with a line. -/
theorem errorLine_eq_none_iff (call : Call) : errorLine filename call = none ↔ call.Succeeded := by
  cases call <;> simp [errorLine, Call.Succeeded]

theorem errorLines_eq_nil_iff (log : List Call) :
    errorLines filename log = [] ↔ ∀ call ∈ log, call.Succeeded := by
  rw [errorLines, List.filterMap_eq_nil_iff]
  exact forall₂_congr fun call _ ↦ errorLine_eq_none_iff call

/-- So far the printed lines are those of the failed calls, in the order of the calls. -/
def Told (filename : String) (world : World hash) : Prop :=
  world.printed = errorLines filename world.log

theorem told_fresh : Told filename (World.fresh hash) := rfl

/-- A call that succeeds prints nothing. -/
theorem Told.call (htold : Told filename world) {call : Call}
    (hsilent : errorLine filename call = none) : Told filename (world.call call) := by
  have hnone : errorLines filename [call] = [] := by simp [errorLines, hsilent]
  calc
    (world.call call).printed = errorLines filename world.log := htold
    _ = errorLines filename world.log ++ errorLines filename [call] := by
      rw [hnone, List.append_nil]
    _ = errorLines filename (world.call call).log := (errorLines_append world.log [call]).symm

/-- A call that fails is followed by its line. -/
theorem Told.failed (htold : Told filename world) {call : Call} {text : String} {dwStatus : DWORD}
    (hline : errorLine filename call = some (withCode text dwStatus)) :
    Told filename ((world.call call).printError text dwStatus) := by
  have hlast : errorLines filename [call] = [withCode text dwStatus] := by simp [errorLines, hline]
  calc
    ((world.call call).printError text dwStatus).printed =
        world.printed ++ [withCode text dwStatus] := rfl
    _ = errorLines filename world.log ++ errorLines filename [call] := by
      rw [htold, hlast]
    _ = errorLines filename ((world.call call).printError text dwStatus).log :=
      (errorLines_append world.log [call]).symm

theorem Told.closeHandle (htold : Told filename world) :
    Told filename world.closeHandle :=
  htold.call rfl

theorem Told.cryptReleaseContext (htold : Told filename world) :
    Told filename world.cryptReleaseContext :=
  htold.call rfl

theorem Told.cryptDestroyHash (htold : Told filename world) :
    Told filename world.cryptDestroyHash :=
  htold.call rfl

theorem Told.releaseAll (htold : Told filename world) :
    Told filename (releaseAll world) :=
  htold.cryptReleaseContext.cryptDestroyHash.closeHandle

theorem Told.openFile (htold : Told filename world) (lastError : Option DWORD) :
    Told filename (openFile filename lastError world) := by
  cases lastError with
  | none => exact htold.call rfl
  | some dwStatus => exact htold.failed rfl

theorem Told.acquireContext (htold : Told filename world) (dwProvType dwFlags : DWORD)
    (lastError : Option DWORD) :
    Told filename (acquireContext dwProvType dwFlags lastError world) := by
  cases lastError with
  | none => exact htold.call rfl
  | some dwStatus => exact (htold.failed rfl).closeHandle

theorem Told.acquireProvider (htold : Told filename world) (encprot : ALG_ID)
    (lastError : Option DWORD) :
    Told filename (acquireProvider encprot lastError world) := by
  have hstep : ∀ (condition : Prop) [Decidable condition] (dwProvType dwFlags : DWORD)
      (world : World hash), Told filename world →
      Told filename (if condition then FileHash.acquireContext dwProvType dwFlags lastError world
        else world) := by
    intro condition _ dwProvType dwFlags world htold
    split_ifs
    · exact htold.acquireContext dwProvType dwFlags lastError
    · exact htold
  exact hstep _ _ _ _ (hstep _ _ _ _ (hstep _ _ _ _ htold))

theorem Told.createHash (htold : Told filename world) (lastError : Option DWORD) :
    Told filename (createHash lastError world) := by
  unfold FileHash.createHash
  cases onHandle world.providerOpen lastError with
  | none => exact htold.call rfl
  | some dwStatus => exact (htold.failed rfl).closeHandle.cryptReleaseContext

theorem Told.hashData (htold : Told filename world) (rgbFile : List UInt8)
    (lastError : Option DWORD) :
    Told filename (hashData rgbFile lastError world) := by
  unfold FileHash.hashData
  cases onHandle world.hashObject.isSome lastError with
  | none => exact htold.call rfl
  | some dwStatus => exact (htold.failed rfl).releaseAll

/-- What the loop leaves to the branch behind it: only a last read that has failed is not told. -/
def ToldBut (filename : String) (result : Option DWORD × World hash) : Prop :=
  match result.1 with
  | none => Told filename result.2
  | some dwStatus =>
    ∃ world : World hash, Told filename world ∧
      result.2 = world.call (.readFile (some dwStatus))

/-- Every chunk adds a read and a hashing, each with its line if it fails. -/
theorem Told.readLoop (htold : Told filename world) (outcome : Outcome)
    (chunks : List (List UInt8)) (index : ℕ) :
    ToldBut filename (readLoop outcome chunks index world) := by
  induction chunks generalizing world index with
  | nil =>
    unfold FileHash.readLoop
    cases onHandle world.fileOpen (outcome.readFile index) with
    | none => exact htold.call rfl
    | some dwStatus => exact ⟨world, htold, rfl⟩
  | cons rgbFile rest ih =>
    unfold FileHash.readLoop
    cases onHandle world.fileOpen (outcome.readFile index) with
    | none =>
      have hread : Told filename (world.call (.readFile none)) := htold.call rfl
      exact ih (hread.hashData rgbFile (outcome.cryptHashData index)) (index + 1)
    | some dwStatus => exact ⟨world, htold, rfl⟩

theorem Told.readFile (htold : Told filename world) (outcome : Outcome)
    (chunks : List (List UInt8)) : Told filename (readFile outcome chunks world) := by
  have hloop := htold.readLoop outcome chunks 0
  unfold FileHash.readFile
  cases hresult : FileHash.readLoop outcome chunks 0 world with
  | mk lastError after =>
    rw [hresult] at hloop
    cases lastError with
    | none => exact hloop
    | some dwStatus =>
      obtain ⟨before, hbefore, hafter⟩ := hloop
      dsimp only at hafter ⊢
      rw [hafter]
      exact (hbefore.failed rfl).releaseAll

theorem Told.writeDigest (htold : Told filename world) (cbHash : DWORD)
    (lastError : Option DWORD) (strHash : List Char) :
    Told filename (writeDigest cbHash lastError strHash world).2 := by
  unfold FileHash.writeDigest
  cases getHashParam cbHash lastError world with
  | ok rgbHash => exact htold.call rfl
  | error dwStatus => exact htold.failed rfl

theorem told_digestResult (filename : String) (encprot : ALG_ID) (size : Int32)
    (outcome : Outcome) (chunks : List (List UInt8)) (hash : HashFunction length) :
    Told filename (digestResult filename encprot size outcome chunks hash).2 := by
  have hopened : Told filename (openFile filename outcome.createFile (World.fresh hash)) :=
    told_fresh.openFile outcome.createFile
  have hcreated := (hopened.acquireProvider encprot outcome.cryptAcquireContext).createHash
    outcome.cryptCreateHash
  exact (hcreated.readFile outcome chunks).writeDigest size.toUInt32 outcome.cryptGetHashParam
    zeroedBuffer

/-- The name that an algorithm is reported under. -/
def algorithmName (encprot : ALG_ID) : String :=
  if encprot = calgMd5 then "MD5" else if encprot = calgSha1 then "SHA1" else "SHA256"

/-- The two lines of the result. -/
def resultLines (encprot : ALG_ID) (filename : String) (digits : List Char) : List String :=
  [algorithmName encprot ++ " hash of file " ++ filename ++ " is: ", String.ofList digits ++ "\n"]

theorem printResult_printed {encprot : ALG_ID} (hsupported : Supported encprot)
    (strHash : List Char) (world : World hash) :
    (printResult encprot filename strHash world).printed =
      world.printed ++ resultLines encprot filename (cString strHash) := by
  have hlines : ∀ title line, ((world.print title).print line).printed =
      world.printed ++ [title, line] := fun title line ↦ List.append_assoc _ _ _
  have hsha1 : calgMd5 ≠ calgSha1 := by decide
  have hsha256 : calgMd5 ≠ calgSha256 ∧ calgSha1 ≠ calgSha256 := by decide
  unfold printResult
  dsimp only
  rcases hsupported with rfl | rfl | rfl
  · rw [if_neg hsha256.1, if_neg hsha1, if_pos rfl, hlines]
    rfl
  · rw [if_neg hsha256.2, if_pos rfl, if_neg hsha1.symm, hlines]
    rfl
  · rw [if_pos rfl, if_neg hsha256.2.symm, if_neg hsha256.1.symm, hlines]
    rfl

/-- A call of `MD5` prints the lines of its failed calls and then its result. -/
theorem md5_printed {encprot : ALG_ID} (hsupported : Supported encprot) (filename : String)
    (size : Int32) (outcome : Outcome) (chunks : List (List UInt8)) (hash : HashFunction length) :
    (md5 filename encprot size outcome chunks (World.fresh hash)).2.printed =
      errorLines filename (md5 filename encprot size outcome chunks (World.fresh hash)).2.log ++
        resultLines encprot filename
          (cString (md5 filename encprot size outcome chunks (World.fresh hash)).1) := by
  have htold := told_digestResult filename encprot size outcome chunks hash
  have hreleases :
      errorLines filename [.cryptDestroyHash, .cryptReleaseContext, .closeHandle] = [] :=
    rfl
  calc
    (md5 filename encprot size outcome chunks (World.fresh hash)).2.printed =
        (printResult encprot filename (digestResult filename encprot size outcome chunks hash).1
          (digestResult filename encprot size outcome chunks hash).2).printed := rfl
    _ = (digestResult filename encprot size outcome chunks hash).2.printed ++
          resultLines encprot filename
            (cString (digestResult filename encprot size outcome chunks hash).1) :=
      printResult_printed hsupported _ _
    _ = errorLines filename (digestResult filename encprot size outcome chunks hash).2.log ++
          resultLines encprot filename
            (cString (digestResult filename encprot size outcome chunks hash).1) := by
      rw [htold]
    _ = _ := by
      rw [md5_log, errorLines_append, hreleases, List.append_nil, md5_fst]

theorem digestOrFailure_digestResult {encprot : ALG_ID} {size : Int32}
    (hsize : (digestLength encprot : ℤ) ≤ size.toInt) (filename : String) (outcome : Outcome)
    {content : List UInt8} (chunking : Chunking content)
    (hash : HashFunction (digestLength encprot)) :
    DigestOrFailure (hash.digest content)
      (digestResult filename encprot size outcome chunking.chunks hash) := by
  obtain ⟨chunks, rfl, -, -⟩ := chunking
  have hlength : 2 * digestLength encprot ≤ 500 := by
    have hle := digestLength_le encprot
    omega
  rcases finished_readWorld filename encprot outcome chunks hash with hsound | ⟨hnone, hfailed⟩
  · exact hsound.writeDigest (le_toUInt32 hsize) hlength outcome.cryptGetHashParam
  · exact writeDigest_of_none hnone hfailed size.toUInt32 outcome.cryptGetHashParam _

/-- The digest is printed when every call succeeds, and an empty line otherwise. -/
theorem cString_md5 {encprot : ALG_ID} {size : Int32}
    (hsize : (digestLength encprot : ℤ) ≤ size.toInt) (filename : String) (outcome : Outcome)
    {content : List UInt8} (chunking : Chunking content)
    (hash : HashFunction (digestLength encprot)) :
    cString (md5 filename encprot size outcome chunking.chunks (World.fresh hash)).1 =
      if errorLines filename
          (md5 filename encprot size outcome chunking.chunks (World.fresh hash)).2.log = [] then
        hexText (hash.digest content)
      else [] := by
  have hresult := digestOrFailure_digestResult hsize filename outcome chunking hash
  have hreleases :
      errorLines filename [.cryptDestroyHash, .cryptReleaseContext, .closeHandle] = [] :=
    rfl
  have hlog : errorLines filename
      (md5 filename encprot size outcome chunking.chunks (World.fresh hash)).2.log =
        errorLines filename
          (digestResult filename encprot size outcome chunking.chunks hash).2.log := by
    rw [md5_log, errorLines_append, hreleases, List.append_nil]
  rw [md5_fst, hlog]
  rcases hresult with ⟨hstring, hsucceeded⟩ | ⟨hempty, call, hcall, hnot⟩
  · rw [if_pos ((errorLines_eq_nil_iff _).mpr hsucceeded), hstring]
  · have hlines : errorLines filename
        (digestResult filename encprot size outcome chunking.chunks hash).2.log ≠ [] :=
      fun hnone ↦ hnot ((errorLines_eq_nil_iff _).mp hnone call hcall)
    rw [if_neg hlines, hempty]

/-- What a user is told about one algorithm: the failed calls in order, the title, and behind it the
digest if there was no failed call. -/
def Hashing.report {encprot : ALG_ID} (hashing : Hashing encprot) (size : Int32) : List String :=
  let failures := errorLines cmdExe (hashing.run size).2.log
  failures ++ resultLines encprot cmdExe
    (if failures = [] then hexText (hashing.hash.digest hashing.content) else [])

theorem Hashing.run_printed {encprot : ALG_ID} (hsupported : Supported encprot) {size : Int32}
    (hsize : (digestLength encprot : ℤ) ≤ size.toInt) (hashing : Hashing encprot) :
    (hashing.run size).2.printed = hashing.report size := by
  unfold Hashing.report Hashing.run
  rw [md5_printed hsupported, cString_md5 hsize]

/-- **The output.**  However the calls of the three runs go, the program prints for each algorithm
in turn one line for each failed call to open, read or hash, in the order of the calls, then the
title, and then the digest of the whole file if no such call of that algorithm has failed, and an
empty line otherwise. -/
theorem main_eq_reports (first : Hashing calgMd5) (second : Hashing calgSha1)
    (third : Hashing calgSha256) :
    main first second third =
      first.report md5Len ++ second.report sha1Len ++ third.report sha256Len := by
  have hfirst : (first.run md5Len).2.printed = first.report md5Len :=
    first.run_printed (.inl rfl) (by decide)
  have hsecond : (second.run sha1Len).2.printed = second.report sha1Len :=
    second.run_printed (.inr (.inl rfl)) (by decide)
  have hthird : (third.run sha256Len).2.printed = third.report sha256Len :=
    third.run_printed (.inr (.inr rfl)) (by decide)
  rw [main, hfirst, hsecond, hthird]

end WinProcessThread.FileHash
