import WinProcessThread.Service.Status
import Mathlib.Tactic.SplitIfs

/-!
# The crypto provider and the file

A hash function is fed in pieces and gives the digest of all of them.  The provider that computes
it belongs to the system; what is relied on is that hashing chunks is hashing their concatenation
and that a digest has the length of its algorithm.

The program holds at most one handle each of a file, a provider and a hash object.  A call fails
when its outcome says so, and also when the handle it needs is not open.  Calls are logged in order
with their results; `lastError = none` is success.
-/

namespace WinProcessThread.FileHash

open Service (DWORD)

abbrev ALG_ID := UInt32

def calgMd5 : ALG_ID := 0x8003
def calgSha1 : ALG_ID := 0x8004
def calgSha256 : ALG_ID := 0x800C

/-- The algorithms for which a provider is acquired. -/
def Supported (encprot : ALG_ID) : Prop :=
  encprot = calgMd5 ∨ encprot = calgSha1 ∨ encprot = calgSha256

/-- Bytes in a digest of the three algorithms. -/
def digestLength (encprot : ALG_ID) : ℕ :=
  if encprot = calgMd5 then 16 else if encprot = calgSha1 then 20 else 32

theorem digestLength_pos (encprot : ALG_ID) : 0 < digestLength encprot := by
  unfold digestLength
  split_ifs <;> decide

theorem digestLength_le (encprot : ALG_ID) : digestLength encprot ≤ 32 := by
  unfold digestLength
  split_ifs <;> decide

structure HashFunction (length : ℕ) where
  State : Type
  init : State
  update : State → List UInt8 → State
  finish : State → List UInt8
  digest : List UInt8 → List UInt8
  finish_update : ∀ chunks : List (List UInt8),
    finish (chunks.foldl update init) = digest chunks.flatten
  length_digest : ∀ bytes, (digest bytes).length = length

/-- A way in which `ReadFile` delivers a file before it delivers nothing. -/
structure Chunking (content : List UInt8) where
  chunks : List (List UInt8)
  flatten_chunks : chunks.flatten = content
  length_pos : ∀ chunk ∈ chunks, 0 < chunk.length
  length_le : ∀ chunk ∈ chunks, chunk.length ≤ 1024

inductive Call
  | createFile (lastError : Option DWORD)
  | cryptAcquireContext (dwProvType dwFlags : DWORD) (lastError : Option DWORD)
  | cryptCreateHash (lastError : Option DWORD)
  | readFile (lastError : Option DWORD)
  | cryptHashData (lastError : Option DWORD)
  | cryptGetHashParam (lastError : Option DWORD)
  | cryptReleaseContext
  | cryptDestroyHash
  | closeHandle
deriving DecidableEq, Repr

/-- The calls that open, read or hash have succeeded. -/
def Call.Succeeded : Call → Prop
  | .createFile lastError | .cryptAcquireContext _ _ lastError | .cryptCreateHash lastError
  | .readFile lastError | .cryptHashData lastError | .cryptGetHashParam lastError =>
    lastError = none
  | .cryptReleaseContext | .cryptDestroyHash | .closeHandle => True

instance : DecidablePred Call.Succeeded
  | .createFile lastError | .cryptAcquireContext _ _ lastError | .cryptCreateHash lastError
  | .readFile lastError | .cryptHashData lastError | .cryptGetHashParam lastError =>
    inferInstanceAs (Decidable (lastError = none))
  | .cryptReleaseContext | .cryptDestroyHash | .closeHandle => inferInstanceAs (Decidable True)

structure World {length : ℕ} (hash : HashFunction length) where
  fileOpen : Bool
  providerOpen : Bool
  /-- The state of the hash object; `none` when there is none. -/
  hashObject : Option hash.State
  log : List Call
  printed : List String

/-- Nothing is open. -/
def World.fresh {length : ℕ} (hash : HashFunction length) : World hash where
  fileOpen := false
  providerOpen := false
  hashObject := none
  log := []
  printed := []

def errorInvalidHandle : DWORD := 6
def errorMoreData : DWORD := 234

/-- The result of a call that needs an open handle. -/
def onHandle (isOpen : Bool) (lastError : Option DWORD) : Option DWORD :=
  if isOpen then lastError else some (lastError.getD errorInvalidHandle)

namespace World

variable {length : ℕ} {hash : HashFunction length} (world : World hash)

def call (call : Call) : World hash :=
  { world with log := world.log ++ [call] }

def print (line : String) : World hash :=
  { world with printed := world.printed ++ [line] }

/-- A line that ends in an error code, which `%d` prints as an `int`. -/
def printError (text : String) (dwStatus : DWORD) : World hash :=
  world.print (text ++ toString dwStatus.toInt32.toInt ++ "\n")

def closeHandle : World hash :=
  { world.call .closeHandle with fileOpen := false }

def cryptReleaseContext : World hash :=
  { world.call .cryptReleaseContext with providerOpen := false }

def cryptDestroyHash : World hash :=
  { world.call .cryptDestroyHash with hashObject := none }

end World

end WinProcessThread.FileHash
