import WinProcessThread.FileHash.Crypto

/-!
# `MD5`

The function opens a file, a provider and a hash object, feeds the file to the hash object in
pieces, and writes the digest as hex digits into a buffer that it returns.  None of its error
branches leaves the function: each prints a line, releases handles and falls through to the next
call.
-/

namespace WinProcessThread.FileHash

open Service (DWORD)

variable {length : ℕ} {hash : HashFunction length}

/-- What the calls return.  Reading and hashing happen once for every chunk. -/
structure Outcome where
  createFile : Option DWORD
  cryptAcquireContext : Option DWORD
  cryptCreateHash : Option DWORD
  readFile : ℕ → Option DWORD
  cryptHashData : ℕ → Option DWORD
  cryptGetHashParam : Option DWORD

def provRsaFull : DWORD := 1
def provRsaAes : DWORD := 24
def cryptVerifyContext : DWORD := 0xF0000000

/-- `CreateFile` with its error branch. -/
def openFile (filename : String) (lastError : Option DWORD) (world : World hash) : World hash :=
  let world := world.call (.createFile lastError)
  match lastError with
  | none => { world with fileOpen := true }
  | some dwStatus => world.printError ("Error opening file " ++ filename ++ "\nError: ") dwStatus

/-- `CryptAcquireContext` with its error branch. -/
def acquireContext (dwProvType dwFlags : DWORD) (lastError : Option DWORD) (world : World hash) :
    World hash :=
  let world := world.call (.cryptAcquireContext dwProvType dwFlags lastError)
  match lastError with
  | none => { world with providerOpen := true }
  | some dwStatus => (world.printError "CryptAcquireContext failed: " dwStatus).closeHandle

/-- The three tests of the algorithm.  An algorithm of another kind gets no provider. -/
def acquireProvider (encprot : ALG_ID) (lastError : Option DWORD) (world : World hash) :
    World hash :=
  let world :=
    if encprot = calgMd5 then acquireContext provRsaFull cryptVerifyContext lastError world
    else world
  let world :=
    if encprot = calgSha1 then acquireContext provRsaFull cryptVerifyContext lastError world
    else world
  if encprot = calgSha256 then acquireContext provRsaAes 0 lastError world else world

/-- `CryptCreateHash` with its error branch, whose text is that of another call. -/
def createHash (lastError : Option DWORD) (world : World hash) : World hash :=
  let lastError := onHandle world.providerOpen lastError
  let world := world.call (.cryptCreateHash lastError)
  match lastError with
  | none => { world with hashObject := some hash.init }
  | some dwStatus =>
    ((world.printError "CryptAcquireContext failed: " dwStatus).closeHandle).cryptReleaseContext

/-- The three releases of the error branches from here on. -/
def releaseAll (world : World hash) : World hash :=
  world.cryptReleaseContext.cryptDestroyHash.closeHandle

/-- `CryptHashData` with its error branch. -/
def hashData (rgbFile : List UInt8) (lastError : Option DWORD) (world : World hash) :
    World hash :=
  let lastError := onHandle world.hashObject.isSome lastError
  let world := world.call (.cryptHashData lastError)
  match lastError with
  | none => { world with hashObject := world.hashObject.map fun state ↦ hash.update state rgbFile }
  | some dwStatus => releaseAll (world.printError "CryptHashData failed: " dwStatus)

/-- The `while` loop; its result is that of the last `ReadFile`. -/
def readLoop (outcome : Outcome) (chunks : List (List UInt8)) (index : ℕ) (world : World hash) :
    Option DWORD × World hash :=
  let lastError := onHandle world.fileOpen (outcome.readFile index)
  let world := world.call (.readFile lastError)
  match lastError with
  | some dwStatus => (some dwStatus, world)
  | none =>
    match chunks with
    | [] => (none, world)
    | rgbFile :: rest =>
      readLoop outcome rest (index + 1) (hashData rgbFile (outcome.cryptHashData index) world)

/-- The loop with the error branch behind it. -/
def readFile (outcome : Outcome) (chunks : List (List UInt8)) (world : World hash) :
    World hash :=
  match readLoop outcome chunks 0 world with
  | (none, world) => world
  | (some dwStatus, world) => releaseAll (world.printError "ReadFile failed: " dwStatus)

def rgbDigits : List Char := "0123456789abcdef".toList

/-- The `for` loop that writes two digits for every byte of the digest. -/
def encodeDigest (rgbHash : List UInt8) (cbHash : ℕ) (strHash : List Char) : List Char :=
  (List.range cbHash).foldl
    (fun strHash i ↦
      let byte := rgbHash.getD i 0
      (strHash.set (i * 2) (rgbDigits.getD (byte >>> 4).toNat '\x00')).set (i * 2 + 1)
        (rgbDigits.getD (byte &&& 0xf).toNat '\x00'))
    strHash

/-- `CryptGetHashParam` on a buffer of `cbHash` bytes: the digest, or the error.  A buffer that is
too short is an error. -/
def getHashParam (cbHash : DWORD) (lastError : Option DWORD) (world : World hash) :
    Except DWORD (List UInt8) :=
  match world.hashObject, lastError with
  | some state, none =>
    if (hash.finish state).length ≤ cbHash.toNat then .ok (hash.finish state)
    else .error errorMoreData
  | none, lastError => .error (lastError.getD errorInvalidHandle)
  | some _, some dwStatus => .error dwStatus

/-- `CryptGetHashParam` and the encoding of what it returns. -/
def writeDigest (cbHash : DWORD) (lastError : Option DWORD) (strHash : List Char)
    (world : World hash) : List Char × World hash :=
  match getHashParam cbHash lastError world with
  | .ok rgbHash =>
    (encodeDigest rgbHash rgbHash.length strHash, world.call (.cryptGetHashParam none))
  | .error dwStatus =>
    (strHash, (world.call (.cryptGetHashParam (some dwStatus))).printError
      "CryptGetHashParam failed: " dwStatus)

/-- The characters of a buffer up to its first NUL. -/
def cString (buffer : List Char) : List Char :=
  buffer.takeWhile fun char ↦ char ≠ '\x00'

/-- The two lines of the result. -/
def printResult (encprot : ALG_ID) (filename : String) (strHash : List Char)
    (world : World hash) : World hash :=
  let report (name : String) (world : World hash) : World hash :=
    (world.print (name ++ " hash of file " ++ filename ++ " is: ")).print
      (String.ofList (cString strHash) ++ "\n")
  let world := if encprot = calgMd5 then report "MD5" world else world
  let world := if encprot = calgSha1 then report "SHA1" world else world
  if encprot = calgSha256 then report "SHA256" world else world

/-- The buffer of 500 characters, all NUL. -/
def zeroedBuffer : List Char :=
  List.replicate 500 '\x00'

/-- `MD5`: the buffer it returns and the world behind it.  The file delivers these chunks. -/
def md5 (filename : String) (encprot : ALG_ID) (size : Int32) (outcome : Outcome)
    (chunks : List (List UInt8)) (world : World hash) : List Char × World hash :=
  let strHash := zeroedBuffer
  let world := openFile filename outcome.createFile world
  let world := acquireProvider encprot outcome.cryptAcquireContext world
  let world := createHash outcome.cryptCreateHash world
  let world := readFile outcome chunks world
  let cbHash := size.toUInt32
  let (strHash, world) := writeDigest cbHash outcome.cryptGetHashParam strHash world
  let world := printResult encprot filename strHash world
  (strHash, world.cryptDestroyHash.cryptReleaseContext.closeHandle)

end WinProcessThread.FileHash
