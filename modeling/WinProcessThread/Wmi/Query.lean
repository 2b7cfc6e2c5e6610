import WinProcessThread.Enumeration.Cursor
import WinProcessThread.Resource.Rounds
import Mathlib.Data.UInt

/-!
# The process query over WMI

The program sets up COM, connects to a namespace, runs one query and asks its enumerator for one
object after the other.  The results of the calls are inputs.  The query's answers are a cursor: at
its end and where `Next` fails no object is returned, and the program tells the two apart no more
than that.  A `Next` that fails is taken to store 0 in `uReturn`, as one at the end does.

Calls are logged with what they do to the references that the program holds.  All calls but the
first need the COM library, so they use it as well.
-/

namespace WinProcessThread.Wmi

open Enumeration (Cursor)
open Resource

abbrev HRESULT := Int32

def failed (hres : HRESULT) : Bool := hres < 0

/-- What the program holds.  Objects and variants are named by the round they come from. -/
inductive Reference
  | library
  | pLoc
  | pSvc
  | pEnumerator
  | pclsObj (round : ℕ)
  | processId (round : ℕ)
  | commandLine (round : ℕ)
deriving DecidableEq, Repr

inductive WmiCall
  | coInitializeEx (hres : HRESULT)
  | coInitializeSecurity (hres : HRESULT)
  | coCreateInstance (hres : HRESULT)
  | connectServer (hres : HRESULT)
  | coSetProxyBlanket (hres : HRESULT)
  | execQuery (hres : HRESULT)
  /-- `Next` with the object it returns, if any. -/
  | next (pclsObj : Option Reference)
  | get (pclsObj variant : Reference) (hr : HRESULT)
  /-- The text of the command line is read for the output. -/
  | bstrVal (variant : Reference)
  | variantClear (variant : Reference)
  | release (interface : Reference)
  | coUninitializeLibrary
deriving DecidableEq, Repr

/-- A reference is obtained by a call that succeeds. -/
def obtains (reference : Reference) (hres : HRESULT) : List (Access Reference) :=
  if failed hres then [] else [.obtain reference]

def WmiCall.accesses : WmiCall → List (Access Reference)
  | .coInitializeEx hres => obtains .library hres
  | .coInitializeSecurity _ => [.use .library]
  | .coCreateInstance hres => .use .library :: obtains .pLoc hres
  | .connectServer hres => [.use .library, .use .pLoc] ++ obtains .pSvc hres
  | .coSetProxyBlanket _ => [.use .library, .use .pSvc]
  | .execQuery hres => [.use .library, .use .pSvc] ++ obtains .pEnumerator hres
  | .next pclsObj => [.use .library, .use .pEnumerator] ++ pclsObj.toList.map .obtain
  | .get pclsObj variant hr => [.use .library, .use pclsObj] ++ obtains variant hr
  | .bstrVal variant => [.use variant]
  | .variantClear variant => [.release variant]
  | .release interface => [.use .library, .release interface]
  | .coUninitializeLibrary => [.release .library]

def accesses (log : List WmiCall) : List (Access Reference) :=
  log.flatMap WmiCall.accesses

structure World where
  log : List WmiCall
  printed : List String
deriving DecidableEq, Repr

namespace World

def fresh : World where
  log := []
  printed := []

variable (world : World)

def call (call : WmiCall) : World :=
  { world with log := world.log ++ [call] }

def print (line : String) : World :=
  { world with printed := world.printed ++ [line] }

/-- The interfaces are released in this order, and the library is left. -/
def cleanup (interfaces : List Reference) : World :=
  { world with log := world.log ++ interfaces.map .release ++ [.coUninitializeLibrary] }

end World

/-- What a call returns for one object.  `bstrVal` is the text that `CommandLine.bstrVal` shows. -/
structure ObjectOutcome where
  processId : HRESULT
  commandLine : HRESULT
  bstrVal : String
deriving DecidableEq, Repr

structure Outcome where
  coInitializeEx : HRESULT
  coInitializeSecurity : HRESULT
  coCreateInstance : HRESULT
  connectServer : HRESULT
  coSetProxyBlanket : HRESULT
  execQuery : HRESULT
  objects : Cursor ObjectOutcome HRESULT
deriving DecidableEq, Repr

/-! ## Output -/

/-- The digits of `hex << hres` and of `%x`. -/
def hexDigits (hres : HRESULT) : List Char :=
  Nat.toDigits 16 hres.toUInt32.toNat

def errorLine (text : String) (hres : HRESULT) : String :=
  text ++ "0x" ++ String.ofList (hexDigits hres) ++ "\n"

/-- `wprintf(L"GetMethod hres = %08x\n", hr)`. -/
def getMethodLine (hr : HRESULT) : String :=
  "GetMethod hres = " ++ String.ofList ((hexDigits hr).leftpad 8 '0') ++ "\n"

def connectedLine : String := "Connected to ROOT\\CIMV2 WMI namespace\n"

/-- The format has no place for the id. -/
def processIdLine : String := "ProcessID :  \n"

def commandLineLine (bstrVal : String) : String :=
  "CommandLine :  " ++ bstrVal ++ "\n"

/-! ## The loop -/

/-- What is released at the end, and where `Get` fails. -/
def interfaces : List Reference := [.pSvc, .pLoc, .pEnumerator]

/-- The body of the loop behind `Next`.  `none` stands for a `Get` that fails. -/
def objectBody (round : ℕ) (object : ObjectOutcome) (world : World) : Option Unit × World :=
  let world := world.call (.get (.pclsObj round) (.processId round) object.processId)
  if failed object.processId then
    (none, world.print (getMethodLine object.processId))
  else
    let world := world.print processIdLine
    let world := world.call (.variantClear (.processId round))
    let world := world.call (.get (.pclsObj round) (.commandLine round) object.commandLine)
    if failed object.commandLine then
      (none, world.print (getMethodLine object.commandLine))
    else
      let world := world.call (.bstrVal (.commandLine round))
      let world := world.print (commandLineLine object.bstrVal)
      let world := world.call (.variantClear (.commandLine round))
      (some (), world.call (.release (.pclsObj round)))

/-- The loop with the clean-up behind it, and what `main` returns. -/
def objectsLoop (round : ℕ) : Cursor ObjectOutcome HRESULT → World → Int32 × World
  | .delivers object rest, world =>
    match objectBody round object (world.call (.next (some (.pclsObj round)))) with
    | (none, world) => (1, world.cleanup interfaces)
    | (some (), world) => objectsLoop (round + 1) rest world
  | .ends, world | .fails _ _, world => (0, (world.call (.next none)).cleanup interfaces)

/-! ## The set-up -/

def runQuery (outcome : Outcome) (world : World) : Int32 × World :=
  let world := world.call (.execQuery outcome.execQuery)
  if failed outcome.execQuery then
    let world := world.print
      (errorLine "Query for operating system name failed. Error code = " outcome.execQuery)
    (1, world.cleanup [.pSvc, .pLoc])
  else
    objectsLoop 0 outcome.objects world

def setProxyBlanket (outcome : Outcome) (world : World) : Int32 × World :=
  let world := world.call (.coSetProxyBlanket outcome.coSetProxyBlanket)
  if failed outcome.coSetProxyBlanket then
    let world := world.print
      (errorLine "Could not set proxy blanket. Error code = " outcome.coSetProxyBlanket)
    (1, world.cleanup [.pSvc, .pLoc])
  else
    runQuery outcome world

def connect (outcome : Outcome) (world : World) : Int32 × World :=
  let world := world.call (.connectServer outcome.connectServer)
  if failed outcome.connectServer then
    let world := world.print (errorLine "Could not connect. Error code = " outcome.connectServer)
    (1, world.cleanup [.pLoc])
  else
    setProxyBlanket outcome (world.print connectedLine)

def createLocator (outcome : Outcome) (world : World) : Int32 × World :=
  let world := world.call (.coCreateInstance outcome.coCreateInstance)
  if failed outcome.coCreateInstance then
    let world := world.print
      (errorLine "Failed to create IWbemLocator object. Err code = " outcome.coCreateInstance)
    (1, world.cleanup [])
  else
    connect outcome world

def initializeSecurity (outcome : Outcome) (world : World) : Int32 × World :=
  let world := world.call (.coInitializeSecurity outcome.coInitializeSecurity)
  if failed outcome.coInitializeSecurity then
    let world := world.print
      (errorLine "Failed to initialize security. Error code = " outcome.coInitializeSecurity)
    (1, world.cleanup [])
  else
    createLocator outcome world

/-- `main` of the query program. -/
def main (outcome : Outcome) : Int32 × World :=
  let world := World.fresh.call (.coInitializeEx outcome.coInitializeEx)
  if failed outcome.coInitializeEx then
    (1, world.print
      (errorLine "Failed to initialize COM library. Error code = " outcome.coInitializeEx))
  else
    initializeSecurity outcome world

variable {outcome : Outcome} {object : ObjectOutcome} {world : World} {round : ℕ}
variable {objects : Cursor ObjectOutcome HRESULT}

/-! ## One object -/

/-- Both values of the object can be read. -/
def ObjectOutcome.Passes (object : ObjectOutcome) : Prop :=
  failed object.processId = false ∧ failed object.commandLine = false

instance (object : ObjectOutcome) : Decidable object.Passes :=
  inferInstanceAs (Decidable (_ ∧ _))

/-- The calls made for an object, as far as they come. -/
def objectCalls (round : ℕ) (object : ObjectOutcome) : List WmiCall :=
  [.next (some (.pclsObj round)), .get (.pclsObj round) (.processId round) object.processId] ++
    if failed object.processId then
      []
    else
      [.variantClear (.processId round),
          .get (.pclsObj round) (.commandLine round) object.commandLine] ++
        if failed object.commandLine then
          []
        else
          [.bstrVal (.commandLine round), .variantClear (.commandLine round),
            .release (.pclsObj round)]

/-- What is printed for an object. -/
def objectLines (object : ObjectOutcome) : List String :=
  if failed object.processId then
    [getMethodLine object.processId]
  else if failed object.commandLine then
    [processIdLine, getMethodLine object.commandLine]
  else
    [processIdLine, commandLineLine object.bstrVal]

theorem objectBody_eq (round : ℕ) (object : ObjectOutcome) (world : World) :
    objectBody round object (world.call (.next (some (.pclsObj round)))) =
      (if object.Passes then some () else none,
        ⟨world.log ++ objectCalls round object, world.printed ++ objectLines object⟩) := by
  cases hid : failed object.processId with
  | true =>
    simp [objectBody, objectCalls, objectLines, ObjectOutcome.Passes, World.call, World.print, hid]
  | false =>
    cases hline : failed object.commandLine with
    | true =>
      simp [objectBody, objectCalls, objectLines, ObjectOutcome.Passes, World.call, World.print,
        hid, hline]
    | false =>
      simp [objectBody, objectCalls, objectLines, ObjectOutcome.Passes, World.call, World.print,
        hid, hline]

/-! ## The loop -/

/-- The objects the loop comes to: the last one is the first that cannot be read, if there is
one. -/
def visited (objects : List ObjectOutcome) : List ObjectOutcome :=
  takeThrough (fun object ↦ decide object.Passes) objects

@[simp]
theorem visited_nil : visited [] = [] := rfl

@[simp]
theorem visited_cons (object : ObjectOutcome) (objects : List ObjectOutcome) :
    visited (object :: objects) = object :: if object.Passes then visited objects else [] := by
  simp [visited, takeThrough]

/-- Every object that is delivered can be read. -/
def AllPass (objects : Cursor ObjectOutcome HRESULT) : Prop :=
  ∀ object ∈ objects.delivered, object.Passes

/-- The calls of the loop from a round on. -/
def visitedCalls (round : ℕ) : List ObjectOutcome → List WmiCall
  | [] => []
  | object :: objects => objectCalls round object ++ visitedCalls (round + 1) objects

theorem objectsLoop_of_allPass (hpasses : AllPass objects) (round : ℕ) (world : World) :
    objectsLoop round objects world =
      (0, (World.call ⟨world.log ++ visitedCalls round (visited objects.delivered),
        world.printed ++ (visited objects.delivered).flatMap objectLines⟩ (.next none)).cleanup
          interfaces) := by
  induction objects generalizing round world with
  | ends => simp [objectsLoop, Cursor.delivered, visitedCalls]
  | fails error missed => simp [objectsLoop, Cursor.delivered, visitedCalls]
  | delivers object rest ih =>
    obtain ⟨hfirst, hrest⟩ := List.forall_mem_cons.mp hpasses
    rw [objectsLoop, objectBody_eq, if_pos hfirst]
    simp [ih hrest, Cursor.delivered, hfirst, visitedCalls]

theorem objectsLoop_of_not_allPass (hfails : ¬ AllPass objects) (round : ℕ) (world : World) :
    objectsLoop round objects world =
      (1, World.cleanup ⟨world.log ++ visitedCalls round (visited objects.delivered),
        world.printed ++ (visited objects.delivered).flatMap objectLines⟩ interfaces) := by
  induction objects generalizing round world with
  | ends => simp [AllPass, Cursor.delivered] at hfails
  | fails error missed => simp [AllPass, Cursor.delivered] at hfails
  | delivers object rest ih =>
    rw [objectsLoop, objectBody_eq]
    by_cases hfirst : object.Passes
    · have hrest : ¬ AllPass rest := fun hall ↦ hfails (List.forall_mem_cons.mpr ⟨hfirst, hall⟩)
      simp [ih hrest, Cursor.delivered, hfirst, visitedCalls]
    · simp [Cursor.delivered, hfirst, visitedCalls]

/-! ## The whole program -/

/-- Every call of the set-up succeeds. -/
structure SetsUp (outcome : Outcome) : Prop where
  coInitializeEx : failed outcome.coInitializeEx = false
  coInitializeSecurity : failed outcome.coInitializeSecurity = false
  coCreateInstance : failed outcome.coCreateInstance = false
  connectServer : failed outcome.connectServer = false
  coSetProxyBlanket : failed outcome.coSetProxyBlanket = false
  execQuery : failed outcome.execQuery = false

/-- The calls of a set-up that succeeds. -/
def setupCalls (outcome : Outcome) : List WmiCall :=
  [.coInitializeEx outcome.coInitializeEx, .coInitializeSecurity outcome.coInitializeSecurity,
    .coCreateInstance outcome.coCreateInstance, .connectServer outcome.connectServer,
    .coSetProxyBlanket outcome.coSetProxyBlanket, .execQuery outcome.execQuery]

theorem main_of_setsUp (hsets : SetsUp outcome) :
    main outcome = objectsLoop 0 outcome.objects ⟨setupCalls outcome, [connectedLine]⟩ := by
  obtain ⟨hlibrary, hsecurity, hlocator, hconnect, hblanket, hquery⟩ := hsets
  simp [main, initializeSecurity, createLocator, connect, setProxyBlanket, runQuery, hlibrary,
    hsecurity, hlocator, hconnect, hblanket, hquery, setupCalls, World.fresh, World.call,
    World.print]

/-- A set-up that fails ends the program with an error, whatever the query would have answered. -/
theorem main_of_not_setsUp (hfails : ¬ SetsUp outcome) (other : Cursor ObjectOutcome HRESULT) :
    (main outcome).1 = 1 ∧ main { outcome with objects := other } = main outcome := by
  unfold main initializeSecurity createLocator connect setProxyBlanket runQuery
  split_ifs with hlibrary hsecurity hlocator hconnect hblanket hquery
  on_goal 7 =>
    refine absurd ⟨?_, ?_, ?_, ?_, ?_, ?_⟩ hfails <;> exact Bool.eq_false_of_not_eq_true ‹_›
  all_goals exact ⟨rfl, rfl⟩

/-- What a list of objects looks like when all of them can be read. -/
def listing (objects : List ObjectOutcome) : List String :=
  objects.flatMap fun object ↦ [processIdLine, commandLineLine object.bstrVal]

theorem flatMap_objectLines {objects : List ObjectOutcome}
    (hpasses : ∀ object ∈ objects, object.Passes) :
    objects.flatMap objectLines = listing objects := by
  apply List.flatMap_congr
  intro object hobject
  obtain ⟨hid, hline⟩ := hpasses object hobject
  simp [objectLines, hid, hline]

/-- The program goes on to its loop in one way and fails in another. -/
theorem main_code_eq_zero_iff (outcome : Outcome) :
    (main outcome).1 = 0 ↔ SetsUp outcome ∧ AllPass outcome.objects := by
  have hone : (1 : Int32) ≠ 0 := by decide
  by_cases hsets : SetsUp outcome
  · rw [main_of_setsUp hsets]
    by_cases hpasses : AllPass outcome.objects
    · rw [objectsLoop_of_allPass hpasses]
      exact iff_of_true rfl ⟨hsets, hpasses⟩
    · rw [objectsLoop_of_not_allPass hpasses]
      exact iff_of_false hone fun hboth ↦ hpasses hboth.2
  · rw [(main_of_not_setsUp hsets .ends).1]
    exact iff_of_false hone fun hboth ↦ hsets hboth.1

theorem main_printed (hsets : SetsUp outcome) (hpasses : AllPass outcome.objects) :
    (main outcome).2.printed = connectedLine :: listing outcome.objects.delivered := by
  have hvisited : visited outcome.objects.delivered = outcome.objects.delivered :=
    takeThrough_of_forall fun object hobject ↦ decide_eq_true (hpasses object hobject)
  rw [main_of_setsUp hsets, objectsLoop_of_allPass hpasses, hvisited, flatMap_objectLines hpasses]
  rfl

theorem objectsLoop_congr {other : Cursor ObjectOutcome HRESULT}
    (hsame : other.delivered = objects.delivered) (round : ℕ) (world : World) :
    objectsLoop round other world = objectsLoop round objects world := by
  have hiff : AllPass other ↔ AllPass objects := by rw [AllPass, AllPass, hsame]
  by_cases hpasses : AllPass objects
  · rw [objectsLoop_of_allPass (hiff.mpr hpasses), objectsLoop_of_allPass hpasses, hsame]
  · rw [objectsLoop_of_not_allPass (mt hiff.mp hpasses), objectsLoop_of_not_allPass hpasses, hsame]

/-- What the program says of the processes. -/
structure Reports (outcome : Outcome) : Prop where
  /-- Exit code 0 stands for a set-up that succeeds and objects that can be read. -/
  succeeds_iff : (main outcome).1 = 0 ↔ SetsUp outcome ∧ AllPass outcome.objects
  /-- Then every object that was delivered has its lines. -/
  listing_of_succeeds : (main outcome).1 = 0 →
    (main outcome).2.printed = connectedLine :: listing outcome.objects.delivered
  /-- Objects that are missed leave no trace. -/
  missed_unnoticed : ∀ other : Cursor ObjectOutcome HRESULT,
    other.delivered = outcome.objects.delivered →
      main { outcome with objects := other } = main outcome

/-- **The report.**  The program succeeds exactly when all calls but `Next` do, it lists exactly the
objects that are delivered, and a list that `Next` cuts off looks like a complete one. -/
theorem main_reports (outcome : Outcome) : Reports outcome := by
  refine ⟨main_code_eq_zero_iff outcome, fun hzero ↦ ?_, fun other hsame ↦ ?_⟩
  · obtain ⟨hsets, hpasses⟩ := (main_code_eq_zero_iff outcome).mp hzero
    exact main_printed hsets hpasses
  · by_cases hsets : SetsUp outcome
    · have hother : SetsUp { outcome with objects := other } :=
        ⟨hsets.coInitializeEx, hsets.coInitializeSecurity, hsets.coCreateInstance,
          hsets.connectServer, hsets.coSetProxyBlanket, hsets.execQuery⟩
      rw [main_of_setsUp hother, main_of_setsUp hsets]
      exact objectsLoop_congr hsame 0 _
    · exact (main_of_not_setsUp hsets other).2

end WinProcessThread.Wmi
