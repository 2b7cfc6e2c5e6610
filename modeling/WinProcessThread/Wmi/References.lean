import WinProcessThread.Wmi.Query

/-!
# The references of the query program

The set-up gives back what it has obtained on every way out.  In the loop an object whose values
cannot be read is the one thing that is not given back.
-/

namespace WinProcessThread.Wmi

open Enumeration (Cursor)
open Resource

variable {outcome : Outcome} {object : ObjectOutcome} {round index : ℕ} {reference : Reference}
variable {objects : Cursor ObjectOutcome HRESULT}

@[simp]
theorem accesses_append (log more : List WmiCall) :
    accesses (log ++ more) = accesses log ++ accesses more :=
  List.flatMap_append

/-- The round a reference comes from. -/
def Reference.obtainedIn : Reference → Option ℕ
  | .pclsObj round | .processId round | .commandLine round => some round
  | .library | .pLoc | .pSvc | .pEnumerator => none

/-- What is done with the references for one object. -/
def objectTrace (round : ℕ) (object : ObjectOutcome) : List (Access Reference) :=
  accesses (objectCalls round object)

theorem accesses_visitedCalls (round : ℕ) (objects : List ObjectOutcome) :
    accesses (visitedCalls round objects) = rounds objectTrace round objects := by
  induction objects generalizing round with
  | nil => rfl
  | cons object objects ih =>
    rw [visitedCalls, accesses_append, ih]
    rfl

/-- The accesses for an object, by what can be read of it. -/
theorem objectTrace_eq (round : ℕ) (object : ObjectOutcome) :
    objectTrace round object =
      [.use .library, .use .pEnumerator, .obtain (.pclsObj round), .use .library,
          .use (.pclsObj round)] ++
        if failed object.processId then
          []
        else
          [.obtain (.processId round), .release (.processId round), .use .library,
              .use (.pclsObj round)] ++
            if failed object.commandLine then
              []
            else
              [.obtain (.commandLine round), .use (.commandLine round),
                .release (.commandLine round), .use .library, .release (.pclsObj round)] := by
  cases hid : failed object.processId <;> cases hline : failed object.commandLine <;>
    simp [objectTrace, objectCalls, accesses, WmiCall.accesses, obtains, hid, hline]

theorem keepsToRounds : KeepsToRounds Reference.obtainedIn objectTrace := by
  intro round object
  rw [objectTrace_eq]
  cases failed object.processId <;> cases failed object.commandLine <;>
    simp [Access.subject, Reference.obtainedIn]

/-- What becomes of the references of a round. -/
def objectState (object : ObjectOutcome) : Reference → Ownership
  | .pclsObj _ => if object.Passes then .released else .held
  | .processId _ => if failed object.processId then .unknown else .released
  | .commandLine _ => if object.Passes then .released else .unknown
  | .library | .pLoc | .pSvc | .pEnumerator => .unknown

theorem ownership_objectTrace (hround : reference.obtainedIn = some round)
    (object : ObjectOutcome) :
    ownership (objectTrace round object) reference = objectState object reference := by
  rw [objectTrace_eq]
  cases reference <;> cases hround <;> cases hid : failed object.processId <;>
    cases hline : failed object.commandLine <;>
      simp [ownership, Ownership.after, objectState, ObjectOutcome.Passes, hid, hline]

/-- What is done behind the last object. -/
def endingCalls (objects : Cursor ObjectOutcome HRESULT) : List WmiCall :=
  let query := if objects.delivered.all fun object ↦ object.Passes then [.next none] else []
  query ++ interfaces.map .release ++ [.coUninitializeLibrary]

theorem log_of_setsUp (hsets : SetsUp outcome) :
    (main outcome).2.log =
      setupCalls outcome ++ visitedCalls 0 (visited outcome.objects.delivered) ++
        endingCalls outcome.objects := by
  rw [main_of_setsUp hsets]
  by_cases hpasses : AllPass outcome.objects
  · have hall : (outcome.objects.delivered.all fun object ↦ object.Passes) = true := by
      simpa [AllPass] using hpasses
    rw [objectsLoop_of_allPass hpasses, endingCalls, hall]
    simp [World.call, World.cleanup]
  · have hall : ¬ (outcome.objects.delivered.all fun object ↦ object.Passes) = true := by
      simpa [AllPass] using hpasses
    rw [objectsLoop_of_not_allPass hpasses, endingCalls, if_neg hall]
    simp [World.cleanup]

/-- What is done with the references when the set-up succeeds. -/
theorem trace_of_setsUp (hsets : SetsUp outcome) :
    accesses (main outcome).2.log =
      accesses (setupCalls outcome) ++
        rounds objectTrace 0 (visited outcome.objects.delivered) ++
          accesses (endingCalls outcome.objects) := by
  rw [log_of_setsUp hsets, accesses_append, accesses_append, accesses_visitedCalls]

theorem accesses_setupCalls (hsets : SetsUp outcome) :
    accesses (setupCalls outcome) =
      [.obtain .library, .use .library, .use .library, .obtain .pLoc, .use .library, .use .pLoc,
        .obtain .pSvc, .use .library, .use .pSvc, .use .library, .use .pSvc,
        .obtain .pEnumerator] := by
  simp [accesses, setupCalls, WmiCall.accesses, obtains, hsets.coInitializeEx,
    hsets.coCreateInstance, hsets.connectServer, hsets.execQuery]

/-- Behind the set-up the library and the three interfaces are held. -/
theorem ownership_setupCalls (hsets : SetsUp outcome) (reference : Reference) :
    ownership (accesses (setupCalls outcome)) reference =
      if reference.obtainedIn = none then .held else .unknown := by
  rw [accesses_setupCalls hsets]
  cases reference <;> simp [ownership, Ownership.after, Reference.obtainedIn]

/-- The end leaves the references of the rounds alone. -/
theorem foldl_endingCalls_of_some (hround : reference.obtainedIn = some index)
    (objects : Cursor ObjectOutcome HRESULT) (state : Ownership) :
    (accesses (endingCalls objects)).foldl (Ownership.after reference) state = state := by
  have hsubject : ∀ access ∈ accesses (endingCalls objects), access.subject.obtainedIn = none := by
    rw [endingCalls]
    split_ifs <;>
      simp [accesses, WmiCall.accesses, interfaces, Access.subject, Reference.obtainedIn]
  apply Ownership.foldl_of_ne
  rintro access haccess rfl
  rw [hsubject access haccess] at hround
  cases hround

/-- The end gives back what the set-up has obtained. -/
theorem foldl_endingCalls_of_none (hnone : reference.obtainedIn = none)
    (objects : Cursor ObjectOutcome HRESULT) :
    (accesses (endingCalls objects)).foldl (Ownership.after reference) .held = .released := by
  rw [endingCalls]
  split_ifs <;> cases reference <;>
    simp_all [accesses, WmiCall.accesses, interfaces, Ownership.after, Reference.obtainedIn]

/-- What becomes of a reference when the set-up succeeds. -/
theorem ownership_of_setsUp (hsets : SetsUp outcome) (reference : Reference) :
    ownership (accesses (main outcome).2.log) reference =
      match reference.obtainedIn with
      | none => .released
      | some round =>
        ((visited outcome.objects.delivered)[round]?).elim .unknown fun object ↦
          objectState object reference := by
  rw [trace_of_setsUp hsets, ownership_append, ownership_append, ownership_setupCalls hsets]
  cases hround : reference.obtainedIn with
  | none =>
    rw [if_pos rfl, keepsToRounds.foldl_rounds_of_none hround (by simp)]
    exact foldl_endingCalls_of_none hround outcome.objects
  | some index =>
    have hrounds := keepsToRounds.ownership_rounds ((Nat.zero_add index).symm ▸ hround)
      (visited outcome.objects.delivered)
    rw [foldl_endingCalls_of_some hround, if_neg (by simp)]
    refine hrounds.trans ?_
    rw [Nat.zero_add]
    congr 1
    funext object
    exact ownership_objectTrace hround object

/-- A set-up that fails gives back what it has obtained. -/
theorem ownership_of_not_setsUp (hfails : ¬ SetsUp outcome) (reference : Reference) :
    Clean (accesses (main outcome).2.log) reference := by
  unfold main initializeSecurity createLocator connect setProxyBlanket runQuery
  split_ifs with hlibrary hsecurity hlocator hconnect hblanket hquery
  on_goal 7 =>
    refine absurd ⟨?_, ?_, ?_, ?_, ?_, ?_⟩ hfails <;> exact Bool.eq_false_of_not_eq_true ‹_›
  all_goals
    cases reference <;>
      simp [Clean, World.fresh, World.call, World.print, World.cleanup, accesses, WmiCall.accesses,
        obtains, ownership, Ownership.after, *]

/-- The object of this round is the first that cannot be read. -/
structure FirstUnread (objects : List ObjectOutcome) (round : ℕ) : Prop where
  earlier : ∀ object ∈ objects.take round, object.Passes
  unread : ∃ object, objects[round]? = some object ∧ ¬ object.Passes

theorem objectState_ne_misused (object : ObjectOutcome) (reference : Reference) :
    objectState object reference ≠ .misused := by
  unfold objectState
  split <;> try split_ifs
  all_goals simp

theorem objectState_eq_held_iff :
    objectState object reference = .held ↔
      ¬ object.Passes ∧ ∃ round, reference = .pclsObj round := by
  unfold objectState
  split <;> try split_ifs
  all_goals simp_all

/-- A round is gone through when the objects in front of it can be read. -/
theorem getElem?_visited (objects : List ObjectOutcome) (index : ℕ) :
    (visited objects)[index]? =
      if ∀ object ∈ objects.take index, object.Passes then objects[index]? else none := by
  simpa [visited] using getElem?_takeThrough (fun object ↦ decide object.Passes) objects index

/-- The reference of a round is held behind it when the round is that of the first unread object. -/
theorem elim_objectState_eq_held_iff (objects : List ObjectOutcome)
    (hround : reference.obtainedIn = some index) :
    ((visited objects)[index]?).elim .unknown (fun object ↦ objectState object reference) = .held ↔
      ∃ round, reference = .pclsObj round ∧ FirstUnread objects round := by
  constructor
  · intro hheld
    cases hobject : (visited objects)[index]? with
    | none => simp [hobject] at hheld
    | some object =>
      rw [hobject] at hheld
      obtain ⟨hunread, round, rfl⟩ := objectState_eq_held_iff.mp hheld
      cases hround
      rw [getElem?_visited] at hobject
      split_ifs at hobject with hearlier
      exact ⟨index, rfl, hearlier, object, hobject, hunread⟩
  · rintro ⟨round, rfl, hfirst⟩
    cases hround
    obtain ⟨object, hobject, hunread⟩ := hfirst.unread
    rw [getElem?_visited, if_pos hfirst.earlier, hobject]
    exact objectState_eq_held_iff.mpr ⟨hunread, index, rfl⟩

theorem elim_objectState_ne_misused (object : Option ObjectOutcome) (reference : Reference) :
    object.elim .unknown (fun object ↦ objectState object reference) ≠ .misused := by
  cases object with
  | none => simp
  | some object => exact objectState_ne_misused object reference

/-- **One object leaks.**  Nothing is used or given back after its release, and the one reference
that is still held in the end is the first object that cannot be read. -/
theorem held_iff_firstUnread (outcome : Outcome) (reference : Reference) :
    ownership (accesses (main outcome).2.log) reference ≠ .misused ∧
      (ownership (accesses (main outcome).2.log) reference = .held ↔
        SetsUp outcome ∧
          ∃ round, reference = .pclsObj round ∧ FirstUnread outcome.objects.delivered round) := by
  by_cases hsets : SetsUp outcome
  · rw [ownership_of_setsUp hsets]
    cases hround : reference.obtainedIn with
    | none =>
      refine ⟨by simp, iff_of_false (by simp) ?_⟩
      rintro ⟨-, round, rfl, -⟩
      cases hround
    | some index =>
      refine ⟨elim_objectState_ne_misused _ reference, ?_⟩
      rw [and_iff_right hsets]
      exact elim_objectState_eq_held_iff outcome.objects.delivered hround
  · rcases ownership_of_not_setsUp hsets reference with hstate | hstate
    · rw [hstate]
      exact ⟨by simp, iff_of_false (by simp) fun hboth ↦ hsets hboth.1⟩
    · rw [hstate]
      exact ⟨by simp, iff_of_false (by simp) fun hboth ↦ hsets hboth.1⟩

end WinProcessThread.Wmi
