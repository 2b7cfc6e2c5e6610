import Mathlib.Data.List.Induction
import Mathlib.Data.List.Basic

/-!
# Handle discipline

What a program does with its handles is a list of accesses.  Handles are named by the call that
returns them, so a name is obtained at most once; a name that is never obtained stands for a null
or an uninitialised handle.  A trace is disciplined when every handle obtained is released exactly
once, no handle is used after its release, and nothing is released that was not obtained.

The discipline is checked handle by handle, by an automaton that reads the accesses in order.
-/

namespace WinProcessThread.Resource

variable {Handle : Type*}

inductive Access (Handle : Type*)
  | obtain (handle : Handle)
  | use (handle : Handle)
  | release (handle : Handle)
deriving DecidableEq, Repr

def Access.subject : Access Handle → Handle
  | .obtain handle => handle
  | .use handle => handle
  | .release handle => handle

/-- The discipline of a whole trace. -/
structure Disciplined [DecidableEq Handle] (trace : List (Access Handle)) : Prop where
  released_once : ∀ handle, .obtain handle ∈ trace → trace.count (.release handle) = 1
  not_used_after : ∀ handle earlier later,
    trace = earlier ++ .release handle :: later → .use handle ∉ later
  obtained : ∀ handle earlier later,
    trace = earlier ++ .release handle :: later → .obtain handle ∈ earlier

inductive Ownership
  | unknown
  | held
  | released
  | misused
deriving DecidableEq, Repr

variable [DecidableEq Handle] {handle : Handle} {trace : List (Access Handle)}

/-- What one access makes of a handle. -/
def Ownership.after (handle : Handle) (ownership : Ownership) : Access Handle → Ownership
  | .obtain other =>
    if other = handle ∧ ownership = .unknown then .held else ownership
  | .use other =>
    if other = handle ∧ ownership = .released then .misused else ownership
  | .release other =>
    if other = handle then
      if ownership = .held then .released else .misused
    else
      ownership

/-- The state of a handle behind a trace. -/
def ownership (trace : List (Access Handle)) (handle : Handle) : Ownership :=
  trace.foldl (Ownership.after handle) .unknown

@[simp]
theorem ownership_nil : ownership [] handle = .unknown := rfl

theorem ownership_append (trace more : List (Access Handle)) :
    ownership (trace ++ more) handle =
      more.foldl (Ownership.after handle) (ownership trace handle) :=
  List.foldl_append

@[simp]
theorem ownership_snoc (trace : List (Access Handle)) (access : Access Handle) :
    ownership (trace ++ [access]) handle = (ownership trace handle).after handle access :=
  ownership_append trace [access]

/-- A handle that was released, well or not, is out of reach. -/
def Ownership.Lost (ownership : Ownership) : Prop :=
  ownership = .released ∨ ownership = .misused

theorem Ownership.Lost.after {state : Ownership} (hlost : state.Lost) (access : Access Handle) :
    (state.after handle access).Lost := by
  rcases hlost with rfl | rfl
  · cases access with
    | obtain other => simp [Ownership.after, Ownership.Lost]
    | use other => by_cases hsame : other = handle <;> simp [Ownership.after, Ownership.Lost, hsame]
    | release other =>
      by_cases hsame : other = handle <;> simp [Ownership.after, Ownership.Lost, hsame]
  · cases access <;> simp [Ownership.after, Ownership.Lost]

theorem Ownership.Lost.foldl {state : Ownership} (hlost : state.Lost)
    (more : List (Access Handle)) : (more.foldl (Ownership.after handle) state).Lost := by
  induction more generalizing state with
  | nil => exact hlost
  | cons access rest ih => exact ih (hlost.after access)

theorem Ownership.after_of_ne {state : Ownership} {access : Access Handle}
    (hother : access.subject ≠ handle) : state.after handle access = state := by
  cases access with
  | obtain other => exact if_neg fun hboth ↦ hother hboth.1
  | use other => exact if_neg fun hboth ↦ hother hboth.1
  | release other => exact if_neg hother

/-- Accesses to other handles change nothing. -/
theorem Ownership.foldl_of_ne {more : List (Access Handle)}
    (hother : ∀ access ∈ more, access.subject ≠ handle) (state : Ownership) :
    more.foldl (Ownership.after handle) state = state := by
  induction more with
  | nil => rfl
  | cons access rest ih =>
    obtain ⟨hfirst, hrest⟩ := List.forall_mem_cons.mp hother
    rw [List.foldl_cons, Ownership.after_of_ne hfirst]
    exact ih hrest

/-- What the state of a handle says about the trace behind which it is reached. -/
def Describes (trace : List (Access Handle)) (handle : Handle) : Ownership → Prop
  | .unknown => .obtain handle ∉ trace ∧ .release handle ∉ trace
  | .held => .obtain handle ∈ trace ∧ .release handle ∉ trace
  | .released =>
    ∃ earlier later, trace = earlier ++ .release handle :: later ∧ .obtain handle ∈ earlier ∧
      .release handle ∉ earlier ∧ .release handle ∉ later ∧ .use handle ∉ later
  | .misused =>
    ∃ earlier later, trace = earlier ++ .release handle :: later ∧
      (.obtain handle ∉ earlier ∨ .release handle ∈ later ∨ .use handle ∈ later)

theorem describes_snoc_of_unknown (hobtain : .obtain handle ∉ trace)
    (hrelease : .release handle ∉ trace) (access : Access Handle) :
    Describes (trace ++ [access]) handle (Ownership.unknown.after handle access) := by
  cases access with
  | obtain other =>
    by_cases hsame : other = handle
    · simp [Ownership.after, Describes, hsame, hrelease]
    · simp [Ownership.after, Describes, hsame, hobtain, hrelease, Ne.symm hsame]
  | use other => simp [Ownership.after, Describes, hobtain, hrelease]
  | release other =>
    by_cases hsame : other = handle
    · simp only [Ownership.after, hsame, if_true, reduceCtorEq, if_false]
      exact ⟨trace, [], rfl, .inl hobtain⟩
    · simp [Ownership.after, Describes, hsame, hobtain, hrelease, Ne.symm hsame]

theorem describes_snoc_of_held (hobtain : .obtain handle ∈ trace)
    (hrelease : .release handle ∉ trace) (access : Access Handle) :
    Describes (trace ++ [access]) handle (Ownership.held.after handle access) := by
  cases access with
  | obtain other => simp [Ownership.after, Describes, hobtain, hrelease]
  | use other => simp [Ownership.after, Describes, hobtain, hrelease]
  | release other =>
    by_cases hsame : other = handle
    · simp only [Ownership.after, hsame, if_true]
      exact ⟨trace, [], rfl, hobtain, hrelease, List.not_mem_nil, List.not_mem_nil⟩
    · simp [Ownership.after, Describes, hsame, hobtain, hrelease, Ne.symm hsame]

/-- Behind its release a handle is misused by the next use or release. -/
theorem describes_snoc_of_released (hdescribes : Describes trace handle .released)
    (access : Access Handle) :
    Describes (trace ++ [access]) handle (Ownership.released.after handle access) := by
  obtain ⟨earlier, later, rfl, hobtain, hearlier, hlater, huse⟩ := hdescribes
  have hsplit : earlier ++ .release handle :: later ++ [access] =
      earlier ++ .release handle :: (later ++ [access]) := by simp
  by_cases hbad : access = .use handle ∨ access = .release handle
  · have hmisused : Ownership.after handle .released access = .misused := by
      rcases hbad with rfl | rfl <;> simp [Ownership.after]
    rw [hmisused]
    refine ⟨earlier, later ++ [access], hsplit, .inr ?_⟩
    rcases hbad with rfl | rfl
    · exact .inr (by simp)
    · exact .inl (by simp)
  · have hkept : Ownership.after handle .released access = .released := by
      cases access <;> simp_all [Ownership.after]
    rw [hkept]
    push Not at hbad
    refine ⟨earlier, later ++ [access], hsplit, hobtain, hearlier, ?_, ?_⟩
    · simp [hlater, Ne.symm hbad.2]
    · simp [huse, Ne.symm hbad.1]

theorem describes_snoc_of_misused (hdescribes : Describes trace handle .misused)
    (access : Access Handle) :
    Describes (trace ++ [access]) handle (Ownership.misused.after handle access) := by
  obtain ⟨earlier, later, rfl, hbad⟩ := hdescribes
  have hkept : Ownership.after handle .misused access = .misused := by
    cases access <;> simp [Ownership.after]
  rw [hkept]
  refine ⟨earlier, later ++ [access], by simp, ?_⟩
  rcases hbad with hobtain | hrelease | huse
  · exact .inl hobtain
  · exact .inr (.inl (List.mem_append_left _ hrelease))
  · exact .inr (.inr (List.mem_append_left _ huse))

theorem Describes.snoc {state : Ownership} (hdescribes : Describes trace handle state)
    (access : Access Handle) :
    Describes (trace ++ [access]) handle (state.after handle access) := by
  cases state with
  | unknown => exact describes_snoc_of_unknown hdescribes.1 hdescribes.2 access
  | held => exact describes_snoc_of_held hdescribes.1 hdescribes.2 access
  | released => exact describes_snoc_of_released hdescribes access
  | misused => exact describes_snoc_of_misused hdescribes access

theorem describes_ownership (trace : List (Access Handle)) (handle : Handle) :
    Describes trace handle (ownership trace handle) := by
  induction trace using List.reverseRecOn with
  | nil => exact ⟨List.not_mem_nil, List.not_mem_nil⟩
  | append_singleton trace access ih =>
    rw [ownership_snoc]
    exact ih.snoc access

/-- A handle is held when it was obtained and has never been released. -/
theorem ownership_eq_held_iff :
    ownership trace handle = .held ↔ .obtain handle ∈ trace ∧ .release handle ∉ trace := by
  have hdescribes := describes_ownership trace handle
  cases hstate : ownership trace handle with
  | held =>
    rw [hstate] at hdescribes
    exact iff_of_true rfl hdescribes
  | unknown =>
    rw [hstate] at hdescribes
    exact iff_of_false (by simp) fun hheld ↦ hdescribes.1 hheld.1
  | released =>
    rw [hstate] at hdescribes
    obtain ⟨earlier, later, hsplit, -⟩ := hdescribes
    exact iff_of_false (by simp) fun hheld ↦ hheld.2 (by simp [hsplit])
  | misused =>
    rw [hstate] at hdescribes
    obtain ⟨earlier, later, hsplit, -⟩ := hdescribes
    exact iff_of_false (by simp) fun hheld ↦ hheld.2 (by simp [hsplit])

/-- A handle that the trace leaves untouched or released. -/
def Clean (trace : List (Access Handle)) (handle : Handle) : Prop :=
  ownership trace handle = .unknown ∨ ownership trace handle = .released

theorem Disciplined.clean (hdisciplined : Disciplined trace) (handle : Handle) :
    Clean trace handle := by
  have hdescribes := describes_ownership trace handle
  cases hstate : ownership trace handle with
  | unknown => exact .inl hstate
  | released => exact .inr hstate
  | held =>
    rw [hstate] at hdescribes
    have hone := hdisciplined.released_once handle hdescribes.1
    rw [List.count_eq_zero_of_not_mem hdescribes.2] at hone
    exact absurd hone Nat.zero_ne_one
  | misused =>
    rw [hstate] at hdescribes
    obtain ⟨earlier, later, hsplit, hbad⟩ := hdescribes
    have hobtain := hdisciplined.obtained handle earlier later hsplit
    rcases hbad with hnone | hrelease | huse
    · exact absurd hobtain hnone
    · have hone := hdisciplined.released_once handle
        (hsplit ▸ List.mem_append_left _ hobtain)
      have hmore : 0 < later.count (.release handle) := List.count_pos_iff.mpr hrelease
      rw [hsplit, List.count_append, List.count_cons_self] at hone
      omega
    · exact absurd huse (hdisciplined.not_used_after handle earlier later hsplit)

/-- A release leaves the handle released, and then it splits the trace in one way only. -/
theorem Clean.split {earlier later : List (Access Handle)} (hclean : Clean trace handle)
    (hsplit : trace = earlier ++ .release handle :: later) :
    .obtain handle ∈ earlier ∧ .use handle ∉ later := by
  have hdescribes := describes_ownership trace handle
  rcases hclean with hstate | hstate
  · rw [hstate] at hdescribes
    exact absurd (hsplit ▸ by simp) hdescribes.2
  · rw [hstate] at hdescribes
    obtain ⟨before, behind, htrace, hobtain, hbefore, hbehind, huse⟩ := hdescribes
    obtain ⟨rfl, -, rfl⟩ :=
      (List.append_cons_inj_of_notMem hbefore hbehind).mp (htrace.symm.trans hsplit)
    exact ⟨hobtain, huse⟩

theorem Clean.count_release (hclean : Clean trace handle) (hobtain : .obtain handle ∈ trace) :
    trace.count (.release handle) = 1 := by
  have hdescribes := describes_ownership trace handle
  rcases hclean with hstate | hstate
  · rw [hstate] at hdescribes
    exact absurd hobtain hdescribes.1
  · rw [hstate] at hdescribes
    obtain ⟨earlier, later, hsplit, -, hearlier, hlater, -⟩ := hdescribes
    calc
      trace.count (.release handle) =
          earlier.count (.release handle) + (later.count (.release handle) + 1) := by
        rw [hsplit, List.count_append, List.count_cons_self]
      _ = 1 := by
        rw [List.count_eq_zero_of_not_mem hearlier, List.count_eq_zero_of_not_mem hlater]

/-- A trace is disciplined exactly when it leaves every handle released or untouched. -/
theorem disciplined_iff :
    Disciplined trace ↔
      ∀ handle, ownership trace handle = .unknown ∨ ownership trace handle = .released := by
  constructor
  · exact Disciplined.clean
  · intro hclean
    constructor
    · intro handle hobtain
      exact Clean.count_release (hclean handle) hobtain
    · intro handle earlier later hsplit
      exact (Clean.split (hclean handle) hsplit).2
    · intro handle earlier later hsplit
      exact (Clean.split (hclean handle) hsplit).1

theorem Disciplined.ne_held (hdisciplined : Disciplined trace) (handle : Handle) :
    ownership trace handle ≠ .held := by
  rcases hdisciplined.clean handle with hstate | hstate
  · rw [hstate]
    exact nofun
  · rw [hstate]
    exact nofun

theorem Disciplined.ne_misused (hdisciplined : Disciplined trace) (handle : Handle) :
    ownership trace handle ≠ .misused := by
  rcases hdisciplined.clean handle with hstate | hstate
  · rw [hstate]
    exact nofun
  · rw [hstate]
    exact nofun

/-- Uses change nothing before the release. -/
theorem Ownership.foldl_uses {state : Ownership} (hstate : state ≠ .released)
    {uses : List (Access Handle)} (huses : ∀ access ∈ uses, ∃ other, access = .use other) :
    uses.foldl (Ownership.after handle) state = state := by
  induction uses with
  | nil => rfl
  | cons access rest ih =>
    obtain ⟨⟨other, haccess⟩, hrest⟩ := List.forall_mem_cons.mp huses
    have hafter : state.after handle access = state := by
      rw [haccess]
      exact if_neg fun hlost ↦ hstate hlost.2
    rw [List.foldl_cons, hafter]
    exact ih hrest

/-- A handle that is obtained, used and released. -/
theorem disciplined_bracket {uses : List (Access Handle)}
    (huses : ∀ access ∈ uses, ∃ other, access = .use other) :
    Disciplined (.obtain handle :: uses ++ [.release handle]) := by
  rw [disciplined_iff]
  intro other
  rw [ownership_snoc, ownership, List.foldl_cons]
  by_cases hsame : handle = other
  · have hheld : Ownership.unknown.after other (.obtain handle) = .held := if_pos ⟨hsame, rfl⟩
    right
    rw [hheld, Ownership.foldl_uses (by simp) huses]
    simp [Ownership.after, hsame]
  · have hunknown : Ownership.unknown.after other (.obtain handle) = .unknown :=
      if_neg fun hobtained ↦ hsame hobtained.1
    left
    rw [hunknown, Ownership.foldl_uses (by simp) huses]
    exact if_neg hsame

end WinProcessThread.Resource
