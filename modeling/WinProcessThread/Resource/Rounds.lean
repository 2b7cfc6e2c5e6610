import WinProcessThread.Resource.Handles

/-!
# Rounds that own their handles

A loop takes items one after the other and makes the accesses of one round for each.  Every handle
that a round obtains or releases belongs to that round; a handle that belongs to no round is only
used by the loop.  Then what becomes of a handle is decided in the round it belongs to.

A loop that an item can end comes to the items up to the first that does so.
-/

namespace WinProcessThread.Resource

variable {Handle Item : Type*}

/-- The accesses of a loop over items, its rounds numbered from `round` on. -/
def rounds (trace : ℕ → Item → List (Access Handle)) (round : ℕ) : List Item → List (Access Handle)
  | [] => []
  | item :: items => trace round item ++ rounds trace (round + 1) items

/-- A round touches its own handles, and uses those of no round. -/
def KeepsToRounds (owner : Handle → Option ℕ) (trace : ℕ → Item → List (Access Handle)) : Prop :=
  ∀ round item, ∀ access ∈ trace round item,
    owner access.subject = some round ∨
      owner access.subject = none ∧ access = .use access.subject

variable [DecidableEq Handle] {owner : Handle → Option ℕ} {handle : Handle} {index round : ℕ}
variable {trace : ℕ → Item → List (Access Handle)} {items : List Item} {state : Ownership}

/-- Uses of one handle change nothing before its release, whatever is done with the others. -/
theorem Ownership.foldl_used {more : List (Access Handle)} (hstate : state ≠ .released)
    (hused : ∀ access ∈ more, access.subject = handle → access = .use handle) :
    more.foldl (Ownership.after handle) state = state := by
  induction more with
  | nil => rfl
  | cons access rest ih =>
    obtain ⟨hfirst, hrest⟩ := List.forall_mem_cons.mp hused
    have hafter : state.after handle access = state := by
      by_cases hsame : access.subject = handle
      · rw [hfirst hsame]
        exact if_neg fun hlost ↦ hstate hlost.2
      · exact Ownership.after_of_ne hsame
    rw [List.foldl_cons, hafter]
    exact ih hrest

namespace KeepsToRounds

variable (hkeeps : KeepsToRounds owner trace)

include hkeeps

/-- Another round leaves a handle as it is. -/
theorem foldl_of_ne (howner : owner handle = some index) (hother : index ≠ round) (item : Item)
    (state : Ownership) : (trace round item).foldl (Ownership.after handle) state = state := by
  apply Ownership.foldl_of_ne
  rintro access haccess rfl
  rcases hkeeps round item access haccess with hround | ⟨hnone, -⟩
  · exact hother (Option.some.inj (howner.symm.trans hround))
  · rw [hnone] at howner
    cases howner

/-- Later rounds leave a handle as it is. -/
theorem foldl_rounds_of_lt (howner : owner handle = some index) (hearlier : index < round)
    (items : List Item) (state : Ownership) :
    (rounds trace round items).foldl (Ownership.after handle) state = state := by
  induction items generalizing round with
  | nil => rfl
  | cons item items ih =>
    rw [rounds, List.foldl_append, hkeeps.foldl_of_ne howner (Nat.ne_of_lt hearlier)]
    exact ih (Nat.lt_succ_of_lt hearlier)

/-- What the loop makes of a handle is what the round makes of it that it belongs to. -/
theorem ownership_rounds (howner : owner handle = some (round + index)) (items : List Item) :
    ownership (rounds trace round items) handle =
      (items[index]?).elim .unknown fun item ↦ ownership (trace (round + index) item) handle := by
  induction items generalizing round index with
  | nil => rfl
  | cons item items ih =>
    rw [rounds, ownership_append]
    cases index with
    | zero => exact hkeeps.foldl_rounds_of_lt howner (by omega) items _
    | succ index =>
      have hnext : owner handle = some (round + 1 + index) := by
        rw [howner]
        congr 1
        omega
      have hskip : ownership (trace round item) handle = .unknown :=
        hkeeps.foldl_of_ne howner (by omega) item .unknown
      rw [hskip, List.getElem?_cons_succ]
      have hindex : round + (index + 1) = round + 1 + index := by omega
      rw [hindex]
      exact ih hnext

/-- The loop keeps what belongs to none of its rounds. -/
theorem foldl_rounds_of_none (howner : owner handle = none) (hstate : state ≠ .released)
    (round : ℕ) (items : List Item) :
    (rounds trace round items).foldl (Ownership.after handle) state = state := by
  induction items generalizing round with
  | nil => rfl
  | cons item items ih =>
    have hused : ∀ access ∈ trace round item, access.subject = handle → access = .use handle := by
      rintro access haccess rfl
      rcases hkeeps round item access haccess with hround | ⟨-, huse⟩
      · rw [howner] at hround
        cases hround
      · exact huse
    rw [rounds, List.foldl_append, Ownership.foldl_used hstate hused]
    exact ih (round + 1)

end KeepsToRounds

/-- The items up to the first that does not let the loop go on, and this one. -/
def takeThrough (goesOn : Item → Bool) : List Item → List Item
  | [] => []
  | item :: items => item :: if goesOn item then takeThrough goesOn items else []

variable {goesOn : Item → Bool}

theorem takeThrough_of_forall (hall : ∀ item ∈ items, goesOn item = true) :
    takeThrough goesOn items = items := by
  induction items with
  | nil => rfl
  | cons item items ih =>
    obtain ⟨hfirst, hrest⟩ := List.forall_mem_cons.mp hall
    rw [takeThrough, if_pos hfirst, ih hrest]

/-- The loop comes to an item when all items in front of it let it go on. -/
theorem getElem?_takeThrough (goesOn : Item → Bool) (items : List Item) (index : ℕ) :
    (takeThrough goesOn items)[index]? =
      if ∀ item ∈ items.take index, goesOn item = true then items[index]? else none := by
  induction items generalizing index with
  | nil => simp [takeThrough]
  | cons item items ih =>
    cases index with
    | zero => simp [takeThrough]
    | succ index =>
      rw [takeThrough, List.getElem?_cons_succ]
      by_cases hgoesOn : goesOn item = true
      · rw [if_pos hgoesOn, ih]
        simp [hgoesOn]
      · simp [hgoesOn]

end WinProcessThread.Resource
