import Mathlib.Data.List.Basic

/-!
# Cursors

A list that is read by queries, one entry each.  The queries end at the end of the list or at a
query that fails; the entries behind such a query are missed.
-/

namespace WinProcessThread.Enumeration

/-- The answers to the queries. -/
inductive Cursor (Entry Error : Type*)
  | ends
  | fails (error : Error) (missed : List Entry)
  | delivers (entry : Entry) (rest : Cursor Entry Error)
deriving DecidableEq, Repr

namespace Cursor

variable {Entry Error : Type*} {cursor : Cursor Entry Error} {p : Entry → Bool}

/-- The entries that a reader gets. -/
def delivered : Cursor Entry Error → List Entry
  | ends => []
  | fails _ _ => []
  | delivers entry rest => entry :: rest.delivered

def missed : Cursor Entry Error → List Entry
  | ends => []
  | fails _ missed => missed
  | delivers _ rest => rest.missed

/-- The whole list. -/
def entries (cursor : Cursor Entry Error) : List Entry :=
  cursor.delivered ++ cursor.missed

/-- A list that is read to its end. -/
def ofList : List Entry → Cursor Entry Error
  | [] => ends
  | entry :: rest => delivers entry (ofList rest)

@[simp]
theorem delivered_ofList (list : List Entry) :
    (ofList list : Cursor Entry Error).delivered = list := by
  induction list with
  | nil => rfl
  | cons entry rest ih => exact congrArg (entry :: ·) ih

theorem delivered_prefix (cursor : Cursor Entry Error) : cursor.delivered <+: cursor.entries :=
  List.prefix_append _ _

/-- A reader gets the whole list when no entry is missed. -/
theorem delivered_eq_entries_iff : cursor.delivered = cursor.entries ↔ cursor.missed = [] :=
  List.self_eq_append_right

theorem exists_delivers (hsome : cursor.delivered ≠ []) :
    ∃ entry rest, cursor = delivers entry rest := by
  cases cursor with
  | ends => exact absurd rfl hsome
  | fails error missed => exact absurd rfl hsome
  | delivers entry rest => exact ⟨entry, rest, rfl⟩

/-- A search that succeeds on what is delivered finds the same entry of the whole list. -/
theorem find?_entries (hsome : (cursor.delivered.find? p).isSome) :
    cursor.entries.find? p = cursor.delivered.find? p := by
  rw [entries, List.find?_append]
  exact Option.or_of_isSome hsome

end Cursor

end WinProcessThread.Enumeration
