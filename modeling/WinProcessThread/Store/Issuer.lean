import Mathlib.Data.List.Sort
import Mathlib.Algebra.Order.Ring.Int

/-!
# Identifiers that are issued in order

An issuer hands out the next number and remembers, in the order of issue, those that are still in
use.  The structure carries its own well-formedness: the identifiers in use increase and lie below
the next one.  An identifier that is no longer in use is retired, and stays so whatever is issued
or released afterwards.
-/

namespace WinProcessThread.Store

structure Issuer where
  live : List ℤ
  next : ℤ
  increasing : live.Pairwise (· < ·)
  bounded : ∀ id ∈ live, 0 ≤ id ∧ id < next
  next_nonneg : 0 ≤ next

namespace Issuer

/-- Nothing has been issued. -/
def fresh : Issuer where
  live := []
  next := 0
  increasing := .nil
  bounded := by simp
  next_nonneg := le_rfl

variable (issuer : Issuer)

def issue : Issuer where
  live := issuer.live ++ [issuer.next]
  next := issuer.next + 1
  increasing := by
    apply List.pairwise_append.mpr
    refine ⟨issuer.increasing, List.pairwise_singleton _ _, ?_⟩
    intro id hid last hlast
    rw [List.mem_singleton.mp hlast]
    exact (issuer.bounded id hid).2
  bounded := by
    intro id hid
    have hnext : 0 ≤ issuer.next := issuer.next_nonneg
    rcases List.mem_append.mp hid with hold | hnew
    · have hbound := issuer.bounded id hold
      omega
    · rw [List.mem_singleton.mp hnew]
      omega
  next_nonneg := by
    have hnext : 0 ≤ issuer.next := issuer.next_nonneg
    omega

/-- Keep only some of the identifiers in use. -/
def release (rest : List ℤ) (hrest : rest.Sublist issuer.live) : Issuer where
  live := rest
  next := issuer.next
  increasing := issuer.increasing.sublist hrest
  bounded id hid := issuer.bounded id (hrest.subset hid)
  next_nonneg := issuer.next_nonneg

/-- The identifier has been issued, or never will be, and is not in use. -/
def Retired (id : ℤ) : Prop :=
  id < issuer.next ∧ id ∉ issuer.live

variable {issuer} {id : ℤ}

theorem Retired.issue (hretired : issuer.Retired id) : issuer.issue.Retired id := by
  obtain ⟨hlt, hlive⟩ := hretired
  constructor
  · exact lt_trans hlt (lt_add_one issuer.next)
  · intro hmember
    rcases List.mem_append.mp hmember with hold | hnew
    · exact hlive hold
    · exact hlt.ne (List.mem_singleton.mp hnew)

theorem Retired.release {rest : List ℤ} (hrest : rest.Sublist issuer.live)
    (hretired : issuer.Retired id) : (issuer.release rest hrest).Retired id :=
  ⟨hretired.1, fun hmember ↦ hretired.2 (hrest.subset hmember)⟩

end Issuer

end WinProcessThread.Store
