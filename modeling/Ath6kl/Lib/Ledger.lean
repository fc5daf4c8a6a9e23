import Mathlib.Algebra.BigOperators.Group.Finset.Basic
import Mathlib.Algebra.Order.BigOperators.Group.Finset
import Mathlib.Tactic.Ring

/-! Ledgers: a finite family of accounts, each with a weight, and their total.
The accounts are records of any kind; only the weight is an integer. -/
namespace Lib.Ledger
variable {ι α : Type*}

def total (S : Finset ι) (w : α → ℤ) (f : ι → α) : ℤ := ∑ i ∈ S, w (f i)

variable {S : Finset ι} {w : α → ℤ} {f : ι → α}

theorem total_nonneg (h : ∀ i∈S, 0 ≤ w (f i)) : 0 ≤ total S w f := Finset.sum_nonneg h

theorem total_eq_zero (h : ∀ i∈S, w (f i) = 0) : total S w f = 0 := Finset.sum_eq_zero h

variable [DecidableEq ι] {e : ι} {a : α}

/-- Rewriting one account moves the total by the difference of its weights. -/
theorem total_update (he : e∈S) :
    total S w (Function.update f e a) = total S w f + (w a - w (f e)) := by
  have hrest : ∑ i ∈ S.erase e, w (Function.update f e a i) = ∑ i ∈ S.erase e, w (f i) :=
    Finset.sum_congr rfl fun i hi => by rw [Function.update_of_ne (Finset.ne_of_mem_erase hi)]
  rw [total, total, ← Finset.add_sum_erase S _ he, ← Finset.add_sum_erase S _ he, hrest,
    Function.update_self]
  ring

theorem total_update_outside (he : e∉S) :
    total S w (Function.update f e a) = total S w f :=
  Finset.sum_congr rfl fun i hi => by
    rw [Function.update_of_ne fun h : i = e => he (h ▸ hi)]

end Lib.Ledger
