import Mathlib.Data.List.Perm.Basic

/-! Things that pass from hand to hand. Each hand is a list, and passing a thing on, wherever
it stands in its list, permutes what all hands hold together. -/
namespace Lib.Custody
open scoped List
variable {α : Type*} {l s : List α} {i : Nat} {x : α}

theorem perm_cons_eraseIdx (h : s[i]? = some x) : s ~ x :: s.eraseIdx i := by
  obtain ⟨hi, rfl⟩ := List.getElem?_eq_some_iff.mp h
  exact (List.getElem_cons_eraseIdx_perm hi).symm

/-- A new thing enters the first hand. -/
theorem take_in {t : List α} (h : l ~ s ++ t) (x : α) : l ++ [x] ~ s ++ [x] ++ t := by
  calc
    l ++ [x] ~ x :: l := List.perm_append_singleton x l
    _ ~ x :: (s ++ t) := h.cons x
    _ ~ s ++ x :: t := List.perm_middle.symm
    _ = s ++ [x] ++ t := List.append_cons s x t

/-- From the first hand to the end of the next one. -/
theorem pass_on (h : s[i]? = some x) (t r : List α) :
    s ++ (t ++ r) ~ s.eraseIdx i ++ (t ++ [x] ++ r) := by
  calc
    s ++ (t ++ r) ~ x :: s.eraseIdx i ++ (t ++ r) := (perm_cons_eraseIdx h).append_right _
    _ ~ s.eraseIdx i ++ x :: (t ++ r) := List.perm_middle.symm
    _ ~ s.eraseIdx i ++ (t ++ x :: r) := List.perm_middle.symm.append_left _
    _ = s.eraseIdx i ++ (t ++ [x] ++ r) := by rw [← List.append_cons]

end Lib.Custody
