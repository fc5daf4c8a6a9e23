import Mathlib.Data.List.Basic

/-! Framing with padding between the items and none behind the last one. -/
namespace Lib.Framing
variable {α : Type*} (pad : List α → List α)

/-- The items one after the other, each but the last one padded. -/
def joinPadded : List (List α) → List α
  | [] => []
  | [x] => x
  | x::y::ys => pad x ++ joinPadded (y::ys)

@[simp] theorem joinPadded_single (x : List α) : joinPadded pad [x] = x := rfl

theorem joinPadded_cons {x : List α} {xs : List (List α)} (h : xs ≠ []) :
    joinPadded pad (x::xs) = pad x ++ joinPadded pad xs := by
  cases xs with
  | nil => exact absurd rfl h
  | cons y ys => rfl

/-- How a writer that pads every item and takes the last padding back builds it. -/
theorem joinPadded_snoc (xs : List (List α)) (x : List α) :
    joinPadded pad (xs ++ [x]) = xs.flatMap pad ++ x := by
  induction xs with
  | nil => simp
  | cons y ys ih =>
    have hne : ys ++ [x] ≠ [] := by simp
    rw [List.cons_append, joinPadded_cons pad hne, ih, List.flatMap_cons, List.append_assoc]

/-- A nonempty item makes the whole nonempty. -/
theorem joinPadded_pos {xs : List (List α)} (hne : xs ≠ []) (h : ∀ x∈xs, 0<x.length) :
    0 < (joinPadded pad xs).length := by
  obtain ⟨ys, y, rfl⟩ := (List.eq_nil_or_concat xs).resolve_left hne
  have hy : 0 < y.length := h y (by simp)
  rw [List.concat_eq_append, joinPadded_snoc, List.length_append]
  omega

end Lib.Framing
