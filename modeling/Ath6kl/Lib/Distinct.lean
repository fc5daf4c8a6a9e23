import Mathlib.Data.List.Nodup
import Mathlib.Data.List.Perm.Subperm

/-! A table of limited size that keeps each of its entries once: a loop adds what is not there yet,
and has to stop where there is no room. -/
namespace Lib.Distinct
variable {α : Type*}

/-- One entry; `none`: the table is full. -/
def add [DecidableEq α] (size : Nat) (xs : List α) (x : α) : Option (List α) :=
  if x∈xs then some xs else if size ≤ xs.length then none else some (xs ++ [x])

/-- Distinct entries, all of them of a list. -/
structure Within (all xs : List α) : Prop where
  nodup : xs.Nodup
  sub : xs ⊆ all

theorem within_nil (all : List α) : Within all [] := ⟨List.nodup_nil, List.nil_subset all⟩

theorem Within.length_le {all xs : List α} (h : Within all xs) : xs.length ≤ all.length :=
  (h.nodup.subperm h.sub).length_le

/-- What is of the list and not in the table finds room in a table of the size of the list. -/
theorem Within.add [DecidableEq α] {all xs : List α} {size : Nat} (h : Within all xs) (hsize : all.length ≤ size)
    {x : α} (hx : x∈all) :
    ∃ ys, add size xs x = some ys ∧ Within all ys ∧ ∀ c, c∈ys ↔ c∈xs ∨ c = x := by
  by_cases hmem : x∈xs
  · refine ⟨xs, by simp [Distinct.add, hmem], h, fun c => ?_⟩
    constructor
    · intro hc
      exact Or.inl hc
    · rintro (hc | rfl)
      · exact hc
      · exact hmem
  · have hnew : Within all (xs ++ [x]) := by
      constructor
      · exact List.nodup_append.mpr ⟨h.nodup, List.nodup_singleton x, by
          intro a ha b hb hab
          rw [List.mem_singleton] at hb
          exact hmem (hb ▸ hab ▸ ha)⟩
      · exact List.append_subset.mpr ⟨h.sub, by simpa using hx⟩
    have hroom : ¬size ≤ xs.length := by
      have hlen := hnew.length_le
      rw [List.length_append, List.length_singleton] at hlen
      omega
    exact ⟨xs ++ [x], by simp [Distinct.add, hmem, hroom], hnew, by simp⟩

end Lib.Distinct
