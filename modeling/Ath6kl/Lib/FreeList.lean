import Mathlib.Data.List.Basic

/-! Lists that are threaded through their own entries: a head, and in each entry a link to the
next. -/
namespace Lib.FreeList
variable {α : Type*} {next next' : α → Option α} {head : Option α} {x : α} {xs : List α}

/-- From the head on the links lead along the list, and end with it. -/
def Links (next : α → Option α) : Option α → List α → Prop
  | head, [] => head = none
  | head, x::xs => head = some x ∧ Links next (next x) xs

@[simp] theorem links_nil : Links next head [] ↔ head = none := Iff.rfl

/-- The links of other entries do not matter. -/
theorem Links.congr (h : Links next head xs) (hnext : ∀ y∈xs, next' y = next y) :
    Links next' head xs := by
  induction xs generalizing head with
  | nil => exact h
  | cons y ys ih =>
    obtain ⟨hy, hys⟩ := List.forall_mem_cons.mp hnext
    refine ⟨h.1, ?_⟩
    rw [hy]
    exact ih h.2 hys

/-- An entry in front of the list. -/
theorem Links.push (h : Links next head xs) (hx : x∉xs) (hself : next' x = head)
    (hrest : ∀ y, y ≠ x → next' y = next y) : Links next' (some x) (x::xs) := by
  refine ⟨rfl, ?_⟩
  rw [hself]
  exact h.congr fun y hy => hrest y fun heq => hx (heq ▸ hy)

theorem Links.pop (h : Links next (some x) xs) :
    ∃ ys, xs = x::ys ∧ Links next (next x) ys := by
  cases xs with
  | nil => simp at h
  | cons y ys =>
    obtain ⟨hy, hys⟩ := h
    obtain rfl : x = y := by simpa using hy
    exact ⟨ys, rfl, hys⟩

end Lib.FreeList
