import Mathlib.Data.List.Pairwise

/-! Ranges of a line that may touch but not overlap. A span of positive length lies in at most
one of them, and where one range ends with a span, the range of the next span begins there. -/
namespace Lib.Range

structure Segment where
  lo : Nat
  hi : Nat
  ordered : lo ≤ hi
deriving DecidableEq

namespace Segment

/-- The span from `a` to `b` lies in the range. -/
def Holds (r : Segment) (a b : Nat) : Prop := r.lo ≤ a ∧ b ≤ r.hi

instance (r : Segment) (a b : Nat) : Decidable (r.Holds a b) :=
  inferInstanceAs (Decidable (_ ∧ _))

def Apart (r s : Segment) : Prop := r.hi ≤ s.lo ∨ s.hi ≤ r.lo

instance (r s : Segment) : Decidable (r.Apart s) := inferInstanceAs (Decidable (_ ∨ _))

theorem Apart.symm {r s : Segment} (h : r.Apart s) : s.Apart r := Or.symm h

theorem Holds.not_apart {r s : Segment} {a b : Nat} (h : r.Holds a b) (h' : s.Holds a b)
    (hab : a < b) : ¬r.Apart s := by
  obtain ⟨hr, hr'⟩ := h
  obtain ⟨hs, hs'⟩ := h'
  rintro (hap | hap) <;> omega

theorem Holds.touch {r s : Segment} {a b c : Nat} (h : r.Holds a b) (h' : s.Holds b c)
    (hab : a < b) (hbc : b < c) (hap : r.Apart s) : r.hi = b ∧ s.lo = b := by
  obtain ⟨hr, hr'⟩ := h
  obtain ⟨hs, hs'⟩ := h'
  rcases hap with hap | hap <;> omega

end Segment

section Lists
variable {α : Type*} {range : α → Segment} {l : List α}

theorem apart_of_mem (hl : l.Pairwise fun x y => (range x).Apart (range y)) {x y : α}
    (hx : x∈l) (hy : y∈l) (hne : x ≠ y) : (range x).Apart (range y) := by
  have : Std.Symm fun x y => (range x).Apart (range y) := ⟨fun _ _ h => h.symm⟩
  exact hl.forall hx hy hne

/-- Two spans that touch lie in one range, or in two that touch where they do. -/
theorem eq_or_touch (hl : l.Pairwise fun x y => (range x).Apart (range y)) {x y : α}
    (hx : x∈l) (hy : y∈l) {a b c : Nat} (hab : a < b) (hbc : b < c)
    (hxs : (range x).Holds a b) (hys : (range y).Holds b c) :
    x = y ∨ (range x).hi = b ∧ (range y).lo = b := by
  by_cases hne : x = y
  · exact Or.inl hne
  · exact Or.inr (hxs.touch hys hab hbc (apart_of_mem hl hx hy hne))

end Lists

end Lib.Range
