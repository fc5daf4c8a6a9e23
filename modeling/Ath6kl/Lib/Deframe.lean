import Mathlib.Data.List.Basic

/-! Items that tell their own end, and the longest run of them at the head of a stream. -/
namespace Lib.Deframe
variable {α : Type*} {Item : List α → Prop}

/-- Two items at the head of one stream are the same. -/
structure SelfDelimiting (Item : List α → Prop) : Prop where
  unique : ∀ {x y s t}, Item x → Item y → x ++ s = y ++ t → x = y

/-- The items `xs` begin `s`, and no other items reach further. -/
structure Longest (Item : List α → Prop) (s : List α) (xs : List (List α)) : Prop where
  items : ∀ x∈xs, Item x
  heads : xs.flatten <+: s
  longest : ∀ ys : List (List α), (∀ y∈ys, Item y) → ys.flatten <+: s → ys <+: xs

/-- A stream that no item begins. -/
theorem Longest.nil {s : List α} (h : ∀ x, Item x → ¬x <+: s) : Longest Item s [] where
  items := fun _ hx => (List.not_mem_nil hx).elim
  heads := List.nil_prefix
  longest := by
    intro ys hys hs
    cases ys with
    | nil => exact List.nil_prefix
    | cons y ys =>
      have hy : y <+: s := (List.prefix_append y ys.flatten).trans hs
      exact absurd hy (h y (hys y List.mem_cons_self))

theorem Longest.cons (hd : SelfDelimiting Item) {x s : List α} {xs : List (List α)}
    (hx : Item x) (h : Longest Item s xs) : Longest Item (x ++ s) (x::xs) where
  items := List.forall_mem_cons.mpr ⟨hx, h.items⟩
  heads := by
    rw [List.flatten_cons]
    exact (List.prefix_append_right_inj x).mpr h.heads
  longest := by
    intro ys hys hs
    cases ys with
    | nil => exact List.nil_prefix
    | cons y ys =>
      obtain ⟨hy, hys⟩ := List.forall_mem_cons.mp hys
      rw [List.flatten_cons] at hs
      have hyx : y = x := by
        obtain ⟨t, ht⟩ := hs
        rw [List.append_assoc] at ht
        exact hd.unique hy hx ht
      rw [hyx] at hs ⊢
      have hrest := h.longest ys hys ((List.prefix_append_right_inj x).mp hs)
      exact (List.prefix_cons_inj x).mpr hrest

/-- Items in a row are the longest run of themselves. -/
theorem longest_flatten (hd : SelfDelimiting Item) (hne : ∀ x, Item x → x ≠ [])
    {xs : List (List α)} (h : ∀ x∈xs, Item x) : Longest Item xs.flatten xs := by
  induction xs with
  | nil => exact Longest.nil fun x hx hpre => hne x hx (List.prefix_nil.mp hpre)
  | cons x xs ih =>
    obtain ⟨hx, hxs⟩ := List.forall_mem_cons.mp h
    rw [List.flatten_cons]
    exact Longest.cons hd hx (ih hxs)

/-- There is one longest run only. -/
theorem Longest.eq {s : List α} {xs ys : List (List α)} (h : Longest Item s xs)
    (h' : Longest Item s ys) : xs = ys := by
  have hxy := h'.longest xs h.items h.heads
  have hyx := h.longest ys h'.items h'.heads
  exact hxy.eq_of_length (Nat.le_antisymm hxy.length_le hyx.length_le)

end Lib.Deframe
