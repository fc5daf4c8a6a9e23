import Ath6kl.Lib.Deframe
import Mathlib.Data.UInt

/-! Strings of elements, each an identifier, a length and as many bytes as the length says, and what
is left of a string when some elements are taken out. -/
namespace Lib.Element
open Lib.Deframe

/-- A whole element. -/
def Item (x : List UInt8) : Prop :=
  ∃ id len body, x = id::len::body ∧ body.length = len.toNat

/-- The whole elements at the head of a string. -/
def splitFrom : Nat → List UInt8 → List (List UInt8)
  | 0, _ => []
  | fuel+1, id::len::rest =>
    if len.toNat ≤ rest.length then
      (id::len::rest.take len.toNat)::splitFrom fuel (rest.drop len.toNat)
    else []
  | _+1, _ => []

def split (s : List UInt8) : List (List UInt8) := splitFrom s.length s

theorem item_delimiting : SelfDelimiting Item where
  unique := by
    rintro x y s t ⟨id, len, body, rfl, hbody⟩ ⟨id', len', body', rfl, hbody'⟩ h
    simp only [List.cons_append, List.cons.injEq] at h
    obtain ⟨rfl, rfl, h⟩ := h
    have hlen : body.length = body'.length := hbody.trans hbody'.symm
    rw [(List.append_inj h hlen).1]

theorem splitFrom_longest (fuel : Nat) (s : List UInt8) (h : s.length ≤ fuel) :
    Longest Item s (splitFrom fuel s) := by
  induction fuel generalizing s with
  | zero =>
    apply Longest.nil
    rintro x ⟨id, len, body, rfl, -⟩ hx
    have hle := hx.length_le
    simp at hle
    omega
  | succ fuel ih =>
    match s with
    | [] =>
      apply Longest.nil
      rintro x ⟨id, len, body, rfl, -⟩ hx
      simp at hx
    | [b] =>
      apply Longest.nil
      rintro x ⟨id, len, body, rfl, -⟩ hx
      simp at hx
    | id::len::rest =>
      by_cases hw : len.toNat ≤ rest.length
      · simp only [splitFrom, hw, if_true]
        have hs : id::len::rest =
            (id::len::rest.take len.toNat) ++ rest.drop len.toNat := by simp
        have hrest : (rest.drop len.toNat).length ≤ fuel := by
          simp at h ⊢
          omega
        rw [hs]
        exact Longest.cons item_delimiting
          ⟨id, len, rest.take len.toNat, rfl, by simp [hw]⟩ (ih _ hrest)
      · simp only [splitFrom, hw, if_false]
        apply Longest.nil
        rintro x ⟨id', len', body, rfl, hbody⟩ hx
        simp only [List.cons_prefix_cons] at hx
        obtain ⟨rfl, rfl, hx⟩ := hx
        have hle := hx.length_le
        omega

theorem split_longest (s : List UInt8) : Longest Item s (split s) :=
  splitFrom_longest _ _ le_rfl

theorem ne_nil_of_item (x : List UInt8) (h : Item x) : x ≠ [] := by
  obtain ⟨id, len, body, rfl, -⟩ := h
  simp

/-- Elements in a row are split where they were put together. -/
theorem split_flatten {xs : List (List UInt8)} (h : ∀ x∈xs, Item x) : split xs.flatten = xs :=
  (split_longest xs.flatten).eq (longest_flatten item_delimiting ne_nil_of_item h)

/-- Nothing is cut off exactly when the string is one element after the other. -/
theorem flatten_split_iff (s : List UInt8) :
    (split s).flatten = s ↔ ∃ xs : List (List UInt8), (∀ x∈xs, Item x) ∧ xs.flatten = s := by
  constructor
  · intro h
    exact ⟨split s, (split_longest s).items, h⟩
  · rintro ⟨xs, hitems, rfl⟩
    rw [split_flatten hitems]

end Lib.Element
