import Ath6kl.Lib.Compact

/-! Insertion into an array: the entries from the place on are moved up one by one, the last one
first. In a strictly increasing array that keeps it so, if the place is between the smaller and the
greater entries. -/
namespace Lib.Insertion
open Lib.Compact
variable {α : Type*}

/-- The last `m` of `n` entries are moved up. -/
def moveUp (b : Buffer α) (n m : Nat) : Buffer α :=
  (List.range m).foldl (fun b j => b.put (n-j) (b.entry (n-j-1))) b

section MoveUp
variable {b : Buffer α} {n : Nat}

theorem moveUp_succ (m : Nat) :
    moveUp b n (m+1) = (moveUp b n m).put (n-m) ((moveUp b n m).entry (n-m-1)) := by
  simp [moveUp, List.range_succ]

theorem moveUp_entry {m : Nat} (h : m ≤ n) (k : Nat) :
    (moveUp b n m).entry k = if n-m<k ∧ k ≤ n then b.entry (k-1) else b.entry k := by
  induction m generalizing k with
  | zero =>
    have hk : ¬(n-0<k ∧ k ≤ n) := by omega
    rw [if_neg hk]
    rfl
  | succ m ih =>
    rw [moveUp_succ]
    by_cases hk : k = n-m
    · have hin : n-(m+1)<k ∧ k ≤ n := by omega
      have hout : ¬(n-m<n-m-1 ∧ n-m-1 ≤ n) := by omega
      rw [hk, Buffer.put_entry_self, ih (by omega), if_neg hout, if_pos (hk ▸ hin)]
    · have hiff : (n-(m+1)<k ∧ k ≤ n) ↔ (n-m<k ∧ k ≤ n) := by omega
      rw [Buffer.put_entry_of_ne _ hk, ih (by omega)]
      simp only [hiff]

theorem moveUp_top {m : Nat} (h : b.top ≤ n) : (moveUp b n m).top ≤ n+1 := by
  induction m with
  | zero => exact Nat.le_succ_of_le h
  | succ m ih =>
    rw [moveUp_succ, Buffer.put_top]
    omega

/-- The array with one more entry. -/
theorem contents_insert {i : Nat} (h : i ≤ n) (x : α) :
    ((moveUp b n (n-i)).put i x).contents (n+1) =
      (b.contents n).take i ++ x::(b.contents n).drop i := by
  have htake : ((b.contents n).take i).length = i := by
    rw [List.length_take, Buffer.length_contents]
    omega
  apply List.ext_getElem?
  intro k
  rw [Buffer.getElem?_contents, List.getElem?_append, htake]
  by_cases hki : k < i
  · have hne : k ≠ i := by omega
    have hout : ¬(n-(n-i)<k ∧ k ≤ n) := by omega
    rw [if_pos (by omega), if_pos hki, Buffer.put_entry_of_ne _ hne, moveUp_entry (by omega),
      if_neg hout, List.getElem?_take_of_lt hki, Buffer.getElem?_contents, if_pos (by omega)]
  · rw [if_neg hki]
    obtain rfl | hne := eq_or_ne k i
    · rw [if_pos (by omega), Buffer.put_entry_self, Nat.sub_self]
      rfl
    · obtain ⟨j, rfl⟩ : ∃ j, k = i+1+j := ⟨k-i-1, by omega⟩
      have hsub : i+1+j-i = j+1 := by omega
      rw [hsub, List.getElem?_cons_succ, List.getElem?_drop, Buffer.getElem?_contents]
      split_ifs with hk hj hj
      · have hin : n-(n-i) < i+1+j ∧ i+1+j ≤ n := by omega
        have hpred : i+1+j-1 = i+j := by omega
        rw [Buffer.put_entry_of_ne _ hne, moveUp_entry (by omega), if_pos hin, hpred]
      · omega
      · omega
      · rfl

end MoveUp

section Increasing
variable {r : α → α → Prop} {xs ys : List α} {x : α}

/-- Between the smaller and the greater ones. -/
theorem pairwise_insert (htrans : ∀ {a b c : α}, r a b → r b c → r a c)
    (h : (xs ++ ys).Pairwise r) (hlt : ∀ a∈xs, r a x) (hgt : ∀ a∈ys.head?, r x a) :
    (xs ++ x::ys).Pairwise r := by
  obtain ⟨hxs, hys, hcross⟩ := List.pairwise_append.mp h
  have hall : ∀ a∈ys, r x a := by
    cases ys with
    | nil => simp
    | cons y ys =>
      have hy : r x y := hgt y rfl
      intro a ha
      obtain rfl | ha := List.mem_cons.mp ha
      · exact hy
      · exact htrans hy (List.rel_of_pairwise_cons hys ha)
  refine List.pairwise_append.mpr ⟨hxs, List.pairwise_cons.mpr ⟨hall, hys⟩, fun a ha c hc => ?_⟩
  obtain rfl | hc := List.mem_cons.mp hc
  · exact hlt a ha
  · exact hcross a ha c hc

/-- An array stays increasing if the place is behind the smaller entries and before a greater one. -/
theorem pairwise_contents_insert {b : Buffer α} {n i : Nat}
    (htrans : ∀ {a b c : α}, r a b → r b c → r a c) (hle : i ≤ n) (h : (b.contents n).Pairwise r)
    (hlt : ∀ k, k < i → r (b.entry k) x) (hgt : i<n → r x (b.entry i)) :
    (((moveUp b n (n-i)).put i x).contents (n+1)).Pairwise r := by
  rw [contents_insert hle]
  rw [← List.take_append_drop i (b.contents n)] at h
  refine pairwise_insert htrans h (fun a ha => ?_) fun a ha => ?_
  · obtain ⟨k, hk⟩ := List.mem_iff_getElem?.mp ha
    rw [List.getElem?_take, Buffer.getElem?_contents] at hk
    split_ifs at hk with hki hkn
    obtain rfl := Option.some.inj hk
    exact hlt k hki
  · rw [List.head?_drop, Buffer.getElem?_contents] at ha
    split_ifs at ha with hi
    · obtain rfl := Option.some.inj ha
      exact hgt hi
    · cases ha

end Increasing

end Lib.Insertion
