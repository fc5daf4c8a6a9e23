import Mathlib.Data.List.Basic

/-! Sweeps over a list in place: each element is replaced in turn, and what replaces it may
depend on the list as it then is. Where it does not matter which elements are already
replaced, a sweep is a map. -/
namespace Lib.Sweep
variable {α : Type*}

def sweep (f : List α → α → α) (l : List α) : List α :=
  (List.range l.length).foldl (fun s i => s.modify i (f s)) l

/-- A list between `l` and `l.map g`: some elements are replaced. -/
structure Between (g : α → α) (l s : List α) : Prop where
  length : s.length = l.length
  each : ∀ (i : Nat) x, l[i]? = some x → s[i]? = some x ∨ s[i]? = some (g x)

theorem Between.mem {g : α → α} {l s : List α} (h : Between g l s) {y : α} (hy : y∈s) :
    ∃ x∈l, y = x ∨ y = g x := by
  obtain ⟨i, hi, rfl⟩ := List.mem_iff_getElem.mp hy
  have hl : i < l.length := h.length ▸ hi
  refine ⟨l[i], List.getElem_mem hl, ?_⟩
  have he := h.each i l[i] (List.getElem?_eq_getElem hl)
  simpa [List.getElem?_eq_getElem hi] using he

theorem Between.mem_of_mem {g : α → α} {l s : List α} (h : Between g l s) {x : α} (hx : x∈l) :
    x∈s ∨ g x∈s := by
  obtain ⟨i, hi, rfl⟩ := List.mem_iff_getElem.mp hx
  rcases h.each i l[i] (List.getElem?_eq_getElem hi) with he | he
  · exact Or.inl (List.mem_of_getElem? he)
  · exact Or.inr (List.mem_of_getElem? he)

/-- How far a sweep has come: the first `k` elements are replaced. -/
def swept (g : α → α) (l : List α) (k : Nat) : List α := (l.take k).map g ++ l.drop k

theorem swept_getElem? (g : α → α) (l : List α) (k i : Nat) :
    (swept g l k)[i]? = l[i]?.map fun x => if i < k then g x else x := by
  rw [swept, List.getElem?_append]
  simp only [List.length_map, List.length_take, List.getElem?_map, List.getElem?_take,
    List.getElem?_drop]
  by_cases hl : i < l.length
  · by_cases hk : i < k
    · have hmin : i < min k l.length := by omega
      simp [hk, hl, hmin]
    · have hmin : ¬ i < min k l.length := by omega
      have hsub : k+(i-min k l.length) = i := by omega
      simp [hk, hmin, hsub]
  · have hn : l[i]? = none := List.getElem?_eq_none (by omega)
    have hmin : ¬ i < min k l.length := by omega
    have hd : l[k+(i-min k l.length)]? = none := List.getElem?_eq_none (by omega)
    simp [hn, hmin, hd]

theorem swept_between (g : α → α) (l : List α) (k : Nat) : Between g l (swept g l k) := by
  constructor
  · simp only [swept, List.length_append, List.length_map, List.length_take, List.length_drop]
    omega
  · intro i x hx
    rw [swept_getElem?, hx]
    by_cases hk : i < k
    · exact Or.inr (by simp [hk])
    · exact Or.inl (by simp [hk])

theorem map_between (g : α → α) (l : List α) : Between g l (l.map g) := by
  constructor
  · exact List.length_map g
  · intro i x hx
    exact Or.inr (by simp [hx])

/-- The rule for a sweep. -/
theorem sweep_eq_map {f : List α → α → α} {g : α → α} {l : List α}
    (h : ∀ s, Between g l s → ∀ x∈l, x∈s → f s x = g x) : sweep f l = l.map g := by
  have hrun : ∀ k, k ≤ l.length →
      (List.range k).foldl (fun s i => s.modify i (f s)) l = swept g l k := by
    intro k
    induction k with
    | zero => simp [swept]
    | succ k ih =>
      intro hk
      rw [List.range_succ, List.foldl_append, ih (by omega), List.foldl_cons, List.foldl_nil]
      apply List.ext_getElem?
      intro i
      rw [List.getElem?_modify, swept_getElem?, swept_getElem?]
      by_cases hi : k = i
      · subst hi
        have hx := List.getElem?_eq_getElem (l := l) (show k < l.length by omega)
        have hold : l[k]∈swept g l k := by
          apply List.mem_of_getElem? (i := k)
          rw [swept_getElem?, hx]
          simp
        simp [hx, h _ (swept_between g l k) l[k] (List.getElem_mem _) hold]
      · have hlt : (i < k+1) = (i < k) := by
          rw [eq_iff_iff]
          omega
        simp [hi, hlt]
  rw [sweep, hrun l.length (Nat.le_refl _), swept]
  simp

/-- A sweep that changes nothing it looks at. -/
theorem sweep_eq_self {f : List α → α → α} {l : List α} (h : ∀ x∈l, f l x = x) :
    sweep f l = l := by
  have hm := sweep_eq_map (f := f) (g := id) (l := l) fun s hs x hx _ => by
    have he : s = l := by
      apply List.ext_getElem?
      intro i
      by_cases hi : i < l.length
      · have hx := List.getElem?_eq_getElem hi
        rw [hx]
        exact (hs.each i l[i] hx).elim (fun h => h) fun h => h
      · have hlen := hs.length
        rw [List.getElem?_eq_none (by omega), List.getElem?_eq_none (by omega)]
    rw [he]
    exact h x hx
  simpa using hm

end Lib.Sweep
