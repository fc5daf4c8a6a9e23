import Mathlib.Data.List.Basic

/-! Scanning a list for its best element. A later element replaces the best one so far only
when it beats it, so the scan ends with the first of the best ones, and a scan that keeps its
scores in a memo picks what the scan with the true scores picks. -/
namespace Lib.BestScan
variable {ι σ : Type*}

def keep (beats : ι → ι → Bool) (best : Option ι) (x : ι) : Option ι :=
  match best with
  | none => some x
  | some b => if beats x b then some x else some b

def best (beats : ι → ι → Bool) (xs : List ι) : Option ι := xs.foldl (keep beats) none

theorem keep_eq_or (beats : ι → ι → Bool) (o : Option ι) (x : ι) :
    keep beats o x = some x ∨ keep beats o x = o := by
  cases o with
  | none => exact Or.inl rfl
  | some b =>
    by_cases h : beats x b = true
    · left; simp [keep, h]
    · right; simp [keep, h]

theorem keep_congr {f g : ι → ι → Bool} {o : Option ι} {x : ι}
    (h : ∀ b, o = some b → f x b = g x b) : keep f o x = keep g o x := by
  cases o with
  | none => rfl
  | some b => simp only [keep, h b rfl]

theorem mem_of_foldl_keep (beats : ι → ι → Bool) {xs : List ι} {o : Option ι} {b : ι}
    (h : xs.foldl (keep beats) o = some b) : b∈xs ∨ o = some b := by
  induction xs generalizing o with
  | nil => exact Or.inr h
  | cons x xs ih =>
    rcases ih h with hm | hk
    · exact Or.inl (List.mem_cons_of_mem _ hm)
    · rcases keep_eq_or beats o x with hx | ho
      · rw [hx] at hk
        cases hk
        exact Or.inl List.mem_cons_self
      · exact Or.inr (ho ▸ hk)

theorem best_mem {beats : ι → ι → Bool} {xs : List ι} {b : ι} (h : best beats xs = some b) :
    b∈xs := by
  rcases mem_of_foldl_keep beats h with hm | hn
  · exact hm
  · cases hn

theorem foldl_keep_isSome (beats : ι → ι → Bool) (xs : List ι) (b : ι) :
    (xs.foldl (keep beats) (some b)).isSome := by
  induction xs generalizing b with
  | nil => rfl
  | cons x xs ih =>
    rcases keep_eq_or beats (some b) x with h | h
    · rw [List.foldl_cons, h]
      exact ih x
    · rw [List.foldl_cons, h]
      exact ih b

theorem eq_nil_of_best_none {beats : ι → ι → Bool} {xs : List ι} (h : best beats xs = none) :
    xs = [] := by
  cases xs with
  | nil => rfl
  | cons x xs =>
    have hs := foldl_keep_isSome beats xs x
    rw [show xs.foldl (keep beats) (some x) = none from h] at hs
    cases hs

section First
variable {f : ι → Nat} {before : ι → ι → Prop}

/-- `b` is no worse than `x`, and stands before it where they are equally good. -/
def Leads (f : ι → Nat) (before : ι → ι → Prop) (b x : ι) : Prop :=
  x = b ∨ f x < f b ∨ f x = f b ∧ before b x

theorem leads_foldl_keep {xs : List ι} (hs : xs.Pairwise before) {o : Option ι}
    (ho : ∀ y, o = some y → ∀ x∈xs, before y x) {b : ι}
    (h : xs.foldl (keep fun x b => decide (f b < f x)) o = some b) :
    (∀ y, o = some y → f y < f b ∨ y = b) ∧ ∀ x∈xs, Leads f before b x := by
  induction xs generalizing o with
  | nil =>
    refine ⟨fun y hy => ?_, fun x hx => by cases hx⟩
    exact Or.inr (Option.some.inj (hy.symm.trans h))
  | cons x xs ih =>
    obtain ⟨hx, hxs⟩ := List.pairwise_cons.mp hs
    cases o with
    | none =>
      obtain ⟨hk, hl⟩ := ih hxs (o := some x) (fun y hy => by cases hy; exact hx) h
      refine ⟨fun y hy => (by cases hy), List.forall_mem_cons.mpr ⟨?_, hl⟩⟩
      rcases hk x rfl with hlt | he
      · exact Or.inr (Or.inl hlt)
      · exact Or.inl he
    | some y =>
      by_cases hb : f y < f x
      · rw [List.foldl_cons, keep, if_pos (decide_eq_true hb)] at h
        obtain ⟨hk, hl⟩ := ih hxs (o := some x) (fun z hz => by cases hz; exact hx) h
        refine ⟨fun z hz => ?_, List.forall_mem_cons.mpr ⟨?_, hl⟩⟩
        · cases hz
          rcases hk x rfl with hlt | he
          · exact Or.inl (Nat.lt_trans hb hlt)
          · exact Or.inl (he ▸ hb)
        · rcases hk x rfl with hlt | he
          · exact Or.inr (Or.inl hlt)
          · exact Or.inl he
      · rw [List.foldl_cons, keep, if_neg (by simpa using hb)] at h
        have hy := ho y rfl
        obtain ⟨hk, hl⟩ := ih hxs (o := some y)
          (fun z hz => by cases hz; exact fun w hw => hy w (List.mem_cons_of_mem x hw)) h
        refine ⟨hk, List.forall_mem_cons.mpr ⟨?_, hl⟩⟩
        rcases hk y rfl with hlt | he
        · exact Or.inr (Or.inl (by omega))
        · subst he
          rcases Nat.lt_or_eq_of_le (Nat.le_of_not_lt hb) with hlt | he
          · exact Or.inr (Or.inl hlt)
          · exact Or.inr (Or.inr ⟨he, hy x List.mem_cons_self⟩)

/-- A scan finds the first of the best. -/
theorem leads_best {xs : List ι} (hs : xs.Pairwise before) {b : ι}
    (h : best (fun x b => decide (f b < f x)) xs = some b) :
    ∀ x∈xs, Leads f before b x :=
  (leads_foldl_keep hs (fun y hy => by cases hy) h).2

end First

/-- The element that all others yield to has a property just when every element without it
yields to another one. -/
theorem top_iff {A P : ι → Prop} {yields : ι → ι → Prop} (hasymm : ∀ x y, yields x y → ¬yields y x)
    {b : ι} (hb : A b) (htop : ∀ x, A x → x ≠ b → yields x b) :
    P b ↔ ∀ x, A x → ¬P x → ∃ y, A y ∧ yields x y := by
  constructor
  · intro hp x hx hn
    refine ⟨b, hb, htop x hx ?_⟩
    rintro rfl
    exact hn hp
  · intro h
    by_contra hn
    obtain ⟨y, hy, hyb⟩ := h b hb hn
    have hne : y ≠ b := by
      rintro rfl
      exact hasymm y y hyb hyb
    exact hasymm b y hyb (htop y hy hne)

/-- The rule for a scan with a memo: it passes over what `ok` rejects, and a step that finds
its scores in the memo (`K`) decides as `beats` does. -/
theorem memo_scan {step : σ × Option ι → ι → σ × Option ι} {I : σ → Prop}
    {K : σ → ι → Prop} {ok : ι → Bool} {beats : ι → ι → Bool}
    (hskip : ∀ s o x, I s → ok x = false → step (s, o) x = (s, o))
    (hI : ∀ s o x, I s → I (step (s, o) x).1)
    (hnew : ∀ s o x, I s → ok x = true → K (step (s, o) x).1 x)
    (hold : ∀ s o x y, I s → K s y → K (step (s, o) x).1 y)
    (hpick : ∀ s o x, I s → ok x = true → (∀ b, o = some b → K s b) →
      (step (s, o) x).2 = keep beats o x)
    {s : σ} {o : Option ι} (h0 : I s) (hk : ∀ b, o = some b → K s b) (xs : List ι) :
    I (xs.foldl step (s, o)).1 ∧
      (xs.foldl step (s, o)).2 = (xs.filter ok).foldl (keep beats) o ∧
      (∀ x∈xs, ok x = true → K (xs.foldl step (s, o)).1 x) ∧
      ∀ y, K s y → K (xs.foldl step (s, o)).1 y := by
  induction xs generalizing s o with
  | nil => exact ⟨h0, rfl, by simp, fun y hy => hy⟩
  | cons x xs ih =>
    cases hx : ok x with
    | false =>
      obtain ⟨h1, h2, h3, h4⟩ := ih h0 hk
      rw [List.foldl_cons, hskip s o x h0 hx, List.filter_cons_of_neg (by simp [hx])]
      refine ⟨h1, h2, ?_, h4⟩
      intro y hy hok
      rcases List.mem_cons.mp hy with rfl | hm
      · rw [hx] at hok
        cases hok
      · exact h3 y hm hok
    | true =>
      have hp := hpick s o x h0 hx hk
      have hkn : ∀ b, (step (s, o) x).2 = some b → K (step (s, o) x).1 b := by
        intro b hb
        rw [hp] at hb
        rcases keep_eq_or beats o x with h | h
        · rw [h] at hb
          cases hb
          exact hnew s o x h0 hx
        · rw [h] at hb
          exact hold s o x b h0 (hk b hb)
      obtain ⟨h1, h2, h3, h4⟩ := ih (hI s o x h0) hkn
      rw [List.foldl_cons, List.filter_cons_of_pos hx, List.foldl_cons, ← hp]
      refine ⟨h1, h2, ?_, fun y hy => h4 y (hold s o x y h0 hy)⟩
      intro y hy hok
      rcases List.mem_cons.mp hy with rfl | hm
      · exact h4 y (hnew s o y h0 hx)
      · exact h3 y hm hok

end Lib.BestScan
