import Mathlib.Data.List.Basic

/-! Machines driven by a list of events. Whatever the environment decides travels
inside the event, so a step is a function and a run is a fold. -/
namespace Lib.Machine
variable {σ ι : Type*}

def run (step : σ → ι → σ) (s : σ) (es : List ι) : σ := es.foldl step s

@[simp] theorem run_nil (step : σ → ι → σ) (s : σ) : run step s [] = s := rfl

@[simp] theorem run_cons (step : σ → ι → σ) (s : σ) (e : ι) (es : List ι) :
    run step s (e::es) = run step (step s e) es := rfl

theorem run_append (step : σ → ι → σ) (s : σ) (u v : List ι) :
    run step s (u ++ v) = run step (run step s u) v := List.foldl_append

/-- Every event of the run meets `C` in the state it finds. -/
def AllSteps (step : σ → ι → σ) (C : σ → ι → Prop) : σ → List ι → Prop
  | _, [] => True
  | s, e::es => C s e ∧ AllSteps step C (step s e) es

instance AllSteps.decidable {step : σ → ι → σ} {C : σ → ι → Prop}
    [∀ s e, Decidable (C s e)] : ∀ s es, Decidable (AllSteps step C s es)
  | _, [] => isTrue trivial
  | s, e::es =>
    have : Decidable (AllSteps step C (step s e) es) := AllSteps.decidable (step s e) es
    inferInstanceAs (Decidable (C s e ∧ AllSteps step C (step s e) es))

theorem allSteps_append (step : σ → ι → σ) (C : σ → ι → Prop) (s : σ) (u v : List ι) :
    AllSteps step C s (u ++ v) ↔ AllSteps step C s u ∧ AllSteps step C (run step s u) v := by
  induction u generalizing s with
  | nil => simp [AllSteps]
  | cons e u ih => simp [AllSteps, ih, and_assoc]

theorem allSteps_and {step : σ → ι → σ} {C D : σ → ι → Prop} {s : σ} {es : List ι} :
    AllSteps step (fun s e => C s e ∧ D s e) s es ↔
      AllSteps step C s es ∧ AllSteps step D s es := by
  induction es generalizing s with
  | nil => simp [AllSteps]
  | cons e es ih =>
    simp only [AllSteps, ih]
    exact and_and_and_comm

/-- A condition on the events alone. -/
theorem allSteps_of_mem {step : σ → ι → σ} {C : ι → Prop} {es : List ι} (h : ∀ e∈es, C e)
    (s : σ) : AllSteps step (fun _ => C) s es := by
  induction es generalizing s with
  | nil => trivial
  | cons e es ih =>
    exact ⟨h e List.mem_cons_self, ih (fun x hx => h x (List.mem_cons_of_mem e hx)) (step s e)⟩

/-- The invariant rule for conditioned runs. -/
theorem run_invariant_of {step : σ → ι → σ} {C : σ → ι → Prop} {I : σ → Prop}
    (hstep : ∀ s e, I s → C s e → I (step s e)) {s : σ} (h0 : I s)
    {es : List ι} (hC : AllSteps step C s es) : I (run step s es) := by
  induction es generalizing s with
  | nil => exact h0
  | cons e es ih => exact ih (hstep s e h0 hC.1) hC.2

/-- What an invariant and the condition say of each step. -/
theorem allSteps_of_invariant {step : σ → ι → σ} {C D : σ → ι → Prop} {I : σ → Prop}
    (hstep : ∀ s e, I s → C s e → I (step s e)) (hD : ∀ s e, I s → C s e → D s e) {s : σ}
    (h0 : I s) {es : List ι} (hC : AllSteps step C s es) : AllSteps step D s es := by
  induction es generalizing s with
  | nil => trivial
  | cons e es ih => exact ⟨hD s e h0 hC.1, ih (hstep s e h0 hC.1) hC.2⟩

/-- Conditions that agree where an invariant and an assumption hold agree along a run that meets
the assumption. -/
theorem allSteps_congr_of {step : σ → ι → σ} {A C D : σ → ι → Prop} {I : σ → Prop}
    (hstep : ∀ s e, I s → A s e → I (step s e))
    (hiff : ∀ s e, I s → A s e → (D s e ↔ C s e)) {s : σ} (h0 : I s) {es : List ι}
    (hA : AllSteps step A s es) : AllSteps step D s es ↔ AllSteps step C s es := by
  constructor
  · intro hd
    exact allSteps_of_invariant (fun s e hi h => hstep s e hi h.1)
      (fun s e hi h => (hiff s e hi h.1).mp h.2) h0 (allSteps_and.mpr ⟨hA, hd⟩)
  · intro hc
    exact allSteps_of_invariant (fun s e hi h => hstep s e hi h.1)
      (fun s e hi h => (hiff s e hi h.1).mpr h.2) h0 (allSteps_and.mpr ⟨hA, hc⟩)

/-- The invariant rule for unconditioned runs. -/
theorem run_invariant {step : σ → ι → σ} {I : σ → Prop}
    (hstep : ∀ s e, I s → I (step s e)) {s : σ} (h0 : I s) (es : List ι) :
    I (run step s es) := by
  induction es generalizing s with
  | nil => exact h0
  | cons e es ih => exact ih (hstep s e h0)

/-- If an invariant needs the condition at each step, and a state that breaks `P` is what a
step against the condition leads to, then the condition is exactly what keeps `P` along the
run. -/
theorem prefix_iff_allSteps {step : σ → ι → σ} {C : σ → ι → Prop} {I P : σ → Prop}
    (hgood : ∀ s, I s → P s) (hstep : ∀ s e, I s → C s e → I (step s e))
    (hbad : ∀ s e, I s → P (step s e) → C s e) {s : σ} (h0 : I s) (es : List ι) :
    (∀ u, u <+: es → P (run step s u)) ↔ AllSteps step C s es := by
  induction es generalizing s with
  | nil =>
    refine ⟨fun _ => trivial, fun _ u hu => ?_⟩
    rw [List.prefix_nil.mp hu]
    exact hgood s h0
  | cons e es ih =>
    constructor
    · intro hp
      have hc : C s e := hbad s e h0 (hp [e] ⟨es, rfl⟩)
      refine ⟨hc, (ih (hstep s e h0 hc)).mp fun u hu => ?_⟩
      exact hp (e::u) ((List.prefix_cons_inj e).mpr hu)
    · rintro ⟨hc, hrest⟩ u hu
      cases u with
      | nil => exact hgood s h0
      | cons x u =>
        obtain ⟨rfl, hux⟩ := List.cons_prefix_cons.mp hu
        exact (ih (hstep s x h0 hc)).mpr hrest u hux

/-- Where an invariant makes two conditions on a step agree, they agree along a run. -/
theorem allSteps_iff_allSteps {step : σ → ι → σ} {C D : σ → ι → Prop} {I : σ → Prop}
    (hstep : ∀ s e, I s → C s e → I (step s e)) (hiff : ∀ s e, I s → (D s e ↔ C s e)) {s : σ}
    (h0 : I s) (es : List ι) : AllSteps step D s es ↔ AllSteps step C s es := by
  induction es generalizing s with
  | nil => exact Iff.rfl
  | cons e es ih =>
    simp only [AllSteps, hiff s e h0]
    constructor
    · rintro ⟨hc, hrest⟩
      exact ⟨hc, (ih (hstep s e h0 hc)).mp hrest⟩
    · rintro ⟨hc, hrest⟩
      exact ⟨hc, (ih (hstep s e h0 hc)).mpr hrest⟩

/-- The invariant rule for one process among many. -/
theorem forall_modify {P : σ → Prop} {f : σ → σ} (hf : ∀ x, P x → P (f x)) {l : List σ}
    (h : ∀ x∈l, P x) (i : Nat) : ∀ x∈l.modify i f, P x := by
  induction l generalizing i with
  | nil => simp
  | cons y l ih =>
    have hl : ∀ x∈l, P x := fun x hx => h x (List.mem_cons_of_mem _ hx)
    cases i with
    | zero =>
      rw [List.modify_zero_cons]
      exact List.forall_mem_cons.mpr ⟨hf y (h y List.mem_cons_self), hl⟩
    | succ i =>
      rw [List.modify_succ_cons]
      exact List.forall_mem_cons.mpr ⟨h y List.mem_cons_self, ih hl i⟩

/-- A process of the new list is one of the old ones or the one that moved. -/
theorem mem_modify {f : σ → σ} {l : List σ} {i : Nat} {x : σ} (h : x∈l.modify i f) :
    x∈l ∨ ∃ y, l[i]? = some y ∧ x = f y := by
  obtain ⟨j, hj⟩ := List.mem_iff_getElem?.mp h
  rw [List.getElem?_modify] at hj
  cases hl : l[j]? with
  | none => simp [hl] at hj
  | some y =>
    by_cases hij : i = j
    · subst hij
      exact Or.inr ⟨y, hl, by simpa [hl, eq_comm] using hj⟩
    · have hx : y = x := by simpa [hl, hij] using hj
      exact Or.inl (hx ▸ List.mem_of_getElem? hl)

theorem modify_mem {f : σ → σ} {l : List σ} {i : Nat} {y : σ} (h : l[i]? = some y) :
    f y∈l.modify i f := by
  apply List.mem_of_getElem? (i := i)
  simp [h]

theorem forall_modify_iff {P : σ → Prop} {f : σ → σ} {l : List σ} (h : ∀ x∈l, P x) (i : Nat) :
    (∀ x∈l.modify i f, P x) ↔ ∀ x, l[i]? = some x → P (f x) := by
  constructor
  · intro hm x hx
    exact hm (f x) (modify_mem hx)
  · intro hi x hx
    rcases mem_modify hx with hx | ⟨y, hy, rfl⟩
    · exact h x hx
    · exact hi y hy

/-- Every process moves, each in its own way. -/
theorem forall_mapIdx_iff {P : σ → Prop} {f : Nat → σ → σ} {l : List σ} :
    (∀ y∈l.mapIdx f, P y) ↔ ∀ i x, l[i]? = some x → P (f i x) := by
  constructor
  · intro hp i x hx
    obtain ⟨hi, rfl⟩ := List.getElem?_eq_some_iff.mp hx
    exact hp _ (List.mem_mapIdx.mpr ⟨i, hi, rfl⟩)
  · intro hp y hy
    obtain ⟨i, hi, rfl⟩ := List.mem_mapIdx.mp hy
    exact hp i _ (List.getElem?_eq_getElem hi)

theorem forall_mapIdx_congr {P Q : σ → Prop} {f : Nat → σ → σ} {l : List σ}
    (hf : ∀ i, ∀ x∈l, Q (f i x) ↔ P x) : (∀ y∈l.mapIdx f, Q y) ↔ ∀ x∈l, P x := by
  refine forall_mapIdx_iff.trans ⟨fun hq x hx => ?_, fun hp i x hx => ?_⟩
  · obtain ⟨i, hi⟩ := List.mem_iff_getElem?.mp hx
    exact (hf i x hx).mp (hq i x hi)
  · have hmem := List.mem_of_getElem? hx
    exact (hf i x hmem).mpr (hp x hmem)

/-- What a move leaves alone in one process it leaves alone in all of them. -/
theorem map_modify {β : Type*} {f : σ → σ} {g : σ → β} (hf : ∀ x, g (f x) = g x) (l : List σ)
    (i : Nat) : (l.modify i f).map g = l.map g := by
  apply List.ext_getElem?
  intro k
  rw [List.getElem?_map, List.getElem?_modify, List.getElem?_map]
  cases l[k]? with
  | none => rfl
  | some x =>
    by_cases hk : i = k
    · simp [hk, hf]
    · simp [hk]

end Lib.Machine
