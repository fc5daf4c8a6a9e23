import Mathlib.Data.List.Basic

/-! Elements in a row: an identifier, a length and as many bytes as the length says. A loop over
them with no look at the end of an element, and one that stops before an element that is cut, which
is a fold over the whole elements. -/
namespace Lib.Tlv

abbrev Memory := Nat → UInt8

/-- Where the element after the one at `pos` begins. -/
def next (mem : Memory) (pos : Nat) : Nat := pos + 2 + (mem (pos+1)).toNat

theorem lt_next (mem : Memory) (pos : Nat) : pos+1<next mem pos := by
  rw [next]
  omega

section Tests

/-- Tests of bytes at offsets from an element, made one after the other until one fails: whether
all pass, and where it was read. -/
def test (mem : Memory) (pos : Nat) : List (Nat × (UInt8 → Bool)) → Bool × List Nat
  | [] => (true, [])
  | (i, p)::tests =>
    if p (mem (pos+i)) then
      let (passed, reads) := test mem pos tests
      (passed, (pos+i)::reads)
    else (false, [pos+i])

/-- A test is of a byte before `hi`, and so are those that follow if it passes. -/
def Within (mem : Memory) (hi pos : Nat) : List (Nat × (UInt8 → Bool)) → Prop
  | [] => True
  | (i, p)::tests => pos+i<hi ∧ (p (mem (pos+i)) = true → Within mem hi pos tests)

theorem test_reads_iff (mem : Memory) (hi pos : Nat) (tests : List (Nat × (UInt8 → Bool))) :
    (∀ r∈(test mem pos tests).2, r<hi) ↔ Within mem hi pos tests := by
  induction tests with
  | nil => simp [test, Within]
  | cons t tests ih =>
    obtain ⟨i, p⟩ := t
    by_cases h : p (mem (pos+i)) = true
    · simp [test, Within, h, ih]
    · simp [test, Within, h]

end Tests

/-- What a loop does at an element, and the offsets that it reads for it; whether it then leaves;
and the elements that its pointers refer to. -/
structure Walker (σ : Type*) where
  body : Nat → σ → σ × List Nat
  leaves : σ → Bool
  kept : σ → List Nat

/-- `finished` is false if the fuel ran out. -/
structure Walked (σ : Type*) where
  state : σ
  reads : List Nat := []
  finished : Bool := true

namespace Walker
variable {σ : Type*} (w : Walker σ) (mem : Memory) (stop : Nat)

/-- The loop that goes on while `pos < stop`. -/
def loop : Nat → Nat → σ → Walked σ
  | 0, pos, s => { state := s, finished := decide (stop ≤ pos) }
  | fuel+1, pos, s =>
    if pos<stop then
      let s' := w.body pos s
      if w.leaves s'.1 then { state := s'.1, reads := s'.2 }
      else
        let rest := loop fuel (next mem pos) s'.1
        { rest with reads := s'.2 ++ (pos+1)::rest.reads }
    else { state := s }

/-- The loop that goes on while `pos + 1 < stop` and the element ends by `stop`. -/
def checkedLoop : Nat → Nat → σ → Walked σ
  | 0, pos, s => { state := s, finished := decide (stop ≤ pos+1) }
  | fuel+1, pos, s =>
    if pos+1<stop then
      if stop<next mem pos then { state := s, reads := [pos+1] }
      else
        let s' := w.body pos s
        if w.leaves s'.1 then { state := s'.1, reads := (pos+1)::s'.2 }
        else
          let rest := checkedLoop fuel (next mem pos) s'.1
          { rest with reads := (pos+1)::s'.2 ++ (pos+1)::rest.reads }
    else { state := s }

/-- The loops with as much fuel as there are bytes. -/
def walk (pos : Nat) (s : σ) : Walked σ := w.loop mem stop (stop-pos) pos s

def checkedWalk (pos : Nat) (s : σ) : Walked σ := w.checkedLoop mem stop (stop-pos) pos s

theorem loop_finished (fuel pos : Nat) (s : σ) (h : stop ≤ pos+fuel) :
    (w.loop mem stop fuel pos s).finished = true := by
  induction fuel generalizing pos s with
  | zero => simpa [loop] using h
  | succ fuel ih =>
    have hlt := lt_next mem pos
    have hrest := ih (next mem pos) (w.body pos s).1 (by omega)
    by_cases hp : pos<stop
    · by_cases hl : w.leaves (w.body pos s).1 = true
      · simp [loop, hp, hl]
      · simp [loop, hp, hl, hrest]
    · simp [loop, hp]

theorem checkedLoop_finished (fuel pos : Nat) (s : σ) (h : stop ≤ pos+fuel) :
    (w.checkedLoop mem stop fuel pos s).finished = true := by
  induction fuel generalizing pos s with
  | zero =>
    simp only [checkedLoop, decide_eq_true_eq]
    omega
  | succ fuel ih =>
    have hlt := lt_next mem pos
    have hrest := ih (next mem pos) (w.body pos s).1 (by omega)
    by_cases hp : pos+1<stop
    · by_cases hc : stop<next mem pos
      · simp [checkedLoop, hp, hc]
      · by_cases hl : w.leaves (w.body pos s).1 = true
        · simp [checkedLoop, hp, hc, hl]
        · simp [checkedLoop, hp, hc, hl, hrest]
    · simp [checkedLoop, hp]

theorem walk_finished (pos : Nat) (s : σ) : (w.walk mem stop pos s).finished = true :=
  w.loop_finished mem stop _ _ _ (by omega)

theorem checkedWalk_finished (pos : Nat) (s : σ) :
    (w.checkedWalk mem stop pos s).finished = true :=
  w.checkedLoop_finished mem stop _ _ _ (by omega)

end Walker

/-- The elements from `pos` on that end by `stop`, up to the first that does not. -/
def wholesFrom (mem : Memory) (stop : Nat) : Nat → Nat → List Nat
  | 0, _ => []
  | fuel+1, pos =>
    if next mem pos ≤ stop then pos::wholesFrom mem stop fuel (next mem pos) else []

def wholes (mem : Memory) (stop pos : Nat) : List Nat := wholesFrom mem stop (stop-pos) pos

theorem next_le_of_mem_wholesFrom {mem : Memory} {stop fuel pos p : Nat}
    (h : p∈wholesFrom mem stop fuel pos) : next mem p ≤ stop := by
  induction fuel generalizing pos with
  | zero => simp [wholesFrom] at h
  | succ fuel ih =>
    by_cases hw : next mem pos ≤ stop
    · rw [wholesFrom, if_pos hw, List.mem_cons] at h
      rcases h with rfl | h
      · exact hw
      · exact ih h
    · simp [wholesFrom, hw] at h

theorem next_le_of_mem_wholes {mem : Memory} {stop pos p : Nat} (h : p∈wholes mem stop pos) :
    next mem p ≤ stop := next_le_of_mem_wholesFrom h

namespace Walker
variable {σ : Type*} (w : Walker σ)

/-- The body at one element after the other, until it leaves; what the bodies read. -/
def visit : List Nat → σ → σ × List Nat
  | [], s => (s, [])
  | p::ps, s =>
    let s' := w.body p s
    if w.leaves s'.1 then s'
    else
      let rest := visit ps s'.1
      (rest.1, s'.2 ++ rest.2)

/-- A loop with checks does its body at the whole elements. -/
theorem checkedLoop_state (mem : Memory) (stop fuel pos : Nat) (s : σ) :
    (w.checkedLoop mem stop fuel pos s).state = (w.visit (wholesFrom mem stop fuel pos) s).1 := by
  induction fuel generalizing pos s with
  | zero => rfl
  | succ fuel ih =>
    have hlt := lt_next mem pos
    by_cases hp : pos+1<stop
    · by_cases hc : stop<next mem pos
      · simp [checkedLoop, wholesFrom, visit, hp, hc, Nat.not_le.mpr hc]
      · have hw : next mem pos ≤ stop := Nat.not_lt.mp hc
        by_cases hl : w.leaves (w.body pos s).1 = true
        · simp [checkedLoop, wholesFrom, visit, hp, hc, hw, hl]
        · simp [checkedLoop, wholesFrom, visit, hp, hc, hw, hl, ih]
    · have hcut : ¬next mem pos ≤ stop := by omega
      simp [checkedLoop, wholesFrom, visit, hp, hcut]

/-- Besides what its bodies read, it reads lengths before `stop`. -/
theorem checkedLoop_reads (mem : Memory) (stop fuel pos : Nat) (s : σ) :
    (∀ r∈(w.checkedLoop mem stop fuel pos s).reads, r<stop) ↔
      ∀ r∈(w.visit (wholesFrom mem stop fuel pos) s).2, r<stop := by
  induction fuel generalizing pos s with
  | zero => simp [checkedLoop, wholesFrom, visit]
  | succ fuel ih =>
    have hlt := lt_next mem pos
    by_cases hp : pos+1<stop
    · by_cases hc : stop<next mem pos
      · simp [checkedLoop, wholesFrom, visit, hp, hc, Nat.not_le.mpr hc]
      · have hw : next mem pos ≤ stop := Nat.not_lt.mp hc
        by_cases hl : w.leaves (w.body pos s).1 = true
        · simp [checkedLoop, wholesFrom, visit, hp, hw, hl, hc]
        · simp only [checkedLoop, wholesFrom, visit, hp, hw, hl, hc, if_true, if_false,
            List.forall_mem_append, List.cons_append, List.forall_mem_cons, ih, true_and,
            Bool.false_eq_true]
    · have hcut : ¬next mem pos ≤ stop := by omega
      simp [checkedLoop, wholesFrom, visit, hp, hcut]

/-- A search: the first element that is found decides, of the others the identifier is read. -/
def seeker {τ : Type*} (found : Nat → Bool) (take : Nat → τ × List Nat) : Walker (Option τ) where
  body pos s :=
    if found pos then
      let t := take pos
      (some t.1, t.2)
    else (s, [pos])
  leaves s := s.isSome
  kept _ := []

section Seek
variable {τ : Type*} (found : Nat → Bool) (take : Nat → τ × List Nat)

theorem visit_seeker (ps : List Nat) :
    ((seeker found take).visit ps none).1 = (ps.find? found).map fun p => (take p).1 := by
  induction ps with
  | nil => rfl
  | cons p ps ih =>
    by_cases h : found p = true
    · simp [visit, seeker, h]
    · have hwalk : ((seeker found take).visit (p::ps) none).1 =
          ((seeker found take).visit ps none).1 := by
        simp [visit, seeker, h]
      rw [hwalk, ih, List.find?_cons_of_neg h]

theorem visit_seeker_reads {ps : List Nat} {stop : Nat} (hp : ∀ p∈ps, p<stop)
    (ht : ∀ p∈ps.find? found, ∀ r∈(take p).2, r<stop) :
    ∀ r∈((seeker found take).visit ps none).2, r<stop := by
  induction ps with
  | nil => simp [visit]
  | cons p ps ih =>
    obtain ⟨hlt, hrest⟩ := List.forall_mem_cons.mp hp
    by_cases h : found p = true
    · have hread := ht p (by simp [h])
      simpa [visit, seeker, h] using hread
    · have hwalk : ((seeker found take).visit (p::ps) none).2 =
          p::((seeker found take).visit ps none).2 := by
        simp [visit, seeker, h]
      rw [hwalk, List.forall_mem_cons]
      rw [List.find?_cons_of_neg h] at ht
      exact ⟨hlt, ih hrest ht⟩

end Seek

/-- If there is room for a header it reads the length in the first one. -/
theorem checkedWalk_reads_first (mem : Memory) {stop pos : Nat} (h : pos+1<stop) (s : σ) :
    pos+1∈(w.checkedWalk mem stop pos s).reads := by
  obtain ⟨fuel, hfuel⟩ : ∃ fuel, stop-pos = fuel+1 := ⟨stop-pos-1, by omega⟩
  rw [checkedWalk, hfuel, checkedLoop, if_pos h]
  by_cases hc : stop<next mem pos
  · simp [hc]
  · by_cases hl : w.leaves (w.body pos s).1 = true <;> simp [hc, hl]

theorem checkedWalk_state (mem : Memory) (stop pos : Nat) (s : σ) :
    (w.checkedWalk mem stop pos s).state = (w.visit (wholes mem stop pos) s).1 :=
  w.checkedLoop_state mem stop _ pos s

theorem checkedWalk_reads (mem : Memory) (stop pos : Nat) (s : σ) :
    (∀ r∈(w.checkedWalk mem stop pos s).reads, r<stop) ↔
      ∀ r∈(w.visit (wholes mem stop pos) s).2, r<stop :=
  w.checkedLoop_reads mem stop _ pos s

end Walker

/-- Element by element from the first position, and not past an element that is the last, a loop
that goes on before `stop` comes to the second. -/
inductive Comes (mem : Memory) (stop : Nat) (last : Nat → Prop) : Nat → Nat → Prop
  | here {pos : Nat} : pos<stop → Comes mem stop last pos pos
  | later {pos p : Nat} : pos<stop → ¬last pos → Comes mem stop last (next mem pos) p →
      Comes mem stop last pos p

theorem Comes.lt {mem : Memory} {stop pos p : Nat} {last : Nat → Prop}
    (h : Comes mem stop last pos p) : pos<stop := by
  cases h with
  | here hlt => exact hlt
  | later hlt _ _ => exact hlt

/-- With fewer last elements a loop comes to more. -/
theorem Comes.mono {mem : Memory} {stop pos p : Nat} {last last' : Nat → Prop}
    (h : Comes mem stop last pos p) (hsub : ∀ q, last' q → last q) :
    Comes mem stop last' pos p := by
  induction h with
  | here hlt => exact Comes.here hlt
  | later hlt hlast _ ih => exact Comes.later hlt (fun hl => hlast (hsub _ hl)) ih

theorem comes_iff {mem : Memory} {stop pos p : Nat} {last : Nat → Prop} (hlt : pos<stop) :
    Comes mem stop last pos p ↔ p = pos ∨ ¬last pos ∧ Comes mem stop last (next mem pos) p := by
  constructor
  · intro h
    cases h with
    | here _ => exact Or.inl rfl
    | later _ hlast hrest => exact Or.inr ⟨hlast, hrest⟩
  · rintro (rfl | ⟨hlast, hrest⟩)
    · exact Comes.here hlt
    · exact Comes.later hlt hlast hrest

/-- A loop has ended, read nothing from `hi` on, and keeps no pointer to an element that ends
past `hi`. -/
structure Inside {σ : Type*} (w : Walker σ) (mem : Memory) (hi : Nat) (r : Walked σ) : Prop where
  finished : r.finished = true
  reads : ∀ i∈r.reads, i<hi
  kept : ∀ p∈w.kept r.state, next mem p ≤ hi

/-- How a loop without checks treats an element while its state is in `I`: where it reads
(`Peek`), whether it is the last that it looks at, and whether it keeps a pointer to it. -/
structure Spec {σ : Type*} (w : Walker σ) (hi : Nat) (I : σ → Prop) (Peek last Keeps : Nat → Prop) :
    Prop where
  peek : ∀ p s, (∀ r∈(w.body p s).2, r<hi) ↔ Peek p
  lt : ∀ p, Peek p → p<hi
  leaves : ∀ p s, I s → (w.leaves (w.body p s).1 = true ↔ last p)
  stays : ∀ p s, I s → ¬last p → I (w.body p s).1
  keeps : ∀ p s, Keeps p → p∈w.kept (w.body p s).1
  kept : ∀ p s, ∀ q∈w.kept (w.body p s).1, q∈w.kept s ∨ q = p ∧ Keeps p

/-- What an element has to be for a loop without checks to stay before `hi`. -/
structure Safe (mem : Memory) (hi : Nat) (Peek last Keeps : Nat → Prop) (p : Nat) : Prop where
  peek : Peek p
  length : ¬last p → p+1<hi
  keeps : Keeps p → next mem p ≤ hi

section Spec
variable {σ : Type*} {w : Walker σ} {mem : Memory} {hi stop : Nat} {I : σ → Prop}
  {Peek last Keeps : Nat → Prop}

theorem Spec.kept_body (h : Spec w hi I Peek last Keeps) {p : Nat} {s : σ}
    (hs : ∀ q∈w.kept s, next mem q ≤ hi) :
    (∀ q∈w.kept (w.body p s).1, next mem q ≤ hi) ↔ (Keeps p → next mem p ≤ hi) := by
  constructor
  · intro hall hk
    exact hall p (h.keeps p s hk)
  · intro hp q hq
    rcases h.kept p s q hq with hold | ⟨rfl, hk⟩
    · exact hs q hold
    · exact hp hk

/-- A loop that comes to an element at all reads what its body reads there. -/
theorem Walker.body_reads_sub {fuel pos : Nat} (s : σ) (hf : 0<fuel) (hlt : pos<stop) :
    ∀ r∈(w.body pos s).2, r∈(w.loop mem stop fuel pos s).reads := by
  intro r hr
  cases fuel with
  | zero => omega
  | succ fuel =>
    by_cases hl : w.leaves (w.body pos s).1 = true
    · simpa [Walker.loop, hlt, hl] using hr
    · simp [Walker.loop, hlt, hl, hr]

theorem Walker.loop_of_le {fuel pos : Nat} (s : σ) (h : stop ≤ pos) :
    w.loop mem stop fuel pos s = { state := s } := by
  cases fuel with
  | zero => simp [Walker.loop, h]
  | succ fuel => simp [Walker.loop, Nat.not_lt.mpr h]

theorem not_comes_of_le {pos : Nat} (h : stop ≤ pos) (p : Nat) : ¬Comes mem stop last pos p :=
  fun hp => absurd hp.lt (Nat.not_lt.mpr h)

/-- A loop that keeps a pointer past `hi` has left the area, whatever it does next. -/
theorem Spec.not_inside_of_keeps (h : Spec w hi I Peek last Keeps) {fuel pos : Nat} {s : σ}
    (hf : stop ≤ next mem pos + fuel) (hk : Keeps pos) (hcut : hi<next mem pos) :
    ¬Inside w mem hi (w.loop mem stop fuel (next mem pos) (w.body pos s).1) := by
  intro hin
  by_cases hn : next mem pos<stop
  · have hpeek : Peek (next mem pos) :=
      (h.peek _ (w.body pos s).1).mp fun r hr =>
        hin.reads r (Walker.body_reads_sub _ (by omega) hn r hr)
    have hlt := h.lt _ hpeek
    omega
  · rw [Walker.loop_of_le _ (Nat.not_lt.mp hn)] at hin
    have hle := hin.kept pos (h.keeps pos s hk)
    omega

/-- At the last element the loop leaves. -/
theorem Spec.inside_last_iff (h : Spec w hi I Peek last Keeps) {fuel pos : Nat} {s : σ}
    (hI : I s) (hs : ∀ q∈w.kept s, next mem q ≤ hi) (hp : pos<stop) (hlast : last pos) :
    Inside w mem hi (w.loop mem stop (fuel+1) pos s) ↔ Safe mem hi Peek last Keeps pos := by
  have hleaves := (h.leaves pos s hI).mpr hlast
  have hloop : w.loop mem stop (fuel+1) pos s =
      { state := (w.body pos s).1, reads := (w.body pos s).2 } := by
    simp [Walker.loop, hp, hleaves]
  rw [hloop]
  constructor
  · intro hin
    exact ⟨(h.peek pos s).mp hin.reads, fun hn => absurd hlast hn, (h.kept_body hs).mp hin.kept⟩
  · intro hsafe
    exact ⟨rfl, (h.peek pos s).mpr hsafe.peek, (h.kept_body hs).mpr hsafe.keeps⟩

/-- At any other it reads the length and goes on. -/
theorem Spec.inside_next_iff (h : Spec w hi I Peek last Keeps) {fuel pos : Nat} {s : σ}
    (hI : I s) (hp : pos<stop) (hlast : ¬last pos) :
    Inside w mem hi (w.loop mem stop (fuel+1) pos s) ↔ (Peek pos ∧ pos+1<hi) ∧
      Inside w mem hi (w.loop mem stop fuel (next mem pos) (w.body pos s).1) := by
  have hleaves : w.leaves (w.body pos s).1 = false :=
    Bool.eq_false_iff.mpr fun hl => hlast ((h.leaves pos s hI).mp hl)
  rw [← h.peek pos s]
  simp only [Walker.loop, hp, hleaves, if_true, Bool.false_eq_true, if_false]
  constructor
  · intro hin
    have hreads := List.forall_mem_append.mp hin.reads
    have hrest := List.forall_mem_cons.mp hreads.2
    exact ⟨⟨hreads.1, hrest.1⟩, hin.finished, hrest.2, hin.kept⟩
  · rintro ⟨⟨hbody, hlen⟩, hin⟩
    refine ⟨hin.finished, ?_, hin.kept⟩
    exact List.forall_mem_append.mpr ⟨hbody, List.forall_mem_cons.mpr ⟨hlen, hin.reads⟩⟩

theorem Spec.inside_loop_iff (h : Spec w hi I Peek last Keeps) (fuel pos : Nat) (s : σ)
    (hf : stop ≤ pos+fuel) (hI : I s) (hs : ∀ q∈w.kept s, next mem q ≤ hi) :
    Inside w mem hi (w.loop mem stop fuel pos s) ↔
      ∀ p, Comes mem stop last pos p → Safe mem hi Peek last Keeps p := by
  by_cases hp : pos<stop
  · induction fuel generalizing pos s with
    | zero => omega
    | succ fuel ih =>
      have hlt := lt_next mem pos
      have hfuel : stop ≤ next mem pos + fuel := by omega
      simp only [comes_iff hp, forall_eq_or_imp]
      by_cases hlast : last pos
      · simp [h.inside_last_iff hI hs hp hlast, hlast]
      · simp only [h.inside_next_iff hI hp hlast, hlast, not_false_eq_true, true_and]
        by_cases hk : Keeps pos → next mem pos ≤ hi
        · have hrest : Inside w mem hi (w.loop mem stop fuel (next mem pos) (w.body pos s).1) ↔
              ∀ p, Comes mem stop last (next mem pos) p → Safe mem hi Peek last Keeps p := by
            have hs' := (h.kept_body hs).mpr hk
            by_cases hn : next mem pos<stop
            · exact ih _ _ hfuel (h.stays pos s hI hlast) hs' hn
            · rw [Walker.loop_of_le _ (Nat.not_lt.mp hn)]
              exact iff_of_true ⟨rfl, by simp, hs'⟩
                fun p hp => absurd hp (not_comes_of_le (Nat.not_lt.mp hn) p)
          rw [hrest]
          constructor
          · rintro ⟨⟨hpeek, hlen⟩, hall⟩
            exact ⟨⟨hpeek, fun _ => hlen, hk⟩, hall⟩
          · rintro ⟨hsafe, hall⟩
            exact ⟨⟨hsafe.peek, hsafe.length hlast⟩, hall⟩
        · obtain ⟨hkeep, hcut⟩ := Classical.not_imp.mp hk
          have hnot := h.not_inside_of_keeps (s := s) hfuel hkeep (Nat.not_le.mp hcut)
          exact iff_of_false (fun hin => hnot hin.2) fun hall => hk hall.1.keeps
  · rw [Walker.loop_of_le s (Nat.not_lt.mp hp)]
    exact iff_of_true ⟨rfl, by simp, hs⟩
      fun p hc => absurd hc (not_comes_of_le (Nat.not_lt.mp hp) p)

/-- A loop without checks stays inside exactly when every element that it comes to is safe. -/
theorem Spec.inside_walk_iff (h : Spec w hi I Peek last Keeps) (mem : Memory) (stop pos : Nat)
    (s : σ) (hI : I s) (hs : ∀ q∈w.kept s, next mem q ≤ hi) :
    Inside w mem hi (w.walk mem stop pos s) ↔
      ∀ p, Comes mem stop last pos p → Safe mem hi Peek last Keeps p :=
  h.inside_loop_iff _ _ _ (by omega) hI hs

end Spec

end Lib.Tlv
