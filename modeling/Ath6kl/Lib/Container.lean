import Mathlib.Data.List.Basic

/-! Containers: elements in a row, each a header of a fixed size, which tells what the element is
and how long, and its bytes. A loop over them stops before an element that is cut, or in one whose
body fails; what it reads is a log. -/
namespace Lib.Container

/-- `pos` is where the bytes begin. -/
structure Element where
  id : Nat
  pos : Nat
  len : Nat
deriving DecidableEq

def Element.stop (e : Element) : Nat := e.pos+e.len

/-- So many bytes from `pos` on, of what ends at `stop`. -/
structure Read where
  pos : Nat
  n : Nat
  stop : Nat
deriving DecidableEq

def Read.Inside (size : Nat) (r : Read) : Prop := r.pos+r.n ≤ r.stop ∧ r.pos+r.n ≤ size

instance (size : Nat) (r : Read) : Decidable (r.Inside size) :=
  inferInstanceAs (Decidable (_ ∧ _))

/-- What was done at an element, or at one after the other: the state then, and the error that it
ended with. -/
structure Visit (ε σ : Type*) where
  state : σ
  error : Option ε := none
  reads : List Read := []
  finished : Bool := true

section Loop
variable {ε σ : Type*} (header : Nat → Nat × Nat) (hdr size : Nat)
  (body : Element → σ → Visit ε σ) (cut : ε)

def elementAt (pos : Nat) : Element := ⟨(header pos).1, pos+hdr, (header pos).2⟩

/-- The loop that goes on while more than a header is left. `finished` is false if the fuel ran
out. -/
def loop : Nat → Nat → σ → Visit ε σ
  | 0, pos, s => { state := s, finished := decide (size ≤ pos+hdr) }
  | fuel+1, pos, s =>
    if pos+hdr < size then
      let e := elementAt header hdr pos
      if size < e.stop then { state := s, error := some cut, reads := [⟨pos, hdr, pos+hdr⟩] }
      else
        let v := body e s
        if v.error.isSome then { v with reads := ⟨pos, hdr, pos+hdr⟩::v.reads }
        else
          let rest := loop fuel e.stop v.state
          { rest with reads := ⟨pos, hdr, pos+hdr⟩::v.reads ++ rest.reads }
    else { state := s }

/-- The whole elements from `pos` on, and whether they end with one that is cut. -/
def elementsFrom : Nat → Nat → List Element × Bool
  | 0, _ => ([], false)
  | fuel+1, pos =>
    if pos+hdr < size then
      let e := elementAt header hdr pos
      if size < e.stop then ([], true)
      else
        let rest := elementsFrom fuel e.stop
        (e::rest.1, rest.2)
    else ([], false)

/-- The body at one element after the other, until it fails. -/
def visit : List Element → σ → Visit ε σ
  | [], s => { state := s }
  | e::es, s =>
    let v := body e s
    if v.error.isSome then v
    else
      let rest := visit es v.state
      { rest with reads := v.reads ++ rest.reads }

def elements (pos : Nat) : List Element × Bool := elementsFrom header hdr size (size-pos) pos

def walk (pos : Nat) (s : σ) : Visit ε σ := loop header hdr size body cut (size-pos) pos s

theorem stop_le_of_mem {fuel pos : Nat} {e : Element}
    (h : e∈(elementsFrom header hdr size fuel pos).1) : e.stop ≤ size := by
  induction fuel generalizing pos with
  | zero => simp [elementsFrom] at h
  | succ fuel ih =>
    by_cases hp : pos+hdr < size
    · by_cases hc : size < (elementAt header hdr pos).stop
      · simp [elementsFrom, hp, hc] at h
      · simp only [elementsFrom, hp, hc, if_true, if_false, List.mem_cons] at h
        rcases h with rfl | h
        · exact Nat.not_lt.mp hc
        · exact ih h
    · simp [elementsFrom, hp] at h

theorem stop_le_of_mem_elements {pos : Nat} {e : Element}
    (h : e∈(elements header hdr size pos).1) : e.stop ≤ size :=
  stop_le_of_mem header hdr size h

section Rules
variable (hbody : ∀ e s, (body e s).finished = true)
include hbody

/-- The loop comes to an end. -/
theorem loop_finished (hh : 0 < hdr) (fuel pos : Nat) (s : σ) (hf : size ≤ pos+fuel) :
    (loop header hdr size body cut fuel pos s).finished = true := by
  induction fuel generalizing pos s with
  | zero =>
    simp only [loop, decide_eq_true_eq]
    omega
  | succ fuel ih =>
    have hnext : pos < (elementAt header hdr pos).stop := by
      simp only [elementAt, Element.stop]
      omega
    have hrest := ih (elementAt header hdr pos).stop (body (elementAt header hdr pos) s).state
      (by omega)
    by_cases hp : pos+hdr < size
    · by_cases hc : size < (elementAt header hdr pos).stop
      · simp [loop, hp, hc]
      · by_cases he : (body (elementAt header hdr pos) s).error.isSome = true
        · simp [loop, hp, hc, he, hbody]
        · simp [loop, hp, hc, he, hrest]
    · simp [loop, hp]

theorem walk_finished (hh : 0 < hdr) (pos : Nat) (s : σ) :
    (walk header hdr size body cut pos s).finished = true :=
  loop_finished header hdr size body cut hbody hh _ _ _ (by omega)

end Rules

/-- The loop does its body at the whole elements. -/
theorem loop_state (fuel pos : Nat) (s : σ) :
    (loop header hdr size body cut fuel pos s).state =
      (visit body (elementsFrom header hdr size fuel pos).1 s).state := by
  induction fuel generalizing pos s with
  | zero => rfl
  | succ fuel ih =>
    by_cases hp : pos+hdr < size
    · by_cases hc : size < (elementAt header hdr pos).stop
      · simp [loop, elementsFrom, visit, hp, hc]
      · by_cases he : (body (elementAt header hdr pos) s).error.isSome = true
        · simp [loop, elementsFrom, visit, hp, hc, he]
        · simp [loop, elementsFrom, visit, hp, hc, he, ih]
    · simp [loop, elementsFrom, visit, hp]

/-- It succeeds when no body fails and no element is cut. -/
theorem loop_error (fuel pos : Nat) (s : σ) :
    (loop header hdr size body cut fuel pos s).error = none ↔
      (visit body (elementsFrom header hdr size fuel pos).1 s).error = none ∧
        (elementsFrom header hdr size fuel pos).2 = false := by
  induction fuel generalizing pos s with
  | zero => simp [loop, elementsFrom, visit]
  | succ fuel ih =>
    by_cases hp : pos+hdr < size
    · by_cases hc : size < (elementAt header hdr pos).stop
      · simp [loop, elementsFrom, hp, hc]
      · cases he : (body (elementAt header hdr pos) s).error with
        | some err => simp [loop, elementsFrom, visit, hp, hc, he]
        | none => simp [loop, elementsFrom, visit, hp, hc, he, ih]
    · simp [loop, elementsFrom, visit, hp]

/-- Besides what its bodies read, it reads headers inside. -/
theorem loop_reads (fuel pos : Nat) (s : σ) :
    (∀ r∈(loop header hdr size body cut fuel pos s).reads, r.Inside size) ↔
      ∀ r∈(visit body (elementsFrom header hdr size fuel pos).1 s).reads, r.Inside size := by
  induction fuel generalizing pos s with
  | zero => simp [loop, elementsFrom, visit]
  | succ fuel ih =>
    by_cases hp : pos+hdr < size
    · have hin : Read.Inside size ⟨pos, hdr, pos+hdr⟩ := ⟨Nat.le_refl _, Nat.le_of_lt hp⟩
      by_cases hc : size < (elementAt header hdr pos).stop
      · simp [loop, elementsFrom, visit, hp, hc, hin]
      · by_cases he : (body (elementAt header hdr pos) s).error.isSome = true
        · simp only [loop, elementsFrom, visit, hp, hc, he, if_true, if_false,
            List.forall_mem_cons, hin, true_and]
        · simp only [loop, elementsFrom, visit, hp, hc, he, if_true, if_false, Bool.false_eq_true,
            List.cons_append, List.forall_mem_cons, List.forall_mem_append, hin, true_and, ih]
    · simp [loop, elementsFrom, visit, hp]

theorem walk_state (pos : Nat) (s : σ) : (walk header hdr size body cut pos s).state =
    (visit body (elements header hdr size pos).1 s).state :=
  loop_state header hdr size body cut _ pos s

theorem walk_error (pos : Nat) (s : σ) :
    (walk header hdr size body cut pos s).error = none ↔
      (visit body (elements header hdr size pos).1 s).error = none ∧
        (elements header hdr size pos).2 = false :=
  loop_error header hdr size body cut _ pos s

theorem walk_reads (pos : Nat) (s : σ) :
    (∀ r∈(walk header hdr size body cut pos s).reads, r.Inside size) ↔
      ∀ r∈(visit body (elements header hdr size pos).1 s).reads, r.Inside size :=
  loop_reads header hdr size body cut _ pos s

end Loop

section Folds
variable {α β σ : Type*} (f : σ → α → σ) (field : σ → β)

/-- Each step that writes a field replaces it: what is written last stays. -/
theorem foldl_last {p : α → Bool} {g : α → β}
    (h : ∀ s x, field (f s x) = if p x then g x else field s) (xs : List α) (s : σ) :
    field (xs.foldl f s) = (((xs.filter p).getLast?.map g).getD (field s)) := by
  induction xs generalizing s with
  | nil => rfl
  | cons x xs ih =>
    rw [List.foldl_cons, ih, h]
    by_cases hp : p x = true
    · cases hl : (xs.filter p).getLast? with
      | none => simp [hp, List.getLast?_cons, hl]
      | some y => simp [hp, List.getLast?_cons, hl]
    · simp [hp]

/-- A step writes a field only while `empty` holds of it: what is written first stays. -/
theorem foldl_first (empty : β → Bool) {p : α → Bool} {g : α → β}
    (h : ∀ s x, field (f s x) = if empty (field s) && p x then g x else field s)
    (hg : ∀ x, empty (g x) = false) (xs : List α) (s : σ) :
    field (xs.foldl f s) =
      if empty (field s) then ((xs.filter p).head?.map g).getD (field s) else field s := by
  induction xs generalizing s with
  | nil => simp
  | cons x xs ih =>
    rw [List.foldl_cons, ih, h]
    by_cases he : empty (field s) = true
    · by_cases hp : p x = true
      · simp [he, hp, hg]
      · simp [he, hp]
    · simp [he]

/-- A flag that steps may set and never clear. -/
theorem foldl_any (flag : σ → Bool) {p : α → Bool}
    (h : ∀ s x, flag (f s x) = (flag s || p x)) (xs : List α) (s : σ) :
    flag (xs.foldl f s) = (flag s || xs.any p) := by
  induction xs generalizing s with
  | nil => simp
  | cons x xs ih => rw [List.foldl_cons, ih, h, List.any_cons, Bool.or_assoc]

end Folds

end Lib.Container
