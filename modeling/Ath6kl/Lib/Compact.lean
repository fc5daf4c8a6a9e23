import Mathlib.Data.List.Basic
import Mathlib.Logic.Function.Basic

/-! Buffers filled from below by a loop over a list: a loop that collects what it selects, and a
loop that compacts in place, writing `read - skipped` places from the start, with a counter of the
skipped ones that wraps at a width. -/
namespace Lib.Compact
variable {α : Type*}

/-- An array, and one past the highest index that was written. -/
structure Buffer (α : Type*) where
  entry : Nat → α
  top : Nat

namespace Buffer

def blank (x : α) : Buffer α := { entry := fun _ => x, top := 0 }

def put (b : Buffer α) (i : Nat) (x : α) : Buffer α :=
  { entry := Function.update b.entry i x, top := max b.top (i+1) }

/-- The first `n` entries. -/
def contents (b : Buffer α) (n : Nat) : List α := (List.range n).map b.entry

@[simp] theorem length_contents (b : Buffer α) (n : Nat) : (b.contents n).length = n := by
  simp [contents]

theorem getElem?_contents (b : Buffer α) (n k : Nat) :
    (b.contents n)[k]? = if k<n then some (b.entry k) else none := by
  by_cases hk : k<n <;> simp [contents, hk]

@[simp] theorem blank_top (x : α) : (blank x).top = 0 := rfl

@[simp] theorem put_top (b : Buffer α) (i : Nat) (x : α) : (b.put i x).top = max b.top (i+1) := rfl

/-- The buffer begins with this list, and nothing was written after it. -/
structure Holds (b : Buffer α) (xs : List α) : Prop where
  contents : b.contents xs.length = xs
  top : b.top = xs.length

theorem holds_nil {b : Buffer α} (h : b.top = 0) : b.Holds [] := ⟨by simp [Buffer.contents], h⟩

theorem put_entry_self (b : Buffer α) (i : Nat) (x : α) : (b.put i x).entry i = x := by
  simp [put]

theorem put_entry_of_ne (b : Buffer α) {i j : Nat} (h : j ≠ i) (x : α) :
    (b.put i x).entry j = b.entry j := by
  simp [put, h]

theorem contents_put_of_le {b : Buffer α} {n i : Nat} (h : n ≤ i) (x : α) :
    (b.put i x).contents n = b.contents n := by
  refine List.map_congr_left fun j hj => ?_
  have hj' : j<n := List.mem_range.mp hj
  exact put_entry_of_ne b (by omega) x

theorem Holds.put {b : Buffer α} {xs : List α} (h : b.Holds xs) (x : α) :
    (b.put xs.length x).Holds (xs ++ [x]) := by
  have hxs : (b.put xs.length x).contents xs.length = xs := by
    rw [contents_put_of_le (Nat.le_refl _), h.contents]
  have hlast : (b.put xs.length x).entry xs.length = x := put_entry_self b _ x
  constructor
  · rw [List.length_append, List.length_singleton]
    have hsucc : (b.put xs.length x).contents (xs.length+1) =
        (b.put xs.length x).contents xs.length ++ [(b.put xs.length x).entry xs.length] := by
      simp [Buffer.contents, List.range_succ]
    rw [hsucc, hxs, hlast]
  · simp [h.top]

/-- A list is stored from an index on. -/
def store (b : Buffer α) (i : Nat) : List α → Buffer α
  | [] => b
  | x::xs => (b.put i x).store (i+1) xs

theorem Holds.store {b : Buffer α} {xs : List α} (h : b.Holds xs) (ys : List α) :
    (b.store xs.length ys).Holds (xs ++ ys) := by
  induction ys generalizing b xs with
  | nil => simpa [Buffer.store] using h
  | cons y ys ih =>
    have hy := ih (h.put y)
    simpa [Buffer.store] using hy

end Buffer

section Collect

/-- `list[num++] = x` for what is selected. -/
def collect (select : α → Bool) (s : Buffer α × Nat) (l : List α) : Buffer α × Nat :=
  l.foldl (fun s x => if select x then (s.1.put s.2 x, s.2+1) else s) s

theorem collect_spec (select : α → Bool) {b : Buffer α} {xs : List α} (h : b.Holds xs)
    (l : List α) :
    (collect select (b, xs.length) l).1.Holds (xs ++ l.filter select) ∧
      (collect select (b, xs.length) l).2 = (xs ++ l.filter select).length := by
  induction l generalizing b xs with
  | nil => simpa [collect] using h
  | cons x l ih =>
    by_cases hx : select x = true
    · have hput := ih (h.put x)
      simpa [collect, hx] using hput
    · have hskip := ih h
      simpa [collect, hx] using hskip

end Collect

section Pass

/-- The state of the compacting loop; `stopped`: it cannot go on. -/
structure Pass (α : Type*) where
  buf : Buffer α
  read : Nat := 0
  skipped : Nat := 0
  stopped : Bool := false

/-- One entry: skipped, kept, or one that has no verdict. -/
def Pass.step (width : Nat) (skip : α → Option Bool) (s : Pass α) (x : α) : Pass α :=
  if s.stopped then s
  else match skip x with
    | none => { s with stopped := true }
    | some true => { s with read := s.read+1, skipped := (s.skipped+1)%width }
    | some false => { s with buf := s.buf.put (s.read-s.skipped) x, read := s.read+1 }

def compact (width : Nat) (skip : α → Option Bool) (buf : Buffer α) (l : List α) : Pass α :=
  l.foldl (Pass.step width skip) { buf := buf }

/-- What the loop keeps. -/
def kept (skip : α → Option Bool) (l : List α) : List α := l.filter fun x => skip x == some false

theorem kept_length_le (skip : α → Option Bool) (l : List α) :
    (kept skip l).length ≤ l.length := List.length_filter_le _ l

/-- After a part of the list with a verdict for each entry. -/
structure Pass.After (skip : α → Option Bool) (done : List α) (s : Pass α) : Prop where
  stopped : s.stopped = false
  read : s.read = done.length
  skipped : s.skipped + (kept skip done).length = done.length
  buf : s.buf.Holds (kept skip done)

theorem Pass.After.step {width : Nat} {skip : α → Option Bool} {done : List α} {s : Pass α}
    (h : s.After skip done) {x : α} (hw : done.length+1<width) (hx : skip x ≠ none) :
    (s.step width skip x).After skip (done ++ [x]) := by
  have hread := h.read
  have hskipped := h.skipped
  cases hv : skip x with
  | none => exact absurd hv hx
  | some b =>
    cases b with
    | true =>
      have hkept : kept skip (done ++ [x]) = kept skip done := by simp [kept, hv]
      have hmod : (s.skipped+1)%width = s.skipped+1 := Nat.mod_eq_of_lt (by omega)
      constructor
      · simp [Pass.step, h.stopped, hv]
      · simp [Pass.step, h.stopped, hv, hread]
      · simp only [Pass.step, h.stopped, hv, hkept, hmod, List.length_append, List.length_singleton]
        simp only [Bool.false_eq_true, if_false]
        omega
      · simpa [Pass.step, h.stopped, hv, hkept] using h.buf
    | false =>
      have hkept : kept skip (done ++ [x]) = kept skip done ++ [x] := by simp [kept, hv]
      have hplace : s.read-s.skipped = (kept skip done).length := by omega
      constructor
      · simp [Pass.step, h.stopped, hv]
      · simp [Pass.step, h.stopped, hv, hread]
      · simp only [Pass.step, h.stopped, hv, hkept, List.length_append, List.length_singleton]
        simp only [Bool.false_eq_true, if_false]
        omega
      · simpa [Pass.step, h.stopped, hv, hkept, hplace] using h.buf.put x

theorem Pass.After.foldl {width : Nat} {skip : α → Option Bool} {done : List α} {s : Pass α}
    (h : s.After skip done) {l : List α} (hw : (done ++ l).length<width)
    (hl : ∀ x∈l, skip x ≠ none) :
    (l.foldl (Pass.step width skip) s).After skip (done ++ l) := by
  induction l generalizing done s with
  | nil => simpa using h
  | cons x l ih =>
    simp only [List.length_append, List.length_cons] at hw
    have hroom : done.length+1<width := by omega
    have hx := h.step hroom (hl x List.mem_cons_self)
    have hrest := ih hx (by simp; omega) fun y hy => hl y (List.mem_cons_of_mem x hy)
    simpa using hrest

theorem compact_after (width : Nat) {skip : α → Option Bool} {buf : Buffer α} {l : List α}
    (hw : l.length<width) (hbuf : buf.top = 0) (hl : ∀ x∈l, skip x ≠ none) :
    (compact width skip buf l).After skip l := by
  have hnil : ({ buf := buf } : Pass α).After skip [] := by
    constructor
    · simp
    · simp
    · simp [kept]
    · simpa [kept] using Buffer.holds_nil hbuf
  have hrun := hnil.foldl (by simpa using hw) hl
  simpa [compact] using hrun

/-- Once stopped, the loop does nothing. -/
theorem foldl_of_stopped {width : Nat} {skip : α → Option Bool} {s : Pass α}
    (h : s.stopped = true) (l : List α) : l.foldl (Pass.step width skip) s = s := by
  induction l with
  | nil => simp
  | cons x l ih => simpa [Pass.step, h] using ih

theorem compact_stopped_iff (width : Nat) (skip : α → Option Bool) (buf : Buffer α)
    {l : List α} :
    (compact width skip buf l).stopped = true ↔ ∃ x∈l, skip x = none := by
  suffices h : ∀ s : Pass α, s.stopped = false →
      ((l.foldl (Pass.step width skip) s).stopped = true ↔ ∃ x∈l, skip x = none) from h _ rfl
  induction l with
  | nil => simp
  | cons x l ih =>
    intro s hs
    cases hv : skip x with
    | none =>
      have hstop : (s.step width skip x).stopped = true := by simp [Pass.step, hs, hv]
      simp [foldl_of_stopped hstop, hstop, hv]
    | some b =>
      have hgo : (s.step width skip x).stopped = false := by
        cases b <;> simp [Pass.step, hs, hv]
      simpa [hv] using ih _ hgo

/-- Whatever the width and the verdicts, one place is written for each entry at most. -/
theorem compact_top_le (width : Nat) (skip : α → Option Bool) {buf : Buffer α}
    (hbuf : buf.top = 0) (l : List α) : (compact width skip buf l).buf.top ≤ l.length := by
  suffices h : ∀ s : Pass α, s.buf.top ≤ s.read →
      (l.foldl (Pass.step width skip) s).buf.top ≤ s.read+l.length by
    simpa [compact] using h { buf := buf } (by simp [hbuf])
  induction l with
  | nil => simp
  | cons x l ih =>
    intro s hs
    have hstep : (s.step width skip x).buf.top ≤ (s.step width skip x).read ∧
        (s.step width skip x).read ≤ s.read+1 := by
      by_cases hstop : s.stopped = true
      · simp [Pass.step, hstop, hs]
      · cases hv : skip x with
        | none => simp [Pass.step, hstop, hv, hs]
        | some b => cases b <;> simp [Pass.step, hstop, hv] <;> omega
    have hrest := ih _ hstep.1
    simp only [List.foldl_cons, List.length_cons]
    omega

end Pass

end Lib.Compact
