import Mathlib.Data.List.Perm.Basic
import Mathlib.Data.List.Range

/-! Blocks from an allocator, numbered in the order in which they are handed out. Which requests are
granted is up to the environment; what is freed is a log, and what must not be done is a fault. -/
namespace Lib.Blocks

/-- `stop`: the program uses a null pointer or stops itself. -/
inductive Fault where
  | stop
  | stale (block : Nat)
  | twice (block : Nat)
deriving DecidableEq

structure Heap where
  asked : Nat := 0
  blocks : Nat := 0
  frees : List Nat := []
  faults : List Fault := []
deriving DecidableEq

namespace Heap
variable (h : Heap)

def alloc (grant : Nat → Bool) : Option Nat × Heap :=
  if grant h.asked then (some h.blocks, { h with asked := h.asked+1, blocks := h.blocks+1 })
  else (none, { h with asked := h.asked+1 })

def fault (f : Fault) : Heap :=
  if .stop∈h.faults then h else { h with faults := f::h.faults }

/-- The block of a pointer is used. -/
def access : Option Nat → Heap
  | none => h.fault .stop
  | some b => if b∈h.frees then h.fault (.stale b) else h

/-- A null pointer is freed to no effect. -/
def free : Option Nat → Heap
  | none => h
  | some b =>
    if .stop∈h.faults then h
    else { (if b∈h.frees then h.fault (.twice b) else h) with frees := h.frees ++ [b] }

/-- A pointer to a block that is not there. -/
def Dead (p : Option Nat) : Prop := ∀ b∈p, b∈h.frees

/-- Each block has been freed once, and nothing else was done. -/
structure Released : Prop where
  faults : h.faults = []
  frees : h.frees.Perm (List.range h.blocks)

end Heap

section Rules
variable {h : Heap} {b : Nat}

theorem access_live (hb : b∉h.frees) : h.access (some b) = h := by
  simp [Heap.access, hb]

theorem fault_ne_nil (f : Fault) : (h.fault f).faults ≠ [] := by
  rw [Heap.fault]
  split_ifs with hs
  · exact List.ne_nil_of_mem hs
  · simp

theorem access_dead {p : Option Nat} (hp : h.Dead p) : (h.access p).faults ≠ [] := by
  cases p with
  | none => exact fault_ne_nil .stop
  | some b =>
    have hb : b∈h.frees := hp b rfl
    simpa [Heap.access, hb] using fault_ne_nil (.stale b)

/-- What has been done wrong stays on record. -/
theorem access_faults (hf : h.faults ≠ []) (p : Option Nat) : (h.access p).faults ≠ [] := by
  cases p with
  | none => exact fault_ne_nil .stop
  | some b =>
    rw [Heap.access]
    split_ifs
    · exact fault_ne_nil _
    · exact hf

theorem free_faults (hf : h.faults ≠ []) (p : Option Nat) : (h.free p).faults ≠ [] := by
  cases p with
  | none => exact hf
  | some b =>
    rw [Heap.free]
    split_ifs with hs hb
    · exact hf
    · exact fault_ne_nil _
    · exact hf

@[simp] theorem fault_frees (f : Fault) : (h.fault f).frees = h.frees := by
  rw [Heap.fault]
  split_ifs <;> rfl

@[simp] theorem access_frees (p : Option Nat) : (h.access p).frees = h.frees := by
  cases p with
  | none => simp [Heap.access]
  | some c =>
    rw [Heap.access]
    split_ifs <;> simp

theorem mem_free_frees (hb : b∈h.frees) (p : Option Nat) : b∈(h.free p).frees := by
  cases p with
  | none => exact hb
  | some c =>
    rw [Heap.free]
    split_ifs <;> simp [hb]

/-- A block that is there is freed without a fault. -/
theorem free_live (hf : h.faults = []) (hb : b∉h.frees) :
    h.free (some b) = { h with frees := h.frees ++ [b] } := by
  simp [Heap.free, hf, hb]

/-- So it is on the list of what was freed. -/
theorem mem_free_self (hf : h.faults = []) (b : Nat) : b∈(h.free (some b)).frees := by
  simp [Heap.free, hf]

end Rules

section Loop

/-- Pointers that an array holds are freed, each read from the array. -/
def freeEach (array : Option Nat) (h : Heap) (ps : List (Option Nat)) : Heap :=
  ps.foldl (fun h p => (h.access array).free p) h

variable {array : Option Nat} {h : Heap}

theorem freeEach_faults (hf : h.faults ≠ []) (ps : List (Option Nat)) :
    (freeEach array h ps).faults ≠ [] := by
  induction ps generalizing h with
  | nil => exact hf
  | cons p ps ih => exact ih (free_faults (access_faults hf array) p)

/-- The array is read for the first pointer. -/
theorem freeEach_dead (hdead : h.Dead array) {ps : List (Option Nat)} (hps : ps ≠ []) :
    (freeEach array h ps).faults ≠ [] := by
  cases ps with
  | nil => exact absurd rfl hps
  | cons p ps => exact freeEach_faults (free_faults (access_dead hdead) p) ps

theorem mem_freeEach_frees {b : Nat} (hb : b∈h.frees) (ps : List (Option Nat)) :
    b∈(freeEach array h ps).frees := by
  induction ps generalizing h with
  | nil => exact hb
  | cons p ps ih => exact ih (mem_free_frees (by simpa using hb) p)

/-- Distinct blocks that are there, from an array that is there. -/
theorem freeEach_live {m : Nat} {bs : List Nat} (hf : h.faults = [])
    (hlive : (h.frees ++ bs).Nodup) (hm : m∉h.frees ++ bs) :
    freeEach (some m) h (bs.map some) = { h with frees := h.frees ++ bs } := by
  induction bs generalizing h with
  | nil => simp [freeEach]
  | cons b bs ih =>
    have hmfree : m∉h.frees := fun hmem => hm (List.mem_append_left _ hmem)
    have hb : b∉h.frees := by
      intro hmem
      exact (List.nodup_append.mp hlive).2.2 b hmem b List.mem_cons_self rfl
    have hstep : (h.access (some m)).free (some b) = { h with frees := h.frees ++ [b] } := by
      rw [access_live hmfree, free_live hf hb]
    have hrest := ih (h := { h with frees := h.frees ++ [b] }) hf (by simpa using hlive)
      (by simpa using hm)
    simpa [freeEach, hstep] using hrest

end Loop

end Lib.Blocks
