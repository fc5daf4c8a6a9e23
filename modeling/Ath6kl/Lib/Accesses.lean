import Mathlib.Data.List.Basic

/-! What a handler of a message accesses: bytes of the message, entries of tables, and the counts
that it stores beside elements it copies. -/
namespace Lib.Accesses

inductive Access
  | read (pos n : Nat)
  | slot (i size : Nat)
  | count (stored copied : Nat)
deriving DecidableEq

/-- In a message of `len` bytes: inside the message, inside the table, and no more counted than
copied. -/
def Access.Ok (len : Nat) : Access → Prop
  | .read pos n => pos+n ≤ len
  | .slot i size => i<size
  | .count stored copied => stored ≤ copied

instance (len : Nat) : ∀ a : Access, Decidable (a.Ok len)
  | .read pos n => inferInstanceAs (Decidable (pos+n ≤ len))
  | .slot i size => inferInstanceAs (Decidable (i<size))
  | .count stored copied => inferInstanceAs (Decidable (stored ≤ copied))

@[simp] theorem ok_read {len pos n : Nat} : (Access.read pos n).Ok len ↔ pos+n ≤ len := Iff.rfl

@[simp] theorem ok_slot {len i size : Nat} : (Access.slot i size).Ok len ↔ i<size := Iff.rfl

@[simp] theorem ok_count {len stored copied : Nat} :
    (Access.count stored copied).Ok len ↔ stored ≤ copied := Iff.rfl

def Safe (len : Nat) (log : List Access) : Prop := ∀ a∈log, a.Ok len

instance (len : Nat) (log : List Access) : Decidable (Safe len log) :=
  inferInstanceAs (Decidable (∀ a∈log, a.Ok len))

@[simp] theorem safe_nil (len : Nat) : Safe len [] := by simp [Safe]

@[simp] theorem safe_cons {len : Nat} {a : Access} {log : List Access} :
    Safe len (a::log) ↔ a.Ok len ∧ Safe len log := by simp [Safe]

@[simp] theorem safe_append {len : Nat} {u v : List Access} :
    Safe len (u ++ v) ↔ Safe len u ∧ Safe len v := by
  simp [Safe, or_imp, forall_and]

/-- A longer message keeps what is safe. -/
theorem Safe.mono {len len' : Nat} {log : List Access} (h : Safe len log) (hle : len ≤ len') :
    Safe len' log := by
  intro a ha
  have hok := h a ha
  cases a with
  | read pos n => exact Nat.le_trans hok hle
  | slot i size => exact hok
  | count stored copied => exact hok

section Loops

/-- A loop over `n` records of `size` bytes from `base` on. -/
def records (base size n : Nat) : List Access :=
  (List.range n).map fun i => .read (base+size*i) size

/-- A loop over the first `n` entries of a table. -/
def slots (n size : Nat) : List Access := (List.range n).map fun i => .slot i size

/-- The last record decides. -/
theorem safe_records_iff {len base size n : Nat} :
    Safe len (records base size n) ↔ n = 0 ∨ base+size*n ≤ len := by
  cases n with
  | zero => simp [records, Safe]
  | succ n =>
    have hlast : base+size*(n+1) = base+size*n+size := by rw [Nat.mul_succ, Nat.add_assoc]
    constructor
    · intro h
      have hread : (Access.read (base+size*n) size).Ok len :=
        h _ (List.mem_map.mpr ⟨n, by simp, rfl⟩)
      simp only [ok_read] at hread
      omega
    · intro h a ha
      obtain ⟨i, hi, rfl⟩ := List.mem_map.mp ha
      have hle : size*i ≤ size*n := Nat.mul_le_mul_left size (Nat.le_of_lt_succ (by simpa using hi))
      simp only [ok_read]
      omega

theorem safe_slots_iff {len n size : Nat} : Safe len (slots n size) ↔ n ≤ size := by
  constructor
  · intro h
    cases n with
    | zero => simp
    | succ n =>
      have hslot : (Access.slot n size).Ok len := h _ (List.mem_map.mpr ⟨n, by simp, rfl⟩)
      exact ok_slot.mp hslot
  · intro h a ha
    obtain ⟨i, hi, rfl⟩ := List.mem_map.mp ha
    have hi' : i<n := by simpa using hi
    simp only [ok_slot]
    omega

end Loops

end Lib.Accesses
