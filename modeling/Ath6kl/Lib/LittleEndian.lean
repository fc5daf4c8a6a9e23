import Mathlib.Data.List.Basic
import Mathlib.Tactic.Ring

/-! Numbers of a fixed width as bytes, the least significant one first, and records of a fixed size one
after the other. -/
namespace Lib.LittleEndian
variable {α : Type*}

def bytes : Nat → Nat → List UInt8
  | 0, _ => []
  | w+1, n => UInt8.ofNat n::bytes w (n / 256)

def value : List UInt8 → Nat
  | [] => 0
  | b::bs => b.toNat + 256 * value bs

@[simp] theorem length_bytes (w n : Nat) : (bytes w n).length = w := by
  induction w generalizing n with
  | zero => rfl
  | succ w ih => rw [bytes, List.length_cons, ih]

theorem value_bytes {w n : Nat} (h : n<256^w) : value (bytes w n) = n := by
  induction w generalizing n with
  | zero =>
    rw [pow_zero, Nat.lt_one_iff] at h
    rw [h]
    rfl
  | succ w ih =>
    have hdiv : n / 256<256^w := by
      apply Nat.div_lt_of_lt_mul
      rw [pow_succ, Nat.mul_comm] at h
      exact h
    rw [bytes, value, ih hdiv, UInt8.toNat_ofNat']
    exact Nat.mod_add_div n 256

/-- The first `n` records of `size` bytes. -/
def records (size : Nat) (decode : List UInt8 → α) : Nat → List UInt8 → List α
  | 0, _ => []
  | n+1, bs => decode (bs.take size)::records size decode n (bs.drop size)

theorem length_records (size : Nat) (decode : List UInt8 → α) (n : Nat) (bs : List UInt8) :
    (records size decode n bs).length = n := by
  induction n generalizing bs with
  | zero => rfl
  | succ n ih => rw [records, List.length_cons, ih]

theorem length_flatMap {size : Nat} {encode : α → List UInt8} (hsize : ∀ x, (encode x).length = size)
    (xs : List α) : (xs.flatMap encode).length = size * xs.length := by
  induction xs with
  | nil => rfl
  | cons x xs ih =>
    rw [List.flatMap_cons, List.length_append, hsize, ih, List.length_cons, Nat.mul_succ,
      Nat.add_comm]

theorem records_flatMap {size : Nat} {encode : α → List UInt8} {decode : List UInt8 → α}
    (hsize : ∀ x, (encode x).length = size) (hdecode : ∀ x, decode (encode x) = x) (xs : List α) :
    records size decode xs.length (xs.flatMap encode) = xs := by
  induction xs with
  | nil => rfl
  | cons x xs ih =>
    rw [List.length_cons, records, List.flatMap_cons, List.take_left' (hsize x),
      List.drop_left' (hsize x), hdecode, ih]

end Lib.LittleEndian
