import Mathlib.Data.Nat.Bitwise
import Mathlib.Data.List.Basic

/-! The exclusive-or of a table of words, and the two ways to keep it all ones when words change:
one word is the complement of the others, or a change is made to it too. -/
namespace Lib.XorSum

def xorSum (f : Nat → Nat) (n : Nat) : Nat := (List.range n).foldl (fun s k => s ^^^ f k) 0

theorem xorSum_succ (f : Nat → Nat) (n : Nat) : xorSum f (n+1) = xorSum f n ^^^ f n := by
  rw [xorSum, List.range_succ, List.foldl_append]
  rfl

theorem xorSum_congr {f g : Nat → Nat} {n : Nat} (h : ∀ k, k < n → f k = g k) :
    xorSum f n = xorSum g n := by
  induction n with
  | zero => rfl
  | succ n ih =>
    rw [xorSum_succ, xorSum_succ, ih fun k hk => h k (by omega), h n (by omega)]

theorem xorSum_lt {f : Nat → Nat} {n w : Nat} (h : ∀ k, k < n → f k < 2^w) :
    xorSum f n < 2^w := by
  induction n with
  | zero => exact Nat.two_pow_pos w
  | succ n ih =>
    rw [xorSum_succ]
    exact Nat.xor_lt_two_pow (ih fun k hk => h k (by omega)) (h n (by omega))

/-- A sum with one word replaced. -/
theorem xorSum_replace {f g : Nat → Nat} {n i : Nat} (hi : i < n)
    (h : ∀ k, k < n → k ≠ i → g k = f k) :
    xorSum g n = xorSum f n ^^^ (f i ^^^ g i) := by
  induction n with
  | zero => omega
  | succ n ih =>
    rw [xorSum_succ, xorSum_succ]
    by_cases hn : i = n
    · subst hn
      rw [xorSum_congr fun k hk => h k (by omega) (by omega)]
      calc
        xorSum f i ^^^ g i = xorSum f i ^^^ ((f i ^^^ f i) ^^^ g i) := by simp
        _ = xorSum f i ^^^ f i ^^^ (f i ^^^ g i) := by
          simp only [Nat.xor_assoc]
    · rw [ih (by omega) fun k hk => h k (by omega), h n (by omega) fun he => hn he.symm]
      simp only [Nat.xor_assoc, Nat.xor_comm (f n)]

theorem xor_complement {s w : Nat} (h : s < 2^w) : s ^^^ (2^w-1-s) = 2^w-1 := by
  have hsub : 2^w-1-s = 2^w-(s+1) := by omega
  rw [hsub]
  apply Nat.eq_of_testBit_eq
  intro i
  rw [Nat.testBit_xor, Nat.testBit_two_pow_sub_succ h, Nat.testBit_two_pow_sub_one]
  by_cases hi : i < w
  · cases s.testBit i <;> simp [hi]
  · rw [Nat.testBit_lt_two_pow (Nat.lt_of_lt_of_le h (Nat.pow_le_pow_right (by omega) (by omega)))]
    simp [hi]

section Balanced
variable {f g : Nat → Nat} {n i w : Nat}

/-- A zero word becomes the complement of the sum. -/
theorem balanced_complement (hi : i < n) (hz : f i = 0) (hlt : ∀ k, k < n → f k < 2^w)
    (h : ∀ k, k < n → k ≠ i → g k = f k) (hg : g i = 2^w-1-xorSum f n) :
    xorSum g n = 2^w-1 := by
  rw [xorSum_replace hi h, hz, Nat.zero_xor, hg]
  exact xor_complement (xorSum_lt hlt)

/-- A word changes, and the sum word with it. -/
theorem xorSum_update {j : Nat} (hi : i < n) (hj : j < n) (hij : i ≠ j)
    (h : ∀ k, k < n → k ≠ i → k ≠ j → g k = f k) (hg : g i = f i ^^^ f j ^^^ g j) :
    xorSum g n = xorSum f n := by
  have hf : ∀ k, k < n → k ≠ i → g k = (fun k => if k = j then g j else f k) k := by
    intro k hk hki
    by_cases hkj : k = j
    · simp [hkj]
    · simp [hkj, h k hk hki hkj]
  rw [xorSum_replace hi hf]
  have hmid : xorSum (fun k => if k = j then g j else f k) n = xorSum f n ^^^ (f j ^^^ g j) := by
    rw [xorSum_replace (f := f) hj fun k _ hkj => by simp [hkj]]
    simp
  rw [hmid]
  simp only [hij, if_false, hg]
  calc
    xorSum f n ^^^ (f j ^^^ g j) ^^^ (f i ^^^ (f i ^^^ f j ^^^ g j))
        = xorSum f n ^^^ (f j ^^^ g j) ^^^ ((f i ^^^ f i) ^^^ (f j ^^^ g j)) := by
          simp only [Nat.xor_assoc]
    _ = xorSum f n ^^^ ((f j ^^^ g j) ^^^ (f j ^^^ g j)) := by
          rw [Nat.xor_self, Nat.zero_xor, Nat.xor_assoc]
    _ = xorSum f n := by rw [Nat.xor_self, Nat.xor_zero]

end Balanced

end Lib.XorSum
