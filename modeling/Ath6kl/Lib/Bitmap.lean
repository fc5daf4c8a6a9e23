import Mathlib.Logic.Function.Basic

/-! Bitmaps that mirror a family of flags: one bit for each index, set and cleared through
the power of two of the index. -/
namespace Lib.Bitmap
variable {n w : Nat} {x : BitVec w} {f : Fin n → Bool} {i : Fin n} {j : Nat}

theorem getLsbD_set (hj : j < w) (k : Nat) :
    (x ||| BitVec.twoPow w k).getLsbD j = (x.getLsbD j || decide (k = j)) := by
  rw [BitVec.getLsbD_or, BitVec.getLsbD_twoPow]
  by_cases hk : k = j
  · subst hk
    simp [hj]
  · simp [hk]

theorem getLsbD_clear (hj : j < w) (k : Nat) :
    (x &&& ~~~(BitVec.twoPow w k)).getLsbD j = (x.getLsbD j && !decide (k = j)) := by
  rw [BitVec.getLsbD_and, BitVec.getLsbD_not, BitVec.getLsbD_twoPow]
  by_cases hk : k = j
  · subst hk
    simp [hj]
  · simp [hk, hj]

/-- Bit `i` of `x` is the flag of `i`. -/
def Tracks (x : BitVec w) (f : Fin n → Bool) : Prop := ∀ i : Fin n, x.getLsbD i = f i

theorem Tracks.zero : Tracks (0 : BitVec w) (fun _ : Fin n => false) := fun _ => by simp

theorem Tracks.set (hn : n ≤ w) (h : Tracks x f) :
    Tracks (x ||| BitVec.twoPow w i) (Function.update f i true) := by
  intro j
  rw [getLsbD_set (Nat.lt_of_lt_of_le j.isLt hn), h j]
  by_cases hij : j = i
  · subst hij
    simp
  · have hval : ¬ i.val = j.val := fun he => hij (Fin.ext he.symm)
    simp [hij, hval]

theorem Tracks.clear (hn : n ≤ w) (h : Tracks x f) :
    Tracks (x &&& ~~~(BitVec.twoPow w i)) (Function.update f i false) := by
  intro j
  rw [getLsbD_clear (Nat.lt_of_lt_of_le j.isLt hn), h j]
  by_cases hij : j = i
  · subst hij
    simp
  · have hval : ¬ i.val = j.val := fun he => hij (Fin.ext he.symm)
    simp [hij, hval]

end Lib.Bitmap
