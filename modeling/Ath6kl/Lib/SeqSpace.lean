import Mathlib.Data.Int.ModEq
import Mathlib.Tactic.Ring

/-! Cyclic sequence numbers: residues of a modulus with a forward distance.
Nothing here depends on a particular modulus or window. -/
namespace Lib.SeqSpace

/-- The residue of an integer expression over sequence numbers. -/
def mask (N : Nat) (x : Int) : Nat := (x % (N:Int)).toNat

/-- How far `b` lies ahead of `a`. -/
def fwd (N a b : Nat) : Nat := mask N ((b:Int)-(a:Int))

variable {N a b d w : Nat}

theorem mask_cast (hN : 0<N) (x : Int) : ((mask N x : Nat):Int) = x % (N:Int) :=
  Int.toNat_of_nonneg (Int.emod_nonneg x (by omega))

theorem mask_lt (hN : 0<N) (x : Int) : mask N x < N := by
  have h := Int.emod_lt_of_pos x (b := (N:Int)) (by omega)
  have hc := mask_cast hN x
  omega

theorem fwd_lt (hN : 0<N) : fwd N a b < N := mask_lt hN _

theorem add_fwd_mod (hN : 0<N) : (a + fwd N a b) % N = b % N := by
  have h : ((a + fwd N a b : Nat):Int) % (N:Int) = ((b:Nat):Int) % (N:Int) := by
    push_cast
    rw [fwd, mask_cast hN, Int.add_emod_emod]
    congr 1
    ring
  exact_mod_cast h

/-- A distance below the modulus is determined by the residue it reaches. -/
theorem fwd_unique (hN : 0<N) (hd : d<N) (h : (a+d) % N = b % N) : fwd N a b = d := by
  have hr : (a + fwd N a b) % N = (a+d) % N := (add_fwd_mod hN).trans h.symm
  have hm : fwd N a b ≡ d [MOD N] := Nat.ModEq.add_left_cancel' a hr
  have he : fwd N a b % N = d % N := hm
  rwa [Nat.mod_eq_of_lt (fwd_lt hN), Nat.mod_eq_of_lt hd] at he

@[simp] theorem fwd_self (hN : 0<N) : fwd N a a = 0 := fwd_unique hN hN rfl

/-- Moving the origin forward by at most the distance shortens it by that much. -/
theorem fwd_advance (hN : 0<N) {a' k : Nat} (ha : a' % N = (a+k) % N)
    (hk : k ≤ fwd N a b) : fwd N a' b = fwd N a b - k := by
  refine fwd_unique hN (lt_of_le_of_lt (Nat.sub_le _ _) (fwd_lt hN)) ?_
  rw [Nat.add_mod, ha, ← Nat.add_mod, Nat.add_assoc, Nat.add_sub_cancel' hk]
  exact add_fwd_mod hN

/-- Slots of a ring whose size divides the modulus follow the distance. -/
theorem slot_fwd (hN : 0<N) (hw : w ∣ N) : (a + fwd N a b) % w = b % w := by
  have h := add_fwd_mod (a := a) (b := b) hN
  have hm := congrArg (· % w) h
  simpa only [Nat.mod_mod_of_dvd _ hw] using hm

/-- Inside one lap of the ring a slot determines the distance. -/
theorem fwd_of_slot (hN : 0<N) (hw : w ∣ N) {c : Nat} (hb : fwd N a b < w)
    (hc : fwd N a c < w) (h : b % w = c % w) : fwd N a b = fwd N a c := by
  rw [← slot_fwd (a := a) (b := b) hN hw, ← slot_fwd (a := a) (b := c) hN hw] at h
  have hm : fwd N a b ≡ fwd N a c [MOD w] := Nat.ModEq.add_left_cancel' a h
  have he : fwd N a b % w = fwd N a c % w := hm
  rwa [Nat.mod_eq_of_lt hb, Nat.mod_eq_of_lt hc] at he

end Lib.SeqSpace
