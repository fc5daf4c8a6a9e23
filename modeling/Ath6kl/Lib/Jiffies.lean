import Mathlib.Data.Nat.Notation
import Mathlib.Data.Int.Init
import Mathlib.Algebra.Group.Nat.Defs

/-! Time as the Linux kernel counts it: ticks of a clock of `hz` ticks a second in an `unsigned
long` of so many bits. -/
namespace Lib.Jiffies

structure Clock where
  hz : Nat
  bits : Nat
  hz_pos : 0<hz
  hz_lt : hz<2^11
  bits_ge : 32 ≤ bits

/-- A hundred ticks a second in 32 bits. -/
instance : Inhabited Clock := ⟨⟨100, 32, by decide, by decide, by decide⟩⟩

variable (c : Clock)

/-- `msecs_to_jiffies`: rounded up; what is negative as an `int` is a very long time. -/
def Clock.msecsToJiffies (m : Nat) : Nat :=
  if 2^31 ≤ m then 2^(c.bits-2)-2 else (m*c.hz + 999) / 1000

/-- The modulus of the tick count. -/
def Clock.wrap : Nat := 2^c.bits

/-- `time_after_eq`: the difference is not negative as a `long`. -/
def Clock.timeAfterEq (a b : Nat) : Bool := decide (((a:Int)-b) % c.wrap < (2^(c.bits-1) : Nat))

/-- `time_after`: the difference is negative as a `long`. -/
def Clock.timeAfter (a b : Int) : Bool := decide ((2^(c.bits-1) : Nat) ≤ (b-a) % c.wrap)

variable {c}

theorem Clock.wrap_eq : c.wrap = 2*2^(c.bits-1) := by
  have hb := c.bits_ge
  rw [Clock.wrap, ← Nat.pow_succ']
  congr 1
  omega

theorem Clock.half_ge : 2^31 ≤ 2^(c.bits-1) := by
  have hb := c.bits_ge
  exact Nat.pow_le_pow_right (by omega) (by omega)

section Msecs
variable {m n : Nat}

theorem Clock.msecsToJiffies_eq (h : m<2^31) : c.msecsToJiffies m = (m*c.hz + 999) / 1000 :=
  if_neg (Nat.not_le.mpr h)

@[simp] theorem Clock.msecsToJiffies_zero : c.msecsToJiffies 0 = 0 := by
  simp [Clock.msecsToJiffies]

/-- Nothing is lost. -/
theorem Clock.mul_hz_le (h : m<2^31) : m*c.hz ≤ 1000 * c.msecsToJiffies m := by
  rw [Clock.msecsToJiffies_eq h]
  omega

theorem Clock.lt_mul_hz (h : m<2^31) : 1000 * c.msecsToJiffies m < m*c.hz + 1000 := by
  rw [Clock.msecsToJiffies_eq h]
  omega

/-- A second is a tick at least. -/
theorem Clock.msecsToJiffies_lt (hn : n<2^31) (h : m+1000 ≤ n) :
    c.msecsToJiffies m < c.msecsToJiffies n := by
  have hmul : (m+1000)*c.hz ≤ n*c.hz := Nat.mul_le_mul_right _ h
  have hz := c.hz_pos
  rw [Nat.add_mul] at hmul
  rw [Clock.msecsToJiffies_eq hn, Clock.msecsToJiffies_eq (by omega)]
  omega

/-- A time below a million seconds is at most half the count. -/
theorem Clock.msecsToJiffies_le_half (h : m ≤ 1000000000) :
    c.msecsToJiffies m ≤ 2^(c.bits-1) := by
  have hz := c.hz_lt
  have hhalf := c.half_ge
  have hmul : m*c.hz ≤ 1000000000*2047 := Nat.mul_le_mul h (by omega)
  rw [Clock.msecsToJiffies_eq (by omega)]
  omega

end Msecs

section TimeAfter
variable {a b : Nat}

/-- A time that has come is seen as such for half the count. -/
theorem Clock.timeAfterEq_iff_of_le (h : b ≤ a) (hd : a<b + c.wrap) :
    c.timeAfterEq a b = true ↔ a<b + 2^(c.bits-1) := by
  rw [Clock.timeAfterEq, decide_eq_true_eq, Int.emod_eq_of_lt (by omega) (by omega)]
  omega

theorem Clock.timeAfterEq_of_lt (h : a<b) (hd : b ≤ a + 2^(c.bits-1)) :
    c.timeAfterEq a b = false := by
  have hw := c.wrap_eq
  have hmod : ((a:Int)-b) % c.wrap = (a:Int)-b + c.wrap := by
    rw [← Int.add_emod_right, Int.emod_eq_of_lt (by omega) (by omega)]
  rw [Clock.timeAfterEq, decide_eq_false_iff_not, hmod]
  omega

end TimeAfter

end Lib.Jiffies
