import Mathlib.Algebra.Ring.Nat
import Mathlib.Data.List.Basic
import Mathlib.Tactic.SplitIfs

/-! Memory by address: what is read from it, what storing bytes makes of it, and arrays as such a
memory. The addresses of a device have 32 bits and wrap. -/
namespace Lib.Memory

abbrev Mem := Nat → UInt8

/-- The `n` bytes from `pos` on. -/
def slice (mem : Mem) (pos n : Nat) : List UInt8 := (List.range n).map fun i => mem (pos+i)

@[simp] theorem length_slice (mem : Mem) (pos n : Nat) : (slice mem pos n).length = n := by
  simp [slice]

theorem slice_add (mem : Mem) (pos m n : Nat) :
    slice mem pos (m+n) = slice mem pos m ++ slice mem (pos+m) n := by
  simp only [slice, List.range_add, List.map_append, List.map_map]
  congr 2
  funext i
  simp [Nat.add_assoc]

theorem slice_getElem? (mem : Mem) (pos n i : Nat) :
    (slice mem pos n)[i]? = if i < n then some (mem (pos+i)) else none := by
  rw [slice, List.getElem?_map]
  by_cases h : i < n
  · simp [h]
  · simp [h]

/-- What a copy of bytes to `pos` makes of the memory. -/
def store (mem : Mem) (pos : Nat) (bs : List UInt8) : Mem := fun i =>
  if pos ≤ i then bs[i-pos]?.getD (mem i) else mem i

theorem store_inside {mem : Mem} {pos i : Nat} {bs : List UInt8} {b : UInt8}
    (h : bs[i]? = some b) : store mem pos bs (pos+i) = b := by
  simp [store, h]

/-- What is stored is what is read there. -/
theorem slice_store (mem : Mem) (pos : Nat) (bs : List UInt8) :
    slice (store mem pos bs) pos bs.length = bs := by
  apply List.ext_getElem?
  intro i
  rw [slice_getElem?]
  split_ifs with h
  · rw [store_inside (List.getElem?_eq_getElem h), List.getElem?_eq_getElem h]
  · rw [List.getElem?_eq_none (by omega)]

theorem store_outside {mem : Mem} {pos i : Nat} {bs : List UInt8}
    (h : i < pos ∨ pos+bs.length ≤ i) : store mem pos bs i = mem i := by
  rw [store]
  split_ifs with hi
  · rw [List.getElem?_eq_none (by omega)]
    rfl
  · rfl

section Arrays

/-- The bytes of a list, and zeros after it. -/
def ofList (bs : List UInt8) : Mem := fun i => bs[i]?.getD 0

theorem getElem?_of_ofList {bs cs : List UInt8} {i : Nat} (hlen : bs.length = cs.length)
    (h : ofList bs i = ofList cs i) : bs[i]? = cs[i]? := by
  by_cases hi : i < bs.length
  · have hc : i < cs.length := hlen ▸ hi
    simpa [ofList, List.getElem?_eq_getElem hi, List.getElem?_eq_getElem hc] using h
  · rw [List.getElem?_eq_none (by omega), List.getElem?_eq_none (by omega)]

/-- Bytes that were read elsewhere, read again. -/
theorem slice_ofList_slice {mem : Mem} {pos n i k : Nat} (h : i+k ≤ n) :
    slice (ofList (slice mem pos n)) i k = slice mem (pos+i) k := by
  apply List.ext_getElem?
  intro j
  rw [slice_getElem?, slice_getElem?]
  split_ifs with hj
  · have hlt : i+j < n := by omega
    rw [ofList, slice_getElem?, if_pos hlt, Nat.add_assoc]
    rfl
  · rfl

theorem slice_ofList_append (x s : List UInt8) {n : Nat} (h : n ≤ x.length) :
    slice (ofList (x ++ s)) 0 n = slice (ofList x) 0 n := by
  apply List.ext_getElem?
  intro i
  rw [slice_getElem?, slice_getElem?]
  split_ifs with hi
  · rw [Nat.zero_add, ofList, ofList, List.getElem?_append_left (by omega)]
  · rfl

/-- The bytes from `pos` on are replaced. -/
def splice (bs : List UInt8) (pos : Nat) (xs : List UInt8) : List UInt8 :=
  bs.take pos ++ (xs ++ bs.drop (pos+xs.length))

variable {bs xs : List UInt8} {pos : Nat}

theorem length_splice (h : pos+xs.length ≤ bs.length) : (splice bs pos xs).length = bs.length := by
  simp only [splice, List.length_append, List.length_take, List.length_drop]
  omega

theorem getElem?_splice (h : pos+xs.length ≤ bs.length) (i : Nat) :
    (splice bs pos xs)[i]? = if pos ≤ i ∧ i < pos+xs.length then xs[i-pos]? else bs[i]? := by
  have hmin : min pos bs.length = pos := Nat.min_eq_left (by omega)
  rw [splice, List.getElem?_append, List.getElem?_append]
  simp only [List.length_take, List.getElem?_take, List.getElem?_drop, hmin]
  by_cases h1 : i < pos
  · have h2 : ¬(pos ≤ i ∧ i < pos+xs.length) := by omega
    simp [h1, h2]
  · by_cases h2 : i-pos < xs.length
    · have h3 : pos ≤ i ∧ i < pos+xs.length := by omega
      simp [h1, h2, h3]
    · have h3 : ¬(pos ≤ i ∧ i < pos+xs.length) := by omega
      have h4 : pos+xs.length+(i-pos-xs.length) = i := by omega
      simp [h1, h2, h3, h4]

theorem ofList_splice (h : pos+xs.length ≤ bs.length) (i : Nat) : ofList (splice bs pos xs) i =
    if pos ≤ i ∧ i < pos+xs.length then ofList xs (i-pos) else ofList bs i := by
  simp only [ofList, getElem?_splice h]
  split_ifs <;> rfl

theorem ofList_set {i : Nat} (h : i < bs.length) (x : UInt8) (j : Nat) :
    ofList (bs.set i x) j = if j = i then x else ofList bs j := by
  simp only [ofList, List.getElem?_set]
  by_cases hj : i = j
  · subst hj
    simp [h]
  · simp [hj, Ne.symm hj]

end Arrays

section Device

abbrev Device := UInt32 → UInt8

def Device.read (t : Device) (addr : UInt32) (n : Nat) : List UInt8 :=
  (List.range n).map fun i => t (addr+UInt32.ofNat i)

def Device.write (t : Device) (addr : UInt32) (bs : List UInt8) : Device := fun a =>
  bs[(a-addr).toNat]?.getD (t a)

variable {t : Device} {addr : UInt32} {bs : List UInt8}

theorem offset_toNat {i j : Nat} (hj : j < 2^32) :
    (addr+UInt32.ofNat i-(addr+UInt32.ofNat j)).toNat = (i+(2^32-j))%2^32 := by
  simp only [UInt32.toNat_sub, UInt32.toNat_add, UInt32.toNat_ofNat']
  omega

/-- A write seen from a place before it. -/
theorem write_at {i off : Nat} (hi : i < 2^32) (ho : off+bs.length ≤ 2^32) (ho' : off < 2^32) :
    t.write (addr+UInt32.ofNat off) bs (addr+UInt32.ofNat i) =
      if off ≤ i ∧ i < off+bs.length then ofList bs (i-off) else t (addr+UInt32.ofNat i) := by
  rw [Device.write, offset_toNat ho']
  split_ifs with h
  · have hmod : (i+(2^32-off))%2^32 = i-off := by omega
    have hlt : i-off < bs.length := by omega
    rw [hmod, ofList, List.getElem?_eq_getElem hlt]
    rfl
  · have hmod : bs.length ≤ (i+(2^32-off))%2^32 := by omega
    rw [List.getElem?_eq_none hmod]
    rfl

theorem write_outside {a : UInt32} (h : bs.length ≤ (a-addr).toNat) : t.write addr bs a = t a := by
  rw [Device.write, List.getElem?_eq_none h]
  rfl

/-- Two writes one behind the other are one write. -/
theorem write_append (t : Device) (addr : UInt32) {u v : List UInt8} (hu : u.length < 2^32)
    (h : u.length+v.length ≤ 2^32) :
    (t.write addr u).write (addr+UInt32.ofNat u.length) v = t.write addr (u ++ v) := by
  funext a
  have ho : (a-(addr+UInt32.ofNat u.length)).toNat =
      ((a-addr).toNat+(2^32-u.length))%2^32 := by
    have h1 := addr.toNat_lt
    have h2 := a.toNat_lt
    simp only [UInt32.toNat_sub, UInt32.toNat_add, UInt32.toNat_ofNat']
    omega
  have hlt := (a-addr).toNat_lt
  rw [Device.write, Device.write, Device.write, ho, List.getElem?_append]
  split_ifs with hin
  · rw [List.getElem?_eq_none (by omega)]
    rfl
  · have hmod : ((a-addr).toNat+(2^32-u.length))%2^32 = (a-addr).toNat-u.length := by omega
    have hnone : u[(a-addr).toNat]? = none := List.getElem?_eq_none (by omega)
    rw [hmod, hnone]
    rfl

/-- Bytes of a buffer that are written in two pieces. -/
theorem write_slice {mem : Mem} {pos m n : Nat} (hm : m ≤ n) (hn : n < 2^32) :
    (t.write addr (slice mem pos m)).write (addr+UInt32.ofNat m) (slice mem (pos+m) (n-m)) =
      t.write addr (slice mem pos n) := by
  have hsum : n = m+(n-m) := by omega
  have hlen := length_slice mem pos m
  have happ := @write_append t addr (slice mem pos m) (slice mem (pos+m) (n-m)) (by omega)
    (by rw [hlen, length_slice]; omega)
  rw [hlen, ← slice_add, ← hsum] at happ
  exact happ

theorem length_read (n : Nat) : (t.read addr n).length = n := by
  simp [Device.read]

theorem read_add (t : Device) (addr : UInt32) (m n : Nat) :
    t.read addr (m+n) = t.read addr m ++ t.read (addr+UInt32.ofNat m) n := by
  simp only [Device.read, List.range_add, List.map_append, List.map_map]
  congr 2
  funext i
  simp [UInt32.ofNat_add, UInt32.add_assoc]

theorem read_getElem? (n i : Nat) :
    (t.read addr n)[i]? = if i < n then some (t (addr+UInt32.ofNat i)) else none := by
  rw [Device.read, List.getElem?_map]
  by_cases h : i < n
  · simp [h]
  · simp [h]

end Device

end Lib.Memory
