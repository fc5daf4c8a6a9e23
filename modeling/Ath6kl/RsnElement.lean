import Ath6kl.Lib.LittleEndian
import Ath6kl.Lib.Tlv
import Mathlib.Data.UInt

/-! What the driver takes from an RSN element (cfg80211.c): `ath6kl_set_rsn_cap` and
`ath6kl_set_akm_suites`, against the layout of the element. -/
namespace Ath6kl.RsnElement
open Lib.LittleEndian Lib.Tlv

/-- `WLAN_EID_RSN`, `ATH6KL_RSN_CAP_NULLCONF`. -/
def eidRsn : UInt8 := 48
def rsnCapNullconf : Nat := 0xffff

/-- `ath6kl_is_rsn_ie`. -/
def isRsnIe (mem : Memory) (pos : Nat) : Bool := mem pos == eidRsn

/-- `pos[1]`. -/
def len (mem : Memory) (pos : Nat) : Nat := (mem (pos+1)).toNat

/-- The first `offset` of both functions: behind the pairwise suites. -/
def offset (mem : Memory) (pos : Nat) : Nat := pos + (1+1+2+4+2) + (mem (pos+8)).toNat*4

section Cap

/-- The second `offset` of `ath6kl_set_rsn_cap`. -/
def capOffset (mem : Memory) (pos : Nat) : Nat :=
  offset mem pos + (2 + (mem (offset mem pos)).toNat*4)

/-- `ath6kl_set_rsn_cap` at an RSN element: `rsn_cap`, if it is set, and what is read. -/
def rsnCapAt (mem : Memory) (pos : Nat) : Option Nat × List Nat :=
  if len mem pos ≤ 18 then (none, [pos, pos+1])
  else if capOffset mem pos > pos + (len mem pos + 2) then
    (none, [pos, pos+1, pos+8, offset mem pos, pos+1])
  else
    (some (value [mem (capOffset mem pos), mem (capOffset mem pos + 1)]),
      [pos, pos+1, pos+8, offset mem pos, pos+1, capOffset mem pos, capOffset mem pos + 1])

/-- The state is what the first RSN element gave. -/
def capWalker (mem : Memory) : Walker (Option (Option Nat)) where
  body pos s :=
    if isRsnIe mem pos then
      let r := rsnCapAt mem pos
      (some r.1, r.2)
    else (s, [pos])
  leaves s := s.isSome
  kept _ := []

def capWalk (mem : Memory) (iesLen : Nat) : Walked (Option (Option Nat)) :=
  (capWalker mem).checkedWalk mem iesLen 0 none

/-- The capabilities that `ath6kl_set_rsn_cap` sends; `ret` is what `ath6kl_wmi_get_rsn_cap`
returns. -/
def setRsnCap (mem : Memory) (iesLen : Nat) (ret : Int) : Option Nat :=
  let rsnCap := (capWalk mem iesLen).state.join.getD rsnCapNullconf
  if rsnCap ≠ rsnCapNullconf ∧ ret = 0 then some rsnCap else none

end Cap

section Akm

/-- `n_akm_suites` and `akm_suites[0]`, if they are set, and whether the loop has left. -/
structure Akm where
  suites : Option (Nat × Nat) := none
  left : Bool := false

/-- `ath6kl_set_akm_suites` at an RSN element. -/
def akmAt (mem : Memory) (pos : Nat) : Akm × List Nat :=
  if len mem pos ≤ 18 then ({ left := true }, [pos, pos+1])
  else
    let o := offset mem pos
    if mem o ≠ 0 then
      ({ suites := some ((mem o).toNat, value [mem (o+5), mem (o+4), mem (o+3), mem (o+2)])
         left := true },
        [pos, pos+1, pos+8, o, o, o+2, o+3, o+4, o+5])
    else ({}, [pos, pos+1, pos+8, o])

def akmWalker (mem : Memory) : Walker Akm where
  body pos s := if isRsnIe mem pos then akmAt mem pos else (s, [pos])
  leaves s := s.left
  kept _ := []

def akmWalk (mem : Memory) (iesLen : Nat) : Walked Akm :=
  (akmWalker mem).checkedWalk mem iesLen 0 {}

/-- What `ath6kl_set_akm_suites` stores. -/
def setAkmSuites (mem : Memory) (iesLen : Nat) : Option (Nat × Nat) :=
  (akmWalk mem iesLen).state.suites

end Akm

theorem rsn_walks_end (mem : Memory) (iesLen : Nat) :
    (capWalk mem iesLen).finished = true ∧ (akmWalk mem iesLen).finished = true :=
  ⟨(capWalker mem).checkedWalk_finished mem iesLen 0 none,
    (akmWalker mem).checkedWalk_finished mem iesLen 0 {}⟩

/-! The element by its layout: version, group suite, pairwise count and list, AKM count and list,
capabilities. -/
section Layout

def pairwiseCount (mem : Memory) (pos : Nat) : Nat := value [mem (pos+8), mem (pos+9)]

def akmField (mem : Memory) (pos : Nat) : Nat := pos + 10 + 4*pairwiseCount mem pos

def akmCount (mem : Memory) (pos : Nat) : Nat :=
  value [mem (akmField mem pos), mem (akmField mem pos + 1)]

def capField (mem : Memory) (pos : Nat) : Nat := akmField mem pos + 2 + 4*akmCount mem pos

def layoutCap (mem : Memory) (pos : Nat) : Option Nat :=
  if capField mem pos + 2 ≤ next mem pos then
    some (value [mem (capField mem pos), mem (capField mem pos + 1)])
  else none

/-- The number of AKM suites and the first of an element that has the list. -/
def layoutAkm (mem : Memory) (pos : Nat) : Option (Nat × Nat) :=
  let a := akmField mem pos
  if akmCount mem pos ≠ 0 ∧ capField mem pos ≤ next mem pos then
    some (akmCount mem pos, value [mem (a+5), mem (a+4), mem (a+3), mem (a+2)])
  else none

end Layout

/-- Nothing outside the element is read. -/
def InElement (mem : Memory) (pos : Nat) (reads : List Nat) : Prop :=
  ∀ r∈reads, pos ≤ r ∧ r<next mem pos

def firstRsn (mem : Memory) (iesLen : Nat) : Option Nat :=
  (wholes mem iesLen 0).find? (isRsnIe mem)

/-- What `ath6kl_set_rsn_cap` reads and sends is as the layout has it. -/
structure CapRight (mem : Memory) (iesLen : Nat) : Prop where
  string : ∀ r∈(capWalk mem iesLen).reads, r < iesLen
  element : ∀ pos∈firstRsn mem iesLen, InElement mem pos (rsnCapAt mem pos).2
  sent : ∀ ret, setRsnCap mem iesLen ret =
    if ret = 0 then (firstRsn mem iesLen).bind (layoutCap mem) else none

/-- The RSN elements that `ath6kl_set_akm_suites` comes to. -/
def akmSeen (mem : Memory) : List Nat → List Nat
  | [] => []
  | pos::rest =>
    if isRsnIe mem pos then
      pos::if (akmAt mem pos).1.left then [] else akmSeen mem rest
    else akmSeen mem rest

structure AkmRight (mem : Memory) (iesLen : Nat) : Prop where
  string : ∀ r∈(akmWalk mem iesLen).reads, r < iesLen
  element : ∀ pos∈akmSeen mem (wholes mem iesLen 0), InElement mem pos (akmAt mem pos).2
  stored : setAkmSuites mem iesLen =
    (akmSeen mem (wholes mem iesLen 0)).findSome? (layoutAkm mem)

/-- Both counts are below 256. -/
def Short (mem : Memory) (pos : Nat) : Prop := mem (pos+9) = 0 ∧ mem (offset mem pos + 1) = 0

/-- An element of at most 18 bytes has no capabilities, and in a longer one the AKM count is
inside and the capabilities are inside, or begin past the end; then both counts are below 256 and
the capabilities are not the value for none. -/
def CapOk (mem : Memory) (pos : Nat) : Prop :=
  if len mem pos ≤ 18 then next mem pos < capField mem pos + 2
  else offset mem pos < next mem pos ∧ (next mem pos < capOffset mem pos ∨
    capOffset mem pos + 2 ≤ next mem pos ∧
      (Short mem pos ↔
        value [mem (capOffset mem pos), mem (capOffset mem pos + 1)] ≠ rsnCapNullconf))

/-- An element of at most 18 bytes has no AKM suites, and in a longer one the count is inside, and
if it is not 0 then so is the list, and both counts are below 256. -/
def AkmOk (mem : Memory) (pos : Nat) : Prop :=
  if len mem pos ≤ 18 then akmCount mem pos = 0 ∨ next mem pos < capField mem pos
  else offset mem pos < next mem pos ∧ (mem (offset mem pos) = 0 ∨
    capOffset mem pos ≤ next mem pos ∧ Short mem pos)

section Element
variable {mem : Memory} {pos : Nat}

theorem next_eq (mem : Memory) (pos : Nat) : next mem pos = pos + (len mem pos + 2) := by
  rw [next, len]
  omega

theorem len_lt (mem : Memory) (pos : Nat) : len mem pos < 256 := (mem (pos+1)).toNat_lt

theorem toNat_eq_zero {b : UInt8} : b.toNat = 0 ↔ b = 0 := UInt8.toNat_inj (b := 0)

theorem toNat_pos {b : UInt8} (h : b ≠ 0) : 0<b.toNat :=
  Nat.pos_of_ne_zero fun h0 => h (toNat_eq_zero.mp h0)

theorem akmField_of_short (h : mem (pos+9) = 0) : akmField mem pos = offset mem pos := by
  simp only [akmField, pairwiseCount, offset, value, h, UInt8.toNat_zero]
  omega

theorem capField_of_short (h : Short mem pos) : capField mem pos = capOffset mem pos := by
  obtain ⟨hpair, hakm⟩ := h
  simp only [capField, capOffset, akmCount, akmField_of_short hpair, value, hakm, UInt8.toNat_zero]
  omega

theorem next_lt_capField (h : ¬Short mem pos) : next mem pos < capField mem pos := by
  have hlen := len_lt mem pos
  have hnext := next_eq mem pos
  by_cases hpair : mem (pos+9) = 0
  · have hakm : mem (offset mem pos + 1) ≠ 0 := fun h0 => h ⟨hpair, h0⟩
    have hpos := toNat_pos hakm
    simp only [capField, akmCount, akmField_of_short hpair, value]
    simp only [offset]
    simp only [offset] at hpos
    omega
  · have hpos := toNat_pos hpair
    simp only [capField, akmField, pairwiseCount, value]
    omega

theorem layoutCap_of_not_short (h : ¬Short mem pos) : layoutCap mem pos = none := by
  have hlt := next_lt_capField h
  rw [layoutCap, if_neg (by omega)]

/-- `rsn_cap` is sent unless it is the value for none. -/
def sentCap (cap : Option Nat) : Option Nat :=
  if cap.getD rsnCapNullconf ≠ rsnCapNullconf then some (cap.getD rsnCapNullconf) else none

theorem layoutCap_eq_none_iff :
    layoutCap mem pos = none ↔ next mem pos < capField mem pos + 2 := by
  by_cases h : capField mem pos + 2 ≤ next mem pos
  · simp [layoutCap, h]
  · simp [layoutCap, h, Nat.not_le.mp h]

theorem capAt_iff : (InElement mem pos (rsnCapAt mem pos).2 ∧
    sentCap (rsnCapAt mem pos).1 = layoutCap mem pos) ↔ CapOk mem pos := by
  have hnext := next_eq mem pos
  by_cases hlen : len mem pos ≤ 18
  · simp only [rsnCapAt, hlen, if_true, CapOk]
    rw [← layoutCap_eq_none_iff]
    simp [InElement, sentCap, eq_comm]
    omega
  · have hoff : pos ≤ offset mem pos := by
      rw [offset]
      omega
    have hcap : offset mem pos + 2 ≤ capOffset mem pos := by
      rw [capOffset]
      omega
    simp only [CapOk, if_neg hlen]
    by_cases hpast : capOffset mem pos > pos + (len mem pos + 2)
    · have hnone : layoutCap mem pos = none := by
        by_cases hs : Short mem pos
        · rw [layoutCap_eq_none_iff, capField_of_short hs]
          omega
        · exact layoutCap_of_not_short hs
      simp only [rsnCapAt, if_neg hlen, if_pos hpast, hnone]
      simp [InElement, sentCap]
      omega
    · have hin : InElement mem pos (rsnCapAt mem pos).2 ↔ capOffset mem pos + 2 ≤ next mem pos := by
        simp only [rsnCapAt, if_neg hlen, if_neg hpast]
        simp [InElement]
        omega
      rw [hin]
      simp only [rsnCapAt, if_neg hlen, if_neg hpast]
      by_cases hfit : capOffset mem pos + 2 ≤ next mem pos
      · have hlt : ¬next mem pos < capOffset mem pos := by omega
        have hoff' : offset mem pos < next mem pos := by omega
        simp only [hfit, hlt, hoff', true_and, false_or]
        by_cases hs : Short mem pos
        · simp [layoutCap, capField_of_short hs, hfit, sentCap, hs]
        · simp [layoutCap_of_not_short hs, sentCap, hs]
      · have hlt : ¬next mem pos < capOffset mem pos := by omega
        simp [hfit, hlt]

theorem layoutAkm_of_short (h : Short mem pos) : layoutAkm mem pos =
    if mem (offset mem pos) ≠ 0 ∧ capOffset mem pos ≤ next mem pos then
      some ((mem (offset mem pos)).toNat,
        value [mem (offset mem pos + 5), mem (offset mem pos + 4), mem (offset mem pos + 3),
          mem (offset mem pos + 2)])
    else none := by
  have hcount : akmCount mem pos = (mem (offset mem pos)).toNat := by
    simp [akmCount, akmField_of_short h.1, value, h.2]
  simp only [layoutAkm, hcount, capField_of_short h, akmField_of_short h.1, ne_eq,
    toNat_eq_zero]

theorem layoutAkm_eq_none_iff :
    layoutAkm mem pos = none ↔ akmCount mem pos = 0 ∨ next mem pos < capField mem pos := by
  by_cases h : akmCount mem pos ≠ 0 ∧ capField mem pos ≤ next mem pos
  · simp [layoutAkm, h]
  · simp only [layoutAkm, if_neg h, true_iff]
    omega

theorem layoutAkm_of_not_left (h : (akmAt mem pos).1.left = false) :
    (akmAt mem pos).1 = {} ∧ layoutAkm mem pos = none := by
  by_cases hlen : len mem pos ≤ 18
  · simp [akmAt, hlen] at h
  · by_cases hzero : mem (offset mem pos) = 0
    · refine ⟨by simp [akmAt, hlen, hzero], ?_⟩
      by_cases hs : Short mem pos
      · simp [layoutAkm_of_short hs, hzero]
      · exact layoutAkm_eq_none_iff.mpr (Or.inr (next_lt_capField hs))
    · simp [akmAt, hlen, hzero] at h

theorem akmAt_iff : (InElement mem pos (akmAt mem pos).2 ∧
    (akmAt mem pos).1.suites = layoutAkm mem pos) ↔ AkmOk mem pos := by
  have hnext := next_eq mem pos
  by_cases hlen : len mem pos ≤ 18
  · simp only [akmAt, hlen, if_true, AkmOk]
    rw [← layoutAkm_eq_none_iff]
    simp [InElement, eq_comm]
    omega
  · have hoff : pos ≤ offset mem pos := by
      rw [offset]
      omega
    by_cases hzero : mem (offset mem pos) = 0
    · have hgo : (akmAt mem pos).1.left = false := by simp [akmAt, hlen, hzero]
      have hnone := layoutAkm_of_not_left hgo
      rw [hnone.1, hnone.2]
      simp [akmAt, AkmOk, hlen, hzero, InElement]
      omega
    · have hpos := toNat_pos hzero
      have hin : InElement mem pos (akmAt mem pos).2 ↔ offset mem pos + 6 ≤ next mem pos := by
        simp [akmAt, hlen, hzero, InElement]
        omega
      have hsuites : (akmAt mem pos).1.suites = some ((mem (offset mem pos)).toNat,
          value [mem (offset mem pos + 5), mem (offset mem pos + 4), mem (offset mem pos + 3),
            mem (offset mem pos + 2)]) := by
        simp [akmAt, hlen, hzero]
      rw [hin, hsuites]
      simp only [AkmOk, if_neg hlen, hzero, false_or]
      by_cases hs : Short mem pos
      · rw [layoutAkm_of_short hs]
        by_cases hfit : capOffset mem pos ≤ next mem pos
        · simp [hzero, hfit, hs]
          rw [capOffset] at hfit
          omega
        · simp [hfit]
      · have hnone := layoutAkm_eq_none_iff.mpr (Or.inr (next_lt_capField hs))
        simp [hnone, hs]

theorem InElement.lt {reads : List Nat} {stop : Nat} (h : InElement mem pos reads)
    (hw : next mem pos ≤ stop) : ∀ r∈reads, r<stop := by
  intro r hr
  have hlt := (h r hr).2
  omega

end Element

section CapWalk
variable {mem : Memory}

theorem visit_capWalker (ps : List Nat) : ((capWalker mem).visit ps none).1 =
    (ps.find? (isRsnIe mem)).map fun pos => (rsnCapAt mem pos).1 :=
  Walker.visit_seeker _ _ ps

theorem visit_capWalker_reads {ps : List Nat} {stop : Nat} (hw : ∀ p∈ps, next mem p ≤ stop)
    (he : ∀ pos∈ps.find? (isRsnIe mem), InElement mem pos (rsnCapAt mem pos).2) :
    ∀ r∈((capWalker mem).visit ps none).2, r<stop := by
  have hp : ∀ p∈ps, p<stop := by
    intro p hp
    have hlt := lt_next mem p
    have hle := hw p hp
    omega
  exact Walker.visit_seeker_reads _ _ hp fun pos hpos =>
    (he pos hpos).lt (hw pos (List.mem_of_find?_eq_some hpos))

theorem setRsnCap_eq (iesLen : Nat) (ret : Int) : setRsnCap mem iesLen ret =
    if ret = 0 then (firstRsn mem iesLen).bind fun pos => sentCap (rsnCapAt mem pos).1
    else none := by
  simp only [setRsnCap, capWalk, Walker.checkedWalk_state, visit_capWalker, firstRsn]
  cases (wholes mem iesLen 0).find? (isRsnIe mem) with
  | none => simp [rsnCapNullconf]
  | some pos => by_cases hr : ret = 0 <;> simp [sentCap, hr]

theorem capRight_iff (iesLen : Nat) :
    CapRight mem iesLen ↔ ∀ pos∈firstRsn mem iesLen, CapOk mem pos := by
  constructor
  · intro h pos hpos
    have hsent := h.sent 0
    rw [setRsnCap_eq, Option.mem_def.mp hpos] at hsent
    exact capAt_iff.mp ⟨h.element pos hpos, hsent⟩
  · intro h
    have hat : ∀ pos∈firstRsn mem iesLen, InElement mem pos (rsnCapAt mem pos).2 ∧
        sentCap (rsnCapAt mem pos).1 = layoutCap mem pos :=
      fun pos hpos => capAt_iff.mpr (h pos hpos)
    refine ⟨?_, fun pos hpos => (hat pos hpos).1, fun ret => ?_⟩
    · refine ((capWalker mem).checkedWalk_reads mem iesLen 0 none).mpr ?_
      exact visit_capWalker_reads (fun p => next_le_of_mem_wholes) fun pos hpos => (hat pos hpos).1
    · rw [setRsnCap_eq]
      congr 1
      exact Option.bind_congr fun pos hpos => (hat pos hpos).2

end CapWalk

section AkmWalk
variable {mem : Memory}

theorem visit_akmWalker (ps : List Nat) : ((akmWalker mem).visit ps {}).1.suites =
    (akmSeen mem ps).findSome? fun pos => (akmAt mem pos).1.suites := by
  induction ps with
  | nil => rfl
  | cons pos rest ih =>
    by_cases h : isRsnIe mem pos = true
    · cases hleft : (akmAt mem pos).1.left with
      | true => simp [Walker.visit, akmWalker, akmSeen, h, hleft]
      | false =>
        have hgo := (layoutAkm_of_not_left hleft).1
        have hwalk : ((akmWalker mem).visit (pos::rest) {}).1 =
            ((akmWalker mem).visit rest {}).1 := by
          simp [Walker.visit, akmWalker, h, hgo]
        rw [hwalk, ih]
        simp [akmSeen, h, hgo]
    · have hwalk : ((akmWalker mem).visit (pos::rest) {}).1 =
          ((akmWalker mem).visit rest {}).1 := by
        simp [Walker.visit, akmWalker, h]
      rw [hwalk, ih]
      simp [akmSeen, h]

theorem visit_akmWalker_reads {ps : List Nat} {stop : Nat} (hw : ∀ p∈ps, next mem p ≤ stop)
    (he : ∀ pos∈akmSeen mem ps, InElement mem pos (akmAt mem pos).2) :
    ∀ r∈((akmWalker mem).visit ps {}).2, r<stop := by
  induction ps with
  | nil => simp [Walker.visit]
  | cons pos rest ih =>
    obtain ⟨hpos, hrest⟩ := List.forall_mem_cons.mp hw
    have hlt := lt_next mem pos
    by_cases h : isRsnIe mem pos = true
    · have hread := (he pos (by simp [akmSeen, h])).lt hpos
      cases hleft : (akmAt mem pos).1.left with
      | true => simpa [Walker.visit, akmWalker, h, hleft] using hread
      | false =>
        have hgo := (layoutAkm_of_not_left hleft).1
        have hwalk : ((akmWalker mem).visit (pos::rest) {}).2 =
            (akmAt mem pos).2 ++ ((akmWalker mem).visit rest {}).2 := by
          simp [Walker.visit, akmWalker, h, hgo]
        rw [hwalk, List.forall_mem_append]
        refine ⟨hread, ih hrest fun p hp => he p ?_⟩
        simp [akmSeen, h, hleft, hp]
    · have hwalk : ((akmWalker mem).visit (pos::rest) {}).2 =
          pos::((akmWalker mem).visit rest {}).2 := by
        simp [Walker.visit, akmWalker, h]
      rw [hwalk, List.forall_mem_cons]
      refine ⟨by omega, ih hrest fun p hp => he p ?_⟩
      simp [akmSeen, h, hp]

/-- The first result of all is right exactly when the result at each element is: only the last one
that the loop comes to can have one. -/
theorem findSome_akmSeen_iff (ps : List Nat) :
    ((akmSeen mem ps).findSome? fun pos => (akmAt mem pos).1.suites) =
      (akmSeen mem ps).findSome? (layoutAkm mem) ↔
      ∀ pos∈akmSeen mem ps, (akmAt mem pos).1.suites = layoutAkm mem pos := by
  induction ps with
  | nil => simp [akmSeen]
  | cons pos rest ih =>
    by_cases h : isRsnIe mem pos = true
    · cases hleft : (akmAt mem pos).1.left with
      | true => simp [akmSeen, h, hleft]
      | false =>
        obtain ⟨hgo, hnone⟩ := layoutAkm_of_not_left hleft
        simp [akmSeen, h, hgo, hnone, ih]
    · simp [akmSeen, h, ih]

theorem akmRight_iff (iesLen : Nat) :
    AkmRight mem iesLen ↔ ∀ pos∈akmSeen mem (wholes mem iesLen 0), AkmOk mem pos := by
  have hstored : setAkmSuites mem iesLen =
      (akmSeen mem (wholes mem iesLen 0)).findSome? fun pos => (akmAt mem pos).1.suites := by
    rw [setAkmSuites, akmWalk, Walker.checkedWalk_state, visit_akmWalker]
  constructor
  · intro h pos hpos
    have hsuites := h.stored
    rw [hstored, findSome_akmSeen_iff] at hsuites
    exact akmAt_iff.mp ⟨h.element pos hpos, hsuites pos hpos⟩
  · intro h
    have hat : ∀ pos∈akmSeen mem (wholes mem iesLen 0), InElement mem pos (akmAt mem pos).2 ∧
        (akmAt mem pos).1.suites = layoutAkm mem pos := fun pos hpos => akmAt_iff.mpr (h pos hpos)
    refine ⟨?_, fun pos hpos => (hat pos hpos).1, ?_⟩
    · refine ((akmWalker mem).checkedWalk_reads mem iesLen 0 {}).mpr ?_
      exact visit_akmWalker_reads (fun p => next_le_of_mem_wholes) fun pos hpos => (hat pos hpos).1
    · rw [hstored, findSome_akmSeen_iff]
      exact fun pos hpos => (hat pos hpos).2

end AkmWalk

/-- Both functions read and take what the layout has exactly when the first RSN element and the
RSN elements that the second comes to are as they expect. -/
theorem rsn_fields_iff (mem : Memory) (iesLen : Nat) :
    (CapRight mem iesLen ∧ AkmRight mem iesLen) ↔
      (∀ pos∈firstRsn mem iesLen, CapOk mem pos) ∧
        ∀ pos∈akmSeen mem (wholes mem iesLen 0), AkmOk mem pos := by
  rw [capRight_iff, akmRight_iff]

/-- An element that ends where the capabilities would begin is read past its end, and the suite of
one that ends behind its only AKM suite is not stored. -/
theorem rsn_short_elements :
    ¬CapRight (fun i => [48, 22, 1, 0, 0, 15, 172, 4, 1, 0, 0, 15, 172, 4, 2, 0, 0, 15, 172, 2,
        0, 15, 172, 6].getD i 0) 24 ∧
      ¬AkmRight (fun i => [48, 18, 1, 0, 0, 15, 172, 4, 1, 0, 0, 15, 172, 4, 1, 0, 0, 15, 172,
        2].getD i 0) 20 := by
  constructor
  · intro h
    have hread := h.string 24 (by decide)
    exact absurd hread (by decide)
  · intro h
    have hstored := h.stored
    exact absurd hstored (by decide)

end Ath6kl.RsnElement
