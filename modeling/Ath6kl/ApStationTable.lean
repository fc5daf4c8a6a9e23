import Ath6kl.ApStation
import Ath6kl.Lib.Ledger
import Mathlib.Algebra.BigOperators.Ring.Finset
import Mathlib.Algebra.Order.BigOperators.Group.List
import Mathlib.Data.Fintype.Basic

/-! The redundant copies of the station table agree in every run; the counter of stations
without HT drifts, upwards only, and the exact events that move it are named. -/
namespace Ath6kl.ApStation
open Lib.Machine Lib.Ledger Function
variable {v w : Vif} {i j : Slot} {c : Connect} {mac : Mac}

@[simp] theorem bit_getLsbD (i j : Slot) : (bit i).getLsbD j = decide (i = j) := by
  revert i j
  decide

theorem clearBit_getLsbD (x : BitVec 16) (i j : Slot) :
    (x &&& ~~~(bit i)).getLsbD j = (x.getLsbD j && !decide (i = j)) := by
  have hlt : j.val < 16 := Nat.lt_trans j.isLt (by decide)
  rw [BitVec.getLsbD_and, BitVec.getLsbD_not, bit_getLsbD, decide_eq_true hlt, Bool.true_and]

section
variable (sta : Sta) (c : Connect)

@[simp] theorem Sta.fill_vif : (sta.fill c).vif = true := rfl
@[simp] theorem Sta.fill_aid : (sta.fill c).aid = c.aid := rfl
@[simp] theorem Sta.fill_mac : (sta.fill c).mac = c.mac := rfl
@[simp] theorem Sta.fill_assocHt : (sta.fill c).assocHt = c.htSupport := rfl
@[simp] theorem Sta.clear_vif : sta.clear.vif = false := rfl
@[simp] theorem Sta.clear_aid : sta.clear.aid = 0 := rfl
@[simp] theorem Sta.clear_mac : sta.clear.mac = zeroMac := rfl

@[simp] theorem Sta.clear_htSupport : sta.clear.htSupport = false := by
  simp [Sta.htSupport, Sta.clear]

theorem staHtSupport_or (flags : BitVec 16) :
    (flags ||| staHtSupport) &&& staHtSupport = staHtSupport := by
  ext k hk
  simp only [BitVec.getElem_and, BitVec.getElem_or]
  cases flags[k] <;> simp

@[simp] theorem Sta.fill_htSupport : (sta.fill c).htSupport = (c.htSupport || sta.htSupport) := by
  cases hc : c.htSupport with
  | false => simp only [Sta.fill, Sta.htSupport, hc, Bool.false_or]; rfl
  | true =>
    simp only [Sta.fill, Sta.htSupport, hc, if_true, staHtSupport_or, Bool.true_or]
    rfl

end

/-- The copies of the fact that slot `i` is in use. -/
structure SlotOk (v : Vif) (i : Slot) : Prop where
  used : (v.sta i).vif = true → (v.sta i).aid.toNat = i.val + 1
  idle : (v.sta i).vif = false → (v.sta i).aid = 0 ∧ (v.sta i).mac = zeroMac
  bit : v.staListIndex.getLsbD i = (v.sta i).vif
  stat : v.apStats i.castSucc = (v.sta i).aid
  ht : (v.sta i).vif = true → (v.sta i).assocHt = true → (v.sta i).htSupport = true
  flags : (v.sta i).vif = false → (v.sta i).htSupport = false

def Table (v : Vif) : Prop := ∀ i, SlotOk v i

theorem Table.used_of_mac (h : Table v) (hm : (v.sta i).mac ≠ zeroMac) :
    (v.sta i).vif = true := by
  cases hv : (v.sta i).vif with
  | true => rfl
  | false => exact absurd ((h i).idle hv).2 hm

theorem Table.fillSlot (h : Table v) (ha : c.aid.toNat = i.val + 1) :
    Table (fillSlot v i c) := by
  intro j
  by_cases hij : i = j
  · subst hij
    refine ⟨fun _ => ?_, fun hv => ?_, ?_, ?_, fun _ ht => ?_, fun hv => ?_⟩
    · simpa [ApStation.fillSlot] using ha
    · simp [ApStation.fillSlot] at hv
    · simp [ApStation.fillSlot]
    · simp [ApStation.fillSlot]
    · simp only [ApStation.fillSlot, update_self, Sta.fill_assocHt] at ht
      simp [ApStation.fillSlot, ht]
    · simp [ApStation.fillSlot] at hv
  · have hji : j ≠ i := Ne.symm hij
    have hcast : j.castSucc ≠ i.castSucc := fun he => hji (Fin.castSucc_injective _ he)
    have hj := h j
    refine ⟨?_, ?_, ?_, ?_, ?_, ?_⟩
    · simpa [ApStation.fillSlot, hji] using hj.used
    · simpa [ApStation.fillSlot, hji] using hj.idle
    · simpa [ApStation.fillSlot, hji, hij] using hj.bit
    · simpa [ApStation.fillSlot, hji, hcast] using hj.stat
    · simpa [ApStation.fillSlot, hji] using hj.ht
    · simpa [ApStation.fillSlot, hji] using hj.flags

theorem Table.clearSlot (h : Table v) : Table (clearSlot v i i.castSucc) := by
  intro j
  by_cases hij : i = j
  · subst hij
    refine ⟨fun hv => ?_, fun _ => ?_, ?_, ?_, fun hv => ?_, fun _ => ?_⟩
    · simp [ApStation.clearSlot] at hv
    · simp [ApStation.clearSlot]
    · simp [ApStation.clearSlot]
    · simp [ApStation.clearSlot]
    · simp [ApStation.clearSlot] at hv
    · simp [ApStation.clearSlot]
  · have hji : j ≠ i := Ne.symm hij
    have hcast : j.castSucc ≠ i.castSucc := fun he => hji (Fin.castSucc_injective _ he)
    have hj := h j
    refine ⟨?_, ?_, ?_, ?_, ?_, ?_⟩
    · simpa [ApStation.clearSlot, hji] using hj.used
    · simpa [ApStation.clearSlot, hji] using hj.idle
    · rw [ApStation.clearSlot, clearBit_getLsbD, hj.bit]
      simp [hji, hij]
    · simpa [ApStation.clearSlot, hji, hcast] using hj.stat
    · simpa [ApStation.clearSlot, hji] using hj.ht
    · simpa [ApStation.clearSlot, hji] using hj.flags

/-- One for a station whose latest association came without HT. -/
def noHt (sta : Sta) : ℤ := if sta.vif = true ∧ sta.assocHt = false then 1 else 0

/-- One for a station that still carries the HT flag of an earlier association. -/
def stale (sta : Sta) : Nat :=
  if sta.vif = true ∧ sta.assocHt = false ∧ sta.htSupport = true then 1 else 0

/-- How far `sta_no_ht_num` is ahead of the stations without HT. -/
def drift (v : Vif) : ℤ := v.staNoHtNum - total Finset.univ noHt v.sta

theorem drift_fillSlot (v : Vif) (i : Slot) (c : Connect) :
    drift (fillSlot v i c) = drift v + noHt (v.sta i) := by
  have hfill : noHt ((v.sta i).fill c) = if c.htSupport then 0 else 1 := by
    cases hc : c.htSupport <;> simp [noHt, hc]
  simp only [drift, fillSlot, total_update (Finset.mem_univ i), hfill]
  cases c.htSupport <;> simp <;> omega

theorem drift_clearSlot (h : Table v) (hv : (v.sta i).vif = true) :
    drift (clearSlot v i i.castSucc) = drift v + stale (v.sta i) := by
  have hclear : noHt (v.sta i).clear = 0 := by simp [noHt]
  simp only [drift, clearSlot, total_update (Finset.mem_univ i), hclear]
  cases hf : (v.sta i).htSupport with
  | true =>
    cases ha : (v.sta i).assocHt with
    | true => simp [noHt, stale, hv, ha, hf]
    | false =>
      simp [noHt, stale, hv, ha, hf]
      omega
  | false =>
    -- without the flag no association in this slot came with HT
    have ha : (v.sta i).assocHt = false := by
      cases ha : (v.sta i).assocHt with
      | false => rfl
      | true =>
        rw [(h i).ht hv ha] at hf
        cases hf
    simp [noHt, stale, hv, ha, hf]
    omega

theorem Table.staCleanup_eq (h : Table v) (hv : (v.sta i).vif = true) :
    staCleanup v i = .ok (ApStation.clearSlot v i i.castSucc) := by
  have ha := (h i).used hv
  have hi := i.isLt
  have hstat : 0 ≤ ((v.sta i).aid.toNat : Int) - 1 ∧
      ((v.sta i).aid.toNat : Int) - 1 < apMaxNumSta + 1 := by omega
  have hidx : (⟨(((v.sta i).aid.toNat : Int) - 1).toNat, by omega⟩ : Fin (apMaxNumSta+1)) =
      i.castSucc := by
    apply Fin.ext
    simp only [Fin.val_castSucc]
    omega
  simp only [staCleanup, hstat, and_self, dif_pos, hidx]

/-- What `ath6kl_remove_sta` does: the slots of `l` are cleaned up. -/
structure Swept (v w : Vif) (l : List Slot) : Prop where
  table : Table w
  sta : ∀ j, w.sta j = if j∈l then (v.sta j).clear else v.sta j
  drift : drift w = drift v + ((l.map fun i => stale (v.sta i)).sum : Nat)

theorem Swept.nil (h : Table v) : Swept v v [] := ⟨h, by simp, by simp⟩

theorem Swept.one (h : Table v) (hv : (v.sta i).vif = true) :
    Swept v (clearSlot v i i.castSucc) [i] where
  table := h.clearSlot
  sta j := by
    by_cases hij : j = i
    · subst hij
      simp [clearSlot]
    · simp [clearSlot, hij]
  drift := by
    rw [drift_clearSlot h hv]
    simp

theorem Swept.cons {l : List Slot} (hi : i∉l) (h : Swept v w [i]) {x : Vif}
    (k : Swept w x l) : Swept v x (i::l) where
  table := k.table
  sta j := by
    rw [k.sta, h.sta]
    by_cases hj : j∈l
    · have hji : j ≠ i := fun he => hi (he ▸ hj)
      simp [hj, hji]
    · by_cases hji : j = i <;> simp [hj, hji, hi]
  drift := by
    have hrest : (l.map fun k => stale (w.sta k)) = l.map fun k => stale (v.sta k) := by
      apply List.map_congr_left
      intro k hk
      have hki : k ≠ i := fun he => hi (he ▸ hk)
      rw [h.sta]
      simp [hki]
    rw [k.drift, h.drift, hrest]
    simp
    omega

/-- The slots that a disconnect event for `mac` removes. -/
def targets (v : Vif) (mac : Mac) : List Slot :=
  if mac = zeroMac then []
  else if mac = broadcastMac then
    (List.finRange apMaxNumSta).filter fun i => (v.sta i).mac ≠ zeroMac
  else ((List.finRange apMaxNumSta).find? fun i => (v.sta i).mac = mac).toList

theorem cleanupUsed_cons {r t : Vif × Bool} {l : List Slot} (h : cleanupUsed r i = .ok t) :
    (i::l).foldlM cleanupUsed r = l.foldlM cleanupUsed t := by
  rw [List.foldlM_cons, h]
  rfl

theorem cleanupUsed_spec (l : List Slot) (hl : l.Nodup) : ∀ v b, Table v →
    ∃ w, l.foldlM cleanupUsed (v, b) =
        .ok (w, b || !(l.filter fun i => (v.sta i).mac ≠ zeroMac).isEmpty) ∧
      Swept v w (l.filter fun i => (v.sta i).mac ≠ zeroMac) := by
  induction l with
  | nil => exact fun v b h => ⟨v, by simp; rfl, Swept.nil h⟩
  | cons i l ih =>
    intro v b h
    obtain ⟨hi, hl⟩ := List.nodup_cons.mp hl
    by_cases hm : (v.sta i).mac = zeroMac
    · obtain ⟨w, hw, hs⟩ := ih hl v b h
      have hround : cleanupUsed (v, b) i = .ok (v, b) := by simp [cleanupUsed, hm]; rfl
      refine ⟨w, ?_, ?_⟩
      · rw [cleanupUsed_cons hround]
        simpa [hm] using hw
      · simpa [hm] using hs
    · have hv := h.used_of_mac hm
      have hone := Swept.one h hv
      have hround : cleanupUsed (v, b) i = .ok (clearSlot v i i.castSucc, true) := by
        simp only [cleanupUsed, ne_eq, hm, not_false_eq_true, if_true, h.staCleanup_eq hv]
        rfl
      obtain ⟨w, hw, hs⟩ := ih hl _ true hone.table
      have hfilter : (l.filter fun k => ((clearSlot v i i.castSucc).sta k).mac ≠ zeroMac) =
          l.filter fun k => (v.sta k).mac ≠ zeroMac := by
        apply List.filter_congr
        intro k hk
        have hki : k ≠ i := fun he => hi (he ▸ hk)
        simp [clearSlot, hki]
      rw [hfilter] at hs hw
      have hcons : ((i::l).filter fun k => (v.sta k).mac ≠ zeroMac) =
          i::l.filter fun k => (v.sta k).mac ≠ zeroMac := by simp [hm]
      rw [hcons]
      refine ⟨w, ?_, hone.cons (fun hk => hi (List.mem_of_mem_filter hk)) hs⟩
      rw [cleanupUsed_cons hround]
      simpa using hw

theorem removeSta_spec (h : Table v) (mac : Mac) :
    ∃ w, removeSta v mac = .ok (w, !(targets v mac).isEmpty) ∧ Swept v w (targets v mac) := by
  by_cases hz : mac = zeroMac
  · refine ⟨v, ?_, ?_⟩
    · simp [removeSta, targets, hz]
      rfl
    · simpa [targets, hz] using Swept.nil h
  · by_cases hb : mac = broadcastMac
    · obtain ⟨w, hw, hs⟩ := cleanupUsed_spec _ (List.nodup_finRange apMaxNumSta) v false h
      have ht : targets v mac =
          (List.finRange apMaxNumSta).filter fun i => (v.sta i).mac ≠ zeroMac := by
        rw [targets, if_neg hz, if_pos hb]
      refine ⟨w, ?_, ht ▸ hs⟩
      rw [removeSta, if_neg hz, if_pos hb, hw, ht, Bool.false_or]
    · cases hf : (List.finRange apMaxNumSta).find? fun i => (v.sta i).mac = mac with
      | none =>
        have ht : targets v mac = [] := by
          rw [targets, if_neg hz, if_neg hb, hf]
          rfl
        refine ⟨v, ?_, ht ▸ Swept.nil h⟩
        rw [removeSta, if_neg hz, if_neg hb, hf, ht]
        rfl
      | some i =>
        have hm : (v.sta i).mac = mac := by simpa using List.find?_some hf
        have hv : (v.sta i).vif = true := h.used_of_mac (hm ▸ hz)
        have ht : targets v mac = [i] := by
          rw [targets, if_neg hz, if_neg hb, hf]
          rfl
        refine ⟨_, ?_, ht ▸ Swept.one h hv⟩
        rw [removeSta, if_neg hz, if_neg hb, hf, ht]
        simp only [h.staCleanup_eq hv]
        rfl

/-- No address occupies two slots in use. -/
def Unique (v : Vif) : Prop :=
  ∀ i j, (v.sta i).vif = true → (v.sta j).vif = true → (v.sta i).mac = (v.sta j).mac → i = j

/-- The station table, its copies and its counter, and every index that was computed. -/
structure Consistent (s : Driver) : Prop where
  index : ∀ i : Slot, s.vif.staListIndex.getLsbD i = true ↔
    (s.vif.sta i).vif = true ∧ (s.vif.sta i).aid.toNat = i.val + 1
  macs : Unique s.vif
  noHt : s.vif.staNoHtNum = (Finset.univ.filter fun i =>
    (s.vif.sta i).vif = true ∧ (s.vif.sta i).assocHt = false).card
  stats : ∀ i : Slot, (s.vif.apStats i.castSucc).toNat = i.val + 1 ↔ (s.vif.sta i).vif = true
  inside : ∀ k, s.fault ≠ some (.outOfBounds k)

/-- A connect event that does not stop at `BUG_ON` names an AID, no other slot in use holds its
address, and a slot it fills again held a station with HT. A disconnect event removes no
station that still carries the HT flag of an earlier association. -/
def Meets (s : Driver) : Event → Prop
  | .connect c => s.fault = none → c.aid.toNat ≤ apMaxNumSta → c.aid ≠ 0 ∧
      ∀ i, (s.vif.sta i).vif = true →
        if c.aid.toNat = i.val + 1 then (s.vif.sta i).assocHt = true
        else (s.vif.sta i).mac ≠ c.mac
  | .disconnect bssid => s.fault = none → ∀ i∈targets s.vif bssid,
      (s.vif.sta i).htSupport = true → (s.vif.sta i).assocHt = true

theorem total_noHt (v : Vif) : total Finset.univ noHt v.sta =
    (Finset.univ.filter fun i => (v.sta i).vif = true ∧ (v.sta i).assocHt = false).card := by
  rw [Finset.natCast_card_filter]
  rfl

theorem consistent_iff {s : Driver} (h : Table s.vif) :
    Consistent s ↔ Unique s.vif ∧ drift s.vif = 0 ∧ ∀ k, s.fault ≠ some (.outOfBounds k) := by
  constructor
  · intro hc
    refine ⟨hc.macs, ?_, hc.inside⟩
    rw [drift, total_noHt, hc.noHt]
    omega
  · intro ⟨hu, hd, hf⟩
    refine ⟨fun i => ?_, hu, ?_, fun i => ?_, hf⟩
    · rw [(h i).bit]
      exact ⟨fun hv => ⟨hv, (h i).used hv⟩, fun hv => hv.1⟩
    · rw [drift, total_noHt] at hd
      omega
    · rw [(h i).stat]
      refine ⟨fun ha => ?_, (h i).used⟩
      cases hv : (s.vif.sta i).vif with
      | true => rfl
      | false =>
        rw [((h i).idle hv).1] at ha
        simp at ha

theorem freeSlot_val {a : UInt8} (hne : a ≠ 0) :
    (a - 1).toNat + 1 = a.toNat := by
  have hpos : 0 < a.toNat := by
    apply Nat.pos_of_ne_zero
    intro h0
    exact hne (UInt8.toNat_inj.mp h0)
  have hlt := a.toNat_lt
  rw [UInt8.toNat_sub]
  simp
  omega

/-- What `ath6kl_add_new_sta` does with an AID. -/
theorem addNewSta_spec (v : Vif) (c : Connect) :
    (apMaxNumSta < c.aid.toNat ∧ addNewSta v c = .error .bugOn) ∨
    (c.aid = 0 ∧ addNewSta v c = .error (.outOfBounds 255)) ∨
    ∃ i : Slot, c.aid.toNat = i.val + 1 ∧ addNewSta v c = .ok (fillSlot v i c) := by
  by_cases hgt : apMaxNumSta < c.aid.toNat
  · exact .inl ⟨hgt, if_pos hgt⟩
  · by_cases h0 : c.aid = 0
    · refine .inr (.inl ⟨h0, ?_⟩)
      rw [addNewSta, h0]
      rfl
    · have hval := freeSlot_val h0
      have hlt : (c.aid - 1).toNat < apMaxNumSta := by omega
      refine .inr (.inr ⟨⟨(c.aid - 1).toNat, hlt⟩, hval.symm, ?_⟩)
      simp only [addNewSta, if_neg hgt, dif_pos hlt]

/-- What one event does to the table. -/
inductive Change (s : Driver) : Event → Driver → Prop
  | halted {e : Event} (hf : s.fault ≠ none) : Change s e s
  | bug {c : Connect} (hf : s.fault = none) (h : apMaxNumSta < c.aid.toNat) :
      Change s (.connect c) { s with fault := some .bugOn }
  | outside {c : Connect} (hf : s.fault = none) (h : c.aid = 0) :
      Change s (.connect c) { s with fault := some (.outOfBounds 255) }
  | filled {c : Connect} {i : Slot} {es : List Effect} (hf : s.fault = none) (h : c.aid.toNat = i.val + 1) :
      Change s (.connect c) { s with vif := fillSlot s.vif i c, effects := es }
  | swept {mac : Mac} {w : Vif} {es : List Effect} (hf : s.fault = none) (h : Swept s.vif w (targets s.vif mac)) :
      Change s (.disconnect mac) { s with vif := w, effects := es }

theorem step_change {s : Driver} (h : Table s.vif) (e : Event) : Change s e (step s e) := by
  cases hf : s.fault with
  | some f =>
    have hstep : step s e = s := by simp [step, hf]
    rw [hstep]
    exact .halted (by simp [hf])
  | none =>
    cases e with
    | connect c =>
      have hstep : step s (.connect c) = s.take (connectApModeSta s.vif c) := by simp [step, hf]
      rw [hstep]
      obtain ⟨hgt, ha⟩ | ⟨h0, ha⟩ | ⟨i, hi, ha⟩ := addNewSta_spec s.vif c
      · have hconn : connectApModeSta s.vif c = .error .bugOn := by
          rw [connectApModeSta, ha]
          rfl
        rw [hconn]
        exact .bug hf hgt
      · have hconn : connectApModeSta s.vif c = .error (.outOfBounds 255) := by
          rw [connectApModeSta, ha]
          rfl
        rw [hconn]
        exact .outside hf h0
      · have hconn : ∃ es, connectApModeSta s.vif c = .ok (fillSlot s.vif i c, es) := by
          rw [connectApModeSta, ha]
          exact ⟨_, rfl⟩
        obtain ⟨es, hconn⟩ := hconn
        rw [hconn]
        exact .filled hf hi
    | disconnect mac =>
      have hstep : step s (.disconnect mac) = s.take (disconnectEvent s.vif mac) := by
        simp [step, hf]
      rw [hstep]
      obtain ⟨w, hw, hs⟩ := removeSta_spec h mac
      have hdisc : ∃ es, disconnectEvent s.vif mac = .ok (w, es) := by
        rw [disconnectEvent, hw]
        cases (targets s.vif mac).isEmpty with
        | false => exact ⟨_, rfl⟩
        | true => exact ⟨_, rfl⟩
      obtain ⟨es, hdisc⟩ := hdisc
      rw [hdisc]
      exact .swept hf hs

theorem Change.table {s t : Driver} {e : Event} (h : Change s e t) (k : Table s.vif) :
    Table t.vif := by
  cases h with
  | halted _ => exact k
  | bug _ _ => exact k
  | outside _ _ => exact k
  | filled _ hi => exact k.fillSlot hi
  | swept _ hs => exact hs.table

theorem total_stale {l : List Slot} :
    (l.map fun i => stale (v.sta i)).sum = 0 ↔ ∀ i∈l, stale (v.sta i) = 0 := by
  rw [List.sum_eq_zero_iff]
  simp

theorem stale_eq_zero (hv : (v.sta i).vif = true) :
    stale (v.sta i) = 0 ↔ ((v.sta i).htSupport = true → (v.sta i).assocHt = true) := by
  simp only [stale, hv, true_and]
  cases (v.sta i).assocHt <;> cases (v.sta i).htSupport <;> simp

theorem Table.used_of_target (h : Table v) (hi : i∈targets v mac) :
    (v.sta i).vif = true := by
  apply h.used_of_mac
  unfold targets at hi
  split at hi
  next => cases hi
  next hz =>
    split at hi
    next => simpa using (List.mem_filter.mp hi).2
    next =>
      have hf := Option.mem_toList.mp hi
      have hm : (v.sta i).mac = mac := by simpa using List.find?_some hf
      exact hm ▸ hz

theorem Change.drift_mono {s t : Driver} {e : Event} (h : Change s e t) :
    drift s.vif ≤ drift t.vif := by
  cases h with
  | halted _ => exact le_refl _
  | bug _ _ => exact le_refl _
  | outside _ _ => exact le_refl _
  | @filled c i _ _ _ =>
    rw [drift_fillSlot, noHt]
    split <;> omega
  | swept _ hs =>
    rw [hs.drift]
    omega

theorem Swept.unique {l : List Slot} (h : Swept v w l) (k : Unique v) : Unique w := by
  intro i j hi hj hm
  have hkeep : ∀ i, (w.sta i).vif = true → w.sta i = v.sta i := by
    intro i hi
    have hsta := h.sta i
    by_cases hmem : i∈l
    · rw [hsta, if_pos hmem] at hi
      cases hi
    · rw [hsta, if_neg hmem]
  have hsi := hkeep i hi
  have hsj := hkeep j hj
  rw [hsi] at hi hm
  rw [hsj] at hj hm
  exact k i j hi hj hm

theorem unique_fillSlot (ha : c.aid.toNat = i.val + 1) (k : Unique v) :
    Unique (fillSlot v i c) ↔
    ∀ j, (v.sta j).vif = true → c.aid.toNat ≠ j.val + 1 → (v.sta j).mac ≠ c.mac := by
  have hself : (fillSlot v i c).sta i = (v.sta i).fill c := update_self ..
  have hother : ∀ j, j ≠ i → (fillSlot v i c).sta j = v.sta j := fun j hj => update_of_ne hj ..
  constructor
  · intro hu j hj hne hm
    have hji : j ≠ i := fun he => hne (he ▸ ha)
    apply hji
    apply hu j i
    · rw [hother j hji, hj]
    · rw [hself, Sta.fill_vif]
    · rw [hself, hother j hji, Sta.fill_mac, hm]
  · intro hu j k' hj hk hm
    have hfresh : ∀ j, j ≠ i → (v.sta j).vif = true → (v.sta j).mac ≠ c.mac := by
      intro j hji hj
      apply hu j hj
      intro he
      apply hji
      apply Fin.ext
      omega
    by_cases hji : j = i
    · by_cases hki : k' = i
      · rw [hji, hki]
      · subst hji
        rw [hother k' hki] at hk hm
        rw [hself, Sta.fill_mac] at hm
        exact absurd hm.symm (hfresh k' hki hk)
    · by_cases hki : k' = i
      · subst hki
        rw [hother j hji] at hj hm
        rw [hself, Sta.fill_mac] at hm
        exact absurd hm (hfresh j hji hj)
      · rw [hother j hji] at hj hm
        rw [hother k' hki] at hk hm
        exact k j k' hj hk hm

theorem Change.consistent_iff {s t : Driver} {e : Event} (h : Change s e t) (k : Table s.vif)
    (hs : Consistent s) : Consistent t ↔ Meets s e := by
  have ht := h.table k
  obtain ⟨hu, hd, hf⟩ := (ApStation.consistent_iff k).mp hs
  rw [ApStation.consistent_iff ht]
  cases h with
  | halted hhalt =>
    refine ⟨fun _ => ?_, fun _ => ⟨hu, hd, hf⟩⟩
    cases e with
    | connect c => exact fun hnone => absurd hnone hhalt
    | disconnect mac => exact fun hnone => absurd hnone hhalt
  | bug _ hgt =>
    refine ⟨fun _ _ hle => absurd hgt (Nat.not_lt.mpr hle), fun _ => ⟨hu, hd, fun k hk => ?_⟩⟩
    cases hk
  | outside hnone h0 =>
    refine ⟨fun ⟨_, _, hin⟩ => absurd rfl (hin 255), fun hm => ?_⟩
    exact absurd h0 (hm hnone (by rw [h0]; decide)).1
  | @filled c i _ hnone hi =>
    have hle : c.aid.toNat ≤ apMaxNumSta := by omega
    have hne : c.aid ≠ 0 := by
      intro h0
      rw [h0] at hi
      cases hi
    have hcount : drift (fillSlot s.vif i c) = 0 ↔
        ((s.vif.sta i).vif = true → (s.vif.sta i).assocHt = true) := by
      rw [drift_fillSlot, hd, noHt]
      cases (s.vif.sta i).vif <;> cases (s.vif.sta i).assocHt <;> simp
    rw [unique_fillSlot hi hu, hcount]
    constructor
    · intro ⟨hmac, hht, _⟩ _ _
      refine ⟨hne, fun j hj => ?_⟩
      split
      next hji =>
        have he : j = i := Fin.ext (by omega)
        subst he
        exact hht hj
      next hji => exact hmac j hj hji
    · intro hm
      obtain ⟨-, hslots⟩ := hm hnone hle
      refine ⟨fun j hj hji => ?_, fun hv => ?_, hf⟩
      · have hslot := hslots j hj
        rwa [if_neg hji] at hslot
      · have hslot := hslots i hv
        rwa [if_pos hi] at hslot
  | @swept mac w _ hnone hsw =>
    have hcount : drift w = 0 ↔ ∀ i∈targets s.vif mac, stale (s.vif.sta i) = 0 := by
      rw [hsw.drift, hd, ← total_stale]
      omega
    rw [hcount]
    constructor
    · intro ⟨_, hst, _⟩ _ i hi
      exact (stale_eq_zero (k.used_of_target hi)).mp (hst i hi)
    · intro hm
      refine ⟨hsw.unique hu, fun i hi => ?_, hf⟩
      exact (stale_eq_zero (k.used_of_target hi)).mpr (hm hnone i hi)

def fresh (devAddr : Mac) (nextChan : Nat) (wmiReady : Bool) : Driver where
  vif := { devAddr := devAddr, nextChan := nextChan, wmiReady := wmiReady }

theorem fresh_table (devAddr : Mac) (nextChan : Nat) (wmiReady : Bool) :
    Table (fresh devAddr nextChan wmiReady).vif := by
  intro i
  exact ⟨fun h => Bool.noConfusion h, fun _ => ⟨rfl, rfl⟩, BitVec.getLsbD_zero, rfl,
    fun h => Bool.noConfusion h, fun _ => by simp [fresh, Sta.htSupport]⟩

theorem fresh_consistent (devAddr : Mac) (nextChan : Nat) (wmiReady : Bool) :
    Consistent (fresh devAddr nextChan wmiReady) := by
  rw [consistent_iff (fresh_table devAddr nextChan wmiReady)]
  refine ⟨fun i j h => Bool.noConfusion h, ?_, fun k h => nomatch h⟩
  have htotal : total Finset.univ noHt (fresh devAddr nextChan wmiReady).vif.sta = 0 :=
    total_eq_zero fun i _ => rfl
  rw [drift, htotal]
  rfl

/-- Once the counter is ahead it stays ahead: the access point keeps announcing HT protection. -/
theorem run_drift {s : Driver} (h : Table s.vif) (es : List Event) :
    drift s.vif ≤ drift (run step s es).vif := by
  induction es generalizing s with
  | nil => exact le_refl _
  | cons e es ih =>
    have hchange := step_change h e
    exact hchange.drift_mono.trans (ih (hchange.table h))

theorem ap_station_table (devAddr : Mac) (nextChan : Nat) (wmiReady : Bool)
    (es : List Event) :
    (∀ u, u <+: es → Consistent (run step (fresh devAddr nextChan wmiReady) u)) ↔
    AllSteps step Meets (fresh devAddr nextChan wmiReady) es := by
  apply prefix_iff_allSteps (I := fun s => Table s.vif ∧ Consistent s) fun _ hs => hs.2
  · intro s e ⟨ht, hs⟩ hm
    have hchange := step_change ht e
    exact ⟨hchange.table ht, (hchange.consistent_iff ht hs).mpr hm⟩
  · intro s e ⟨ht, hs⟩ hp
    exact ((step_change ht e).consistent_iff ht hs).mp hp
  · exact ⟨fresh_table devAddr nextChan wmiReady, fresh_consistent devAddr nextChan wmiReady⟩

/-- A station without HT associates twice and leaves. -/
theorem ap_station_table_drifts :
    ¬ Consistent (run step (fresh 1 5180 true)
      [.connect { aid := 1, mac := 2 }, .connect { aid := 1, mac := 2 }, .disconnect 2]) := by
  intro h
  have hcount := h.noHt
  revert hcount
  decide

end Ath6kl.ApStation
