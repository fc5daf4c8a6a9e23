import Ath6kl.RxReorder

/-! In-order and at-most-once delivery of the receive reorder buffer. One invariant
places every held frame in its slot and less than a lap ahead of `seq_next`; it is
carried through a single turn of the dequeue loop and from there to whole runs. -/
namespace Ath6kl.RxReorder
open EthFrame Lib.SeqSpace Lib.Machine

theorem pos4096 : 0 < 4096 := by decide

/-- Hold queue sizes whose slots follow the 12-bit sequence numbers. -/
structure Sized (sz : Nat) : Prop where
  dvd : sz ∣ 4096
  two_le : 2 ≤ sz
  le : sz ≤ 256

/-- Delivery order: a later sequence number of another frame, or the next subframe
of the same frame. -/
def Delivery.Before (d e : Delivery) : Prop :=
  (d.unwrapped < e.unwrapped ∧ d.id ≠ e.id) ∨
    (d.unwrapped = e.unwrapped ∧ d.id = e.id ∧ d.sub < e.sub)

def Rxtid.log (r : Rxtid) : List Delivery := r.delivered ++ r.q

/-- The reorder invariant, relative to the sequence number `b` the session began at. -/
structure Inv (b : Nat) (r : Rxtid) : Prop where
  sized : Sized r.holdQSz
  slot : ∀ i n, r.holdQ i = some n → i = aggrWinIdx n.seqNo r.holdQSz
  near : ∀ i n, r.holdQ i = some n → fwd 4096 r.seqNext n.seqNo < r.holdQSz
  heldId : ∀ i n, r.holdQ i = some n → n.id < r.arrived
  heldDistinct : ∀ i j m n, r.holdQ i = some m → r.holdQ j = some n → m.id = n.id → i = j
  sync : r.syncNextSeq = true → ∀ i, r.holdQ i = none
  range : r.syncNextSeq = false → r.seqNext < 4096
  ordered : r.log.Pairwise Delivery.Before
  past : ∀ d∈r.log, d.unwrapped < r.adv
  logId : ∀ d∈r.log, d.id < r.arrived
  gone : ∀ d∈r.log, ∀ i n, r.holdQ i = some n → d.id ≠ n.id
  base : (b + r.adv) % 4096 = r.seqNext % 4096
  unwrapMod : ∀ d∈r.log, (b + d.unwrapped) % 4096 = d.seqNo % 4096

/-- No held frame waits at `seq_next` itself. -/
def Settled (r : Rxtid) : Prop := r.holdQ (aggrWinIdx r.seqNext r.holdQSz) = none

theorem seqMask_lt (x : Int) : seqMask x < 4096 := mask_lt pos4096 x

theorem nextSeqNo_mod (x : Nat) : ath6klNextSeqNo x % 4096 = (x+1) % 4096 := by
  simp only [ath6klNextSeqNo, seqMask, mask]
  omega

theorem nextSeqNo_lt (x : Nat) : ath6klNextSeqNo x < 4096 := seqMask_lt _

theorem fwd_nextSeqNo (x : Nat) : fwd 4096 x (ath6klNextSeqNo x) = 1 :=
  fwd_unique pos4096 (by decide) (nextSeqNo_mod x).symm

theorem log_deliverQ (r : Rxtid) : r.deliverQ.log = r.log := by
  simp [Rxtid.deliverQ, Rxtid.log]

theorem Inv.deliverQ {b : Nat} {r : Rxtid} (h : Inv b r) : Inv b r.deliverQ where
  sized := h.sized
  slot := h.slot
  near := h.near
  heldId := h.heldId
  heldDistinct := h.heldDistinct
  sync := h.sync
  range := h.range
  ordered := by rw [log_deliverQ]; exact h.ordered
  past := by rw [log_deliverQ]; exact h.past
  logId := by rw [log_deliverQ]; exact h.logId
  gone := by rw [log_deliverQ]; exact h.gone
  base := h.base
  unwrapMod := by rw [log_deliverQ]; exact h.unwrapMod

/-- A frame in the slot of `seq_next` carries that sequence number. -/
theorem Inv.due {b : Nat} {r : Rxtid} (h : Inv b r) {n : HoldQ}
    (hn : r.holdQ (aggrWinIdx r.seqNext r.holdQSz) = some n) :
    fwd 4096 r.seqNext n.seqNo = 0 := by
  have hs : n.seqNo % r.holdQSz = r.seqNext % r.holdQSz := (h.slot _ n hn).symm
  have hz : fwd 4096 r.seqNext r.seqNext < r.holdQSz := by
    rw [fwd_self pos4096]
    have := h.sized.two_le
    omega
  rw [fwd_of_slot pos4096 h.sized.dvd (h.near _ n hn) hz hs, fwd_self pos4096]

theorem Inv.ahead {b : Nat} {r : Rxtid} (h : Inv b r) {i : Nat} {n : HoldQ}
    (hn : r.holdQ i = some n) (hi : i ≠ aggrWinIdx r.seqNext r.holdQSz) :
    1 ≤ fwd 4096 r.seqNext n.seqNo := by
  by_contra hlt
  have hz : fwd 4096 r.seqNext n.seqNo = 0 := by omega
  apply hi
  have hs := slot_fwd (a := r.seqNext) (b := n.seqNo) pos4096 h.sized.dvd
  rw [hz, Nat.add_zero] at hs
  rw [h.slot i n hn, aggrWinIdx, aggrWinIdx, hs]

theorem deliveries_unwrapped {n : HoldQ} {u : Nat} {d : Delivery}
    (hd : d∈n.deliveries u) : d.unwrapped = u ∧ d.seqNo = n.seqNo ∧ d.id = n.id := by
  simp only [HoldQ.deliveries, List.mem_map] at hd
  obtain ⟨x, _, rfl⟩ := hd
  exact ⟨rfl, rfl, rfl⟩

theorem deliveries_ordered (n : HoldQ) (u : Nat) :
    (n.deliveries u).Pairwise Delivery.Before := by
  rw [HoldQ.deliveries, List.pairwise_map]
  have hlt : (n.frames.zipIdx.map Prod.snd).Pairwise (· < ·) := by
    rw [List.zipIdx_map_snd]
    exact List.pairwise_lt_range'
  rw [List.pairwise_map] at hlt
  exact hlt.imp fun h => Or.inr ⟨rfl, rfl, h⟩

theorem Inv.append_ordered {b : Nat} {r : Rxtid} (h : Inv b r) {i : Nat} {n : HoldQ}
    (hn : r.holdQ i = some n) :
    (r.log ++ n.deliveries r.adv).Pairwise Delivery.Before := by
  refine List.pairwise_append.mpr ⟨h.ordered, deliveries_ordered n r.adv, ?_⟩
  intro d hd e he
  obtain ⟨hu, _, hid⟩ := deliveries_unwrapped he
  refine Or.inl ⟨?_, ?_⟩
  · rw [hu]
    exact h.past d hd
  · rw [hid]
    exact h.gone d hd i n hn

/-- Moving `seq_next` by one past an empty slot. -/
theorem Inv.skip {b : Nat} {r : Rxtid} (h : Inv b r) (he : Settled r) :
    Inv b (r.setSeqNext (ath6klNextSeqNo r.seqNext)) where
  sized := h.sized
  slot := h.slot
  near i n hn := by
    have hne : i ≠ aggrWinIdx r.seqNext r.holdQSz := by
      rintro rfl
      rw [Settled, show r.holdQ _ = some n from hn] at he
      cases he
    have hk := fwd_advance (b := n.seqNo) pos4096 (nextSeqNo_mod r.seqNext) (h.ahead hn hne)
    have hlt := h.near i n hn
    show fwd 4096 (ath6klNextSeqNo r.seqNext) n.seqNo < r.holdQSz
    omega
  heldId := h.heldId
  heldDistinct := h.heldDistinct
  sync := h.sync
  range _ := nextSeqNo_lt _
  ordered := h.ordered
  past d hd := Nat.lt_of_lt_of_le (h.past d hd) (Nat.le_add_right _ _)
  logId := h.logId
  gone := h.gone
  base := by
    have hb := h.base
    have hm := nextSeqNo_mod r.seqNext
    simp only [Rxtid.setSeqNext, fwd_nextSeqNo]
    omega
  unwrapMod := h.unwrapMod

theorem dequeStep_none {r : Rxtid} (h : Settled r) :
    dequeStep r = r.setSeqNext (ath6klNextSeqNo r.seqNext) := by
  rw [Settled] at h
  simp only [dequeStep, h]

theorem dequeStep_some {r : Rxtid} {n : HoldQ}
    (h : r.holdQ (aggrWinIdx r.seqNext r.holdQSz) = some n) :
    dequeStep r = Rxtid.setSeqNext
      { r with q := r.q ++ n.deliveries (r.unwrap n.seqNo)
               holdQ := Function.update r.holdQ (aggrWinIdx r.seqNext r.holdQSz) none }
      (ath6klNextSeqNo r.seqNext) := by
  simp only [dequeStep, h]

theorem Inv.dequeStep {b : Nat} {r : Rxtid} (h : Inv b r) : Inv b (dequeStep r) := by
  cases hn : r.holdQ (aggrWinIdx r.seqNext r.holdQSz) with
  | none =>
    rw [dequeStep_none hn]
    exact h.skip hn
  | some n =>
    have hdue := h.due hn
    have hadv : r.unwrap n.seqNo = r.adv := by rw [Rxtid.unwrap, hdue, Nat.add_zero]
    -- what stays in the queue was there before, in another slot
    have hold : ∀ i m, Function.update r.holdQ (aggrWinIdx r.seqNext r.holdQSz) none i = some m →
        i ≠ aggrWinIdx r.seqNext r.holdQSz ∧ r.holdQ i = some m := by
      intro i m hm
      by_cases hi : i = aggrWinIdx r.seqNext r.holdQSz
      · simp [hi] at hm
      · rw [Function.update_of_ne hi] at hm
        exact ⟨hi, hm⟩
    have hlog : ∀ d, d∈r.delivered ++ (r.q ++ n.deliveries r.adv) →
        d∈r.log ∨ d∈n.deliveries r.adv := by
      intro d hd
      rw [← List.append_assoc] at hd
      exact List.mem_append.mp hd
    rw [dequeStep_some hn, hadv]
    refine ⟨h.sized, ?_, ?_, ?_, ?_, ?_, fun _ => nextSeqNo_lt _, ?_, ?_, ?_, ?_, ?_, ?_⟩
    · exact fun i m hm => h.slot i m (hold i m hm).2
    · intro i m hm
      obtain ⟨hi, hm⟩ := hold i m hm
      have hk := fwd_advance (b := m.seqNo) pos4096 (nextSeqNo_mod r.seqNext) (h.ahead hm hi)
      have hlt := h.near i m hm
      show fwd 4096 (ath6klNextSeqNo r.seqNext) m.seqNo < r.holdQSz
      omega
    · exact fun i m hm => h.heldId i m (hold i m hm).2
    · exact fun i j m m' hm hm' => h.heldDistinct i j m m' (hold i m hm).2 (hold j m' hm').2
    · intro hs i
      have hnone := h.sync hs (aggrWinIdx r.seqNext r.holdQSz)
      rw [hn] at hnone
      cases hnone
    · show (r.delivered ++ (r.q ++ n.deliveries r.adv)).Pairwise Delivery.Before
      rw [← List.append_assoc]
      exact h.append_ordered hn
    · intro d hd
      show d.unwrapped < r.adv + fwd 4096 r.seqNext (ath6klNextSeqNo r.seqNext)
      rw [fwd_nextSeqNo]
      rcases hlog d hd with hd | hd
      · exact Nat.lt_succ_of_lt (h.past d hd)
      · rw [(deliveries_unwrapped hd).1]
        exact Nat.lt_succ_self _
    · intro d hd
      rcases hlog d hd with hd | hd
      · exact h.logId d hd
      · rw [(deliveries_unwrapped hd).2.2]
        exact h.heldId _ n hn
    · intro d hd i m hm
      obtain ⟨hi, hm⟩ := hold i m hm
      rcases hlog d hd with hd | hd
      · exact h.gone d hd i m hm
      · rw [(deliveries_unwrapped hd).2.2]
        exact fun he => hi (h.heldDistinct _ _ n m hn hm he).symm
    · have hb := h.base
      have hm := nextSeqNo_mod r.seqNext
      simp only [Rxtid.setSeqNext, fwd_nextSeqNo]
      omega
    · intro d hd
      rcases hlog d hd with hd | hd
      · exact h.unwrapMod d hd
      · obtain ⟨hu, hs, _⟩ := deliveries_unwrapped hd
        have hf := add_fwd_mod (a := r.seqNext) (b := n.seqNo) pos4096
        rw [hdue, Nat.add_zero] at hf
        rw [hu, hs, h.base, hf]

structure Kept (r s : Rxtid) : Prop where
  holdQSz : s.holdQSz = r.holdQSz
  arrived : s.arrived = r.arrived
  sync : s.syncNextSeq = r.syncNextSeq
  aggr : s.aggr = r.aggr
  hung : s.hung = r.hung

theorem Kept.refl (r : Rxtid) : Kept r r := ⟨rfl, rfl, rfl, rfl, rfl⟩

theorem Kept.trans {r s t : Rxtid} (h : Kept r s) (k : Kept s t) : Kept r t :=
  ⟨k.holdQSz.trans h.holdQSz, k.arrived.trans h.arrived, k.sync.trans h.sync,
    k.aggr.trans h.aggr, k.hung.trans h.hung⟩

theorem dequeStep_kept (r : Rxtid) : Kept r (dequeStep r) := by
  cases h : r.holdQ (aggrWinIdx r.seqNext r.holdQSz) with
  | none => rw [dequeStep_none h]; exact ⟨rfl, rfl, rfl, rfl, rfl⟩
  | some n => rw [dequeStep_some h]; exact ⟨rfl, rfl, rfl, rfl, rfl⟩

theorem dequeStep_seqNext (r : Rxtid) :
    (dequeStep r).seqNext = ath6klNextSeqNo r.seqNext := by
  cases h : r.holdQ (aggrWinIdx r.seqNext r.holdQSz) with
  | none => rw [dequeStep_none h]; rfl
  | some n => rw [dequeStep_some h]; rfl

theorem dequeStep_holdQ (r : Rxtid) : (dequeStep r).holdQ =
    Function.update r.holdQ (aggrWinIdx r.seqNext r.holdQSz) none := by
  cases h : r.holdQ (aggrWinIdx r.seqNext r.holdQSz) with
  | none => rw [dequeStep_none h, ← h, Function.update_eq_self]; rfl
  | some n => rw [dequeStep_some h]; rfl

theorem dequeStep_keeps_none {r : Rxtid} {i : Nat} (h : r.holdQ i = none) :
    (dequeStep r).holdQ i = none := by
  rw [dequeStep_holdQ, Function.update_apply]
  split <;> simp [h]

theorem dequeLoop_keeps {P : Rxtid → Prop} (hstep : ∀ s, P s → P (dequeStep s))
    (idxEnd order fuel : Nat) {r : Rxtid} (h : P r) : P (dequeLoop idxEnd order fuel r) := by
  induction fuel generalizing r with
  | zero => exact h
  | succ fuel ih =>
    unfold RxReorder.dequeLoop
    split
    · exact h
    · dsimp only
      split
      · exact ih (hstep r h)
      · exact hstep r h

theorem Inv.dequeLoop {b : Nat} {idxEnd order : Nat} (fuel : Nat) {r : Rxtid}
    (h : Inv b r) : Inv b (dequeLoop idxEnd order fuel r) :=
  dequeLoop_keeps (P := Inv b) (fun _ hs => hs.dequeStep) idxEnd order fuel h

theorem dequeLoop_kept (idxEnd order fuel : Nat) (r : Rxtid) :
    Kept r (dequeLoop idxEnd order fuel r) :=
  dequeLoop_keeps (P := Kept r) (fun s hs => hs.trans (dequeStep_kept s)) idxEnd order fuel
    (Kept.refl r)

/-- How many turns the loop makes from `a` to the slot of `e`: at least one, at most
a lap. -/
def turns (sz a e : Nat) : Nat := fwd sz (a+1) e + 1

theorem turns_le {sz a e : Nat} (hsz : 0<sz) : turns sz a e ≤ sz := fwd_lt hsz

theorem winIdx_dequeStep {r : Rxtid} (h : r.holdQSz ∣ 4096) :
    aggrWinIdx (dequeStep r).seqNext r.holdQSz = (r.seqNext+1) % r.holdQSz := by
  have hm := congrArg (· % r.holdQSz) (nextSeqNo_mod r.seqNext)
  simp only [Nat.mod_mod_of_dvd _ h] at hm
  rw [dequeStep_seqNext, aggrWinIdx, hm]

theorem dvd_pos {sz : Nat} (h : sz ∣ 4096) : 0 < sz := Nat.pos_of_dvd_of_pos h pos4096

theorem Sized.pos {sz : Nat} (h : Sized sz) : 0 < sz := dvd_pos h.dvd

theorem turns_dequeStep {r : Rxtid} (h : r.holdQSz ∣ 4096) (e : Nat) :
    (aggrWinIdx (dequeStep r).seqNext r.holdQSz = aggrWinIdx e r.holdQSz →
      turns r.holdQSz r.seqNext e = 1) ∧
    (aggrWinIdx (dequeStep r).seqNext r.holdQSz ≠ aggrWinIdx e r.holdQSz →
      turns r.holdQSz r.seqNext e = turns r.holdQSz (dequeStep r).seqNext e + 1) := by
  have hw := winIdx_dequeStep h
  constructor
  · intro he
    rw [hw] at he
    rw [turns, fwd_unique (dvd_pos h) (dvd_pos h) (by simpa [aggrWinIdx] using he)]
  · intro hne
    have hpos : 1 ≤ fwd r.holdQSz (r.seqNext+1) e := by
      by_contra hlt
      have hz : fwd r.holdQSz (r.seqNext+1) e = 0 := by omega
      have hm := add_fwd_mod (a := r.seqNext+1) (b := e) (dvd_pos h)
      rw [hz, Nat.add_zero] at hm
      exact hne (hw.trans hm)
    have ha : ((dequeStep r).seqNext+1) % r.holdQSz = (r.seqNext+1+1) % r.holdQSz := by
      have hw' : (dequeStep r).seqNext % r.holdQSz = (r.seqNext+1) % r.holdQSz := hw
      rw [Nat.add_mod, hw', ← Nat.add_mod]
    have hk := fwd_advance (b := e) (dvd_pos h) ha hpos
    rw [turns, turns, hk]
    omega

theorem dequeLoop_iterate {e : Nat} (fuel : Nat) {r : Rxtid} (h : r.holdQSz ∣ 4096)
    (hf : turns r.holdQSz r.seqNext e ≤ fuel) :
    dequeLoop (aggrWinIdx e r.holdQSz) 0 fuel r =
      dequeStep^[turns r.holdQSz r.seqNext e] r := by
  induction fuel generalizing r with
  | zero => simp [turns] at hf
  | succ fuel ih =>
    have hsz := (dequeStep_kept r).holdQSz
    obtain ⟨hlast, hmore⟩ := turns_dequeStep h e
    unfold RxReorder.dequeLoop
    rw [if_neg (by simp)]
    dsimp only
    rw [hsz]
    split
    · rename_i hne
      have ht := hmore hne
      rw [← hsz, ih (by rw [hsz]; exact h) (by rw [hsz]; omega), hsz, ht]
      rfl
    · rename_i heq
      rw [hlast (not_not.mp heq)]
      rfl

theorem dequeLoop_settled {e : Nat} (fuel : Nat) {r : Rxtid} (h : r.holdQSz ∣ 4096)
    (hf : turns r.holdQSz r.seqNext e ≤ fuel)
    (hend : r.holdQ (aggrWinIdx e r.holdQSz) = none ∨
      aggrWinIdx r.seqNext r.holdQSz = aggrWinIdx e r.holdQSz) :
    Settled (dequeLoop (aggrWinIdx e r.holdQSz) 1 fuel r) := by
  induction fuel generalizing r with
  | zero => simp [turns] at hf
  | succ fuel ih =>
    have hsz := (dequeStep_kept r).holdQSz
    obtain ⟨-, hmore⟩ := turns_dequeStep h e
    have hclear : (dequeStep r).holdQ (aggrWinIdx e r.holdQSz) = none := by
      rcases hend with hn | he
      · exact dequeStep_keeps_none hn
      · rw [dequeStep_holdQ, he, Function.update_self]
    unfold RxReorder.dequeLoop
    split
    · rename_i hbreak
      exact Option.isNone_iff_eq_none.mp hbreak.2
    · dsimp only
      rw [hsz]
      split
      · rename_i hne
        have ht := hmore hne
        rw [← hsz]
        exact ih (by rw [hsz]; exact h) (by rw [hsz]; omega) (Or.inl (by rw [hsz]; exact hclear))
      · rename_i heq
        rw [Settled, hsz, not_not.mp heq]
        exact hclear

theorem aggrDequeFrms_kept (r : Rxtid) (seqNo order : Nat) :
    Kept r (aggrDequeFrms r seqNo order) :=
  (dequeLoop_kept _ order 4096 r).trans ⟨rfl, rfl, rfl, rfl, rfl⟩

theorem Inv.aggrDequeFrms {b : Nat} {r : Rxtid} (h : Inv b r) (seqNo order : Nat) :
    Inv b (aggrDequeFrms r seqNo order) := (h.dequeLoop 4096).deliverQ

/-- What the dequeue and an assignment to `seq_next` keep, the window handling keeps. -/
theorem moveWindow_keeps {P : Rxtid → Prop} (hdeque : ∀ s v, P s → P (aggrDequeFrms s v 0))
    (hset : ∀ s v, P s → P (s.setSeqNext v)) {r : Rxtid} (h : P r) (cur : Nat) :
    P (moveWindow r cur).1 := by
  unfold moveWindow
  dsimp only
  split
  · split
    · split
      · exact hset _ _ (hdeque r 0 h)
      · exact h
    · exact hdeque r _ h
  · exact h

theorem timeoutDeque_keeps {P : Rxtid → Prop}
    (hdeque : ∀ s v, P s → P (aggrDequeFrms (aggrDequeFrms s v 0) 0 1))
    (hcount : ∀ s, P s → P { s with continuousCount := 0 }) {r : Rxtid} (h : P r) :
    P (if r.timerwaitSeqNum = r.seqNext then timeoutDeque r else r) := by
  split
  · unfold timeoutDeque
    dsimp only
    split
    · split
      · exact hcount _ (hdeque _ _ (hdeque r _ h))
      · exact hdeque r _ h
    · exact hcount _ (hdeque r _ h)
  · exact h

theorem turns_fuel {sz a e : Nat} (h : sz ∣ 4096) : turns sz a e ≤ 4096 :=
  (turns_le (dvd_pos h)).trans (Nat.le_of_dvd pos4096 h)

theorem aggrDequeFrms_settled {r : Rxtid} (h : r.holdQSz ∣ 4096) :
    Settled (aggrDequeFrms r 0 1) :=
  dequeLoop_settled 4096 h (turns_fuel h) (Or.inr rfl)

/-- Every held frame lies less than `W` ahead of `seq_next`. -/
def Within (W : Nat) (r : Rxtid) : Prop :=
  ∀ i n, r.holdQ i = some n → fwd 4096 r.seqNext n.seqNo < W

theorem Inv.within_step {b W : Nat} {r : Rxtid} (h : Inv b r) (hw : Within (W+1) r) :
    Within W (RxReorder.dequeStep r) := by
  intro i n hn
  rw [dequeStep_holdQ, Function.update_apply] at hn
  split at hn
  · cases hn
  · rename_i hi
    have ha := h.ahead hn hi
    have hk := fwd_advance (b := n.seqNo) pos4096 (nextSeqNo_mod r.seqNext) ha
    have hlt := hw i n hn
    rw [dequeStep_seqNext, hk]
    omega

theorem Inv.iterate {b k W : Nat} {r : Rxtid} (h : Inv b r) (hw : Within (W+k) r) :
    Within W (RxReorder.dequeStep^[k] r) ∧
    (RxReorder.dequeStep^[k] r).seqNext % 4096 = (r.seqNext+k) % 4096 := by
  induction k generalizing r with
  | zero => exact ⟨hw, rfl⟩
  | succ k ih =>
    obtain ⟨hi, hs⟩ := ih h.dequeStep (h.within_step hw)
    refine ⟨hi, ?_⟩
    have hm := nextSeqNo_mod r.seqNext
    rw [Function.iterate_succ_apply, hs, dequeStep_seqNext]
    omega

/-- What a dequeue with `order` 0 does: `turns` many steps of `seq_next`. -/
theorem Inv.deque_zero {b : Nat} {r : Rxtid} (h : Inv b r) (seqNo : Nat) :
    let k := turns r.holdQSz r.seqNext (if seqNo ≠ 0 then seqNo else r.seqNext)
    Within (r.holdQSz-k) (RxReorder.aggrDequeFrms r seqNo 0) ∧
    (RxReorder.aggrDequeFrms r seqNo 0).seqNext % 4096 = (r.seqNext+k) % 4096 := by
  intro k
  have hk : k ≤ r.holdQSz := turns_le h.sized.pos
  have hw : Within (r.holdQSz-k+k) r := by
    rw [Nat.sub_add_cancel hk]
    exact h.near
  have hl := dequeLoop_iterate (e := if seqNo ≠ 0 then seqNo else r.seqNext) 4096
    h.sized.dvd (turns_fuel h.sized.dvd)
  have hi := h.iterate hw
  rw [← hl] at hi
  exact hi

theorem turns_self {sz a : Nat} (h : 0<sz) : turns sz a a = sz := by
  have hd : fwd sz (a+1) a = sz-1 := by
    refine fwd_unique h (by omega) ?_
    rw [show a+1+(sz-1) = a+sz by omega, Nat.add_mod_right]
  rw [turns, hd]
  omega

theorem turns_target {sz a e d : Nat} (h : sz ∣ 4096) (he : e % 4096 = (a+d) % 4096)
    (h1 : 1 ≤ d) (h2 : d ≤ sz) : turns sz a e = d := by
  have hs : e % sz = (a+d) % sz := by
    simpa only [Nat.mod_mod_of_dvd _ h] using congrArg (· % sz) he
  have hd : fwd sz (a+1) e = d-1 := by
    refine fwd_unique (dvd_pos h) (by omega) ?_
    rw [show a+1+(d-1) = a+d by omega, hs]
  rw [turns, hd]
  omega

theorem Inv.deque_flush {b : Nat} {r : Rxtid} (h : Inv b r) (i : Nat) :
    (RxReorder.aggrDequeFrms r 0 0).holdQ i = none := by
  have hw := (h.deque_zero 0).1
  simp only [ne_eq, not_true_eq_false, if_false, turns_self h.sized.pos, Nat.sub_self] at hw
  cases hn : (RxReorder.aggrDequeFrms r 0 0).holdQ i with
  | none => rfl
  | some n => exact absurd (hw i n hn) (Nat.not_lt_zero _)

/-- Without the residue: a number below the modulus wraps at most once. -/
theorem seqMask_add {a k : Nat} (ha : a<4096) (hk : k<4096) :
    seqMask ((a:Int)+k) = a+k ∨ seqMask ((a:Int)+k) + 4096 = a+k := by
  have h := mask_cast pos4096 ((a:Int)+k)
  rw [seqMask]
  push_cast at h
  omega

theorem wrap_fwd {a b : Nat} (ha : a<4096) (hb : b<4096) :
    b = a + fwd 4096 a b ∨ b + 4096 = a + fwd 4096 a b := by
  have h := add_fwd_mod (a := a) (b := b) pos4096
  have hlt := fwd_lt (a := a) (b := b) pos4096
  omega

/-- The first window test: `cur` is a lap or more ahead. -/
theorem outside_window {st cur sz : Nat} (h : Sized sz) (hs : st<4096) (hc : cur<4096) :
    outside st (seqMask ((st:Int)+sz-1)) cur = true ↔ sz ≤ fwd 4096 st cur := by
  have h2 := h.two_le
  have hle := h.le
  have hcur := wrap_fwd hs hc
  have hlt := fwd_lt (a := st) (b := cur) pos4096
  have hfin := seqMask_add (k := sz-1) hs (by omega)
  have hflt := seqMask_lt ((st:Int)+(sz-1:Nat))
  rw [show (st:Int)+sz-1 = st+(sz-1:Nat) by omega]
  simp only [outside, Bool.or_eq_true, Bool.and_eq_true, decide_eq_true_eq]
  omega

/-- The second window test, given the first: `cur` is two laps or more ahead. -/
theorem outside_extended {st cur sz : Nat} (h : Sized sz) (hs : st<4096) (hc : cur<4096)
    (ho : sz ≤ fwd 4096 st cur) :
    outside (seqMask ((st:Int)+sz-1)) (seqMask ((seqMask ((st:Int)+sz-1):Int)+sz)) cur = true ↔
      2*sz ≤ fwd 4096 st cur := by
  have h2 := h.two_le
  have hle := h.le
  have hcur := wrap_fwd hs hc
  have hlt := fwd_lt (a := st) (b := cur) pos4096
  have hfin := seqMask_add (k := sz-1) hs (by omega)
  have hflt := seqMask_lt ((st:Int)+(sz-1:Nat))
  have hext := seqMask_add (k := sz) hflt (by omega)
  have helt := seqMask_lt ((seqMask ((st:Int)+(sz-1:Nat)):Int)+sz)
  rw [show (st:Int)+sz-1 = st+(sz-1:Nat) by omega]
  simp only [outside, Bool.or_eq_true, Bool.and_eq_true, decide_eq_true_eq]
  omega

/-- With nothing held `seq_next` may jump anywhere. -/
theorem Inv.jump {b v : Nat} {r : Rxtid} (h : Inv b r) (he : ∀ i, r.holdQ i = none)
    (hv : v<4096) : Inv b { r.setSeqNext v with syncNextSeq := false } where
  sized := h.sized
  slot := h.slot
  near i n hn := by cases (he i).symm.trans hn
  heldId := h.heldId
  heldDistinct := h.heldDistinct
  sync hs := by cases hs
  range _ := hv
  ordered := h.ordered
  past d hd := Nat.lt_of_lt_of_le (h.past d hd) (Nat.le_add_right _ _)
  logId := h.logId
  gone := h.gone
  base := by
    have hf := add_fwd_mod (a := r.seqNext) (b := v) pos4096
    show (b+(r.adv+fwd 4096 r.seqNext v)) % 4096 = v % 4096
    rw [← Nat.add_assoc, Nat.add_mod, h.base, ← Nat.add_mod, hf]
  unwrapMod := h.unwrapMod

structure Moved (b cur : Nat) (r : Rxtid) (m : Rxtid × Bool) : Prop where
  inv : Inv b m.1
  keeps : Kept r m.1
  dropped : m.2 = true → Settled r → Settled m.1
  kept : m.2 = false → fwd 4096 m.1.seqNext cur < r.holdQSz

theorem Inv.shift_window {b cur : Nat} {r : Rxtid} (h : Inv b r)
    (h1 : r.holdQSz ≤ fwd 4096 r.seqNext cur) (h2 : fwd 4096 r.seqNext cur < 2*r.holdQSz) :
    fwd 4096 (RxReorder.aggrDequeFrms r (seqMask ((cur:Int)-(r.holdQSz-1))) 0).seqNext cur
      < r.holdQSz := by
  have hp := h.sized.pos
  have hle := h.sized.le
  obtain ⟨-, hs⟩ := h.deque_zero (seqMask ((cur:Int)-(r.holdQSz-1)))
  -- the target lies `sz-1` behind `cur`
  have hd : fwd 4096 r.seqNext (seqMask ((cur:Int)-(r.holdQSz-1))) =
      fwd 4096 r.seqNext cur - (r.holdQSz-1) := by
    refine fwd_unique pos4096 (Nat.lt_of_le_of_lt (Nat.sub_le _ _) (fwd_lt pos4096)) ?_
    have hc := add_fwd_mod (a := r.seqNext) (b := cur) pos4096
    have hm := mask_cast pos4096 ((cur:Int)-(r.holdQSz-1))
    rw [seqMask]
    push_cast at hm
    omega
  by_cases ht : seqMask ((cur:Int)-(r.holdQSz-1)) = 0
  · -- a target of 0 reads as "the whole queue"
    rw [ht] at hs ⊢
    simp only [ne_eq, not_true_eq_false, if_false, turns_self h.sized.pos] at hs
    rw [fwd_advance pos4096 hs h1]
    omega
  · rw [if_pos ht, turns_target h.sized.dvd (add_fwd_mod pos4096).symm (by omega) (by omega), hd] at hs
    rw [fwd_advance pos4096 hs (by omega)]
    omega

theorem Inv.moveWindow {b cur : Nat} {r : Rxtid} (h : Inv b r) (hs : r.syncNextSeq = false)
    (hc : cur<4096) : Moved b cur r (moveWindow r cur) := by
  have hr := h.range hs
  unfold RxReorder.moveWindow
  dsimp only
  by_cases h1 : r.holdQSz ≤ fwd 4096 r.seqNext cur
  · rw [if_pos ((outside_window h.sized hr hc).mpr h1)]
    by_cases h2 : 2*r.holdQSz ≤ fwd 4096 r.seqNext cur
    · rw [if_pos ((outside_extended h.sized hr hc h1).mpr h2)]
      split
      · -- chase: the queue is flushed before the jump
        have hf := aggrDequeFrms_kept r 0 0
        have he := h.deque_flush
        have hj := (h.aggrDequeFrms 0 0).jump he (seqMask_lt ((cur:Int)-r.holdQSz))
        rw [hf.holdQSz]
        refine ⟨?_, hf.trans ⟨rfl, rfl, rfl, rfl, rfl⟩, fun _ _ => he _, (by rintro ⟨⟩)⟩
        rw [← hs, ← hf.sync] at hj
        exact hj
      · exact ⟨h, Kept.refl r, fun _ hset => hset, (by rintro ⟨⟩)⟩
    · rw [if_neg (mt (outside_extended h.sized hr hc h1).mp h2)]
      have hf := aggrDequeFrms_kept r (seqMask ((cur:Int)-(r.holdQSz-1))) 0
      exact ⟨h.aggrDequeFrms _ _, hf, (by rintro ⟨⟩),
        fun _ => h.shift_window h1 (Nat.lt_of_not_le h2)⟩
  · rw [if_neg (mt (outside_window h.sized hr hc).mp h1)]
    exact ⟨h, Kept.refl r, (by rintro ⟨⟩), fun _ => Nat.lt_of_not_le h1⟩

theorem holdFrm_cases {r : Rxtid} {f : RecvFrm} {i : Nat} {m : HoldQ}
    (hm : (r.holdFrm f).holdQ i = some m) :
    (i = aggrWinIdx f.seqNo r.holdQSz ∧ m = f.node r.arrived) ∨
      (i ≠ aggrWinIdx f.seqNo r.holdQSz ∧ r.holdQ i = some m) := by
  change Function.update r.holdQ (aggrWinIdx f.seqNo r.holdQSz) (some (f.node r.arrived)) i
    = some m at hm
  by_cases hi : i = aggrWinIdx f.seqNo r.holdQSz
  · rw [hi, Function.update_self] at hm
    exact Or.inl ⟨hi, (Option.some.inj hm).symm⟩
  · rw [Function.update_of_ne hi] at hm
    exact Or.inr ⟨hi, hm⟩

theorem Inv.store {b : Nat} {r : Rxtid} (h : Inv b r) (hs : r.syncNextSeq = false)
    {f : RecvFrm} (hk : fwd 4096 r.seqNext f.seqNo < r.holdQSz) :
    Inv b (r.holdFrm f) := by
  refine ⟨h.sized, ?_, ?_, ?_, ?_, ?_, h.range, h.ordered, h.past, ?_, ?_, h.base, h.unwrapMod⟩
  · intro i m hm
    rcases holdFrm_cases hm with ⟨hi, rfl⟩ | ⟨-, hm⟩
    · exact hi
    · exact h.slot i m hm
  · intro i m hm
    rcases holdFrm_cases hm with ⟨-, rfl⟩ | ⟨-, hm⟩
    · exact hk
    · exact h.near i m hm
  · intro i m hm
    rcases holdFrm_cases hm with ⟨-, rfl⟩ | ⟨-, hm⟩
    · exact Nat.lt_succ_self _
    · exact Nat.lt_succ_of_lt (h.heldId i m hm)
  · intro i j m m' hm hm' he
    rcases holdFrm_cases hm with ⟨hi, rfl⟩ | ⟨-, hm⟩ <;> rcases holdFrm_cases hm' with ⟨hj, rfl⟩ | ⟨-, hm'⟩
    · rw [hi, hj]
    · exact absurd he.symm (Nat.ne_of_lt (h.heldId j m' hm'))
    · exact absurd he (Nat.ne_of_lt (h.heldId i m hm))
    · exact h.heldDistinct i j m m' hm hm' he
  · intro hs'
    cases hs.symm.trans hs'
  · exact fun d hd => Nat.lt_succ_of_lt (h.logId d hd)
  · intro d hd i m hm
    rcases holdFrm_cases hm with ⟨-, rfl⟩ | ⟨-, hm⟩
    · exact Nat.ne_of_lt (h.logId d hd)
    · exact h.gone d hd i m hm

structure SameQueue (r s : Rxtid) : Prop where
  seqNext : s.seqNext = r.seqNext
  holdQSz : s.holdQSz = r.holdQSz
  holdQ : s.holdQ = r.holdQ
  sync : s.syncNextSeq = r.syncNextSeq
  adv : s.adv = r.adv
  arrived : s.arrived = r.arrived
  log : s.log = r.log
  aggr : s.aggr = r.aggr

/-- Between events: the invariant, an open session, nothing due and no handler stuck. -/
structure Idle (b sz : Nat) (r : Rxtid) : Prop where
  inv : Inv b r
  size : r.holdQSz = sz
  settled : Settled r
  aggr : r.aggr = true
  notHung : r.hung = false

theorem Inv.same {b : Nat} {r s : Rxtid} (h : Inv b r) (hs : SameQueue r s) : Inv b s where
  sized := by rw [hs.holdQSz]; exact h.sized
  slot := by rw [hs.holdQ, hs.holdQSz]; exact h.slot
  near := by rw [hs.holdQ, hs.holdQSz, hs.seqNext]; exact h.near
  heldId := by rw [hs.holdQ, hs.arrived]; exact h.heldId
  heldDistinct := by rw [hs.holdQ]; exact h.heldDistinct
  sync := by rw [hs.holdQ, hs.sync]; exact h.sync
  range := by rw [hs.sync, hs.seqNext]; exact h.range
  ordered := by rw [hs.log]; exact h.ordered
  past := by rw [hs.log, hs.adv]; exact h.past
  logId := by rw [hs.log, hs.arrived]; exact h.logId
  gone := by rw [hs.log, hs.holdQ]; exact h.gone
  base := by rw [hs.adv, hs.seqNext]; exact h.base
  unwrapMod := by rw [hs.log]; exact h.unwrapMod

theorem Settled.same {r s : Rxtid} (h : Settled r) (hs : SameQueue r s) : Settled s := by
  rw [Settled, hs.holdQ, hs.seqNext, hs.holdQSz]
  exact h

theorem recvArmTimer_same (r : Rxtid) :
    SameQueue r (recvArmTimer r) ∧ (recvArmTimer r).hung = r.hung := by
  unfold recvArmTimer
  dsimp only
  split <;> split <;> (try split) <;> exact ⟨⟨rfl, rfl, rfl, rfl, rfl, rfl, rfl, rfl⟩, rfl⟩

theorem Idle.same {b sz : Nat} {r s : Rxtid} (h : Idle b sz r) (hs : SameQueue r s)
    (hh : s.hung = false) : Idle b sz s :=
  ⟨h.inv.same hs, hs.holdQSz.trans h.size, h.settled.same hs, hs.aggr.trans h.aggr, hh⟩

theorem Idle.restart {b sz : Nat} {r : Rxtid} (h : Idle b sz r) (n : Nat) :
    Idle b sz { r with continuousCount := n } :=
  h.same ⟨rfl, rfl, rfl, rfl, rfl, rfl, rfl, rfl⟩ h.notHung

theorem Inv.settle {b : Nat} {r : Rxtid} (h : Inv b r) (ha : r.aggr = true)
    (hh : r.hung = false) : Idle b r.holdQSz (RxReorder.aggrDequeFrms r 0 1) :=
  have hk := aggrDequeFrms_kept r 0 1
  ⟨h.aggrDequeFrms 0 1, hk.holdQSz, aggrDequeFrms_settled h.sized.dvd, hk.aggr.trans ha, hk.hung.trans hh⟩

theorem Inv.syncSeqNext {b : Nat} {r : Rxtid} (h : Inv b r) (v : Fin 4096) :
    Inv b (r.syncSeqNext v) ∧ (r.syncSeqNext v).syncNextSeq = false ∧
    (r.syncSeqNext v).holdQSz = r.holdQSz ∧ (r.syncSeqNext v).aggr = r.aggr ∧ (r.syncSeqNext v).hung = r.hung ∧
    (Settled r → Settled (r.syncSeqNext v)) := by
  unfold Rxtid.syncSeqNext
  split
  · rename_i hs
    exact ⟨h.jump (h.sync hs) v.isLt, rfl, rfl, rfl, rfl, fun _ => h.sync hs _⟩
  · rename_i hs
    exact ⟨h, by simpa using hs, rfl, rfl, rfl, id⟩

theorem Idle.recv {b sz : Nat} {r : Rxtid} (h : Idle b sz r) (f : RecvFrm) :
    Idle b sz (aggrProcessRecvFrm false r f).1 := by
  obtain ⟨hi, hs, hz, ha, hh, hset⟩ := h.inv.syncSeqNext f.seqNo
  have hm := hi.moveWindow hs f.seqNo.isLt
  unfold aggrProcessRecvFrm
  rw [if_neg (by simp [h.aggr])]
  generalize hw : RxReorder.moveWindow (r.syncSeqNext f.seqNo) f.seqNo = m at hm
  obtain ⟨s, dropIt⟩ := m
  have hsize : s.holdQSz = sz := (hm.keeps.holdQSz.trans hz).trans h.size
  have hopen : s.aggr = true := (hm.keeps.aggr.trans ha).trans h.aggr
  have hrun : s.hung = false := (hm.keeps.hung.trans hh).trans h.notHung
  dsimp only
  split
  · -- the frame is dropped
    rename_i hd
    exact ⟨hm.inv, hsize, hm.dropped hd.1 (hset h.settled), hopen, hrun⟩
  · rename_i hd
    have hk := hm.kept (by simpa using hd)
    rw [← hm.keeps.holdQSz] at hk
    have hst := (hm.inv.store (hm.keeps.sync.trans hs) hk).settle hopen hrun
    obtain ⟨hsame, hhung⟩ := recvArmTimer_same (RxReorder.aggrDequeFrms (s.holdFrm f) 0 1)
    rw [← hsize]
    exact hst.same hsame (hhung.trans hst.notHung)

theorem Idle.dequeue {b sz : Nat} {r : Rxtid} (h : Idle b sz r) (v : Nat) :
    Idle b sz (RxReorder.aggrDequeFrms (RxReorder.aggrDequeFrms r v 0) 0 1) := by
  have hk := aggrDequeFrms_kept r v 0
  rw [← h.size, ← hk.holdQSz]
  exact (h.inv.aggrDequeFrms v 0).settle (hk.aggr.trans h.aggr) (hk.hung.trans h.notHung)

theorem timeoutScan_same (r : Rxtid) : SameQueue r (timeoutScan r) := by
  unfold timeoutScan
  split <;> exact ⟨rfl, rfl, rfl, rfl, rfl, rfl, rfl, rfl⟩

theorem timeoutScan_notHung {r : Rxtid} (hs : r.holdQSz<256) (hh : r.hung = false) :
    (timeoutScan r).hung = false := by
  unfold timeoutScan
  split
  · exact hh
  · simpa using hs

theorem timeoutRearm_same (r : Rxtid) :
    SameQueue r (timeoutRearm r) ∧ (timeoutRearm r).hung = r.hung := by
  unfold timeoutRearm
  dsimp only
  split <;> split <;> exact ⟨⟨rfl, rfl, rfl, rfl, rfl, rfl, rfl, rfl⟩, rfl⟩

theorem Idle.timeout {b sz : Nat} {r : Rxtid} (h : Idle b sz r) (hsz : sz<256) :
    Idle b sz (aggrTimeout r) := by
  unfold aggrTimeout
  split
  · exact h
  · dsimp only
    have hd := timeoutDeque_keeps (P := Idle b sz) (fun _ v hs => hs.dequeue v)
      (fun _ hs => hs.restart 0) h
    generalize (if r.timerwaitSeqNum = r.seqNext then timeoutDeque r else r) = s at hd ⊢
    have h0 : Idle b sz { s with tidTimerScheduled := false } :=
      hd.same ⟨rfl, rfl, rfl, rfl, rfl, rfl, rfl, rfl⟩ hd.notHung
    have hs := timeoutScan_same { s with tidTimerScheduled := false }
    have hh := timeoutScan_notHung (h0.size ▸ hsz) h0.notHung
    obtain ⟨ht, hg⟩ := timeoutRearm_same (timeoutScan { s with tidTimerScheduled := false })
    exact (h0.same hs hh).same ht (hg.trans hh)

theorem Idle.step {b sz : Nat} {r : Rxtid} (h : Idle b sz r) (hsz : sz<256) (e : Event) :
    Idle b sz (RxReorder.step false r e) := by
  cases e with
  | recv f =>
    rw [RxReorder.step, if_neg (by simp [h.notHung])]
    exact h.recv f
  | timeout =>
    rw [RxReorder.step, if_neg (by simp [h.notHung])]
    exact (h.same (s := { r with tidTimer := none }) ⟨rfl, rfl, rfl, rfl, rfl, rfl, rfl, rfl⟩
      h.notHung).timeout hsz

/-- What the stack and the hold queue look like during a session. -/
structure InOrder (seqNo winSz : Nat) (r : Rxtid) : Prop where
  size : r.holdQSz = 2*winSz
  slots : ∀ i n, r.holdQ i = some n → n.seqNo % r.holdQSz = i ∧
    1 ≤ fwd 4096 r.seqNext n.seqNo ∧ fwd 4096 r.seqNext n.seqNo ≤ r.holdQSz-1
  ordered : r.delivered.Pairwise Delivery.Before
  past : ∀ d∈r.delivered, d.unwrapped < r.adv
  unwrap : ∀ d∈r.delivered, (seqNo + d.unwrapped) % 4096 = d.seqNo % 4096

theorem Idle.inOrder {b winSz : Nat} {r : Rxtid} (h : Idle b (2*winSz) r) :
    InOrder b winSz r where
  size := h.size
  slots i n hn := by
    have hlt := h.inv.near i n hn
    refine ⟨(h.inv.slot i n hn).symm, h.inv.ahead hn ?_, by omega⟩
    rintro rfl
    cases h.settled.symm.trans hn
  ordered := (List.pairwise_append.mp h.inv.ordered).1
  past d hd := h.inv.past d (List.mem_append_left _ hd)
  unwrap d hd := h.inv.unwrapMod d (List.mem_append_left _ hd)

/-- A session opens with an empty hold queue and `seq_next` as announced. -/
structure Fresh (seqNo winSz : Nat) (r : Rxtid) : Prop where
  seqNext : r.seqNext = seqNo
  holdQSz : r.holdQSz = tidWindowSz winSz
  holdQ : ∀ i, r.holdQ i = none
  sync : r.syncNextSeq = true
  adv : r.adv = 0
  log : r.log = []

theorem openSession_fresh {r : Rxtid} {seqNo winSz : Nat}
    (h : (openSession r seqNo winSz).aggr = true) :
    Fresh seqNo winSz (openSession r seqNo winSz) := by
  unfold openSession aggrRecvAddbaReqEvt at h ⊢
  have hclosed : (if r.aggr then aggrDeleteTidState r else r).aggr = false := by
    split
    · rfl
    · rename_i ha
      simpa using ha
  generalize (if r.aggr then aggrDeleteTidState r else r) = s at h hclosed ⊢
  cases hq : s.q with
  | nil =>
    simp only [Rxtid.setSeqNext, hq, List.isEmpty_nil, Bool.not_true, Bool.false_eq_true, if_false]
    exact ⟨rfl, rfl, fun _ => rfl, rfl, rfl, rfl⟩
  | cons d ds =>
    -- a frame left on `rxtid->q` keeps the session shut
    simp [Rxtid.setSeqNext, hq, hclosed] at h

theorem Fresh.idle {seqNo winSz : Nat} {r : Rxtid} (h : Fresh seqNo winSz r)
    (hw : Sized (2*winSz)) (ha : r.aggr = true) (hh : r.hung = false) :
    Idle seqNo (2*winSz) r where
  inv := {
    sized := by rw [h.holdQSz]; exact hw
    slot := fun i n hn => by cases (h.holdQ i).symm.trans hn
    near := fun i n hn => by cases (h.holdQ i).symm.trans hn
    heldId := fun i n hn => by cases (h.holdQ i).symm.trans hn
    heldDistinct := fun i j m n hm => by cases (h.holdQ i).symm.trans hm
    sync := fun _ => h.holdQ
    range := fun hs => by cases h.sync.symm.trans hs
    ordered := by rw [h.log]; exact List.Pairwise.nil
    past := by rw [h.log]; exact fun d hd => nomatch hd
    logId := by rw [h.log]; exact fun d hd => nomatch hd
    gone := by rw [h.log]; exact fun d hd => nomatch hd
    base := by rw [h.adv, h.seqNext, Nat.add_zero]
    unwrapMod := by rw [h.log]; exact fun d hd => nomatch hd }
  size := h.holdQSz
  settled := h.holdQ _
  aggr := ha
  notHung := hh

theorem run_hung {r : Rxtid} (h : r.hung = true) (evs : List Event) :
    run (step false) r evs = r :=
  run_invariant (I := fun s => s = r) (by
    rintro s (f | _) rfl
    · exact if_pos h
    · exact if_pos h) rfl evs

theorem sized_of_winSz {winSz : Nat} (h : winSz = 2 ∨ winSz = 4 ∨ winSz = 8) :
    Sized (2*winSz) := by
  rcases h with rfl | rfl | rfl <;> exact ⟨by decide, by decide, by decide⟩

/-- In every state of a session, whatever frames arrive and timers expire, the held
frames sit in their slots ahead of `seq_next` and the stack has got each frame once
and in sequence order. -/
theorem rx_reorder_in_order (r : Rxtid) (seqNo winSz : Nat)
    (hw : winSz = 2 ∨ winSz = 4 ∨ winSz = 8)
    (hopen : (openSession r seqNo winSz).aggr = true) (evs : List Event) :
    InOrder seqNo winSz (run (step false) (openSession r seqNo winSz) evs) := by
  have hf := openSession_fresh hopen
  cases hh : (openSession r seqNo winSz).hung with
  | false =>
    have hlt : 2*winSz<256 := by omega
    have h0 := hf.idle (sized_of_winSz hw) hopen hh
    exact (run_invariant (I := Idle seqNo (2*winSz)) (fun _ e hs => hs.step hlt e) h0 evs).inOrder
  | true =>
    -- the session of a hung TID never sees an event
    rw [run_hung hh]
    have hd : (openSession r seqNo winSz).delivered = [] := (List.append_eq_nil_iff.mp hf.log).1
    refine ⟨hf.holdQSz, fun i n hn => ?_, ?_, ?_, ?_⟩
    · cases (hf.holdQ i).symm.trans hn
    · rw [hd]
      exact List.Pairwise.nil
    · rw [hd]
      exact fun d hd => nomatch hd
    · rw [hd]
      exact fun d hd => nomatch hd

theorem rx_reorder_in_order_wrap :
    InOrder 4094 2 (run (step false) (openSession {} 4094 2)
      [.recv ⟨4094, false, ⟨[1], fun _ => 0⟩, 0⟩, .recv ⟨0, false, ⟨[2], fun _ => 0⟩, 0⟩, .timeout,
        .recv ⟨1, false, ⟨[3], fun _ => 0⟩, 0⟩]) :=
  rx_reorder_in_order {} 4094 2 (Or.inl rfl) rfl _

-- the timer dequeues up to sequence number 0, read as a whole lap: frame 1 is late
example : (run (step false) (openSession {} 4094 2)
    [.recv ⟨4094, false, ⟨[1], fun _ => 0⟩, 0⟩, .recv ⟨0, false, ⟨[2], fun _ => 0⟩, 0⟩, .timeout,
      .recv ⟨1, false, ⟨[3], fun _ => 0⟩, 0⟩]).delivered.map
    (fun d => (d.unwrapped, d.frame)) = [(0, [1]), (2, [2])] := by rfl

end Ath6kl.RxReorder
