import Ath6kl.RxReorderSession

/-! How far `aggr_deque_frms` moves the window, from any state of the hold queue. A target
of 0 reads as "flush the whole window". -/
namespace Ath6kl.RxReorder
open EthFrame Lib.SeqSpace Lib.Machine

/-- Every held frame is in the slot of its number. -/
def Slotted (r : Rxtid) : Prop :=
  ∀ i n, r.holdQ i = some n → 0 < r.holdQSz ∧ i = aggrWinIdx n.seqNo r.holdQSz

/-- The hold queue without some of its frames. -/
structure Drained (r s : Rxtid) : Prop where
  size : s.holdQSz = r.holdQSz
  held : ∀ i n, s.holdQ i = some n → r.holdQ i = some n

theorem Drained.refl (r : Rxtid) : Drained r r := ⟨rfl, fun _ _ h => h⟩

theorem Drained.trans {r s t : Rxtid} (h : Drained r s) (k : Drained s t) : Drained r t :=
  ⟨k.size.trans h.size, fun i n hn => h.held i n (k.held i n hn)⟩

theorem SameQueue.drained {r s : Rxtid} (h : SameQueue r s) : Drained r s :=
  ⟨h.holdQSz, fun i n hn => by rwa [h.holdQ] at hn⟩

theorem Slotted.drained {r s : Rxtid} (h : Slotted r) (hd : Drained r s) : Slotted s := by
  intro i n hn
  rw [hd.size]
  exact h i n (hd.held i n hn)

theorem dequeStep_drained (r : Rxtid) : Drained r (dequeStep r) := by
  refine ⟨(dequeStep_kept r).holdQSz, fun i n hn => ?_⟩
  rw [dequeStep_holdQ, Function.update_apply] at hn
  split at hn
  · cases hn
  · exact hn

theorem dequeLoop_drained (idxEnd order fuel : Nat) (r : Rxtid) :
    Drained r (dequeLoop idxEnd order fuel r) :=
  dequeLoop_keeps (P := Drained r) (fun s hs => hs.trans (dequeStep_drained s)) idxEnd order fuel
    (Drained.refl r)

theorem aggrDequeFrms_drained (r : Rxtid) (seqNo order : Nat) :
    Drained r (aggrDequeFrms r seqNo order) :=
  (dequeLoop_drained _ order 4096 r).trans ⟨rfl, fun _ _ h => h⟩

theorem moveWindow_drained (r : Rxtid) (cur : Nat) : Drained r (moveWindow r cur).1 :=
  moveWindow_keeps (P := Drained r) (fun s v hs => hs.trans (aggrDequeFrms_drained s v 0))
    (fun _ _ hs => hs.trans ⟨rfl, fun _ _ h => h⟩) (Drained.refl r) cur

theorem syncSeqNext_drained (r : Rxtid) (seqNo : Nat) : Drained r (r.syncSeqNext seqNo) := by
  unfold Rxtid.syncSeqNext
  split <;> exact ⟨rfl, fun _ _ h => h⟩

theorem timeoutDeque_drained (r : Rxtid) :
    Drained r (if r.timerwaitSeqNum = r.seqNext then timeoutDeque r else r) :=
  timeoutDeque_keeps (P := Drained r)
    (fun s v hs => hs.trans
      ((aggrDequeFrms_drained s v 0).trans (aggrDequeFrms_drained _ 0 1)))
    (fun _ hs => hs.trans ⟨rfl, fun _ _ h => h⟩) (Drained.refl r)

theorem aggrTimeout_drained (r : Rxtid) : Drained r (aggrTimeout r) := by
  unfold aggrTimeout
  split
  · exact Drained.refl r
  · dsimp only
    have hd := timeoutDeque_drained r
    generalize (if r.timerwaitSeqNum = r.seqNext then timeoutDeque r else r) = s at hd ⊢
    have hs := (timeoutScan_same { s with tidTimerScheduled := false }).drained
    have hr := (timeoutRearm_same (timeoutScan { s with tidTimerScheduled := false })).1.drained
    have h0 : Drained s { s with tidTimerScheduled := false } := ⟨rfl, fun _ _ h => h⟩
    exact hd.trans (h0.trans (hs.trans hr))

theorem Slotted.holdFrm {r : Rxtid} (h : Slotted r) (hz : 0 < r.holdQSz) (f : RecvFrm) :
    Slotted (r.holdFrm f) := by
  intro i n hn
  rcases holdFrm_cases hn with ⟨hi, rfl⟩ | ⟨-, hn⟩
  · exact ⟨hz, hi⟩
  · exact h i n hn

theorem Slotted.recv {r : Rxtid} (h : Slotted r) (hz : r.aggr = true → 0 < r.holdQSz)
    (disableRxAggrDrop : Bool) (f : RecvFrm) :
    Slotted (aggrProcessRecvFrm disableRxAggrDrop r f).1 := by
  unfold aggrProcessRecvFrm
  split
  · split <;> exact h
  · rename_i ha
    have hd := (syncSeqNext_drained r f.seqNo).trans
      (moveWindow_drained (r.syncSeqNext f.seqNo) f.seqNo)
    have hpos : 0 < r.holdQSz := hz (by simpa using ha)
    generalize moveWindow (r.syncSeqNext f.seqNo) f.seqNo = m at hd ⊢
    obtain ⟨s, dropIt⟩ := m
    dsimp only
    split
    · exact h.drained hd
    · have hs := (h.drained hd).holdFrm (by rw [hd.size]; exact hpos) f
      exact hs.drained ((aggrDequeFrms_drained _ 0 1).trans (recvArmTimer_same _).1.drained)

theorem addbaReq_holdQ (r : Rxtid) (seqNo winSz : Nat) (alloc : Bool) (i : Nat) :
    (aggrRecvAddbaReqEvt r seqNo winSz alloc).holdQ i = none := by
  unfold aggrRecvAddbaReqEvt
  generalize (if r.aggr then aggrDeleteTidState r else r) = s
  dsimp only
  split
  · rfl
  · split <;> rfl

theorem Slotted.tidStep {d : Bool} {t : Tid} (h : Slotted t.r) (e : TidEvent) :
    Slotted (tidStep d t e).r := by
  unfold RxReorder.tidStep
  split
  · split
    · exact h
    · rename_i hf
      cases e with
      | addbaReq seqNo winSz alloc =>
        intro i n hn
        cases (addbaReq_holdQ t.r seqNo winSz alloc i).symm.trans hn
      | delbaReq =>
        show Slotted (if t.r.aggr then aggrDeleteTidState t.r else t.r)
        split
        · exact fun i n hn => nomatch hn
        · exact h
      | resetState => exact fun i n hn => nomatch hn
      | recv f =>
        refine h.recv (fun ha => ?_) d f
        simpa [faults, ha, Nat.pos_iff_ne_zero] using hf
      | timeout =>
        show Slotted (if t.r.tidTimer.isSome then aggrTimeout { t.r with tidTimer := none } else t.r)
        split
        · exact Slotted.drained (r := { t.r with tidTimer := none }) h (aggrTimeout_drained _)
        · exact h
  · exact h

theorem slotted_run (d : Bool) (setting : Nat) (es : List TidEvent) :
    Slotted (run (tidStep d) (aggrInitConn setting) es).r :=
  run_invariant (I := fun t : Tid => Slotted t.r) (fun _ e h => h.tidStep e)
    (show Slotted (aggrInitConn setting).r from fun _ _ hn => nomatch hn) es

/-- What the frame held with number `seq_next+k` hands to the stack. -/
def Rxtid.dueAt (r : Rxtid) (k : Nat) : List Delivery :=
  match r.holdQ (aggrWinIdx (r.seqNext+k) r.holdQSz) with
  | some n => if fwd 4096 r.seqNext n.seqNo = k then n.deliveries (r.adv+k) else []
  | none => []

/-- `s` is `r` with the window moved forward by `d`: the frames numbered in
`[seq_next, seq_next+d)` have gone to the stack in order and no other has left. -/
structure Moves (r s : Rxtid) (d : Nat) : Prop where
  seqNext : s.seqNext = (r.seqNext+d) % 4096
  delivered : s.log = r.log ++ (List.range d).flatMap r.dueAt
  handed : s.q = []
  kept : ∀ i, s.holdQ i = (r.holdQ i).filter fun n => d ≤ fwd 4096 r.seqNext n.seqNo

variable {r : Rxtid} {k : Nat}

theorem dequeStep_adv (r : Rxtid) : (dequeStep r).adv = r.adv+1 := by
  have h1 : r.adv + fwd 4096 r.seqNext (ath6klNextSeqNo r.seqNext) = r.adv+1 := by
    rw [fwd_nextSeqNo]
  cases h : r.holdQ (aggrWinIdx r.seqNext r.holdQSz) with
  | none => rw [dequeStep_none h]; exact h1
  | some n => rw [dequeStep_some h]; exact h1

theorem iterate_size (r : Rxtid) (k : Nat) : (dequeStep^[k] r).holdQSz = r.holdQSz := by
  induction k with
  | zero => rfl
  | succ k ih => rw [Function.iterate_succ_apply', (dequeStep_kept _).holdQSz, ih]

theorem iterate_adv (r : Rxtid) (k : Nat) : (dequeStep^[k] r).adv = r.adv+k := by
  induction k with
  | zero => rfl
  | succ k ih => rw [Function.iterate_succ_apply', dequeStep_adv, ih, Nat.add_assoc]

theorem iterate_seqNext (r : Rxtid) (k : Nat) :
    (dequeStep^[k] r).seqNext % 4096 = (r.seqNext+k) % 4096 := by
  induction k with
  | zero => rfl
  | succ k ih =>
    rw [Function.iterate_succ_apply', dequeStep_seqNext, nextSeqNo_mod, Nat.add_mod, ih,
      ← Nat.add_mod, Nat.add_assoc]

theorem iterate_seqNext_lt (r : Rxtid) (hk : 1≤k) : (dequeStep^[k] r).seqNext < 4096 := by
  obtain ⟨k, rfl⟩ := Nat.exists_eq_add_of_le' hk
  rw [Function.iterate_succ_apply', dequeStep_seqNext]
  exact nextSeqNo_lt _

theorem iterate_idx (h : r.holdQSz ∣ 4096) (k : Nat) :
    aggrWinIdx (dequeStep^[k] r).seqNext r.holdQSz = aggrWinIdx (r.seqNext+k) r.holdQSz := by
  simpa only [aggrWinIdx, Nat.mod_mod_of_dvd _ h] using
    congrArg (· % r.holdQSz) (iterate_seqNext r k)

/-- Within a lap, `k` turns empty the first `k` slots from `seq_next` on. -/
theorem iterate_holdQ (h : r.holdQSz ∣ 4096) {i : Nat} (hi : i<r.holdQSz)
    (hk : k ≤ r.holdQSz) :
    (dequeStep^[k] r).holdQ i = if fwd r.holdQSz r.seqNext i < k then none else r.holdQ i := by
  induction k with
  | zero => rfl
  | succ k ih =>
    have hiff : i = aggrWinIdx (r.seqNext+k) r.holdQSz ↔ fwd r.holdQSz r.seqNext i = k := by
      constructor
      · rintro rfl
        exact fwd_unique (dvd_pos h) hk (Nat.mod_mod _ _).symm
      · rintro rfl
        rw [aggrWinIdx, add_fwd_mod (dvd_pos h), Nat.mod_eq_of_lt hi]
    rw [Function.iterate_succ_apply', dequeStep_holdQ, Function.update_apply, iterate_size,
      iterate_idx h, ih (Nat.le_of_succ_le hk)]
    by_cases he : fwd r.holdQSz r.seqNext i = k
    · rw [if_pos (hiff.mpr he), if_pos (by omega)]
    · rw [if_neg (mt hiff.mp he)]
      by_cases hlt : fwd r.holdQSz r.seqNext i < k
      · rw [if_pos hlt, if_pos (by omega)]
      · rw [if_neg hlt, if_neg (by omega)]

/-- No frame a lap ahead is held in the first `d` slots. -/
def Clear (r : Rxtid) (d : Nat) : Prop :=
  ∀ i n, r.holdQ i = some n → fwd r.holdQSz r.seqNext i < d → fwd 4096 r.seqNext n.seqNo < r.holdQSz

theorem dequeStep_log (r : Rxtid) : (dequeStep r).log = r.log ++
    match r.holdQ (aggrWinIdx r.seqNext r.holdQSz) with
    | some n => n.deliveries (r.unwrap n.seqNo)
    | none => [] := by
  cases h : r.holdQ (aggrWinIdx r.seqNext r.holdQSz) with
  | none => rw [dequeStep_none h]; exact (List.append_nil _).symm
  | some n => rw [dequeStep_some h]; exact (List.append_assoc ..).symm

theorem Slotted.dist (hs : Slotted r) (h : r.holdQSz ∣ 4096) {i : Nat} {n : HoldQ}
    (hn : r.holdQ i = some n) (hw : fwd 4096 r.seqNext n.seqNo < r.holdQSz) :
    fwd r.holdQSz r.seqNext i = fwd 4096 r.seqNext n.seqNo := by
  refine fwd_unique (dvd_pos h) hw ?_
  rw [slot_fwd pos4096 h, (hs i n hn).2, aggrWinIdx, Nat.mod_mod]

theorem iterate_log (h : r.holdQSz ∣ 4096) (hs : Slotted r) (hk : k ≤ r.holdQSz)
    (hc : Clear r k) :
    (dequeStep^[k] r).log = r.log ++ (List.range k).flatMap r.dueAt := by
  induction k with
  | zero => simp
  | succ k ih =>
    have hpre := ih (Nat.le_of_succ_le hk) fun i n hn hlt => hc i n hn (Nat.lt_succ_of_lt hlt)
    have hlt : aggrWinIdx (r.seqNext+k) r.holdQSz < r.holdQSz := Nat.mod_lt _ (dvd_pos h)
    have hfwd : fwd r.holdQSz r.seqNext (aggrWinIdx (r.seqNext+k) r.holdQSz) = k :=
      fwd_unique (dvd_pos h) hk (Nat.mod_mod _ _).symm
    rw [Function.iterate_succ_apply', dequeStep_log, hpre, iterate_size, iterate_idx h,
      iterate_holdQ h hlt (Nat.le_of_succ_le hk), hfwd, if_neg (Nat.lt_irrefl k), List.range_succ,
      List.flatMap_append, List.append_assoc, List.flatMap_singleton, Rxtid.dueAt]
    congr 2
    cases hn : r.holdQ (aggrWinIdx (r.seqNext+k) r.holdQSz) with
    | none => rfl
    | some n =>
      have hd : fwd 4096 r.seqNext n.seqNo = k := by
        rw [← hs.dist h hn (hc _ n hn (by omega)), hfwd]
      have hz : fwd 4096 (dequeStep^[k] r).seqNext n.seqNo = 0 := by
        rw [fwd_advance pos4096 (iterate_seqNext r k) (Nat.le_of_eq hd.symm)]
        omega
      simp only [hd, if_true, Rxtid.unwrap, iterate_adv, hz, Nat.add_zero]

theorem iterate_moves (h : r.holdQSz ∣ 4096) (hs : Slotted r) {d : Nat} (h1 : 1≤d)
    (hd : d ≤ r.holdQSz) : Moves r (dequeStep^[d] r).deliverQ d ↔ Clear r d := by
  constructor
  · intro hm i n hn hlt
    by_contra hge
    have hi : i<r.holdQSz := by
      rw [(hs i n hn).2]
      exact Nat.mod_lt _ (dvd_pos h)
    have hkept := hm.kept i
    have hgone : (dequeStep^[d] r).deliverQ.holdQ i = none :=
      (iterate_holdQ h hi hd).trans (if_pos hlt)
    rw [hgone, hn, Option.filter_some, if_pos (by simp; omega)] at hkept
    cases hkept
  · intro hc
    refine ⟨?_, ?_, rfl, fun i => ?_⟩
    · rw [← iterate_seqNext, Nat.mod_eq_of_lt (iterate_seqNext_lt r h1)]
      rfl
    · rw [log_deliverQ, iterate_log h hs hd hc]
    · show (dequeStep^[d] r).holdQ i = _
      by_cases hi : i<r.holdQSz
      · rw [iterate_holdQ h hi hd]
        cases hn : r.holdQ i with
        | none => simp
        | some n =>
          by_cases hlt : fwd r.holdQSz r.seqNext i < d
          · have hdist := hs.dist h hn (hc i n hn hlt)
            rw [if_pos hlt, Option.filter_some, if_neg (by simp; omega)]
          · have hge : d ≤ fwd 4096 r.seqNext n.seqNo := by
              by_cases hw : fwd 4096 r.seqNext n.seqNo < r.holdQSz
              · rw [← hs.dist h hn hw]
                omega
              · omega
            rw [if_neg hlt, Option.filter_some, if_pos (by simpa using hge)]
      · -- there is no such slot
        have hnone : r.holdQ i = none := by
          cases hn : r.holdQ i with
          | none => rfl
          | some n =>
            have hidx := (hs i n hn).2
            exact absurd (hidx ▸ Nat.mod_lt _ (dvd_pos h)) hi
        have hsub : Drained r (dequeStep^[d] r) := by
          clear h1 hd hc
          induction d with
          | zero => exact Drained.refl r
          | succ d ih =>
            rw [Function.iterate_succ_apply']
            exact ih.trans (dequeStep_drained _)
        cases hk : (dequeStep^[d] r).holdQ i with
        | none => rw [hnone]; rfl
        | some n => cases hnone.symm.trans (hsub.held i n hk)

/-- `aggr_deque_frms(.., T, 0)` moves the window to `T` exactly when `T` is not 0, or lies a
whole lap ahead, and none of the slots in between holds a frame from beyond the window. -/
theorem deque_moves_window (r : Rxtid) (hs : Slotted r) (hz : r.holdQSz ∣ 4096) (d : Nat)
    (h1 : 1≤d) (hd : d ≤ r.holdQSz) :
    Moves r (aggrDequeFrms r ((r.seqNext+d) % 4096) 0) d ↔
      ((r.seqNext+d) % 4096 ≠ 0 ∨ d = r.holdQSz) ∧ Clear r d := by
  have hrun : aggrDequeFrms r ((r.seqNext+d) % 4096) 0 = (dequeStep^[turns r.holdQSz r.seqNext
      (if (r.seqNext+d) % 4096 ≠ 0 then (r.seqNext+d) % 4096 else r.seqNext)] r).deliverQ :=
    congrArg Rxtid.deliverQ (dequeLoop_iterate 4096 hz (turns_fuel hz))
  rw [hrun]
  by_cases hT : (r.seqNext+d) % 4096 ≠ 0
  · rw [if_pos hT, turns_target hz (Nat.mod_mod _ _) h1 hd, iterate_moves hz hs h1 hd]
    simp [hT]
  · rw [if_neg hT, turns_self (dvd_pos hz)]
    have hlap := iterate_seqNext r r.holdQSz
    rw [Nat.mod_eq_of_lt (iterate_seqNext_lt r (dvd_pos hz))] at hlap
    constructor
    · intro hm
      -- the whole lap ends where the target says only if the target is a lap ahead
      have hend : (r.seqNext+r.holdQSz) % 4096 = (r.seqNext+d) % 4096 := hlap.symm.trans hm.seqNext
      have hle := Nat.le_of_dvd pos4096 hz
      have he : d = r.holdQSz := by
        by_contra hne
        omega
      rw [he, iterate_moves hz hs (dvd_pos hz) (Nat.le_refl _)] at hm
      exact ⟨Or.inr he, he ▸ hm⟩
    · rintro ⟨h0 | he, hc⟩
      · exact absurd h0 hT
      · rw [he] at hc ⊢
        exact (iterate_moves hz hs (dvd_pos hz) (Nat.le_refl _)).mpr hc

def mpdu (seqNo : Fin 4096) : RecvFrm := ⟨seqNo, false, ⟨[], fun _ => 0⟩, 0⟩

/-- A session of 4 slots that waits for frame 4095 and holds frame 1. -/
def waiting4095 : Rxtid :=
  (run (tidStep false) (aggrInitConn 100)
    [.addbaReq 4094 2 true, .recv (mpdu 4094), .recv (mpdu 1)]).r

theorem deque_moves_window_held :
    Moves waiting4095 (aggrDequeFrms waiting4095 ((waiting4095.seqNext+3) % 4096) 0) 3 ↔
      ((waiting4095.seqNext+3) % 4096 ≠ 0 ∨ 3 = waiting4095.holdQSz) ∧ Clear waiting4095 3 :=
  deque_moves_window waiting4095 (slotted_run false 100 _) (by decide) 3 (by decide) (by decide)

/-- When the timer gives up on frame 4095 the window goes to 3 instead of 0, and frame 2 is
then rejected as old. -/
theorem deque_to_zero_overruns :
    Slotted waiting4095 ∧ waiting4095.holdQSz = 4 ∧ waiting4095.seqNext = 4095 ∧
    waiting4095.timerwaitSeqNum = 4095 ∧ waiting4095.tidTimer = some 100 ∧
    ¬ Moves waiting4095 (aggrDequeFrms waiting4095 ((waiting4095.seqNext+1) % 4096) 0) 1 ∧
    (aggrProcessRecvFrm false (aggrDequeFrms waiting4095 0 0) (mpdu 2)).1 =
      aggrDequeFrms waiting4095 0 0 :=
  ⟨slotted_run false 100 _, rfl, rfl, rfl, rfl, fun h => absurd h.seqNext (by decide), rfl⟩

end Ath6kl.RxReorder
