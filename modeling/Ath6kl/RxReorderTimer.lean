import Ath6kl.RxReorderWindow

/-! No frame is stranded in the hold queue. `tid_timer_scheduled` repeats what the kernel
timer knows; it outlives a timer that expires while no session is open, and the next session
can then wait for the number the old timer waited for. -/
namespace Ath6kl.RxReorder
open EthFrame Lib.SeqSpace Lib.Machine

/-- Some slot holds a frame. -/
def Waiting (r : Rxtid) : Prop := ∃ i n, r.holdQ i = some n

/-- In an open session a held frame has a pending timer. -/
def Timed (t : Tid) : Prop := t.Up → t.r.aggr = true → Waiting t.r → t.r.tidTimer.isSome = true

/-- `v` is the first number after `st` with the slot of `e`. -/
def FirstAfter (sz st e v : Nat) : Prop :=
  ∃ k, 1≤k ∧ k ≤ 4096 ∧ v = (st+k) % 4096 ∧ aggrWinIdx v sz = aggrWinIdx e sz ∧
    ∀ j, 1≤j → j<k → aggrWinIdx ((st+j) % 4096) sz ≠ aggrWinIdx e sz

/-- A frame numbered `cur` is put into an empty queue with the window at `v`. -/
def MeetsWindow (disableRxAggrDrop : Bool) (sz st cur v : Nat) : Prop :=
  let fin := seqMask ((st:Int)+sz-1)
  if outside st fin cur then
    if outside fin (seqMask ((fin:Int)+sz)) cur then
      let rangeVal := seqMask ((cur:Int)-st)
      disableRxAggrDrop = true ∧
        v = if 2*sz ≤ rangeVal ∧ rangeVal ≤ ath6klMaxSeqNo-2*sz+1 then seqMask ((cur:Int)-sz) else st
    else
      let target := seqMask ((cur:Int)-(sz-1))
      FirstAfter sz st (if target ≠ 0 then target else st) v
  else v = st

/-- The flag is left over from a timer that has expired, and the frame is to wait for the
very number that timer waited for. -/
structure Strands (disableRxAggrDrop : Bool) (t : Tid) (f : RecvFrm) : Prop where
  up : t.Up
  aggr : t.r.aggr = true
  sized : 0 < t.r.holdQSz
  scheduled : t.r.tidTimerScheduled = true
  expired : t.r.tidTimer = none
  waits : MeetsWindow disableRxAggrDrop t.r.holdQSz
    (if t.r.syncNextSeq then f.seqNo else t.r.seqNext) f.seqNo t.r.timerwaitSeqNum
  early : aggrWinIdx t.r.timerwaitSeqNum t.r.holdQSz ≠ aggrWinIdx f.seqNo t.r.holdQSz

/-- No frame arrives that would be stranded. -/
def NotStranded (disableRxAggrDrop : Bool) (t : Tid) : TidEvent → Prop
  | .recv f => ¬ Strands disableRxAggrDrop t f
  | _ => True

/-- What the timer and its copy in the TID say. -/
structure SameTimer (r s : Rxtid) : Prop where
  timer : s.tidTimer = r.tidTimer
  scheduled : s.tidTimerScheduled = r.tidTimerScheduled
  waits : s.timerwaitSeqNum = r.timerwaitSeqNum

theorem SameTimer.refl (r : Rxtid) : SameTimer r r := ⟨rfl, rfl, rfl⟩

theorem SameTimer.trans {r s t : Rxtid} (h : SameTimer r s) (k : SameTimer s t) : SameTimer r t :=
  ⟨k.timer.trans h.timer, k.scheduled.trans h.scheduled, k.waits.trans h.waits⟩

theorem dequeStep_timer (r : Rxtid) : SameTimer r (dequeStep r) := by
  cases h : r.holdQ (aggrWinIdx r.seqNext r.holdQSz) with
  | none => rw [dequeStep_none h]; exact ⟨rfl, rfl, rfl⟩
  | some n => rw [dequeStep_some h]; exact ⟨rfl, rfl, rfl⟩

theorem dequeLoop_timer (idxEnd order fuel : Nat) (r : Rxtid) :
    SameTimer r (dequeLoop idxEnd order fuel r) :=
  dequeLoop_keeps (P := SameTimer r) (fun s hs => hs.trans (dequeStep_timer s)) idxEnd order fuel
    (SameTimer.refl r)

theorem aggrDequeFrms_timer (r : Rxtid) (seqNo order : Nat) :
    SameTimer r (aggrDequeFrms r seqNo order) :=
  (dequeLoop_timer _ order 4096 r).trans ⟨rfl, rfl, rfl⟩

theorem moveWindow_timer (r : Rxtid) (cur : Nat) : SameTimer r (moveWindow r cur).1 :=
  moveWindow_keeps (P := SameTimer r) (fun s v hs => hs.trans (aggrDequeFrms_timer s v 0))
    (fun _ _ hs => hs.trans ⟨rfl, rfl, rfl⟩) (SameTimer.refl r) cur

theorem syncSeqNext_timer (r : Rxtid) (seqNo : Nat) : SameTimer r (r.syncSeqNext seqNo) := by
  unfold Rxtid.syncSeqNext
  split <;> exact ⟨rfl, rfl, rfl⟩

theorem holdFrm_timer (r : Rxtid) (f : RecvFrm) : SameTimer r (r.holdFrm f) := ⟨rfl, rfl, rfl⟩

theorem timeoutDeque_timer (r : Rxtid) :
    SameTimer r (if r.timerwaitSeqNum = r.seqNext then timeoutDeque r else r) :=
  timeoutDeque_keeps (P := SameTimer r)
    (fun s v hs => hs.trans ((aggrDequeFrms_timer s v 0).trans (aggrDequeFrms_timer _ 0 1)))
    (fun _ hs => hs.trans ⟨rfl, rfl, rfl⟩) (SameTimer.refl r)

theorem Waiting.drained {r s : Rxtid} (hd : Drained r s) (h : Waiting s) : Waiting r := by
  obtain ⟨i, n, hn⟩ := h
  exact ⟨i, n, hd.held i n hn⟩

theorem firstHeld_isSome {r : Rxtid} (hs : Slotted r) :
    (firstHeld r r.holdQSz).isSome = true ↔ Waiting r := by
  rw [firstHeld, List.findSome?_isSome_iff]
  constructor
  · rintro ⟨i, -, hi⟩
    obtain ⟨n, hn⟩ := Option.isSome_iff_exists.mp hi
    exact ⟨i, n, hn⟩
  · rintro ⟨i, n, hn⟩
    obtain ⟨hz, hi⟩ := hs i n hn
    refine ⟨i, List.mem_range.mpr ?_, by rw [hn]; rfl⟩
    rw [hi]
    exact Nat.mod_lt _ hz

theorem recvArmTimer_keeps {r : Rxtid} (hsc : r.tidTimerScheduled = true)
    (hq : r.timerwaitSeqNum = r.seqNext) : recvArmTimer r = r := by
  simp [recvArmTimer, hsc, hq]

theorem recvArmTimer_scans {r : Rxtid} (hf : r.tidTimer.isSome = true → r.tidTimerScheduled = true)
    (h : ¬ (r.tidTimerScheduled = true ∧ r.timerwaitSeqNum = r.seqNext)) :
    (recvArmTimer r).tidTimerScheduled = (firstHeld r r.holdQSz).isSome ∧
    (recvArmTimer r).tidTimer.isSome = (firstHeld r r.holdQSz).isSome := by
  by_cases hsc : r.tidTimerScheduled = true
  · have hq : r.timerwaitSeqNum ≠ r.seqNext := fun hq => h ⟨hsc, hq⟩
    simp only [recvArmTimer, hsc, hq, ne_eq, not_false_eq_true, and_self, if_true,
      Bool.false_eq_true, if_false, firstHeld]
    cases (List.range r.holdQSz).findSome? r.holdQ <;> simp
  · have hn : r.tidTimer.isSome = false := Bool.eq_false_iff.mpr (mt hf hsc)
    simp only [recvArmTimer, hsc, false_and, if_false, firstHeld, Bool.false_eq_true]
    cases hh : (List.range r.holdQSz).findSome? r.holdQ <;> simp_all

/-- The end of `aggr_process_recv_frm` leaves a frame without a timer exactly when the flag
claims one that is not there and `seq_next` is the number it waited for. -/
theorem recvArmTimer_timed {r : Rxtid} (hs : Slotted r)
    (hf : r.tidTimer.isSome = true → r.tidTimerScheduled = true) :
    ((recvArmTimer r).tidTimer.isSome = true → (recvArmTimer r).tidTimerScheduled = true) ∧
    ((Waiting (recvArmTimer r) → (recvArmTimer r).tidTimer.isSome = true) ↔
      ¬ (r.tidTimerScheduled = true ∧ r.tidTimer = none ∧ r.timerwaitSeqNum = r.seqNext ∧
        Waiting r)) := by
  have hw : Waiting (recvArmTimer r) ↔ Waiting r := by
    rw [Waiting, Waiting, (recvArmTimer_same r).1.holdQ]
  rw [hw]
  by_cases hk : r.tidTimerScheduled = true ∧ r.timerwaitSeqNum = r.seqNext
  · rw [recvArmTimer_keeps hk.1 hk.2]
    refine ⟨hf, ?_⟩
    cases ht : r.tidTimer <;> simp [hk.1, hk.2]
  · obtain ⟨h1, h2⟩ := recvArmTimer_scans hf hk
    rw [h1, h2, firstHeld_isSome hs]
    exact ⟨id, fun _ hbad => hk ⟨hbad.1, hbad.2.2.1⟩, fun _ h => h⟩

/-- The timer's copy is right and nothing is stranded. -/
structure TimerInv (t : Tid) : Prop where
  slotted : Slotted t.r
  size : t.r.holdQSz ≤ 510
  scheduled : t.r.tidTimer.isSome = true → t.r.tidTimerScheduled = true
  timed : Timed t

variable {r : Rxtid} {d : Bool} {f : RecvFrm}

theorem dequeLoop_first {e v k : Nat} (fuel : Nat) (hk : 1≤k) (hf : k ≤ fuel)
    (hv : v = (r.seqNext+k) % 4096) (he : aggrWinIdx v r.holdQSz = aggrWinIdx e r.holdQSz)
    (hne : ∀ j, 1≤j → j<k → aggrWinIdx ((r.seqNext+j) % 4096) r.holdQSz ≠ aggrWinIdx e r.holdQSz) :
    (dequeLoop (aggrWinIdx e r.holdQSz) 0 fuel r).seqNext = v := by
  induction fuel generalizing r k with
  | zero => omega
  | succ fuel ih =>
    have hsz := (dequeStep_kept r).holdQSz
    have hs : (dequeStep r).seqNext = (r.seqNext+1) % 4096 := by
      rw [dequeStep_seqNext, ← nextSeqNo_mod, Nat.mod_eq_of_lt (nextSeqNo_lt _)]
    unfold dequeLoop
    rw [if_neg (by simp)]
    dsimp only
    rw [hsz, hs]
    by_cases h1 : k = 1
    · rw [if_neg (by rw [← h1, ← hv]; exact not_not.mpr he), hs, hv, h1]
    · have hmod : ∀ j, ((dequeStep r).seqNext+j) % 4096 = (r.seqNext+(j+1)) % 4096 := by
        intro j
        rw [hs]
        omega
      rw [if_pos (hne 1 (Nat.le_refl 1) (by omega)), ← hsz]
      refine ih (k := k-1) (by omega) (by omega) ?_ (by rw [hsz]; exact he) fun j h1 hj => ?_
      · rw [hmod, hv, Nat.sub_add_cancel hk]
      · rw [hmod, hsz]
        exact hne (j+1) (by omega) (by omega)

theorem firstAfter_exists {sz e : Nat} (st : Nat) (hz : 0<sz) (hsz : sz ≤ 4096) :
    ∃ v, FirstAfter sz st e v := by
  -- the slot's own index is such a number
  have hex : ∃ k, 1≤k ∧ k ≤ 4096 ∧ aggrWinIdx ((st+k) % 4096) sz = aggrWinIdx e sz := by
    have hlt : e % sz < 4096 := Nat.lt_of_lt_of_le (Nat.mod_lt e hz) hsz
    refine ⟨turns 4096 st (e % sz), Nat.le_add_left 1 _, turns_le pos4096, ?_⟩
    have hf := add_fwd_mod (a := st+1) (b := e % sz) pos4096
    rw [turns, ← Nat.add_assoc, Nat.add_right_comm, hf, Nat.mod_eq_of_lt hlt, aggrWinIdx,
      aggrWinIdx, Nat.mod_mod]
  classical
  obtain ⟨h1, h2, h3⟩ := Nat.find_spec hex
  exact ⟨_, Nat.find hex, h1, h2, rfl, h3, fun j hj hlt he =>
    Nat.find_min hex hlt ⟨hj, by omega, he⟩⟩

theorem deque_seqNext {v : Nat} (seqNo : Nat) (hz : 0<r.holdQSz) (hsz : r.holdQSz ≤ 4096) :
    (aggrDequeFrms r seqNo 0).seqNext = v ↔
      FirstAfter r.holdQSz r.seqNext (if seqNo ≠ 0 then seqNo else r.seqNext) v := by
  have hfirst : ∀ u, FirstAfter r.holdQSz r.seqNext (if seqNo ≠ 0 then seqNo else r.seqNext) u →
      (aggrDequeFrms r seqNo 0).seqNext = u := by
    rintro u ⟨k, h1, h2, h3, h4, h5⟩
    exact dequeLoop_first 4096 h1 h2 h3 h4 h5
  constructor
  · obtain ⟨u, hu⟩ := firstAfter_exists (e := if seqNo ≠ 0 then seqNo else r.seqNext)
      r.seqNext hz hsz
    intro hv
    rw [← hv, hfirst u hu]
    exact hu
  · exact hfirst v

theorem moveWindow_meets {cur v : Nat} (hz : 0<r.holdQSz) (hsz : r.holdQSz ≤ 4096) :
    (¬ ((moveWindow r cur).2 = true ∧ d = false) ∧ (moveWindow r cur).1.seqNext = v) ↔
      MeetsWindow d r.holdQSz r.seqNext cur v := by
  unfold moveWindow MeetsWindow
  dsimp only
  split
  · split
    · split
      · rw [(aggrDequeFrms_drained r 0 0).size]
        simp [Rxtid.setSeqNext, eq_comm]
      · simp [eq_comm]
    · rw [← deque_seqNext _ hz hsz]
      simp
  · simp [eq_comm]

theorem dequeLoop_turn (idxEnd order fuel : Nat) {n : HoldQ}
    (hn : r.holdQ (aggrWinIdx r.seqNext r.holdQSz) = some n) :
    Drained (dequeStep r) (dequeLoop idxEnd order (fuel+1) r) := by
  unfold dequeLoop
  rw [if_neg (by rw [hn]; simp)]
  dsimp only
  split
  · exact dequeLoop_drained idxEnd order fuel _
  · exact Drained.refl _

theorem deque_not_due (h : r.holdQ (aggrWinIdx r.seqNext r.holdQSz) = none) :
    aggrDequeFrms r 0 1 = r.deliverQ := by
  show (dequeLoop _ 1 (4095+1) r).deliverQ = _
  unfold dequeLoop
  rw [if_pos ⟨rfl, by rw [h]; rfl⟩]

theorem dequeued_alone {i : Nat} (hone : ∀ j n, r.holdQ j = some n → j = i)
    (hn : ∃ n, r.holdQ i = some n) :
    (aggrWinIdx r.seqNext r.holdQSz = i → ¬ Waiting (aggrDequeFrms r 0 1)) ∧
    (aggrWinIdx r.seqNext r.holdQSz ≠ i →
      Waiting (aggrDequeFrms r 0 1) ∧ (aggrDequeFrms r 0 1).seqNext = r.seqNext) := by
  constructor
  · rintro hi ⟨j, m, hm⟩
    have hstep : ∀ j m, (dequeStep r).holdQ j ≠ some m := by
      intro j m hm
      rw [dequeStep_holdQ, Function.update_apply] at hm
      split at hm
      · cases hm
      · rename_i hj
        exact hj ((hone j m hm).trans hi.symm)
    obtain ⟨n, hn⟩ := hn
    have hturn := dequeLoop_turn (aggrWinIdx r.seqNext r.holdQSz) 1 4095 (hi ▸ hn)
    exact hstep j m (hturn.held j m hm)
  · intro hi
    have hnone : r.holdQ (aggrWinIdx r.seqNext r.holdQSz) = none := by
      cases hm : r.holdQ (aggrWinIdx r.seqNext r.holdQSz) with
      | none => rfl
      | some m => exact absurd (hone _ m hm) hi
    rw [deque_not_due hnone]
    obtain ⟨n, hn⟩ := hn
    exact ⟨⟨i, n, hn⟩, rfl⟩

theorem syncSeqNext_seqNext (r : Rxtid) (seqNo : Nat) :
    (r.syncSeqNext seqNo).seqNext = if r.syncNextSeq then seqNo else r.seqNext := by
  unfold Rxtid.syncSeqNext
  split <;> rfl

/-- A frame put into an empty queue: whether it waits at the window of `v` after the in-order
dequeue. -/
theorem held_alone {m : Rxtid} (hempty : ¬ Waiting m) (f : RecvFrm) (v : Nat) :
    (v = (aggrDequeFrms (m.holdFrm f) 0 1).seqNext ∧ Waiting (aggrDequeFrms (m.holdFrm f) 0 1)) ↔
      m.seqNext = v ∧ aggrWinIdx v m.holdQSz ≠ aggrWinIdx f.seqNo m.holdQSz := by
  have hone : ∀ j n, (m.holdFrm f).holdQ j = some n → j = aggrWinIdx f.seqNo m.holdQSz := by
    intro j n hn
    rcases holdFrm_cases hn with ⟨hj, -⟩ | ⟨-, hn⟩
    · exact hj
    · exact absurd ⟨j, n, hn⟩ hempty
  have hin : (m.holdFrm f).holdQ (aggrWinIdx f.seqNo m.holdQSz) = some (f.node m.arrived) :=
    Function.update_self ..
  obtain ⟨hdue, hearly⟩ := dequeued_alone hone ⟨_, hin⟩
  change aggrWinIdx m.seqNext m.holdQSz = _ → _ at hdue
  change aggrWinIdx m.seqNext m.holdQSz ≠ _ → _ ∧ _ = m.seqNext at hearly
  constructor
  · rintro ⟨hseq, hwait⟩
    have hne := mt hdue (not_not.mpr hwait)
    rw [(hearly hne).2] at hseq
    rw [hseq]
    exact ⟨rfl, hne⟩
  · rintro ⟨rfl, hne⟩
    exact ⟨(hearly hne).2.symm, (hearly hne).1⟩

theorem recv_timed (hs : Slotted r) (ha : r.aggr = true) (hz : 0<r.holdQSz)
    (hsz : r.holdQSz ≤ 510) (hf : r.tidTimer.isSome = true → r.tidTimerScheduled = true)
    (hw : Waiting r → r.tidTimer.isSome = true) (s : Rxtid)
    (he : s = (aggrProcessRecvFrm d r f).1) :
    (s.tidTimer.isSome = true → s.tidTimerScheduled = true) ∧
    ((Waiting s → s.tidTimer.isSome = true) ↔
      ¬ (r.tidTimerScheduled = true ∧ r.tidTimer = none ∧
        MeetsWindow d r.holdQSz (if r.syncNextSeq then f.seqNo else r.seqNext) f.seqNo
          r.timerwaitSeqNum ∧
        aggrWinIdx r.timerwaitSeqNum r.holdQSz ≠ aggrWinIdx f.seqNo r.holdQSz)) := by
  have hd := (syncSeqNext_drained r f.seqNo).trans (moveWindow_drained (r.syncSeqNext f.seqNo) f.seqNo)
  have ht := (syncSeqNext_timer r f.seqNo).trans (moveWindow_timer (r.syncSeqNext f.seqNo) f.seqNo)
  have hsync := (syncSeqNext_drained r f.seqNo).size
  have hmeets : ∀ v, (¬ ((moveWindow (r.syncSeqNext f.seqNo) f.seqNo).2 = true ∧ d = false) ∧
      (moveWindow (r.syncSeqNext f.seqNo) f.seqNo).1.seqNext = v) ↔
      MeetsWindow d (r.syncSeqNext f.seqNo).holdQSz (r.syncSeqNext f.seqNo).seqNext f.seqNo v :=
    fun v => moveWindow_meets (by omega) (by omega)
  rw [hsync, syncSeqNext_seqNext] at hmeets
  unfold aggrProcessRecvFrm at he
  rw [if_neg (by simp [ha])] at he
  generalize moveWindow (r.syncSeqNext f.seqNo) f.seqNo = m at hd ht hmeets he
  obtain ⟨m, dropIt⟩ := m
  dsimp only at hd ht hmeets he
  by_cases hdrop : dropIt = true ∧ d = false
  · rw [if_pos (by simpa using hdrop)] at he
    subst he
    rw [ht.timer, ht.scheduled]
    refine ⟨hf, fun _ hbad => ?_, fun _ hwait => hw (hwait.drained hd)⟩
    exact ((hmeets _).mpr hbad.2.2.1).1 hdrop
  · rw [if_neg (by simpa using hdrop)] at he
    have hq : Drained (m.holdFrm f) (aggrDequeFrms (m.holdFrm f) 0 1) := aggrDequeFrms_drained _ 0 1
    have htq : SameTimer r (aggrDequeFrms (m.holdFrm f) 0 1) :=
      ht.trans ((holdFrm_timer m f).trans (aggrDequeFrms_timer (m.holdFrm f) 0 1))
    have hslot := ((hs.drained hd).holdFrm (by rw [hd.size]; exact hz) f).drained hq
    have harm := recvArmTimer_timed hslot (by rw [htq.timer, htq.scheduled]; exact hf)
    rw [htq.timer, htq.scheduled, htq.waits] at harm
    subst he
    refine ⟨harm.1, harm.2.trans (not_congr ?_)⟩
    refine and_congr_right fun hsc => and_congr_right fun hnone => ?_
    -- nothing was held, so the new frame is alone in the queue
    have hempty : ¬ Waiting m := fun h => by
      have := hw (h.drained hd)
      rw [hnone] at this
      cases this
    rw [held_alone hempty, hd.size]
    constructor
    · rintro ⟨hseq, hne⟩
      exact ⟨(hmeets _).mp ⟨hdrop, hseq⟩, hne⟩
    · rintro ⟨hm, hne⟩
      exact ⟨((hmeets _).mpr hm).2, hne⟩

theorem moveWindow_kept (r : Rxtid) (cur : Nat) : Kept r (moveWindow r cur).1 :=
  moveWindow_keeps (P := Kept r) (fun s v hs => hs.trans (aggrDequeFrms_kept s v 0))
    (fun _ _ hs => hs.trans ⟨rfl, rfl, rfl, rfl, rfl⟩) (Kept.refl r) cur

theorem recv_open (ha : r.aggr = true) :
    (aggrProcessRecvFrm d r f).1.holdQSz = r.holdQSz ∧
    (aggrProcessRecvFrm d r f).1.aggr = true ∧ (aggrProcessRecvFrm d r f).1.hung = r.hung := by
  have hs : (r.syncSeqNext f.seqNo).holdQSz = r.holdQSz ∧ (r.syncSeqNext f.seqNo).aggr = true ∧
      (r.syncSeqNext f.seqNo).hung = r.hung := by
    unfold Rxtid.syncSeqNext
    split <;> exact ⟨rfl, ha, rfl⟩
  have hm := moveWindow_kept (r.syncSeqNext f.seqNo) f.seqNo
  unfold aggrProcessRecvFrm
  rw [if_neg (by simp [ha]), ← hs.1, ← hs.2.1, ← hs.2.2]
  generalize moveWindow (r.syncSeqNext f.seqNo) f.seqNo = m at hm ⊢
  obtain ⟨m, dropIt⟩ := m
  dsimp only
  split
  · exact ⟨hm.holdQSz, hm.aggr, hm.hung⟩
  · obtain ⟨hsame, hhung⟩ := recvArmTimer_same (aggrDequeFrms (m.holdFrm f) 0 1)
    have hk := aggrDequeFrms_kept (m.holdFrm f) 0 1
    exact ⟨hsame.holdQSz.trans (hk.holdQSz.trans hm.holdQSz),
      hsame.aggr.trans (hk.aggr.trans hm.aggr), hhung.trans (hk.hung.trans hm.hung)⟩

theorem recv_closed (ha : r.aggr = false) :
    SameTimer r (aggrProcessRecvFrm d r f).1 ∧ Drained r (aggrProcessRecvFrm d r f).1 ∧
    (aggrProcessRecvFrm d r f).1.aggr = false := by
  unfold aggrProcessRecvFrm
  rw [if_pos (by simp [ha])]
  split <;> exact ⟨⟨rfl, rfl, rfl⟩, ⟨rfl, fun _ _ h => h⟩, ha⟩

theorem timeoutRearm_timer (r : Rxtid) :
    (timeoutRearm r).tidTimerScheduled = r.tidTimerScheduled ∧
    (timeoutRearm r).tidTimer.isSome = (r.tidTimerScheduled || r.tidTimer.isSome) := by
  unfold timeoutRearm
  cases hsc : r.tidTimerScheduled <;> dsimp only <;> split <;> simp [hsc]

/-- Scanning the queue anew: unless the scan never ends, a frame that is found arms the
timer. -/
theorem rescan_timed (hs : Slotted r) (hn : r.tidTimer = none) (s : Rxtid)
    (he : s = timeoutRearm (timeoutScan r)) :
    (s.tidTimer.isSome = true → s.tidTimerScheduled = true) ∧
    (s.hung = false → Waiting s → s.tidTimer.isSome = true) := by
  obtain ⟨h1, h2⟩ := timeoutRearm_timer (timeoutScan r)
  have hq := (timeoutScan_same r).drained.trans (timeoutRearm_same (timeoutScan r)).1.drained
  have hh := (timeoutRearm_same (timeoutScan r)).2
  have hfull := firstHeld_isSome hs
  rw [← he] at h1 h2 hq hh
  rw [h1, h2, hh]
  unfold timeoutScan
  cases hf : firstHeld r (min r.holdQSz 256) with
  | some n => exact ⟨fun _ => rfl, fun _ _ => rfl⟩
  | none =>
    refine ⟨fun h => by simpa [hn] using h, fun hnh hw => ?_⟩
    have hlt : ¬ 256 ≤ r.holdQSz := by simpa using hnh
    rw [Nat.min_eq_left (by omega)] at hf
    rw [hf] at hfull
    cases hfull.mpr (hw.drained hq)

theorem timeout_timed (hs : Slotted r) (hn : r.tidTimer = none) (hsc : r.tidTimerScheduled = true)
    (s : Rxtid) (he : s = aggrTimeout r) :
    (s.tidTimer.isSome = true → s.tidTimerScheduled = true) ∧
    (s.hung = false → s.aggr = true → Waiting s → s.tidTimer.isSome = true) := by
  unfold aggrTimeout at he
  split at he
  · rename_i h
    have ha : r.aggr = false := by simpa [hsc] using h
    rw [he, hn, ha]
    exact ⟨(fun h => nomatch h), fun _ h => nomatch h⟩
  · dsimp only at he
    have hd := timeoutDeque_drained r
    have ht := timeoutDeque_timer r
    generalize (if r.timerwaitSeqNum = r.seqNext then timeoutDeque r else r) = u at hd ht he
    have h := rescan_timed (r := { u with tidTimerScheduled := false })
      (hs.drained ⟨hd.size, hd.held⟩) (ht.timer.trans hn) s he
    exact ⟨h.1, fun hh _ => h.2 hh⟩

theorem deleteTidState_timer (r : Rxtid) : SameTimer r (aggrDeleteTidState r) := by
  have h : SameTimer r (if r.aggr then aggrDequeFrms r 0 0 else r) := by
    split
    · exact aggrDequeFrms_timer r 0 0
    · exact SameTimer.refl r
  exact h.trans ⟨rfl, rfl, rfl⟩

theorem addbaReq_timer (r : Rxtid) (seqNo winSz : Nat) (alloc : Bool) :
    SameTimer r (aggrRecvAddbaReqEvt r seqNo winSz alloc) := by
  have hdel : SameTimer r (if r.aggr then aggrDeleteTidState r else r) := by
    split
    · exact deleteTidState_timer r
    · exact SameTimer.refl r
  refine hdel.trans ?_
  unfold aggrRecvAddbaReqEvt
  generalize (if r.aggr then aggrDeleteTidState r else r) = s
  dsimp only
  split
  · exact ⟨rfl, rfl, rfl⟩
  · split <;> exact ⟨rfl, rfl, rfl⟩

theorem addbaReq_size {r : Rxtid} (h : r.holdQSz ≤ 510) (seqNo : Nat) (winSz : Fin 256)
    (alloc : Bool) : (aggrRecvAddbaReqEvt r seqNo winSz alloc).holdQSz ≤ 510 := by
  have hdel : (if r.aggr then aggrDeleteTidState r else r).holdQSz ≤ 510 := by
    split
    · exact Nat.zero_le 510
    · exact h
  unfold aggrRecvAddbaReqEvt
  generalize (if r.aggr then aggrDeleteTidState r else r) = s at hdel ⊢
  have hw := winSz.isLt
  dsimp only
  split
  · exact hdel
  · split <;> exact (by unfold tidWindowSz; omega : tidWindowSz winSz ≤ 510)

theorem TimerInv.deleted {t : Tid} (h : TimerInv t) (s : Rxtid)
    (he : s = aggrDeleteTidState t.r) :
    s.holdQSz ≤ 510 ∧ (s.tidTimer.isSome = true → s.tidTimerScheduled = true) ∧
    Timed ⟨s, t.down⟩ := by
  have ht := deleteTidState_timer t.r
  rw [← he] at ht
  refine ⟨?_, ?_, fun _ hopen => ?_⟩
  · rw [he]
    exact Nat.zero_le 510
  · rw [ht.timer, ht.scheduled]
    exact h.scheduled
  · rw [he] at hopen
    cases hopen

theorem TimerInv.handle {t : Tid} (h : TimerInv t) (hu : t.Up) (e : TidEvent)
    (hnf : faults t.r e = false) (s : Rxtid) (he : s = handle d t.r e) :
    s.holdQSz ≤ 510 ∧ (s.tidTimer.isSome = true → s.tidTimerScheduled = true) ∧
    (Timed ⟨s, t.down⟩ ↔ NotStranded d t e) := by
  cases e with
  | addbaReq seqNo winSz alloc =>
    have ht := addbaReq_timer t.r seqNo winSz alloc
    have hq := addbaReq_holdQ t.r seqNo winSz alloc
    have hz := addbaReq_size h.size seqNo winSz alloc
    change s = aggrRecvAddbaReqEvt t.r seqNo winSz alloc at he
    rw [← he] at ht hq hz
    refine ⟨hz, by rw [ht.timer, ht.scheduled]; exact h.scheduled, ?_⟩
    refine iff_of_true (fun _ _ hw => ?_) trivial
    obtain ⟨i, n, hn⟩ := hw
    cases (hq i).symm.trans hn
  | delbaReq =>
    change s = if t.r.aggr then aggrDeleteTidState t.r else t.r at he
    by_cases ha : t.r.aggr = true
    · rw [if_pos ha] at he
      obtain ⟨hz, hf, ht⟩ := h.deleted s he
      exact ⟨hz, hf, iff_of_true ht trivial⟩
    · rw [if_neg ha] at he
      rw [he]
      exact ⟨h.size, h.scheduled, iff_of_true h.timed trivial⟩
  | resetState =>
    obtain ⟨hz, hf, ht⟩ := h.deleted s he
    exact ⟨hz, hf, iff_of_true ht trivial⟩
  | recv f =>
    change s = (aggrProcessRecvFrm d t.r f).1 at he
    by_cases ha : t.r.aggr = true
    · have hz : 0<t.r.holdQSz := by simpa [faults, ha, Nat.pos_iff_ne_zero] using hnf
      obtain ⟨hf, ht⟩ := recv_timed h.slotted ha hz h.size h.scheduled (h.timed hu ha) s he
      obtain ⟨hsize, hopen, hhung⟩ := recv_open (d := d) (f := f) ha
      rw [← he] at hsize hopen hhung
      refine ⟨by rw [hsize]; exact h.size, hf, ?_⟩
      have hup : (⟨s, t.down⟩ : Tid).Up := ⟨hhung.trans hu.1, hu.2⟩
      have htimed : Timed ⟨s, t.down⟩ ↔ (Waiting s → s.tidTimer.isSome = true) :=
        ⟨fun h => h hup hopen, fun h _ _ => h⟩
      rw [htimed, ht]
      refine not_congr ⟨fun hst => ?_, fun h => ⟨h.scheduled, h.expired, h.waits, h.early⟩⟩
      obtain ⟨h1, h2, h3, h4⟩ := hst
      exact ⟨hu, ha, hz, h1, h2, h3, h4⟩
    · obtain ⟨ht, hq, hcl⟩ := recv_closed (d := d) (f := f) (Bool.eq_false_iff.mpr ha)
      rw [← he] at ht hq hcl
      refine ⟨by rw [hq.size]; exact h.size, by rw [ht.timer, ht.scheduled]; exact h.scheduled, ?_⟩
      exact iff_of_true (fun _ hopen => by cases hcl.symm.trans hopen) fun hst => ha hst.aggr
  | timeout =>
    change s = if t.r.tidTimer.isSome then aggrTimeout { t.r with tidTimer := none } else t.r at he
    by_cases hp : t.r.tidTimer.isSome = true
    · rw [if_pos hp] at he
      obtain ⟨hf, ht⟩ := timeout_timed (r := { t.r with tidTimer := none }) h.slotted rfl
        (h.scheduled hp) s he
      refine ⟨?_, hf, iff_of_true (fun hup => ht hup.1) trivial⟩
      rw [he, (aggrTimeout_drained _).size]
      exact h.size
    · rw [if_neg hp] at he
      rw [he]
      exact ⟨h.size, h.scheduled, iff_of_true h.timed trivial⟩

theorem TimerInv.base {t : Tid} (h : TimerInv t) (e : TidEvent) :
    (tidStep d t e).r.holdQSz ≤ 510 ∧
    ((tidStep d t e).r.tidTimer.isSome = true → (tidStep d t e).r.tidTimerScheduled = true) ∧
    (Timed (tidStep d t e) ↔ NotStranded d t e) := by
  have hidle : (∀ f, e = .recv f → ¬ Strands d t f) → NotStranded d t e := by
    intro hn
    cases e with
    | recv f => exact hn f rfl
    | _ => trivial
  unfold tidStep
  by_cases hu : t.Up
  · rw [if_pos hu]
    cases hf : faults t.r e with
    | false => exact h.handle hu e hf _ rfl
    | true =>
      -- the TID is down from here on
      refine ⟨h.size, h.scheduled, iff_of_true (fun hup => nomatch hup.2) (hidle ?_)⟩
      rintro f rfl hst
      have hz : t.r.holdQSz = 0 := by simpa [faults, hst.aggr] using hf
      exact absurd hst.sized (by omega)
  · rw [if_neg hu]
    exact ⟨h.size, h.scheduled, iff_of_true h.timed (hidle fun f _ hst => hu hst.up)⟩

/-- In a run of ADDBA, DELBA and reset events, frames and timer expiries every buffered frame
of an open session has a pending timer after each event, if and only if no frame has to wait
for the number that the leftover of an expired timer names. -/
theorem buffered_frames_timed (d : Bool) (setting : Nat) (es : List TidEvent) :
    (∀ u, u <+: es → Timed (run (tidStep d) (aggrInitConn setting) u)) ↔
      AllSteps (tidStep d) (NotStranded d) (aggrInitConn setting) es := by
  refine prefix_iff_allSteps (I := TimerInv) (fun t h => h.timed) ?_ ?_ ?_ es
  · intro t e h hc
    obtain ⟨hz, hf, ht⟩ := h.base (d := d) e
    exact ⟨h.slotted.tidStep e, hz, hf, ht.mpr hc⟩
  · exact fun t e h ht => (h.base e).2.2.mp ht
  · exact {
      slotted := fun _ _ hn => nomatch hn
      size := Nat.zero_le 510
      scheduled := fun h => nomatch h
      timed := fun _ h => nomatch h }

/-- The timer for frame 101 expires between two sessions; in the second one frame 102 waits
for 101 again, for ever if nothing else arrives. -/
theorem stranded_after_reopening :
    ¬ (∀ u, u <+: [.addbaReq 100 2 true, .recv (mpdu 100), .recv (mpdu 102), .delbaReq, .timeout,
        .addbaReq 100 2 true, .recv (mpdu 100), .recv (mpdu 102)] →
      Timed (run (tidStep false) (aggrInitConn 100) u)) := by
  intro h
  have htimer := h _ (List.prefix_refl _) ⟨rfl, rfl⟩ rfl ⟨2, _, rfl⟩
  cases htimer

end Ath6kl.RxReorder
