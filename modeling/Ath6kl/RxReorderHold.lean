import Ath6kl.RxReorderTimer
import Mathlib.Tactic.IntervalCases

/-! Frames inside the window are not lost. The slot of a frame is its number modulo
`hold_q_sz`; two numbers of one window share a slot only where 4096 wraps and `hold_q_sz`
does not divide it. -/
namespace Ath6kl.RxReorder
open EthFrame Lib.SeqSpace Lib.Machine

/-- What the stack got from the frame `j`. -/
def Rxtid.logOf (r : Rxtid) (j : Nat) : List Delivery := r.log.filter fun d => d.id = j

/-- No slot holds the frame `j`. -/
def Rxtid.Without (r : Rxtid) (j : Nat) : Prop := ∀ i n, r.holdQ i = some n → n.id ≠ j

/-- Frame `j` carries the number `u` and no later one does. -/
def Newest (took : List (Nat × RecvFrm)) (j u : Nat) : Prop :=
  ∀ k g, j<k → took[k]? ≠ some (u, g)

/-- The frame waits in a slot and the stack has seen nothing of it. -/
structure Waits (r : Rxtid) (j u : Nat) (f : RecvFrm) : Prop where
  held : ∃ i, r.holdQ i = some (f.node j)
  unwrap : u = r.unwrap f.seqNo
  unseen : r.logOf j = []

/-- The stack has got the frame once and no slot holds it. -/
structure HandedOn (r : Rxtid) (j u : Nat) (f : RecvFrm) : Prop where
  once : r.logOf j = (f.node j).deliveries u
  without : r.Without j
  past : u<r.adv

/-- Of the frames taken with their unwrapped numbers, the newest of each number waits or has
been handed on once; the older ones were freed as its duplicates. -/
structure Accounted (took : List (Nat × RecvFrm)) (r : Rxtid) : Prop where
  count : r.arrived = took.length
  newest : ∀ j u f, took[j]? = some (u, f) → Newest took j u → Waits r j u f ∨ HandedOn r j u f
  replaced : ∀ j u f, took[j]? = some (u, f) → ¬ Newest took j u → r.logOf j = [] ∧ r.Without j

variable {b j u : Nat} {r : Rxtid} {f : RecvFrm} {took : List (Nat × RecvFrm)}

theorem deliveries_filter (n : HoldQ) (u j : Nat) :
    (n.deliveries u).filter (fun d => d.id = j) = if n.id = j then n.deliveries u else [] := by
  split
  · rename_i he
    refine List.filter_eq_self.mpr fun d hd => ?_
    simpa [(deliveries_unwrapped hd).2.2] using he
  · rename_i hne
    refine List.filter_eq_nil_iff.mpr fun d hd => ?_
    simpa [(deliveries_unwrapped hd).2.2] using hne

theorem dequeStep_logOf (r : Rxtid) (j : Nat) : (dequeStep r).logOf j = r.logOf j ++
    match r.holdQ (aggrWinIdx r.seqNext r.holdQSz) with
    | some n => if n.id = j then n.deliveries (r.unwrap n.seqNo) else []
    | none => [] := by
  rw [Rxtid.logOf, dequeStep_log, List.filter_append]
  cases r.holdQ (aggrWinIdx r.seqNext r.holdQSz) with
  | none => rfl
  | some n => simp only [Rxtid.logOf, deliveries_filter]

theorem dequeStep_unseen (h : ∀ n, r.holdQ (aggrWinIdx r.seqNext r.holdQSz) = some n → n.id ≠ j) :
    (dequeStep r).logOf j = r.logOf j := by
  rw [dequeStep_logOf]
  cases hn : r.holdQ (aggrWinIdx r.seqNext r.holdQSz) with
  | none => exact List.append_nil _
  | some n => simp [h n hn]

theorem Rxtid.Without.drained {s : Rxtid} (h : r.Without j) (hd : Drained r s) : s.Without j :=
  fun i n hn => h i n (hd.held i n hn)

theorem Waits.dequeStep (h : Inv b r) (hw : Waits r j u f) :
    Waits (dequeStep r) j u f ∨ HandedOn (dequeStep r) j u f := by
  obtain ⟨⟨i, hi⟩, hu, hun⟩ := hw
  by_cases he : i = aggrWinIdx r.seqNext r.holdQSz
  · right
    rw [he] at hi
    have hz : r.unwrap f.seqNo = r.adv := congrArg (r.adv + ·) (h.due hi)
    refine ⟨?_, fun i' n hn hid => ?_, ?_⟩
    · rw [dequeStep_logOf, hun, hi, hu]
      simp only [RecvFrm.node, if_true, List.nil_append]
    · have hn' := (dequeStep_drained r).held i' n hn
      have hii := h.heldDistinct i' _ n _ hn' hi hid
      rw [dequeStep_holdQ, hii, Function.update_self] at hn
      cases hn
    · rw [dequeStep_adv, hu, hz]
      exact Nat.lt_succ_self _
  · left
    refine ⟨⟨i, ?_⟩, ?_, ?_⟩
    · rw [dequeStep_holdQ, Function.update_of_ne he]
      exact hi
    · have h1 := h.ahead hi he
      have hk := fwd_advance (b := f.seqNo) pos4096 (nextSeqNo_mod r.seqNext) h1
      change 1 ≤ fwd 4096 r.seqNext f.seqNo at h1
      rw [hu, Rxtid.unwrap, Rxtid.unwrap, dequeStep_adv, dequeStep_seqNext, hk]
      omega
    · have hne : ∀ n, r.holdQ (aggrWinIdx r.seqNext r.holdQSz) = some n → n.id ≠ j :=
        fun n hn hid => he (h.heldDistinct i _ _ n hi hn hid.symm)
      rw [dequeStep_unseen hne, hun]

theorem Accounted.dequeStep (h : Inv b r) (ha : Accounted took r) :
    Accounted took (dequeStep r) where
  count := (dequeStep_kept r).arrived.trans ha.count
  newest j u f hj hl := by
    rcases ha.newest j u f hj hl with hw | hd
    · exact hw.dequeStep h
    · refine Or.inr ⟨?_, hd.without.drained (dequeStep_drained r), ?_⟩
      · rw [dequeStep_unseen (hd.without _), hd.once]
      · rw [dequeStep_adv]
        exact Nat.lt_succ_of_lt hd.past
  replaced j u f hj hl := by
    obtain ⟨h1, h2⟩ := ha.replaced j u f hj hl
    exact ⟨(dequeStep_unseen (h2 _)).trans h1, h2.drained (dequeStep_drained r)⟩

theorem Accounted.same {s : Rxtid} (ha : Accounted took r) (hs : SameQueue r s) :
    Accounted took s := by
  have hlog : ∀ j, s.logOf j = r.logOf j := fun j => by rw [Rxtid.logOf, hs.log, Rxtid.logOf]
  have hwo : ∀ j, r.Without j → s.Without j := fun j h => h.drained hs.drained
  refine ⟨hs.arrived.trans ha.count, fun j u f hj hl => ?_, fun j u f hj hl => ?_⟩
  · rcases ha.newest j u f hj hl with hw | hd
    · refine Or.inl ⟨by rw [hs.holdQ]; exact hw.held, ?_, by rw [hlog]; exact hw.unseen⟩
      rw [Rxtid.unwrap, hs.adv, hs.seqNext]
      exact hw.unwrap
    · exact Or.inr ⟨by rw [hlog]; exact hd.once, hwo j hd.without, by rw [hs.adv]; exact hd.past⟩
  · rw [hlog]
    exact ⟨(ha.replaced j u f hj hl).1, hwo j (ha.replaced j u f hj hl).2⟩

theorem Accounted.deliverQ (ha : Accounted took r) : Accounted took r.deliverQ :=
  ha.same ⟨rfl, rfl, rfl, rfl, rfl, rfl, log_deliverQ r, rfl⟩

theorem Accounted.dequeLoop {idxEnd order : Nat} (fuel : Nat) (h : Inv b r)
    (ha : Accounted took r) : Accounted took (dequeLoop idxEnd order fuel r) :=
  (dequeLoop_keeps (P := fun s => Inv b s ∧ Accounted took s)
    (fun _ hs => ⟨hs.1.dequeStep, hs.2.dequeStep hs.1⟩) idxEnd order fuel ⟨h, ha⟩).2

structure Booked (b : Nat) (took : List (Nat × RecvFrm)) (r : Rxtid) : Prop where
  inv : Inv b r
  acc : Accounted took r

theorem Booked.aggrDequeFrms (h : Booked b took r) (seqNo order : Nat) :
    Booked b took (aggrDequeFrms r seqNo order) :=
  ⟨h.inv.aggrDequeFrms seqNo order, (h.acc.dequeLoop 4096 h.inv).deliverQ⟩

theorem Booked.same {s : Rxtid} (h : Booked b took r) (hs : SameQueue r s) : Booked b took s :=
  ⟨h.inv.same hs, h.acc.same hs⟩

theorem Booked.held (h : Booked b took r) {i : Nat} {n : HoldQ} (hn : r.holdQ i = some n) :
    ∃ u f, took[n.id]? = some (u, f) ∧ n = f.node n.id ∧ u = r.unwrap n.seqNo := by
  have hlt := h.inv.heldId i n hn
  rw [h.acc.count] at hlt
  obtain ⟨⟨u, f⟩, hj⟩ : ∃ p, took[n.id]? = some p := ⟨_, List.getElem?_eq_getElem hlt⟩
  refine ⟨u, f, hj, ?_⟩
  by_cases hl : Newest took n.id u
  · rcases h.acc.newest n.id u f hj hl with hw | hd
    · obtain ⟨i', hi'⟩ := hw.held
      have hii := h.inv.heldDistinct i i' n _ hn hi' rfl
      rw [hii, hi'] at hn
      have he : f.node n.id = n := Option.some.inj hn
      exact ⟨he.symm, hw.unwrap.trans (congrArg (fun m : HoldQ => r.unwrap m.seqNo) he)⟩
    · exact absurd rfl (hd.without i n hn)
  · exact absurd rfl ((h.acc.replaced n.id u f hj hl).2 i n hn)

theorem Booked.sameSlot (h : Booked b took r) (hk : fwd 4096 r.seqNext f.seqNo < r.holdQSz)
    {n : HoldQ} (hn : r.holdQ (aggrWinIdx f.seqNo r.holdQSz) = some n) : n.seqNo = f.seqNo := by
  obtain ⟨u, g, -, hg, -⟩ := h.held hn
  have hd := fwd_of_slot pos4096 h.inv.sized.dvd (h.inv.near _ n hn) hk (h.inv.slot _ n hn).symm
  have hm := (add_fwd_mod (a := r.seqNext) (b := n.seqNo) pos4096).symm.trans
    ((congrArg (fun x => (r.seqNext+x) % 4096) hd).trans (add_fwd_mod pos4096))
  have hlt : n.seqNo < 4096 := by
    rw [hg]
    exact g.seqNo.isLt
  rwa [Nat.mod_eq_of_lt hlt, Nat.mod_eq_of_lt f.seqNo.isLt] at hm

theorem Booked.jump {v : Nat} (h : Booked b took r) (he : ∀ i, r.holdQ i = none) (hv : v<4096) :
    Booked b took { r.setSeqNext v with syncNextSeq := false } := by
  refine ⟨h.inv.jump he hv, h.acc.count, fun j u f hj hl => ?_, h.acc.replaced⟩
  rcases h.acc.newest j u f hj hl with hw | hd
  · obtain ⟨i, hi⟩ := hw.held
    cases (he i).symm.trans hi
  · exact Or.inr ⟨hd.once, hd.without, Nat.lt_of_lt_of_le hd.past (Nat.le_add_right _ _)⟩

theorem Booked.syncSeqNext (h : Booked b took r) (v : Fin 4096) :
    Booked b took (r.syncSeqNext v) := by
  unfold Rxtid.syncSeqNext
  split
  · rename_i hs
    exact h.jump (h.inv.sync hs) v.isLt
  · exact h

theorem snoc_cases {α : Type} {l : List α} {x y : α} {j : Nat} (h : (l ++ [x])[j]? = some y) :
    (j<l.length ∧ l[j]? = some y) ∨ (j = l.length ∧ y = x) := by
  rcases Nat.lt_trichotomy j l.length with hj | hj | hj
  · rw [List.getElem?_append_left hj] at h
    exact Or.inl ⟨hj, h⟩
  · rw [hj, List.getElem?_concat_length] at h
    exact Or.inr ⟨hj, (Option.some.inj h).symm⟩
  · rw [List.getElem?_eq_none (by simp; omega)] at h
    cases h

theorem newest_snoc {x : Nat × RecvFrm} (hj : j<took.length) :
    Newest (took ++ [x]) j u ↔ Newest took j u ∧ x.1 ≠ u := by
  constructor
  · refine fun h => ⟨fun k g hk hg => h k g hk ?_, fun he => h took.length x.2 hj ?_⟩
    · obtain ⟨hlt, -⟩ := List.getElem?_eq_some_iff.mp hg
      rw [List.getElem?_append_left hlt, hg]
    · rw [List.getElem?_concat_length, ← he]
  · rintro ⟨h, hne⟩ k g hk hg
    rcases snoc_cases hg with ⟨-, hg⟩ | ⟨-, rfl⟩
    · exact h k g hk hg
    · exact hne rfl

theorem newest_last (took : List (Nat × RecvFrm)) (x : Nat × RecvFrm) :
    Newest (took ++ [x]) took.length u := by
  intro k g hk hg
  rcases snoc_cases hg with ⟨hlt, -⟩ | ⟨he, -⟩ <;> omega

/-- Storing a frame of the window: a frame already in its slot is an older copy. -/
theorem Booked.store (h : Booked b took r) (hs : r.syncNextSeq = false)
    (hk : fwd 4096 r.seqNext f.seqNo < r.holdQSz) :
    Booked b (took ++ [(r.unwrap f.seqNo, f)]) (r.holdFrm f) := by
  have hlen := h.acc.count
  have hwo : ∀ j, j<took.length → r.Without j → (r.holdFrm f).Without j := by
    intro j hj hw i n hn
    rcases holdFrm_cases hn with ⟨-, rfl⟩ | ⟨-, hn⟩
    · exact Nat.ne_of_gt (hlen ▸ hj)
    · exact hw i n hn
  refine ⟨h.inv.store hs hk, ?_, ?_, ?_⟩
  · rw [List.length_append]
    exact congrArg (·+1) hlen
  · intro j u g hj hl
    rcases snoc_cases hj with ⟨hlt, hj⟩ | ⟨rfl, hx⟩
    · obtain ⟨hl, hne⟩ := (newest_snoc hlt).mp hl
      rcases h.acc.newest j u g hj hl with hw | hd
      · obtain ⟨i, hi⟩ := hw.held
        -- the slot of `f` could only hold its own number
        have hidx : i ≠ aggrWinIdx f.seqNo r.holdQSz := by
          rintro rfl
          have hseq : (g.seqNo : Nat) = f.seqNo := h.sameSlot hk hi
          exact hne (by rw [hw.unwrap, hseq])
        exact Or.inl ⟨⟨i, (Function.update_of_ne hidx _ _).trans hi⟩, hw.unwrap, hw.unseen⟩
      · exact Or.inr ⟨hd.once, hwo j hlt hd.without, hd.past⟩
    · cases hx
      refine Or.inl ⟨⟨aggrWinIdx f.seqNo r.holdQSz, ?_⟩, rfl, ?_⟩
      · rw [← hlen]
        exact Function.update_self ..
      · refine List.filter_eq_nil_iff.mpr fun d hd => ?_
        have hid := h.inv.logId d hd
        simp only [decide_eq_true_eq]
        omega
  · intro j u g hj hl
    rcases snoc_cases hj with ⟨hlt, hj⟩ | ⟨rfl, -⟩
    · by_cases hold : Newest took j u
      · have he : r.unwrap f.seqNo = u := by
          by_contra hne
          exact hl ((newest_snoc hlt).mpr ⟨hold, hne⟩)
        rcases h.acc.newest j u g hj hold with hw | hd
        · refine ⟨hw.unseen, fun i n hn hid => ?_⟩
          rcases holdFrm_cases hn with ⟨-, rfl⟩ | ⟨hne, hn⟩
          · exact Nat.ne_of_gt (hlen ▸ hlt) hid
          · -- the older copy was in the slot of `f`
            obtain ⟨i', hi'⟩ := hw.held
            have hii := h.inv.heldDistinct i i' n _ hn hi' hid
            have hfwd : fwd 4096 r.seqNext g.seqNo = fwd 4096 r.seqNext f.seqNo :=
              Nat.add_left_cancel (hw.unwrap.symm.trans he.symm)
            apply hne
            have hslot := h.inv.slot i' _ hi'
            have h1 := slot_fwd (a := r.seqNext) (b := g.seqNo) pos4096 h.inv.sized.dvd
            have h2 := slot_fwd (a := r.seqNext) (b := f.seqNo) pos4096 h.inv.sized.dvd
            rw [hii, hslot]
            exact h1.symm.trans ((congrArg (fun x => (r.seqNext+x) % r.holdQSz) hfwd).trans h2)
        · have hp := hd.past
          rw [← he, Rxtid.unwrap] at hp
          omega
      · obtain ⟨h1, h2⟩ := h.acc.replaced j u g hj hold
        exact ⟨h1, hwo j hlt h2⟩
    · exact absurd (newest_last took _) hl

structure Open (b sz : Nat) (took : List (Nat × RecvFrm)) (r : Rxtid) : Prop where
  booked : Booked b took r
  size : r.holdQSz = sz
  aggr : r.aggr = true

theorem Open.same {sz : Nat} {s : Rxtid} (h : Open b sz took r) (hs : SameQueue r s) :
    Open b sz took s :=
  ⟨h.booked.same hs, hs.holdQSz.trans h.size, hs.aggr.trans h.aggr⟩

theorem Open.aggrDequeFrms {sz : Nat} (h : Open b sz took r) (seqNo order : Nat) :
    Open b sz took (aggrDequeFrms r seqNo order) :=
  have hk := aggrDequeFrms_kept r seqNo order
  ⟨h.booked.aggrDequeFrms seqNo order, hk.holdQSz.trans h.size, hk.aggr.trans h.aggr⟩

theorem Open.timeout {sz : Nat} (h : Open b sz took r) : Open b sz took (aggrTimeout r) := by
  unfold aggrTimeout
  split
  · exact h
  · dsimp only
    have hd := timeoutDeque_keeps (P := Open b sz took)
      (fun _ v hs => (hs.aggrDequeFrms v 0).aggrDequeFrms 0 1)
      (fun _ hs => hs.same ⟨rfl, rfl, rfl, rfl, rfl, rfl, rfl, rfl⟩) h
    generalize (if r.timerwaitSeqNum = r.seqNext then timeoutDeque r else r) = s at hd ⊢
    have h0 : Open b sz took { s with tidTimerScheduled := false } :=
      hd.same ⟨rfl, rfl, rfl, rfl, rfl, rfl, rfl, rfl⟩
    exact (h0.same (timeoutScan_same _)).same (timeoutRearm_same _).1

theorem recv_through {d : Bool} (ha : r.aggr = true)
    (ho : outside (r.syncSeqNext f.seqNo).seqNext
      (seqMask (((r.syncSeqNext f.seqNo).seqNext:Int)+(r.syncSeqNext f.seqNo).holdQSz-1)) f.seqNo = false) :
    (aggrProcessRecvFrm d r f).1 =
      recvArmTimer (aggrDequeFrms ((r.syncSeqNext f.seqNo).holdFrm f) 0 1) := by
  have hm : moveWindow (r.syncSeqNext f.seqNo) f.seqNo = (r.syncSeqNext f.seqNo, false) := by
    unfold moveWindow
    dsimp only
    rw [if_neg (by simp [ho])]
  unfold aggrProcessRecvFrm
  rw [if_neg (by simp [ha]), hm]
  exact congrArg Prod.fst (if_neg (by simp))

theorem Open.recv {sz : Nat} {d : Bool} (h : Open b sz took r)
    (hk : r.syncNextSeq = false → fwd 4096 r.seqNext f.seqNo < r.holdQSz) :
    Open b sz (took ++ [((r.syncSeqNext f.seqNo).unwrap f.seqNo, f)])
      (aggrProcessRecvFrm d r f).1 := by
  obtain ⟨hi, hs, hz, ha, -, -⟩ := h.booked.inv.syncSeqNext f.seqNo
  have hb := h.booked.syncSeqNext f.seqNo
  have hw : fwd 4096 (r.syncSeqNext f.seqNo).seqNext f.seqNo < (r.syncSeqNext f.seqNo).holdQSz := by
    rw [hz, syncSeqNext_seqNext]
    cases hsync : r.syncNextSeq with
    | true =>
      rw [if_pos rfl, fwd_self pos4096]
      exact h.booked.inv.sized.pos
    | false => exact hk hsync
  have hin := mt (outside_window hi.sized (hi.range hs) f.seqNo.isLt).mp (by omega)
  rw [recv_through h.aggr (Bool.eq_false_iff.mpr hin)]
  have ho : Open b sz _ ((r.syncSeqNext f.seqNo).holdFrm f) :=
    ⟨hb.store hs hw, hz.trans h.size, ha.trans h.aggr⟩
  exact (ho.aggrDequeFrms 0 1).same (recvArmTimer_same _).1

def Event.onTid : Event → TidEvent
  | .recv f => .recv f
  | .timeout => .timeout

def sessionStep (disableRxAggrDrop : Bool) (t : Tid) (e : Event) : Tid :=
  tidStep disableRxAggrDrop t e.onTid

/-- The frame is the first of the session, or neither behind `seq_next` nor beyond the
window. -/
def InWindow (t : Tid) : Event → Prop
  | .recv f => t.r.syncNextSeq = false → fwd 4096 t.r.seqNext f.seqNo < t.r.holdQSz
  | .timeout => True

/-- The frame overwrites no frame of another number. -/
def SameNumber (t : Tid) : Event → Prop
  | .recv f => ∀ n, t.r.holdQ (aggrWinIdx f.seqNo t.r.holdQSz) = some n → n.seqNo = f.seqNo
  | .timeout => True

def takes (t : Tid) : Event → List (Nat × RecvFrm)
  | .recv f => if t.Up then [((t.r.syncSeqNext f.seqNo).unwrap f.seqNo, f)] else []
  | .timeout => []

def taken (disableRxAggrDrop : Bool) : Tid → List Event → List (Nat × RecvFrm)
  | _, [] => []
  | t, e::es => takes t e ++ taken disableRxAggrDrop (sessionStep disableRxAggrDrop t e) es

/-- No division by zero, no frame overwritten by one of another number, each frame handed on
once or waiting. -/
structure Lossless (disableRxAggrDrop : Bool) (t : Tid) (es : List Event) : Prop where
  noFault : (run (sessionStep disableRxAggrDrop) t es).down = false
  sameNumber : AllSteps (sessionStep disableRxAggrDrop) SameNumber t es
  once : Accounted (taken disableRxAggrDrop t es) (run (sessionStep disableRxAggrDrop) t es).r

theorem Open.step {sz : Nat} {d : Bool} {t : Tid} (h : Open b sz took t.r) (hd : t.down = false)
    (e : Event) (hw : InWindow t e) :
    Open b sz (took ++ takes t e) (sessionStep d t e).r ∧ (sessionStep d t e).down = false ∧
    SameNumber t e := by
  have hnf : faults t.r e.onTid = false := by
    have hz := h.booked.inv.sized.pos
    cases e with
    | recv f => simp [faults, Event.onTid, Nat.ne_of_gt hz]
    | timeout => simp [faults, Event.onTid, Nat.ne_of_gt hz]
  have hsame : SameNumber t e := by
    cases e with
    | recv f =>
      intro n hn
      cases hs : t.r.syncNextSeq with
      | true => cases (h.booked.inv.sync hs _).symm.trans hn
      | false => exact h.booked.sameSlot (hw hs) hn
    | timeout => trivial
  unfold sessionStep tidStep
  by_cases hu : t.Up
  · rw [if_pos hu, if_neg (by simp [hnf])]
    refine ⟨?_, hd, hsame⟩
    cases e with
    | recv f =>
      rw [takes, if_pos hu]
      exact h.recv hw
    | timeout =>
      rw [takes, List.append_nil]
      show Open b sz took (if t.r.tidTimer.isSome then aggrTimeout { t.r with tidTimer := none } else t.r)
      split
      · exact (h.same (s := { t.r with tidTimer := none })
          ⟨rfl, rfl, rfl, rfl, rfl, rfl, rfl, rfl⟩).timeout
      · exact h
  · rw [if_neg hu]
    refine ⟨?_, hd, hsame⟩
    cases e with
    | recv f =>
      rw [takes, if_neg hu, List.append_nil]
      exact h
    | timeout =>
      rw [takes, List.append_nil]
      exact h

theorem Open.run {sz : Nat} {d : Bool} {t : Tid} (h : Open b sz took t.r) (hd : t.down = false)
    {es : List Event} (hw : AllSteps (sessionStep d) InWindow t es) :
    Open b sz (took ++ taken d t es) (Lib.Machine.run (sessionStep d) t es).r ∧
    (Lib.Machine.run (sessionStep d) t es).down = false ∧
    AllSteps (sessionStep d) SameNumber t es := by
  induction es generalizing t took with
  | nil => exact ⟨by simpa [taken] using h, hd, trivial⟩
  | cons e es ih =>
    obtain ⟨h1, h2, h3⟩ := h.step (d := d) hd e hw.1
    obtain ⟨k1, k2, k3⟩ := ih h1 h2 hw.2
    exact ⟨by rw [taken, ← List.append_assoc]; exact k1, k2, h3, k3⟩

theorem sized_of_dvd {winSz : Fin 256} (h : 2*(winSz:Nat) ∣ 4096) : Sized (2*winSz) := by
  have hp := dvd_pos h
  have hlt := winSz.isLt
  refine ⟨h, by omega, ?_⟩
  obtain ⟨q, hq⟩ := h
  by_contra hgt
  have hq1 : q<16 := by
    by_contra hge
    have hmul := Nat.mul_le_mul (show 257 ≤ 2*(winSz:Nat) by omega) (show 16 ≤ q by omega)
    omega
  interval_cases q <;> omega

theorem deque_due {n : HoldQ} (hn : r.holdQ (aggrWinIdx r.seqNext r.holdQSz) = some n)
    (hne : aggrWinIdx (ath6klNextSeqNo r.seqNext) r.holdQSz ≠ aggrWinIdx r.seqNext r.holdQSz)
    (hnone : r.holdQ (aggrWinIdx (ath6klNextSeqNo r.seqNext) r.holdQSz) = none) :
    aggrDequeFrms r 0 1 = (dequeStep r).deliverQ := by
  have hidx : aggrWinIdx (dequeStep r).seqNext (dequeStep r).holdQSz =
      aggrWinIdx (ath6klNextSeqNo r.seqNext) r.holdQSz := by
    rw [dequeStep_seqNext, (dequeStep_kept r).holdQSz]
  show (dequeLoop _ 1 (4094+1+1) r).deliverQ = _
  unfold dequeLoop
  rw [if_neg (by rw [hn]; simp)]
  dsimp only
  rw [hidx, if_pos (by simpa using hne)]
  unfold dequeLoop
  rw [hidx, if_pos ⟨rfl, by rw [dequeStep_keeps_none hnone]; rfl⟩]

theorem recv_next {d : Bool} (ha : r.aggr = true) (he : ∀ i, r.holdQ i = none)
    (hs : (r.syncSeqNext f.seqNo).seqNext = f.seqNo)
    (hne : aggrWinIdx (ath6klNextSeqNo f.seqNo) r.holdQSz ≠ aggrWinIdx f.seqNo r.holdQSz)
    (s : Rxtid) (hr : s = (aggrProcessRecvFrm d r f).1) :
    s.seqNext = ath6klNextSeqNo f.seqNo ∧ (∀ i, s.holdQ i = none) ∧ s.syncNextSeq = false := by
  have hz := (syncSeqNext_drained r f.seqNo).size
  have hempty : ∀ i, (r.syncSeqNext f.seqNo).holdQ i = none := by
    unfold Rxtid.syncSeqNext
    split <;> exact he
  have hsync : (r.syncSeqNext f.seqNo).syncNextSeq = false := by
    unfold Rxtid.syncSeqNext
    split
    · rfl
    · simpa using ‹¬ r.syncNextSeq = true›
  rw [recv_through ha (by rw [hs]; simp [outside]; omega)] at hr
  generalize r.syncSeqNext f.seqNo = q at hr hs hz hempty hsync
  have hidx : aggrWinIdx q.seqNext q.holdQSz = aggrWinIdx f.seqNo q.holdQSz := by rw [hs]
  have hin : (q.holdFrm f).holdQ (aggrWinIdx q.seqNext q.holdQSz) = some (f.node q.arrived) := by
    rw [hidx]
    exact Function.update_self ..
  rw [← hz, ← hs] at hne
  have hdue := deque_due (r := q.holdFrm f) hin hne ?_
  · have hsame := (recvArmTimer_same (aggrDequeFrms (q.holdFrm f) 0 1)).1
    rw [hdue] at hsame hr
    rw [← hr] at hsame
    refine ⟨?_, fun i => ?_, ?_⟩
    · rw [hsame.seqNext]
      exact (dequeStep_seqNext _).trans (congrArg ath6klNextSeqNo hs)
    · rw [hsame.holdQ]
      show (dequeStep (q.holdFrm f)).holdQ i = none
      rw [dequeStep_holdQ, Function.update_apply]
      split
      · rfl
      · rename_i hi
        exact (Function.update_of_ne (fun h => hi (h.trans hidx.symm)) _ _).trans (hempty i)
    · exact hsame.sync.trans ((dequeStep_kept (q.holdFrm f)).sync.trans hsync)
  · exact (Function.update_of_ne (fun h => hne (h.trans hidx.symm)) _ _).trans (hempty _)

theorem recv_ahead {d : Bool} (ha : r.aggr = true) (hsync : r.syncNextSeq = false)
    (ho : outside r.seqNext (seqMask ((r.seqNext:Int)+r.holdQSz-1)) f.seqNo = false)
    (hnone : r.holdQ (aggrWinIdx r.seqNext r.holdQSz) = none)
    (hne : aggrWinIdx r.seqNext r.holdQSz ≠ aggrWinIdx f.seqNo r.holdQSz)
    (s : Rxtid) (hr : s = (aggrProcessRecvFrm d r f).1) :
    s.seqNext = r.seqNext ∧ s.holdQ (aggrWinIdx f.seqNo r.holdQSz) = some (f.node r.arrived) ∧
    s.syncNextSeq = false := by
  have hq : r.syncSeqNext f.seqNo = r := by
    unfold Rxtid.syncSeqNext
    rw [if_neg (by simp [hsync])]
  rw [recv_through ha (by rw [hq]; exact ho), hq,
    deque_not_due ((Function.update_of_ne hne _ _).trans hnone)] at hr
  have hsame := (recvArmTimer_same (r.holdFrm f).deliverQ).1
  rw [← hr] at hsame
  refine ⟨hsame.seqNext, ?_, hsame.sync.trans hsync⟩
  rw [hsame.holdQ]
  exact Function.update_self ..

theorem session_recv {d : Bool} {t : Tid} (hu : t.Up) (hz : 0<t.r.holdQSz) (f : RecvFrm) :
    sessionStep d t (.recv f) = ⟨(aggrProcessRecvFrm d t.r f).1, t.down⟩ := by
  have hnf : faults t.r (.recv f) = false := by simp [faults, Nat.ne_of_gt hz]
  unfold sessionStep tidStep
  rw [if_pos hu]
  exact if_neg (by simp [Event.onTid, hnf])

theorem idx_succ_ne {sz : Nat} (h : 2≤ sz) (x : Nat) : aggrWinIdx (x+1) sz ≠ aggrWinIdx x sz := by
  intro he
  have h1 : (1:Nat) ≡ 0 [MOD sz] := Nat.ModEq.add_left_cancel' x he
  have h0 : 1 % sz = 0 % sz := h1
  rw [Nat.mod_eq_of_lt h, Nat.zero_mod] at h0
  cases h0

theorem wrap_collision {w : Nat} (h0 : 0<w) (hw : w<256) (h : ¬ 2*w ∣ 4096) :
    ∃ x, x+2<2*w ∧ aggrWinIdx x (2*w) = aggrWinIdx 4095 (2*w) ∧ fwd 4096 4094 x = x+2 := by
  have hm : 4096 % (2*w) = 2*(2048 % w) := Nat.mul_mod_mul_left 2 2048 w
  have hlt := Nat.mod_lt 2048 h0
  have hne : 4096 % (2*w) ≠ 0 := mt Nat.dvd_of_mod_eq_zero h
  have hdiv := Nat.div_add_mod 4096 (2*w)
  refine ⟨2*(2048 % w)-1, by omega, ?_, ?_⟩
  · have he : 4095 = 2*w*(4096/(2*w)) + (2*(2048 % w)-1) := by omega
    rw [aggrWinIdx, aggrWinIdx, he, Nat.mul_add_mod]
  · exact fwd_unique pos4096 (by omega) (by omega)

theorem inside_wrap {w : Nat} (h0 : 0<w) (hw : w<256) :
    outside 4094 (seqMask (((4094:Nat):Int)+(2*w:Nat)-1)) 4095 = false := by
  have hfin := seqMask_add (a := 4094) (k := 2*w-1) (by decide) (by omega)
  rw [show ((4094:Nat):Int)+(2*w:Nat)-1 = (4094:Nat)+(2*w-1:Nat) by omega]
  simp only [outside, Bool.or_eq_false_iff, Bool.and_eq_false_iff, decide_eq_false_iff_not]
  omega

theorem faulty {d : Bool} {t : Tid} (hu : t.Up) (ha : t.r.aggr = true) (hz : t.r.holdQSz = 0)
    (f : RecvFrm) : ¬ Lossless d t [.recv f] := by
  intro hl
  have hdown : (sessionStep d t (.recv f)).down = true := by
    unfold sessionStep tidStep
    rw [if_pos hu, if_pos (by simp [faults, Event.onTid, ha, hz])]
  cases hdown.symm.trans hl.noFault

/-- A window whose size does not divide the numbers loses a frame at some wrap; a window of
size 0 divides by zero. -/
theorem lossy {d : Bool} {r : Rxtid} {seqNo : Nat} {winSz : Fin 256}
    (hopen : (openSession r seqNo winSz).aggr = true)
    (hh : (openSession r seqNo winSz).hung = false) (hn : ¬ 2*(winSz:Nat) ∣ 4096) :
    ∃ es, AllSteps (sessionStep d) InWindow ⟨openSession r seqNo winSz, false⟩ es ∧
      ¬ Lossless d ⟨openSession r seqNo winSz, false⟩ es := by
  have hf := openSession_fresh hopen
  generalize openSession r seqNo winSz = r0 at hopen hh hf ⊢
  have hu0 : (⟨r0, false⟩ : Tid).Up := ⟨hh, rfl⟩
  have hz0 : r0.holdQSz = 2*winSz := hf.holdQSz
  by_cases h0 : (winSz:Nat) = 0
  · refine ⟨[.recv (mpdu 0)], ⟨fun hs => ?_, trivial⟩, faulty hu0 hopen ?_ _⟩
    · cases hf.sync.symm.trans hs
    · rw [hz0, h0]
  · obtain ⟨x, hx, hslot, hdist⟩ := wrap_collision (Nat.pos_of_ne_zero h0) winSz.isLt hn
    have hw := winSz.isLt
    obtain ⟨f, hfx⟩ : ∃ f : RecvFrm, (f.seqNo : Nat) = x := ⟨mpdu ⟨x, by omega⟩, rfl⟩
    refine ⟨[.recv (mpdu 4093), .recv (mpdu 4095), .recv f], ?_⟩
    -- frame 4093 opens the window at 4094
    obtain ⟨hs1, he1, hy1⟩ := recv_next (d := d) (f := mpdu 4093) hopen hf.holdQ
      (by rw [syncSeqNext_seqNext, hf.sync, if_pos rfl]) (by
        rw [hz0]
        exact idx_succ_ne (by omega) 4093) _ rfl
    obtain ⟨hz1, ha1, hh1⟩ := recv_open (d := d) (f := mpdu 4093) hopen
    have hr1 := session_recv (d := d) hu0 (by rw [hz0]; omega) (mpdu 4093)
    generalize (aggrProcessRecvFrm d r0 (mpdu 4093)).1 = r1 at hs1 he1 hy1 hz1 ha1 hh1 hr1
    rw [hz0] at hz1
    change r1.seqNext = 4094 at hs1
    have hu1 : (⟨r1, false⟩ : Tid).Up := ⟨hh1.trans hh, rfl⟩
    -- frame 4095 waits for it
    have ho : outside r1.seqNext (seqMask ((r1.seqNext:Int)+r1.holdQSz-1)) (mpdu 4095).seqNo = false := by
      rw [hs1, hz1]
      exact inside_wrap (Nat.pos_of_ne_zero h0) hw
    obtain ⟨hs2, hq2, hy2⟩ := recv_ahead (d := d) (f := mpdu 4095) ha1 hy1 ho (he1 _) (by
        rw [hs1, hz1]
        exact (idx_succ_ne (by omega) 4094).symm) _ rfl
    obtain ⟨hz2, -, -⟩ := recv_open (d := d) (f := mpdu 4095) ha1
    have hr2 := session_recv (d := d) hu1 (by rw [hz1]; omega) (mpdu 4095)
    generalize (aggrProcessRecvFrm d r1 (mpdu 4095)).1 = r2 at hs2 hq2 hy2 hz2 hr2
    rw [hz1] at hz2 hq2
    rw [hs1] at hs2
    change r2.holdQ (aggrWinIdx 4095 _) = _ at hq2
    constructor
    · refine ⟨fun hs => ?_, ?_⟩
      · cases hf.sync.symm.trans hs
      · rw [hr1]
        refine ⟨fun _ => ?_, ?_⟩
        · show fwd 4096 r1.seqNext 4095 < r1.holdQSz
          rw [hs1, hz1, show fwd 4096 4094 4095 = 1 by decide]
          omega
        · rw [hr2]
          refine ⟨fun _ => ?_, trivial⟩
          show fwd 4096 r2.seqNext f.seqNo < r2.holdQSz
          rw [hs2, hz2, hfx, hdist]
          exact hx
    · -- it is overwritten by a frame of another number
      intro hl
      have hsame := hl.sameNumber.2.2.1
      rw [hr1, hr2] at hsame
      have heq := hsame _ (by rw [hfx, hz2, hslot]; exact hq2)
      rw [hfx] at heq
      change 4095 = x at heq
      omega

theorem Fresh.open {seqNo winSz : Nat} {r : Rxtid} (h : Fresh seqNo winSz r)
    (hw : Sized (2*winSz)) (ha : r.aggr = true) (hh : r.hung = false) (h0 : r.arrived = 0) :
    Open seqNo (2*winSz) [] r where
  booked := ⟨(h.idle hw ha hh).inv, h0, fun _ _ _ hj => (by cases hj), fun _ _ _ hj => (by cases hj)⟩
  size := h.holdQSz
  aggr := ha

/-- A session of any announced window loses no frame of its window, whatever arrives and
whenever the timer expires, exactly when twice the announced size divides the sequence
numbers. -/
theorem rx_window_lossless (d : Bool) (r : Rxtid) (seqNo : Nat) (winSz : Fin 256)
    (hopen : (openSession r seqNo winSz).aggr = true)
    (hh : (openSession r seqNo winSz).hung = false) :
    (∀ es, AllSteps (sessionStep d) InWindow ⟨openSession r seqNo winSz, false⟩ es →
      Lossless d ⟨openSession r seqNo winSz, false⟩ es) ↔ 2*(winSz:Nat) ∣ 4096 := by
  constructor
  · intro hall
    by_contra hn
    obtain ⟨es, hin, hl⟩ := lossy (d := d) hopen hh hn
    exact hl (hall es hin)
  · intro hdvd es hin
    have h0 := (openSession_fresh hopen).open (sized_of_dvd hdvd) hopen hh rfl
    obtain ⟨h1, h2, h3⟩ := h0.run (t := ⟨openSession r seqNo winSz, false⟩) rfl hin
    exact ⟨h2, h3, h1.booked.acc⟩

theorem rx_window_lossless_four :
    (∀ es, AllSteps (sessionStep false) InWindow ⟨openSession {} 4094 4, false⟩ es →
      Lossless false ⟨openSession {} 4094 4, false⟩ es) ↔ 2*((4 : Fin 256):Nat) ∣ 4096 :=
  rx_window_lossless false {} 4094 4 rfl rfl

/-- With a window of 7, frame 7 overwrites frame 4095 in slot 7 of 14. -/
theorem rx_window_seven_loses :
    (openSession {} 4093 7).aggr = true ∧
    AllSteps (sessionStep false) InWindow ⟨openSession {} 4093 7, false⟩
      [.recv (mpdu 4093), .recv (mpdu 4095), .recv (mpdu 7)] ∧
    ¬ Lossless false ⟨openSession {} 4093 7, false⟩
      [.recv (mpdu 4093), .recv (mpdu 4095), .recv (mpdu 7)] := by
  refine ⟨rfl, ⟨(fun h => nomatch h), fun _ => ?_, fun _ => ?_, trivial⟩, fun hl => ?_⟩
  · decide
  · decide
  · exact absurd (hl.sameNumber.2.2.1 _ rfl) (by decide)

end Ath6kl.RxReorder
