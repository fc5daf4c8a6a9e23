import Ath6kl.P2pFlowctrlAccount

/-! Order under P2P flow control: the packets of one connection, endpoint and tag reach HTC
for the last time in the order of their submission, unless priority packets pile up at the
head of `re_queue`. -/
namespace Ath6kl.P2pFlowctrl
open Htc Lib.Machine
variable {s s' : Flowctrl} {i j : ConnId} {e : Eid} {p q r : Packet}

/-- Packets of one connection, endpoint and tag. -/
def SameFlow (p q : Packet) : Prop :=
  p.connid = q.connid ∧ p.endpoint = q.endpoint ∧ p.tag = q.tag

instance (p q : Packet) : Decidable (SameFlow p q) :=
  inferInstanceAs (Decidable (p.connid = q.connid ∧ p.endpoint = q.endpoint ∧ p.tag = q.tag))

theorem SameFlow.symm (h : SameFlow p q) : SameFlow q p := ⟨h.1.symm, h.2.1.symm, h.2.2.symm⟩

/-- Of two packets of one flow the first was submitted earlier, and has been taken back at
least as often. -/
def Before (p q : Packet) : Prop :=
  SameFlow p q → p.serial < q.serial ∧ q.recycleCount ≤ p.recycleCount

/-- Whenever a packet is sent after a later one of its flow, the later one is sent again. -/
def InOrder (log : List Packet) : Prop :=
  ∀ u q v, log = u ++ q::v → ∀ p∈v, SameFlow p q → p.serial < q.serial → ∃ r∈v, r.serial = q.serial

theorem InOrder.append {log ps : List Packet} (h : InOrder log) (hps : ps.Pairwise Before)
    (hheld : ∀ p∈ps, ∀ q∈log, SameFlow p q → p.serial < q.serial → ∃ r∈ps, r.serial = q.serial) :
    InOrder (log ++ ps) := by
  have hinside : ∀ a q v, ps = a ++ q::v → ∀ p∈v, SameFlow p q → ¬ p.serial < q.serial := by
    intro a q v hsplit p hp hsame hlt
    rw [hsplit, List.pairwise_append, List.pairwise_cons] at hps
    have hb := hps.2.1.1 p hp hsame.symm
    omega
  intro u q v hsplit p hp hsame hlt
  obtain ⟨a, -, hps'⟩ | ⟨c, hlog, hv⟩ := List.append_eq_append_iff.mp hsplit
  · exact absurd hlt (hinside a q v hps' p hp hsame)
  · cases c with
    | nil => exact absurd hlt (hinside [] q v hv.symm p hp hsame)
    | cons x c =>
      obtain ⟨rfl, rfl⟩ := List.cons.inj hv
      cases List.mem_append.mp hp with
      | inl hc =>
        obtain ⟨r, hr, hrq⟩ := h u q c hlog p hc hsame hlt
        exact ⟨r, List.mem_append_left _ hr, hrq⟩
      | inr hq =>
        obtain ⟨r, hr, hrq⟩ := hheld p hq q (by rw [hlog]; simp) hsame hlt
        exact ⟨r, List.mem_append_right _ hr, hrq⟩

theorem before_of_lt {l : List Packet} (h : l.Pairwise Before) (hp : p∈l) (hr : r∈l)
    (hsame : SameFlow p r) (hlt : p.serial < r.serial) : r.recycleCount ≤ p.recycleCount := by
  induction l with
  | nil => cases hp
  | cons x l ih =>
    obtain ⟨hx, hl⟩ := List.pairwise_cons.mp h
    cases List.mem_cons.mp hp with
    | inl hpx =>
      cases List.mem_cons.mp hr with
      | inl hrx =>
        subst hpx hrx
        omega
      | inr hrl => exact (hx r hrl (hpx ▸ hsame)).2.trans (by rw [hpx])
    | inr hpl =>
      cases List.mem_cons.mp hr with
      | inl hrx =>
        have hb := (hx p hpl (hrx ▸ hsame.symm)).1
        rw [hrx] at hlt
        omega
      | inr hrl => exact ih hl hpl hrl

/-- The packets waiting on a connection, in the order in which they will go out. -/
def waiting (s : Flowctrl) (i : ConnId) : List Packet := (s.conn i).reQueue ++ (s.conn i).connQueue

/-- The invariant. What HTC holds is older than what waits; taken-back packets of a flow wait
only while HTC holds none of it; and a packet waits only together with the later ones of its
flow that have been sent before. -/
structure Ordered (s : Flowctrl) : Prop where
  home : ∀ i, ∀ p∈waiting s i, p.connid = some i
  plain : ∀ i, ∀ p∈(s.conn i).connQueue, p.tag ≠ .priData
  endpoint : ∀ e, ∀ p∈s.txq e, p.endpoint = e
  oldWaiting : ∀ i, ∀ p∈waiting s i, p.serial < s.serial
  oldTxq : ∀ e, ∀ p∈s.txq e, p.serial < s.serial
  oldSent : ∀ p∈s.htcTx, p.serial < s.serial
  htc : ∀ e, (s.txq e).Pairwise Before
  wait : ∀ i, (waiting s i).Pairwise Before
  cross : ∀ e i, ∀ p∈s.txq e, ∀ q∈waiting s i, Before p q
  clean : ∀ i, ∀ p∈(s.conn i).reQueue, p.tag ≠ .priData → ∀ e, ∀ q∈s.txq e, ¬ SameFlow p q
  held : ∀ i, ∀ p∈waiting s i, ∀ q∈s.htcTx, SameFlow p q → p.serial < q.serial →
    ∃ r∈waiting s i, r.serial = q.serial
  sent : InOrder s.htcTx

theorem not_sameFlow (hp : p.connid = some i) (hq : q.connid = some j) (hne : i ≠ j) :
    ¬ SameFlow p q := fun h => hne (Option.some.inj (hp.symm.trans (h.1.trans hq)))

theorem Ordered.less (h : Ordered s)
    (hconn : ∀ i, (s'.conn i).Drained ∨ ((s'.conn i).reQueue = (s.conn i).reQueue ∧
      (s'.conn i).connQueue = (s.conn i).connQueue))
    (htxq : ∀ e, List.Sublist (s'.txq e) (s.txq e)) (hsent : s'.htcTx = s.htcTx)
    (hserial : s.serial ≤ s'.serial) : Ordered s' := by
  have hwait : ∀ i, waiting s' i = [] ∨ waiting s' i = waiting s i := by
    intro i
    cases hconn i with
    | inl hd =>
      left
      rw [waiting, hd.1, hd.2]
      rfl
    | inr hs =>
      right
      rw [waiting, hs.1, hs.2, waiting]
  have hmem : ∀ i, ∀ p∈waiting s' i, p∈waiting s i := by
    intro i p hp
    cases hwait i with
    | inl hn =>
      rw [hn] at hp
      cases hp
    | inr hs => rwa [hs] at hp
  refine ⟨fun i p hp => h.home i p (hmem i p hp), fun i p hp => ?_,
    fun e p hp => h.endpoint e p ((htxq e).subset hp),
    fun i p hp => (h.oldWaiting i p (hmem i p hp)).trans_le hserial,
    fun e p hp => (h.oldTxq e p ((htxq e).subset hp)).trans_le hserial,
    fun p hp => (h.oldSent p (hsent ▸ hp)).trans_le hserial,
    fun e => (h.htc e).sublist (htxq e), fun i => ?_,
    fun e i p hp q hq => h.cross e i p ((htxq e).subset hp) q (hmem i q hq),
    fun i p hp => ?_, fun i p hp q hq => ?_, hsent ▸ h.sent⟩
  · cases hconn i with
    | inl hd =>
      rw [hd.2] at hp
      cases hp
    | inr hs => exact h.plain i p (hs.2 ▸ hp)
  · cases hwait i with
    | inl hn =>
      rw [hn]
      exact List.Pairwise.nil
    | inr hs =>
      rw [hs]
      exact h.wait i
  · cases hconn i with
    | inl hd =>
      rw [hd.1] at hp
      cases hp
    | inr hs => exact fun ht e q hq => h.clean i p (hs.1 ▸ hp) ht e q ((htxq e).subset hq)
  · cases hwait i with
    | inl hn =>
      rw [hn] at hp
      cases hp
    | inr hs =>
      rw [hs] at hp ⊢
      exact h.held i p hp q (hsent ▸ hq)

theorem waiting_of_conn (h : s'.conn = s.conn) (i : ConnId) : waiting s' i = waiting s i := by
  rw [waiting, h, waiting]

theorem Ordered.passOn (h : Ordered s) {ps : List Packet} (hu : Sent s s' ps)
    (hnew : ∀ p∈ps, p.serial < s.serial) (hps : ps.Pairwise Before)
    (hafter : ∀ e, ∀ q∈s.txq e, ∀ p∈ps, Before q p)
    (hapart : ∀ j, ∀ q∈waiting s j, ∀ p∈ps, ¬ SameFlow q p) (hlog : InOrder (s.htcTx ++ ps)) :
    Ordered s' := by
  have hw : ∀ j, waiting s' j = waiting s j := waiting_of_conn hu.conn
  have hser : s'.serial = s.serial := hu.serial
  refine ⟨fun j q hq => h.home j q (hw j ▸ hq), fun j q hq => h.plain j q (hu.conn ▸ hq),
    fun e q hq => ?_, fun j q hq => hser ▸ h.oldWaiting j q (hw j ▸ hq), fun e q hq => ?_,
    fun q hq => ?_, fun e => ?_, fun j => hw j ▸ h.wait j, fun e j q hq x hx => ?_,
    fun j q hq ht e x hx => ?_, fun j q hq x hx => ?_, ?_⟩
  · rw [hu.txq] at hq
    cases List.mem_append.mp hq with
    | inl hq => exact h.endpoint e q hq
    | inr hq => simpa using (List.mem_filter.mp hq).2
  · rw [hu.txq] at hq
    rw [hser]
    cases List.mem_append.mp hq with
    | inl hq => exact h.oldTxq e q hq
    | inr hq => exact hnew q (List.mem_of_mem_filter hq)
  · rw [hu.htcTx] at hq
    rw [hser]
    cases List.mem_append.mp hq with
    | inl hq => exact h.oldSent q hq
    | inr hq => exact hnew q hq
  · rw [hu.txq, List.pairwise_append]
    exact ⟨h.htc e, hps.filter _,
      fun q hq x hx => hafter e q hq x (List.mem_of_mem_filter hx)⟩
  · rw [hw] at hx
    rw [hu.txq] at hq
    cases List.mem_append.mp hq with
    | inl hq => exact h.cross e j q hq x hx
    | inr hq =>
      have hne := hapart j x hx q (List.mem_of_mem_filter hq)
      exact fun hsame => absurd hsame.symm hne
  · have hq' : q∈(s.conn j).reQueue := hu.conn ▸ hq
    rw [hu.txq] at hx
    cases List.mem_append.mp hx with
    | inl hx => exact h.clean j q hq' ht e x hx
    | inr hx => exact hapart j q (List.mem_append_left _ hq') x (List.mem_of_mem_filter hx)
  · rw [hw] at hq ⊢
    rw [hu.htcTx] at hx
    cases List.mem_append.mp hx with
    | inl hx => exact h.held j q hq x hx
    | inr hx => exact fun hsame => absurd hsame (hapart j q hq x hx)
  · rw [hu.htcTx]
    exact hlog

theorem Ordered.sendAll (h : Ordered s) {u : Flowctrl} (hu : Sent u s' (waiting s i))
    (hi : (u.conn i).Drained) (hj : ∀ j, j ≠ i → u.conn j = s.conn j) (htxq : u.txq = s.txq)
    (hsent : u.htcTx = s.htcTx) (hserial : u.serial = s.serial) : Ordered s' := by
  have hdrained : Ordered u := by
    refine h.less (fun j => ?_) (fun e => htxq ▸ List.Sublist.refl _) hsent hserial.ge
    by_cases hne : j = i
    · exact Or.inl (hne ▸ hi)
    · rw [hj j hne]
      exact Or.inr ⟨rfl, rfl⟩
  refine hdrained.passOn hu (fun p hp => hserial ▸ h.oldWaiting i p hp) (h.wait i)
    (fun e q hq p hp => h.cross e i q (htxq ▸ hq) p hp) (fun j q hq p hp => ?_) ?_
  · -- only the other connections have packets waiting
    have hne : j ≠ i := by
      rintro rfl
      rw [waiting, hi.1, hi.2] at hq
      cases hq
    exact not_sameFlow (hdrained.home j q hq) (h.home i p hp) hne
  · rw [hsent]
    exact h.sent.append (h.wait i) (h.held i)

theorem Ordered.txScheduleConn (h : Ordered s) (i : ConnId) : Ordered (txScheduleConn s i) := by
  unfold P2pFlowctrl.txScheduleConn
  dsimp only
  split
  · exact h
  · split
    · refine h.sendAll (i := i) (sendAll_sent _ _) ?_ (fun j hj => setConn_ne hj s _) rfl rfl rfl
      rw [setConn_self]
      exact ⟨rfl, rfl⟩
    · exact h

theorem Ordered.send (h : Ordered s) (hp : p.serial = s.serial) (hr : p.recycleCount = 0)
    (hfree : ∀ i, p.connid = some i → waiting s i = []) :
    Ordered (Flowctrl.send { s with serial := s.serial+1 } p) := by
  have hcounted : Ordered { s with serial := s.serial+1 } :=
    h.less (fun _ => Or.inr ⟨rfl, rfl⟩) (fun _ => List.Sublist.refl _) rfl (Nat.le_succ _)
  refine hcounted.passOn (send_sent _ p) ?_ (List.pairwise_singleton _ _) ?_ ?_ ?_
  · intro q hq
    rw [List.mem_singleton.mp hq, hp]
    exact Nat.lt_succ_self _
  · intro e q hq x hx _
    rw [List.mem_singleton.mp hx, hp, hr]
    exact ⟨h.oldTxq e q hq, Nat.zero_le _⟩
  · intro j q hq x hx hsame
    rw [List.mem_singleton.mp hx] at hsame
    have hempty := hfree j (hsame.1.symm.trans (h.home j q hq))
    have hq' : q∈waiting s j := hq
    rw [hempty] at hq'
    cases hq'
  · refine h.sent.append (List.pairwise_singleton _ _) fun x hx q hq _ hlt => ?_
    rw [List.mem_singleton.mp hx, hp] at hlt
    exact absurd hlt (Nat.lt_asymm (h.oldSent q hq))

/-- Packets `ps` join the queues of connection `i`. -/
structure Gain (s s' : Flowctrl) (i : ConnId) (ps : List Packet) : Prop where
  txq : s'.txq = s.txq
  htcTx : s'.htcTx = s.htcTx
  serial : s'.serial = s.serial
  other : ∀ j, j ≠ i → s'.conn j = s.conn j
  mem : ∀ q∈waiting s' i, q∈waiting s i ∨ q∈ps
  keep : ∀ q∈waiting s i, q∈waiting s' i
  home : ∀ p∈ps, p.connid = some i
  old : ∀ p∈ps, p.serial < s.serial
  plain : ∀ q∈(s'.conn i).connQueue, q.tag ≠ .priData
  wait : (waiting s' i).Pairwise Before
  cross : ∀ e, ∀ q∈s.txq e, ∀ p∈ps, Before q p
  clean : ∀ q∈(s'.conn i).reQueue, q.tag ≠ .priData → ∀ e, ∀ x∈s.txq e, ¬ SameFlow q x
  held : ∀ p∈ps, ∀ q∈s.htcTx, SameFlow p q → p.serial < q.serial →
    ∃ r∈waiting s' i, r.serial = q.serial

theorem Ordered.gain (h : Ordered s) {ps : List Packet} (k : Gain s s' i ps) : Ordered s' := by
  have hwj : ∀ j, j ≠ i → waiting s' j = waiting s j := fun j hj => by
    rw [waiting, k.other j hj, waiting]
  have hall : ∀ {j q}, q∈waiting s' j → q∈waiting s j ∨ (j = i ∧ q∈ps) := by
    intro j q hq
    by_cases hj : j = i
    · subst hj
      exact (k.mem q hq).imp_right fun hp => ⟨rfl, hp⟩
    · exact Or.inl (hwj j hj ▸ hq)
  have hkeep : ∀ {j q}, q∈waiting s j → q∈waiting s' j := by
    intro j q hq
    by_cases hj : j = i
    · subst hj
      exact k.keep q hq
    · exact (hwj j hj).symm ▸ hq
  refine ⟨fun j q hq => ?_, fun j q hq => ?_, fun e q hq => h.endpoint e q (k.txq ▸ hq),
    fun j q hq => ?_, fun e q hq => k.serial ▸ h.oldTxq e q (k.txq ▸ hq),
    fun q hq => k.serial ▸ h.oldSent q (k.htcTx ▸ hq), fun e => k.txq ▸ h.htc e, fun j => ?_,
    fun e j q hq x hx => ?_, fun j q hq ht e x hx => ?_, fun j q hq x hx hsame hlt => ?_,
    k.htcTx ▸ h.sent⟩
  · cases hall hq with
    | inl ho => exact h.home j q ho
    | inr hn => rw [hn.1, k.home q hn.2]
  · by_cases hj : j = i
    · subst hj
      exact k.plain q hq
    · exact h.plain j q (k.other j hj ▸ hq)
  · rw [k.serial]
    cases hall hq with
    | inl ho => exact h.oldWaiting j q ho
    | inr hn => exact k.old q hn.2
  · by_cases hj : j = i
    · subst hj
      exact k.wait
    · rw [hwj j hj]
      exact h.wait j
  · rw [k.txq] at hq
    cases hall hx with
    | inl ho => exact h.cross e j q hq x ho
    | inr hn => exact k.cross e q hq x hn.2
  · rw [k.txq] at hx
    by_cases hj : j = i
    · subst hj
      exact k.clean q hq ht e x hx
    · exact h.clean j q (k.other j hj ▸ hq) ht e x hx
  · rw [k.htcTx] at hx
    cases hall hq with
    | inl ho =>
      obtain ⟨r, hr, hrx⟩ := h.held j q ho x hx hsame hlt
      exact ⟨r, hkeep hr, hrx⟩
    | inr hn =>
      rw [hn.1]
      exact k.held q hn.2 x hx hsame hlt

theorem Ordered.join (h : Ordered s) (hp : p.serial = s.serial) (hr : p.recycleCount = 0)
    (hc : p.connid = some i) {c : FwConn}
    (hmem : ∀ q∈c.reQueue ++ c.connQueue, q = p ∨ q∈waiting s i)
    (hsub : ∀ q∈waiting s i, q∈c.reQueue ++ c.connQueue)
    (hplain : ∀ q∈c.connQueue, q.tag ≠ .priData)
    (hre : ∀ q∈c.reQueue, q.tag ≠ .priData → q∈(s.conn i).reQueue)
    (hwait : (c.reQueue ++ c.connQueue).Pairwise Before) :
    Ordered (Flowctrl.setConn { s with serial := s.serial+1 } i c) := by
  have hcounted : Ordered { s with serial := s.serial+1 } :=
    h.less (fun _ => Or.inr ⟨rfl, rfl⟩) (fun _ => List.Sublist.refl _) rfl (Nat.le_succ _)
  refine hcounted.gain (?_ : Gain _ _ i [p])
  have hci : (Flowctrl.setConn { s with serial := s.serial+1 } i c).conn i = c := setConn_self ..
  have hwi : waiting (Flowctrl.setConn { s with serial := s.serial+1 } i c) i =
      c.reQueue ++ c.connQueue := by rw [waiting, hci]
  constructor
  case txq | htcTx | serial => rfl
  case other => exact fun j hj => setConn_ne hj _ _
  case mem =>
    intro q hq
    rw [hwi] at hq
    exact (hmem q hq).symm.imp_right fun he => List.mem_singleton.mpr he
  case keep =>
    intro q hq
    rw [hwi]
    exact hsub q hq
  case home =>
    intro q hq
    rw [List.mem_singleton.mp hq, hc]
  case old =>
    intro q hq
    rw [List.mem_singleton.mp hq, hp]
    exact Nat.lt_succ_self _
  case plain =>
    rw [hci]
    exact hplain
  case wait =>
    rw [hwi]
    exact hwait
  case cross =>
    intro e q hq x hx _
    rw [List.mem_singleton.mp hx, hp, hr]
    exact ⟨h.oldTxq e q hq, Nat.zero_le _⟩
  case clean =>
    intro q hq ht
    rw [hci] at hq
    exact h.clean i q (hre q hq ht) ht
  case held =>
    intro q hq x hx _ hlt
    rw [List.mem_singleton.mp hq, hp] at hlt
    exact absurd hlt (Nat.lt_asymm (h.oldSent x hx))

theorem Ordered.before_new (h : Ordered s) (hp : p.serial = s.serial) (hr : p.recycleCount = 0)
    (hq : q∈waiting s i) : Before q p :=
  fun _ => ⟨hp ▸ h.oldWaiting i q hq, hr ▸ Nat.zero_le _⟩

/-- No priority packet of the same endpoint waits in front of a new one. -/
def HeadFree (s : Flowctrl) (i : ConnId) (endpoint : Eid) (tag : Tag) : Prop :=
  tag = .priData → ∀ r∈(s.conn i).reQueue, r.tag = .priData → r.endpoint ≠ endpoint

instance (s : Flowctrl) (i : ConnId) (endpoint : Eid) (tag : Tag) :
    Decidable (HeadFree s i endpoint tag) :=
  inferInstanceAs (Decidable (tag = .priData →
    ∀ r∈(s.conn i).reQueue, r.tag = .priData → r.endpoint ≠ endpoint))

theorem Ordered.enqueue (h : Ordered s) (hp : p.serial = s.serial) (hr : p.recycleCount = 0)
    (hc : p.connid = some i) (hfree : HeadFree s i p.endpoint p.tag) :
    Ordered (enqueue { s with serial := s.serial+1 } i p) := by
  unfold P2pFlowctrl.enqueue
  dsimp only
  by_cases ht : p.tag = .priData
  · rw [if_neg (not_not.mpr ht)]
    refine h.join hp hr hc (fun q hq => ?_) (fun q hq => ?_) (h.plain i) (fun q hq hqt => ?_) ?_
    · exact List.mem_cons.mp hq
    · exact List.mem_cons_of_mem p hq
    · cases List.mem_cons.mp hq with
      | inl he => exact absurd (he ▸ ht) hqt
      | inr ho => exact ho
    · refine List.pairwise_cons.mpr ⟨fun q hq hsame => ?_, h.wait i⟩
      have hqt : q.tag = .priData := hsame.2.2.symm.trans ht
      cases List.mem_append.mp hq with
      | inl hre => exact absurd hsame.2.1.symm (hfree ht q hre hqt)
      | inr hconn => exact absurd hqt (h.plain i q hconn)
  · rw [if_pos ht]
    refine h.join hp hr hc (fun q hq => ?_) (fun q hq => ?_) (fun q hq => ?_)
      (fun q hq _ => hq) ?_
    · dsimp only at hq
      rw [← List.append_assoc] at hq
      cases List.mem_append.mp hq with
      | inl ho => exact Or.inr ho
      | inr hn => exact Or.inl (List.mem_singleton.mp hn)
    · dsimp only
      rw [← List.append_assoc]
      exact List.mem_append_left _ hq
    · cases List.mem_append.mp hq with
      | inl ho => exact h.plain i q ho
      | inr hn => rwa [List.mem_singleton.mp hn]
    · dsimp only
      rw [← List.append_assoc, List.pairwise_append]
      refine ⟨h.wait i, List.pairwise_singleton _ _, fun q hq x hx => ?_⟩
      rw [List.mem_singleton.mp hx]
      exact h.before_new hp hr hq

theorem Ordered.dataTx (h : Ordered s) {hint : Mac} {endpoint : Eid} {tag : Tag}
    (hfree : ∀ i, getConnId s hint = some i → HeadFree s i endpoint tag) :
    Ordered (dataTx s hint endpoint tag) := by
  unfold P2pFlowctrl.dataTx txSchedulePkt
  dsimp only
  cases hc : getConnId s hint with
  | none => exact h.send rfl rfl (by rintro _ ⟨⟩)
  | some i =>
    dsimp only
    split
    · exact h.enqueue rfl rfl rfl (hfree i hc)
    · split
      · exact run_invariant (I := Ordered) (fun _ j hu => hu.txScheduleConn j)
          (h.enqueue rfl rfl rfl (hfree i hc)) _
      · next hempty =>
        simp only [not_or, not_not] at hempty
        refine h.send rfl rfl fun j hj => ?_
        rw [← Option.some.inj hj, waiting, hempty.1, hempty.2]
        rfl

/-- What is taken back to a queue joins no priority packet of its flow there, and HTC still
holds the later packets of its flow. -/
def BackInOrder (s : Flowctrl) (i : ConnId) (e : Eid) : Prop :=
  ∀ p∈ofConn s i e, agedOut p = false →
    (p.tag = .priData → ∀ r∈(s.conn i).reQueue, ¬ SameFlow r p) ∧
    ∀ q∈s.htcTx, SameFlow p q → p.serial < q.serial → ∃ r∈ofConn s i e, r.serial = q.serial ∧
      SameFlow p r

instance (s : Flowctrl) (i : ConnId) (e : Eid) : Decidable (BackInOrder s i e) :=
  inferInstanceAs (Decidable (∀ p∈ofConn s i e, agedOut p = false →
    (p.tag = .priData → ∀ r∈(s.conn i).reQueue, ¬ SameFlow r p) ∧
    ∀ q∈s.htcTx, SameFlow p q → p.serial < q.serial → ∃ r∈ofConn s i e, r.serial = q.serial ∧
      SameFlow p r))

/-- The packets of endpoint `e` that return to the queue of connection `i`. -/
def again (s : Flowctrl) (i : ConnId) (e : Eid) : List Packet :=
  ((ofConn s i e).filter fun p => !agedOut p).map recycled

theorem mem_again {x : Packet} (hx : x∈again s i e) :
    ∃ p∈s.txq e, p.connid = some i ∧ agedOut p = false ∧ recycled p = x ∧ p∈ofConn s i e := by
  obtain ⟨p, hp, hpx⟩ := List.mem_map.mp hx
  obtain ⟨hof, ha⟩ := List.mem_filter.mp hp
  obtain ⟨htxq, hc⟩ := List.mem_filter.mp hof
  exact ⟨p, htxq, by simpa using hc, by simpa using ha, hpx, hof⟩

theorem again_mem (hp : p∈ofConn s i e) (ha : agedOut p = false) : recycled p∈again s i e :=
  List.mem_map_of_mem (List.mem_filter.mpr ⟨hp, by simp [ha]⟩)

theorem takeBack_reQueue (s : Flowctrl) (i : ConnId) (e : Eid) :
    ((takeBack i s e).conn i).reQueue = (s.conn i).reQueue ++ again s i e := by
  simp [takeBack, again]

theorem takeBack_txq (s : Flowctrl) (i : ConnId) (e f : Eid) :
    (takeBack i s e).txq f = if f = e then (s.txq e).filter fun p => p.connid ≠ some i
      else s.txq f := by
  by_cases hf : f = e
  · subst hf
    simp [takeBack]
  · simp [takeBack, hf]

theorem takeBack_sublist (s : Flowctrl) (i : ConnId) (e f : Eid) :
    List.Sublist ((takeBack i s e).txq f) (s.txq f) := by
  rw [takeBack_txq]
  by_cases hf : f = e
  · rw [if_pos hf, hf]
    exact List.filter_sublist
  · rw [if_neg hf]

theorem takeBack_gone (hp : p∈(takeBack i s e).txq e) : p.connid ≠ some i := by
  rw [takeBack_txq, if_pos rfl] at hp
  simpa using (List.mem_filter.mp hp).2

theorem waiting_takeBack (s : Flowctrl) (i : ConnId) (e : Eid) :
    waiting (takeBack i s e) i = (s.conn i).reQueue ++ again s i e ++ (s.conn i).connQueue := by
  rw [waiting, takeBack_reQueue, (takeBack_kept i s e).connQueue]

theorem Ordered.again_clean (h : Ordered s) {f : Eid} (hp : p∈again s i e)
    (hq : q∈(takeBack i s e).txq f) : ¬ SameFlow p q := by
  obtain ⟨x, hx, hxc, -, rfl, -⟩ := mem_again hp
  intro hs
  have hsame : SameFlow x q := hs
  have hf : f = e := by
    rw [← h.endpoint f q ((takeBack_sublist s i e f).subset hq), ← hsame.2.1, h.endpoint e x hx]
  subst hf
  exact takeBack_gone hq (hsame.1.symm.trans hxc)

theorem Ordered.again_before (h : Ordered s) (hb : BackInOrder s i e) :
    ((s.conn i).reQueue ++ again s i e ++ (s.conn i).connQueue).Pairwise Before := by
  have hwait := h.wait i
  rw [waiting, List.pairwise_append] at hwait
  rw [List.pairwise_append, List.pairwise_append]
  refine ⟨⟨hwait.1, ?_, fun r hr x hx => ?_⟩, hwait.2.1, fun r hr x hx => ?_⟩
  · refine List.pairwise_map.mpr ?_
    refine List.Pairwise.imp ?_ (((h.htc e).filter _).filter _)
    intro a b hab hs
    have hlt := hab hs
    exact ⟨hlt.1, Nat.succ_le_succ hlt.2⟩
  · obtain ⟨p, hpt, -, hpa, rfl, hof⟩ := mem_again hx
    intro hs
    have hsp : SameFlow r p := hs
    by_cases hrt : r.tag = .priData
    · exact absurd hsp ((hb p hof hpa).1 (hsp.2.2 ▸ hrt) r hr)
    · exact absurd hsp (h.clean i r hr hrt e p hpt)
  · cases List.mem_append.mp hr with
    | inl hr => exact hwait.2.2 r hr x hx
    | inr hr =>
      obtain ⟨p, hpt, -, -, rfl, -⟩ := mem_again hr
      intro hs
      have hlt := h.cross e i p hpt x (List.mem_append_right _ hx) hs
      exact ⟨hlt.1, hlt.2.trans (Nat.le_succ _)⟩

theorem Ordered.again_held (h : Ordered s) (hb : BackInOrder s i e) (hp : p∈again s i e)
    (hq : q∈s.htcTx) (hsame : SameFlow p q) (hlt : p.serial < q.serial) :
    ∃ r∈again s i e, r.serial = q.serial := by
  obtain ⟨x, hx, -, hxa, rfl, hof⟩ := mem_again hp
  obtain ⟨r, hr, hrq, hxr⟩ := (hb x hof hxa).2 q hq hsame hlt
  have hlt' : x.serial < r.serial := hrq ▸ hlt
  have hrc := before_of_lt (h.htc e) hx (List.mem_of_mem_filter hr) hxr hlt'
  -- the later packet has been taken back no more often, so it is not aged out either
  have hra : agedOut r = false := by
    simp only [agedOut, decide_eq_false_iff_not] at hxa ⊢
    omega
  exact ⟨recycled r, again_mem hr hra, hrq⟩

theorem Ordered.takeBack (h : Ordered s) (hb : BackInOrder s i e) : Ordered (takeBack i s e) := by
  have hk := takeBack_kept i s e
  have hwi := waiting_takeBack s i e
  have hgone : Ordered { s with txq := (P2pFlowctrl.takeBack i s e).txq } :=
    h.less (fun _ => Or.inr ⟨rfl, rfl⟩) (takeBack_sublist s i e) rfl le_rfl
  refine hgone.gain (?_ : Gain _ _ i (again s i e))
  constructor
  case txq | htcTx | serial => rfl
  case other => exact hk.conn
  case mem =>
    intro q hq
    rw [hwi] at hq
    simp only [List.mem_append] at hq
    simp only [waiting, List.mem_append]
    tauto
  case keep =>
    intro q hq
    rw [hwi]
    simp only [waiting, List.mem_append] at hq ⊢
    tauto
  case home =>
    intro q hq
    obtain ⟨p, -, hpc, -, rfl, -⟩ := mem_again hq
    exact hpc
  case old =>
    intro q hq
    obtain ⟨p, hpt, -, -, rfl, -⟩ := mem_again hq
    exact h.oldTxq e p hpt
  case plain => exact fun q hq => h.plain i q (hk.connQueue ▸ hq)
  case wait =>
    rw [hwi]
    exact h.again_before hb
  case cross => exact fun f q hq x hx hs => absurd hs.symm (h.again_clean hx hq)
  case clean =>
    intro q hq ht f x hx
    rw [takeBack_reQueue] at hq
    cases List.mem_append.mp hq with
    | inl ho => exact h.clean i q ho ht f x ((takeBack_sublist s i e f).subset hx)
    | inr ha => exact h.again_clean ha hx
  case held =>
    intro q hq x hx hsame hlt
    obtain ⟨r, hr, hrx⟩ := h.again_held hb hq hx hsame hlt
    refine ⟨r, ?_, hrx⟩
    rw [hwi]
    exact List.mem_append_left _ (List.mem_append_right _ hr)

theorem BackInOrder.takeBack {f : Eid} (hb : BackInOrder s j f) (h : Ordered s) (i : ConnId)
    (e : Eid) : BackInOrder (takeBack i s e) j f := by
  have hk := takeBack_kept i s e
  intro p hp ha
  have hps := hk.less j f p hp
  by_cases hsame : j = i ∧ f = e
  · obtain ⟨rfl, rfl⟩ := hsame
    obtain ⟨hpt, hpc⟩ := List.mem_filter.mp hp
    exact absurd (by simpa using hpc) (takeBack_gone hpt)
  · have hof : ofConn (P2pFlowctrl.takeBack i s e) j f = ofConn s j f := by
      by_cases hj : j = i
      · rw [ofConn_takeBack, if_neg fun hf => hsame ⟨hj, hf⟩]
      · exact hk.other j hj f
    refine ⟨fun ht r hr hs => ?_, fun q hq hs hlt => ?_⟩
    · by_cases hj : j = i
      · subst hj
        rw [takeBack_reQueue] at hr
        cases List.mem_append.mp hr with
        | inl ho => exact (hb p hps ha).1 ht r ho hs
        | inr hag =>
          obtain ⟨x, hxt, -, -, rfl, -⟩ := mem_again hag
          refine hsame ⟨rfl, ?_⟩
          rw [← h.endpoint e x hxt, ← h.endpoint f p (List.mem_of_mem_filter hps)]
          exact hs.2.1.symm
      · rw [hk.conn j hj] at hr
        exact (hb p hps ha).1 ht r hr hs
    · rw [hof]
      exact (hb p hps ha).2 q hq hs hlt

theorem Ordered.takeBackAll (h : Ordered s) {es : List Eid}
    (hb : ∀ e∈es, BackInOrder s i e) : Ordered (es.foldl (P2pFlowctrl.takeBack i) s) := by
  induction es generalizing s with
  | nil => exact h
  | cons e es ih =>
    exact ih (h.takeBack (hb e (by simp))) fun f hf => (hb f (by simp [hf])).takeBack h i e

theorem BackInOrder.takeBackAll {f : Eid} (hb : BackInOrder s j f) (h : Ordered s) {es : List Eid}
    (hes : ∀ e∈es, BackInOrder s i e) : BackInOrder (es.foldl (P2pFlowctrl.takeBack i) s) j f := by
  induction es generalizing s with
  | nil => exact hb
  | cons e es ih =>
    exact ih (hb.takeBack h i e) (h.takeBack (hes e (by simp)))
      fun g hg => (hes g (by simp [hg])).takeBack h i e

theorem allowed_conn (s : Flowctrl) (i j : ConnId) (b : Bool) :
    ((allowed i b s).conn j).reQueue = (s.conn j).reQueue ∧
    ((allowed i b s).conn j).connQueue = (s.conn j).connQueue := by
  by_cases hj : j = i
  · subst hj
    rw [allowed, setConn_self]
    exact ⟨rfl, rfl⟩
  · rw [allowed, setConn_ne hj]
    exact ⟨rfl, rfl⟩

/-- Leaving the channel takes every flow back in order. -/
def BacksInOrder (s : Flowctrl) : Prop :=
  ∀ i, takesBack s i = true → ∀ e∈dataEndpoints, BackInOrder s i e

instance (s : Flowctrl) : Decidable (BacksInOrder s) :=
  inferInstanceAs (Decidable (∀ i, takesBack s i = true → ∀ e∈dataEndpoints, BackInOrder s i e))

theorem Ordered.stateChangeConn (h : Ordered s) (hb : BacksInOrder s) (i : ConnId) :
    Ordered (stateChangeConn s i) := by
  rw [stateChangeConn_eq]
  have hu : Ordered (if takesBack s i then dataEndpoints.foldl (P2pFlowctrl.takeBack i) s
      else s) := by
    split
    · next ht => exact h.takeBackAll (hb i ht)
    · exact h
  exact hu.less (fun j => Or.inr (allowed_conn _ i j _)) (fun e => List.Sublist.refl _) rfl le_rfl

theorem BacksInOrder.turn (hb : BacksInOrder s) (h : Ordered s) (i : ConnId) :
    BacksInOrder (stateChangeConn s i) := by
  intro j ht e he
  by_cases hj : j = i
  · subst hj
    rw [takesBack_turn] at ht
    cases ht
  · rw [takesBack_other s hj] at ht
    rw [stateChangeConn_eq]
    have hu : BackInOrder (if takesBack s i then dataEndpoints.foldl (takeBack i) s else s) j e := by
      split
      · next hi => exact (hb j ht e he).takeBackAll h (hb i hi)
      · exact hb j ht e he
    intro p hp ha
    obtain ⟨h1, h2⟩ := hu p hp ha
    exact ⟨fun ht r hr => h1 ht r ((allowed_conn _ i j _).1 ▸ hr), h2⟩

theorem Ordered.stateChange (h : Ordered s) (hb : BacksInOrder s) : Ordered (stateChange s) :=
  (run_invariant (I := fun u => Ordered u ∧ BacksInOrder u)
    (fun _ i hu => ⟨hu.1.stateChangeConn hu.2 i, hu.2.turn hu.1 i⟩) ⟨h, hb⟩
    (List.finRange numConn)).1

theorem Ordered.collectByConn (h : Ordered s) (i : ConnId) : Ordered (collectByConn s i) := by
  refine h.less (fun j => ?_) (fun e => List.Sublist.refl _) rfl le_rfl
  by_cases hj : j = i
  · subst hj
    left
    simp only [P2pFlowctrl.collectByConn, Flowctrl.complete, setConn_self]
    exact ⟨rfl, rfl⟩
  · right
    simp only [P2pFlowctrl.collectByConn, Flowctrl.complete, setConn_ne hj]
    exact ⟨trivial, trivial⟩

theorem Ordered.setConn (h : Ordered s) {c : FwConn} (hre : c.reQueue = (s.conn i).reQueue)
    (hconn : c.connQueue = (s.conn i).connQueue) : Ordered (s.setConn i c) := by
  refine h.less (fun j => Or.inr ?_) (fun e => List.Sublist.refl _) rfl le_rfl
  by_cases hj : j = i
  · subst hj
    rw [setConn_self]
    exact ⟨hre, hconn⟩
  · rw [setConn_ne hj]
    exact ⟨rfl, rfl⟩

theorem Ordered.setConnId (h : Ordered s) (vif : Vif) (macAddr : Option Mac) (i : ConnId) :
    Ordered (setConnId s vif macAddr i) := by
  unfold P2pFlowctrl.setConnId
  cases macAddr with
  | none => exact h.setConn rfl rfl
  | some mac =>
    have hu : Ordered (if (s.conn i).scheTxQueued ≠ 0 then P2pFlowctrl.collectByConn s i else s) := by
      split
      · exact h.collectByConn i
      · exact h
    dsimp only
    generalize (if (s.conn i).scheTxQueued ≠ 0 then P2pFlowctrl.collectByConn s i else s) = u at hu
    refine Ordered.setConn ?_ rfl rfl
    exact hu.setConn rfl rfl

theorem Ordered.stateUpdate (h : Ordered s) (acMap : List Nat) : Ordered (stateUpdate s acMap) := by
  refine h.less (fun i => Or.inr ?_) (fun e => List.Sublist.refl _) rfl le_rfl
  simp only [P2pFlowctrl.stateUpdate]
  cases acMap[i.val]? <;> exact ⟨rfl, rfl⟩

theorem Ordered.connListCleanupByIf (h : Ordered s) (vif : Nat) :
    Ordered (connListCleanupByIf s vif) := by
  unfold P2pFlowctrl.connListCleanupByIf
  cases findParentConnId s vif with
  | none => exact h
  | some id =>
    refine run_invariant (I := Ordered) (fun u j hu => ?_) h _
    split
    · exact hu
    · exact hu.collectByConn j

/-- No priority packet is put in front of one of its flow, and packets are taken back in
order. -/
def KeepsOrder (s : Flowctrl) : Event → Prop
  | .dataTx vif hSource hDest endpoint tag =>
    ∀ i, getConnId s (connHint vif hSource hDest) = some i → HeadFree s i endpoint tag
  | .stateChange => BacksInOrder s
  | _ => True

instance (s : Flowctrl) : DecidablePred (KeepsOrder s)
  | .dataTx vif hSource hDest endpoint tag =>
    inferInstanceAs (Decidable (∀ i, getConnId s (connHint vif hSource hDest) = some i →
      HeadFree s i endpoint tag))
  | .stateChange => inferInstanceAs (Decidable (BacksInOrder s))
  | .txSchedule => isTrue trivial
  | .stateUpdate _ => isTrue trivial
  | .setConnId _ _ _ => isTrue trivial
  | .connListCleanup => isTrue trivial
  | .connListCleanupByIf _ => isTrue trivial
  | .setSkipFlowctrlEvent _ => isTrue trivial
  | .htcTake _ _ => isTrue trivial

theorem Ordered.step (h : Ordered s) {e : Event} (he : KeepsOrder s e) : Ordered (step s e) := by
  cases e with
  | dataTx vif hSource hDest endpoint tag => exact h.dataTx he
  | txSchedule => exact run_invariant (I := Ordered) (fun _ i hu => hu.txScheduleConn i) h _
  | stateUpdate acMap => exact h.stateUpdate acMap
  | stateChange => exact h.stateChange he
  | setConnId vif macAddr i => exact h.setConnId vif macAddr i
  | connListCleanup => exact run_invariant (I := Ordered) (fun _ i hu => hu.collectByConn i) h _
  | connListCleanupByIf vif => exact h.connListCleanupByIf vif
  | setSkipFlowctrlEvent skip =>
    exact h.less (fun _ => Or.inr ⟨rfl, rfl⟩) (fun _ => List.Sublist.refl _) rfl le_rfl
  | htcTake endpoint k =>
    refine h.less (fun _ => Or.inr ⟨rfl, rfl⟩) (fun e => ?_) rfl le_rfl
    by_cases hf : e = endpoint
    · subst hf
      simp only [P2pFlowctrl.step, Function.update_self]
      exact List.eraseIdx_sublist _ k
    · simp only [P2pFlowctrl.step, Function.update_of_ne hf]
      exact List.Sublist.refl _

theorem ordered_init : Ordered {} := by
  have hw : ∀ i, waiting {} i = [] := fun _ => rfl
  refine ⟨fun i p hp => ?_, fun i p hp => ?_, fun e p hp => ?_, fun i p hp => ?_,
    fun e p hp => ?_, fun p hp => ?_, fun e => List.Pairwise.nil, fun i => List.Pairwise.nil,
    fun e i p hp => ?_, fun i p hp => ?_, fun i p hp => ?_, ?_⟩
  any_goals cases hp
  intro u q v hsplit
  cases u <;> cases hsplit

/-- Order. In every run that keeps to the condition, packets of one connection, endpoint and
tag are sent for the last time in the order of their submission. -/
theorem flowctrl_in_order {es : List Event} (h : AllSteps step KeepsOrder {} es) :
    InOrder (run step {} es).htcTx :=
  (run_invariant_of (I := Ordered) (fun _ _ hs he => hs.step he) ordered_init h).sent

/-- Two frames are sent and taken back, a third is submitted, and all three go out. -/
def recycledRun : List Event :=
  [.setConnId station (some station.devAddr) 0,
   .dataTx station station.devAddr [2, 0, 0, 0, 0, 9] 2 .data,
   .dataTx station station.devAddr [2, 0, 0, 0, 0, 9] 2 .data, .stateUpdate [32], .stateChange,
   .dataTx station station.devAddr [2, 0, 0, 0, 0, 9] 2 .data, .stateUpdate [0], .stateChange,
   .txSchedule]

theorem flowctrl_in_order_recycled :
    InOrder (run step {} recycledRun).htcTx ∧
    (run step {} recycledRun).htcTx.map Packet.serial = [0, 1, 0, 1, 2] :=
  ⟨flowctrl_in_order (by decide +kernel), by decide +kernel⟩

def reversedRun : List Event :=
  [.setConnId station (some station.devAddr) 0, .stateUpdate [32],
   .dataTx station station.devAddr [2, 0, 0, 0, 0, 9] 5 .priData,
   .dataTx station station.devAddr [2, 0, 0, 0, 0, 9] 5 .priData, .stateUpdate [0], .txSchedule]

/-- The second one is sent first, and both for the last time. -/
theorem flowctrl_reverses :
    (run step {} reversedRun).htcTx = [⟨1, some 0, 5, .priData, 0⟩, ⟨0, some 0, 5, .priData, 0⟩] ∧
    ((run step {} reversedRun).conn 0).reQueue = [] ∧
    ((run step {} reversedRun).conn 0).connQueue = [] ∧
    ¬ InOrder (run step {} reversedRun).htcTx := by
  have hlog : (run step {} reversedRun).htcTx =
      [⟨1, some 0, 5, .priData, 0⟩, ⟨0, some 0, 5, .priData, 0⟩] := by decide +kernel
  refine ⟨hlog, by decide +kernel, by decide +kernel, fun hord => ?_⟩
  rw [hlog] at hord
  obtain ⟨r, hr, hrq⟩ := hord [] _ _ rfl ⟨0, some 0, 5, .priData, 0⟩ (by decide) (by decide)
    (by decide)
  rw [List.mem_singleton.mp hr] at hrq
  cases hrq

end Ath6kl.P2pFlowctrl
