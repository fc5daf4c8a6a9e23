import Ath6kl.P2pFlowctrl
import Ath6kl.Lib.Ledger

/-! Accounting of P2P flow control: the counter of each connection, the packets left on a
slot without a connection, and how often a packet is passed on. -/
namespace Ath6kl.P2pFlowctrl
open Htc Lib.Machine Lib.Ledger
variable {s s' s'' : Flowctrl} {i : ConnId} {n : Nat}

@[simp] theorem setConn_self (s : Flowctrl) (i : ConnId) (c : FwConn) :
    (s.setConn i c).conn i = c := by simp [Flowctrl.setConn]

theorem setConn_ne {j : ConnId} (h : j ≠ i) (s : Flowctrl) (c : FwConn) :
    (s.setConn i c).conn j = s.conn j := by simp [Flowctrl.setConn, h]

@[simp] theorem setConn_txq (s : Flowctrl) (i : ConnId) (c : FwConn) :
    (s.setConn i c).txq = s.txq := rfl

@[simp] theorem setConn_htcTx (s : Flowctrl) (i : ConnId) (c : FwConn) :
    (s.setConn i c).htcTx = s.htcTx := rfl

/-- What sending a list of packets does. -/
structure Sent (s s' : Flowctrl) (ps : List Packet) : Prop where
  conn : s'.conn = s.conn
  skip : s'.skipFlowctrlEvent = s.skipFlowctrlEvent
  serial : s'.serial = s.serial
  completed : s'.completed = s.completed
  takenBack : s'.takenBack = s.takenBack
  htcTx : s'.htcTx = s.htcTx ++ ps
  txq : ∀ e, s'.txq e = s.txq e ++ ps.filter fun p => p.endpoint = e

theorem send_sent (s : Flowctrl) (p : Packet) : Sent s (s.send p) [p] := by
  refine ⟨rfl, rfl, rfl, rfl, rfl, rfl, fun e => ?_⟩
  by_cases h : p.endpoint = e
  · subst h
    simp [Flowctrl.send]
  · simp [Flowctrl.send, h, Function.update_of_ne (Ne.symm h)]

theorem sendAll_sent (s : Flowctrl) (ps : List Packet) :
    Sent s (ps.foldl Flowctrl.send s) ps := by
  induction ps generalizing s with
  | nil => exact ⟨rfl, rfl, rfl, rfl, rfl, (List.append_nil _).symm, fun _ => by simp⟩
  | cons p ps ih =>
    have h1 := send_sent s p
    have h2 := ih (s.send p)
    refine ⟨h2.conn.trans h1.conn, h2.skip.trans h1.skip, h2.serial.trans h1.serial,
      h2.completed.trans h1.completed, h2.takenBack.trans h1.takenBack, ?_, fun e => ?_⟩
    · rw [List.foldl_cons, h2.htcTx, h1.htcTx, List.append_assoc, List.singleton_append]
    · rw [List.foldl_cons, h2.txq, h1.txq, List.append_assoc, ← List.filter_append,
        List.singleton_append]

/-! ### Where a packet is -/

/-- How often packet `n` is in a list. -/
def num (n : Nat) (q : List Packet) : ℤ := q.countP fun p => p.serial = n

@[simp] theorem num_nil (n : Nat) : num n [] = 0 := rfl

@[simp] theorem num_append (n : Nat) (q r : List Packet) : num n (q ++ r) = num n q + num n r := by
  simp [num, List.countP_append]

theorem num_cons (n : Nat) (p : Packet) (q : List Packet) :
    num n (p::q) = num n [p] + num n q := num_append n [p] q

theorem num_nonneg (n : Nat) (q : List Packet) : 0 ≤ num n q := Int.natCast_nonneg _

theorem num_sublist {q r : List Packet} (h : List.Sublist q r) : num n q ≤ num n r := by
  have hle := h.countP_le (p := fun p => decide (p.serial = n))
  simp only [num]
  omega

theorem num_recycled (n : Nat) (q : List Packet) : num n (q.map recycled) = num n q := by
  simp only [num, List.countP_map]
  rfl

theorem num_filter (n : Nat) (q : List Packet) (f : Packet → Bool) :
    num n (q.filter f) + num n (q.filter fun p => !f p) = num n q := by
  induction q with
  | nil => rfl
  | cons p q ih =>
    rw [num_cons n p q]
    cases hf : f p with
    | true =>
      rw [List.filter_cons_of_pos hf, List.filter_cons_of_neg (by simp [hf]), num_cons]
      omega
    | false =>
      rw [List.filter_cons_of_neg (by simp [hf]), List.filter_cons_of_pos (by simp [hf]),
        num_cons n p (q.filter fun p => !f p)]
      omega

def FwConn.held (n : Nat) (c : FwConn) : ℤ := num n c.reQueue + num n c.connQueue

/-- How often packet `n` is on a queue of a connection. -/
def queued (s : Flowctrl) (n : Nat) : ℤ := total Finset.univ (FwConn.held n) s.conn

/-- How often packet `n` is on an HTC queue. -/
def inHtc (s : Flowctrl) (n : Nat) : ℤ := total Finset.univ (num n) s.txq

theorem queued_setConn (s : Flowctrl) (i : ConnId) (c : FwConn) (n : Nat) :
    queued (s.setConn i c) n = queued s n + (c.held n - (s.conn i).held n) :=
  total_update (Finset.mem_univ i)

theorem inHtc_send (s : Flowctrl) (p : Packet) (n : Nat) :
    inHtc (s.send p) n = inHtc s n + num n [p] := by
  have h : inHtc (s.send p) n =
      inHtc s n + (num n (s.txq p.endpoint ++ [p]) - num n (s.txq p.endpoint)) :=
    total_update (Finset.mem_univ p.endpoint)
  rw [h, num_append]
  omega

theorem inHtc_sendAll (s : Flowctrl) (ps : List Packet) (n : Nat) :
    inHtc (ps.foldl Flowctrl.send s) n = inHtc s n + num n ps := by
  induction ps generalizing s with
  | nil => simp
  | cons p ps ih =>
    rw [List.foldl_cons, ih, inHtc_send, num_cons n p ps]
    omega

/-- An operation that passes packets on: what it takes off a queue it sends or completes. -/
structure Moves (s s' : Flowctrl) : Prop where
  serial : s'.serial = s.serial
  passed : ∀ n, num n s'.htcTx + num n s'.completed + queued s' n - num n s'.takenBack =
    num n s.htcTx + num n s.completed + queued s n - num n s.takenBack
  place : ∀ n, queued s' n + inHtc s' n ≤ queued s n + inHtc s n

theorem Moves.refl (s : Flowctrl) : Moves s s := ⟨rfl, fun _ => rfl, fun _ => le_rfl⟩

theorem Moves.trans (h : Moves s s') (h' : Moves s' s'') : Moves s s'' :=
  ⟨h'.serial.trans h.serial, fun n => (h'.passed n).trans (h.passed n),
    fun n => (h'.place n).trans (h.place n)⟩

theorem Moves.foldl {α : Type} {f : Flowctrl → α → Flowctrl} (hf : ∀ s a, Moves s (f s a))
    (l : List α) (s : Flowctrl) : Moves s (l.foldl f s) :=
  run_invariant (I := Moves s) (fun u a h => h.trans (hf u a)) (Moves.refl s) l

theorem moves_setConn {c : FwConn} (hre : c.reQueue = (s.conn i).reQueue)
    (hconn : c.connQueue = (s.conn i).connQueue) : Moves s (s.setConn i c) := by
  have hq : ∀ n, queued (s.setConn i c) n = queued s n := by
    intro n
    rw [queued_setConn, FwConn.held, FwConn.held, hre, hconn]
    omega
  refine ⟨rfl, fun n => ?_, fun n => ?_⟩
  · rw [hq]
    rfl
  · rw [hq]
    rfl

theorem collectByConn_moves (s : Flowctrl) (i : ConnId) : Moves s (collectByConn s i) := by
  have hq : ∀ n, queued (collectByConn s i) n = queued s n - (s.conn i).held n := by
    intro n
    have h := queued_setConn s i { s.conn i with
      reQueue := [], connQueue := []
      scheTxQueued := (s.conn i).scheTxQueued -
        ((s.conn i).reQueue ++ (s.conn i).connQueue).length } n
    simp only [FwConn.held, num_nil] at h
    rw [FwConn.held]
    exact h.trans (by omega)
  refine ⟨rfl, fun n => ?_, fun n => ?_⟩
  · have hc : (collectByConn s i).completed =
        s.completed ++ ((s.conn i).reQueue ++ (s.conn i).connQueue) := rfl
    rw [hq, hc, num_append, num_append, FwConn.held]
    have h1 : (collectByConn s i).htcTx = s.htcTx := rfl
    have h2 : (collectByConn s i).takenBack = s.takenBack := rfl
    rw [h1, h2]
    omega
  · have hh : inHtc (collectByConn s i) n = inHtc s n := rfl
    have h1 := num_nonneg n (s.conn i).reQueue
    have h2 := num_nonneg n (s.conn i).connQueue
    rw [hq, hh, FwConn.held]
    omega

theorem txScheduleConn_moves (s : Flowctrl) (i : ConnId) : Moves s (txScheduleConn s i) := by
  unfold txScheduleConn
  dsimp only
  split
  · exact Moves.refl s
  · split
    · have hq := queued_setConn s i { s.conn i with
        reQueue := [], connQueue := []
        scheTxQueued := (s.conn i).scheTxQueued - (s.conn i).reQueue.length -
          (s.conn i).connQueue.length }
      simp only [FwConn.held, num_nil] at hq
      generalize hu : s.setConn i { s.conn i with
        reQueue := [], connQueue := []
        scheTxQueued := (s.conn i).scheTxQueued - (s.conn i).reQueue.length -
          (s.conn i).connQueue.length } = u at hq
      have hsame : u.htcTx = s.htcTx ∧ u.completed = s.completed ∧ u.takenBack = s.takenBack ∧
          u.serial = s.serial ∧ u.txq = s.txq := by
        subst hu
        exact ⟨rfl, rfl, rfl, rfl, rfl⟩
      obtain ⟨h1, h2, h3, h4, h5⟩ := hsame
      have hsent := sendAll_sent u ((s.conn i).reQueue ++ (s.conn i).connQueue)
      have hqs : ∀ n, queued (((s.conn i).reQueue ++ (s.conn i).connQueue).foldl Flowctrl.send u) n
          = queued u n := fun n => by rw [queued, hsent.conn, queued]
      refine ⟨hsent.serial.trans h4, fun n => ?_, fun n => ?_⟩
      · rw [hsent.htcTx, hsent.completed, hsent.takenBack, hqs, hq, h1, h2, h3, num_append,
          num_append]
        omega
      · have hin : inHtc u n = inHtc s n := by rw [inHtc, h5, inHtc]
        rw [inHtc_sendAll, hqs, hq, hin, num_append]
        omega
    · exact Moves.refl s

theorem takeBack_moves (i : ConnId) (s : Flowctrl) (e : Eid) : Moves s (takeBack i s e) := by
  have hsplit : ∀ n, num n ((ofConn s i e).filter agedOut) +
      num n (((ofConn s i e).filter fun p => !agedOut p).map recycled) = num n (ofConn s i e) := by
    intro n
    rw [num_recycled, num_filter]
  have hq : ∀ n, queued (takeBack i s e) n =
      queued s n + num n (((ofConn s i e).filter fun p => !agedOut p).map recycled) := by
    intro n
    have h := queued_setConn s i { s.conn i with
      reQueue := (s.conn i).reQueue ++ ((ofConn s i e).filter fun p => !agedOut p).map recycled
      scheTxQueued := (s.conn i).scheTxQueued +
        (((ofConn s i e).filter fun p => !agedOut p).map recycled).length } n
    simp only [FwConn.held, num_append] at h
    exact h.trans (by omega)
  have hin : ∀ n, inHtc (takeBack i s e) n = inHtc s n - num n (ofConn s i e) := by
    intro n
    have h : inHtc (takeBack i s e) n = inHtc s n +
        (num n ((s.txq e).filter fun p => p.connid ≠ some i) - num n (s.txq e)) :=
      total_update (Finset.mem_univ e)
    have hf := num_filter n (s.txq e) fun p => p.connid = some i
    simp only [← decide_not, ← ne_eq] at hf
    rw [h, ofConn]
    omega
  refine ⟨rfl, fun n => ?_, fun n => ?_⟩
  · have h1 : (takeBack i s e).htcTx = s.htcTx := rfl
    have h2 : (takeBack i s e).completed = s.completed ++ (ofConn s i e).filter agedOut := rfl
    have h3 : (takeBack i s e).takenBack = s.takenBack ++ ofConn s i e := rfl
    have hs := hsplit n
    rw [hq, h1, h2, h3, num_append, num_append]
    omega
  · have hs := hsplit n
    have hnn := num_nonneg n ((ofConn s i e).filter agedOut)
    rw [hq, hin]
    omega

theorem stateChangeConn_moves (s : Flowctrl) (i : ConnId) : Moves s (stateChangeConn s i) := by
  unfold stateChangeConn
  dsimp only
  split
  · exact (Moves.foldl (takeBack_moves i) _ s).trans (moves_setConn rfl rfl)
  · exact moves_setConn rfl rfl

theorem moves_ite {c : Prop} [Decidable c] {a b : Flowctrl} (ha : Moves s a) (hb : Moves s b) :
    Moves s (if c then a else b) := by
  split
  · exact ha
  · exact hb

theorem setConnId_moves (s : Flowctrl) (vif : Vif) (macAddr : Option Mac) (i : ConnId) :
    Moves s (setConnId s vif macAddr i) := by
  unfold setConnId
  cases macAddr with
  | none => exact moves_setConn rfl rfl
  | some mac =>
    have h1 : Moves s (if (s.conn i).scheTxQueued ≠ 0 then collectByConn s i else s) :=
      moves_ite (collectByConn_moves s i) (Moves.refl s)
    dsimp only
    refine Moves.trans (Moves.trans h1 ?_) (moves_setConn rfl rfl)
    exact moves_setConn rfl rfl

theorem connListCleanupByIf_moves (s : Flowctrl) (vif : Nat) :
    Moves s (connListCleanupByIf s vif) := by
  unfold connListCleanupByIf
  cases findParentConnId s vif with
  | none => exact Moves.refl s
  | some id =>
    exact Moves.foldl (fun u i => moves_ite (Moves.refl u) (collectByConn_moves u i)) _ s

theorem stateUpdate_moves (s : Flowctrl) (acMap : List Nat) : Moves s (stateUpdate s acMap) := by
  have hq : ∀ n, queued (stateUpdate s acMap) n = queued s n := by
    intro n
    unfold queued total
    refine Finset.sum_congr rfl fun i _ => ?_
    simp only [stateUpdate, FwConn.held]
    cases acMap[i.val]? <;> rfl
  refine ⟨rfl, fun n => ?_, fun n => ?_⟩
  · rw [hq]
    rfl
  · rw [hq]
    rfl

theorem htcTake_moves (s : Flowctrl) (e : Eid) (k : Nat) :
    Moves s { s with txq := Function.update s.txq e ((s.txq e).eraseIdx k) } := by
  refine ⟨rfl, fun n => rfl, fun n => ?_⟩
  have hle := num_sublist (n := n) (List.eraseIdx_sublist (s.txq e) k)
  have hin : inHtc { s with txq := Function.update s.txq e ((s.txq e).eraseIdx k) } n =
      inHtc s n + (num n ((s.txq e).eraseIdx k) - num n (s.txq e)) :=
    total_update (Finset.mem_univ e)
  have hq : queued { s with txq := Function.update s.txq e ((s.txq e).eraseIdx k) } n =
      queued s n := rfl
  rw [hin, hq]
  omega

/-- The number of a packet that has been submitted. -/
def submitted (s : Flowctrl) (n : Nat) : ℤ := if n < s.serial then 1 else 0

/-- Every packet is passed on once for its submission and once each time it was taken back,
unless it waits, and is never in two places. -/
structure Booked (s : Flowctrl) (n : Nat) : Prop where
  passed : num n s.htcTx + num n s.completed + queued s n - num n s.takenBack = submitted s n
  place : queued s n + inHtc s n ≤ submitted s n

theorem Booked.moves (h : Booked s n) (hm : Moves s s') : Booked s' n := by
  have hsub : submitted s' n = submitted s n := by rw [submitted, hm.serial, submitted]
  refine ⟨?_, ?_⟩
  · rw [hm.passed, hsub]
    exact h.passed
  · rw [hsub]
    exact (hm.place n).trans h.place

theorem enqueue_queued (s : Flowctrl) (i : ConnId) (p : Packet) (n : Nat) :
    queued (enqueue s i p) n = queued s n + num n [p] := by
  unfold enqueue
  dsimp only
  split
  · rw [queued_setConn]
    simp only [FwConn.held, num_append]
    omega
  · rw [queued_setConn]
    simp only [FwConn.held, num_cons n p (s.conn i).reQueue]
    omega

theorem submitted_succ (s : Flowctrl) (p : Packet) (hp : p.serial = s.serial) (n : Nat) :
    submitted { s with serial := s.serial+1 } n = submitted s n + num n [p] := by
  simp only [submitted, num, List.countP_singleton, hp, decide_eq_true_eq]
  split_ifs <;> omega

theorem Booked.enqueue (h : Booked s n) {p : Packet} (hp : p.serial = s.serial) :
    Booked (enqueue { s with serial := s.serial+1 } i p) n := by
  have hq := enqueue_queued { s with serial := s.serial+1 } i p n
  have hq0 : queued { s with serial := s.serial+1 } n = queued s n := rfl
  have hsame : (P2pFlowctrl.enqueue { s with serial := s.serial+1 } i p).htcTx = s.htcTx ∧
      (P2pFlowctrl.enqueue { s with serial := s.serial+1 } i p).completed = s.completed ∧
      (P2pFlowctrl.enqueue { s with serial := s.serial+1 } i p).takenBack = s.takenBack ∧
      (P2pFlowctrl.enqueue { s with serial := s.serial+1 } i p).serial = s.serial+1 ∧
      (P2pFlowctrl.enqueue { s with serial := s.serial+1 } i p).txq = s.txq := by
    unfold P2pFlowctrl.enqueue
    dsimp only
    split <;> exact ⟨rfl, rfl, rfl, rfl, rfl⟩
  obtain ⟨h1, h2, h3, h4, h5⟩ := hsame
  have hsub : submitted (P2pFlowctrl.enqueue { s with serial := s.serial+1 } i p) n =
      submitted s n + num n [p] := by
    rw [← submitted_succ s p hp, submitted, h4, submitted]
  have hin : inHtc (P2pFlowctrl.enqueue { s with serial := s.serial+1 } i p) n = inHtc s n := by
    rw [inHtc, h5, inHtc]
  have hpassed := h.passed
  have hplace := h.place
  refine ⟨?_, ?_⟩
  · rw [h1, h2, h3, hq, hq0, hsub]
    omega
  · rw [hq, hq0, hin, hsub]
    omega

theorem Booked.send (h : Booked s n) {p : Packet} (hp : p.serial = s.serial) :
    Booked (Flowctrl.send { s with serial := s.serial+1 } p) n := by
  have hsub : submitted (Flowctrl.send { s with serial := s.serial+1 } p) n =
      submitted s n + num n [p] := by
    rw [← submitted_succ s p hp]
    rfl
  have hin := inHtc_send { s with serial := s.serial+1 } p n
  have hin0 : inHtc { s with serial := s.serial+1 } n = inHtc s n := rfl
  have hq : queued (Flowctrl.send { s with serial := s.serial+1 } p) n = queued s n := rfl
  have htx : (Flowctrl.send { s with serial := s.serial+1 } p).htcTx = s.htcTx ++ [p] := rfl
  have hc : (Flowctrl.send { s with serial := s.serial+1 } p).completed = s.completed := rfl
  have ht : (Flowctrl.send { s with serial := s.serial+1 } p).takenBack = s.takenBack := rfl
  have hpassed := h.passed
  have hplace := h.place
  refine ⟨?_, ?_⟩
  · rw [htx, hc, ht, hq, hsub, num_append]
    omega
  · rw [hin, hin0, hq, hsub]
    omega

theorem Booked.dataTx (h : Booked s n) (hint : Mac) (endpoint : Eid) (tag : Tag) :
    Booked (dataTx s hint endpoint tag) n := by
  unfold P2pFlowctrl.dataTx txSchedulePkt
  dsimp only
  cases getConnId s hint with
  | none => exact h.send rfl
  | some i =>
    dsimp only
    split
    · exact h.enqueue rfl
    · split
      · exact (h.enqueue rfl).moves (Moves.foldl txScheduleConn_moves _ _)
      · exact h.send rfl

theorem Booked.step (h : Booked s n) (e : Event) : Booked (step s e) n := by
  cases e with
  | dataTx vif hSource hDest endpoint tag => exact h.dataTx _ endpoint tag
  | txSchedule => exact h.moves (Moves.foldl txScheduleConn_moves _ s)
  | stateUpdate acMap => exact h.moves (stateUpdate_moves s acMap)
  | stateChange => exact h.moves (Moves.foldl stateChangeConn_moves _ s)
  | setConnId vif macAddr connId => exact h.moves (setConnId_moves s vif macAddr connId)
  | connListCleanup => exact h.moves (Moves.foldl collectByConn_moves _ s)
  | connListCleanupByIf vif => exact h.moves (connListCleanupByIf_moves s vif)
  | setSkipFlowctrlEvent skip => exact h.moves ⟨rfl, fun _ => rfl, fun _ => le_rfl⟩
  | htcTake endpoint k => exact h.moves (htcTake_moves s endpoint k)

/-! ### The counter and the slots without a connection -/

/-- The counter counts the queues. -/
def FwConn.Counted (c : FwConn) : Prop := c.scheTxQueued = c.reQueue.length + c.connQueue.length

/-- Nothing waits on a slot without a connection. -/
def FwConn.Reachable (c : FwConn) : Prop := c.connId = none → c.reQueue = [] ∧ c.connQueue = []

def Accounted (s : Flowctrl) : Prop := ∀ i, (s.conn i).Counted ∧ (s.conn i).Reachable

/-- `Accounted`, and a connection has the number of its slot. -/
structure FwConn.Good (i : ConnId) (c : FwConn) : Prop where
  counted : c.Counted
  reachable : c.Reachable
  keyed : ∀ k, c.connId = some k → k = i

def Sane (s : Flowctrl) : Prop := ∀ i, (s.conn i).Good i

theorem Sane.accounted (h : Sane s) : Accounted s := fun i => ⟨(h i).counted, (h i).reachable⟩

theorem Sane.setConn (h : Sane s) {c : FwConn} (hc : c.Good i) : Sane (s.setConn i c) := by
  intro j
  by_cases hj : j = i
  · subst hj
    rw [setConn_self]
    exact hc
  · rw [setConn_ne hj]
    exact h j

theorem Sane.of_conn (h : Sane s) (hc : s'.conn = s.conn) : Sane s' := fun i => hc ▸ h i

theorem FwConn.Good.empty {c : FwConn} (hre : c.reQueue = []) (hconn : c.connQueue = [])
    (hn : c.scheTxQueued = 0) (hk : ∀ k, c.connId = some k → k = i) : c.Good i :=
  ⟨by simp [FwConn.Counted, hre, hconn, hn], fun _ => ⟨hre, hconn⟩, hk⟩

theorem Sane.collectByConn (h : Sane s) (i : ConnId) : Sane (collectByConn s i) := by
  have hcount : (s.conn i).scheTxQueued =
      (s.conn i).reQueue.length + (s.conn i).connQueue.length := (h i).counted
  refine Sane.of_conn (h.setConn (i := i) ?_) rfl
  refine FwConn.Good.empty rfl rfl ?_ (h i).keyed
  dsimp only
  rw [hcount, List.length_append]
  omega

theorem Sane.txScheduleConn (h : Sane s) (i : ConnId) : Sane (txScheduleConn s i) := by
  have hcount : (s.conn i).scheTxQueued =
      (s.conn i).reQueue.length + (s.conn i).connQueue.length := (h i).counted
  unfold P2pFlowctrl.txScheduleConn
  dsimp only
  split
  · exact h
  · split
    · refine Sane.of_conn (h.setConn (i := i) ?_) (sendAll_sent _ _).conn
      refine FwConn.Good.empty rfl rfl ?_ (h i).keyed
      dsimp only
      omega
    · exact h

theorem Sane.enqueue (h : Sane s) (hi : (s.conn i).connId ≠ none) (p : Packet) :
    Sane (enqueue s i p) := by
  have hcount : (s.conn i).scheTxQueued =
      (s.conn i).reQueue.length + (s.conn i).connQueue.length := (h i).counted
  unfold P2pFlowctrl.enqueue
  dsimp only
  split
  · refine h.setConn ⟨?_, fun hn => absurd hn hi, (h i).keyed⟩
    simp only [FwConn.Counted, List.length_append, List.length_singleton]
    omega
  · refine h.setConn ⟨?_, fun hn => absurd hn hi, (h i).keyed⟩
    simp only [FwConn.Counted, List.length_cons]
    omega

/-- `ath6kl_p2p_flowctrl_get_conn_id` finds connected slots only. -/
theorem Sane.getConnId (h : Sane s) {hint : Mac} (hi : getConnId s hint = some i) :
    (s.conn i).connId ≠ none := by
  obtain ⟨j, hj, hji⟩ := Option.bind_eq_some_iff.mp hi
  have hk : i = j := (h j).keyed i hji
  rw [hk, hji]
  exact Option.some_ne_none i

theorem Sane.dataTx (h : Sane s) (hint : Mac) (endpoint : Eid) (tag : Tag) :
    Sane (dataTx s hint endpoint tag) := by
  have h' : Sane { s with serial := s.serial+1 } := h
  unfold P2pFlowctrl.dataTx txSchedulePkt
  dsimp only
  cases hc : P2pFlowctrl.getConnId s hint with
  | none => exact h.of_conn rfl
  | some i =>
    have hi := h.getConnId hc
    dsimp only
    split
    · exact h'.enqueue hi _
    · split
      · exact run_invariant (I := Sane) (fun _ j hu => hu.txScheduleConn j) (h'.enqueue hi _) _
      · exact h.of_conn rfl

theorem Sane.stateUpdate (h : Sane s) (acMap : List Nat) : Sane (stateUpdate s acMap) := by
  intro i
  simp only [P2pFlowctrl.stateUpdate]
  cases acMap[i.val]? with
  | none => exact h i
  | some status => exact ⟨(h i).counted, (h i).reachable, (h i).keyed⟩

theorem Sane.connListCleanupByIf (h : Sane s) (vif : Nat) : Sane (connListCleanupByIf s vif) := by
  unfold P2pFlowctrl.connListCleanupByIf
  cases findParentConnId s vif with
  | none => exact h
  | some id =>
    refine run_invariant (I := Sane) (fun u j hu => ?_) h _
    split
    · exact hu
    · exact hu.collectByConn j

/-- The connect form: the queues are collected, or the counter says that they are empty. -/
theorem Sane.setConnId_connect (h : Sane s) (vif : Vif) (mac : Mac) (i : ConnId) :
    Sane (setConnId s vif (some mac) i) := by
  have hcount : (s.conn i).scheTxQueued =
      (s.conn i).reQueue.length + (s.conn i).connQueue.length := (h i).counted
  unfold P2pFlowctrl.setConnId
  dsimp only
  generalize hu : (if (s.conn i).scheTxQueued ≠ 0 then P2pFlowctrl.collectByConn s i else s) = u
  have hempty : Sane u ∧ (u.conn i).reQueue = [] ∧ (u.conn i).connQueue = [] := by
    by_cases hz : (s.conn i).scheTxQueued = 0
    · rw [if_neg (not_not.mpr hz)] at hu
      subst hu
      exact ⟨h, List.length_eq_zero_iff.mp (by omega), List.length_eq_zero_iff.mp (by omega)⟩
    · rw [if_pos hz] at hu
      subst hu
      refine ⟨h.collectByConn i, ?_, ?_⟩
      · simp [P2pFlowctrl.collectByConn, Flowctrl.complete]
      · simp [P2pFlowctrl.collectByConn, Flowctrl.complete]
  obtain ⟨hs, hre, hconn⟩ := hempty
  have hkey : ∀ k, some i = some k → k = i := fun k hk => (Option.some.inj hk).symm
  intro j
  by_cases hj : j = i
  · subst hj
    simp only [setConn_self]
    exact FwConn.Good.empty hre hconn rfl hkey
  · rw [setConn_ne hj, setConn_ne hj]
    exact hs j

/-! ### Packets taken back -/

/-- `ath6kl_p2p_flowctrl_state_change` takes back the packets of connection `i`. -/
def takesBack (s : Flowctrl) (i : ConnId) : Bool :=
  !checkCanSend s (s.conn i) && (s.conn i).previousCanSend

/-- No packet of connection `i` would be taken back to a queue. -/
def NoneFor (s : Flowctrl) (i : ConnId) : Prop :=
  ∀ e∈dataEndpoints, ∀ p∈ofConn s i e, agedOut p = true

/-- What taking back packets of connection `i` leaves alone. -/
structure Kept (i : ConnId) (s s' : Flowctrl) : Prop where
  skip : s'.skipFlowctrlEvent = s.skipFlowctrlEvent
  conn : ∀ j, j ≠ i → s'.conn j = s.conn j
  connId : (s'.conn i).connId = (s.conn i).connId
  status : (s'.conn i).connectStatus = (s.conn i).connectStatus
  connQueue : (s'.conn i).connQueue = (s.conn i).connQueue
  reQueue : (s.conn i).reQueue <+: (s'.conn i).reQueue
  other : ∀ j, j ≠ i → ∀ e, ofConn s' j e = ofConn s j e
  less : ∀ j e, ∀ p∈ofConn s' j e, p∈ofConn s j e

theorem Kept.refl (i : ConnId) (s : Flowctrl) : Kept i s s :=
  ⟨rfl, fun _ _ => rfl, rfl, rfl, rfl, List.prefix_rfl, fun _ _ _ => rfl, fun _ _ _ => id⟩

theorem Kept.trans (h : Kept i s s') (h' : Kept i s' s'') : Kept i s s'' :=
  ⟨h'.skip.trans h.skip, fun j hj => (h'.conn j hj).trans (h.conn j hj),
    h'.connId.trans h.connId, h'.status.trans h.status, h'.connQueue.trans h.connQueue,
    h.reQueue.trans h'.reQueue, fun j hj e => (h'.other j hj e).trans (h.other j hj e),
    fun j e p hp => h.less j e p (h'.less j e p hp)⟩

theorem ofConn_takeBack (s : Flowctrl) (i j : ConnId) (e f : Eid) :
    ofConn (takeBack i s e) j f =
      if f = e then (ofConn s j e).filter fun p => p.connid ≠ some i else ofConn s j f := by
  by_cases hf : f = e
  · subst hf
    simp [ofConn, takeBack, List.filter_filter, Bool.and_comm]
  · simp [ofConn, takeBack, hf]

theorem takeBack_kept (i : ConnId) (s : Flowctrl) (e : Eid) : Kept i s (takeBack i s e) := by
  refine ⟨rfl, fun j hj => setConn_ne hj s _, ?_, ?_, ?_, ?_, fun j hj f => ?_, fun j f p hp => ?_⟩
  · simp [takeBack]
  · simp [takeBack]
  · simp [takeBack]
  · simp [takeBack]
  · rw [ofConn_takeBack]
    by_cases hf : f = e
    · rw [if_pos hf, hf, List.filter_eq_self]
      intro p hp
      have hc : p.connid = some j := by simpa [ofConn] using (List.mem_filter.mp hp).2
      simp [hc, hj]
    · rw [if_neg hf]
  · rw [ofConn_takeBack] at hp
    by_cases hf : f = e
    · rw [if_pos hf] at hp
      exact hf ▸ List.mem_of_mem_filter hp
    · rwa [if_neg hf] at hp

theorem takeBackAll_kept (i : ConnId) (es : List Eid) (s : Flowctrl) :
    Kept i s (es.foldl (takeBack i) s) :=
  run_invariant (I := Kept i s) (fun u e h => h.trans (takeBack_kept i u e)) (Kept.refl i s) es

theorem Kept.noneFor (h : Kept i s s') {j : ConnId} (hn : NoneFor s j) : NoneFor s' j :=
  fun e he p hp => hn e he p (h.less j e p hp)

theorem Kept.checkCanSend (h : Kept i s s') :
    checkCanSend s' (s'.conn i) = checkCanSend s (s.conn i) := by
  simp only [P2pFlowctrl.checkCanSend, FwConn.ocs, h.skip, h.status]

theorem Sane.takeBack (h : Sane s) (e : Eid)
    (hn : (s.conn i).connId = none → ∀ p∈ofConn s i e, agedOut p = true) :
    Sane (takeBack i s e) := by
  have hcount : (s.conn i).scheTxQueued =
      (s.conn i).reQueue.length + (s.conn i).connQueue.length := (h i).counted
  refine Sane.of_conn (h.setConn (i := i) ?_) rfl
  refine ⟨?_, fun hnone => ?_, (h i).keyed⟩
  · simp only [FwConn.Counted, List.length_append]
    omega
  · have hnil : (ofConn s i e).filter (fun p => !agedOut p) = [] := by
      rw [List.filter_eq_nil_iff]
      intro p hp
      simp [hn hnone p hp]
    obtain ⟨hre, hconn⟩ := (h i).reachable hnone
    dsimp only
    rw [hnil, hre]
    exact ⟨rfl, hconn⟩

theorem Sane.takeBackAll (h : Sane s) (es : List Eid) (hes : ∀ e∈es, e∈dataEndpoints)
    (hn : (s.conn i).connId = none → NoneFor s i) : Sane (es.foldl (P2pFlowctrl.takeBack i) s) := by
  induction es generalizing s with
  | nil => exact h
  | cons e es ih =>
    have hk := takeBack_kept i s e
    rw [List.foldl_cons]
    refine ih (h.takeBack e fun hnone => hn hnone e (hes e (by simp)))
      (fun f hf => hes f (by simp [hf])) fun hnone => hk.noneFor (hn ?_)
    rw [← hk.connId]
    exact hnone

/-- The last assignment of a turn of `ath6kl_p2p_flowctrl_state_change`. -/
def allowed (i : ConnId) (b : Bool) (s : Flowctrl) : Flowctrl :=
  s.setConn i { s.conn i with previousCanSend := b }

theorem stateChangeConn_eq (s : Flowctrl) (i : ConnId) :
    stateChangeConn s i = allowed i (checkCanSend s (s.conn i))
      (if takesBack s i then dataEndpoints.foldl (takeBack i) s else s) := rfl

theorem allowed_kept (i : ConnId) (b : Bool) (s : Flowctrl) : Kept i s (allowed i b s) := by
  refine ⟨rfl, fun j hj => setConn_ne hj s _, ?_, ?_, ?_, ?_, fun _ _ _ => rfl, fun _ _ _ => id⟩
  · simp [allowed]
  · simp [allowed]
  · simp [allowed]
  · simp [allowed]

theorem stateChangeConn_kept (s : Flowctrl) (i : ConnId) : Kept i s (stateChangeConn s i) := by
  rw [stateChangeConn_eq]
  refine Kept.trans ?_ (allowed_kept i _ _)
  split
  · exact takeBackAll_kept i dataEndpoints s
  · exact Kept.refl i s

theorem takesBack_turn (s : Flowctrl) (i : ConnId) : takesBack (stateChangeConn s i) i = false := by
  have hk := stateChangeConn_kept s i
  have hp : ((stateChangeConn s i).conn i).previousCanSend = checkCanSend s (s.conn i) := by
    rw [stateChangeConn_eq, allowed, setConn_self]
  rw [takesBack, hk.checkCanSend, hp]
  cases checkCanSend s (s.conn i) <;> rfl

theorem takesBack_other (s : Flowctrl) {i j : ConnId} (hj : j ≠ i) :
    takesBack (stateChangeConn s i) j = takesBack s j := by
  have hk := stateChangeConn_kept s i
  rw [takesBack, takesBack, checkCanSend, checkCanSend, hk.skip, hk.conn j hj]

/-- Nothing would be taken back to a slot without a connection. -/
def Clear (s : Flowctrl) : Prop :=
  ∀ i, (s.conn i).connId = none → takesBack s i = true → NoneFor s i

theorem Clear.turn (h : Clear s) (i : ConnId) : Clear (stateChangeConn s i) := by
  have hk := stateChangeConn_kept s i
  intro j hnone ht
  by_cases hj : j = i
  · subst hj
    rw [takesBack_turn] at ht
    cases ht
  · rw [hk.conn j hj] at hnone
    rw [takesBack_other s hj] at ht
    exact hk.noneFor (h j hnone ht)

theorem Sane.stateChangeConn (h : Sane s) (hc : Clear s) (i : ConnId) :
    Sane (stateChangeConn s i) := by
  rw [stateChangeConn_eq]
  have hu : Sane (if takesBack s i then dataEndpoints.foldl (P2pFlowctrl.takeBack i) s else s) := by
    split
    · next ht => exact h.takeBackAll _ (fun _ => id) fun hnone => hc i hnone ht
    · exact h
  exact hu.setConn ⟨(hu i).counted, (hu i).reachable, (hu i).keyed⟩

theorem Sane.stateChange (h : Sane s) (hc : Clear s) : Sane (stateChange s) :=
  (run_invariant (I := fun u => Sane u ∧ Clear u)
    (fun _ i hu => ⟨hu.1.stateChangeConn hu.2 i, hu.2.turn i⟩) ⟨h, hc⟩ (List.finRange numConn)).1

/-- Packets wait on a slot without a connection. -/
def Stranded (s : Flowctrl) (i : ConnId) : Prop :=
  (s.conn i).connId = none ∧ (s.conn i).reQueue ≠ []

theorem Stranded.turn {j : ConnId} (h : Stranded s j) (i : ConnId) :
    Stranded (stateChangeConn s i) j := by
  have hk := stateChangeConn_kept s i
  by_cases hj : j = i
  · subst hj
    refine ⟨hk.connId.trans h.1, fun hnil => h.2 ?_⟩
    exact List.prefix_nil.mp (hnil ▸ hk.reQueue)
  · exact ⟨(hk.conn j hj).symm ▸ h.1, (hk.conn j hj).symm ▸ h.2⟩

theorem takeBackAll_ne {es : List Eid} {e : Eid} {p : Packet} (he : e∈es) (hp : p∈ofConn s i e)
    (ha : agedOut p = false) : ((es.foldl (takeBack i) s).conn i).reQueue ≠ [] := by
  induction es generalizing s with
  | nil => cases he
  | cons f es ih =>
    rw [List.foldl_cons]
    by_cases hf : e = f
    · subst hf
      have hmem : recycled p∈((takeBack i s e).conn i).reQueue := by
        simp only [takeBack, setConn_self]
        refine List.mem_append_right _ (List.mem_map_of_mem (List.mem_filter.mpr ⟨hp, ?_⟩))
        simp [ha]
      have hpre := (takeBackAll_kept i es (takeBack i s e)).reQueue
      exact List.ne_nil_of_mem (hpre.subset hmem)
    · have hes : e∈es := by
        cases List.mem_cons.mp he with
        | inl h => exact absurd h hf
        | inr h => exact h
      refine ih hes ?_
      rw [ofConn_takeBack, if_neg hf]
      exact hp

theorem stranded_of_not_clear {l : List ConnId} (hi : i∈l) (hnone : (s.conn i).connId = none)
    (ht : takesBack s i = true) (hn : ¬ NoneFor s i) : Stranded (l.foldl stateChangeConn s) i := by
  induction l generalizing s with
  | nil => cases hi
  | cons j l ih =>
    rw [List.foldl_cons]
    by_cases hj : i = j
    · subst hj
      have hst : Stranded (stateChangeConn s i) i := by
        refine ⟨(stateChangeConn_kept s i).connId.trans hnone, ?_⟩
        simp only [NoneFor, Classical.not_forall] at hn
        obtain ⟨e, he, p, hp, ha⟩ := hn
        rw [stateChangeConn_eq, if_pos ht, allowed, setConn_self]
        exact takeBackAll_ne he hp (Bool.not_eq_true _ ▸ ha)
      exact run_invariant (I := fun u => Stranded u i) (fun _ k hu => hu.turn k) hst l
    · have hl : i∈l := by
        cases List.mem_cons.mp hi with
        | inl h => exact absurd h hj
        | inr h => exact h
      have hk := stateChangeConn_kept s j
      refine ih hl ?_ ?_ ?_
      · rw [hk.conn i hj]
        exact hnone
      · rw [takesBack_other s hj]
        exact ht
      · intro hnone'
        refine hn fun e he p hp => hnone' e he p ?_
        rw [hk.other i hj]
        exact hp

/-! ### Whole runs -/

/-- The disconnect form finds the queues of the slot empty, and leaving the channel takes no
packets back to a slot without a connection. -/
def Orderly (s : Flowctrl) : Event → Prop
  | .setConnId _ none i => (s.conn i).reQueue = [] ∧ (s.conn i).connQueue = []
  | .stateChange => Clear s
  | _ => True

theorem Sane.step (h : Sane s) {e : Event} (he : Orderly s e) : Sane (step s e) := by
  cases e with
  | dataTx vif hSource hDest endpoint tag => exact h.dataTx _ endpoint tag
  | txSchedule => exact run_invariant (I := Sane) (fun _ i hu => hu.txScheduleConn i) h _
  | stateUpdate acMap => exact h.stateUpdate acMap
  | stateChange => exact h.stateChange he
  | setConnId vif macAddr i =>
    cases macAddr with
    | some mac => exact h.setConnId_connect vif mac i
    | none => exact h.setConn (FwConn.Good.empty he.1 he.2 rfl (by rintro _ ⟨⟩))
  | connListCleanup => exact run_invariant (I := Sane) (fun _ i hu => hu.collectByConn i) h _
  | connListCleanupByIf vif => exact h.connListCleanupByIf vif
  | setSkipFlowctrlEvent skip => exact h
  | htcTake endpoint k => exact h

theorem orderly_of_accounted {e : Event} (h : Accounted (step s e)) : Orderly s e := by
  cases e with
  | stateChange =>
    intro i hnone ht
    by_contra hn
    have hst : Stranded (stateChange s) i :=
      stranded_of_not_clear (List.mem_finRange i) hnone ht hn
    exact hst.2 ((h i).2 hst.1).1
  | setConnId vif macAddr i =>
    cases macAddr with
    | some mac => trivial
    | none =>
      have hi := (h i).2
      simp only [step, setConnId, setConn_self, FwConn.Reachable] at hi
      exact hi trivial
  | _ => trivial

theorem sane_init : Sane {} := fun _ => ⟨rfl, fun _ => ⟨rfl, rfl⟩, by rintro _ ⟨⟩⟩

theorem booked_init (n : Nat) : Booked {} n := by
  have hq : queued {} n = 0 := total_eq_zero fun _ _ => rfl
  have hi : inHtc {} n = 0 := total_eq_zero fun _ _ => rfl
  have hs : submitted {} n = 0 := rfl
  refine ⟨?_, ?_⟩
  · rw [hq, hs]
    rfl
  · rw [hq, hi, hs]
    rfl

def FwConn.Drained (c : FwConn) : Prop := c.reQueue = [] ∧ c.connQueue = []

theorem txScheduleConn_other (s : Flowctrl) {i j : ConnId} (hj : j ≠ i) :
    (txScheduleConn s i).conn j = s.conn j := by
  unfold txScheduleConn
  dsimp only
  split
  · rfl
  · split
    · rw [(sendAll_sent _ _).conn, setConn_ne hj]
    · rfl

theorem txScheduleConn_skip (s : Flowctrl) (i : ConnId) :
    (txScheduleConn s i).skipFlowctrlEvent = s.skipFlowctrlEvent := by
  unfold txScheduleConn
  dsimp only
  split
  · rfl
  · split
    · exact (sendAll_sent _ _).skip
    · rfl

theorem txScheduleConn_drained (hi : (s.conn i).connId ≠ none)
    (hc : checkCanSend s (s.conn i) = true) : ((txScheduleConn s i).conn i).Drained := by
  unfold txScheduleConn
  dsimp only
  rw [if_neg hi, if_pos hc, (sendAll_sent _ _).conn, setConn_self]
  exact ⟨rfl, rfl⟩

theorem Drained.turn {j : ConnId} (h : (s.conn j).Drained) (i : ConnId) :
    ((txScheduleConn s i).conn j).Drained := by
  by_cases hj : j = i
  · subst hj
    unfold txScheduleConn
    dsimp only
    split
    · exact h
    · split
      · rw [(sendAll_sent _ _).conn, setConn_self]
        exact ⟨rfl, rfl⟩
      · exact h
  · rw [txScheduleConn_other s hj]
    exact h

theorem txSchedule_drained {l : List ConnId} (hl : i∈l) (hi : (s.conn i).connId ≠ none)
    (hc : checkCanSend s (s.conn i) = true) : ((l.foldl txScheduleConn s).conn i).Drained := by
  induction l generalizing s with
  | nil => cases hl
  | cons j l ih =>
    rw [List.foldl_cons]
    by_cases hj : i = j
    · subst hj
      exact run_invariant (I := fun u : Flowctrl => (u.conn i).Drained) (fun _ k hu => Drained.turn hu k)
        (txScheduleConn_drained hi hc) l
    · have hl' : i∈l := by
        cases List.mem_cons.mp hl with
        | inl h => exact absurd h hj
        | inr h => exact h
      have hsame := txScheduleConn_other s hj
      refine ih hl' ?_ ?_
      · rw [hsame]
        exact hi
      · rw [checkCanSend, txScheduleConn_skip, hsame]
        exact hc

/-- Accounting. The counters are right and nothing is out of reach through a whole run exactly
if its steps are orderly. In any run a packet is passed on once for its submission and once
each time it was taken back, less the once it waits, and is never in two places; and what
waits on a connected slot that may send goes out with the next schedule. -/
theorem flowctrl_accounted (es : List Event) :
    ((∀ u, u <+: es → Accounted (run step {} u)) ↔ AllSteps step Orderly {} es) ∧
    (∀ n, n < (run step {} es).serial →
      num n (run step {} es).htcTx + num n (run step {} es).completed +
        queued (run step {} es) n = 1 + num n (run step {} es).takenBack ∧
      queued (run step {} es) n + inHtc (run step {} es) n ≤ 1) ∧
    ∀ i, ((run step {} es).conn i).connId ≠ none →
      checkCanSend (run step {} es) ((run step {} es).conn i) = true →
      ((txSchedule (run step {} es)).conn i).Drained := by
  refine ⟨?_, fun n hn => ?_, fun i hi hc => txSchedule_drained (List.mem_finRange i) hi hc⟩
  · exact prefix_iff_allSteps (I := Sane) (P := Accounted) (fun _ h => h.accounted)
      (fun _ _ h he => h.step he) (fun _ _ _ h => orderly_of_accounted h) sane_init es
  · have hb : Booked (run step {} es) n :=
      run_invariant (I := fun u => Booked u n) (fun _ e h => h.step e) (booked_init n) es
    have hsub : submitted (run step {} es) n = 1 := if_pos hn
    have hp := hb.passed
    have hq := hb.place
    rw [hsub] at hp hq
    exact ⟨by omega, hq⟩

def station : Vif := ⟨0, false, [2, 0, 0, 0, 0, 1]⟩

/-- A frame is queued off-channel and its connection removed. -/
def strandedQueue : List Event :=
  [.setConnId station (some station.devAddr) 0, .stateUpdate [32],
   .dataTx station station.devAddr [2, 0, 0, 0, 0, 9] 2 .data, .setConnId station none 0]

/-- A frame waits in HTC, its connection is removed, and then the channel is left. -/
def strandedRecall : List Event :=
  [.setConnId station (some station.devAddr) 0,
   .dataTx station station.devAddr [2, 0, 0, 0, 0, 9] 2 .data, .setConnId station none 0,
   .stateUpdate [32], .stateChange]

/-- Neither a schedule nor the cleanup of the interface reaches the frame. -/
theorem flowctrl_strands :
    (((run step {} (strandedQueue ++ [.txSchedule, .connListCleanupByIf 0])).conn 0).connId = none ∧
      ((run step {} (strandedQueue ++ [.txSchedule, .connListCleanupByIf 0])).conn 0).connQueue =
        [⟨0, some 0, 2, .data, 0⟩] ∧
      ((run step {} (strandedQueue ++ [.txSchedule, .connListCleanupByIf 0])).conn 0).scheTxQueued
        = 0) ∧
    ((run step {} strandedRecall).conn 0).connId = none ∧
    ((run step {} strandedRecall).conn 0).reQueue = [⟨0, some 0, 2, .data, 1⟩] := by
  decide +kernel

end Ath6kl.P2pFlowctrl
