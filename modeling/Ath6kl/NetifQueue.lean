import Ath6kl.Htc
import Ath6kl.Lib.Machine
import Mathlib.Data.PNat.Basic
import Mathlib.Logic.Function.Basic

/-! Stopping and waking the queues of the network interfaces (`txrx.c`, `main.c`, `p2p.c`) over the
mailbox HTC (`htc.c`): a queue that is full stops them, and the completion of a packet wakes them. -/
namespace Ath6kl.NetifQueue
open Htc Lib.Machine

/-- An index below `ATH6KL_VIF_MAX`. -/
abbrev VifIdx := Fin 8

inductive NwType
  | infra
  | adhoc
  | ap
deriving DecidableEq

inductive Tag
  | control
  | data
  | priData
deriving DecidableEq

/-- `htc_packet`, as far as its completion looks at it. -/
structure Packet where
  endpoint : Eid
  ifIdx : VifIdx
  tag : Tag
deriving DecidableEq

inductive Status
  | ok
  | ecanceled
  | error
deriving DecidableEq

/-- `struct ath6kl_vif`. `stopped` is the queue's state in the kernel; `woken` is history: the queue
was woken since the interface is connected. -/
structure Vif where
  nwType : NwType
  connected : Bool := false
  netqStopped : Bool := false
  stopped : Bool := true
  woken : Bool := false

/-- The driver with what its target knows of packets: queued in HTC, or on their way in HIF. `mcc` is
`MCC_ENABLED`, `stopping` is `HTC_OP_STATE_STOPPING`. -/
structure Driver where
  vif : VifIdx → Option Vif
  vifMax : Nat
  mcc : Bool := false
  stopping : Bool := false
  txOnVif : VifIdx → Bool := fun _ => false
  wmiCtrlEpFull : Bool := false
  ctrlEp : Eid
  maxTxqDepth : Eid → ℕ+
  txq : Eid → List Packet := fun _ => []
  hif : List Packet := []

def Driver.mapVif (s : Driver) (f : VifIdx → Vif → Vif) : Driver :=
  { s with vif := fun i => (s.vif i).map (f i) }

def Driver.setVif (s : Driver) (i : VifIdx) (f : Vif → Vif) : Driver :=
  s.mapVif fun j v => if j = i then f v else v

inductive SendFullAction
  | keep
  | drop
deriving DecidableEq

/-- What `ath6kl_tx_queue_full` sees of the traffic: a stream of higher priority is active and the
cookies are short, or there is one active stream only. -/
structure Traffic where
  yields : Bool
  oneStream : Bool

/-- `ath6kl_tx_queue_full`, with the mailbox's `stop_netif_queue_full`. -/
def txQueueFull (s : Driver) (p : Packet) (t : Traffic) : Driver × SendFullAction :=
  if p.endpoint = s.ctrlEp then ({ s with wmiCtrlEpFull := true }, .keep)
  else if p.tag = .control ∨ p.tag = .priData then (s, .keep)
  else
    let ongoingTx :=
      ((List.finRange 8).filter fun i : VifIdx => (i:Nat) < s.vifMax ∧ s.txOnVif i).length
    if t.yields = false ∧ 1 < s.vifMax ∧ 1 < ongoingTx then (s, .keep)
    else
      (s.mapVif fun _ v =>
        if (v.nwType = .adhoc ∨ t.yields = false) ∧ (v.nwType = .infra ∨ t.oneStream) then
          { v with netqStopped := true, stopped := true }
        else v,
      if t.yields then .drop else .keep)

/-- `flushing` of `ath6kl_tx_complete`, at its end. -/
def flushing (batch : List (Packet × Status)) (i : VifIdx) : Bool :=
  batch.foldl (fun b x => if x.1.ifIdx = i then
    match x.2 with
    | .ok => false
    | .ecanceled => true
    | .error => b else b) false

def reap (s : Driver) (x : Packet × Status) : Driver :=
  let s := if x.1.endpoint = s.ctrlEp then { s with wmiCtrlEpFull := false } else s
  if (s.vif x.1.ifIdx).isSome then
    { s.setVif x.1.ifIdx (fun v => { v with netqStopped := false }) with
      txOnVif := Function.update s.txOnVif x.1.ifIdx false }
  else s

def p2pFlowctrlReqStep : Nat := 30

/-- `netif_wake_queue`, of a connected interface. -/
def Vif.wakeConnected (v : Vif) : Vif :=
  if v.connected then { v with stopped := false, woken := true } else v

/-- `ath6kl_p2p_flowctrl_netif_transition` to `ATH6KL_P2P_FLOWCTRL_NETIF_WAKE`. -/
def netifTransitionWake (s : Driver) : Driver := s.mapVif fun _ => Vif.wakeConnected

/-- `ath6kl_tx_complete`, apart from the counters. With multi channel concurrency the last packet
decides for all interfaces. -/
def txComplete (s : Driver) (batch : List (Packet × Status)) : Driver :=
  let s := batch.foldl reap s
  if s.mcc then
    match batch.getLast? with
    | none => s
    | some (p, _) =>
      if (s.vif p.ifIdx).isSome ∧ flushing batch p.ifIdx = false ∧
          (s.txq p.endpoint).length < p2pFlowctrlReqStep then netifTransitionWake s
      else s
  else s.mapVif fun i v => if flushing batch i = false then v.wakeConnected else v

def Driver.enqueue (s : Driver) (p : Packet) : Driver :=
  { s with txq := Function.update s.txq p.endpoint (s.txq p.endpoint ++ [p]) }

/-- `ath6kl_htc_tx` with `ath6kl_htc_tx_try`: a dropped packet completes at once. -/
def htcTx (s : Driver) (p : Packet) (t : Traffic) : Driver :=
  if s.maxTxqDepth p.endpoint ≤ (s.txq p.endpoint).length then
    let r := txQueueFull s p t
    if r.2 = .drop then txComplete r.1 [(p, if s.stopping then .ecanceled else .error)]
    else r.1.enqueue p
  else s.enqueue p

/-- What `ath6kl_htc_flush_txep` takes; no tag is `HTC_TX_PACKET_TAG_ALL`. -/
def flushes (tag : Option Tag) (p : Packet) : Bool := tag = none ∨ tag = some p.tag

/-- `ath6kl_htc_flush_txep`: each packet completes by itself. -/
def flushTxep (s : Driver) (eid : Eid) (tag : Option Tag) : Driver :=
  ((s.txq eid).filter (flushes tag)).foldl (fun s p => txComplete s [(p, .ecanceled)])
    { s with txq := Function.update s.txq eid ((s.txq eid).filter fun p => !flushes tag p) }

/-- `ath6kl_flush_data_in_ep_by_if`. -/
def flushDataInEpByIf (s : Driver) (i : VifIdx) : Driver :=
  let eids : List Eid := [2, 3, 4, 5]
  let container := eids.flatMap fun e => (s.txq e).filter fun p => p.ifIdx = i
  txComplete
    { s with txq := fun e => if e∈eids then (s.txq e).filter fun p => p.ifIdx ≠ i else s.txq e }
    (container.map fun p => (p, .ok))

/-- The packets at the places that `f` picks. -/
def picked (ps : List Packet) (f : Nat → Bool) : List Packet :=
  (ps.zipIdx.filter fun x => f x.2).map Prod.fst

/-- `ath6kl_p2p_flowctrl_state_change`: of the data endpoints' packets some go back to the queues of
their connections, and some of these are too old. -/
def flowctrlStateChange (s : Driver) (keeps aged : Eid → Nat → Bool) : Driver :=
  let eids : List Eid := [5, 4, 3, 2]
  let container := eids.flatMap fun e => picked (s.txq e) fun n => !keeps e n && aged e n
  let s := { s with txq := fun e => if e∈eids then picked (s.txq e) (keeps e) else s.txq e }
  txComplete (netifTransitionWake s) (container.map fun p => (p, .ok))

def Vif.wake (v : Vif) : Vif := { v with stopped := false, woken := v.connected }
def Vif.connect (v : Vif) : Vif := { v with connected := true, woken := v.connected && v.woken }

/-- What can happen: a packet is sent, goes on from HTC to HIF, completes with others or is flushed;
interfaces connect and disconnect, open and close. -/
inductive Event
  /-- from `ath6kl_data_tx` or, on the control endpoint, from `ath6kl_control_tx` -/
  | tx (p : Packet) (t : Traffic)
  /-- `ath6kl_p2p_flowctrl_tx_schedule` sends a packet it held -/
  | schedule (p : Packet) (t : Traffic)
  | stateChange (keeps aged : Eid → Nat → Bool)
  /-- packets that the P2P flow control held are given up -/
  | collected (ps : List (Packet × Status))
  | issue (eid : Eid) (n : Nat)
  | complete (skip : Nat) (statuses : List Status)
  /-- a part of `ath6kl_tx_data_cleanup` or of `ath6kl_htc_stop` -/
  | flushTxep (eid : Eid) (tag : Option Tag)
  /-- the flag that `ath6kl_htc_stop` sets first -/
  | htcStopping
  /-- `ath6kl_switch_parameter_based_on_connection` -/
  | setMcc (mcc : Bool)
  /-- `ath6kl_connect_event` -/
  | connectEvent (i : VifIdx)
  /-- `ath6kl_connect_ap_mode_bss`, or a failed association that is taken up again -/
  | setConnected (i : VifIdx)
  /-- `ath6kl_connect_ap_mode_sta` -/
  | connectApModeSta (i : VifIdx)
  /-- `ath6kl_disconnect_event` that ends the connection -/
  | disconnectEvent (i : VifIdx)
  /-- `ath6kl_open` -/
  | ifOpen (i : VifIdx)
  /-- `ath6kl_close` -/
  | ifClose (i : VifIdx)
  | setNwType (i : VifIdx) (t : NwType)

/-- The packets of `hif` that complete together. -/
def batchOf (hif : List Packet) (skip : Nat) (statuses : List Status) : List (Packet × Status) :=
  (hif.drop skip).zip statuses

def step (s : Driver) : Event → Driver
  | .tx p t =>
    htcTx (if p.endpoint = s.ctrlEp then s
      else { s with txOnVif := Function.update s.txOnVif p.ifIdx true }) p t
  | .schedule p t => htcTx s p t
  | .stateChange keeps aged => flowctrlStateChange s keeps aged
  | .collected ps => txComplete s ps
  | .issue eid n =>
    { s with txq := Function.update s.txq eid ((s.txq eid).drop n)
             hif := s.hif ++ (s.txq eid).take n }
  | .complete skip statuses =>
    let batch := batchOf s.hif skip statuses
    if batch = [] then s
    else txComplete { s with hif := s.hif.take skip ++ s.hif.drop (skip+batch.length) } batch
  | .flushTxep eid tag => flushTxep s eid tag
  | .htcStopping => { s with stopping := true }
  | .setMcc mcc => { s with mcc }
  | .connectEvent i => s.setVif i fun v => { v.wake with connected := true, woken := true }
  | .setConnected i => s.setVif i Vif.connect
  | .connectApModeSta i => s.setVif i Vif.wake
  | .disconnectEvent i =>
    if (s.vif i).isNone then s
    else flushDataInEpByIf (s.setVif i fun v => { v with connected := false, stopped := true }) i
  | .ifOpen i => s.setVif i fun v => if v.connected then v.wake else v
  | .ifClose i => s.setVif i fun v => { v with connected := false, stopped := true }
  | .setNwType i t => s.setVif i fun v => { v with nwType := t }

def boot (nwType : VifIdx → Option NwType) (vifMax : Nat) (ctrlEp : Eid) (maxTxqDepth : Eid → ℕ+) :
    Driver :=
  { vif := fun i => (nwType i).map fun t => { nwType := t }, vifMax, ctrlEp, maxTxqDepth }

/-- The queue of a connected interface that was woken is stopped. -/
def Driver.Stopped (s : Driver) (i : VifIdx) : Prop :=
  ∃ v, s.vif i = some v ∧ v.connected = true ∧ v.woken = true ∧ v.stopped = true

/-- A packet is to complete. -/
def Driver.Outstanding (s : Driver) : Prop := s.hif ≠ [] ∨ ∃ e, s.txq e ≠ []

/-- Whatever is stopped will be woken. -/
def Live (s : Driver) : Prop := ∀ i, s.Stopped i → s.Outstanding

/-- The completion of the batch does not wake interface `i`. -/
def PassedBy (s : Driver) (batch : List (Packet × Status)) (i : VifIdx) : Prop :=
  if s.mcc then ∀ x, batch.getLast? = some x → s.vif x.1.ifIdx = none ∨
    flushing batch x.1.ifIdx = true ∨ p2pFlowctrlReqStep ≤ (s.txq x.1.endpoint).length
  else flushing batch i = true

/-- Everything outstanding completes or is cancelled, and wakes not every interface. -/
def Strands (s : Driver) : Event → Prop
  | .flushTxep eid tag => s.hif = [] ∧ (∀ e, e ≠ eid → s.txq e = []) ∧
      ∃ i, s.Stopped i ∧ ∀ p∈s.txq eid, flushes tag p ∧ (s.mcc ∨ p.ifIdx = i)
  | .complete skip statuses => s.hif ≠ [] ∧ skip = 0 ∧ s.hif.length ≤ statuses.length ∧
      (∀ e, s.txq e = []) ∧ ∃ i, s.Stopped i ∧ PassedBy s (s.hif.zip statuses) i
  | _ => False

section Stopped
variable {s : Driver} {i j : VifIdx}

theorem stopped_mapVif {f : VifIdx → Vif → Vif} : (s.mapVif f).Stopped i ↔ ∃ v, s.vif i = some v ∧
    (f i v).connected = true ∧ (f i v).woken = true ∧ (f i v).stopped = true := by
  simp only [Driver.Stopped, Driver.mapVif, Option.map_eq_some_iff]
  constructor
  · rintro ⟨_, ⟨v, hv, rfl⟩, h⟩
    exact ⟨v, hv, h⟩
  · rintro ⟨v, hv, h⟩
    exact ⟨_, ⟨v, hv, rfl⟩, h⟩

theorem stopped_setVif {f : Vif → Vif} (hij : i ≠ j) :
    (s.setVif j f).Stopped i ↔ s.Stopped i := by
  rw [Driver.setVif, stopped_mapVif]
  simp only [if_neg hij, Driver.Stopped]

theorem stopped_setVif_self {f : Vif → Vif} : (s.setVif i f).Stopped i ↔ ∃ v, s.vif i = some v ∧
    (f v).connected = true ∧ (f v).woken = true ∧ (f v).stopped = true := by
  rw [Driver.setVif, stopped_mapVif]
  simp only [if_true]

theorem reap_same (s : Driver) (x : Packet × Status) :
    (reap s x).txq = s.txq ∧ (reap s x).hif = s.hif ∧ (reap s x).mcc = s.mcc ∧
      ∀ i, (reap s x).vif i = none ↔ s.vif i = none := by
  have hset : ∀ (t : Driver) i, ((t.setVif x.1.ifIdx fun v => { v with netqStopped := false }).vif i
      = none ↔ t.vif i = none) := fun t i => Option.map_eq_none_iff
  unfold reap
  dsimp only
  split <;> split
  · exact ⟨rfl, rfl, rfl, hset _⟩
  · exact ⟨rfl, rfl, rfl, fun _ => Iff.rfl⟩
  · exact ⟨rfl, rfl, rfl, hset _⟩
  · exact ⟨rfl, rfl, rfl, fun _ => Iff.rfl⟩

theorem stopped_reap (s : Driver) (x : Packet × Status) :
    (reap s x).Stopped i ↔ s.Stopped i := by
  have hset : ∀ t : Driver, t.vif = s.vif →
      ((t.setVif x.1.ifIdx fun v => { v with netqStopped := false }).Stopped i ↔ s.Stopped i) := by
    intro t ht
    rw [Driver.setVif, stopped_mapVif, Driver.Stopped, ht]
    refine exists_congr fun v => and_congr_right fun _ => ?_
    split <;> exact Iff.rfl
  unfold reap
  dsimp only
  split <;> split
  · exact hset _ rfl
  · exact Iff.rfl
  · exact hset _ rfl
  · exact Iff.rfl

theorem reapAll (s : Driver) (batch : List (Packet × Status)) :
    let t := batch.foldl reap s
    t.txq = s.txq ∧ t.hif = s.hif ∧ t.mcc = s.mcc ∧ (∀ i, t.vif i = none ↔ s.vif i = none) ∧
      (t.Stopped i ↔ s.Stopped i) := by
  induction batch generalizing s with
  | nil => exact ⟨rfl, rfl, rfl, fun _ => Iff.rfl, Iff.rfl⟩
  | cons x batch ih =>
    obtain ⟨hq, hh, hm, hv, hs⟩ := ih (reap s x)
    obtain ⟨hq', hh', hm', hv'⟩ := reap_same s x
    exact ⟨hq.trans hq', hh.trans hh', hm.trans hm', fun i => (hv i).trans (hv' i),
      hs.trans (stopped_reap s x)⟩

theorem txComplete_queues (s : Driver) (batch : List (Packet × Status)) :
    (txComplete s batch).txq = s.txq ∧ (txComplete s batch).hif = s.hif ∧
      (txComplete s batch).mcc = s.mcc := by
  obtain ⟨hq, hh, hm, -⟩ := reapAll (i := 0) s batch
  unfold txComplete
  dsimp only
  split
  · split
    · exact ⟨hq, hh, hm⟩
    · split <;> exact ⟨hq, hh, hm⟩
  · exact ⟨hq, hh, hm⟩

@[simp] theorem txComplete_txq (s : Driver) (batch : List (Packet × Status)) :
    (txComplete s batch).txq = s.txq := (txComplete_queues s batch).1

@[simp] theorem txComplete_hif (s : Driver) (batch : List (Packet × Status)) :
    (txComplete s batch).hif = s.hif := (txComplete_queues s batch).2.1

theorem wakeConnected_runs (v : Vif) : ¬ (v.wakeConnected.connected = true ∧
    v.wakeConnected.woken = true ∧ v.wakeConnected.stopped = true) := by
  unfold Vif.wakeConnected
  split
  · rintro ⟨-, -, ⟨⟩⟩
  · rename_i hn
    exact fun h => hn h.1

theorem stopped_netifTransitionWake : ¬ (netifTransitionWake s).Stopped i := by
  rw [netifTransitionWake, stopped_mapVif]
  rintro ⟨v, -, h⟩
  exact wakeConnected_runs v h

theorem stopped_txComplete {batch : List (Packet × Status)} :
    (txComplete s batch).Stopped i ↔ s.Stopped i ∧ PassedBy s batch i := by
  obtain ⟨hq, -, hm, hv, hs⟩ := reapAll (i := i) s batch
  rw [← hs]
  unfold txComplete PassedBy
  dsimp only
  rw [hm]
  generalize batch.foldl reap s = t at hq hv
  by_cases hmcc : s.mcc
  · rw [if_pos hmcc, if_pos hmcc]
    cases hlast : batch.getLast? with
    | none => simp
    | some x =>
      obtain ⟨p, st⟩ := x
      dsimp only
      rw [hq]
      split
      · rename_i hw
        refine iff_of_false stopped_netifTransitionWake fun h => ?_
        rcases h.2 (p, st) rfl with hn | hf | hd
        · rw [(hv p.ifIdx).mpr hn] at hw
          exact absurd hw.1 (by simp)
        · rw [hw.2.1] at hf
          cases hf
        · exact absurd hw.2.2 (not_lt.mpr hd)
      · rename_i hw
        refine (and_iff_left ?_).symm
        rintro _ ⟨⟩
        by_contra hn
        simp only [not_or, not_le, Bool.not_eq_true] at hn
        refine hw ⟨?_, hn.2⟩
        rw [Option.isSome_iff_ne_none]
        exact fun h => hn.1 ((hv p.ifIdx).mp h)
  · rw [if_neg hmcc, if_neg hmcc, stopped_mapVif, Driver.Stopped]
    constructor
    · rintro ⟨v, hv, h⟩
      split at h
      · exact absurd h (wakeConnected_runs v)
      · rename_i hf
        exact ⟨⟨v, hv, h⟩, by simpa using hf⟩
    · rintro ⟨⟨v, hv, h⟩, hf⟩
      exact ⟨v, hv, by rw [if_neg (by simp [hf])]; exact h⟩

theorem flushing_ok (ps : List Packet) (i : VifIdx) :
    flushing (ps.map fun p => (p, .ok)) i = false := by
  unfold flushing
  induction ps with
  | nil => rfl
  | cons p ps ih =>
    rw [List.map_cons, List.foldl_cons]
    split <;> exact ih

end Stopped

section Live
variable {s : Driver}

theorem Live.setVif (h : Live s) {j : VifIdx} {f : Vif → Vif}
    (hf : ∀ v, (f v).connected = true → (f v).woken = true → (f v).stopped = true →
      v.connected = true ∧ v.woken = true ∧ v.stopped = true) : Live (s.setVif j f) := by
  intro i hi
  by_cases hij : i = j
  · subst hij
    obtain ⟨v, hv, hc, hw, hst⟩ := stopped_setVif_self.mp hi
    exact h i ⟨v, hv, hf v hc hw hst⟩
  · exact h i ((stopped_setVif hij).mp hi)

theorem Live.netifTransitionWake (s : Driver) : Live (netifTransitionWake s) :=
  fun _ hi => absurd hi stopped_netifTransitionWake

theorem Live.txComplete (h : Live s) (batch : List (Packet × Status)) :
    Live (txComplete s batch) := by
  intro i hi
  have hout := h i (stopped_txComplete.mp hi).1
  rwa [Driver.Outstanding, txComplete_hif, txComplete_txq]

@[simp] theorem txQueueFull_txq (s : Driver) (p : Packet) (t : Traffic) :
    (txQueueFull s p t).1.txq = s.txq := by
  unfold txQueueFull
  split
  · rfl
  · split
    · rfl
    · dsimp only
      split <;> rfl

theorem Live.issue (h : Live s) (eid : Eid) (n : Nat) : Live (step s (.issue eid n)) := by
  intro i hi
  rcases h i hi with hh | ⟨e, he⟩
  · refine Or.inl ?_
    simp [step, hh]
  · by_cases hne : e = eid
    · subst hne
      cases n with
      | zero => exact Or.inr ⟨e, by simpa [step] using he⟩
      | succ n =>
        refine Or.inl ?_
        simp [step, he]
    · exact Or.inr ⟨e, by simpa [step, Function.update_of_ne hne] using he⟩

/-- The packets of a disconnected interface complete: that wakes the others, or leaves packets, or
there were none. -/
theorem Live.flushDataInEpByIf (h : Live s) {i : VifIdx} (hv : s.vif i ≠ none) :
    Live (flushDataInEpByIf s i) := by
  intro j hj
  rw [NetifQueue.flushDataInEpByIf, stopped_txComplete] at hj
  obtain ⟨hj, hpass⟩ := hj
  rw [NetifQueue.flushDataInEpByIf, Driver.Outstanding, txComplete_hif, txComplete_txq]
  dsimp only at hpass ⊢
  unfold PassedBy at hpass
  split at hpass
  · rcases List.eq_nil_or_concat ((([2, 3, 4, 5] : List Eid).flatMap fun e =>
        (s.txq e).filter fun p => p.ifIdx = i)) with hnil | ⟨ps, p, hlast⟩
    · rcases h j hj with hh | ⟨e, he⟩
      · exact Or.inl hh
      · refine Or.inr ⟨e, ?_⟩
        split
        · rename_i hmem
          have hnone := List.flatMap_eq_nil_iff.mp hnil e hmem
          rw [List.filter_eq_nil_iff] at hnone
          rw [List.filter_eq_self.mpr fun p hp => by simpa using hnone p hp]
          exact he
        · exact he
    · have hmem := List.mem_append_right ps (List.mem_singleton_self p)
      rw [← List.concat_eq_append, ← hlast, List.mem_flatMap] at hmem
      obtain ⟨e, -, hp⟩ := hmem
      have hpi : p.ifIdx = i := by simpa using (List.mem_filter.mp hp).2
      rw [hlast, List.concat_eq_append, List.map_append] at hpass
      have hdeep := hpass (p, .ok) (by simp)
      rw [← List.map_append, flushing_ok] at hdeep
      rcases hdeep with hn | hf | hd
      · exact absurd (hpi ▸ hn) hv
      · cases hf
      · refine Or.inr ⟨p.endpoint, fun hnil => ?_⟩
        dsimp only at hd hnil
        rw [hnil] at hd
        exact absurd hd (by decide)
  · rw [flushing_ok] at hpass
    cases hpass

end Live

-- a suspend flushes the queue that had stopped the interface: nothing is left to wake it
example : ((run step (boot (fun _ => some .infra) 1 1 fun _ => 1)
    [.connectEvent 0, .tx ⟨2, 0, .data⟩ ⟨false, false⟩, .tx ⟨2, 0, .data⟩ ⟨false, false⟩,
      .flushTxep 2 (some .data)]).vif 0).map (fun v => (v.connected, v.stopped)) = some (true, true) := by
  decide

end Ath6kl.NetifQueue
