import Ath6kl.HtcTrailer
import Mathlib.Data.List.Perm.Basic
import Mathlib.Logic.Function.Basic

/-! How the mailbox receive path (htc.c) gets packets, fetches what the target holds for them and
passes them on: `ath6kl_htc_rx_alloc` with `ath6kl_htc_rx_setup`, `ath6kl_htc_rx_fetch` with
`ath6kl_htc_rx_bundle`, and `ath6kl_htc_rx_process_packets`. What the buffer supply, the bus and
the target do comes with the round of the caller's loop. Statistics, flow control of the receiver
and debug output are left out. -/
namespace Ath6kl.HtcRxFetch
open scoped List
open Htc HtcTrailer

/-- `-ENOSPC`, `-ECANCELED`. -/
def enospc : Int := -28
def ecanceled : Int := -125

/-- `ATH6KL_BUFFER_SIZE`; `ATH6KL_AMSDU_BUFFER_SIZE`; `HTC_MAX_PAYLOAD_LENGTH`. -/
def bufferSize : Nat := 1664
def amsduBufferSize : Nat := 3840 + 6 + 14 + 8 + 128
def htcMaxPayloadLength : Nat := 4096 - htcHdrLength

/-- `HTC_FLG_RX_BNDL_CNT`, `HTC_FLG_RX_BNDL_CNT_S`. -/
def htcFlgRxBndlCnt : Nat := 0xF0
def htcFlgRxBndlCntS : Nat := 4

/-- The bytes of a look-ahead: `eid`, `flags` and the two of `payld_len`. -/
abbrev LkAhd := UInt8 × UInt8 × UInt8 × UInt8

def LkAhd.eid (h : LkAhd) : Nat := h.1.toNat
def LkAhd.flags (h : LkAhd) : Nat := h.2.1.toNat
def LkAhd.payldLen (h : LkAhd) : Nat := Lib.LittleEndian.value [h.2.2.1, h.2.2.2]

def LkAhd.ofBytes (l : List UInt8) : LkAhd :=
  (l.getD 0 0, l.getD 1 0, l.getD 2 0, l.getD 3 0)

/-- `struct htc_target`. An endpoint whose `rx_allocthresh` is set has an `rx_alloc_thresh`. -/
structure Target where
  blockMask : Nat
  msgPerBndlMax : Nat
  maxRxBndlSz : Nat
  rxBndlEnable : Bool
  ctrlEp : Nat
  svcId : Nat → Nat
  rxAllocThresh : Nat → Option Nat

def calcTxrxPaddedLen (t : Target) (len : Nat) : Nat :=
  (len + t.blockMask) - ((len + t.blockMask) &&& t.blockMask)

/-- `struct htc_packet`; `id` counts the packets as they are handed out. -/
structure HtcPacket where
  id : Nat
  rx : RxPacket
  noRecycle : Bool

/-- A packet handed out, and its endpoint. -/
abbrev Key := Nat × Nat

def HtcPacket.key (p : HtcPacket) : Key := (p.id, p.rx.endpoint)

def keys (q : List HtcPacket) : List Key := q.map HtcPacket.key

/-- Where a packet ends: with the `rx` callback of its endpoint, in the `rx_bufq` of its
endpoint, or with the callback again but as `-ECANCELED`. The last two are its reclaiming. -/
inductive Fate
  | delivered
  | recycled
  | cancelled
deriving DecidableEq

/-- The packets handed out so far and those that have ended. -/
structure Books where
  allocated : List Key := []
  ends : List (Key × Fate) := []

def Books.take (b : Books) (p : HtcPacket) : Books :=
  { b with allocated := b.allocated ++ [p.key] }

/-- One turn of the loop of `ath6kl_htc_rx_fetch`: whether a scatter request is free, and how
the bundle and the single read end. -/
structure Turn where
  scatReq : Bool
  scatStatus : Int
  readStatus : Int

/-- One turn of the loop of the handler. -/
structure Round where
  /-- The `buf_len` of the packet that the request made with so many packets queued yields: from
  `rx_allocthresh`, or the head of `rx_bufq`, which other contexts fill and empty. -/
  supply : Nat → Option Nat
  /-- Whether `HTC_OP_STATE_STOPPING` is set once so many packets are queued. -/
  stopping : Nat → Bool
  /-- Whether it is set when the packet is reclaimed. -/
  stopped : HtcPacket → Bool
  turns : Nat → Turn
  /-- What a packet holds once it has been fetched. -/
  contents : HtcPacket → Memory

/-- `ath6kl_htc_rx_complete`. -/
def Books.complete (b : Books) (p : HtcPacket) : Books :=
  { b with ends := b.ends ++ [(p.key, .delivered)] }

/-- `htc_reclaim_rxbuf`, with `ath6kl_htc_mbox_add_rxbuf_multiple`, which returns at once on an
endpoint out of range. -/
def Books.reclaim (r : Round) (b : Books) (p : HtcPacket) : Books :=
  if p.noRecycle then { b with ends := b.ends ++ [(p.key, .cancelled)] }
  else if p.rx.endpoint ≥ endpointMax then b
  else if r.stopped p then { b with ends := b.ends ++ [(p.key, .cancelled)] }
  else { b with ends := b.ends ++ [(p.key, .recycled)] }

/-- A walk over a list that reclaims what is in it. -/
def Books.reclaimAll (r : Round) (b : Books) (q : List HtcPacket) : Books :=
  q.foldl (Books.reclaim r) b

/-- What `ath6kl_htc_rx_setup` and `ath6kl_htc_rx_alloc` have queued, and the status. -/
structure Alloc where
  books : Books
  queue : List HtcPacket := []
  status : Int := 0

def htcValidRxFrameLen (t : Target) (eid len : Nat) : Bool :=
  if eid = t.ctrlEp then len ≤ bufferSize else len ≤ amsduBufferSize

/-- The `full_len` of `ath6kl_htc_rx_setup`. -/
def fullLen (t : Target) (h : LkAhd) : Nat := calcTxrxPaddedLen t (h.payldLen + htcHdrLength)

/-- The `j`-th packet for a header. Only the first one is known to have that header. -/
def setupPacket (t : Target) (eid : Nat) (h : LkAhd) (j id bufLen : Nat) : HtcPacket where
  id := id
  rx :=
    { endpoint := eid, bufLen := bufLen, actLen := h.payldLen + htcHdrLength
      expHdr := if j = 0 then h else (0xFF, 0xFF, 0xFF, 0xFF)
      refreshHdr := decide (j ≠ 0)
      sized := by
        intro hj
        rw [if_pos (by simpa using hj)]
        rfl }
  noRecycle := (t.rxAllocThresh eid).any fun thresh => decide (fullLen t h > thresh)

/-- The loop of `ath6kl_htc_rx_setup` from packet `j` on, with `n` to go. A packet that is queued
while HTC is stopping is reclaimed before anything looks at its header. -/
def setupLoop (t : Target) (r : Round) (eid : Nat) (h : LkAhd) : Nat → Nat → Alloc → Alloc
  | 0, _, a => a
  | n+1, j, a =>
    match r.supply a.queue.length with
    | none => { a with status := enospc }
    | some bufLen =>
      let p := setupPacket t eid h j a.books.allocated.length bufLen
      let queue := a.queue ++ [p]
      if r.stopping queue.length then ⟨a.books.take p, queue, ecanceled⟩
      else setupLoop t r eid h n (j+1) ⟨a.books.take p, queue, 0⟩

/-- `ath6kl_htc_rx_setup`. -/
def rxSetup (t : Target) (r : Round) (eid : Nat) (h : LkAhd) (nMsg : Nat) (a : Alloc) : Alloc :=
  if htcValidRxFrameLen t eid (fullLen t h) then setupLoop t r eid h nMsg 0 { a with status := 0 }
  else { a with status := einval }

def nMsg (h : LkAhd) : Nat :=
  if h.flags &&& htcFlgRxBndlCnt ≠ 0 then (h.flags &&& htcFlgRxBndlCnt) >>> htcFlgRxBndlCntS + 1
  else 1

/-- The loop of `ath6kl_htc_rx_alloc` from look-ahead `i` on, with `n` to go. -/
def allocLoop (t : Target) (r : Round) (eid : Nat) (lkAhds : Nat → LkAhd) :
    Nat → Nat → Alloc → Alloc
  | 0, _, a => a
  | n+1, i, a =>
    let h := lkAhds i
    if h.eid ≥ endpointMax then { a with status := enomem }
    else if h.eid ≠ eid then { a with status := enomem }
    else if h.payldLen > htcMaxPayloadLength then { a with status := enomem }
    else if t.svcId eid = 0 then { a with status := enomem }
    else if h.flags &&& htcFlgRxBndlCnt ≠ 0 ∧ nMsg h > t.msgPerBndlMax then
      { a with status := enomem }
    else
      let a := rxSetup t r eid h (nMsg h) a
      if a.status ≠ 0 then a else allocLoop t r eid lkAhds n (i+1) a

/-- `ath6kl_htc_rx_alloc`: without buffers for all, those there are serve for a part. -/
def rxAlloc (t : Target) (r : Round) (eid : Nat) (lkAhds : Nat → LkAhd) (msg : Nat) (b : Books) :
    Alloc :=
  let a := allocLoop t r eid lkAhds msg 0 { books := b }
  if a.status = enospc then { a with status := 0 }
  else if a.status ≠ 0 then ⟨a.books.reclaimAll r a.queue, [], a.status⟩
  else a

/-- `HTC_RX_PKT_IGNORE_LOOKAHEAD`. -/
def HtcPacket.ignoreLookahead (p : HtcPacket) : HtcPacket :=
  { p with rx := { p.rx with ignoreLookahead := true } }

/-- What `ath6kl_htc_rx_bundle` leaves. -/
structure Bundle where
  rxq : List HtcPacket
  syncCompq : List HtcPacket := []
  nPktFetched : Nat := 0
  status : Int := 0

/-- The loop of `ath6kl_htc_rx_bundle` from entry `i` on, with `n` to go: the packets that stay
and those taken. Behind the last entry of a whole bundle, none is to be ignored. -/
def bundleLoop (t : Target) (partBundle : Bool) (nScatPkt : Nat) :
    Nat → Nat → Nat → List HtcPacket → List HtcPacket × List HtcPacket
  | 0, _, _, rxq => (rxq, [])
  | _+1, _, _, [] => ([], [])
  | n+1, i, remSpace, p::rxq =>
    let padLen := calcTxrxPaddedLen t p.rx.actLen
    if remSpace < padLen then (p::rxq, [])
    else
      let p := if partBundle || decide (i < nScatPkt-1) then p.ignoreLookahead else p
      let rest := bundleLoop t partBundle nScatPkt n (i+1) (remSpace-padLen) rxq
      (rest.1, p::rest.2)

/-- `ath6kl_htc_rx_bundle`. -/
def rxBundle (t : Target) (turn : Turn) (partBundle : Bool) (rxq : List HtcPacket) : Bundle :=
  let nScatPkt := min rxq.length t.msgPerBndlMax
  let partBundle := partBundle || decide (rxq.length - nScatPkt > 0)
  if turn.scatReq then
    let q := bundleLoop t partBundle nScatPkt nScatPkt 0 t.maxRxBndlSz rxq
    { rxq := q.1, syncCompq := q.2
      nPktFetched := if turn.scatStatus = 0 then q.2.length else 0
      status := turn.scatStatus }
  else { rxq := rxq }

/-- `ath6kl_htc_rx_packet`. -/
def rxPacket (t : Target) (turn : Turn) (p : HtcPacket) : Int :=
  if calcTxrxPaddedLen t p.rx.actLen > p.rx.bufLen then enomem else turn.readStatus

/-- The lists of `ath6kl_htc_rx_fetch`, which has `tmp_rxq` empty at the head of its loop. -/
structure Fetch where
  books : Books
  rxPktq : List HtcPacket
  compPktq : List HtcPacket := []
  partBundle : Bool := false
  status : Int := 0

/-- The label `fail_rx`. -/
def Fetch.failRx (r : Round) (f : Fetch) (tmpRxq : List HtcPacket) (status : Int) : Fetch :=
  { f with
    books := (f.books.reclaimAll r f.rxPktq).reclaimAll r tmpRxq
    rxPktq := []
    status := status }

/-- The fetch of a single packet, ahead of `rest`. -/
def fetchSingle (t : Target) (r : Round) (turn : Turn) (f : Fetch) (p : HtcPacket)
    (rest : List HtcPacket) : Fetch :=
  let p := if rest.isEmpty then p else p.ignoreLookahead
  if rxPacket t turn p ≠ 0 then { f with rxPktq := rest }.failRx r [p] (rxPacket t turn p)
  else { f with rxPktq := rest, compPktq := f.compPktq ++ [p] }

/-- The body of the loop of `ath6kl_htc_rx_fetch`; `none` takes the head of an empty list. -/
def fetchTurn (t : Target) (r : Round) (turn : Turn) (f : Fetch) : Option Fetch :=
  let bundling := t.rxBndlEnable && decide (f.rxPktq.length > 1)
  let b := if bundling then rxBundle t turn f.partBundle f.rxPktq else { rxq := f.rxPktq }
  let f := { f with rxPktq := b.rxq }
  if b.status ≠ 0 then some (f.failRx r b.syncCompq b.status)
  else
    let f := { f with
      compPktq := f.compPktq ++ b.syncCompq
      partBundle := f.partBundle || (bundling && !b.rxq.isEmpty) }
    if b.nPktFetched ≠ 0 then some f
    else
      match f.rxPktq with
      | [] => none
      | p::rest => some (fetchSingle t r turn f p rest)

/-- `ath6kl_htc_rx_fetch` from turn `k` on; `none` also if the fuel runs out. -/
def fetchLoop (t : Target) (r : Round) : Nat → Nat → Fetch → Option Fetch
  | 0, _, _ => none
  | fuel+1, k, f =>
    if f.rxPktq.isEmpty then some f
    else
      (fetchTurn t r (r.turns k) f).bind fun f =>
        if f.status ≠ 0 then some f else fetchLoop t r fuel (k+1) f

def rxFetch (t : Target) (r : Round) (b : Books) (rxPktq : List HtcPacket) : Option Fetch :=
  fetchLoop t r (rxPktq.length+1) 0 { books := b, rxPktq := rxPktq }

/-- `ath6kl_htc_rx_process_hdr` on a packet fetched. -/
def rxProcessHdr (r : Round) (p : HtcPacket) : Option Processed :=
  processHdr (r.contents p) true ((r.contents p 4).toNat+1) p.rx

def writeLkAhds (lkAhds : Nat → LkAhd) (l : List (Nat × List UInt8)) : Nat → LkAhd :=
  l.foldl (fun f w => Function.update f w.1 (LkAhd.ofBytes w.2)) lkAhds

/-- What `ath6kl_htc_rx_process_packets` leaves. -/
structure Process where
  books : Books
  compPktq : List HtcPacket := []
  lkAhds : Nat → LkAhd
  nLkAhd : Nat
  status : Int := 0

/-- `ath6kl_htc_rx_process_packets`; `none` if the parsing of a trailer does not end. -/
def rxProcessPackets (r : Round) :
    List HtcPacket → Books → (Nat → LkAhd) → Nat → Option Process
  | [], b, lkAhds, nLkAhd => some { books := b, lkAhds := lkAhds, nLkAhd := nLkAhd }
  | p::rest, b, lkAhds, _ =>
    (rxProcessHdr r p).bind fun x =>
      let lkAhds := writeLkAhds lkAhds x.parsed.log.lkAhds
      if x.parsed.status ≠ 0 then some ⟨b, p::rest, lkAhds, x.parsed.nLkAhds, x.parsed.status⟩
      else rxProcessPackets r rest (b.complete p) lkAhds x.parsed.nLkAhds

@[simp] theorem keys_nil : keys [] = [] := rfl

@[simp] theorem keys_cons (p : HtcPacket) (q : List HtcPacket) :
    keys (p::q) = p.key::keys q := rfl

@[simp] theorem keys_append (q q' : List HtcPacket) : keys (q ++ q') = keys q ++ keys q' :=
  List.map_append

@[simp] theorem key_ignoreLookahead (p : HtcPacket) : p.ignoreLookahead.key = p.key := rfl

/-- The books when the lists hold the packets `held`: whatever has been handed out is held or has
ended, once. -/
structure Holds (b : Books) (held : List Key) : Prop where
  perm : b.allocated ~ b.ends.map Prod.fst ++ held
  numbered : b.allocated.map Prod.fst = List.range b.allocated.length
  valid : ∀ k∈held, k.2<endpointMax

section Books
variable {b : Books} {held : List Key} {p : HtcPacket}

theorem Holds.take (h : Holds b held) (hid : p.id = b.allocated.length)
    (hep : p.rx.endpoint<endpointMax) : Holds (b.take p) (held ++ [p.key]) where
  perm := by
    rw [← List.append_assoc]
    exact h.perm.append_right [p.key]
  numbered := by
    have hkey : p.key.1 = b.allocated.length := hid
    simp only [Books.take, List.map_append, List.map_cons, List.map_nil, List.length_append,
      List.length_cons, List.length_nil, zero_add]
    rw [h.numbered, List.range_succ, hkey]
  valid := List.forall_mem_append.mpr ⟨h.valid, List.forall_mem_singleton.mpr hep⟩

theorem Holds.of_perm {held' : List Key} (h : Holds b held) (hperm : held ~ held') :
    Holds b held' where
  perm := h.perm.trans (hperm.append_left _)
  numbered := h.numbered
  valid := fun k hk => h.valid k (hperm.mem_iff.mpr hk)

theorem Holds.ended (h : Holds b (p.key::held)) (fate : Fate) :
    Holds { b with ends := b.ends ++ [(p.key, fate)] } held where
  perm := by
    rw [List.map_append, List.append_assoc]
    exact h.perm
  numbered := h.numbered
  valid := fun k hk => h.valid k (List.mem_cons_of_mem _ hk)

theorem Holds.reclaim (h : Holds b (p.key::held)) (r : Round) : Holds (b.reclaim r p) held := by
  have hep : p.rx.endpoint<endpointMax := h.valid p.key List.mem_cons_self
  unfold Books.reclaim
  split_ifs with hrec hout hstop
  · exact h.ended .cancelled
  · omega
  · exact h.ended .cancelled
  · exact h.ended .recycled

theorem Holds.reclaimAll {q : List HtcPacket} (h : Holds b (keys q ++ held)) (r : Round) :
    Holds (b.reclaimAll r q) held := by
  induction q generalizing b with
  | nil => exact h
  | cons p q ih => exact ih (h.reclaim r)

end Books

section Alloc
variable {t : Target} {r : Round} {eid : Nat}

theorem setupLoop_holds (hep : eid<endpointMax) (h : LkAhd) (n j : Nat) {a : Alloc}
    (ha : Holds a.books (keys a.queue)) :
    Holds (setupLoop t r eid h n j a).books (keys (setupLoop t r eid h n j a).queue) := by
  induction n generalizing j a with
  | zero => exact ha
  | succ n ih =>
    simp only [setupLoop]
    cases r.supply a.queue.length with
    | none => exact ha
    | some bufLen =>
      have hp := ha.take (p := setupPacket t eid h j a.books.allocated.length bufLen) rfl hep
      rw [show [(setupPacket t eid h j a.books.allocated.length bufLen).key] =
        keys [setupPacket t eid h j a.books.allocated.length bufLen] from rfl,
        ← keys_append] at hp
      dsimp only
      split_ifs
      · exact hp
      · exact ih (j+1) hp

theorem rxSetup_holds (hep : eid<endpointMax) (h : LkAhd) (n : Nat) {a : Alloc}
    (ha : Holds a.books (keys a.queue)) :
    Holds (rxSetup t r eid h n a).books (keys (rxSetup t r eid h n a).queue) := by
  unfold rxSetup
  split_ifs
  · exact setupLoop_holds hep h n 0 ha
  · exact ha

theorem allocLoop_holds (hep : eid<endpointMax) (lkAhds : Nat → LkAhd) (n i : Nat) {a : Alloc}
    (ha : Holds a.books (keys a.queue)) :
    Holds (allocLoop t r eid lkAhds n i a).books
      (keys (allocLoop t r eid lkAhds n i a).queue) := by
  induction n generalizing i a with
  | zero => exact ha
  | succ n ih =>
    have hsetup := rxSetup_holds (t := t) (r := r) hep (lkAhds i) (nMsg (lkAhds i)) ha
    simp only [allocLoop]
    split_ifs
    all_goals first
      | exact ha
      | exact hsetup
      | exact ih (i+1) hsetup

theorem rxAlloc_holds (hep : eid<endpointMax) (lkAhds : Nat → LkAhd) (msg : Nat) {b : Books}
    (hb : Holds b []) :
    Holds (rxAlloc t r eid lkAhds msg b).books (keys (rxAlloc t r eid lkAhds msg b).queue) ∧
      ((rxAlloc t r eid lkAhds msg b).status ≠ 0 →
        (rxAlloc t r eid lkAhds msg b).queue = []) := by
  have ha := allocLoop_holds (t := t) (r := r) hep lkAhds msg 0 (a := { books := b }) hb
  simp only [rxAlloc]
  generalize allocLoop t r eid lkAhds msg 0 { books := b } = a at ha
  split_ifs with hspace hfail
  · exact ⟨ha, fun h => absurd rfl h⟩
  · rw [← List.append_nil (keys a.queue)] at ha
    exact ⟨ha.reclaimAll r, fun _ => rfl⟩
  · exact ⟨ha, fun h => absurd h hfail⟩

end Alloc

section Fetch
variable {t : Target} {r : Round} {turn : Turn}

theorem keys_bundleLoop (partBundle : Bool) (nScatPkt n i remSpace : Nat)
    (rxq : List HtcPacket) :
    keys (bundleLoop t partBundle nScatPkt n i remSpace rxq).2 ++
      keys (bundleLoop t partBundle nScatPkt n i remSpace rxq).1 = keys rxq := by
  induction n generalizing i remSpace rxq with
  | zero => rfl
  | succ n ih =>
    cases rxq with
    | nil => rfl
    | cons p rxq =>
      simp only [bundleLoop]
      split_ifs
      · rfl
      · simp only [keys_cons, key_ignoreLookahead, List.cons_append, ih]
      · simp only [keys_cons, List.cons_append, ih]

/-- Of a bundle that leaves packets behind, every packet is marked: the one that is not is the
last entry, and then nothing is left. -/
theorem bundleLoop_marked {partBundle : Bool} {nScatPkt n i : Nat} {rxq : List HtcPacket}
    (hn : i+n = nScatPkt) (hpart : partBundle = true ∨ n = rxq.length) (remSpace : Nat)
    (hleft : (bundleLoop t partBundle nScatPkt n i remSpace rxq).1 ≠ []) :
    ∀ p∈(bundleLoop t partBundle nScatPkt n i remSpace rxq).2,
      p.rx.ignoreLookahead = true := by
  induction n generalizing i remSpace rxq with
  | zero => simp [bundleLoop]
  | succ n ih =>
    cases rxq with
    | nil => simp [bundleLoop]
    | cons p rxq =>
      simp only [bundleLoop] at hleft ⊢
      split_ifs at hleft ⊢ with hspace hmark
      · simp
      · have hrest := ih (i := i+1) (by omega) (by simpa using hpart) _ hleft
        exact List.forall_mem_cons.mpr ⟨rfl, hrest⟩
      · -- the last entry
        simp only [Bool.or_eq_true, decide_eq_true_eq, not_or] at hmark
        have hlast : n = 0 := by omega
        have hnil : rxq = [] := by
          rcases hpart with hpart | hlen
          · exact absurd hpart hmark.1
          · rw [List.length_cons] at hlen
            exact List.eq_nil_of_length_eq_zero (by omega)
        subst hlast hnil
        exact absurd rfl hleft

/-- What a try to fetch a bundle out of `rxq` takes. -/
structure Bundle.Takes (b : Bundle) (rxq : List HtcPacket) : Prop where
  keys : keys b.syncCompq ++ keys b.rxq = keys rxq
  marked : b.rxq ≠ [] → ∀ p∈b.syncCompq, p.rx.ignoreLookahead = true
  counted : b.status = 0 → b.nPktFetched = b.syncCompq.length

theorem Bundle.takes_none (rxq : List HtcPacket) : Bundle.Takes { rxq := rxq } rxq :=
  ⟨rfl, fun _ _ hp => absurd hp List.not_mem_nil, fun _ => rfl⟩

theorem rxBundle_takes (partBundle : Bool) (rxq : List HtcPacket) :
    (rxBundle t turn partBundle rxq).Takes rxq := by
  simp only [rxBundle]
  split_ifs with hreq hstatus
  · refine ⟨keys_bundleLoop _ _ _ _ _ _, bundleLoop_marked (Nat.zero_add _) ?_ _, fun _ => rfl⟩
    simp only [Bool.or_eq_true, decide_eq_true_eq]
    omega
  · refine ⟨keys_bundleLoop _ _ _ _ _ _, bundleLoop_marked (Nat.zero_add _) ?_ _,
      fun h => absurd h hstatus⟩
    simp only [Bool.or_eq_true, decide_eq_true_eq]
    omega
  · exact Bundle.takes_none rxq

/-- The two lists hold all packets, and those fetched ahead of others, or ahead of a failure, are
marked. -/
structure Fetch.Good (f : Fetch) : Prop where
  holds : Holds f.books (keys f.compPktq ++ keys f.rxPktq)
  marked : f.rxPktq ≠ [] ∨ f.status ≠ 0 → ∀ p∈f.compPktq, p.rx.ignoreLookahead = true
  drained : f.status ≠ 0 → f.rxPktq = []

theorem Fetch.failRx_good {f : Fetch} {tmpRxq : List HtcPacket}
    (h : Holds f.books (keys f.compPktq ++ (keys tmpRxq ++ keys f.rxPktq)))
    (hmarked : ∀ p∈f.compPktq, p.rx.ignoreLookahead = true) (status : Int) :
    (f.failRx r tmpRxq status).Good where
  holds := by
    have hperm : keys f.compPktq ++ (keys tmpRxq ++ keys f.rxPktq) ~
        keys f.rxPktq ++ (keys tmpRxq ++ keys f.compPktq) := by
      calc
        _ ~ keys tmpRxq ++ keys f.rxPktq ++ keys f.compPktq := List.perm_append_comm
        _ ~ keys f.rxPktq ++ keys tmpRxq ++ keys f.compPktq :=
          List.perm_append_comm.append_right _
        _ = keys f.rxPktq ++ (keys tmpRxq ++ keys f.compPktq) := List.append_assoc _ _ _
    have hall := ((h.of_perm hperm).reclaimAll r).reclaimAll r
    rwa [← List.append_nil (keys f.compPktq)] at hall
  marked := fun _ => hmarked
  drained := fun _ => rfl

theorem fetchSingle_good (turn : Turn) {f : Fetch} {p : HtcPacket} {rest : List HtcPacket}
    (h : f.Good) (hq : f.rxPktq = p::rest) (hstatus : f.status = 0) :
    (fetchSingle t r turn f p rest).Good ∧
      ((fetchSingle t r turn f p rest).status = 0 →
        (fetchSingle t r turn f p rest).rxPktq = rest) := by
  have hkey : (if rest.isEmpty then p else p.ignoreLookahead).key = p.key := by
    split_ifs <;> rfl
  have hmark : rest ≠ [] →
      (if rest.isEmpty then p else p.ignoreLookahead).rx.ignoreLookahead = true := by
    intro hrest
    rw [if_neg (by simpa using hrest)]
    rfl
  have hmarked := h.marked (Or.inl (by simp [hq]))
  have hholds := h.holds
  simp only [fetchSingle]
  generalize (if rest.isEmpty then p else p.ignoreLookahead) = p' at hkey hmark
  rw [hq, keys_cons, ← hkey] at hholds
  split_ifs with hread
  · have hheld : Holds f.books (keys f.compPktq ++ (keys [p'] ++ keys rest)) := hholds
    have hfail := Fetch.failRx_good (r := r) (f := { f with rxPktq := rest }) hheld hmarked
      (rxPacket t turn p')
    exact ⟨hfail, fun h0 => absurd h0 hread⟩
  · refine ⟨⟨?_, ?_, fun h0 => absurd hstatus h0⟩, fun _ => rfl⟩
    · rw [keys_append, List.append_assoc]
      exact hholds
    · rintro (hrest | h0)
      · exact List.forall_mem_append.mpr ⟨hmarked, List.forall_mem_singleton.mpr (hmark hrest)⟩
      · exact absurd hstatus h0

theorem Bundle.Takes.splice {f : Fetch} {b : Bundle} (hb : b.Takes f.rxPktq) (h : f.Good)
    (hq : f.rxPktq ≠ []) (hstatus : f.status = 0) (partBundle : Bool) :
    Fetch.Good { f with
      rxPktq := b.rxq
      compPktq := f.compPktq ++ b.syncCompq
      partBundle := partBundle } := by
  have hholds := h.holds
  rw [← hb.keys] at hholds
  refine ⟨?_, ?_, fun h0 => absurd hstatus h0⟩
  · rw [keys_append, List.append_assoc]
    exact hholds
  · rintro (hleft | h0)
    · exact List.forall_mem_append.mpr ⟨h.marked (Or.inl hq), hb.marked hleft⟩
    · exact absurd hstatus h0

theorem Bundle.Takes.length {b : Bundle} {rxq : List HtcPacket} (h : b.Takes rxq) :
    b.syncCompq.length + b.rxq.length = rxq.length := by
  have hlen := congrArg List.length h.keys
  simpa only [HtcRxFetch.keys, List.length_append, List.length_map] using hlen

theorem fetchTurn_good (turn : Turn) {f : Fetch} (h : f.Good) (hq : f.rxPktq ≠ [])
    (hstatus : f.status = 0) :
    ∃ f', fetchTurn t r turn f = some f' ∧ f'.Good ∧
      (f'.status = 0 → f'.rxPktq.length<f.rxPktq.length) := by
  simp only [fetchTurn]
  generalize (t.rxBndlEnable && decide (f.rxPktq.length > 1)) = bundling
  have hb : (if bundling = true then rxBundle t turn f.partBundle f.rxPktq
      else { rxq := f.rxPktq }).Takes f.rxPktq := by
    split_ifs
    · exact rxBundle_takes _ _
    · exact Bundle.takes_none _
  generalize (if bundling = true then rxBundle t turn f.partBundle f.rxPktq
      else { rxq := f.rxPktq }) = b at hb
  have hlen := hb.length
  have hspliced := hb.splice h hq hstatus (f.partBundle || (bundling && !b.rxq.isEmpty))
  split_ifs with hfail hfetched
  · have hholds := h.holds
    rw [← hb.keys] at hholds
    refine ⟨_, rfl, Fetch.failRx_good (f := { f with rxPktq := b.rxq }) hholds
      (h.marked (Or.inl hq)) _, fun h0 => absurd h0 hfail⟩
  · have hcount := hb.counted (not_not.mp hfail)
    refine ⟨_, rfl, hspliced, fun _ => ?_⟩
    dsimp only
    omega
  · have hcount := hb.counted (not_not.mp hfail)
    have hpos := List.length_pos_iff.mpr hq
    cases hrxq : b.rxq with
    | nil =>
      rw [hrxq, List.length_nil] at hlen
      omega
    | cons p rest =>
      rw [hrxq] at hspliced
      have hone := fetchSingle_good (t := t) (r := r) turn hspliced rfl hstatus
      rw [hrxq, List.length_cons] at hlen
      refine ⟨_, rfl, hone.1, fun h0 => ?_⟩
      rw [hone.2 h0]
      omega

theorem fetchLoop_good {fuel : Nat} (k : Nat) {f : Fetch} (h : f.Good) (hstatus : f.status = 0)
    (hfuel : f.rxPktq.length<fuel) :
    ∃ f', fetchLoop t r fuel k f = some f' ∧ f'.Good ∧ f'.rxPktq = [] := by
  induction fuel generalizing k f with
  | zero => omega
  | succ fuel ih =>
    rw [fetchLoop]
    by_cases hq : f.rxPktq = []
    · rw [if_pos (by simp [hq])]
      exact ⟨f, rfl, h, hq⟩
    · rw [if_neg (by simpa using hq)]
      obtain ⟨f', hf', hgood, hless⟩ := fetchTurn_good (t := t) (r := r) (r.turns k) h hq
        hstatus
      rw [hf', Option.bind_some]
      split_ifs with hfail
      · exact ⟨f', rfl, hgood, hgood.drained hfail⟩
      · have h0 : f'.status = 0 := not_not.mp hfail
        have hlen := hless h0
        exact ih (k+1) hgood h0 (by omega)

theorem rxFetch_good {b : Books} {rxPktq : List HtcPacket} (h : Holds b (keys rxPktq)) :
    ∃ f, rxFetch t r b rxPktq = some f ∧ f.Good ∧ f.rxPktq = [] := by
  refine fetchLoop_good 0 ⟨h, ?_, ?_⟩ rfl (Nat.lt_succ_self _)
  · exact fun _ _ hp => absurd hp List.not_mem_nil
  · exact fun h0 => absurd rfl h0

end Fetch

/-- The turn sends a bundle read for the head of the queue. -/
def Turn.bundles (t : Target) (turn : Turn) (q : List HtcPacket) : Bool :=
  t.rxBndlEnable && decide (q.length > 1) && turn.scatReq

/-- What a bundle read leaves of the queue, and what it takes. -/
def bundled (t : Target) (partBundle : Bool) (q : List HtcPacket) :
    List HtcPacket × List HtcPacket :=
  let n := min q.length t.msgPerBndlMax
  bundleLoop t (partBundle || decide (q.length - n > 0)) n n 0 t.maxRxBndlSz q

/-- A packet as it is fetched alone, ahead of `rest`. -/
def alone (p : HtcPacket) (rest : List HtcPacket) : HtcPacket :=
  if rest.isEmpty then p else p.ignoreLookahead

/-- From turn `k` on the bus answers so that the fetch of the queue fails, with `fetched` fetched
before. -/
inductive FailsBehind (t : Target) (r : Round) :
    Nat → Bool → List HtcPacket → List HtcPacket → Prop
  | bundle {k partBundle q} (hb : (r.turns k).bundles t q) (hbad : (r.turns k).scatStatus ≠ 0) :
      FailsBehind t r k partBundle q []
  | afterBundle {k partBundle q fetched} (hb : (r.turns k).bundles t q)
      (hok : (r.turns k).scatStatus = 0) (htook : (bundled t partBundle q).2 ≠ [])
      (h : FailsBehind t r (k+1) (partBundle || !(bundled t partBundle q).1.isEmpty)
        (bundled t partBundle q).1 fetched) :
      FailsBehind t r k partBundle q ((bundled t partBundle q).2 ++ fetched)
  | single {k partBundle p rest}
      (hone : (r.turns k).bundles t (p::rest) →
        (r.turns k).scatStatus = 0 ∧ (bundled t partBundle (p::rest)).2 = [])
      (hbad : rxPacket t (r.turns k) p ≠ 0) : FailsBehind t r k partBundle (p::rest) []
  | afterSingle {k partBundle p rest fetched}
      (hone : (r.turns k).bundles t (p::rest) →
        (r.turns k).scatStatus = 0 ∧ (bundled t partBundle (p::rest)).2 = [])
      (hok : rxPacket t (r.turns k) p = 0)
      (h : FailsBehind t r (k+1) (partBundle || (t.rxBndlEnable && !rest.isEmpty)) rest fetched) :
      FailsBehind t r k partBundle (p::rest) (alone p rest::fetched)

section Fails
variable {t : Target} {r : Round} {turn : Turn} {f : Fetch}

theorem bundleLoop_nil {partBundle : Bool} {nScatPkt n i remSpace : Nat} {rxq : List HtcPacket}
    (h : (bundleLoop t partBundle nScatPkt n i remSpace rxq).2 = []) :
    (bundleLoop t partBundle nScatPkt n i remSpace rxq).1 = rxq := by
  cases n with
  | zero => rfl
  | succ n =>
    cases rxq with
    | nil => rfl
    | cons p rxq =>
      simp only [bundleLoop] at h ⊢
      split_ifs at h ⊢
      rfl

theorem rxBundle_eq (hreq : turn.scatReq) (partBundle : Bool) (q : List HtcPacket) :
    rxBundle t turn partBundle q =
      { rxq := (bundled t partBundle q).1, syncCompq := (bundled t partBundle q).2
        nPktFetched := if turn.scatStatus = 0 then (bundled t partBundle q).2.length else 0
        status := turn.scatStatus } := by
  simp [rxBundle, bundled, hreq]

theorem Turn.bundles_iff {q : List HtcPacket} :
    turn.bundles t q ↔ (t.rxBndlEnable && decide (q.length > 1)) = true ∧ turn.scatReq := by
  simp [Turn.bundles]

theorem fetchTurn_bundle_fails (hb : turn.bundles t f.rxPktq) (hbad : turn.scatStatus ≠ 0) :
    fetchTurn t r turn f = some ({ f with rxPktq := (bundled t f.partBundle f.rxPktq).1 }.failRx r
      (bundled t f.partBundle f.rxPktq).2 turn.scatStatus) := by
  obtain ⟨hbundling, hreq⟩ := Turn.bundles_iff.mp hb
  simp [fetchTurn, hbundling, rxBundle_eq hreq, hbad]

theorem fetchTurn_bundle (hb : turn.bundles t f.rxPktq) (hok : turn.scatStatus = 0)
    (htook : (bundled t f.partBundle f.rxPktq).2 ≠ []) :
    fetchTurn t r turn f = some { f with
      rxPktq := (bundled t f.partBundle f.rxPktq).1
      compPktq := f.compPktq ++ (bundled t f.partBundle f.rxPktq).2
      partBundle := f.partBundle || !(bundled t f.partBundle f.rxPktq).1.isEmpty } := by
  obtain ⟨hbundling, hreq⟩ := Turn.bundles_iff.mp hb
  simp [fetchTurn, hbundling, rxBundle_eq hreq, hok, htook]

theorem fetchTurn_single {p : HtcPacket} {rest : List HtcPacket} (hq : f.rxPktq = p::rest)
    (hone : turn.bundles t f.rxPktq →
      turn.scatStatus = 0 ∧ (bundled t f.partBundle f.rxPktq).2 = []) :
    fetchTurn t r turn f = some (fetchSingle t r turn
      { f with
        rxPktq := p::rest
        partBundle := f.partBundle || (t.rxBndlEnable && !rest.isEmpty) } p rest) := by
  have hlong : (t.rxBndlEnable && decide (f.rxPktq.length > 1)) =
      (t.rxBndlEnable && !rest.isEmpty) := by
    rw [hq]
    cases rest <;> simp
  by_cases hb : turn.bundles t f.rxPktq
  · obtain ⟨hbundling, hreq⟩ := Turn.bundles_iff.mp hb
    obtain ⟨hok, hnone⟩ := hone hb
    have hall : (bundled t f.partBundle f.rxPktq).1 = p::rest := (bundleLoop_nil hnone).trans hq
    rw [← hlong]
    simp [fetchTurn, hbundling, rxBundle_eq hreq, hok, hnone, hall]
  · have hno : (if (t.rxBndlEnable && decide (f.rxPktq.length > 1)) = true then
        rxBundle t turn f.partBundle f.rxPktq else { rxq := f.rxPktq }) = { rxq := f.rxPktq } := by
      split_ifs with hbundling
      · simp [rxBundle, show turn.scatReq = false by simpa [Turn.bundles_iff, hbundling] using hb]
      · rfl
    simp only [fetchTurn, hno]
    simp only [hlong]
    simp [hq]

theorem rxPacket_alone (turn : Turn) (p : HtcPacket) (rest : List HtcPacket) :
    rxPacket t turn (alone p rest) = rxPacket t turn p := by
  unfold alone
  split_ifs <;> rfl

theorem fetchSingle_fails {p : HtcPacket} {rest : List HtcPacket} (hbad : rxPacket t turn p ≠ 0) :
    fetchSingle t r turn f p rest =
      { f with rxPktq := rest }.failRx r [alone p rest] (rxPacket t turn p) := by
  have hp := rxPacket_alone (t := t) turn p rest
  simp only [fetchSingle]
  rw [← alone, hp, if_pos hbad]

theorem fetchSingle_fetches {p : HtcPacket} {rest : List HtcPacket} (hok : rxPacket t turn p = 0) :
    fetchSingle t r turn f p rest =
      { f with rxPktq := rest, compPktq := f.compPktq ++ [alone p rest] } := by
  have hp := rxPacket_alone (t := t) turn p rest
  simp only [fetchSingle]
  rw [← alone, hp, if_neg (not_not.mpr hok)]

theorem fetchLoop_fails {fuel k : Nat} {f f' : Fetch} (h0 : f.status = 0)
    (hf : fetchLoop t r fuel k f = some f') (hfail : f'.status ≠ 0) :
    ∃ fetched, f'.compPktq = f.compPktq ++ fetched ∧
      FailsBehind t r k f.partBundle f.rxPktq fetched := by
  induction fuel generalizing k f with
  | zero => simp [fetchLoop] at hf
  | succ fuel ih =>
    rw [fetchLoop] at hf
    split_ifs at hf with hnil
    · obtain rfl := Option.some.inj hf
      exact absurd h0 hfail
    by_cases hb : (r.turns k).bundles t f.rxPktq ∧
        ((r.turns k).scatStatus ≠ 0 ∨ (bundled t f.partBundle f.rxPktq).2 ≠ [])
    · obtain ⟨hb, hstatus⟩ := hb
      by_cases hok : (r.turns k).scatStatus = 0
      · have htook := hstatus.resolve_left (not_not.mpr hok)
        rw [fetchTurn_bundle hb hok htook, Option.bind_some, if_neg (by simpa using h0)] at hf
        obtain ⟨fetched, hcomp, hrest⟩ := ih (by exact h0) hf
        exact ⟨_, hcomp.trans (List.append_assoc ..), .afterBundle hb hok htook hrest⟩
      · rw [fetchTurn_bundle_fails hb hok, Option.bind_some, if_pos (by exact hok)] at hf
        obtain rfl := Option.some.inj hf
        exact ⟨[], (List.append_nil _).symm, .bundle hb hok⟩
    · have hone : (r.turns k).bundles t f.rxPktq →
          (r.turns k).scatStatus = 0 ∧ (bundled t f.partBundle f.rxPktq).2 = [] := by
        simpa [not_or] using hb
      cases hq : f.rxPktq with
      | nil => simp [hq] at hnil
      | cons p rest =>
        rw [fetchTurn_single hq hone, Option.bind_some] at hf
        rw [hq] at hone
        by_cases hok : rxPacket t (r.turns k) p = 0
        · rw [fetchSingle_fetches hok, if_neg (by simpa using h0)] at hf
          obtain ⟨fetched, hcomp, hrest⟩ := ih (by exact h0) hf
          exact ⟨_, hcomp.trans (List.append_assoc ..), .afterSingle hone hok hrest⟩
        · rw [fetchSingle_fails hok, if_pos (by exact hok)] at hf
          obtain rfl := Option.some.inj hf
          exact ⟨[], (List.append_nil _).symm, .single hone hok⟩

theorem fetchLoop_succ {fuel k : Nat} {f' : Fetch} (hq : f.rxPktq ≠ [])
    (hturn : fetchTurn t r (r.turns k) f = some f') :
    fetchLoop t r (fuel+1) k f = if f'.status ≠ 0 then some f' else fetchLoop t r fuel (k+1) f' := by
  rw [fetchLoop, if_neg (by simpa using hq), hturn, Option.bind_some]

theorem bundled_length (partBundle : Bool) (q : List HtcPacket) :
    (bundled t partBundle q).2.length + (bundled t partBundle q).1.length = q.length := by
  have hkeys : keys (bundled t partBundle q).2 ++ keys (bundled t partBundle q).1 = keys q :=
    keys_bundleLoop ..
  have hlen := congrArg List.length hkeys
  simpa only [keys, List.length_append, List.length_map] using hlen

theorem FailsBehind.ne_nil {k : Nat} {partBundle : Bool} {q fetched : List HtcPacket}
    (h : FailsBehind t r k partBundle q fetched) : q ≠ [] := by
  rintro rfl
  cases h with
  | bundle hb hbad => simp [Turn.bundles] at hb
  | afterBundle hb hok htook h => simp [Turn.bundles] at hb

theorem FailsBehind.fetch {k : Nat} {partBundle : Bool} {q fetched : List HtcPacket}
    (h : FailsBehind t r k partBundle q fetched) {fuel : Nat} (hfuel : q.length < fuel) {f : Fetch}
    (hpart : f.partBundle = partBundle) (hq : f.rxPktq = q) (h0 : f.status = 0) :
    ∃ f', fetchLoop t r fuel k f = some f' ∧ f'.status ≠ 0 ∧
      f'.compPktq = f.compPktq ++ fetched := by
  obtain ⟨fuel, rfl⟩ : ∃ n, fuel = n+1 := ⟨fuel-1, by omega⟩
  induction h generalizing fuel f with
  | bundle hb hbad =>
    subst hpart hq
    have hfails : FailsBehind t r _ f.partBundle f.rxPktq [] := .bundle hb hbad
    rw [fetchLoop_succ hfails.ne_nil (fetchTurn_bundle_fails hb hbad), if_pos (by exact hbad)]
    exact ⟨_, rfl, hbad, (List.append_nil _).symm⟩
  | afterBundle hb hok htook h ih =>
    subst hpart hq
    have hlen := bundled_length (t := t) f.partBundle f.rxPktq
    have hpos := List.length_pos_iff.mpr htook
    have hne : f.rxPktq ≠ [] := List.length_pos_iff.mp (by omega)
    obtain ⟨fuel, rfl⟩ : ∃ n, fuel = n+1 := ⟨fuel-1, by omega⟩
    obtain ⟨f', hf', hbad, hcomp⟩ := ih (f := { f with
      rxPktq := (bundled t f.partBundle f.rxPktq).1
      compPktq := f.compPktq ++ (bundled t f.partBundle f.rxPktq).2
      partBundle := f.partBundle || !(bundled t f.partBundle f.rxPktq).1.isEmpty })
      rfl rfl h0 fuel (by omega)
    rw [fetchLoop_succ hne (fetchTurn_bundle hb hok htook), if_neg (by simpa using h0)]
    exact ⟨f', hf', hbad, hcomp.trans (List.append_assoc ..)⟩
  | single hone hbad =>
    subst hpart
    rw [← hq] at hone
    rw [fetchLoop_succ (by simp [hq]) (fetchTurn_single hq hone), fetchSingle_fails hbad,
      if_pos (by exact hbad)]
    exact ⟨_, rfl, hbad, (List.append_nil _).symm⟩
  | @afterSingle k partBundle p rest fetched hone hok h ih =>
    subst hpart
    rw [← hq] at hone
    rw [List.length_cons] at hfuel
    obtain ⟨fuel, rfl⟩ : ∃ n, fuel = n+1 := ⟨fuel-1, by omega⟩
    obtain ⟨f', hf', hbad, hcomp⟩ := ih (f := { f with
      rxPktq := rest
      compPktq := f.compPktq ++ [alone p rest]
      partBundle := f.partBundle || (t.rxBndlEnable && !rest.isEmpty) })
      rfl rfl h0 fuel (by omega)
    rw [fetchLoop_succ (by simp [hq]) (fetchTurn_single hq hone), fetchSingle_fetches hok,
      if_neg (by simpa using h0)]
    exact ⟨f', hf', hbad, hcomp.trans (List.append_assoc ..)⟩

end Fails

section Process
variable {r : Round}

/-- The header of a packet fetched is refused. -/
def Refused (r : Round) (p : HtcPacket) : Prop :=
  ∃ x, rxProcessHdr r p = some x ∧ x.parsed.status ≠ 0

theorem rxProcessHdr_returns (r : Round) (p : HtcPacket) : ∃ x, rxProcessHdr r p = some x :=
  Option.isSome_iff_exists.mp (processHdr_isSome _ _ (Nat.lt_succ_self _) _)

theorem rxProcessPackets_holds {q : List HtcPacket} {b : Books} (lkAhds : Nat → LkAhd) (n : Nat)
    (h : Holds b (keys q)) :
    ∃ x, rxProcessPackets r q b lkAhds n = some x ∧ Holds x.books (keys x.compPktq) ∧
      (x.status = 0 → x.compPktq = []) ∧ (x.status ≠ 0 ↔ ∃ p∈q, Refused r p) := by
  induction q generalizing b lkAhds n with
  | nil => exact ⟨_, rfl, h, fun _ => rfl, by simp⟩
  | cons p rest ih =>
    obtain ⟨x, hx⟩ := rxProcessHdr_returns r p
    rw [rxProcessPackets, hx, Option.bind_some]
    dsimp only
    split_ifs with hstatus
    · refine ⟨_, rfl, h, fun h0 => absurd h0 hstatus, fun _ => ?_, fun _ => hstatus⟩
      exact ⟨p, List.mem_cons_self, x, hx, hstatus⟩
    · have hp : ¬Refused r p := by
        rintro ⟨y, hy, hbad⟩
        rw [hx] at hy
        exact hstatus (Option.some.inj hy ▸ hbad)
      obtain ⟨y, hy, hholds, hleft, hiff⟩ :=
        ih (writeLkAhds lkAhds x.parsed.log.lkAhds) x.parsed.nLkAhds (h.ended .delivered)
      refine ⟨y, hy, hholds, hleft, ?_⟩
      rw [hiff]
      simp [hp]

theorem rxProcessPackets_marked {q : List HtcPacket} {b : Books} {lkAhds : Nat → LkAhd}
    {x : Process} (hq : ∀ p∈q, p.rx.ignoreLookahead = true)
    (h : rxProcessPackets r q b lkAhds 0 = some x) : x.nLkAhd = 0 := by
  induction q generalizing b lkAhds with
  | nil => simp [← Option.some.inj h]
  | cons p rest ih =>
    obtain ⟨y, hy⟩ := rxProcessHdr_returns r p
    have hn : y.parsed.nLkAhds = 0 := processHdr_ignored _ (hq p List.mem_cons_self) hy
    rw [rxProcessPackets, hy, Option.bind_some, hn] at h
    dsimp only at h
    split_ifs at h
    · simp [← Option.some.inj h]
    · exact ih (fun p' hp' => hq p' (List.mem_cons_of_mem p hp')) h

end Process

end Ath6kl.HtcRxFetch
