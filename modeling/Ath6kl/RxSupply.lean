import Ath6kl.HtcRxFetch
import Ath6kl.Lib.Machine

/-! The buffers of the mailbox receive path (`htc.c`, `txrx.c`, `hif.c`): where the packets that
`ath6kl_htc_rx_alloc` queues come from, where they return to, and how HTC turns reception off when
it gets none. How far a fetch comes and which header is refused is left to the round; every
turn of the loop in `ath6kl_htc_rxmsg_pending_handler` is one. -/
namespace Ath6kl.RxSupply
open Htc HtcTrailer HtcRxFetch Lib.Machine

/-- `ATH6KL_MAX_RX_BUFFERS` and the `rx_refill_thresh` of `ath6kl_init_service_ep`;
`ATH6KL_MAX_AMSDU_RX_BUFFERS`, `ATH6KL_AMSDU_REFILL_THRESHOLD`; `NUM_CONTROL_RX_BUFFERS`;
`HTC_HOST_MAX_MSG_PER_BUNDLE`. -/
def maxRxBuffers : Nat := 16
def rxRefillThresh : Nat := maxRxBuffers/4
def maxAmsduRxBuffers : Nat := 4
def amsduRefillThreshold : Nat := 3
def numControlRxBuffers : Nat := 8 - 2
def htcHostMaxMsgPerBundle : Nat := 8

/-- HTC once `ath6kl_init_service_ep` has connected the services and `htc_setup_msg_bndl` has set
the bundles up. -/
structure Setup extends Target where
  allocThresh : ∀ eid, rxAllocThresh eid =
    if eid = 0 ∨ eid = ctrlEp then none else some bufferSize
  bundles : msgPerBndlMax ≤ htcHostMaxMsgPerBundle

/-- The lengths of the queues, `HTC_RECV_WAIT_BUFFERS` with `ep_waiting`, and
`INT_STATUS_ENABLE_MBOX_DATA` of the interrupt enable register. `refills` counts the refills that
asked for memory. -/
structure Rx where
  rxBufq : Nat → Nat := fun _ => 0
  amsduRxBufferQueue : Nat := 0
  epWaiting : Option Nat := none
  mboxData : Bool := true
  refills : Nat := 0

/-- `ath6kl_htc_mbox_add_rxbuf_multiple` with `n` packets, with `ath6kl_hif_rx_control`. -/
def addRxbuf (s : Rx) (eid n : Nat) : Rx :=
  let s := { s with rxBufq := Function.update s.rxBufq eid (s.rxBufq eid + n) }
  if s.epWaiting = some eid then { s with epWaiting := none, mboxData := true } else s

section Refill
-- how many buffers there is memory for in each refill
variable (mem : Nat → Nat)

def rxRefill (s : Rx) (eid : Nat) : Rx :=
  let nBufRefill := maxRxBuffers - s.rxBufq eid
  if nBufRefill = 0 then s
  else
    let got := min nBufRefill (mem s.refills)
    let s := { s with refills := s.refills+1 }
    if got = 0 then s else addRxbuf s eid got

def refillAmsduRxbufs (s : Rx) (count : Nat) : Rx :=
  { s with
    amsduRxBufferQueue := s.amsduRxBufferQueue + min count (mem s.refills)
    refills := s.refills+1 }

/-- `ath6kl_alloc_amsdu_rxbuf`: an empty queue yields nothing, also if it can be refilled. -/
def allocAmsduRxbuf (s : Rx) (len : Nat) : Rx × Bool :=
  if len ≤ bufferSize ∨ len > amsduBufferSize then (s, false)
  else if s.amsduRxBufferQueue = 0 then (refillAmsduRxbufs mem s maxAmsduRxBuffers, false)
  else
    let depth := s.amsduRxBufferQueue-1
    let refillCnt := maxAmsduRxBuffers-depth
    let s := { s with amsduRxBufferQueue := depth }
    (if refillCnt ≥ amsduRefillThreshold then refillAmsduRxbufs mem s refillCnt else s, true)

/-- `ath6kl_htc_rx_chk_water_mark`; `ENDPOINT_0` has neither an `rx_refill` nor its threshold. -/
def chkWaterMark (s : Rx) (eid : Nat) : Rx :=
  if eid ≠ 0 ∧ s.rxBufq eid<rxRefillThresh then rxRefill mem s eid else s

/-- A packet of `rx_bufq`, in `ath6kl_htc_rx_setup`. -/
def takeRxbuf (s : Rx) (eid : Nat) : Rx × Bool :=
  let s := if s.rxBufq eid = 0 ∧ eid ≠ 0 then rxRefill mem s eid else s
  if s.rxBufq eid = 0 then (s, false)
  else ({ s with rxBufq := Function.update s.rxBufq eid (s.rxBufq eid - 1) }, true)

/-- The `no_recycle` of `ath6kl_htc_rx_setup`. -/
def noRecycle (t : Target) (eid : Nat) (h : LkAhd) : Bool :=
  (t.rxAllocThresh eid).any fun thresh => decide (fullLen t h > thresh)

structure Packet where
  endpoint : Nat
  noRecycle : Bool
deriving DecidableEq

/-- Of these packets, how many belong to the `rx_bufq`. -/
def plain (q : List Packet) : Nat := (q.map fun p => if p.noRecycle then 0 else 1).sum

structure Alloc where
  rx : Rx
  queue : List Packet := []
  status : Int := 0

/-- A packet for a message with header `h`. -/
def request (t : Target) (eid : Nat) (h : LkAhd) (s : Rx) : Rx × Bool :=
  if noRecycle t eid h then allocAmsduRxbuf mem s (fullLen t h) else takeRxbuf mem s eid

/-- The loop of `ath6kl_htc_rx_setup`. -/
def setupLoop (t : Target) (eid : Nat) (h : LkAhd) : Nat → Alloc → Alloc
  | 0, a => a
  | n+1, a =>
    let x := request mem t eid h a.rx
    if x.2 then setupLoop t eid h n ⟨x.1, a.queue ++ [⟨eid, noRecycle t eid h⟩], 0⟩
    else ⟨{ x.1 with epWaiting := some eid }, a.queue, enospc⟩

def rxSetup (t : Target) (eid : Nat) (h : LkAhd) (n : Nat) (a : Alloc) : Alloc :=
  if htcValidRxFrameLen t eid (fullLen t h) then setupLoop mem t eid h n { a with status := 0 }
  else { a with status := einval }

/-- The loop of `ath6kl_htc_rx_alloc`. -/
def allocLoop (t : Target) (eid : Nat) : List LkAhd → Alloc → Alloc
  | [], a => a
  | h::hs, a =>
    if h.eid ≥ endpointMax then { a with status := enomem }
    else if h.eid ≠ eid then { a with status := enomem }
    else if h.payldLen > htcMaxPayloadLength then { a with status := enomem }
    else if t.svcId eid = 0 then { a with status := enomem }
    else if h.flags &&& htcFlgRxBndlCnt ≠ 0 ∧ nMsg h > t.msgPerBndlMax then
      { a with status := enomem }
    else
      let a := rxSetup mem t eid h (nMsg h) a
      if a.status ≠ 0 then a else allocLoop t eid hs a

/-- `htc_reclaim_rxbuf`. -/
def reclaim (s : Rx) (p : Packet) : Rx := if p.noRecycle then s else addRxbuf s p.endpoint 1

/-- `ath6kl_htc_rx_complete`: `htc_ctrl_rx` gives the packet back, `ath6kl_rx` keeps it. -/
def complete (s : Rx) (p : Packet) : Rx := if p.endpoint = 0 then reclaim s p else s

def rxAlloc (t : Target) (eid : Nat) (lkAhds : List LkAhd) (s : Rx) : Alloc :=
  let a := allocLoop mem t eid lkAhds { rx := s }
  if a.status = enospc then { a with status := 0 }
  else if a.status ≠ 0 then ⟨a.queue.foldl reclaim a.rx, [], a.status⟩
  else a

/-- What a trailer announces; `htc_parse_trailer` refuses a longer record. -/
abbrev LookAheads := {l : List LkAhd // l.length ≤ htcHostMaxMsgPerBundle}

/-- One turn of the loop of the handler: behind which packet the fetch fails, if it does, which
header is refused, and the look-ahead reports found. -/
structure Round where
  failed : Option Nat := none
  refused : Option Nat := none
  next : LookAheads

/-- `ath6kl_htc_rx_fetch` with the check of the water mark: the packets fetched. -/
def fetch (r : Round) (eid : Nat) (a : Alloc) : Rx × List Packet :=
  let k := r.failed.getD a.queue.length
  if k<a.queue.length then ((a.queue.drop k).foldl reclaim a.rx, a.queue.take k)
  else (chkWaterMark mem a.rx eid, a.queue)

/-- `ath6kl_htc_rx_process_packets`: the packets left. -/
def processPackets (r : Round) (s : Rx) (q : List Packet) : Rx × List Packet :=
  let k := r.refused.getD q.length
  ((q.take k).foldl complete s, q.drop k)

/-- One turn of the loop, and whether it may go on. -/
def turn (t : Target) (s : Rx) (lkAhds : List LkAhd) (r : Round) : Rx × Bool :=
  match lkAhds with
  | [] => (s, false)
  | h::hs =>
    if h.eid ≥ endpointMax then (s, false)
    else
      let a := rxAlloc mem t h.eid (h::hs) s
      if a.status ≠ 0 then (a.rx, false)
      else
        let f := fetch mem r h.eid a
        let x := processPackets r f.1 f.2
        (x.2.foldl reclaim x.1, x.2.isEmpty && !r.next.val.isEmpty)

/-- The loop of `ath6kl_htc_rxmsg_pending_handler`; the last round has found nothing more. -/
def handlerLoop (t : Target) : Rx → List LkAhd → List Round → Rx
  | s, _, [] => s
  | s, lkAhds, r::rs =>
    let x := turn mem t s lkAhds r
    if x.2 then handlerLoop t x.1 r.next.val rs else x.1

def leave (s : Rx) : Rx := if s.epWaiting.isSome then { s with mboxData := false } else s

/-- A call of `proc_pending_irqs` that finds this look-ahead. -/
structure Irq where
  lkAhd : LkAhd
  rounds : List Round

def step (t : Target) (s : Rx) (e : Irq) : Rx :=
  if s.mboxData ∧ e.lkAhd ≠ (0, 0, 0, 0) then leave (handlerLoop mem t s [e.lkAhd] e.rounds) else s

/-- `ctrl_ep`, and `ac2ep_map[WMM_AC_BE]`, before `ath6kl_connectservice` has set it. -/
def unconnectedEp : Nat := 0

/-- The first buffers, as `ath6kl_core_init` gives them to endpoints that are not connected yet, and
then `ath6kl_htc_mbox_start` to `ENDPOINT_0`. -/
def boot : Rx :=
  addRxbuf (refillAmsduRxbufs mem (rxRefill mem (rxRefill mem {} unconnectedEp) unconnectedEp)
    maxAmsduRxBuffers) 0 numControlRxBuffers

end Refill

section Supply
variable {mem : Nat → Nat} {t : Target} {s : Rx} {eid : Nat}

/-- A packet of the receive path, as the buffers see it. -/
def seen (p : HtcPacket) : Packet := ⟨p.rx.endpoint, p.noRecycle⟩

/-- The receive path has queued the same packets, with the same status. -/
structure Same (x : HtcRxFetch.Alloc) (y : Alloc) : Prop where
  queue : x.queue.map seen = y.queue
  status : x.status = y.status

/-- The requests that are served are the first `n` ones. -/
structure Serves (r : HtcRxFetch.Round) (n : Nat) : Prop where
  served : ∀ j<n, ∃ bufLen, r.supply j = some bufLen
  refused : r.supply n = none
  running : ∀ j, r.stopping j = false

theorem Same.next {total : Nat} {x : HtcRxFetch.Alloc} {y : Alloc}
    {f : HtcRxFetch.Alloc → HtcRxFetch.Alloc} {g : Alloc → Alloc}
    (hxy : y.queue.length ≤ total → (y.status = enospc → y.queue.length = total) → Same x y)
    (hlen : y.queue.length ≤ (g y).queue.length)
    (hfg : Same x y → (g y).queue.length = total → Same (f x) (g y))
    (htotal : (if y.status ≠ 0 then y else g y).queue.length = total) :
    Same (if x.status ≠ 0 then x else f x) (if y.status ≠ 0 then y else g y) := by
  by_cases hy : y.status = 0
  · rw [if_neg (not_not.mpr hy)] at htotal ⊢
    have hs := hxy (hlen.trans htotal.le) fun h => absurd (hy.symm.trans h) (by decide)
    rw [if_neg (not_not.mpr (hs.status.trans hy))]
    exact hfg hs htotal
  · rw [if_pos hy] at htotal ⊢
    have hs := hxy htotal.le fun _ => htotal
    rw [if_pos (hs.status.trans_ne hy)]
    exact hs

end Supply

end Ath6kl.RxSupply
