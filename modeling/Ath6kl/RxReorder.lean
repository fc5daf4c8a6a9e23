import Ath6kl.EthFrame
import Ath6kl.Lib.Machine
import Ath6kl.Lib.SeqSpace

/-! The receive reorder buffer of one TID (`txrx.c`): `aggr_deque_frms`,
`aggr_process_recv_frm`, `aggr_timeout` and the ADDBA/DELBA handling.
`adv`, `arrived` and `delivered` are history, read by no branch. -/
namespace Ath6kl.RxReorder
open EthFrame Lib.SeqSpace

def ath6klMaxSeqNo : Nat := 0xFFF
def ath6klMaxWaitContinuousPkt : Nat := 3

/-- `x & ATH6KL_MAX_SEQ_NO`. -/
def seqMask (x : Int) : Nat := mask 4096 x
def ath6klNextSeqNo (x : Nat) : Nat := seqMask ((x:Int)+1)
def aggrWinIdx (x y : Nat) : Nat := x % y
def tidWindowSz (x : Nat) : Nat := 2*x

/-- `struct skb_hold_q` with a frame in it. `bufs` is the number of free buffers
slicing will find, `id` counts the frames taken. -/
structure HoldQ where
  skb : Skb
  isAmsdu : Bool
  seqNo : Nat
  bufs : Nat
  id : Nat

/-- A buffer handed to `ath6kl_deliver_frames_to_nw_stack`: its content, and of the
MPDU it came from the unwrapped sequence number, the sequence number, the number
and the position inside the A-MSDU. -/
structure Delivery where
  unwrapped : Nat
  seqNo : Nat
  id : Nat
  sub : Nat
  frame : Bytes

structure Rxtid where
  aggr : Bool := false
  winSz : Nat := 0
  seqNext : Nat := 0
  holdQSz : Nat := 0
  holdQ : Nat → Option HoldQ := fun _ => none
  q : List Delivery := []
  timerwaitSeqNum : Nat := 0
  syncNextSeq : Bool := false
  /-- the kernel timer: pending with this timeout in ms -/
  tidTimer : Option Nat := none
  tidTimerScheduled : Bool := false
  issueTimerSeq : Nat := 0
  continuousCount : Nat := 0
  tidTimeoutSetting : Nat := 100
  /-- a handler is caught in a loop that never ends -/
  hung : Bool := false
  adv : Nat := 0
  arrived : Nat := 0
  delivered : List Delivery := []

/-- Every assignment to `seq_next`; `adv` sums up how far it moved forward. -/
def Rxtid.setSeqNext (r : Rxtid) (v : Nat) : Rxtid :=
  { r with seqNext := v, adv := r.adv + fwd 4096 r.seqNext v }

/-- The place of a sequence number in the order given by the advance of `seq_next`. -/
def Rxtid.unwrap (r : Rxtid) (seqNo : Nat) : Nat := r.adv + fwd 4096 r.seqNext seqNo

/-- What one held frame puts on `rxtid->q`: itself, or its subframes. -/
def HoldQ.frames (n : HoldQ) : List Bytes :=
  if n.isAmsdu then aggrSliceAmsdu n.bufs n.skb else [n.skb.data]

def HoldQ.deliveries (n : HoldQ) (unwrapped : Nat) : List Delivery :=
  n.frames.zipIdx.map fun (f,i) => ⟨unwrapped, n.seqNo, n.id, i, f⟩

/-- One turn of the do-while loop of `aggr_deque_frms` past its break. -/
def dequeStep (r : Rxtid) : Rxtid :=
  let idx := aggrWinIdx r.seqNext r.holdQSz
  let r := match r.holdQ idx with
    | some node => { r with q := r.q ++ node.deliveries (r.unwrap node.seqNo)
                            holdQ := Function.update r.holdQ idx none }
    | none => r
  r.setSeqNext (ath6klNextSeqNo r.seqNext)

/-- The do-while loop; the fuel is one lap of the sequence numbers. -/
def dequeLoop (idxEnd order : Nat) : Nat → Rxtid → Rxtid
  | 0, r => r
  | fuel+1, r =>
    if order = 1 ∧ (r.holdQ (aggrWinIdx r.seqNext r.holdQSz)).isNone then r
    else
      let r := dequeStep r
      if aggrWinIdx r.seqNext r.holdQSz ≠ idxEnd then dequeLoop idxEnd order fuel r else r

/-- Hand everything on `rxtid->q` to the network stack. -/
def Rxtid.deliverQ (r : Rxtid) : Rxtid := { r with delivered := r.delivered ++ r.q, q := [] }

def aggrDequeFrms (r : Rxtid) (seqNo order : Nat) : Rxtid :=
  let seqEnd := if seqNo ≠ 0 then seqNo else r.seqNext
  let idxEnd := aggrWinIdx seqEnd r.holdQSz
  (dequeLoop idxEnd order 4096 r).deliverQ

/-- The window test on `cur`, written once for both windows. -/
def outside (st fin cur : Nat) : Bool :=
  (st < fin && (cur < st || cur > fin)) || (st > fin && cur > fin && cur < st)

/-- The window handling of `aggr_process_recv_frm`, with its `drop_it`. -/
def moveWindow (r : Rxtid) (cur : Nat) : Rxtid × Bool :=
  let st := r.seqNext
  let fin := seqMask ((st:Int) + r.holdQSz - 1)
  if outside st fin cur then
    let extendedEnd := seqMask ((fin:Int) + r.holdQSz)
    if outside fin extendedEnd cur then
      let rangeVal := seqMask ((cur:Int) - st)
      if 2*r.holdQSz ≤ rangeVal ∧ rangeVal ≤ ath6klMaxSeqNo - 2*r.holdQSz + 1 then
        -- chase seq
        let r := aggrDequeFrms r 0 0
        (r.setSeqNext (seqMask ((cur:Int) - r.holdQSz)), true)
      else (r, true)
    else
      -- dequeue only the frames that are outside the new shifted window
      (aggrDequeFrms r (seqMask ((cur:Int) - (r.holdQSz - 1))) 0, false)
  else (r, false)

/-- The first occupied slot below `bound`. -/
def firstHeld (r : Rxtid) (bound : Nat) : Option HoldQ :=
  (List.range bound).findSome? r.holdQ

/-- The timer handling at the end of `aggr_process_recv_frm`. -/
def recvArmTimer (r : Rxtid) : Rxtid :=
  let r := if r.tidTimerScheduled ∧ r.timerwaitSeqNum ≠ r.seqNext then
      { r with tidTimer := none, tidTimerScheduled := false, continuousCount := 0 }
    else r
  if r.tidTimerScheduled then r
  else match firstHeld r r.holdQSz with
    | some node => { r with issueTimerSeq := node.seqNo
                            tidTimerScheduled := true
                            timerwaitSeqNum := r.seqNext
                            continuousCount := (r.continuousCount+1) % 256
                            tidTimer := some r.tidTimeoutSetting }
    | none => r

/-- A received frame as `ath6kl_rx` hands it on: a 12-bit sequence number. -/
structure RecvFrm where
  seqNo : Fin 4096
  isAmsdu : Bool
  frame : Skb
  bufs : Nat

def RecvFrm.node (f : RecvFrm) (id : Nat) : HoldQ :=
  ⟨f.frame, f.isAmsdu, f.seqNo, f.bufs, id⟩

/-- The first frame after the session opened sets `seq_next`. -/
def Rxtid.syncSeqNext (r : Rxtid) (seqNo : Nat) : Rxtid :=
  if r.syncNextSeq then { r.setSeqNext seqNo with syncNextSeq := false } else r

/-- Put the frame in its slot; one already there is freed as a duplicate. -/
def Rxtid.holdFrm (r : Rxtid) (f : RecvFrm) : Rxtid :=
  { r with holdQ := Function.update r.holdQ (aggrWinIdx f.seqNo r.holdQSz)
                      (some (f.node r.arrived))
           arrived := r.arrived+1 }

/-- `aggr_process_recv_frm`; the flag is `ATH6KL_CONF_DISABLE_RX_AGGR_DROP`, the
answer `is_queued`. -/
def aggrProcessRecvFrm (disableRxAggrDrop : Bool) (r : Rxtid) (f : RecvFrm) : Rxtid × Bool :=
  if !r.aggr then
    if f.isAmsdu then
      let node := f.node r.arrived
      ({ r with q := r.q ++ node.deliveries (r.unwrap f.seqNo), arrived := r.arrived+1 }.deliverQ,
        true)
    else (r, false)
  else
    let (r, dropIt) := moveWindow (r.syncSeqNext f.seqNo) f.seqNo
    if dropIt ∧ !disableRxAggrDrop then (r, true)
    else (recvArmTimer (aggrDequeFrms (r.holdFrm f) 0 1), true)

/-- The catch-up of `aggr_timeout` when `seq_next` did not move since the timer. -/
def timeoutDeque (r : Rxtid) : Rxtid :=
  let next := seqMask ((r.timerwaitSeqNum:Int)+1)
  let r := aggrDequeFrms r next 0
  -- inorder packet that after time-out packet
  let r := aggrDequeFrms r 0 1
  if r.seqNext = next then
    if r.continuousCount ≥ ath6klMaxWaitContinuousPkt then
      let r := aggrDequeFrms r (seqMask ((r.issueTimerSeq:Int)+1)) 0
      { aggrDequeFrms r 0 1 with continuousCount := 0 }
    else r
  else { r with continuousCount := 0 }

/-- The scan of `aggr_timeout` for a held frame. Its index is a `u8`, so a longer
queue with nothing in its first 256 slots is scanned for ever. -/
def timeoutScan (r : Rxtid) : Rxtid :=
  match firstHeld r (min r.holdQSz 256) with
  | some node => { r with issueTimerSeq := node.seqNo
                          timerwaitSeqNum := r.seqNext
                          tidTimerScheduled := true
                          continuousCount := (r.continuousCount+1) % 256 }
  | none => { r with hung := 256 ≤ r.holdQSz }

/-- The end of `aggr_timeout`: the next timeout and the timer. -/
def timeoutRearm (r : Rxtid) : Rxtid :=
  let tidNextTimeout :=
    if 1 < r.continuousCount ∧ r.continuousCount ≤ ath6klMaxWaitContinuousPkt then
      r.tidTimeoutSetting / ((r.continuousCount-1)*2)
    else r.tidTimeoutSetting
  let r := if r.continuousCount > ath6klMaxWaitContinuousPkt then
      { r with continuousCount := 0 } else r
  if r.tidTimerScheduled then { r with tidTimer := some tidNextTimeout } else r

def aggrTimeout (r : Rxtid) : Rxtid :=
  if !r.aggr ∨ !r.tidTimerScheduled then r
  else
    let r := if r.timerwaitSeqNum = r.seqNext then timeoutDeque r else r
    timeoutRearm (timeoutScan { r with tidTimerScheduled := false })

def aggrDeleteTidState (r : Rxtid) : Rxtid :=
  let r := if r.aggr then aggrDequeFrms r 0 0 else r
  -- the timer and its flag stay as they are
  { r with aggr := false, winSz := 0, holdQSz := 0, holdQ := fun _ => none }.setSeqNext 0

/-- `aggr_recv_addba_req_evt` for this TID; `alloc` tells whether `kzalloc` succeeds. -/
def aggrRecvAddbaReqEvt (r : Rxtid) (seqNo winSz : Nat) (alloc : Bool) : Rxtid :=
  let r := if r.aggr then aggrDeleteTidState r else r
  let r := { r.setSeqNext seqNo with holdQ := fun _ => none }
  if !alloc then r
  else
    let r := { r with winSz := winSz, holdQSz := tidWindowSz winSz }
    if !r.q.isEmpty then r
    else { r with aggr := true, syncNextSeq := true }

/-- What can happen to the TID while its session stays open. -/
inductive Event where
  | recv (f : RecvFrm)
  | timeout

/-- One event. An expiring timer is no longer pending when its handler runs. -/
def step (disableRxAggrDrop : Bool) (r : Rxtid) : Event → Rxtid
  | .recv f => if r.hung then r else (aggrProcessRecvFrm disableRxAggrDrop r f).1
  | .timeout => if r.hung then r else aggrTimeout { r with tidTimer := none }

/-- The session `aggr_recv_addba_req_evt` opens, its history started afresh. -/
def openSession (r : Rxtid) (seqNo winSz : Nat) : Rxtid :=
  { aggrRecvAddbaReqEvt r seqNo winSz true with adv := 0, arrived := 0, delivered := [] }

end Ath6kl.RxReorder
