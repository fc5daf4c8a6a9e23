import Ath6kl.RxReorderOrder

/-! One TID across ADDBA and DELBA (`txrx.c`): sessions of any announced window open and
close between the frames and timer expiries. `down` is a division by a zero
`hold_q_sz`. -/
namespace Ath6kl.RxReorder
open EthFrame Lib.SeqSpace Lib.Machine

structure Tid where
  r : Rxtid
  down : Bool := false

/-- `aggr_init_conn` for this TID. -/
def aggrInitConn (tidTimeoutSetting : Nat) : Tid := ⟨{ tidTimeoutSetting }, false⟩

inductive TidEvent where
  /-- `alloc` tells whether `kzalloc` succeeds -/
  | addbaReq (seqNo : Fin 65536) (winSz : Fin 256) (alloc : Bool)
  /-- `aggr_recv_delba_req_evt` from the recipient's side -/
  | delbaReq
  /-- `aggr_reset_state` -/
  | resetState
  | recv (f : RecvFrm)
  /-- the TID timer expires -/
  | timeout

/-- With `hold_q_sz` 0 an open session divides by zero as soon as `AGGR_WIN_IDX` is
evaluated: in `aggr_deque_frms` and before a frame is stored. -/
def faults (r : Rxtid) : TidEvent → Bool
  | .timeout => r.tidTimer.isSome && r.aggr && r.holdQSz == 0 && r.tidTimerScheduled &&
      r.timerwaitSeqNum == r.seqNext
  | _ => r.aggr && r.holdQSz == 0

/-- The handlers. A pending timer is no longer pending when its handler runs. -/
def handle (disableRxAggrDrop : Bool) (r : Rxtid) : TidEvent → Rxtid
  | .addbaReq seqNo winSz alloc => aggrRecvAddbaReqEvt r seqNo winSz alloc
  | .delbaReq => if r.aggr then aggrDeleteTidState r else r
  | .resetState => aggrDeleteTidState r
  | .recv f => (aggrProcessRecvFrm disableRxAggrDrop r f).1
  | .timeout => if r.tidTimer.isSome then aggrTimeout { r with tidTimer := none } else r

/-- No handler is caught in a loop and none has faulted. -/
def Tid.Up (t : Tid) : Prop := t.r.hung = false ∧ t.down = false

instance (t : Tid) : Decidable t.Up := inferInstanceAs (Decidable (_ ∧ _))

def tidStep (disableRxAggrDrop : Bool) (t : Tid) (e : TidEvent) : Tid :=
  if t.Up then
    if faults t.r e then { t with down := true } else { t with r := handle disableRxAggrDrop t.r e }
  else t

end Ath6kl.RxReorder
