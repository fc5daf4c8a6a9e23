import Ath6kl.EthFrame
import Ath6kl.Lib.Machine

/-! The management frames under way to the target: `mgmt_tx_frame_list`, which all interfaces
share, and the reports to cfg80211 (`wmi.c`). -/
namespace Ath6kl.MgmtTx
open EthFrame

def wmiTxMgmtRetryMax : Nat := 3

/-- `struct wmi_mgmt_tx_frame`. `seq` is history: the number of the submission. -/
structure Frame where
  seq : Nat
  vif : Nat
  idx : UInt32
  freq : UInt32
  data : Bytes
  retry : Nat

/-- A call of `cfg80211_mgmt_tx_status` for the interface `ndev`. -/
structure Report where
  seq : Nat
  ndev : Nat
  cookie : UInt32
  data : Bytes
  ack : Bool
deriving DecidableEq

/-- A call of `ath6kl_wmi_send_action_cmd` that returned. -/
structure Submission where
  vif : Nat
  action : Bool
  ret : Int
deriving DecidableEq

/-- `subs`, `reports`, `sent` and `freed` are history; `sent` has the submission of every frame
given to `ath6kl_wmi_cmd_send`, `freed` that of every frame given to `kfree`. -/
structure Wmi where
  p2p : Bool
  p2pFrameRetry : Bool
  mgmtTxFrameList : List Frame := []
  subs : List Submission := []
  reports : List Report := []
  sent : List Nat := []
  freed : List Nat := []

/-- Which allocations succeed, and what `ath6kl_wmi_cmd_send` returns. -/
structure Env where
  buf : Bool := true
  frame : Bool := true
  skb : Bool := true
  send : Int := 0

def einval : Int := -22
def enomem : Int := -12

def isAction (data : Bytes) : Bool := data.getD 0 0 &&& 0xfc = 0xd0

/-- `ath6kl_p2p_frame_retry`: a GO Negotiation Confirmation. -/
def p2pFrameRetry (s : Wmi) (frm : Bytes) (len : Int) : Bool :=
  s.p2pFrameRetry && decide (8 ≤ len) && (frm.take 7 = [4, 9, 0x50, 0x6f, 0x9a, 9, 2])

/-- The frame that `ath6kl_wmi_send_action_cmd` lists. -/
def newFrame (s : Wmi) (vif : Nat) (id freq : UInt32) (data : Bytes) : Frame where
  seq := s.subs.length
  vif := vif
  idx := id
  freq := freq
  data := data
  retry := if p2pFrameRetry s (data.drop 24) (data.length - 24) then wmiTxMgmtRetryMax else 0

def sendActionCmd (s : Wmi) (vif : Nat) (id freq wait : UInt32) (data : Bytes) (env : Env) :
    Wmi × Int :=
  if wait ≠ 0 then (s, einval)
  else if s.p2p ∧ isAction data then
    if !env.buf ∨ !env.frame then (s, enomem)
    else
      let f := newFrame s vif id freq data
      if !env.skb then ({ s with freed := s.freed ++ [f.seq] }, enomem)
      else ({ s with
        mgmtTxFrameList := s.mgmtTxFrameList ++ [f]
        sent := s.sent ++ [f.seq] }, env.send)
  else if !env.skb then (s, enomem)
  else ({ s with sent := s.sent ++ [s.subs.length] }, env.send)

/-- `ath6kl_wmi_resend_action_cmd`; the frame is listed before its command is sent. -/
def resendActionCmd (s : Wmi) (f : Frame) (env : Env) : Wmi × Int :=
  if !env.skb then (s, enomem)
  else ({ s with
    mgmtTxFrameList := s.mgmtTxFrameList ++ [{ f with retry := f.retry - 1 }]
    sent := s.sent ++ [f.seq] }, env.send)

/-- The report on the interface `ndev`, and the `kfree` of the frame. -/
def mgmtTxStatus (s : Wmi) (ndev : Nat) (f : Frame) (ack : Bool) : Wmi :=
  { s with
    reports := s.reports ++
      [{ seq := f.seq, ndev := ndev, cookie := f.idx, data := f.data, ack := ack }]
    freed := s.freed ++ [f.seq] }

/-- `ath6kl_wmi_tx_status_event_rx` for an event of the interface `vif`. -/
def txStatusEvent (s : Wmi) (vif : Nat) (id : UInt32) (ackStatus : UInt8) (env : Env) : Wmi :=
  match s.mgmtTxFrameList.find? fun f => f.idx = id with
  | none => s
  | some f =>
    let s := { s with mgmtTxFrameList := s.mgmtTxFrameList.eraseP fun f => f.idx = id }
    if ackStatus = 0 ∧ f.retry ≠ 0 then
      let (s, ret) := resendActionCmd s f env
      if ret = 0 then s else mgmtTxStatus s vif f (ackStatus != 0)
    else mgmtTxStatus s vif f (ackStatus != 0)

/-- The channel of the interface is closed: `ath6kl_wmi_cancel_remain_on_chnl_event_rx` reports what
has no status yet. -/
def flushFrames (s : Wmi) (vif : Nat) : Wmi :=
  (s.mgmtTxFrameList.filter fun f => f.vif = vif).foldl (fun s f => mgmtTxStatus s vif f false)
    { s with mgmtTxFrameList := s.mgmtTxFrameList.filter fun f => f.vif ≠ vif }

inductive Event
  | sendAction (vif : Nat) (id freq wait : UInt32) (data : Bytes) (env : Env)
  | txStatus (vif : Nat) (id : UInt32) (ackStatus : UInt8) (env : Env)
  | channelClosed (vif : Nat)

/-- A listed frame was freed: what the list holds is not known any more. -/
def Wmi.dangling (s : Wmi) : Bool := s.mgmtTxFrameList.any fun f => s.freed.contains f.seq

def submit (s : Wmi) (vif : Nat) (id freq wait : UInt32) (data : Bytes) (env : Env) : Wmi :=
  let (t, ret) := sendActionCmd s vif id freq wait data env
  { t with subs := s.subs ++ [{ vif := vif, action := isAction data, ret := ret }] }

def step (s : Wmi) (e : Event) : Wmi :=
  if s.dangling then s
  else match e with
    | .sendAction vif id freq wait data env => submit s vif id freq wait data env
    | .txStatus vif id ackStatus env => txStatusEvent s vif id ackStatus env
    | .channelClosed vif => flushFrames s vif

end Ath6kl.MgmtTx
