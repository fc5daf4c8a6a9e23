import Ath6kl.Lib.Machine

/-! Remain-on-channel on one interface: the three operations that hold `ar->sem` in turn
(`cfg80211.c`), the two events of the target (`wmi.c`), and the target itself, which answers the
commands in their order. The operation and the event handler take their steps in any
interleaving. -/
namespace Ath6kl.RemainOnChannel

abbrev Cookie := UInt32

/-- `ATH6KL_ROC_MAX_PERIOD * 1000`. -/
def rocMaxPeriod : Nat := 5000

/-- A command on its way to the target. The cookie of a request is history. -/
inductive Cmd
  | roc (cookie : Cookie)
  | cancel
deriving DecidableEq

/-- A notification to cfg80211. The `cause` of an end is history: the request whose channel period
ended or that the target rejected. -/
inductive Report
  | ready (cookie : Cookie)
  | expired (cookie : Cookie) (cause : Option Cookie)
deriving DecidableEq

/-- What a cancel event answers: a channel period that ended, a rejected request, or a cancel
command without a request to cancel. -/
inductive Cause
  | stop (cookie : Cookie)
  | reject (cookie : Cookie)
  | fail

def Cause.request : Cause → Option Cookie
  | .stop k | .reject k => some k
  | .fail => none

/-- `ev->status != 0`. -/
def Cause.status : Cause → Bool
  | .stop _ => false
  | _ => true

/-- Where the operation that holds `ar->sem` stands. -/
inductive Pc
  | idle
  | rocStart (duration : Nat)
  | rocTestPend (duration : Nat)
  | rocTestOngoing (duration : Nat)
  | rocSetWait (duration : Nat)
  | rocWait (duration : Nat)
  | rocWaitOver (duration : Nat)
  | rocIssue (duration : Nat)
  | rocPend (duration : Nat)
  | rocSend
  | cancelTestPend (cookie : Cookie)
  | cancelSetWait (cookie : Cookie)
  | cancelWait (cookie : Cookie)
  | cancelWaitOver
  | cancelTake (cookie : Cookie)
  | cancelSend
  | scanTestCancel
  | scanWaitCancel
  | scanTestOngoing
  | scanSetCancel
  | scanSend
  | scanFailed
  | scanWait
  | scanWaitOver

/-- Where the event handler stands; `id` is its local variable. -/
inductive Hpc
  | idle
  | startRead (k : Cookie)
  | startClear (k id : Cookie)
  | startSet (k id : Cookie)
  | startReport (k id : Cookie)
  | startWake
  | test (c : Cause) (chan : Bool)
  | rejectReady (c : Cause)
  | rejectExpired (c : Cause)
  | rejectCancelId
  | rejectClear
  | endUnknown
  | endRead (c : Cause)
  | endClear (c : Cause) (id : Cookie)
  | endReport (c : Cause) (id : Cookie)

/-- The fields of `struct ath6kl_vif` and its flags `ROC_PEND`, `ROC_ONGOING`,
`ROC_CANCEL_PEND` and `ROC_WAIT_EVENT`; the commands without a complete answer, and whether the
first of them is a request on the channel. -/
structure Roc where
  lastRocId : Cookie := 0
  lastCancelRocId : Cookie := 0
  lastRocDuration : Nat := 0
  pend : Bool := false
  ongoing : Bool := false
  cancelPend : Bool := false
  waitEvent : Bool := false
  pc : Pc := .idle
  hpc : Hpc := .idle
  wire : List Cmd := []
  started : Bool := false
  log : List Report := []

/-- How `wait_event_interruptible_timeout` returns. -/
inductive Wake
  | done
  | timeout
  | signal

/-- What an operation's step cannot decide: whether a scan makes it wait, how a wait returns, whether
a signal is pending then, and whether a command reaches the target. -/
structure Choice where
  scanning : Bool := false
  wake : Wake := .done
  signal : Bool := false
  sent : Bool := true

def Roc.goto (s : Roc) (pc : Pc) : Roc := { s with pc := pc }

def Roc.send (s : Roc) (c : Choice) (cmd : Cmd) : Roc :=
  if c.sent then { s with wire := s.wire ++ [cmd] } else s

/-- `++vif->last_roc_id`, without 0. -/
def nextCookie (id : Cookie) : Cookie := if id + 1 = 0 then 1 else id + 1

/-- The next step of the operation. A wait goes on until its condition holds or it is over. -/
def opStep (s : Roc) (c : Choice) : Roc :=
  match s.pc with
  | .idle => s
  | .rocStart d => s.goto (if c.scanning ∧ c.signal then .idle else .rocTestPend d)
  | .rocTestPend d => s.goto (if s.pend then .idle else .rocTestOngoing d)
  | .rocTestOngoing d => s.goto (if s.ongoing then .rocSetWait d else .rocIssue d)
  | .rocSetWait d => { s with waitEvent := true, pc := .rocWait d }
  | .rocWait d => match c.wake with
    | .done => if s.ongoing then s else s.goto (if c.signal then .idle else .rocIssue d)
    | .timeout =>
      if s.ongoing then { s with waitEvent := false, pc := .rocWaitOver d } else s
    | .signal => s.goto .idle
  | .rocWaitOver d =>
    { s with ongoing := false, pc := if c.signal then .idle else .rocIssue d }
  | .rocIssue d => { s with lastRocId := nextCookie s.lastRocId, pc := .rocPend d }
  | .rocPend d => { s with lastRocDuration := d, pend := true, pc := .rocSend }
  | .rocSend => (s.send c (.roc s.lastRocId)).goto .idle
  | .cancelTestPend k => s.goto (if s.pend then .cancelSetWait k else .cancelTake k)
  | .cancelSetWait k => { s with waitEvent := true, pc := .cancelWait k }
  | .cancelWait k => match c.wake with
    | .done => if s.ongoing then s.goto (if c.signal then .idle else .cancelTake k) else s
    | .timeout => if s.ongoing then s else { s with waitEvent := false, pc := .cancelWaitOver }
    | .signal => s.goto .idle
  | .cancelWaitOver => { s with pend := false, pc := .idle }
  | .cancelTake k =>
    if k ≠ s.lastRocId then s.goto .idle
    else { s with lastCancelRocId := k, cancelPend := true, pc := .cancelSend }
  | .cancelSend => (s.send c .cancel).goto .idle
  | .scanTestCancel => s.goto (if s.cancelPend then .scanWaitCancel else .scanTestOngoing)
  | .scanWaitCancel => match c.wake with
    | .done => if s.ongoing then s else s.goto (if c.signal then .idle else .scanTestOngoing)
    | _ => s.goto (if c.signal then .idle else .scanTestOngoing)
  | .scanTestOngoing => s.goto (if s.ongoing then .scanSetCancel else .idle)
  | .scanSetCancel => { s with cancelPend := true, pc := .scanSend }
  | .scanSend => (s.send c .cancel).goto (if c.sent then .scanWait else .scanFailed)
  | .scanFailed => { s with cancelPend := false, pc := .idle }
  | .scanWait => match c.wake with
    | .done => if s.ongoing then s else s.goto .idle
    | .timeout => if s.ongoing then { s with cancelPend := false, pc := .scanWaitOver } else s
    | .signal => s.goto .idle
  | .scanWaitOver => { s with ongoing := false, pc := .idle }

/-- The cookie that an end event is taken to be about. -/
def endCookie (lastRocId lastCancelRocId : Cookie) : Cookie :=
  if lastCancelRocId ≠ 0 ∧ lastCancelRocId + 1 = lastRocId then lastCancelRocId else lastRocId

def Roc.hgoto (s : Roc) (hpc : Hpc) : Roc := { s with hpc := hpc }

/-- The next step of `ath6kl_wmi_remain_on_chnl_event_rx` or
`ath6kl_wmi_cancel_remain_on_chnl_event_rx`. -/
def handlerStep (s : Roc) : Roc :=
  match s.hpc with
  | .idle => s
  | .startRead k => s.hgoto (.startClear k s.lastRocId)
  | .startClear k id => { s with pend := false, hpc := .startSet k id }
  | .startSet k id => { s with ongoing := true, hpc := .startReport k id }
  | .startReport _ id =>
    { s with
      log := if id = s.lastCancelRocId then s.log else s.log ++ [.ready id]
      hpc := .startWake }
  | .startWake => { s with waitEvent := false, hpc := .idle }
  | .test c chan =>
    s.hgoto (if c.status ∧ s.pend then .rejectReady c
      else if chan then .endRead c else .endUnknown)
  | .rejectReady c =>
    { s with
      log := if s.lastRocDuration = rocMaxPeriod then s.log ++ [.ready s.lastRocId] else s.log
      hpc := .rejectExpired c }
  | .rejectExpired c =>
    { s with log := s.log ++ [.expired s.lastRocId c.request], hpc := .rejectCancelId }
  | .rejectCancelId => { s with lastCancelRocId := 0, hpc := .rejectClear }
  | .rejectClear => { s with pend := false, hpc := .idle }
  | .endUnknown => { s with lastCancelRocId := 0, hpc := .idle }
  | .endRead c =>
    { s with
      lastCancelRocId := 0
      hpc := .endClear c (endCookie s.lastRocId s.lastCancelRocId) }
  | .endClear c id => { s with ongoing := false, hpc := .endReport c id }
  | .endReport c id =>
    { s with
      log := s.log ++ [.expired id c.request]
      cancelPend := false
      waitEvent := if s.cancelPend then s.waitEvent else false
      hpc := .idle }

inductive Op
  | remainOnChannel (duration : Nat)
  | cancelRemainOnChannel (cookie : Cookie)
  | scan

def Op.entry : Op → Pc
  | .remainOnChannel d => .rocStart d
  | .cancelRemainOnChannel k => .cancelTestPend k
  | .scan => .scanTestCancel

/-- An answer of the target; `chan` tells whether its frequency is that of a known channel. -/
inductive Answer
  | start (chan : Bool)
  | reject (chan : Bool)
  | stop (chan : Bool)
  | cancelled (chan : Bool)
  | fail (chan : Bool)

/-- The next event, if it is one the target can send: it answers the first command. A cancel command
behind a request on the channel may end it, or find it gone. -/
def deliver (s : Roc) (a : Answer) : Roc :=
  match s.started, s.wire, a with
  | false, .roc k::_, .start chan =>
    { s with started := true, hpc := if chan then .startRead k else .idle }
  | false, .roc k::w, .reject chan => { s with wire := w, hpc := .test (.reject k) chan }
  | true, .roc k::w, .stop chan =>
    { s with wire := w, started := false, hpc := .test (.stop k) chan }
  | true, .roc k::.cancel::w, .cancelled chan =>
    { s with wire := w, started := false, hpc := .test (.stop k) chan }
  | false, .cancel::w, .fail chan => { s with wire := w, hpc := .test .fail chan }
  | _, _, _ => s

inductive Event
  | op (o : Op)
  | thread (c : Choice)
  | deliver (a : Answer)
  | handler

/-- One operation at a time, and one event at a time. -/
def step (s : Roc) : Event → Roc
  | .op o => match s.pc with
    | .idle => s.goto o.entry
    | _ => s
  | .thread c => opStep s c
  | .deliver a => match s.hpc with
    | .idle => deliver s a
    | _ => s
  | .handler => handlerStep s

end Ath6kl.RemainOnChannel
