import Ath6kl.Htc
import Ath6kl.Lib.Ledger
import Ath6kl.Lib.Machine

/-! The transmit path of HTC over the USB pipes (`htc_pipe.c`): credits, the send queue
of each endpoint, the packets the HIF holds, and their completion. What the HIF and the
`tx_full` callback answer comes with each event. -/
namespace Ath6kl.HtcPipe
open Htc

def htcHostMaxMsgPerBundle : Nat := 8
/-- `-ENOMEM`. -/
def enomem : Int := -12

/-- `struct htc_packet`; `id` tells the packets apart. -/
structure HtcPacket where
  id : Nat
  actLen : Nat
  credUsed : Nat := 0
  needCreditUpdate : Bool := false
  seqno : Nat := 0
deriving DecidableEq

/-- `struct htc_endpoint`. -/
structure Endpoint where
  svcId : Nat
  pipeidUl : Nat
  maxTxqDepth : Nat
  hasTxFull : Bool := true
  txCreditFlowEnabled : Bool := true
  credPerMsg : Int := 1
  credits : Int := 0
  txq : List HtcPacket := []
  txLookupQueue : List HtcPacket := []
  seqno : Nat := 0
  starving : Bool := false
  timerInit : Bool := false
  callByTimer : Bool := false
  passTh : Bool := false
  txIssued : Nat := 0

structure Config where
  htcBundleSend : Bool := false
  htcBundleSendTimer : Nat := 0
  htcBundleSendTh : Nat := 0
  singlePipeSched : Bool := false
  starvingPrevention : Bool := false
  tgtCredSz : Nat

/-- One call of `htc_issue_packets`: its queue and what the HIF is going to answer. -/
structure IssueCall where
  eid : Eid
  bundled : Bool
  queue : List HtcPacket
  answers : List Int

/-- What the surroundings of one event answer: the status of each HIF submission, each
free queue number, whether `tx_full` drops a packet, the size of the HIF queue, and
whether the endpoint last sent more than an eighth of a second ago. -/
structure Answers where
  sends : List Int := []
  free : List Nat := []
  fullDrop : Nat → Bool := fun _ => true
  maxQueue : Nat := 0
  longAgo : Bool := false

/-- `struct htc_target`. From `nextId` on the fields are history. -/
structure HtcTarget where
  endpoint : Eid → Endpoint
  availTxCredits : Int
  ctlEpWdTimer : Bool := false
  env : Answers := {}
  nextId : Nat := 0
  completed : List (HtcPacket × Int) := []
  dropAsked : List Nat := []
  refused : List Nat := []
  accepted : List Nat := []
  /-- credits of the data packets the HIF took, less those reported back -/
  uncredited : Int := 0
  issued : List IssueCall := []
  /-- the bundle timer divided by zero, and nothing runs any more -/
  trapped : Bool := false

variable (c : Config)

def HtcTarget.put (t : HtcTarget) (e : Eid) (ep : Endpoint) : HtcTarget :=
  { t with endpoint := Function.update t.endpoint e ep }

/-- The endpoints that share `avail_tx_credits`. -/
def isData (e : Eid) : Bool := 2 ≤ e && e ≤ 5

def ids (q : List HtcPacket) : List Nat := q.map HtcPacket.id

def credSum (q : List HtcPacket) : Nat := (q.map HtcPacket.credUsed).sum

/-- `send_packet_completion` for each packet of a list. -/
def sendPacketCompletion (t : HtcTarget) (q : List HtcPacket) (status : Int) : HtcTarget :=
  { t with completed := t.completed ++ q.map fun p => (p, status) }

def creditsRequired (len : Nat) : Nat :=
  let transferLen := len + htcHdrLength
  if transferLen ≤ c.tgtCredSz then 1
  else transferLen / c.tgtCredSz + if transferLen % c.tgtCredSz = 0 then 0 else 1

/-- Take the head packet off `txq`, as the end of `get_htc_packet_credit_based` and the
loop of `get_htc_packet` do. -/
def takePacket (t : HtcTarget) (e : Eid) (credUsed : Nat) (needCreditUpdate : Bool)
    (p : HtcPacket) (rest : List HtcPacket) : HtcTarget × HtcPacket :=
  let ep := t.endpoint e
  (t.put e { ep with txq := rest, seqno := ep.seqno+1 },
    { p with credUsed := credUsed, needCreditUpdate := needCreditUpdate, seqno := ep.seqno })

/-- The debit in `get_htc_packet_credit_based`: the credits taken and whether the target
is asked for more, or nothing when the walk ends here. -/
def debit (t : HtcTarget) (e : Eid) (limit req : Nat) : HtcTarget × Option (Nat × Bool) :=
  let ep := t.endpoint e
  if e = 0 then (t, some (0, false))
  else if isData e then
    if t.availTxCredits < req then (t, none)
    else if c.htcBundleSend ∧ limit = 0 then (t, none)
    else
      let t := { t.put e { ep with starving := false } with
        availTxCredits := t.availTxCredits - req }
      (t, some (req, t.availTxCredits < 1))
  else
    if ep.credits < req then (if e = 1 then { t with ctlEpWdTimer := true } else t, none)
    else if c.htcBundleSend ∧ limit = 0 then (t, none)
    else
      (t.put e { ep with credits := ep.credits - req },
        some (req, ep.credits - req < ep.credPerMsg))

/-- The loop of `get_htc_packet_credit_based` over the packets of `txq`. -/
def getCreditLoop (e : Eid) (starving : Bool) :
    Nat → List HtcPacket → HtcTarget → HtcTarget × List HtcPacket
  | _, [], t => (t, [])
  | limit, p::rest, t =>
    match debit c t e limit (creditsRequired c p.actLen) with
    | (t, none) => (t, [])
    | (t, some (req, need)) =>
      let (t, p) := takePacket t e req need p rest
      if starving then (t, [p])
      else
        let (t, q) := getCreditLoop e starving (limit-1) rest t
        (t, p::q)

def getHtcPacketCreditBased (t : HtcTarget) (e : Eid) : HtcTarget × List HtcPacket :=
  if c.tgtCredSz = 0 then (t, [])
  else
    let limit := if c.htcBundleSend then htcHostMaxMsgPerBundle else 1
    getCreditLoop c e (t.endpoint e).starving limit (t.endpoint e).txq t

/-- The loop of `get_htc_packet`. -/
def getLoop (e : Eid) : Nat → List HtcPacket → HtcTarget → HtcTarget × List HtcPacket
  | 0, _, t => (t, [])
  | _, [], t => (t, [])
  | limit+1, p::rest, t =>
    let (t, p) := takePacket t e 0 false p rest
    let (t, q) := getLoop e limit rest t
    (t, p::q)

def getHtcPacket (t : HtcTarget) (e : Eid) (resources : Nat) : HtcTarget × List HtcPacket :=
  if c.htcBundleSend ∧ resources = 0 then (t, [])
  else
    let limit := if c.htcBundleSend then htcHostMaxMsgPerBundle else resources
    getLoop e limit (t.endpoint e).txq t

/-- Credits for an endpoint outside the data pool; the control endpoint keeps one. -/
def giveCredits (t : HtcTarget) (e : Eid) (n : Nat) : HtcTarget :=
  let ep := t.endpoint e
  let credits := ep.credits + n
  if e = 1 ∧ credits ≥ 1 then
    { t.put e { ep with credits := min credits 1 } with ctlEpWdTimer := false }
  else t.put e { ep with credits := credits }

/-- The reclaim code of the failure exits of `htc_issue_packets`. -/
def reclaimCredits (t : HtcTarget) (e : Eid) (n : Nat) : HtcTarget :=
  if isData e then { t with availTxCredits := t.availTxCredits + n } else giveCredits t e n

def HtcTarget.hifSend (t : HtcTarget) : HtcTarget × Int :=
  ({ t with env := { t.env with sends := t.env.sends.tail } }, t.env.sends.headD 0)

/-- Put packets on the lookup queue that matches completions. -/
def storeLookup (t : HtcTarget) (e : Eid) (q : List HtcPacket) : HtcTarget :=
  let ep := t.endpoint e
  t.put e { ep with txLookupQueue := ep.txLookupQueue ++ q, txIssued := ep.txIssued + q.length }

def noteAccepted (t : HtcTarget) (e : Eid) (q : List HtcPacket) : HtcTarget :=
  { t with accepted := t.accepted ++ ids q
           uncredited := t.uncredited + if isData e then (credSum q : Int) else 0 }

def noteRefused (t : HtcTarget) (q : List HtcPacket) : HtcTarget :=
  { t with refused := t.refused ++ ids q }

/-- `htc_issue_packets` with bundling. A failed bundle stays on the lookup queue. -/
def issueBundle (t : HtcTarget) (e : Eid) (q : List HtcPacket) : HtcTarget :=
  let (t, status) := (storeLookup t e q).hifSend
  if status ≠ 0 then reclaimCredits (noteRefused t q) e (credSum q)
  else noteAccepted t e q

def dropLookup (t : HtcTarget) (e : Eid) (p : HtcPacket) : HtcTarget :=
  let ep := t.endpoint e
  t.put e { ep with txLookupQueue := ep.txLookupQueue.erase p }

/-- The failure exit for a packet sent on its own. -/
def refusePacket (t : HtcTarget) (e : Eid) (p : HtcPacket) : HtcTarget :=
  reclaimCredits (noteRefused (dropLookup t e p) [p]) e p.credUsed

/-- `htc_issue_packets` one packet at a time. A refused packet goes back to the head of
the queue and the whole queue is completed. -/
def issueSingle (e : Eid) : List HtcPacket → HtcTarget → HtcTarget
  | [], t => t
  | p::rest, t =>
    let (t, status) := (storeLookup t e [p]).hifSend
    if status ≠ 0 then sendPacketCompletion (refusePacket t e p) (p::rest) status
    else issueSingle e rest (noteAccepted t e [p])

def htcIssuePackets (t : HtcTarget) (e : Eid) (q : List HtcPacket) : HtcTarget :=
  let bundled := c.htcBundleSend && (t.endpoint e).pipeidUl != 0
  let t := { t with issued := t.issued ++ [⟨e, bundled, q, t.env.sends⟩] }
  if bundled then issueBundle t e q else issueSingle e q t

/-- `ath6kl_hif_pipe_get_free_queue_number`, asked only without credit flow. -/
def freeQueueNumber (t : HtcTarget) (e : Eid) : HtcTarget × Nat :=
  if (t.endpoint e).txCreditFlowEnabled then (t, 0)
  else ({ t with env := { t.env with free := t.env.free.tail } }, t.env.free.headD 0)

/-- The packets for one pass of the drain loop. -/
def getPackets (t : HtcTarget) (e : Eid) (resources : Nat) : HtcTarget × List HtcPacket :=
  if (t.endpoint e).txCreditFlowEnabled then getHtcPacketCreditBased c t e
  else getHtcPacket c t e resources

/-- The drain loop of `htc_try_send`; every pass takes a packet off `txq`. Handlers run one
at a time here, so `tx_proc_cnt` is always free. -/
def drain (e : Eid) (starving : Bool) : Nat → Nat → HtcTarget → HtcTarget
  | 0, _, t => t
  | fuel+1, resources, t =>
    if (t.endpoint e).txq.isEmpty then t
    else
      let (t, q) := getPackets c t e resources
      if q.isEmpty then t
      else
        let t := htcIssuePackets c t e q
        let (t, resources) := freeQueueNumber t e
        if starving then t else drain e starving fuel resources t

/-- `htc_try_send` past the caller's queue. -/
def drainTxq (t : HtcTarget) (e : Eid) : HtcTarget :=
  let (t, resources) := freeQueueNumber t e
  drain c e (t.endpoint e).starving (t.endpoint e).txq.length resources t

/-- `tx_full` on each packet: who stays in the caller's queue, who goes on. -/
def askTxFull (t : HtcTarget) (q : List HtcPacket) :
    HtcTarget × List HtcPacket × List HtcPacket :=
  let drop := q.filter fun p => t.env.fullDrop p.id
  ({ t with dropAsked := t.dropAsked ++ ids drop }, q.filter fun p => !t.env.fullDrop p.id, drop)

/-- By how much a batch will overflow `txq`. -/
def txOverflow (ep : Endpoint) (q : List HtcPacket) : Int :=
  if ep.txq.length ≥ ep.maxTxqDepth then q.length
  else (ep.txq.length:Int) + q.length - ep.maxTxqDepth

/-- The overflow handling of `htc_try_send`: the packets for the send queue and those
left to the caller. -/
def fitCaller (t : HtcTarget) (e : Eid) (q : List HtcPacket) :
    HtcTarget × List HtcPacket × List HtcPacket :=
  let overflow := txOverflow (t.endpoint e) q
  if overflow ≤ 0 ∨ !(t.endpoint e).hasTxFull then (t, q, [])
  else
    let goodPkts := (q.length:Int) - overflow
    if goodPkts < 0 then (t, [], q)
    else
      let (t, keep, drop) := askTxFull t (q.drop goodPkts.toNat)
      (t, q.take goodPkts.toNat ++ keep, drop)

/-- The bundle timer of `ENDPOINT_2`, set up on first use. -/
def initBundleTimer (t : HtcTarget) (e : Eid) : HtcTarget :=
  if c.htcBundleSend ∧ c.htcBundleSendTimer ≠ 0 ∧ e = 2 then
    t.put e { t.endpoint e with timerInit := true }
  else t

/-- `htc_try_send` leaves the packets for the bundle timer. -/
def waitsForBundle (t : HtcTarget) (e : Eid) : Bool :=
  c.htcBundleSend && c.htcBundleSendTimer != 0 && e == 2 &&
    !(t.endpoint e).callByTimer && (t.endpoint e).passTh &&
    (t.endpoint e).txq.length < htcHostMaxMsgPerBundle

/-- `htc_try_send` without a caller's queue. -/
def htcTrySendNull (t : HtcTarget) (e : Eid) : HtcTarget :=
  let t := initBundleTimer c t e
  if waitsForBundle c t e then t else drainTxq c t e

/-- `htc_try_send` with a caller's queue; the list is what it leaves there. -/
def htcTrySend (t : HtcTarget) (e : Eid) (q : List HtcPacket) : HtcTarget × List HtcPacket :=
  let t := initBundleTimer c t e
  if waitsForBundle c t e then (t, q)
  else if q.isEmpty then (t, q)
  else
    let (t, send, left) := fitCaller t e q
    if send.isEmpty then (t, left)
    else
      let ep := t.endpoint e
      (drainTxq c (t.put e { ep with txq := ep.txq ++ send }) e, left)

def htcSendPktsSchedCheck (t : HtcTarget) (e : Eid) : HtcTarget × Bool :=
  if !isData e then (t, true)
  else
    let t := initBundleTimer c t 2
    let idle := fun x : Eid => (t.endpoint x).txq.isEmpty
    if c.htcBundleSend ∧ c.htcBundleSendTimer ≠ 0 ∧ (t.endpoint 2).passTh ∧
        (t.endpoint 2).txq.length < htcHostMaxMsgPerBundle then (t, false)
    else if e = 3 then (t, idle 2 && idle 3 && idle 4 && idle 5)
    else if e = 4 then (t, idle 4 && idle 5)
    else if e = 5 then (t, idle 5)
    else (t, idle 2 && idle 4 && idle 5)

/-- `htc_send_pkts_sched_queue`; the list is what stays in the caller's queue. -/
def htcSendPktsSchedQueue (t : HtcTarget) (e : Eid) (q : List HtcPacket) :
    HtcTarget × List HtcPacket :=
  let ep := t.endpoint e
  let goodPkts := ep.maxTxqDepth - ep.txq.length
  let (t, keep, drop) := askTxFull t (q.drop goodPkts)
  (t.put e { ep with txq := ep.txq ++ q.take goodPkts ++ keep }, drop)

def newPackets (nextId : Nat) (lens : List Nat) : List HtcPacket :=
  lens.zipIdx.map fun (len, i) => { id := nextId+i, actLen := len }

/-- Where `htc_send_packets_multiple` sends the packets. -/
def dispatchPackets (t : HtcTarget) (e : Eid) (q : List HtcPacket) :
    HtcTarget × List HtcPacket :=
  if c.singlePipeSched then
    let (t, go) := htcSendPktsSchedCheck c t e
    if go then htcTrySend c t e q
    else
      let (t, left) := htcSendPktsSchedQueue t e q
      let ep := t.endpoint e
      (if c.starvingPrevention ∧ t.env.longAgo then t.put e { ep with starving := true } else t,
        left)
  else htcTrySend c t e q

def htcSendPacketsMultiple (t : HtcTarget) (e : Eid) (q : List HtcPacket) : HtcTarget :=
  if q.isEmpty then t
  else
    -- completion for any packets that could not get in
    let (t, left) := dispatchPackets c t e q
    sendPacketCompletion t left enomem

def dataEids : List Eid := [5,4,2,3]

def serveStarving (t : HtcTarget) (e : Eid) : HtcTarget :=
  dataEids.foldl (fun t x =>
    if x ≠ e ∧ (t.endpoint x).starving then htcTrySendNull c t x else t) t

/-- `htc_lookup_tx_packet` and the completion of what it finds. -/
def completeLookup (t : HtcTarget) (e : Eid) (id : Nat) : HtcTarget :=
  match (t.endpoint e).txLookupQueue.find? (·.id = id) with
  | none => t
  | some p => sendPacketCompletion (dropLookup t e p) [p] 0

/-- The endpoint `htc_tx_completion` serves next under `ATH6KL_HW_SINGLE_PIPE_SCHED`. -/
def schedNext (t : HtcTarget) (resources : Nat) : Option Eid :=
  let thresh := [0, t.env.maxQueue*2/32, t.env.maxQueue*3/32, t.env.maxQueue*4/32]
  ((dataEids.zip thresh).find? fun (x, th) =>
    !(t.endpoint x).txq.isEmpty && th ≤ resources).map Prod.fst

def htcTxCompletion (t : HtcTarget) (e : Eid) (id : Nat) : HtcTarget :=
  let t := serveStarving c (completeLookup t e id) e
  if (t.endpoint e).txCreditFlowEnabled then t
  else if c.singlePipeSched ∧ isData e then
    let (t, resources) := freeQueueNumber t e
    match schedNext t resources with
    | none => t
    | some x => htcTrySendNull c t x
  else htcTrySendNull c t e

/-- The endpoint served after a report on the data pool. -/
def reportNext (t : HtcTarget) : Eid :=
  (dataEids.find? fun x => !(t.endpoint x).txq.isEmpty).getD 3

/-- One entry of `htc_process_credit_report`. -/
def creditReportEntry (t : HtcTarget) (e : Eid) (credits : Nat) : HtcTarget :=
  if isData e then
    let t := { t with availTxCredits := t.availTxCredits + credits
                      uncredited := t.uncredited - credits }
    let next := reportNext t
    htcTrySendNull c (serveStarving c t next) next
  else
    let t := giveCredits t e credits
    if (t.endpoint e).credits ≠ 0 ∧ !(t.endpoint e).txq.isEmpty then htcTrySendNull c t e else t

/-- `htc_process_credit_report`: an unknown endpoint ends the report. -/
def htcProcessCreditReport (t : HtcTarget) : List CreditReport → HtcTarget
  | [] => t
  | r::rpt =>
    if h : r.eid < 9 then htcProcessCreditReport (creditReportEntry c t ⟨r.eid, h⟩ r.credits) rpt
    else t

/-- `htc_tx_bundle_timer_handler`; its count of expiries is always 1. -/
def htcTxBundleTimerHandler (t : HtcTarget) : HtcTarget :=
  let ep := { t.endpoint 2 with callByTimer := true }
  if 1000 / c.htcBundleSendTimer = 0 then ({ t with trapped := true } : HtcTarget).put 2 ep
  else
    let ep := if 1 % (1000 / c.htcBundleSendTimer) = 0 then
        { ep with passTh := ep.txIssued > c.htcBundleSendTh } else ep
    let t := htcTrySendNull c (t.put 2 ep) 2
    t.put 2 { t.endpoint 2 with callByTimer := false }

def htcTxResourceAvailable (t : HtcTarget) (pipeid : Nat) : HtcTarget :=
  match (List.finRange 9).find? fun e =>
      (t.endpoint e).svcId != 0 && (t.endpoint e).pipeidUl == pipeid with
  | none => t
  | some e => htcTrySendNull c t e

/-- `ath6kl_htc_pipe_ctl_ep_timer_handler`. -/
def ctlEpTimerHandler (t : HtcTarget) : HtcTarget :=
  let ep := t.endpoint 1
  htcTrySendNull c (if ep.credits = 0 then t.put 1 { ep with credits := 1 } else t) 1

def htcFlushTxEndpoint (t : HtcTarget) (e : Eid) : HtcTarget :=
  let ep := t.endpoint e
  sendPacketCompletion (t.put e { ep with txq := [] }) ep.txq 0

inductive Event where
  | send (e : Eid) (lens : List Nat)
  | txDone (e : Eid) (id : Nat)
  | creditReport (rpt : List CreditReport)
  | resources (pipeid : Nat)
  | bundleTimer
  | ctlTimer
  | flush (e : Eid)

/-- The packets that a caller hands in get their numbers first. -/
def handle (t : HtcTarget) : Event → HtcTarget
  | .send e lens =>
    htcSendPacketsMultiple c { t with nextId := t.nextId + lens.length } e
      (newPackets t.nextId lens)
  | .txDone e id => htcTxCompletion c t e id
  | .creditReport rpt => htcProcessCreditReport c t rpt
  | .resources pipeid => htcTxResourceAvailable c t pipeid
  | .bundleTimer => if (t.endpoint 2).timerInit then htcTxBundleTimerHandler c t else t
  | .ctlTimer => ctlEpTimerHandler c t
  | .flush e => htcFlushTxEndpoint t e

def step (t : HtcTarget) (ev : Event × Answers) : HtcTarget :=
  if t.trapped then t else handle c { t with env := ev.2 } ev.1

/-- The target after `ath6kl_htc_pipe_wait_target` and the service connections. -/
def ready (ep : Eid → Endpoint) (tgtCreds : Nat) : HtcTarget where
  endpoint e := { ep e with txq := [], txLookupQueue := [], starving := false, timerInit := false,
                            callByTimer := false, passTh := false, txIssued := 0 }
  availTxCredits := tgtCreds - 1

end Ath6kl.HtcPipe
