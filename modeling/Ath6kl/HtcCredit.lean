import Ath6kl.Htc
import Ath6kl.Lib.Ledger
import Ath6kl.Lib.Machine

/-! Transmit credits of the mailbox HTC (`htc.c`): the distribution of credits over
the endpoints and the operations that spend and return them. -/
namespace Ath6kl.HtcCredit
open Htc

inductive SvcId where
  | none
  | rsvdCtrl
  | wmiControl
  | wmiDataBe
  | wmiDataBk
  | wmiDataVi
  | wmiDataVo
deriving DecidableEq

/-- `struct htc_endpoint_credit_dist`. `outstanding` is history: credits spent on
packets and not returned since. -/
structure CreditDist where
  svcId : SvcId
  active : Bool := false
  credNorm : Int := 0
  credMin : Int := 0
  credAssngd : Int := 0
  credits : Int := 0
  credToDist : Int := 0
  seekCred : Int := 0
  credPerMsg : Nat
  txqDepth : Nat := 0
  credAllocMax : Int := 0
  outstanding : Int := 0

structure HtcTarget where
  endpoint : Eid → CreditDist
  credDistList : List Eid
  tgtCredSz : Nat
  curFreeCredits : Int := 0
  totalAvailCredits : Int := 0

/-- The target once its services are connected, before the credits are set up. -/
def connected (svcId : Eid → SvcId) (credPerMsg : Eid → Nat) (credDistList : List Eid)
    (tgtCredSz : Nat) : HtcTarget where
  endpoint e := { svcId := svcId e, credPerMsg := credPerMsg e }
  credDistList := credDistList
  tgtCredSz := tgtCredSz

def HtcTarget.put (t : HtcTarget) (e : Eid) (d : CreditDist) : HtcTarget :=
  { t with endpoint := Function.update t.endpoint e d }

def creditDeposit (t : HtcTarget) (e : Eid) (credits : Int) : HtcTarget :=
  let d := t.endpoint e
  { t.put e { d with credits := d.credits + credits, credAssngd := d.credAssngd + credits } with
    curFreeCredits := t.curFreeCredits - credits }

/-- The first walk of `ath6kl_credit_init`, at one endpoint. -/
def creditInitDeposit (totCredits : Int) (t : HtcTarget) (e : Eid) : HtcTarget :=
  if e = 0 then t
  else
    let t := t.put e { t.endpoint e with credMin := (t.endpoint e).credPerMsg }
    let d := t.endpoint e
    let t :=
      if totCredits > 4 ∧ (d.svcId = .wmiDataBk ∨ d.svcId = .wmiDataBe) then
        let t := creditDeposit t e d.credMin
        t.put e { t.endpoint e with active := true }
      else t
    if d.svcId = .wmiControl then
      let t := creditDeposit t e d.credMin
      t.put e { t.endpoint e with active := true }
    else t

/-- The second walk of `ath6kl_credit_init`, at one endpoint. -/
def creditInitNorm (t : HtcTarget) (e : Eid) : HtcTarget :=
  if e = 0 then t
  else
    let d := t.endpoint e
    if d.svcId = .wmiControl then t.put e { d with credNorm := d.credPerMsg }
    else
      let count := t.curFreeCredits.tdiv d.credPerMsg * d.credPerMsg
      let count := count*3/4
      t.put e { d with credNorm := max count d.credPerMsg }

def creditInit (t : HtcTarget) (totCredits : Int) : HtcTarget :=
  let t := { t with curFreeCredits := totCredits, totalAvailCredits := totCredits }
  let t := t.credDistList.foldl (creditInitDeposit totCredits) t
  t.credDistList.foldl creditInitNorm t

/-- `ath6kl_credit_reduce`: an endpoint's credits back to a set limit. -/
def creditReduce (t : HtcTarget) (e : Eid) (limit : Int) : HtcTarget :=
  let d := t.endpoint e
  if d.credits ≤ limit then t.put e { d with credAssngd := limit }
  else
    let credits := d.credits - limit
    { t.put e { d with credAssngd := limit, credits := d.credits - credits } with
      curFreeCredits := t.curFreeCredits + credits }

/-- `ath6kl_credit_update` at one endpoint. -/
def creditUpdateEp (t : HtcTarget) (e : Eid) : HtcTarget :=
  if e = 0 then t
  else
    let d := t.endpoint e
    if d.credToDist > 0 then
      let t := t.put e { d with credits := d.credits + d.credToDist, credToDist := 0 }
      let t := if (t.endpoint e).credits > (t.endpoint e).credAssngd then
          creditReduce t e (t.endpoint e).credAssngd else t
      let t := if (t.endpoint e).credits > (t.endpoint e).credNorm then
          creditReduce t e (t.endpoint e).credNorm else t
      if !(t.endpoint e).active ∧ (t.endpoint e).txqDepth = 0 then creditReduce t e 0 else t
    else t

def creditUpdate (t : HtcTarget) : HtcTarget := t.credDistList.foldl creditUpdateEp t

/-- The walk of `ath6kl_credit_seek` from the lowest priority endpoint up. -/
def seekWalk (e : Eid) : List Eid → HtcTarget → HtcTarget
  | [], t => t
  | cur::rest, t =>
    if cur = e then t
    else
      let need := (t.endpoint e).seekCred - t.curFreeCredits
      let take := (t.endpoint cur).credAssngd - need ≥ (t.endpoint cur).credMin
      let t := if take then creditReduce t cur ((t.endpoint cur).credAssngd - need) else t
      if take ∧ t.curFreeCredits ≥ (t.endpoint e).seekCred then t
      else if cur = 0 then t
      else seekWalk e rest t

/-- The label `out` of `ath6kl_credit_seek`. -/
def seekOut (t : HtcTarget) (e : Eid) (credits : Int) : HtcTarget :=
  let t := if credits ≠ 0 then creditDeposit t e credits else t
  t.put e { t.endpoint e with seekCred := 0 }

def creditSeek (t : HtcTarget) (e : Eid) : HtcTarget :=
  let d := t.endpoint e
  if d.svcId = .wmiControl then seekOut t e 0
  else if d.svcId = .wmiDataVi ∧ d.credAllocMax ≠ 0 ∧ d.credAssngd ≥ d.credAllocMax then
    seekOut t e 0
  else if d.svcId = .wmiDataVi ∧ d.credAssngd ≥ d.credNorm then seekOut t e 0
  else
    let credits := min t.curFreeCredits d.seekCred
    if credits ≥ d.seekCred then seekOut t e credits
    else
      let t := seekWalk e t.credDistList.reverse t
      seekOut t e (min t.curFreeCredits (t.endpoint e).seekCred)

/-- `ath6kl_credit_redistribute` at one endpoint. -/
def creditRedistributeEp (t : HtcTarget) (e : Eid) : HtcTarget :=
  if e = 0 then t
  else
    let d := t.endpoint e
    let t := if d.svcId = .wmiDataBk ∨ d.svcId = .wmiDataBe then
        t.put e { d with active := true } else t
    if d.svcId ≠ .wmiControl ∧ !(t.endpoint e).active then
      creditReduce t e (if d.txqDepth = 0 then 0 else d.credMin)
    else t

def creditRedistribute (t : HtcTarget) : HtcTarget :=
  t.credDistList.foldl creditRedistributeEp t

/-- The credits a message of `len` bytes takes. -/
def reqCred (t : HtcTarget) (len : Nat) : Nat :=
  if len > t.tgtCredSz then (len + t.tgtCredSz - 1) / t.tgtCredSz else 1

/-- Seek until `want` credits are there; shared by the three places that seek. -/
def seekFor (t : HtcTarget) (e : Eid) (want : Int) : HtcTarget :=
  let t := t.put e { t.endpoint e with seekCred := want - (t.endpoint e).credits }
  let t := creditSeek t e
  t.put e { t.endpoint e with seekCred := 0 }

/-- `htc_pre_check_credits`; the answer is false for `-EINVAL`. -/
def htcPreCheckCredits (t : HtcTarget) (e : Eid) (len : Nat) : HtcTarget × Bool :=
  let req : Int := reqCred t len
  if (t.endpoint e).credits < req then
    if e = 0 then (t, false)
    else
      let t := seekFor t e req
      (t, req ≤ (t.endpoint e).credits)
  else (t, true)

/-- What `htc_check_credits` tells its caller: `req_cred` and whether it set
`HTC_FLAGS_NEED_CREDIT_UPDATE`. -/
structure CreditGrant where
  reqCred : Nat
  needCreditUpdate : Bool

/-- `htc_check_credits`; no grant is `-EINVAL`. -/
def htcCheckCredits (t : HtcTarget) (e : Eid) (len : Nat) : HtcTarget × Option CreditGrant :=
  let req := reqCred t len
  -- up to the debit it is the other check
  let (t, granted) := htcPreCheckCredits t e len
  if !granted then (t, none)
  else
    let d := t.endpoint e
    let t := t.put e { d with credits := d.credits - req, outstanding := d.outstanding + req }
    -- getting low on credits: ask for more
    if (t.endpoint e).credits < (t.endpoint e).credPerMsg then
      let t := seekFor t e (t.endpoint e).credPerMsg
      (t, some ⟨req, (t.endpoint e).credits < (t.endpoint e).credPerMsg⟩)
    else (t, some ⟨req, false⟩)

/-- `htc_tx_comp_update`: a failed packet gives its credits back. -/
def htcTxCompUpdate (t : HtcTarget) (e : Eid) (credUsed : Nat) (failed : Bool)
    (txqDepth : Nat) : HtcTarget :=
  if !failed then t
  else
    let d := t.endpoint e
    creditUpdate (t.put e { d with credToDist := d.credToDist + credUsed, txqDepth := txqDepth,
                                   outstanding := d.outstanding - credUsed })

/-- The endpoint a report names, where it names one. -/
def reportEp (r : CreditReport) : Eid := Fin.ofNat 9 r.eid

/-- One entry of a credit report, for an endpoint that exists. -/
def credRptEntry (depth : Eid → Nat) (t : HtcTarget) (r : CreditReport) : HtcTarget :=
  let d := t.endpoint (reportEp r)
  let d := if reportEp r = 0 then { d with credits := d.credits + r.credits }
    else { d with credToDist := d.credToDist + r.credits }
  t.put (reportEp r) { d with txqDepth := depth (reportEp r), outstanding := d.outstanding - r.credits }

/-- The entries `htc_proc_cred_rpt` gets to. -/
def knownEntries (rpt : List CreditReport) : List CreditReport :=
  rpt.takeWhile fun r => r.eid < 9

def htcProcCredRpt (t : HtcTarget) (rpt : List CreditReport) (depth : Eid → Nat) : HtcTarget :=
  let known := knownEntries rpt
  let t := known.foldl (credRptEntry depth) t
  -- an unknown endpoint ends the whole report
  if known.length < rpt.length then t
  else if known.any (fun r => reportEp r ≠ 0) then creditUpdate t
  else t

/-- `ath6kl_htc_mbox_indicate_activity_change`. -/
def indicateActivityChange (t : HtcTarget) (e : Eid) (active : Bool) (txqDepth : Nat) :
    HtcTarget :=
  let d := t.endpoint e
  if d.svcId = .none then t
  else if d.active = active then t
  else creditRedistribute (t.put e { d with active := active, txqDepth := txqDepth })

/-- `ath6kl_htc_mbox_wmm_schedule_change` at one endpoint. -/
def wmmScheduleEp (change : Bool) (t : HtcTarget) (e : Eid) : HtcTarget :=
  let d := t.endpoint e
  t.put e { d with credAllocMax := if d.svcId = .wmiDataVi ∧ change then d.credNorm - 2 else 0 }

def wmmScheduleChange (t : HtcTarget) (change : Bool) : HtcTarget :=
  t.credDistList.foldl (wmmScheduleEp change) t

inductive Event where
  | preCheck (e : Eid) (len : Nat)
  | send (e : Eid) (len : Nat)
  | txComp (e : Eid) (credUsed : Nat) (failed : Bool) (txqDepth : Nat)
  | credRpt (rpt : List CreditReport) (depth : Eid → Nat)
  | activity (e : Eid) (active : Bool) (txqDepth : Nat)
  | wmmSchedule (change : Bool)

def step (t : HtcTarget) : Event → HtcTarget
  | .preCheck e len => (htcPreCheckCredits t e len).1
  | .send e len => (htcCheckCredits t e len).1
  | .txComp e credUsed failed txqDepth => htcTxCompUpdate t e credUsed failed txqDepth
  | .credRpt rpt depth => htcProcCredRpt t rpt depth
  | .activity e active txqDepth => indicateActivityChange t e active txqDepth
  | .wmmSchedule change => wmmScheduleChange t change

end Ath6kl.HtcCredit
