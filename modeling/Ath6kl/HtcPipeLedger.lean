import Ath6kl.HtcPipe

/-! What the drain loop of the pipe HTC carries along. A predicate over the target and
the packets in hand that survives taking a packet and issuing a batch survives every way
of sending; the credit ledger of the data endpoints is the first such predicate. -/
namespace Ath6kl.HtcPipe
open Htc Lib.Machine

/-- The history and the packet counter are the same. -/
structure SameHistory (t t' : HtcTarget) : Prop where
  nextId : t'.nextId = t.nextId
  completed : t'.completed = t.completed
  dropAsked : t'.dropAsked = t.dropAsked
  refused : t'.refused = t.refused
  accepted : t'.accepted = t.accepted
  uncredited : t'.uncredited = t.uncredited
  issued : t'.issued = t.issued

/-- Nothing a packet or a data credit sits in has changed. -/
structure SameQueues (t t' : HtcTarget) : Prop extends SameHistory t t' where
  txq : ∀ x, (t'.endpoint x).txq = (t.endpoint x).txq
  lookup : ∀ x, (t'.endpoint x).txLookupQueue = (t.endpoint x).txLookupQueue

theorem SameHistory.refl (t : HtcTarget) : SameHistory t t := ⟨rfl, rfl, rfl, rfl, rfl, rfl, rfl⟩

theorem SameQueues.refl (t : HtcTarget) : SameQueues t t := ⟨.refl t, fun _ => rfl, fun _ => rfl⟩

@[simp] theorem put_self (t : HtcTarget) (e : Eid) (ep : Endpoint) :
    (t.put e ep).endpoint e = ep := Function.update_self ..

theorem put_other {t : HtcTarget} {e x : Eid} {ep : Endpoint} (h : x ≠ e) :
    (t.put e ep).endpoint x = t.endpoint x := Function.update_of_ne h ..

theorem SameQueues.put (t : HtcTarget) {e : Eid} {ep : Endpoint} (hq : ep.txq = (t.endpoint e).txq)
    (hl : ep.txLookupQueue = (t.endpoint e).txLookupQueue) : SameQueues t (t.put e ep) where
  toSameHistory := ⟨rfl, rfl, rfl, rfl, rfl, rfl, rfl⟩
  txq x := by
    by_cases hx : x = e
    · subst hx
      rw [put_self, hq]
    · rw [put_other hx]
  lookup x := by
    by_cases hx : x = e
    · subst hx
      rw [put_self, hl]
    · rw [put_other hx]

/-- One packet taken off `txq`; `p'` is the packet with its send fields filled in. -/
structure Took (t : HtcTarget) (e : Eid) (p : HtcPacket) (rest : List HtcPacket)
    (t' : HtcTarget) (p' : HtcPacket) : Prop extends SameHistory t t' where
  id : p'.id = p.id
  avail : t'.availTxCredits = t.availTxCredits - if isData e then (p'.credUsed:Int) else 0
  endpoint : ∃ ep, t'.endpoint = Function.update t.endpoint e ep ∧ ep.txq = rest ∧
    ep.txLookupQueue = (t.endpoint e).txLookupQueue

/-- The laws of a predicate the drain loop carries. -/
structure Carried (c : Config) (J : HtcTarget → Eid → List HtcPacket → Prop) : Prop where
  same : ∀ {t t' e q}, SameQueues t t' → t'.availTxCredits = t.availTxCredits →
    J t e q → J t' e q
  swap : ∀ {t e e'}, J t e [] → J t e' []
  take : ∀ {t e p rest t' p' q}, (t.endpoint e).txq = p::rest → Took t e p rest t' p' →
    J t e q → J t' e (q ++ [p'])
  issue : ∀ {t e q}, q ≠ [] → J t e q → J (htcIssuePackets c t e q) e []

theorem debit_some {c : Config} {t t' : HtcTarget} {e : Eid} {limit req used : Nat} {need : Bool}
    (h : debit c t e limit req = (t', some (used, need))) :
    SameHistory t t' ∧
    t'.availTxCredits = (t.availTxCredits - if isData e then (used:Int) else 0) ∧
    ∃ ep, t'.endpoint = Function.update t.endpoint e ep ∧ ep.txq = (t.endpoint e).txq ∧
      ep.txLookupQueue = (t.endpoint e).txLookupQueue := by
  unfold debit at h
  dsimp only at h
  split at h
  · rename_i he
    simp only [Prod.mk.injEq, Option.some.injEq] at h
    obtain ⟨rfl, rfl, rfl⟩ := h
    refine ⟨.refl t, by simp, t.endpoint e, ?_, rfl, rfl⟩
    rw [Function.update_eq_self]
  · split at h
    · rename_i hd
      split at h
      · simp at h
      · split at h
        · simp at h
        · simp only [Prod.mk.injEq, Option.some.injEq] at h
          obtain ⟨rfl, rfl, rfl⟩ := h
          exact ⟨⟨rfl, rfl, rfl, rfl, rfl, rfl, rfl⟩, by simp [hd], _, rfl, rfl, rfl⟩
    · rename_i hd
      split at h
      · simp at h
      · split at h
        · simp at h
        · simp only [Prod.mk.injEq, Option.some.injEq] at h
          obtain ⟨rfl, rfl, rfl⟩ := h
          exact ⟨⟨rfl, rfl, rfl, rfl, rfl, rfl, rfl⟩, by simp [hd, HtcTarget.put], _, rfl, rfl, rfl⟩

theorem debit_none {c : Config} {t t' : HtcTarget} {e : Eid} {limit req : Nat}
    (h : debit c t e limit req = (t', none)) :
    SameQueues t t' ∧ t'.availTxCredits = t.availTxCredits := by
  have hrefl : SameQueues t t ∧ t.availTxCredits = t.availTxCredits := ⟨.refl t, rfl⟩
  unfold debit at h
  dsimp only at h
  split at h
  · simp at h
  · split at h
    · split at h
      · rw [← (Prod.mk.inj h).1]
        exact hrefl
      · split at h
        · rw [← (Prod.mk.inj h).1]
          exact hrefl
        · simp at h
    · split at h
      · rw [← (Prod.mk.inj h).1]
        split
        · exact ⟨⟨⟨rfl, rfl, rfl, rfl, rfl, rfl, rfl⟩, fun _ => rfl, fun _ => rfl⟩, rfl⟩
        · exact hrefl
      · split at h
        · rw [← (Prod.mk.inj h).1]
          exact hrefl
        · simp at h

theorem took_of_debit {t t' : HtcTarget} {e : Eid} {used : Nat} (need : Bool) (p : HtcPacket)
    (rest : List HtcPacket) (hs : SameHistory t t')
    (ha : t'.availTxCredits = t.availTxCredits - if isData e then (used:Int) else 0)
    (he : ∃ ep, t'.endpoint = Function.update t.endpoint e ep ∧ ep.txq = (t.endpoint e).txq ∧
      ep.txLookupQueue = (t.endpoint e).txLookupQueue) :
    Took t e p rest (takePacket t' e used need p rest).1 (takePacket t' e used need p rest).2 := by
  obtain ⟨ep, he, -, hl⟩ := he
  refine ⟨⟨hs.nextId, hs.completed, hs.dropAsked, hs.refused, hs.accepted, hs.uncredited,
    hs.issued⟩, rfl, ha, { t'.endpoint e with txq := rest, seqno := (t'.endpoint e).seqno+1 },
    ?_, rfl, ?_⟩
  · show Function.update t'.endpoint e _ = _
    rw [he, Function.update_idem]
  · show (t'.endpoint e).txLookupQueue = _
    rw [he, Function.update_self, hl]

variable {c : Config} {J : HtcTarget → Eid → List HtcPacket → Prop}

theorem Took.txq {t t' : HtcTarget} {e : Eid} {p p' : HtcPacket} {rest : List HtcPacket}
    (h : Took t e p rest t' p') : (t'.endpoint e).txq = rest := by
  obtain ⟨ep, he, hq, -⟩ := h.endpoint
  rw [he, Function.update_self, hq]

theorem Carried.getCreditLoop (h : Carried c J) {e : Eid} {starving : Bool}
    (todo : List HtcPacket) (limit : Nat) {t : HtcTarget} {q : List HtcPacket}
    (htxq : (t.endpoint e).txq = todo) (hj : J t e q) :
    J (getCreditLoop c e starving limit todo t).1 e
      (q ++ (HtcPipe.getCreditLoop c e starving limit todo t).2) := by
  induction todo generalizing limit t q with
  | nil =>
    rw [HtcPipe.getCreditLoop, List.append_nil]
    exact hj
  | cons p rest ih =>
    unfold HtcPipe.getCreditLoop
    split
    · rename_i t' hd
      obtain ⟨hs, ha⟩ := debit_none hd
      rw [List.append_nil]
      exact h.same hs ha hj
    · rename_i t' used need hd
      obtain ⟨hs, ha, he⟩ := debit_some hd
      have ht := took_of_debit need p rest hs ha he
      have hj' := h.take htxq ht hj
      dsimp only
      split
      · exact hj'
      · have hr := ih (limit-1) ht.txq hj'
        rwa [List.append_assoc] at hr

theorem Carried.getLoop (h : Carried c J) {e : Eid} (limit : Nat) {todo : List HtcPacket}
    {t : HtcTarget} {q : List HtcPacket} (htxq : (t.endpoint e).txq = todo) (hj : J t e q) :
    J (getLoop e limit todo t).1 e (q ++ (HtcPipe.getLoop e limit todo t).2) := by
  induction limit generalizing todo t q with
  | zero =>
    rw [HtcPipe.getLoop, List.append_nil]
    exact hj
  | succ limit ih =>
    cases todo with
    | nil =>
      rw [HtcPipe.getLoop, List.append_nil]
      · exact hj
      · exact Nat.succ_ne_zero limit
    | cons p rest =>
      have ht : Took t e p rest (takePacket t e 0 false p rest).1 (takePacket t e 0 false p rest).2 :=
        took_of_debit false p rest (.refl t) (by simp)
          ⟨t.endpoint e, (Function.update_eq_self e t.endpoint).symm, rfl, rfl⟩
      have hr := ih ht.txq (h.take htxq ht hj)
      rwa [List.append_assoc] at hr

theorem Carried.getPackets (h : Carried c J) {e : Eid} {t : HtcTarget} (resources : Nat)
    (hj : J t e []) : J (getPackets c t e resources).1 e (HtcPipe.getPackets c t e resources).2 := by
  unfold HtcPipe.getPackets
  split
  · unfold getHtcPacketCreditBased
    split
    · exact hj
    · exact h.getCreditLoop (q := []) _ _ rfl hj
  · unfold getHtcPacket
    split
    · exact hj
    · exact h.getLoop (q := []) _ rfl hj

theorem freeQueueNumber_same (t : HtcTarget) (e : Eid) :
    SameQueues t (freeQueueNumber t e).1 ∧
      (freeQueueNumber t e).1.availTxCredits = t.availTxCredits := by
  unfold freeQueueNumber
  split
  · exact ⟨.refl t, rfl⟩
  · exact ⟨⟨⟨rfl, rfl, rfl, rfl, rfl, rfl, rfl⟩, fun _ => rfl, fun _ => rfl⟩, rfl⟩

theorem Carried.drain (h : Carried c J) {e : Eid} {starving : Bool} (fuel : Nat)
    {resources : Nat} {t : HtcTarget} (hj : J t e []) :
    J (drain c e starving fuel resources t) e [] := by
  induction fuel generalizing resources t with
  | zero => exact hj
  | succ fuel ih =>
    unfold HtcPipe.drain
    split
    · exact hj
    · have hg := h.getPackets resources hj
      generalize HtcPipe.getPackets c t e resources = g at hg ⊢
      obtain ⟨u, q⟩ := g
      dsimp only at hg ⊢
      cases q with
      | nil => exact hg
      | cons p q =>
        have hi := h.issue (List.cons_ne_nil p q) hg
        obtain ⟨hs, ha⟩ := freeQueueNumber_same (htcIssuePackets c u e (p::q)) e
        have hf := h.same hs ha hi
        simp only [List.isEmpty_cons, Bool.false_eq_true, if_false]
        split
        · exact hf
        · exact ih hf

theorem Carried.drainTxq (h : Carried c J) {e : Eid} {t : HtcTarget} (hj : J t e []) :
    J (drainTxq c t e) e [] := by
  obtain ⟨hs, ha⟩ := freeQueueNumber_same t e
  exact h.drain _ (h.same hs ha hj)

theorem initBundleTimer_same (t : HtcTarget) (e : Eid) :
    SameQueues t (initBundleTimer c t e) ∧
      (initBundleTimer c t e).availTxCredits = t.availTxCredits := by
  unfold initBundleTimer
  split
  · exact ⟨.put t rfl rfl, rfl⟩
  · exact ⟨.refl t, rfl⟩

theorem Carried.trySendNull (h : Carried c J) {e : Eid} {t : HtcTarget} (hj : J t e []) :
    J (htcTrySendNull c t e) e [] := by
  obtain ⟨hs, ha⟩ := initBundleTimer_same (c := c) t e
  unfold htcTrySendNull
  dsimp only
  split
  · exact h.same hs ha hj
  · exact h.drainTxq (h.same hs ha hj)

theorem Carried.serveStarving (h : Carried c J) {e : Eid} {t : HtcTarget} (hj : J t e []) :
    J (serveStarving c t e) e [] := by
  refine run_invariant (I := fun t => J t e []) (fun u x hu => ?_) hj dataEids
  split
  · exact h.swap (h.trySendNull (h.swap hu))
  · exact hu

theorem giveCredits_same (t : HtcTarget) (e : Eid) (n : Nat) :
    SameQueues t (giveCredits t e n) ∧ (giveCredits t e n).availTxCredits = t.availTxCredits := by
  unfold giveCredits
  dsimp only
  split
  · have h : SameQueues t (t.put e { t.endpoint e with
        credits := min ((t.endpoint e).credits + n) 1 }) := .put t rfl rfl
    exact ⟨⟨⟨rfl, rfl, rfl, rfl, rfl, rfl, rfl⟩, h.txq, h.lookup⟩, rfl⟩
  · exact ⟨.put t rfl rfl, rfl⟩

/-- The laws of a predicate every handler but the one that takes new packets keeps. -/
structure Kept (c : Config) (J : HtcTarget → Eid → List HtcPacket → Prop) : Prop
    extends Carried c J where
  complete : ∀ {t e} id, J t e [] → J (completeLookup t e id) e []
  report : ∀ {t e n}, J t e [] →
    J { t with availTxCredits := t.availTxCredits + n, uncredited := t.uncredited - n } e []
  flush : ∀ {t e}, J t e [] → J (htcFlushTxEndpoint t e) e []

theorem Kept.txCompletion (h : Kept c J) {e : Eid} {id : Nat} {t : HtcTarget} (hj : J t e []) :
    J (htcTxCompletion c t e id) e [] := by
  have hs := h.serveStarving (h.complete id hj)
  unfold htcTxCompletion
  dsimp only
  split
  · exact hs
  · split
    · obtain ⟨hq, ha⟩ := freeQueueNumber_same (serveStarving c (completeLookup t e id) e) e
      have hf := h.same hq ha hs
      split
      · exact hf
      · exact h.swap (h.trySendNull (h.swap hf))
    · exact h.trySendNull hs

theorem Kept.reportEntry (h : Kept c J) {e : Eid} {credits : Nat} {t : HtcTarget}
    (hj : J t e []) : J (creditReportEntry c t e credits) e [] := by
  unfold creditReportEntry
  split
  · exact h.swap (h.trySendNull (h.serveStarving (h.swap (h.report hj))))
  · obtain ⟨hq, ha⟩ := giveCredits_same t e credits
    have hg := h.same hq ha hj
    dsimp only
    split
    · exact h.trySendNull hg
    · exact hg

theorem Kept.creditReport (h : Kept c J) (rpt : List CreditReport) {t : HtcTarget}
    (hj : J t 0 []) : J (htcProcessCreditReport c t rpt) 0 [] := by
  induction rpt generalizing t with
  | nil => exact hj
  | cons r rpt ih =>
    unfold htcProcessCreditReport
    split
    · exact ih (h.swap (h.reportEntry (h.swap hj)))
    · exact hj

theorem Kept.bundleTimer (h : Kept c J) {t : HtcTarget} (hj : J t 0 []) :
    J (htcTxBundleTimerHandler c t) 0 [] := by
  unfold htcTxBundleTimerHandler
  dsimp only
  split
  · -- it traps
    have hs : SameQueues t { t with trapped := true } :=
      ⟨⟨rfl, rfl, rfl, rfl, rfl, rfl, rfl⟩, fun _ => rfl, fun _ => rfl⟩
    have ht : J { t with trapped := true } 0 [] := h.same hs rfl hj
    exact h.same (.put _ rfl rfl) rfl ht
  · refine h.same (.put _ rfl rfl) rfl
      (h.swap (h.trySendNull (h.swap (h.same (.put t ?_ ?_) rfl hj))))
    · split <;> rfl
    · split <;> rfl

theorem Kept.resourceAvailable (h : Kept c J) {pipeid : Nat} {t : HtcTarget} (hj : J t 0 []) :
    J (htcTxResourceAvailable c t pipeid) 0 [] := by
  unfold htcTxResourceAvailable
  split
  · exact hj
  · exact h.swap (h.trySendNull (h.swap hj))

theorem Kept.ctlTimer (h : Kept c J) {t : HtcTarget} (hj : J t 0 []) :
    J (ctlEpTimerHandler c t) 0 [] := by
  unfold ctlEpTimerHandler
  dsimp only
  split
  · exact h.swap (h.trySendNull (h.swap (h.same (.put t rfl rfl) rfl hj)))
  · exact h.swap (h.trySendNull (h.swap hj))

theorem Kept.handle (h : Kept c J) {t : HtcTarget} (ev : Event)
    (hsend : ∀ e lens, ev = .send e lens → J (handle c t (.send e lens)) 0 [])
    (hj : J t 0 []) : J (handle c t ev) 0 [] := by
  cases ev with
  | send e lens => exact hsend e lens rfl
  | txDone e id => exact h.swap (h.txCompletion (h.swap hj))
  | creditReport rpt => exact h.creditReport rpt hj
  | resources pipeid => exact h.resourceAvailable hj
  | bundleTimer =>
    rw [HtcPipe.handle]
    split
    · exact h.bundleTimer hj
    · exact hj
  | ctlTimer => exact h.ctlTimer hj
  | flush e => exact h.swap (h.flush (h.swap hj))

/-- The credits of packets behind the first refused one, which nobody gives back. -/
def leakSingle : List HtcPacket → List Int → Nat
  | [], _ => 0
  | _::rest, answers =>
    if answers.headD 0 ≠ 0 then credSum rest else leakSingle rest answers.tail

def IssueCall.leak (call : IssueCall) : Nat :=
  if call.bundled || !isData call.eid then 0 else leakSingle call.queue call.answers

def dataCred (e : Eid) (q : List HtcPacket) : Int := if isData e then credSum q else 0

def HtcTarget.leaked (t : HtcTarget) : Nat := (t.issued.map IssueCall.leak).sum

/-- Every data credit is available, with the target, in hand or leaked. -/
def Credited (tot : Int) (t : HtcTarget) (e : Eid) (q : List HtcPacket) : Prop :=
  t.availTxCredits + t.uncredited + t.leaked + dataCred e q = tot

@[simp] theorem credSum_nil : credSum [] = 0 := rfl

@[simp] theorem credSum_cons (p : HtcPacket) (q : List HtcPacket) :
    credSum (p::q) = p.credUsed + credSum q := by simp [credSum]

theorem credSum_append (q r : List HtcPacket) : credSum (q ++ r) = credSum q + credSum r := by
  simp [credSum]

@[simp] theorem dataCred_nil (e : Eid) : dataCred e [] = 0 := by simp [dataCred]

theorem reclaimCredits_avail (t : HtcTarget) (e : Eid) (n : Nat) :
    SameQueues t (reclaimCredits t e n) ∧ (reclaimCredits t e n).availTxCredits =
      t.availTxCredits + if isData e then (n:Int) else 0 := by
  unfold reclaimCredits
  split
  · exact ⟨⟨⟨rfl, rfl, rfl, rfl, rfl, rfl, rfl⟩, fun _ => rfl, fun _ => rfl⟩, rfl⟩
  · obtain ⟨hs, ha⟩ := giveCredits_same t e n
    exact ⟨hs, by simp [ha]⟩

theorem issueBundle_credits (t : HtcTarget) (e : Eid) (q : List HtcPacket) :
    (issueBundle t e q).availTxCredits + (issueBundle t e q).uncredited =
      t.availTxCredits + t.uncredited + dataCred e q ∧
    (issueBundle t e q).issued = t.issued := by
  unfold issueBundle
  dsimp only
  split
  · obtain ⟨hs, ha⟩ := reclaimCredits_avail (noteRefused (storeLookup t e q).hifSend.1 q) e (credSum q)
    rw [ha, hs.uncredited, hs.issued]
    refine ⟨?_, rfl⟩
    show t.availTxCredits + _ + t.uncredited = _
    rw [dataCred]
    omega
  · refine ⟨?_, rfl⟩
    show t.availTxCredits + (t.uncredited + _) = _
    rw [dataCred]
    omega

theorem refusePacket_credits (t : HtcTarget) (e : Eid) (p : HtcPacket) :
    (refusePacket t e p).availTxCredits = t.availTxCredits + dataCred e [p] ∧
    (refusePacket t e p).uncredited = t.uncredited ∧
    (refusePacket t e p).issued = t.issued := by
  obtain ⟨hs, ha⟩ := reclaimCredits_avail (noteRefused (dropLookup t e p) [p]) e p.credUsed
  refine ⟨?_, hs.uncredited, hs.issued⟩
  rw [refusePacket, ha, dataCred, credSum_cons, credSum_nil, Nat.add_zero]
  rfl

theorem issueSingle_credits {e : Eid} (q : List HtcPacket) (t : HtcTarget) :
    (issueSingle e q t).availTxCredits + (issueSingle e q t).uncredited +
      (if isData e then (leakSingle q t.env.sends : Int) else 0) =
      t.availTxCredits + t.uncredited + dataCred e q ∧
    (issueSingle e q t).issued = t.issued := by
  induction q generalizing t with
  | nil => simp [issueSingle, leakSingle]
  | cons p rest ih =>
    have hcred : dataCred e (p::rest) = dataCred e [p] + dataCred e rest := by
      simp only [dataCred, credSum_cons, credSum_nil]
      split <;> omega
    unfold issueSingle leakSingle
    dsimp only
    have hstatus : (storeLookup t e [p]).hifSend.2 = t.env.sends.headD 0 := rfl
    by_cases hz : t.env.sends.headD 0 ≠ 0
    · -- the refused packet gives back its own credits only
      rw [if_pos (by rw [hstatus]; exact hz), if_pos hz]
      obtain ⟨ha, hu, hi⟩ := refusePacket_credits (storeLookup t e [p]).hifSend.1 e p
      refine ⟨?_, hi⟩
      show (refusePacket _ e p).availTxCredits + (refusePacket _ e p).uncredited + dataCred e rest = _
      rw [ha, hu, hcred]
      show t.availTxCredits + _ + t.uncredited + _ = _
      omega
    · rw [if_neg (by rw [hstatus]; exact hz), if_neg hz]
      obtain ⟨hc, hi⟩ := ih (noteAccepted (storeLookup t e [p]).hifSend.1 e [p])
      refine ⟨?_, hi⟩
      have hleak : (noteAccepted (storeLookup t e [p]).hifSend.1 e [p]).env.sends =
        t.env.sends.tail := rfl
      rw [hleak] at hc
      rw [hc, hcred]
      show t.availTxCredits + (t.uncredited + dataCred e [p]) + _ = _
      omega

theorem dataCred_snoc (e : Eid) (q : List HtcPacket) (p : HtcPacket) :
    dataCred e (q ++ [p]) = dataCred e q + if isData e then (p.credUsed:Int) else 0 := by
  simp only [dataCred, credSum_append, credSum_cons, credSum_nil]
  split <;> omega

theorem leaked_append (t : HtcTarget) (call : IssueCall) :
    ({ t with issued := t.issued ++ [call] } : HtcTarget).leaked = t.leaked + call.leak := by
  simp [HtcTarget.leaked]

theorem htcIssuePackets_credits (t : HtcTarget) (e : Eid) (q : List HtcPacket) :
    (htcIssuePackets c t e q).availTxCredits + (htcIssuePackets c t e q).uncredited +
      (htcIssuePackets c t e q).leaked =
      t.availTxCredits + t.uncredited + t.leaked + dataCred e q := by
  have hl := leaked_append t ⟨e, c.htcBundleSend && (t.endpoint e).pipeidUl != 0, q, t.env.sends⟩
  unfold htcIssuePackets
  dsimp only
  split
  · rename_i hb
    rw [hb] at hl ⊢
    obtain ⟨hc, hi⟩ := issueBundle_credits
      { t with issued := t.issued ++ [⟨e, true, q, t.env.sends⟩] } e q
    rw [hc, HtcTarget.leaked, hi, ← HtcTarget.leaked, hl]
    simp only [IssueCall.leak, Bool.true_or, if_true]
    omega
  · rename_i hb
    rw [Bool.not_eq_true] at hb
    rw [hb] at hl ⊢
    obtain ⟨hc, hi⟩ := issueSingle_credits (e := e) q
      { t with issued := t.issued ++ [⟨e, false, q, t.env.sends⟩] }
    rw [HtcTarget.leaked, hi, ← HtcTarget.leaked, hl]
    cases hd : isData e with
    | true =>
      simp only [hd, if_true] at hc
      simp only [IssueCall.leak, hd, Bool.not_true, Bool.or_self, Bool.false_eq_true, if_false]
      omega
    | false =>
      simp only [hd, Bool.false_eq_true, if_false] at hc
      simp only [IssueCall.leak, hd, Bool.not_false, Bool.or_true, if_true]
      omega

theorem credited_carried (tot : Int) : Carried c (Credited tot) where
  same hs ha hj := by
    simp only [Credited, HtcTarget.leaked] at hj ⊢
    rw [ha, hs.uncredited, hs.issued]
    exact hj
  swap hj := by simpa [Credited] using hj
  take _ ht hj := by
    simp only [Credited, HtcTarget.leaked, dataCred_snoc] at hj ⊢
    rw [ht.avail, ht.uncredited, ht.issued]
    omega
  issue {t e q} _ hj := by
    have hi := htcIssuePackets_credits (c := c) t e q
    simp only [Credited, dataCred_nil] at hj ⊢
    omega

theorem credited_kept (tot : Int) : Kept c (Credited tot) where
  toCarried := credited_carried tot
  complete {t e} id hj := by
    unfold completeLookup
    split
    · exact hj
    · exact hj
  report {t e n} hj := by
    simp only [Credited, HtcTarget.leaked, dataCred_nil] at hj ⊢
    omega
  flush hj := hj

theorem Credited.fitCaller {tot : Int} {t : HtcTarget} {e : Eid} (q : List HtcPacket)
    (hj : Credited tot t e []) : Credited tot (fitCaller t e q).1 e [] := by
  unfold HtcPipe.fitCaller
  dsimp only
  split
  · exact hj
  · split
    · exact hj
    · exact hj

theorem Credited.trySend {tot : Int} {t : HtcTarget} {e : Eid} (q : List HtcPacket)
    (hj : Credited tot t e []) : Credited tot (htcTrySend c t e q).1 e [] := by
  obtain ⟨hs, ha⟩ := initBundleTimer_same (c := c) t e
  have hi := (credited_carried (c := c) tot).same hs ha hj
  unfold htcTrySend
  dsimp only
  split
  · exact hi
  · split
    · exact hi
    · have had := hi.fitCaller q
      split
      · exact had
      · exact (credited_carried tot).drainTxq had

theorem Credited.dispatch {tot : Int} {t : HtcTarget} {e : Eid} (q : List HtcPacket)
    (hj : Credited tot t e []) : Credited tot (dispatchPackets c t e q).1 e [] := by
  have hcheck : Credited tot (htcSendPktsSchedCheck c t e).1 e [] := by
    obtain ⟨hs, ha⟩ := initBundleTimer_same (c := c) t 2
    have hi := (credited_carried (c := c) tot).same hs ha hj
    unfold htcSendPktsSchedCheck
    split
    · exact hj
    · dsimp only
      repeat' split
      all_goals exact hi
  unfold dispatchPackets
  split
  · dsimp only
    split
    · exact hcheck.trySend q
    · split
      · exact hcheck
      · exact hcheck
  · exact hj.trySend q

theorem Credited.sendMultiple {tot : Int} {t : HtcTarget} {e : Eid} (q : List HtcPacket)
    (hj : Credited tot t e []) : Credited tot (htcSendPacketsMultiple c t e q) e [] := by
  unfold htcSendPacketsMultiple
  split
  · exact hj
  · exact Credited.dispatch q hj

theorem Credited.send {tot : Int} {t : HtcTarget} (hj : Credited tot t 0 []) (e : Eid)
    (lens : List Nat) : Credited tot (handle c t (.send e lens)) 0 [] := by
  have hn : Credited tot { t with nextId := t.nextId + lens.length } 0 [] := hj
  exact (credited_carried (c := c) tot).swap
    (Credited.sendMultiple _ ((credited_carried (c := c) tot).swap hn))

theorem Credited.step {tot : Int} {t : HtcTarget} (hj : Credited tot t 0 []) (ev : Event × Answers) :
    Credited tot (step c t ev) 0 [] := by
  have he : Credited tot { t with env := ev.2 } 0 [] := hj
  unfold HtcPipe.step
  split
  · exact hj
  · exact (credited_kept tot).handle ev.1 (fun e lens _ => he.send e lens) he

theorem data_credits_ledger (ep : Eid → Endpoint) (tgtCreds : Nat) (evs : List (Event × Answers)) :
    (run (step c) (ready ep tgtCreds) evs).availTxCredits +
      (run (step c) (ready ep tgtCreds) evs).uncredited +
      (run (step c) (ready ep tgtCreds) evs).leaked = (tgtCreds:Int) - 1 := by
  have h0 : Credited (tgtCreds-1) (ready ep tgtCreds) 0 [] := by
    simp [Credited, ready, HtcTarget.leaked]
  have h : Credited (tgtCreds-1) (run (step c) (ready ep tgtCreds) evs) 0 [] :=
    run_invariant (I := fun t => Credited (tgtCreds-1) t 0 [])
      (fun _ ev hs => Credited.step hs ev) h0 evs
  simpa [Credited] using h

/-- Sent one by one, nothing that holds credits waits behind the first refused packet. -/
def NoneBehind : List HtcPacket → List Int → Prop
  | [], _ => True
  | _::rest, answers =>
    if answers.headD 0 ≠ 0 then ∀ p∈rest, p.credUsed = 0 else NoneBehind rest answers.tail

/-- The call gives back the credits of all it does not submit. -/
def IssueCall.Refunds (call : IssueCall) : Prop :=
  call.bundled = true ∨ isData call.eid = false ∨ NoneBehind call.queue call.answers

theorem credSum_eq_zero {q : List HtcPacket} : credSum q = 0 ↔ ∀ p∈q, p.credUsed = 0 := by
  simp [credSum, List.sum_eq_zero_iff]

theorem leakSingle_eq_zero (q : List HtcPacket) (answers : List Int) :
    leakSingle q answers = 0 ↔ NoneBehind q answers := by
  induction q generalizing answers with
  | nil => simp [leakSingle, NoneBehind]
  | cons p rest ih =>
    unfold leakSingle NoneBehind
    split
    · exact credSum_eq_zero
    · exact ih _

theorem IssueCall.leak_eq_zero (call : IssueCall) : call.leak = 0 ↔ call.Refunds := by
  unfold IssueCall.leak IssueCall.Refunds
  rw [← leakSingle_eq_zero]
  cases call.bundled <;> cases isData call.eid <;> simp

/-- Between calls the data credits are all accounted for exactly if no
`ath6kl_hif_pipe_send` failed with packets behind it in its batch. -/
theorem data_credits_conserved_iff (ep : Eid → Endpoint) (tgtCreds : Nat)
    (evs : List (Event × Answers)) :
    (run (step c) (ready ep tgtCreds) evs).availTxCredits +
      (run (step c) (ready ep tgtCreds) evs).uncredited = (tgtCreds:Int) - 1 ↔
    ∀ call∈(run (step c) (ready ep tgtCreds) evs).issued, call.Refunds := by
  have hl := data_credits_ledger (c := c) ep tgtCreds evs
  have hz : (run (step c) (ready ep tgtCreds) evs).leaked = 0 ↔
      ∀ call∈(run (step c) (ready ep tgtCreds) evs).issued, call.Refunds := by
    rw [HtcTarget.leaked, List.sum_eq_zero_iff]
    simp only [List.mem_map, forall_exists_index, and_imp, forall_apply_eq_imp_iff₂,
      IssueCall.leak_eq_zero]
  rw [← hz]
  omega

def plainEp : Endpoint := { svcId := 0x101, pipeidUl := 1, maxTxqDepth := 16 }

/-- Two packets wait for credits; the report lets both go, and the HIF refuses the first. -/
def leakyRun : List (Event × Answers) :=
  [(.send 2 [100], {}), (.send 2 [100], {}), (.send 2 [100], {}), (.send 2 [100], {}),
    (.creditReport [⟨2, 2⟩], { sends := [enomem] })]

theorem data_credits_leak :
    ¬ ((run (step { tgtCredSz := 1664 }) (ready (fun _ => plainEp) 3) leakyRun).availTxCredits +
      (run (step { tgtCredSz := 1664 }) (ready (fun _ => plainEp) 3) leakyRun).uncredited =
        ((3:Nat):Int) - 1) := by
  decide

end Ath6kl.HtcPipe
