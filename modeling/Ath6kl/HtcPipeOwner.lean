import Ath6kl.HtcPipeLedger

/-! Ownership of packets in the pipe HTC: each packet sits in one place, in the send
queue, with the HIF or completed, and an error needs a refusal or a drop. -/
namespace Ath6kl.HtcPipe
open Htc Lib.Machine Lib.Ledger

def count (id : Nat) (q : List HtcPacket) : Int := (ids q).count id

/-- How often a packet occurs in the queues of an endpoint. -/
def Endpoint.places (id : Nat) (ep : Endpoint) : Int :=
  count id ep.txq + count id ep.txLookupQueue

def completedPackets (t : HtcTarget) : List HtcPacket := t.completed.map Prod.fst

/-- How often a packet occurs in the queues and among the completed. -/
def HtcTarget.places (t : HtcTarget) (id : Nat) : Int :=
  total Finset.univ (Endpoint.places id) t.endpoint + count id (completedPackets t)

/-- A refusal strikes the last packet of a batch sent one by one. -/
def RefusedLast : List HtcPacket → List Int → Prop
  | [], _ => True
  | _::rest, answers =>
    if answers.headD 0 ≠ 0 then rest = [] else RefusedLast rest answers.tail

instance RefusedLast.decidable : ∀ q answers, Decidable (RefusedLast q answers)
  | [], _ => isTrue trivial
  | _::rest, answers =>
    have := RefusedLast.decidable rest answers.tail
    inferInstanceAs (Decidable
      (if answers.headD 0 ≠ 0 then rest = [] else RefusedLast rest answers.tail))

/-- The HIF takes the bundle, or refuses at most the last packet of the batch. -/
def IssueCall.Clean (call : IssueCall) : Prop :=
  if call.bundled then call.answers.headD 0 = 0 else RefusedLast call.queue call.answers

instance (call : IssueCall) : Decidable call.Clean :=
  inferInstanceAs (Decidable
    (if call.bundled then call.answers.headD 0 = 0 else RefusedLast call.queue call.answers))

def HtcTarget.Clean (t : HtcTarget) : Prop := ∀ call∈t.issued, call.Clean

instance (t : HtcTarget) : Decidable t.Clean :=
  inferInstanceAs (Decidable (∀ call∈t.issued, call.Clean))

/-- Ownership with `q` in hand and `left` in the caller's queue. -/
structure Own (left : List HtcPacket) (t : HtcTarget) (q : List HtcPacket) : Prop where
  places : ∀ id, t.places id + count id q + count id left = if id < t.nextId then 1 else 0
  asked : ∀ p∈left, p.id∈t.dropAsked
  taken : t.Clean → ∀ e, ∀ p∈(t.endpoint e).txLookupQueue, p.id∈t.accepted
  errors : t.Clean → ∀ x∈t.completed, x.2 ≠ 0 → x.1.id∈t.dropAsked ∨ x.1.id∈t.refused

@[simp] theorem count_nil (id : Nat) : count id [] = 0 := rfl

theorem count_append (id : Nat) (q r : List HtcPacket) :
    count id (q ++ r) = count id q + count id r := by
  simp [count, ids]

theorem count_cons (id : Nat) (p : HtcPacket) (q : List HtcPacket) :
    count id (p::q) = count id [p] + count id q := count_append id [p] q

theorem count_perm {q r : List HtcPacket} (h : q.Perm r) (id : Nat) : count id q = count id r := by
  simp only [count, ids]
  exact_mod_cast (h.map HtcPacket.id).count_eq id

theorem count_erase {q : List HtcPacket} {p : HtcPacket} (h : p∈q) (id : Nat) :
    count id (q.erase p) + count id [p] = count id q := by
  rw [← count_append]
  exact count_perm ((List.perm_append_singleton p _).trans (List.perm_cons_erase h).symm) id

theorem count_single {p p' : HtcPacket} (h : p'.id = p.id) (id : Nat) :
    count id [p'] = count id [p] := by
  simp [count, ids, h]

theorem places_put (t : HtcTarget) (e : Eid) (ep : Endpoint) (id : Nat) :
    (t.put e ep).places id = t.places id + (ep.places id - (t.endpoint e).places id) := by
  have h := total_update (w := Endpoint.places id) (f := t.endpoint) (a := ep) (Finset.mem_univ e)
  simp only [HtcTarget.places, HtcTarget.put, completedPackets] at h ⊢
  omega

theorem places_same {t t' : HtcTarget} (h : SameQueues t t') (id : Nat) :
    t'.places id = t.places id := by
  have hw : ∀ x, (t'.endpoint x).places id = (t.endpoint x).places id := by
    intro x
    rw [Endpoint.places, Endpoint.places, h.txq, h.lookup]
  rw [HtcTarget.places, HtcTarget.places, completedPackets, completedPackets, h.completed, total,
    total, Finset.sum_congr rfl fun x _ => hw x]

theorem Own.same {left q : List HtcPacket} {t t' : HtcTarget} (h : Own left t q)
    (hs : SameQueues t t') : Own left t' q where
  places id := by rw [places_same hs, hs.nextId]; exact h.places id
  asked := by rw [hs.dropAsked]; exact h.asked
  taken hc e p hp := by
    rw [hs.lookup] at hp
    rw [hs.accepted]
    exact h.taken (by rwa [HtcTarget.Clean, hs.issued] at hc) e p hp
  errors hc := by
    rw [hs.completed, hs.dropAsked, hs.refused]
    exact h.errors (by rwa [HtcTarget.Clean, hs.issued] at hc)

theorem Took.places {t t' : HtcTarget} {e : Eid} {p p' : HtcPacket} {rest : List HtcPacket}
    (h : Took t e p rest t' p') (hq : (t.endpoint e).txq = p::rest) (id : Nat) :
    t'.places id + count id [p'] = t.places id := by
  obtain ⟨ep, he, htxq, hl⟩ := h.endpoint
  have hu := total_update (w := Endpoint.places id) (f := t.endpoint) (a := ep) (Finset.mem_univ e)
  have hep : ep.places id + count id [p'] = (t.endpoint e).places id := by
    rw [Endpoint.places, Endpoint.places, htxq, hl, hq, count_cons id p rest, count_single h.id]
    omega
  rw [HtcTarget.places, HtcTarget.places, completedPackets, completedPackets, he, h.completed, hu]
  omega

theorem Own.take {left q : List HtcPacket} {t t' : HtcTarget} {e : Eid} {p p' : HtcPacket}
    {rest : List HtcPacket} (h : Own left t q) (hq : (t.endpoint e).txq = p::rest)
    (ht : Took t e p rest t' p') : Own left t' (q ++ [p']) where
  places id := by
    have hp := ht.places hq id
    have ho := h.places id
    rw [count_append, ht.nextId]
    omega
  asked := by rw [ht.dropAsked]; exact h.asked
  taken hc x r hr := by
    obtain ⟨ep, he, -, hl⟩ := ht.endpoint
    rw [ht.accepted]
    refine h.taken (by rwa [HtcTarget.Clean, ht.issued] at hc) x r ?_
    rw [he, Function.update_apply] at hr
    split at hr
    · rename_i hx
      rwa [hl, ← hx] at hr
    · exact hr
  errors hc := by
    rw [ht.completed, ht.dropAsked, ht.refused]
    exact h.errors (by rwa [HtcTarget.Clean, ht.issued] at hc)

theorem storeLookup_places (t : HtcTarget) (e : Eid) (q : List HtcPacket) (id : Nat) :
    (storeLookup t e q).places id = t.places id + count id q := by
  rw [storeLookup, places_put]
  simp only [Endpoint.places, count_append]
  omega

theorem mem_storeLookup {t : HtcTarget} {e x : Eid} {q : List HtcPacket} {p : HtcPacket}
    (hp : p∈((storeLookup t e q).endpoint x).txLookupQueue) :
    p∈(t.endpoint x).txLookupQueue ∨ p∈q := by
  by_cases hx : x = e
  · subst hx
    rw [storeLookup, put_self] at hp
    exact List.mem_append.mp hp
  · rw [storeLookup, put_other hx] at hp
    exact Or.inl hp

theorem Own.accept {left q r : List HtcPacket} {t : HtcTarget} {e : Eid}
    (h : Own left t (q ++ r)) :
    Own left (noteAccepted (storeLookup t e q).hifSend.1 e q) r where
  places id := by
    have hs := storeLookup_places t e q id
    have ho := h.places id
    rw [count_append] at ho
    show (storeLookup t e q).places id + _ + _ = if id < t.nextId then _ else _
    omega
  asked := h.asked
  taken hc x p hp := by
    refine List.mem_append.mpr ?_
    rcases mem_storeLookup hp with hp | hp
    · exact Or.inl (h.taken hc x p hp)
    · exact Or.inr (List.mem_map_of_mem hp)
  errors := h.errors

theorem Own.refuseBundle {left q : List HtcPacket} {t : HtcTarget} {e : Eid}
    (h : Own left t q) (hc : ¬ t.Clean) :
    Own left (reclaimCredits (noteRefused (storeLookup t e q).hifSend.1 q) e (credSum q)) [] := by
  refine Own.same ?_ (reclaimCredits_avail _ e _).1
  refine ⟨fun id => ?_, h.asked, fun hc' => absurd hc' hc, fun hc' => absurd hc' hc⟩
  have hs := storeLookup_places t e q id
  have ho := h.places id
  show (storeLookup t e q).places id + _ + _ = if id < t.nextId then _ else _
  rw [count_nil]
  omega

theorem issueBundle_own {left q : List HtcPacket} {t : HtcTarget} {e : Eid} (h : Own left t q)
    (hcall : t.Clean → t.env.sends.headD 0 = 0) : Own left (issueBundle t e q) [] := by
  have hstatus : (storeLookup t e q).hifSend.2 = t.env.sends.headD 0 := rfl
  unfold issueBundle
  dsimp only
  split
  · rename_i hz
    rw [hstatus] at hz
    exact h.refuseBundle (mt hcall hz)
  · rw [← List.append_nil q] at h
    exact h.accept

theorem erase_stored {q : List HtcPacket} {p : HtcPacket} : ((q ++ [p]).erase p).Perm q := by
  have h : (q ++ [p]).Perm (p::q) := List.perm_append_singleton p q
  have he := h.erase p
  rwa [List.erase_cons_head] at he

theorem sendPacketCompletion_places (t : HtcTarget) (q : List HtcPacket) (status : Int)
    (id : Nat) : (sendPacketCompletion t q status).places id = t.places id + count id q := by
  have h : completedPackets (sendPacketCompletion t q status) = completedPackets t ++ q := by
    simp [completedPackets, sendPacketCompletion, Function.comp_def]
  rw [HtcTarget.places, h, count_append, HtcTarget.places]
  show total Finset.univ (Endpoint.places id) t.endpoint + _ = _
  omega

theorem SameQueues.complete {t u : HtcTarget} (h : SameQueues t u) (q : List HtcPacket)
    (status : Int) :
    SameQueues (sendPacketCompletion t q status) (sendPacketCompletion u q status) where
  nextId := h.nextId
  completed := congrArg (· ++ q.map fun p => (p, status)) h.completed
  dropAsked := h.dropAsked
  refused := h.refused
  accepted := h.accepted
  uncredited := h.uncredited
  issued := h.issued
  txq := h.txq
  lookup := h.lookup

theorem dropLookup_places {t : HtcTarget} {e : Eid} {p : HtcPacket}
    (hp : p∈(t.endpoint e).txLookupQueue) (id : Nat) :
    (dropLookup t e p).places id + count id [p] = t.places id := by
  have h := count_erase hp id
  rw [dropLookup, places_put]
  simp only [Endpoint.places]
  omega

theorem mem_dropStored {t : HtcTarget} {e x : Eid} {p r : HtcPacket}
    (hr : r∈((dropLookup (storeLookup t e [p]) e p).endpoint x).txLookupQueue) :
    r∈(t.endpoint x).txLookupQueue := by
  by_cases hx : x = e
  · subst hx
    rw [dropLookup, put_self, storeLookup, put_self] at hr
    exact erase_stored.mem_iff.mp hr
  · rwa [dropLookup, put_other hx, storeLookup, put_other hx] at hr

theorem refusePacket_own {left rest : List HtcPacket} {t : HtcTarget} {e : Eid} {p : HtcPacket}
    (h : Own left t (p::rest)) (status : Int) (hlast : t.Clean → rest = []) :
    Own left (sendPacketCompletion (refusePacket (storeLookup t e [p]).hifSend.1 e p) (p::rest)
      status) [] := by
  refine Own.same ?_ ((reclaimCredits_avail _ e _).1.complete (p::rest) status)
  refine ⟨fun id => ?_, h.asked, fun hc x r hr => h.taken hc x r (mem_dropStored hr), ?_⟩
  · have hmem : p∈((storeLookup t e [p]).endpoint e).txLookupQueue := by
      rw [storeLookup, put_self]
      exact List.mem_append_right _ (List.mem_singleton_self p)
    have hd := dropLookup_places hmem id
    have hs := storeLookup_places t e [p] id
    have ho := h.places id
    rw [sendPacketCompletion_places, count_nil]
    show (dropLookup (storeLookup t e [p]) e p).places id + _ + _ + _ =
      if id < t.nextId then _ else _
    omega
  · intro hc x hx hne
    rcases List.mem_append.mp hx with hx | hx
    · rcases h.errors hc x hx hne with hd | hr
      · exact Or.inl hd
      · exact Or.inr (List.mem_append_left _ hr)
    · rw [hlast hc] at hx
      obtain rfl := List.mem_singleton.mp hx
      exact Or.inr (List.mem_append_right _ (List.mem_singleton_self _))

theorem issueSingle_own {left : List HtcPacket} {e : Eid} (q : List HtcPacket) {t : HtcTarget}
    (h : Own left t q) (hcall : t.Clean → RefusedLast q t.env.sends) :
    Own left (issueSingle e q t) [] := by
  induction q generalizing t with
  | nil => exact h
  | cons p rest ih =>
    have hstatus : (storeLookup t e [p]).hifSend.2 = t.env.sends.headD 0 := rfl
    unfold issueSingle
    dsimp only
    split
    · rename_i hz
      rw [hstatus] at hz
      refine refusePacket_own h _ fun hc => ?_
      have hr := hcall hc
      rwa [RefusedLast, if_pos hz] at hr
    · rename_i hz
      rw [hstatus] at hz
      refine ih (Own.accept (q := [p]) h) fun hc => ?_
      have hr := hcall hc
      rwa [RefusedLast, if_neg hz] at hr

theorem Own.issue {left q : List HtcPacket} {t : HtcTarget} {c : Config} {e : Eid}
    (h : Own left t q) : Own left (htcIssuePackets c t e q) [] := by
  -- the log of calls only grows
  have hlog : ∀ call, Own left { t with issued := t.issued ++ [call] } q := fun call =>
    ⟨h.places, h.asked, fun hc => h.taken fun x hx => hc x (List.mem_append_left _ hx),
      fun hc => h.errors fun x hx => hc x (List.mem_append_left _ hx)⟩
  have hlast : ∀ call, ({ t with issued := t.issued ++ [call] } : HtcTarget).Clean → call.Clean :=
    fun call hc => hc call (List.mem_append_right _ (List.mem_singleton_self _))
  unfold htcIssuePackets
  dsimp only
  split
  · rename_i hb
    refine issueBundle_own (hlog _) fun hc => ?_
    have := hlast _ hc
    rwa [IssueCall.Clean, if_pos hb] at this
  · rename_i hb
    refine issueSingle_own q (hlog _) fun hc => ?_
    have := hlast _ hc
    rwa [IssueCall.Clean, if_neg hb] at this

theorem own_carried (c : Config) (left : List HtcPacket) :
    Carried c (fun t _ q => Own left t q) where
  same hs _ h := h.same hs
  swap h := h
  take hq ht h := h.take hq ht
  issue _ h := h.issue

theorem Own.completeOk {t u : HtcTarget} {q : List HtcPacket} (h : Own [] t [])
    (hs : SameHistory t u) (hp : ∀ id, u.places id + count id q = t.places id)
    (hl : ∀ x, ∀ p∈(u.endpoint x).txLookupQueue, p∈(t.endpoint x).txLookupQueue) :
    Own [] (sendPacketCompletion u q 0) [] where
  places id := by
    have ho := h.places id
    rw [sendPacketCompletion_places, hp]
    show _ = if id < u.nextId then _ else _
    rw [hs.nextId]
    exact ho
  asked _ hp := nomatch hp
  taken hc x p hp := by
    show p.id∈u.accepted
    rw [hs.accepted]
    exact h.taken (fun call hcall => hc call (hs.issued ▸ hcall)) x p (hl x p hp)
  errors hc x hx hne := by
    show x.1.id∈u.dropAsked ∨ x.1.id∈u.refused
    rw [hs.dropAsked, hs.refused]
    rcases List.mem_append.mp hx with hx | hx
    · rw [hs.completed] at hx
      exact h.errors (fun call hcall => hc call (hs.issued ▸ hcall)) x hx hne
    · obtain ⟨p, _, rfl⟩ := List.mem_map.mp hx
      exact absurd rfl hne

theorem own_kept (c : Config) : Kept c (fun t _ q => Own [] t q) where
  toCarried := own_carried c []
  complete {t e} id h := by
    unfold completeLookup
    split
    · exact h
    · rename_i p hp
      have hmem := List.mem_of_find?_eq_some hp
      refine h.completeOk ⟨rfl, rfl, rfl, rfl, rfl, rfl, rfl⟩ (dropLookup_places hmem) ?_
      intro x r hr
      by_cases hx : x = e
      · subst hx
        rw [dropLookup, put_self] at hr
        exact List.mem_of_mem_erase hr
      · rwa [dropLookup, put_other hx] at hr
  report h := ⟨h.places, h.asked, h.taken, h.errors⟩
  flush {t e} h := by
    refine h.completeOk ⟨rfl, rfl, rfl, rfl, rfl, rfl, rfl⟩ (fun id => ?_) ?_
    · rw [places_put]
      simp only [Endpoint.places, count_nil]
      omega
    · intro x r hr
      by_cases hx : x = e
      · subst hx
        rwa [put_self] at hr
      · rwa [put_other hx] at hr

theorem count_newPackets (n : Nat) (lens : List Nat) (id : Nat) :
    count id (newPackets n lens) = if n ≤ id ∧ id < n + lens.length then 1 else 0 := by
  have hids : ids (newPackets n lens) = List.range' n lens.length := by
    have hm : ids (newPackets n lens) = (lens.zipIdx.map Prod.snd).map (n + ·) := by
      simp only [ids, newPackets, List.map_map]
      rfl
    rw [hm, List.zipIdx_map_snd, List.map_add_range', Nat.add_zero]
  rw [count, hids, List.Nodup.count List.nodup_range']
  simp only [List.mem_range'_1]
  split <;> rfl

theorem Own.newPackets {t : HtcTarget} (h : Own [] t []) (lens : List Nat) :
    Own [] { t with nextId := t.nextId + lens.length } (newPackets t.nextId lens) where
  places id := by
    have ho := h.places id
    have hn := count_newPackets t.nextId lens id
    show t.places id + _ + _ = if id < t.nextId + lens.length then _ else _
    simp only [count_nil] at ho ⊢
    split at hn <;> split at ho <;> split <;> omega
  asked := h.asked
  taken := h.taken
  errors := h.errors

theorem count_filter (id : Nat) (q : List HtcPacket) (f : HtcPacket → Bool) :
    count id (q.filter fun p => !f p) + count id (q.filter f) = count id q := by
  have hp := count_perm (List.filter_append_perm f q) id
  rw [count_append] at hp
  omega

/-- Asking `tx_full` splits the packets in hand and notes who is to be dropped. -/
theorem Own.askTxFull {q r : List HtcPacket} {t : HtcTarget} (h : Own [] t (q ++ r)) :
    Own (askTxFull t r).2.2 (HtcPipe.askTxFull t r).1 (q ++ (HtcPipe.askTxFull t r).2.1) where
  places id := by
    have ho := h.places id
    have hf := count_filter id r fun p => t.env.fullDrop p.id
    simp only [HtcPipe.askTxFull, count_append, count_nil] at ho ⊢
    show t.places id + _ + _ = if id < t.nextId then _ else _
    omega
  asked p hp := List.mem_append_right _ (List.mem_map_of_mem hp)
  taken := h.taken
  errors hc x hx hne := (h.errors hc x hx hne).imp_left (List.mem_append_left _)

theorem txOverflow_le (ep : Endpoint) (q : List HtcPacket) : txOverflow ep q ≤ q.length := by
  unfold txOverflow
  split <;> omega

theorem Own.fitCaller {q : List HtcPacket} {t : HtcTarget} (h : Own [] t q) (e : Eid) :
    Own (fitCaller t e q).2.2 (HtcPipe.fitCaller t e q).1 (HtcPipe.fitCaller t e q).2.1 := by
  have hle := txOverflow_le (t.endpoint e) q
  unfold HtcPipe.fitCaller
  dsimp only
  split
  · exact h
  · rw [if_neg (by omega)]
    refine Own.askTxFull ?_
    rwa [List.take_append_drop]

theorem Own.enqueue {left q : List HtcPacket} {t : HtcTarget} (h : Own left t q) {e : Eid} :
    Own left (t.put e { t.endpoint e with txq := (t.endpoint e).txq ++ q }) [] where
  places id := by
    have ho := h.places id
    rw [places_put]
    simp only [Endpoint.places, count_append, count_nil]
    show _ = if id < t.nextId then _ else _
    omega
  asked := h.asked
  taken hc x p hp := by
    refine h.taken hc x p ?_
    by_cases hx : x = e
    · subst hx
      rwa [put_self] at hp
    · rwa [put_other hx] at hp
  errors := h.errors

variable {c : Config}

theorem Own.trySend {q : List HtcPacket} {t : HtcTarget} (h : Own [] t q) {e : Eid}
    (hw : waitsForBundle c (initBundleTimer c t e) e = false) :
    Own (htcTrySend c t e q).2 (htcTrySend c t e q).1 [] := by
  have hi := h.same (initBundleTimer_same (c := c) t e).1
  unfold htcTrySend
  dsimp only
  rw [hw, if_neg Bool.false_ne_true]
  split
  · rename_i hq
    rw [List.isEmpty_iff.mp hq] at hi ⊢
    exact hi
  · have ha := hi.fitCaller e
    split
    · rename_i hs
      rwa [List.isEmpty_iff.mp hs] at ha
    · exact (own_carried c _).drainTxq (e := e) ha.enqueue

theorem waitsForBundle_init (t : HtcTarget) (e : Eid) :
    waitsForBundle c (initBundleTimer c t e) e = waitsForBundle c t e := by
  unfold initBundleTimer
  split
  · unfold waitsForBundle
    rw [put_self]
  · rfl

theorem waitsForBundle_other {t : HtcTarget} {e : Eid} (he : e ≠ 2) :
    waitsForBundle c t e = false := by
  simp [waitsForBundle, he]

theorem schedCheck_spec (t : HtcTarget) (e : Eid) :
    SameQueues t (htcSendPktsSchedCheck c t e).1 ∧
    ((htcSendPktsSchedCheck c t e).2 = true →
      waitsForBundle c (htcSendPktsSchedCheck c t e).1 e = false) := by
  by_cases he : e = 2
  · subst he
    have hs := (initBundleTimer_same (c := c) t 2).1
    unfold htcSendPktsSchedCheck
    rw [if_neg (by decide)]
    dsimp only
    split
    · exact ⟨hs, by rintro ⟨⟩⟩
    · rename_i hp
      refine ⟨hs, fun _ => ?_⟩
      simp only [if_false, Fin.reduceEq]
      unfold waitsForBundle
      by_contra hw
      simp only [Bool.not_eq_false, Bool.and_eq_true, bne_iff_ne, ne_eq, decide_eq_true_eq] at hw
      exact hp ⟨hw.1.1.1.1.1, hw.1.1.1.1.2, hw.1.2, hw.2⟩
  · refine ⟨?_, fun _ => waitsForBundle_other he⟩
    have hs := (initBundleTimer_same (c := c) t 2).1
    unfold htcSendPktsSchedCheck
    split
    · exact .refl t
    · dsimp only
      repeat' split
      all_goals exact hs

theorem Own.schedQueue {q : List HtcPacket} {t : HtcTarget} (h : Own [] t q) (e : Eid) :
    Own (htcSendPktsSchedQueue t e q).2 (htcSendPktsSchedQueue t e q).1 [] := by
  have ha : Own [] t (q.take ((t.endpoint e).maxTxqDepth - (t.endpoint e).txq.length) ++
      q.drop ((t.endpoint e).maxTxqDepth - (t.endpoint e).txq.length)) := by
    rwa [List.take_append_drop]
  have hq := ha.askTxFull.enqueue (e := e)
  rw [← List.append_assoc] at hq
  exact hq

/-- The early return of `htc_try_send` strikes: packets for `ENDPOINT_2` come in while it
waits for the bundle timer, and no scheduling check stands before. -/
def heldBack (c : Config) (t : HtcTarget) : Event → Bool
  | .send e lens => !lens.isEmpty && !c.singlePipeSched && waitsForBundle c t e
  | _ => false

theorem Own.dispatch {q : List HtcPacket} {t : HtcTarget} (h : Own [] t q) {e : Eid}
    (hw : c.singlePipeSched = false → waitsForBundle c t e = false) :
    Own (dispatchPackets c t e q).2 (dispatchPackets c t e q).1 [] := by
  obtain ⟨hs, hgo⟩ := schedCheck_spec (c := c) t e
  have hc := h.same hs
  unfold dispatchPackets
  split
  · dsimp only
    split
    · rename_i hg
      refine hc.trySend ?_
      rw [waitsForBundle_init]
      exact hgo hg
    · have hq := hc.schedQueue e
      dsimp only
      split
      · exact hq.same (.put _ rfl rfl)
      · exact hq
  · rename_i hsched
    refine h.trySend ?_
    rw [waitsForBundle_init]
    exact hw (by simpa using hsched)

theorem Own.completeLeft {left : List HtcPacket} {t : HtcTarget} (h : Own left t []) :
    Own [] (sendPacketCompletion t left enomem) [] where
  places id := by
    have ho := h.places id
    rw [sendPacketCompletion_places]
    simp only [count_nil] at ho ⊢
    show _ = if id < t.nextId then _ else _
    omega
  asked _ hp := nomatch hp
  taken := h.taken
  errors hc x hx hne := by
    rcases List.mem_append.mp hx with hx | hx
    · exact h.errors hc x hx hne
    · obtain ⟨p, hp, rfl⟩ := List.mem_map.mp hx
      exact Or.inl (h.asked p hp)

theorem Own.send {t : HtcTarget} (h : Own [] t []) {e : Eid} {lens : List Nat}
    (hb : heldBack c t (.send e lens) = false) : Own [] (handle c t (.send e lens)) [] := by
  have hn := h.newPackets lens
  simp only [handle, htcSendPacketsMultiple]
  split
  · rename_i he
    rw [List.isEmpty_iff.mp he] at hn
    exact hn
  · rename_i he
    refine (Own.dispatch hn fun hsched => ?_).completeLeft
    have hne : lens.isEmpty = false := by
      cases lens with
      | nil => exact absurd rfl he
      | cons => rfl
    have hw : waitsForBundle c t e = false := by simpa [heldBack, hsched, hne] using hb
    exact hw

/-- What keeps the ownership of packets straight in one step. -/
def Orderly (c : Config) (t : HtcTarget) (ev : Event × Answers) : Prop :=
  heldBack c t ev.1 = false ∧ (step c t ev).Clean

instance (t : HtcTarget) (ev : Event × Answers) : Decidable (Orderly c t ev) :=
  inferInstanceAs (Decidable (heldBack c t ev.1 = false ∧ (step c t ev).Clean))

theorem Own.step {t : HtcTarget} (h : Own [] t []) {ev : Event × Answers}
    (hb : heldBack c t ev.1 = false) : Own [] (step c t ev) [] := by
  have he : Own [] { t with env := ev.2 } [] := ⟨h.places, h.asked, h.taken, h.errors⟩
  unfold HtcPipe.step
  split
  · exact h
  · refine (own_kept c).handle ev.1 (fun e lens hev => ?_) he
    rw [hev] at hb
    exact he.send hb

/-- Each packet handed in sits in exactly one place and errors have a cause. -/
structure Owned (t : HtcTarget) : Prop where
  once : ∀ id, id < t.nextId → t.places id = 1
  taken : ∀ e, ∀ p∈(t.endpoint e).txLookupQueue, p.id∈t.accepted
  errors : ∀ x∈t.completed, x.2 ≠ 0 → x.1.id∈t.dropAsked ∨ x.1.id∈t.refused

theorem ready_own (ep : Eid → Endpoint) (tgtCreds : Nat) : Own [] (ready ep tgtCreds) [] where
  places id := by
    have hz : total Finset.univ (Endpoint.places id) (ready ep tgtCreds).endpoint = 0 :=
      total_eq_zero fun _ _ => rfl
    rw [HtcTarget.places, hz]
    rfl
  asked _ hp := nomatch hp
  taken _ _ _ hp := nomatch hp
  errors _ _ hx := nomatch hx

/-- In every run in which no bundle send fails, no single send fails with packets behind
it and no packet meets the early return for the bundle timer, packets are owned by one
place at a time and completed once, with an error only when dropped or refused. -/
theorem pipe_packets_owned (ep : Eid → Endpoint) (tgtCreds : Nat)
    (evs : List (Event × Answers))
    (horderly : AllSteps (step c) (Orderly c) (ready ep tgtCreds) evs) :
    Owned (run (step c) (ready ep tgtCreds) evs) := by
  have h0 : Own [] (ready ep tgtCreds) [] ∧ (ready ep tgtCreds).Clean :=
    ⟨ready_own ep tgtCreds, fun _ hc => nomatch hc⟩
  obtain ⟨h, hc⟩ := run_invariant_of (I := fun t => Own [] t [] ∧ t.Clean)
    (fun _ _ hs ho => ⟨hs.1.step ho.1, ho.2⟩) h0 horderly
  refine ⟨fun id hid => ?_, h.taken hc, h.errors hc⟩
  have hp := h.places id
  simpa [hid] using hp

/-- The HIF refuses the only packet of a batch, and later takes the next one. -/
def calmRun : List (Event × Answers) :=
  [(.send 2 [100,200], {}), (.send 2 [100], { sends := [enomem] }), (.txDone 2 1, {}),
    (.send 2 [100], {})]

theorem pipe_packets_owned_calm :
    Owned (run (step { tgtCredSz := 1664 }) (ready (fun _ => plainEp) 8) calmRun) :=
  pipe_packets_owned (fun _ => plainEp) 8 calmRun
    ⟨by decide, by decide, by decide, by decide, trivial⟩

/-- A bundle the HIF refuses; then packets that meet the early return for the timer. -/
def refusedBundle : List (Event × Answers) := [(.send 2 [100], { sends := [enomem] })]

def turnedAway : List (Event × Answers) :=
  [(.send 2 [100], {}), (.bundleTimer, {}), (.send 2 [100], {})]

/-- The three ways out of order: the refused bundle stays on the lookup queue, the packet
behind a refused one fails without being sent, and so does the one turned away. -/
theorem pipe_packets_disowned :
    ¬ Owned (run (step { tgtCredSz := 1664, htcBundleSend := true }) (ready (fun _ => plainEp) 8)
      refusedBundle) ∧
    ¬ Owned (run (step { tgtCredSz := 1664 }) (ready (fun _ => plainEp) 3) leakyRun) ∧
    ¬ Owned (run (step { tgtCredSz := 1664, htcBundleSend := true, htcBundleSendTimer := 1000 })
      (ready (fun _ => plainEp) 8) turnedAway) := by
  refine ⟨fun h => ?_, fun h => ?_, fun h => ?_⟩
  · have ht := h.taken 2 { id := 0, actLen := 100, credUsed := 1 } (by decide)
    exact absurd ht (by decide)
  · have he := h.errors ({ id := 3, actLen := 100, credUsed := 1, needCreditUpdate := true, seqno := 3 },
      enomem) (by decide) (by decide)
    exact absurd he (by decide)
  · have he := h.errors ({ id := 1, actLen := 100 }, enomem) (by decide) (by decide)
    exact absurd he (by decide)

end Ath6kl.HtcPipe
