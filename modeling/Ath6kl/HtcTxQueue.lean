import Ath6kl.HtcTxBundle

/-! The transmit queue of a mailbox endpoint (`htc.c`): `ath6kl_htc_tx_from_queue` takes what
the credits allow off `txq`, numbers it, and hands it over in bundles and one by one. -/
namespace Ath6kl.HtcTxQueue
open Htc HtcCredit HtcTxBundle

/-- What does not change during a call: the target, the endpoint with `HTC_FLGS_TX_BNDL_PAD_EN`
and its access class, the module parameters, and `call_by_timer`. -/
structure Config where
  target : TxTarget
  msgPerBndlMax : Nat
  eid : Eid
  padEn : Bool := false
  ac : Nat := 0
  lowCpuPowerTxBundleMax : Nat := 0
  htcBundleSendTimer : Nat := 0
  callByTimer : Bool := false

/-- Frames may be held back for the timer. -/
def Config.holdsBack (c : Config) : Prop :=
  c.lowCpuPowerTxBundleMax ≠ 0 ∧ c.htcBundleSendTimer ≠ 0 ∧ c.eid = 2 ∧ c.callByTimer = false

instance (c : Config) : Decidable c.holdsBack := inferInstanceAs (Decidable (_ ∧ _))

structure Endpoint where
  txq : List HtcPacket
  seqno : UInt8 := 0
  txProcCnt : Nat := 0
  credits : HtcTarget

def htcFlagsNeedCreditUpdate : UInt8 := 1

/-- What `ath6kl_htc_tx_pkts_get` leaves. -/
structure Got where
  queue : List HtcPacket
  txq : List HtcPacket
  seqno : UInt8
  credits : HtcTarget

/-- `reserved_credit`, an unsigned remainder. -/
def reservedCredit (c : Config) (total : Int) : Int := total % 2^32 % c.lowCpuPowerTxBundleMax

/-- The loop of `ath6kl_htc_tx_pkts_get`; `reserve` are `total_credit` and `reserved_credit`
where frames may be held back. -/
def pktsGetLoop (c : Config) (reserve : Option (Int × Int)) :
    Int → UInt8 → HtcTarget → List HtcPacket → Got
  | _, seqno, credits, [] => ⟨[], [], seqno, credits⟩
  | used, seqno, credits, p::txq =>
    if reserve.any fun r => r.1 - used = r.2 then ⟨[], p::txq, seqno, credits⟩
    else match htcCheckCredits credits c.eid (txLen c.target p) with
      | (credits, none) => ⟨[], p::txq, seqno, credits⟩
      | (credits, some g) =>
        let got := pktsGetLoop c reserve (used + g.reqCred) (seqno+1) credits txq
        { got with queue := { p with
            flags := if g.needCreditUpdate then htcFlagsNeedCreditUpdate else 0
            seqno := seqno.toNat }::got.queue }

/-- `ath6kl_htc_tx_pkts_get`. -/
def htcTxPktsGet (c : Config) (ep : Endpoint) : Got :=
  if c.holdsBack then
    let credits := (htcPreCheckCredits ep.credits c.eid 1500).1
    let total := (credits.endpoint c.eid).credits
    pktsGetLoop c (some (total, reservedCredit c total)) 0 ep.seqno credits ep.txq
  else pktsGetLoop c none 0 ep.seqno ep.credits ep.txq

/-- What goes to the HIF: a scatter request or the buffer of one packet. -/
inductive HifReq where
  | scatter (req : ScatReq)
  | write (p : HtcPacket)

def HifReq.packets : HifReq → List HtcPacket
  | .scatter req => req.entries.map ScatItem.packet
  | .write p => [p]

/-- `ath6kl_htc_tx_bundle` with as many scatter requests as it gets; what it sends and the queue
behind it. -/
def htcTxBundle (c : Config) : Nat → List HtcPacket → List HifReq × List HtcPacket
  | 0, queue => ([], queue)
  | k+1, queue =>
    let nScat := min queue.length c.msgPerBndlMax
    if nScat < htcMinHtcMsgsToBundle then ([], queue)
    else
      let r := htcTxSetupScatList c.target c.padEn nScat queue
      match r.status with
      | .eagain => ([], r.queue)
      | .enospc => ([.scatter r.req], r.queue)
      | .ok => ((.scatter r.req)::(htcTxBundle c k r.queue).1, (htcTxBundle c k r.queue).2)

/-- What a pass of the sending loop finds: `tx_bndl_mask`, and how many scatter requests it gets. -/
structure Pass where
  txBndlMask : BitVec 32
  scatReqs : Nat

def tryBundle (c : Config) (pass : Pass) (queue : List HtcPacket) :
    List HifReq × List HtcPacket :=
  if pass.txBndlMask ≠ 0 ∧ htcMinHtcMsgsToBundle ≤ queue.length ∧
      pass.txBndlMask &&& 1 <<< c.ac ≠ 0 then
    htcTxBundle c pass.scatReqs queue
  else ([], queue)

/-- The sending loop for at most `n` more passes; what is left of the queue comes with it. -/
def sendLoop (c : Config) (passes : Nat → Pass) : Nat → List HtcPacket →
    List HifReq × List HtcPacket
  | 0, queue => ([], queue)
  | n+1, queue =>
    let r := tryBundle c (passes n) queue
    match r.2 with
    | [] => (r.1, [])
    | p::queue =>
      let s := sendLoop c passes n queue
      (r.1 ++ .write (htcTxPrepPkt p p.flags 0 p.seqno)::s.1, s.2)

/-- The sending loop; each pass takes a packet, so there are no more passes than packets. -/
def htcTxSend (c : Config) (passes : Nat → Pass) (queue : List HtcPacket) : List HifReq :=
  (sendLoop c passes queue.length queue).1

/-- What a round of `ath6kl_htc_tx_from_queue` meets while it sends without the lock: its passes,
the packets that are queued, and the credits it finds afterwards. -/
structure Round where
  passes : Nat → Pass
  arrivals : List HtcPacket
  credits : HtcTarget

/-- The endpoint, what was handed over and what was queued in the course of a call. -/
structure Call where
  endpoint : Endpoint
  hif : List HifReq
  arrived : List HtcPacket
  returned : Bool

/-- The head of the loop of `ath6kl_htc_tx_from_queue`: the endpoint and the local queue, which is
empty where the loop ends. -/
def takeQueue (c : Config) (ep : Endpoint) : Endpoint × List HtcPacket :=
  if ep.txq = [] then (ep, [])
  else if c.htcBundleSendTimer ≠ 0 ∧ c.eid = 2 ∧ c.callByTimer = false ∧
      ep.txq.length < c.lowCpuPowerTxBundleMax then (ep, [])
  else
    let got := htcTxPktsGet c ep
    ({ ep with txq := got.txq, seqno := got.seqno, credits := got.credits }, got.queue)

def relock (ep : Endpoint) (r : Round) : Endpoint :=
  { ep with txq := ep.txq ++ r.arrivals, credits := r.credits }

/-- The loop of `ath6kl_htc_tx_from_queue`; a call whose rounds are over before it returns is
still at work. -/
def fromQueueLoop (c : Config) : List Round → Endpoint → Call
  | [], ep =>
    if (takeQueue c ep).2 = [] then ⟨(takeQueue c ep).1, [], [], true⟩ else ⟨ep, [], [], false⟩
  | r::rounds, ep =>
    if (takeQueue c ep).2 = [] then ⟨(takeQueue c ep).1, [], [], true⟩
    else
      let call := fromQueueLoop c rounds (relock (takeQueue c ep).1 r)
      { call with
        hif := htcTxSend c r.passes (takeQueue c ep).2 ++ call.hif
        arrived := r.arrivals ++ call.arrived }

/-- `ath6kl_htc_tx_from_queue`. -/
def htcTxFromQueue (c : Config) (rounds : List Round) (ep : Endpoint) : Call :=
  if ep.txProcCnt+1 > 1 then ⟨ep, [], [], true⟩
  else
    let call := fromQueueLoop c rounds { ep with txProcCnt := ep.txProcCnt+1 }
    if call.returned then { call with endpoint := { call.endpoint with txProcCnt := 0 } } else call

/-- The frame that `p` should become with number `seqno`: its HTC header, and its payload. -/
structure Frame (p : HtcPacket) (seqno : UInt8) (q : HtcPacket) : Prop where
  addr : q.addr = p.addr
  actLen : q.actLen = p.actLen
  eid : q.mem q.buf = UInt8.ofNat p.endpoint
  payldLen : q.mem (q.buf + 2) = UInt8.ofNat p.actLen ∧
    q.mem (q.buf + 3) = UInt8.ofNat (p.actLen / 256)
  number : q.mem (q.buf + 5) = seqno
  payload : ∀ i : Nat, i < p.actLen → q.mem (q.buf + htcHdrLength + i) = p.mem (p.buf + i)

/-- The packets with the numbers that they get. -/
def numbered : UInt8 → List HtcPacket → List (HtcPacket × UInt8)
  | _, [] => []
  | n, p::ps => (p, n)::numbered (n+1) ps

/-- Nothing stays in `txq`, or its head is refused its credits. -/
def Refused (c : Config) (ep : Endpoint) : Prop :=
  ep.txq = [] ∨ ∃ p rest credits, ep.txq = p::rest ∧
    htcCheckCredits credits c.eid (txLen c.target p) = (ep.credits, none)

/-- Why packets stay in `txq` when a call returns. -/
inductive LeftFor (c : Config) (ep : Endpoint) : Prop where
  | refused (h : Refused c ep)
  | few (hc : c.holdsBack) (h : ep.txq.length < c.lowCpuPowerTxBundleMax)
  | reserve (hc : c.holdsBack) (credits : HtcTarget)
      (hp : ep.credits = (htcPreCheckCredits credits c.eid 1500).1)
      (h : (ep.credits.endpoint c.eid).credits < c.lowCpuPowerTxBundleMax)

theorem numbered_append (n : UInt8) (ps qs : List HtcPacket) :
    numbered n (ps ++ qs) = numbered n ps ++ numbered (n + UInt8.ofNat ps.length) qs := by
  induction ps generalizing n with
  | nil =>
    have h0 : n + UInt8.ofNat 0 = n := UInt8.add_zero n
    rw [List.length_nil, h0]
    rfl
  | cons p ps ih =>
    have hn : n + 1 + UInt8.ofNat ps.length = n + UInt8.ofNat (ps.length+1) := by
      rw [UInt8.ofNat_add, UInt8.add_assoc, UInt8.add_comm 1]
      rfl
    rw [List.cons_append, numbered, ih, hn]
    rfl

/-! ### Frames -/
section Frames
variable {p q : HtcPacket}

theorem store_inside (mem : Int → UInt8) (a : Int) {bs : List UInt8} {i : Nat}
    (hi : i < bs.length) : store mem a bs (a + i) = bs.getD i 0 := by
  have hidx : (a + (i : Int) - a).toNat = i := by omega
  rw [store, if_pos (by omega), hidx]

theorem store_behind (mem : Int → UInt8) (a : Int) {bs : List UInt8} {i : Nat}
    (hi : bs.length ≤ i) : store mem a bs (a + i) = mem (a + i) := by
  rw [store, if_neg (by omega)]

theorem prepPkt_payload (p : HtcPacket) (flags : UInt8) (ctrl0 ctrl1 : Nat) (i : Nat) :
    (htcTxPrepPkt p flags ctrl0 ctrl1).mem
        ((htcTxPrepPkt p flags ctrl0 ctrl1).buf + (htcHdrLength + i : Nat)) =
      p.mem (p.buf + i) := by
  refine (store_behind _ _ (Nat.le_add_right 6 i)).trans (congrArg p.mem ?_)
  omega

theorem frame_of_prep {flags : UInt8} {ctrl0 ctrl1 : Nat} (haddr : q.addr = p.addr)
    (hlen : q.actLen = p.actLen)
    (hmem : ∀ i : Nat, i < p.actLen + htcHdrLength → q.mem (q.buf + i) =
      (htcTxPrepPkt p flags ctrl0 ctrl1).mem ((htcTxPrepPkt p flags ctrl0 ctrl1).buf + i)) :
    Frame p (UInt8.ofNat ctrl1) q := by
  have h6 : htcHdrLength = 6 := rfl
  have hbyte : ∀ i : Nat, i < 6 → q.mem (q.buf + i) =
      [UInt8.ofNat p.endpoint, flags, UInt8.ofNat p.actLen, UInt8.ofNat (p.actLen / 256),
        UInt8.ofNat ctrl0, UInt8.ofNat ctrl1].getD i 0 := fun i hi =>
    (hmem i (by omega)).trans (store_inside _ _ hi)
  refine ⟨haddr, hlen, ?_, ⟨hbyte 2 (by decide), hbyte 3 (by decide)⟩, hbyte 5 (by decide),
    fun i hi => ?_⟩
  · have h0 := hbyte 0 (by decide)
    rw [Int.natCast_zero, Int.add_zero] at h0
    exact h0
  · rw [Int.add_assoc, ← Int.natCast_add]
    exact (hmem (htcHdrLength + i) (by omega)).trans (prepPkt_payload p flags ctrl0 ctrl1 i)

theorem frame_write (p : HtcPacket) :
    Frame p (UInt8.ofNat p.seqno) (htcTxPrepPkt p p.flags 0 p.seqno) :=
  frame_of_prep rfl rfl fun _ _ => rfl

theorem frame_scatItem (p : HtcPacket) (len credPad : Nat) :
    Frame p (UInt8.ofNat p.seqno) (scatItem p len credPad).packet := by
  have hc := scatItem_carries p len credPad
  exact frame_of_prep hc.addr hc.actLen fun i hi => bufAlign_carries _ _ hi

theorem Frame.of_carries {r : HtcPacket} {n : UInt8} (hc : Carries 0 p q) (h : Frame q n r) :
    Frame p n r where
  addr := h.addr.trans hc.addr
  actLen := h.actLen.trans hc.actLen
  eid := h.eid.trans (congrArg (fun e : Eid => UInt8.ofNat e) hc.endpoint)
  payldLen := by
    rw [← hc.actLen]
    exact h.payldLen
  number := h.number
  payload := fun i hi => by
    rw [h.payload i (hc.actLen ▸ hi), ← hc.payload i hi, Int.add_zero]

end Frames

/-! ### What is handed over -/

/-- The frames of the packets, in order, each with its own number. -/
def Frames (ps : List HtcPacket) (qs : List HtcPacket) : Prop :=
  List.Forall₂ (fun p q => Frame p (UInt8.ofNat p.seqno) q) ps qs

theorem Frames.append {ps qs us vs : List HtcPacket} (h : Frames ps us) (h' : Frames qs vs) :
    Frames (ps ++ qs) (us ++ vs) := List.rel_append h h'

theorem Frames.of_carries {ps qs us : List HtcPacket} (hc : List.Forall₂ (Carries 0) ps qs)
    (h : Frames qs us) : Frames ps us := by
  induction hc generalizing us with
  | nil => exact h
  | @cons p q ps qs hpq hc ih =>
    cases h with
    | cons hq h => exact .cons (hpq.seqno ▸ Frame.of_carries hpq hq) (ih h)

theorem Taken.frames {t : TxTarget} {padEn : Bool} {remScat : Nat} {ps : List HtcPacket}
    {es : List ScatItem} (h : Taken t padEn remScat ps es) :
    Frames ps (es.map ScatItem.packet) := by
  induction h with
  | nil => exact .nil
  | cons hpad hfit h ih => exact .cons (frame_scatItem _ _ _) ih

theorem carries_same (ps : List HtcPacket) : List.Forall₂ (Carries 0) ps ps :=
  List.forall₂_same.mpr fun p _ => Carries.refl p

theorem Carries.trans {p q r : HtcPacket} (h : Carries 0 p q) (h' : Carries 0 q r) :
    Carries 0 p r where
  addr := h'.addr.trans h.addr
  actLen := h'.actLen.trans h.actLen
  endpoint := h'.endpoint.trans h.endpoint
  flags := h'.flags.trans h.flags
  seqno := h'.seqno.trans h.seqno
  payload := fun i hi => by
    rw [h'.payload i (h.actLen ▸ hi), ← h.payload i hi, Int.add_zero]

theorem carries_trans {ps qs us : List HtcPacket} (h : List.Forall₂ (Carries 0) ps qs)
    (h' : List.Forall₂ (Carries 0) qs us) : List.Forall₂ (Carries 0) ps us := by
  induction h generalizing us with
  | nil => exact h'
  | cons hpq h ih =>
    cases h' with
    | cons hqr h' => exact .cons (Carries.trans hpq hqr) (ih h')

def handed (hif : List HifReq) : List HtcPacket := hif.flatMap HifReq.packets

/-- Some packets of the queue are handed over, and the others, with their buffers as they were,
are the queue behind them. -/
def Sends (queue : List HtcPacket) (r : List HifReq × List HtcPacket) : Prop :=
  ∃ ps rest, queue = ps ++ rest ∧ Frames ps (handed r.1) ∧ List.Forall₂ (Carries 0) rest r.2

theorem Sends.nothing (queue : List HtcPacket) : Sends queue ([], queue) :=
  ⟨[], queue, rfl, .nil, carries_same queue⟩

theorem Sends.andThen {queue : List HtcPacket} {r s : List HifReq × List HtcPacket}
    (h : Sends queue r) (hs : Sends r.2 s) : Sends queue (r.1 ++ s.1, s.2) := by
  obtain ⟨ps, rest, rfl, hframes, hcarries⟩ := h
  obtain ⟨qs, rest', hsplit, hframes', hcarries'⟩ := hs
  rw [hsplit] at hcarries
  have hq := List.forall₂_take_append _ _ _ hcarries
  have hr := List.forall₂_drop_append _ _ _ hcarries
  refine ⟨ps ++ rest.take qs.length, rest.drop qs.length, ?_, ?_, ?_⟩
  · rw [List.append_assoc, List.take_append_drop]
  · rw [handed, List.flatMap_append]
    exact hframes.append (hframes'.of_carries hq)
  · exact carries_trans hr hcarries'

theorem Sends.scatter {c : Config} {nScat : Nat} {queue : List HtcPacket} {r : Setup}
    (hr : r = htcTxSetupScatList c.target c.padEn nScat queue) (hs : r.status ≠ .eagain) :
    Sends queue ([.scatter r.req], r.queue) := by
  obtain ⟨ps, es, rest, h⟩ := setup_setUp c.target c.padEn nScat queue
  rw [← hr] at h
  refine ⟨ps, rest, h.split, ?_, ?_⟩
  · rw [h.req]
    change Frames ps (es.map ScatItem.packet ++ [])
    rw [List.append_nil]
    exact Taken.frames h.taken
  · rw [h.sent hs]
    exact carries_same rest

theorem htcTxBundle_sends (c : Config) (k : Nat) (queue : List HtcPacket) :
    Sends queue (htcTxBundle c k queue) := by
  induction k generalizing queue with
  | zero => exact .nothing queue
  | succ k ih =>
    simp only [htcTxBundle]
    split_ifs with hfew
    · exact .nothing queue
    generalize hr : htcTxSetupScatList c.target c.padEn (min queue.length c.msgPerBndlMax) queue = r
    cases hst : r.status with
    | eagain =>
      -- rolled back: nothing is sent, and the buffers carry what they did
      obtain ⟨ps, es, rest, h⟩ := setup_setUp c.target c.padEn
        (min queue.length c.msgPerBndlMax) queue
      rw [hr] at h
      refine ⟨[], queue, rfl, .nil, ?_⟩
      rw [h.undone hst, h.split]
      exact rollBack_carries h.taken rest
    | enospc => exact Sends.scatter hr.symm (by rw [hst]; decide)
    | ok => exact (Sends.scatter hr.symm (by rw [hst]; decide)).andThen (ih r.queue)

theorem tryBundle_sends (c : Config) (pass : Pass) (queue : List HtcPacket) :
    Sends queue (tryBundle c pass queue) := by
  unfold tryBundle
  split_ifs
  · exact htcTxBundle_sends c pass.scatReqs queue
  · exact .nothing queue

theorem Sends.write (p : HtcPacket) (queue : List HtcPacket) :
    Sends (p::queue) ([.write (htcTxPrepPkt p p.flags 0 p.seqno)], queue) :=
  ⟨[p], queue, rfl, .cons (frame_write p) .nil, carries_same queue⟩

theorem Sends.length {queue : List HtcPacket} {r : List HifReq × List HtcPacket}
    (h : Sends queue r) : r.2.length ≤ queue.length := by
  obtain ⟨ps, rest, rfl, -, hcarries⟩ := h
  rw [← hcarries.length_eq, List.length_append]
  exact Nat.le_add_left _ _

theorem sendLoop_sends (c : Config) (passes : Nat → Pass) (n : Nat) (queue : List HtcPacket) :
    Sends queue (sendLoop c passes n queue) ∧
      (queue.length ≤ n → (sendLoop c passes n queue).2 = []) := by
  induction n generalizing queue with
  | zero => exact ⟨.nothing queue, fun h => List.length_eq_zero_iff.mp (Nat.le_zero.mp h)⟩
  | succ n ih =>
    have htry := tryBundle_sends c (passes n) queue
    have hlen := htry.length
    simp only [sendLoop]
    generalize tryBundle c (passes n) queue = r at htry hlen ⊢
    obtain ⟨reqs, rest⟩ := r
    cases rest with
    | nil => exact ⟨htry, fun _ => rfl⟩
    | cons p rest =>
      obtain ⟨hsends, hall⟩ := ih rest
      refine ⟨htry.andThen ((Sends.write p rest).andThen hsends), fun h => hall ?_⟩
      rw [List.length_cons] at hlen
      omega

theorem htcTxSend_frames (c : Config) (passes : Nat → Pass) (queue : List HtcPacket) :
    Frames queue (handed (htcTxSend c passes queue)) := by
  obtain ⟨⟨ps, rest, hsplit, hframes, hcarries⟩, hall⟩ := sendLoop_sends c passes queue.length queue
  rw [hall (Nat.le_refl _)] at hcarries
  rw [List.forall₂_nil_right_iff.mp hcarries, List.append_nil] at hsplit
  subst hsplit
  exact hframes

/-! ### What is taken -/

/-- What is taken off `txq`: its first packets, numbered. -/
structure Gets (c : Config) (seqno : UInt8) (txq : List HtcPacket) (got : Got)
    (ps : List HtcPacket) : Prop where
  split : txq = ps ++ got.txq
  next : got.seqno = seqno + UInt8.ofNat ps.length
  length : got.queue.length = ps.length
  frames : ∀ qs, Frames got.queue qs →
    List.Forall₂ (fun x q => Frame x.1 x.2 q) (numbered seqno ps) qs

theorem Gets.nothing (c : Config) (seqno : UInt8) (txq : List HtcPacket) (credits : HtcTarget) :
    Gets c seqno txq ⟨[], txq, seqno, credits⟩ [] where
  split := rfl
  next := (UInt8.add_zero seqno).symm
  length := rfl
  frames qs h := by
    cases h
    exact .nil

theorem Frame.of_numbered {p q : HtcPacket} {flags : UInt8} {n : UInt8}
    (h : Frame { p with flags := flags, seqno := n.toNat } (UInt8.ofNat n.toNat) q) :
    Frame p n q := by
  rw [UInt8.ofNat_toNat] at h
  exact ⟨h.addr, h.actLen, h.eid, h.payldLen, h.number, h.payload⟩

theorem Gets.cons {c : Config} {seqno flags : UInt8} {p : HtcPacket} {txq ps : List HtcPacket}
    {got : Got} (h : Gets c (seqno+1) txq got ps) :
    Gets c seqno (p::txq)
      { got with queue := { p with flags := flags, seqno := seqno.toNat }::got.queue }
      (p::ps) where
  split := congrArg (p :: ·) h.split
  next := by
    rw [h.next, List.length_cons, UInt8.ofNat_add, UInt8.add_assoc, UInt8.add_comm 1]
    rfl
  length := congrArg (· + 1) h.length
  frames qs hq := by
    cases hq with
    | cons hhead htail => exact .cons (Frame.of_numbered hhead) (h.frames _ htail)

theorem pktsGetLoop_gets (c : Config) (reserve : Option (Int × Int)) (txq : List HtcPacket) :
    ∀ used seqno credits, ∃ ps,
      Gets c seqno txq (pktsGetLoop c reserve used seqno credits txq) ps := by
  induction txq with
  | nil => exact fun used seqno credits => ⟨[], .nothing c seqno [] credits⟩
  | cons p txq ih =>
    intro used seqno credits
    simp only [pktsGetLoop]
    split_ifs with hres
    · exact ⟨[], .nothing c seqno _ credits⟩
    cases hcheck : htcCheckCredits credits c.eid (txLen c.target p) with
    | mk credits' grant =>
      cases grant with
      | none => exact ⟨[], .nothing c seqno _ credits'⟩
      | some g =>
        obtain ⟨ps, h⟩ := ih (used + g.reqCred) (seqno+1) credits'
        exact ⟨p::ps, h.cons⟩

/-- The first packet stays where it is: the reserve is reached, or the packet is refused. -/
theorem pktsGetLoop_nothing {c : Config} {reserve : Option (Int × Int)} {seqno : UInt8}
    {credits : HtcTarget} {p : HtcPacket} {txq : List HtcPacket}
    (h : (pktsGetLoop c reserve 0 seqno credits (p::txq)).queue = []) :
    (pktsGetLoop c reserve 0 seqno credits (p::txq)).txq = p::txq ∧
      ((pktsGetLoop c reserve 0 seqno credits (p::txq)).credits = credits ∧
          (∃ r, reserve = some r ∧ r.1 = r.2) ∨
        htcCheckCredits credits c.eid (txLen c.target p) =
          ((pktsGetLoop c reserve 0 seqno credits (p::txq)).credits, none)) := by
  simp only [pktsGetLoop] at h ⊢
  split_ifs at h ⊢ with hres
  · refine ⟨rfl, Or.inl ⟨rfl, ?_⟩⟩
    obtain ⟨r, hr, heq⟩ := (Option.any_eq_true _ _).mp hres
    exact ⟨r, hr, by simpa using heq⟩
  cases hcheck : htcCheckCredits credits c.eid (txLen c.target p) with
  | mk credits' grant =>
    rw [hcheck] at h
    cases grant with
    | none => exact ⟨rfl, Or.inr rfl⟩
    | some g => exact absurd h (List.cons_ne_nil _ _)

section Take
variable {c : Config} {ep : Endpoint}

theorem takeQueue_gets (c : Config) (ep : Endpoint) : ∃ ps,
    Gets c ep.seqno ep.txq ⟨(takeQueue c ep).2, (takeQueue c ep).1.txq, (takeQueue c ep).1.seqno,
      (takeQueue c ep).1.credits⟩ ps := by
  unfold takeQueue
  split_ifs
  · exact ⟨[], .nothing c ep.seqno ep.txq ep.credits⟩
  · exact ⟨[], .nothing c ep.seqno ep.txq ep.credits⟩
  · unfold htcTxPktsGet
    split_ifs
    · exact pktsGetLoop_gets ..
    · exact pktsGetLoop_gets ..

theorem reservedCredit_lt (hc : c.holdsBack) (total : Int) :
    reservedCredit c total < c.lowCpuPowerTxBundleMax :=
  Int.emod_lt_of_pos _ (Int.natCast_pos.mpr (Nat.pos_of_ne_zero hc.1))

theorem takeQueue_left (h : (takeQueue c ep).2 = []) : LeftFor c (takeQueue c ep).1 := by
  unfold takeQueue at h ⊢
  split_ifs at h ⊢ with hnil hfew
  · exact .refused (Or.inl hnil)
  · obtain ⟨htimer, heid, hcall, hlen⟩ := hfew
    exact .few ⟨Nat.ne_of_gt (Nat.zero_lt_of_lt hlen), htimer, heid, hcall⟩ hlen
  obtain ⟨p, txq, hq⟩ := List.exists_cons_of_ne_nil hnil
  unfold htcTxPktsGet at h ⊢
  dsimp only at h ⊢
  rw [hq] at h ⊢
  split_ifs at h ⊢ with hhold
  · obtain ⟨hstay, ⟨hcred, r, hr, heq⟩ | hcheck⟩ := pktsGetLoop_nothing h
    · cases hr
      refine .reserve hhold ep.credits hcred ?_
      rw [hcred]
      exact heq.trans_lt (reservedCredit_lt hhold _)
    · exact .refused (Or.inr ⟨p, txq, _, hstay, hcheck⟩)
  · obtain ⟨hstay, ⟨-, r, hr, -⟩ | hcheck⟩ := pktsGetLoop_nothing h
    · exact nomatch hr
    · exact .refused (Or.inr ⟨p, txq, _, hstay, hcheck⟩)

end Take

/-- The packets that were in `txq` or came to it went out as frames, from the first on, in order
and with consecutive numbers, and the others are in `txq`. -/
def Handed (ep : Endpoint) (call : Call) : Prop :=
  ∃ ps, ep.txq ++ call.arrived = ps ++ call.endpoint.txq ∧
    List.Forall₂ (fun x q => Frame x.1 x.2 q) (numbered ep.seqno ps) (handed call.hif) ∧
    call.endpoint.seqno = ep.seqno + UInt8.ofNat ps.length

section Loop
variable {c : Config} {ep : Endpoint}

theorem Handed.stop (h : (takeQueue c ep).2 = []) :
    Handed ep ⟨(takeQueue c ep).1, [], [], true⟩ := by
  obtain ⟨ps, hgets⟩ := takeQueue_gets c ep
  have hnil : ps = [] := List.length_eq_zero_iff.mp (hgets.length.symm.trans (by simp [h]))
  subst hnil
  refine ⟨[], ?_, .nil, hgets.next⟩
  rw [List.append_nil]
  exact hgets.split

theorem Handed.round {r : Round} {call : Call} (h : Handed (relock (takeQueue c ep).1 r) call) :
    Handed ep { call with
      hif := htcTxSend c r.passes (takeQueue c ep).2 ++ call.hif
      arrived := r.arrivals ++ call.arrived } := by
  obtain ⟨ps, hgets⟩ := takeQueue_gets c ep
  obtain ⟨qs, hsplit, hframes, hnext⟩ := h
  have htake := hgets.next
  have hsend := hgets.frames _ (htcTxSend_frames c r.passes (takeQueue c ep).2)
  dsimp only [relock] at hsplit hframes hnext htake
  refine ⟨ps ++ qs, ?_, ?_, ?_⟩
  · rw [hgets.split, List.append_assoc, List.append_assoc, ← hsplit, List.append_assoc]
  · rw [numbered_append, handed, List.flatMap_append, ← htake]
    exact List.rel_append hsend hframes
  · rw [hnext, htake, List.length_append, UInt8.ofNat_add, UInt8.add_assoc]

theorem fromQueueLoop_handed (c : Config) (rounds : List Round) (ep : Endpoint) :
    Handed ep (fromQueueLoop c rounds ep) := by
  induction rounds generalizing ep with
  | nil =>
    rw [fromQueueLoop]
    split_ifs with h
    · exact .stop h
    · exact ⟨[], List.append_nil _, .nil, (UInt8.add_zero _).symm⟩
  | cons r rounds ih =>
    rw [fromQueueLoop]
    split_ifs with h
    · exact .stop h
    · exact .round (ih _)

theorem fromQueueLoop_left (c : Config) (rounds : List Round) (ep : Endpoint)
    (h : (fromQueueLoop c rounds ep).returned = true) :
    LeftFor c (fromQueueLoop c rounds ep).endpoint := by
  induction rounds generalizing ep with
  | nil =>
    rw [fromQueueLoop] at h ⊢
    split_ifs at h ⊢ with hq
    exact takeQueue_left hq
  | cons r rounds ih =>
    rw [fromQueueLoop] at h ⊢
    split_ifs at h ⊢ with hq
    · exact takeQueue_left hq
    · exact ih _ h

/-- The packets that come while a call is at work. -/
def arrivals (rounds : List Round) : Nat := (rounds.map fun r => r.arrivals.length).sum

theorem fromQueueLoop_returns (c : Config) (rounds : List Round) (ep : Endpoint)
    (h : ep.txq.length + arrivals rounds ≤ rounds.length) :
    (fromQueueLoop c rounds ep).returned = true := by
  induction rounds generalizing ep with
  | nil =>
    have hnil : ep.txq = [] := List.length_eq_zero_iff.mp (by simpa [arrivals] using h)
    rw [fromQueueLoop, takeQueue, if_pos hnil, if_pos rfl]
  | cons r rounds ih =>
    rw [fromQueueLoop]
    split_ifs with hq
    · rfl
    refine ih _ ?_
    obtain ⟨ps, hgets⟩ := takeQueue_gets c ep
    have hlen := congrArg List.length hgets.split
    have hpos := List.length_pos_iff.mpr hq
    have htaken := hgets.length
    dsimp only at hlen htaken
    simp only [arrivals, List.map_cons, List.sum_cons, List.length_cons] at h
    rw [List.length_append] at hlen
    simp only [relock, List.length_append, arrivals]
    omega

end Loop

theorem LeftFor.congr {c : Config} {ep ep' : Endpoint} (h : LeftFor c ep) (hq : ep'.txq = ep.txq)
    (hc : ep'.credits = ep.credits) : LeftFor c ep' := by
  cases h with
  | refused h => exact .refused (by rw [Refused, hq, hc]; exact h)
  | few hh h => exact .few hh (hq ▸ h)
  | reserve hh credits hp h => exact .reserve hh credits (hc.trans hp) (hc ▸ h)

/-- What a call of `ath6kl_htc_tx_from_queue` does to an endpoint: nothing, while another call is
at work on it. -/
structure Drains (c : Config) (rounds : List Round) (ep : Endpoint) (call : Call) : Prop where
  handed : Handed ep call
  busy : ep.txProcCnt ≠ 0 → call = ⟨ep, [], [], true⟩
  left : ep.txProcCnt = 0 → call.returned = true → LeftFor c call.endpoint
  returns : ep.txq.length + arrivals rounds ≤ rounds.length → call.returned = true

/-- Packets leave in the order of `txq`, each once and with consecutive numbers, however they are
bundled, and those that stay are refused their credits or held back for the timer. -/
theorem tx_from_queue_drains (c : Config) (rounds : List Round) (ep : Endpoint) :
    Drains c rounds ep (htcTxFromQueue c rounds ep) := by
  unfold htcTxFromQueue
  by_cases hbusy : ep.txProcCnt+1 > 1
  · rw [if_pos hbusy]
    exact ⟨⟨[], List.append_nil _, .nil, (UInt8.add_zero _).symm⟩, fun _ => rfl,
      fun h => absurd hbusy (by omega), fun _ => rfl⟩
  rw [if_neg hbusy]
  have hidle : ∀ {P : Prop}, ep.txProcCnt ≠ 0 → P := fun h => absurd hbusy (by omega)
  have hhanded := fromQueueLoop_handed c rounds { ep with txProcCnt := ep.txProcCnt+1 }
  have hleft := fromQueueLoop_left c rounds { ep with txProcCnt := ep.txProcCnt+1 }
  have hreturns := fromQueueLoop_returns c rounds { ep with txProcCnt := ep.txProcCnt+1 }
  generalize fromQueueLoop c rounds { ep with txProcCnt := ep.txProcCnt+1 } = call at *
  dsimp only
  split_ifs with hret
  · exact ⟨hhanded, hidle, fun _ _ => (hleft hret).congr rfl rfl, fun _ => hret⟩
  · exact ⟨hhanded, hidle, fun _ => hleft, hreturns⟩

theorem short_of_preCheck (t : HtcTarget) {e : Eid} (len : Nat) (he : e ≠ 0)
    (h : (htcPreCheckCredits t e len).2 = false) :
    ((htcPreCheckCredits t e len).1.endpoint e).credits < reqCred t len := by
  unfold htcPreCheckCredits at h ⊢
  dsimp only at h ⊢
  rw [if_neg he] at h ⊢
  split_ifs at h ⊢ with hlow
  exact Int.not_le.mp (of_decide_eq_false h)

theorem short_of_refused {t t' : HtcTarget} {e : Eid} {len : Nat} (he : e ≠ 0)
    (h : htcCheckCredits t e len = (t', none)) : (t'.endpoint e).credits < reqCred t len := by
  have hpre := short_of_preCheck t len he
  unfold htcCheckCredits at h
  generalize htcPreCheckCredits t e len = pre at h hpre
  obtain ⟨t1, granted⟩ := pre
  cases granted with
  | false =>
    cases h
    exact hpre rfl
  | true =>
    dsimp only at h
    rw [if_neg (by decide)] at h
    split_ifs at h
    · exact nomatch congrArg Prod.snd h
    · exact nomatch congrArg Prod.snd h

theorem reqCred_le (t : HtcTarget) (len : Nat) : reqCred t len ≤ len+1 := by
  unfold reqCred
  split_ifs with h
  · obtain h0 | hpos := Nat.eq_zero_or_pos t.tgtCredSz
    · rw [h0, Nat.div_zero]
      exact Nat.zero_le _
    · have hle := Nat.le_mul_of_pos_left len hpos
      refine Nat.div_le_of_le_mul ?_
      rw [Nat.mul_succ]
      omega
  · omega

def sdioConfig : Config where
  target := mboxTarget
  msgPerBndlMax := 8
  eid := 2
  lowCpuPowerTxBundleMax := 6
  htcBundleSendTimer := 20

/-- One packet on the best effort endpoint, with a thousand credits. -/
def onePacket : Endpoint where
  txq := [{ addr := 1, mem := fun _ => 0, buf := 16, actLen := 50 }]
  credits :=
    { endpoint := fun _ => { svcId := .wmiDataBe, credPerMsg := 1, credits := 1000 }
      credDistList := [2]
      tgtCredSz := 1664 }

/-- It waits for the timer. -/
theorem tx_from_queue_holds_back : ¬∀ c rounds ep, ep.txProcCnt = 0 →
    (htcTxFromQueue c rounds ep).returned = true →
      Refused c (htcTxFromQueue c rounds ep).endpoint := by
  intro h
  have hep : (htcTxFromQueue sdioConfig [] onePacket).endpoint = onePacket := rfl
  obtain hnil | ⟨p, rest, credits, hq, hcheck⟩ := h sdioConfig [] onePacket rfl (by decide)
  · rw [hep] at hnil
    exact List.cons_ne_nil _ _ hnil
  · rw [hep] at hq hcheck
    cases hq
    have hshort := short_of_refused (by decide) hcheck
    have hle := reqCred_le credits (txLen sdioConfig.target
      { addr := 1, mem := fun _ => 0, buf := 16, actLen := 50 })
    have hlen : txLen sdioConfig.target
      { addr := 1, mem := fun _ => 0, buf := 16, actLen := 50 } = 128 := by decide
    have hcred : (onePacket.credits.endpoint sdioConfig.eid).credits = 1000 := rfl
    omega

end Ath6kl.HtcTxQueue
