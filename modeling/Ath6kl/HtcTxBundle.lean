import Ath6kl.HtcCredit

/-! Transmit bundles of the mailbox HTC (`htc.c`): `ath6kl_htc_tx_setup_scat_list` moves
packets from a queue into a scatter request, each padded to whole credits, and moves them back
when there are too few for a bundle. -/
namespace Ath6kl.HtcTxBundle
open Htc HtcCredit

/-- The fields of `struct htc_target`; `htc_wait_target` refuses a credit size of 0. -/
structure TxTarget where
  tgtCredSz : Nat
  credSz_pos : 0 < tgtCredSz
  blockMask : Nat
  maxTxBndlSz : Nat

/-- `struct htc_packet` at `addr`, with `mem` the memory around its buffer. -/
structure HtcPacket where
  addr : Nat
  mem : Int → UInt8
  buf : Int
  actLen : Nat
  endpoint : Eid := 2
  flags : UInt8 := 0
  seqno : Nat := 0

def htcFlagsSendBundle : UInt8 := 2
def htcMinHtcMsgsToBundle : Nat := 2

/-- `CALC_TXRX_PADDED_LEN`, which is `(len + mask) & ~mask`. -/
def calcTxrxPaddedLen (t : TxTarget) (len : Nat) : Nat :=
  (len + t.blockMask) - ((len + t.blockMask) &&& t.blockMask)

/-- The length that `htc_check_credits` and the bundle start from. -/
def txLen (t : TxTarget) (p : HtcPacket) : Nat := calcTxrxPaddedLen t (p.actLen + htcHdrLength)

/-- `htc_get_credit_padding`: the new length and the padding; `none` is -1. `padEn` is
`HTC_FLGS_TX_BNDL_PAD_EN`. -/
def htcGetCreditPadding (credSz len : Nat) (padEn : Bool) : Option (Nat × Nat) :=
  let remCred := len % credSz
  if remCred = 0 then some (len, 0)
  else if !padEn then none
  else
    let credPad := if len < credSz then credSz - len else remCred
    if 0 < credPad ∧ credPad ≤ 255 then some (len + credPad, credPad) else none

def store (mem : Int → UInt8) (a : Int) (bs : List UInt8) : Int → UInt8 := fun x =>
  if a ≤ x ∧ x < a + bs.length then bs.getD (x - a).toNat 0 else mem x

def memmove (mem : Int → UInt8) (dst src : Int) (len : Nat) : Int → UInt8 := fun x =>
  if dst ≤ x ∧ x < dst + len then mem (src + (x - dst)) else mem x

/-- `ath6kl_htc_tx_prep_pkt`. -/
def htcTxPrepPkt (p : HtcPacket) (flags : UInt8) (ctrl0 ctrl1 : Nat) : HtcPacket :=
  let buf := p.buf - htcHdrLength
  { p with
    buf := buf
    mem := store p.mem buf
      [UInt8.ofNat p.endpoint, flags, UInt8.ofNat p.actLen, UInt8.ofNat (p.actLen / 256),
        UInt8.ofNat ctrl0, UInt8.ofNat ctrl1] }

/-- `PTR_ALIGN(a, 4)`. -/
def ptrAlign4 (a : Int) : Int := (a + 3) / 4 * 4

/-- `ath6kl_htc_tx_buf_align`. -/
def htcTxBufAlign (p : HtcPacket) (len : Nat) : HtcPacket :=
  if p.buf % 4 = 0 then p
  else
    let alignAddr := ptrAlign4 (p.buf - 4)
    { p with buf := alignAddr, mem := memmove p.mem alignAddr p.buf len }

/-- `struct hif_scatter_item`. -/
structure ScatItem where
  packet : HtcPacket
  buf : Int
  len : Nat

/-- `struct hif_scatter_req`; `entries` are the first `scat_entries` of `scat_list`. -/
structure ScatReq where
  entries : List ScatItem := []
  len : Nat := 0

/-- The status and what the queue and the request have become. -/
inductive Status
  | ok
  | enospc
  | eagain
deriving DecidableEq

structure Setup where
  status : Status
  req : ScatReq
  queue : List HtcPacket

def scatItem (p : HtcPacket) (len credPad : Nat) : ScatItem :=
  let p := htcTxBufAlign (htcTxPrepPkt p (p.flags ||| htcFlagsSendBundle) credPad p.seqno)
    (p.actLen + htcHdrLength)
  ⟨p, p.buf, len⟩

/-- The loop over `scat_list`, for at most `n` more entries. -/
def setupLoop (t : TxTarget) (padEn : Bool) : Nat → Nat → ScatReq → List HtcPacket → Setup
  | 0, _, req, queue => ⟨.ok, req, queue⟩
  | _+1, _, req, [] => ⟨.ok, req, []⟩
  | n+1, remScat, req, p::queue =>
    match htcGetCreditPadding t.tgtCredSz (txLen t p) padEn with
    | none => ⟨.enospc, req, p::queue⟩
    | some (len, credPad) =>
      if remScat < len then ⟨.enospc, req, p::queue⟩
      else
        setupLoop t padEn n (remScat - len)
          ⟨req.entries ++ [scatItem p len credPad], req.len + len⟩ queue

/-- "Roll back scatter setup": from the last entry to the first, each goes to the head. -/
def rollBack (entries : List ScatItem) (queue : List HtcPacket) : List HtcPacket :=
  entries.foldr (fun e queue => { e.packet with buf := e.packet.buf + htcHdrLength } :: queue)
    queue

/-- `ath6kl_htc_tx_setup_scat_list`. -/
def htcTxSetupScatList (t : TxTarget) (padEn : Bool) (nScat : Nat) (queue : List HtcPacket) :
    Setup :=
  let r := setupLoop t padEn nScat t.maxTxBndlSz {} queue
  if r.req.entries.length < htcMinHtcMsgsToBundle then
    ⟨.eagain, r.req, rollBack r.req.entries r.queue⟩
  else r

/-- `q` is the packet `p`, with its payload `off` bytes behind `buf`. -/
structure Carries (off : Int) (p q : HtcPacket) : Prop where
  addr : q.addr = p.addr
  actLen : q.actLen = p.actLen
  endpoint : q.endpoint = p.endpoint
  flags : q.flags = p.flags
  seqno : q.seqno = p.seqno
  payload : ∀ i : Nat, i < p.actLen → q.mem (q.buf + off + i) = p.mem (p.buf + i)

/-- What a bundle made from `queue` should be. -/
structure Bundled (t : TxTarget) (queue : List HtcPacket) (r : Setup) : Prop where
  aligned : ∀ e∈r.req.entries, t.tgtCredSz ∣ e.len
  charged : ∀ e∈r.req.entries, ∀ c : HtcTarget, c.tgtCredSz = t.tgtCredSz →
    ∀ ep g, (htcCheckCredits c ep (txLen t e.packet)).2 = some g →
      e.len ≤ g.reqCred * t.tgtCredSz
  inOrder : List.Forall₂ (fun p e => Carries htcHdrLength p e.packet ∧ e.buf = e.packet.buf)
    (queue.take r.req.entries.length) r.req.entries
  rest : r.status ≠ .eagain → r.queue = queue.drop r.req.entries.length
  total : r.req.len = (r.req.entries.map fun e => e.len).sum
  fits : r.req.len ≤ t.maxTxBndlSz
  restored : r.status = .eagain → List.Forall₂ (Carries 0) queue r.queue

/-- The packets, one after the other, can be padded and fit into `remScat` bytes; the entries
that they become. -/
inductive Taken (t : TxTarget) (padEn : Bool) :
    Nat → List HtcPacket → List ScatItem → Prop
  | nil (remScat : Nat) : Taken t padEn remScat [] []
  | cons {remScat len credPad : Nat} {p : HtcPacket} {ps : List HtcPacket} {es : List ScatItem}
      (hpad : htcGetCreditPadding t.tgtCredSz (txLen t p) padEn = some (len, credPad))
      (hfit : len ≤ remScat) (h : Taken t padEn (remScat - len) ps es) :
      Taken t padEn remScat (p::ps) (scatItem p len credPad :: es)

/-- The packets fit into one bundle. -/
def Fits (t : TxTarget) (padEn : Bool) (ps : List HtcPacket) : Prop :=
  ∃ es, Taken t padEn t.maxTxBndlSz ps es

/-- A packet of more than one credit whose rest is taken for the padding. -/
def Spills (t : TxTarget) (padEn : Bool) (p : HtcPacket) : Prop :=
  padEn = true ∧ t.tgtCredSz < txLen t p ∧ 0 < txLen t p % t.tgtCredSz ∧
    txLen t p % t.tgtCredSz ≤ 255 ∧ 2 * (txLen t p % t.tgtCredSz) ≠ t.tgtCredSz

section
variable {credSz len : Nat} {padEn : Bool} {len' credPad : Nat}

/-- What `htc_get_credit_padding` accepts. -/
theorem getCreditPadding_cases (h : htcGetCreditPadding credSz len padEn = some (len', credPad)) :
    len % credSz = 0 ∧ len' = len ∨
    len < credSz ∧ len' = credSz ∨
    padEn = true ∧ credSz ≤ len ∧ 0 < len % credSz ∧ len % credSz ≤ 255 ∧
      len' = len + len % credSz := by
  unfold htcGetCreditPadding at h
  dsimp only at h
  by_cases hz : len % credSz = 0
  · rw [if_pos hz] at h
    cases h
    exact .inl ⟨hz, rfl⟩
  · rw [if_neg hz] at h
    cases hp : padEn with
    | false => simp [hp] at h
    | true =>
      by_cases hlt : len < credSz
      · refine .inr (.inl ⟨hlt, ?_⟩)
        simp only [hp, Bool.not_true, Bool.false_eq_true, ↓reduceIte, if_pos hlt] at h
        split at h
        · cases h
          omega
        · cases h
      · refine .inr (.inr ⟨rfl, not_lt.mp hlt, Nat.pos_of_ne_zero hz, ?_⟩)
        simp only [hp, Bool.not_true, Bool.false_eq_true, ↓reduceIte, if_neg hlt] at h
        split at h
        next hpad =>
          cases h
          exact ⟨hpad.2, rfl⟩
        · cases h

theorem dvd_add_mod (h0 : 0 < credSz) (hr : 0 < len % credSz) :
    credSz ∣ len + len % credSz ↔ 2 * (len % credSz) = credSz := by
  have hlt := Nat.mod_lt len h0
  have hsplit : len + len % credSz = credSz * (len / credSz) + 2 * (len % credSz) := by
    have := Nat.div_add_mod len credSz
    omega
  rw [hsplit, ← Nat.dvd_add_iff_right (Nat.dvd_mul_right credSz (len / credSz))]
  constructor
  · rintro ⟨k, hk⟩
    have hk1 : k = 1 := by
      cases k with
      | zero => omega
      | succ k =>
        cases k with
        | zero => rfl
        | succ k =>
          rw [Nat.mul_succ, Nat.mul_succ] at hk
          omega
    rw [hk, hk1, Nat.mul_one]
  · intro h
    rw [h]

end

theorem getCreditPadding_aligned {t : TxTarget} {padEn : Bool} {p : HtcPacket}
    {len credPad : Nat}
    (h : htcGetCreditPadding t.tgtCredSz (txLen t p) padEn = some (len, credPad)) :
    t.tgtCredSz ∣ len ↔ ¬Spills t padEn p := by
  have h0 := t.credSz_pos
  unfold Spills
  obtain ⟨hz, rfl⟩ | ⟨hlt, rfl⟩ | ⟨hp, hle, hpos, hmax, rfl⟩ := getCreditPadding_cases h
  · refine iff_of_true (Nat.dvd_of_mod_eq_zero hz) fun hs => ?_
    omega
  · exact iff_of_true (dvd_refl _) fun hs => absurd hs.2.1 (Nat.not_lt.mpr hlt.le)
  · rw [dvd_add_mod h0 hpos]
    have hlt : t.tgtCredSz < txLen t p := by
      refine lt_of_le_of_ne hle fun he => ?_
      rw [← he, Nat.mod_self] at hpos
      exact lt_irrefl 0 hpos
    constructor
    · intro he hs
      exact hs.2.2.2.2 he
    · intro hn
      by_contra hne
      exact hn ⟨hp, hlt, hpos, hmax, hne⟩

/-- `htc_check_credits` grants what the length takes. -/
theorem htcCheckCredits_reqCred {c : HtcTarget} {ep : Eid} {len : Nat} {g : CreditGrant}
    (h : (htcCheckCredits c ep len).2 = some g) : g.reqCred = reqCred c len := by
  unfold htcCheckCredits at h
  dsimp only at h
  split at h
  · cases h
  · split at h
    · cases h
      rfl
    · cases h
      rfl

theorem getCreditPadding_charged {t : TxTarget} {padEn : Bool} {p : HtcPacket}
    {len credPad : Nat}
    (h : htcGetCreditPadding t.tgtCredSz (txLen t p) padEn = some (len, credPad))
    (hd : t.tgtCredSz ∣ len) {c : HtcTarget} (hc : c.tgtCredSz = t.tgtCredSz) :
    len ≤ reqCred c (txLen t p) * t.tgtCredSz := by
  have h0 := t.credSz_pos
  obtain ⟨k, rfl⟩ := hd
  have hk : k ≤ reqCred c (txLen t p) := by
    unfold reqCred
    rw [hc]
    split
    next hgt =>
      rw [Nat.le_div_iff_mul_le h0, Nat.mul_comm]
      obtain ⟨hz, he⟩ | ⟨hlt, he⟩ | ⟨hp, hle, hpos, hmax, he⟩ := getCreditPadding_cases h
      · omega
      · omega
      · have hlt := Nat.mod_lt (txLen t p) h0
        have hsplit := (dvd_add_mod h0 hpos).mp (he ▸ Nat.dvd_mul_right _ _)
        omega
    next hgt =>
      obtain ⟨hz, he⟩ | ⟨hlt, he⟩ | ⟨hp, hle, hpos, hmax, he⟩ := getCreditPadding_cases h
      · have hle : t.tgtCredSz * k ≤ t.tgtCredSz * 1 := by omega
        exact Nat.le_of_mul_le_mul_left hle h0
      · have hle : t.tgtCredSz * k ≤ t.tgtCredSz * 1 := by omega
        exact Nat.le_of_mul_le_mul_left hle h0
      · have heq : txLen t p = t.tgtCredSz := by omega
        rw [heq, Nat.mod_self] at hpos
        exact absurd hpos (lt_irrefl 0)
  rw [Nat.mul_comm]
  exact Nat.mul_le_mul_right _ hk

theorem bufAlign_carries (p : HtcPacket) (len : Nat) {i : Nat} (hi : i < len) :
    (htcTxBufAlign p len).mem ((htcTxBufAlign p len).buf + i) = p.mem (p.buf + i) := by
  unfold htcTxBufAlign
  split
  · rfl
  · dsimp only [memmove]
    rw [if_pos (by omega)]
    congr 1
    omega

theorem scatItem_carries (p : HtcPacket) (len credPad : Nat) :
    Carries htcHdrLength p (scatItem p len credPad).packet := by
  have hframe : ∀ (q : HtcPacket) (n : Nat), (htcTxBufAlign q n).addr = q.addr ∧
      (htcTxBufAlign q n).actLen = q.actLen ∧ (htcTxBufAlign q n).endpoint = q.endpoint ∧
      (htcTxBufAlign q n).flags = q.flags ∧ (htcTxBufAlign q n).seqno = q.seqno := fun q n => by
    unfold htcTxBufAlign
    split <;> exact ⟨rfl, rfl, rfl, rfl, rfl⟩
  obtain ⟨ha, hl, he, hf, hs⟩ := hframe
    (htcTxPrepPkt p (p.flags ||| htcFlagsSendBundle) credPad p.seqno) (p.actLen + htcHdrLength)
  refine ⟨ha, hl, he, hf, hs, fun i hi => ?_⟩
  have hmove := bufAlign_carries
    (htcTxPrepPkt p (p.flags ||| htcFlagsSendBundle) credPad p.seqno) (p.actLen + htcHdrLength)
    (i := htcHdrLength + i) (by omega)
  have hbuf : ∀ b : Int, b + (htcHdrLength : Nat) + (i : Nat) = b + ((htcHdrLength + i : Nat)) :=
    fun b => by omega
  unfold scatItem
  dsimp only
  rw [hbuf, hmove]
  -- the header ends where the payload begins
  dsimp only [htcTxPrepPkt, store, List.length_cons, List.length_nil]
  rw [if_neg (by unfold htcHdrLength; omega)]
  congr 1
  omega

theorem Carries.refl (p : HtcPacket) : Carries 0 p p :=
  ⟨rfl, rfl, rfl, rfl, rfl, fun i _ => by rw [Int.add_zero]⟩

theorem Carries.back {p q : HtcPacket} (h : Carries htcHdrLength p q) :
    Carries 0 p { q with buf := q.buf + htcHdrLength } :=
  ⟨h.addr, h.actLen, h.endpoint, h.flags, h.seqno, fun i hi => by
    dsimp only
    rw [Int.add_zero]
    exact h.payload i hi⟩

section
variable {t : TxTarget} {padEn : Bool} {remScat : Nat} {ps qs : List HtcPacket}
  {es : List ScatItem}

theorem Taken.carries (h : Taken t padEn remScat ps es) :
    List.Forall₂ (fun p e => Carries htcHdrLength p e.packet ∧ e.buf = e.packet.buf) ps es := by
  induction h with
  | nil => exact .nil
  | cons hpad hfit h ih => exact .cons ⟨scatItem_carries _ _ _, rfl⟩ ih

theorem Taken.length (h : Taken t padEn remScat ps es) : ps.length = es.length :=
  h.carries.length_eq

theorem Taken.sum (h : Taken t padEn remScat ps es) :
    (es.map fun e => e.len).sum ≤ remScat := by
  induction h with
  | nil => exact Nat.zero_le _
  | @cons remScat len credPad p ps es hpad hfit h ih =>
    have hlen : (scatItem p len credPad).len = len := rfl
    rw [List.map_cons, List.sum_cons, hlen]
    omega

theorem Taken.mem_entry (h : Taken t padEn remScat ps es) {e : ScatItem} (he : e∈es) :
    ∃ p∈ps, ∃ credPad, e = scatItem p e.len credPad ∧
      htcGetCreditPadding t.tgtCredSz (txLen t p) padEn = some (e.len, credPad) := by
  induction h with
  | nil => cases he
  | @cons remScat len credPad p ps es hpad hfit h ih =>
    obtain rfl | he := List.mem_cons.mp he
    · exact ⟨p, List.mem_cons_self, credPad, rfl, hpad⟩
    · obtain ⟨q, hq, h⟩ := ih he
      exact ⟨q, List.mem_cons_of_mem p hq, h⟩

theorem Taken.mem_packet (h : Taken t padEn remScat ps es) {p : HtcPacket} (hp : p∈ps) :
    ∃ e∈es, ∃ credPad,
      htcGetCreditPadding t.tgtCredSz (txLen t p) padEn = some (e.len, credPad) := by
  induction h with
  | nil => cases hp
  | @cons remScat len credPad q ps es hpad hfit h ih =>
    obtain rfl | hp := List.mem_cons.mp hp
    · exact ⟨_, List.mem_cons_self, credPad, hpad⟩
    · obtain ⟨e, he, h⟩ := ih hp
      exact ⟨e, List.mem_cons_of_mem _ he, h⟩

theorem Taken.of_append (h : Taken t padEn remScat (ps ++ qs) es) :
    ∃ fs, Taken t padEn remScat ps fs := by
  induction ps generalizing remScat es with
  | nil => exact ⟨[], .nil remScat⟩
  | cons p ps ih =>
    cases h with
    | cons hpad hfit h =>
      obtain ⟨fs, h⟩ := ih h
      exact ⟨_, .cons hpad hfit h⟩

/-- The loop takes the longest run of packets that fits. -/
structure Drained (t : TxTarget) (padEn : Bool) (remScat n : Nat) (req : ScatReq)
    (queue : List HtcPacket) (r : Setup) (ps : List HtcPacket) (es : List ScatItem) : Prop where
  split : queue = ps ++ r.queue
  taken : Taken t padEn remScat ps es
  length : ps.length ≤ n
  longest : ∀ p qs, r.queue = p::qs → ps.length < n →
    ¬∃ fs, Taken t padEn remScat (ps ++ [p]) fs
  status : r.status ≠ .eagain
  req : r.req = ⟨req.entries ++ es, req.len + (es.map fun e => e.len).sum⟩

theorem Drained.stop {n : Nat} {req : ScatReq} {queue : List HtcPacket} {status : Status}
    (hs : status ≠ .eagain)
    (hno : ∀ p qs, queue = p::qs → 0 < n → ¬∃ fs, Taken t padEn remScat [p] fs) :
    Drained t padEn remScat n req queue ⟨status, req, queue⟩ [] [] :=
  ⟨rfl, .nil remScat, Nat.zero_le n, hno, hs, by simp⟩

theorem Drained.cons {n len credPad : Nat} {req : ScatReq} {p : HtcPacket}
    {queue : List HtcPacket} {r : Setup}
    (hpad : htcGetCreditPadding t.tgtCredSz (txLen t p) padEn = some (len, credPad))
    (hfit : len ≤ remScat)
    (h : Drained t padEn (remScat - len) n
      ⟨req.entries ++ [scatItem p len credPad], req.len + len⟩ queue r ps es) :
    Drained t padEn remScat (n+1) req (p::queue) r (p::ps) (scatItem p len credPad :: es) where
  split := congrArg (p :: ·) h.split
  taken := .cons hpad hfit h.taken
  length := Nat.succ_le_succ h.length
  longest q qs hq hlt := by
    rintro ⟨fs, hfs⟩
    cases hfs with
    | cons hpad' hfit' hfs =>
      cases hpad.symm.trans hpad'
      exact h.longest q qs hq (Nat.lt_of_succ_lt_succ hlt) ⟨_, hfs⟩
  status := h.status
  req := by
    have hlen : (scatItem p len credPad).len = len := rfl
    rw [h.req, List.map_cons, List.sum_cons, hlen]
    simp [Nat.add_assoc]

theorem setupLoop_drained (t : TxTarget) (padEn : Bool) (n remScat : Nat) (req : ScatReq)
    (queue : List HtcPacket) :
    ∃ ps es, Drained t padEn remScat n req queue (setupLoop t padEn n remScat req queue) ps es := by
  induction n generalizing remScat req queue with
  | zero => exact ⟨[], [], .stop (by decide) fun _ _ _ h => absurd h (Nat.not_lt_zero 0)⟩
  | succ n ih =>
    cases queue with
    | nil => exact ⟨[], [], .stop (by decide) fun _ _ h => by cases h⟩
    | cons p queue =>
      unfold setupLoop
      cases hpad : htcGetCreditPadding t.tgtCredSz (txLen t p) padEn with
      | none =>
        refine ⟨[], [], .stop (by decide) ?_⟩
        rintro _ _ ⟨⟩ _ ⟨fs, h⟩
        cases h with
        | cons hpad' => cases hpad.symm.trans hpad'
      | some r =>
        obtain ⟨len, credPad⟩ := r
        dsimp only
        split
        next hfit =>
          refine ⟨[], [], .stop (by decide) ?_⟩
          rintro _ _ ⟨⟩ _ ⟨fs, h⟩
          cases h with
          | cons hpad' hfit' =>
            cases hpad.symm.trans hpad'
            omega
        next hfit =>
          obtain ⟨ps, es, h⟩ := ih (remScat - len)
            ⟨req.entries ++ [scatItem p len credPad], req.len + len⟩ queue
          exact ⟨_, _, h.cons hpad (Nat.not_lt.mp hfit)⟩

theorem rollBack_carries (h : Taken t padEn remScat ps es) (rest : List HtcPacket) :
    List.Forall₂ (Carries 0) (ps ++ rest) (rollBack es rest) := by
  induction h with
  | nil => exact List.forall₂_same.mpr fun p _ => Carries.refl p
  | cons hpad hfit h ih => exact .cons (scatItem_carries _ _ _).back ih

end

/-- What `ath6kl_htc_tx_setup_scat_list` always does, whatever the padding: `ps` become the
entries `es` and `rest` stays behind. -/
structure SetUp (t : TxTarget) (padEn : Bool) (nScat : Nat) (queue : List HtcPacket) (r : Setup)
    (ps : List HtcPacket) (es : List ScatItem) (rest : List HtcPacket) : Prop where
  split : queue = ps ++ rest
  taken : Taken t padEn t.maxTxBndlSz ps es
  length : ps.length ≤ nScat
  longest : ∀ p qs, rest = p::qs → ps.length < nScat → ¬Fits t padEn (ps ++ [p])
  req : r.req = ⟨es, (es.map fun e => e.len).sum⟩
  sent : r.status ≠ .eagain → r.queue = rest
  undone : r.status = .eagain → r.queue = rollBack es rest

theorem setup_setUp (t : TxTarget) (padEn : Bool) (nScat : Nat) (queue : List HtcPacket) :
    ∃ ps es rest,
      SetUp t padEn nScat queue (htcTxSetupScatList t padEn nScat queue) ps es rest := by
  obtain ⟨ps, es, h⟩ := setupLoop_drained t padEn nScat t.maxTxBndlSz {} queue
  have hreq : (setupLoop t padEn nScat t.maxTxBndlSz {} queue).req =
      ⟨es, (es.map fun e => e.len).sum⟩ := by
    rw [h.req]
    simp
  refine ⟨ps, es, _, h.split, h.taken, h.length, h.longest, ?_, ?_, ?_⟩
  all_goals
    unfold htcTxSetupScatList
    dsimp only
    rw [hreq]
    split
  · rfl
  · exact hreq
  · exact fun hs => absurd rfl hs
  · exact fun _ => rfl
  · exact fun _ => rfl
  · exact fun hs => absurd hs h.status

section
variable {t : TxTarget} {padEn : Bool} {nScat : Nat} {queue : List HtcPacket} {r : Setup}
variable {ps : List HtcPacket} {es : List ScatItem} {rest : List HtcPacket}

theorem SetUp.mem_of_fits (h : SetUp t padEn nScat queue r ps es rest) {us : List HtcPacket}
    {p : HtcPacket} (hpre : us ++ [p] <+: queue.take nScat) (hfit : Fits t padEn (us ++ [p])) :
    p∈ps := by
  have hps : ps <+: queue := ⟨rest, h.split.symm⟩
  have hus : us ++ [p] <+: queue := hpre.trans (List.take_prefix nScat queue)
  have hlast : p∈us ++ [p] := List.mem_append_right us (List.mem_singleton_self p)
  obtain hle | ⟨vs, hvs⟩ := List.prefix_or_prefix_of_prefix hus hps
  · exact hle.subset hlast
  · cases vs with
    | nil =>
      rw [List.append_nil] at hvs
      rw [hvs]
      exact hlast
    | cons v vs =>
      -- the loop would have taken `v` as well
      exfalso
      obtain ⟨ws, hws⟩ := hus
      have hrest : rest = v::(vs ++ ws) := by
        rw [h.split, ← hvs, List.append_assoc] at hws
        exact (List.append_cancel_left hws).symm
      have hshort : ps.length < nScat := by
        have h1 := hpre.length_le
        have h2 := congrArg List.length hvs
        rw [List.length_take] at h1
        rw [List.length_append, List.length_cons] at h2
        omega
      obtain ⟨fs, hfs⟩ := hfit
      rw [← hvs, ← List.singleton_append, ← List.append_assoc] at hfs
      exact h.longest v _ hrest hshort hfs.of_append

theorem SetUp.fits_of_mem (h : SetUp t padEn nScat queue r ps es rest) {p : HtcPacket}
    (hp : p∈ps) :
    ∃ us, us ++ [p] <+: queue.take nScat ∧ Fits t padEn (us ++ [p]) := by
  obtain ⟨us, vs, hsplit⟩ := List.append_of_mem hp
  have hlength := h.length
  have htaken := h.taken
  rw [hsplit] at hlength htaken
  rw [← List.singleton_append, ← List.append_assoc] at htaken
  refine ⟨us, List.prefix_take_iff.mpr ⟨⟨vs ++ rest, ?_⟩, ?_⟩, htaken.of_append⟩
  · rw [h.split, hsplit]
    simp
  · simp only [List.length_append, List.length_cons, List.length_nil] at hlength ⊢
    omega

theorem SetUp.bundled (h : SetUp t padEn nScat queue r ps es rest)
    (hdvd : ∀ e∈es, t.tgtCredSz ∣ e.len) : Bundled t queue r := by
  have hlength := h.taken.length
  constructor
  case aligned =>
    rw [h.req]
    exact hdvd
  case charged =>
    intro e he c hc ep g hg
    rw [h.req] at he
    obtain ⟨p, hp, credPad, hitem, hpad⟩ := h.taken.mem_entry he
    have hcarry := scatItem_carries p e.len credPad
    rw [← hitem] at hcarry
    have htx : txLen t e.packet = txLen t p := by
      unfold txLen
      rw [hcarry.actLen]
    rw [htcCheckCredits_reqCred hg, htx]
    exact getCreditPadding_charged hpad (hdvd e he) hc
  case inOrder =>
    rw [h.req, h.split]
    dsimp only
    rw [List.take_left' hlength]
    exact h.taken.carries
  case rest =>
    intro hs
    rw [h.sent hs, h.req, h.split]
    dsimp only
    rw [List.drop_left' hlength]
  case total => rw [h.req]
  case fits =>
    rw [h.req]
    exact h.taken.sum
  case restored =>
    intro hs
    rw [h.undone hs, h.split]
    exact rollBack_carries h.taken rest

end

/-- A bundle is aligned, covered by its credits, in order and reversible exactly when no packet
in it spills. -/
theorem tx_bundle_aligned (t : TxTarget) (padEn : Bool) (nScat : Nat) (queue : List HtcPacket) :
    Bundled t queue (htcTxSetupScatList t padEn nScat queue) ↔
      ∀ ps p, ps ++ [p] <+: queue.take nScat → Fits t padEn (ps ++ [p]) → ¬Spills t padEn p := by
  obtain ⟨us, es, rest, h⟩ := setup_setUp t padEn nScat queue
  constructor
  · intro hb ps p hpre hfit
    obtain ⟨e, he, credPad, hpad⟩ := h.taken.mem_packet (h.mem_of_fits hpre hfit)
    refine (getCreditPadding_aligned hpad).mp (hb.aligned e ?_)
    rw [h.req]
    exact he
  · intro hs
    refine h.bundled fun e he => ?_
    obtain ⟨p, hp, credPad, hitem, hpad⟩ := h.taken.mem_entry he
    obtain ⟨ps, hpre, hfit⟩ := h.fits_of_mem hp
    exact (getCreditPadding_aligned hpad).mpr (hs ps p hpre hfit)

def mboxTarget : TxTarget where
  tgtCredSz := 1664
  credSz_pos := by decide
  blockMask := 127
  maxTxBndlSz := 8192

/-- Two frames of 1786 bytes: 1792 with the header, one credit and 128 bytes. -/
def longFrames : List HtcPacket :=
  [{ addr := 1, mem := fun _ => 0, buf := 16, actLen := 1786 },
    { addr := 2, mem := fun _ => 0, buf := 16, actLen := 1786 }]

/-- Each is sent with 1920 bytes. -/
theorem tx_bundle_spills :
    ¬Bundled mboxTarget longFrames (htcTxSetupScatList mboxTarget true 2 longFrames) := by
  intro h
  have hlen : ∀ e∈(htcTxSetupScatList mboxTarget true 2 longFrames).req.entries,
      1664 ∣ e.len := h.aligned
  revert hlen
  decide

end Ath6kl.HtcTxBundle
