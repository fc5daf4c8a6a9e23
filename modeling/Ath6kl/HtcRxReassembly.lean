import Ath6kl.HtcRx

/-! Reassembly of HTC messages: how a message is split makes no difference, and the sum of
the collected lengths stays below the announced one unless a netbuf overshoots it. -/
namespace Ath6kl.HtcRx
open EthFrame Htc Lib.Machine

/-- No message is being collected, or one that is not yet complete. -/
structure Sound (t : RxTarget) : Prop where
  idle : t.rxSgInProgress = false → t.rxSgTotalLenCur = 0 ∧ t.rxSgQ = []
  busy : t.rxSgInProgress = true → t.rxSgTotalLenCur < t.rxSgTotalLenExp

/-- The collected length never exceeds the announced one. -/
def Bounded (t : RxTarget) : Prop :=
  t.rxSgInProgress = true → t.rxSgTotalLenCur ≤ t.rxSgTotalLenExp

/-- A netbuf is no longer than what the message being collected still misses. -/
def NoOvershoot (t : RxTarget) (nb : Netbuf) : Prop :=
  t.rxSgInProgress = true → u32 (t.rxSgTotalLenCur + nb.len) ≤ t.rxSgTotalLenExp

theorem u32_of_lt {n : Nat} (h : n < 4294967296) : u32 n = n := Nat.mod_eq_of_lt h

theorem hdrPayldLen_lt (skb : Skb) : hdrPayldLen skb < 65536 := by
  have h2 := (skb.byte 2).toNat_lt
  have h3 := (skb.byte 3).toNat_lt
  rw [hdrPayldLen]
  omega

/-- The fields reassembly keeps between two calls. -/
structure SameSg (t t' : RxTarget) : Prop where
  inProgress : t'.rxSgInProgress = t.rxSgInProgress
  exp : t'.rxSgTotalLenExp = t.rxSgTotalLenExp
  cur : t'.rxSgTotalLenCur = t.rxSgTotalLenCur
  q : t'.rxSgQ = t.rxSgQ

theorem Sound.same {t t' : RxTarget} (h : Sound t) (hs : SameSg t t') : Sound t' where
  idle hp := by
    rw [hs.inProgress] at hp
    rw [hs.cur, hs.q]
    exact h.idle hp
  busy hp := by
    rw [hs.inProgress] at hp
    rw [hs.cur, hs.exp]
    exact h.busy hp

theorem rxPayload_sg (t : RxTarget) (skb : Skb) (trailerlen : Nat) :
    SameSg t (rxPayload t skb trailerlen).1 := by
  unfold rxPayload
  split
  · exact ⟨rfl, rfl, rfl, rfl⟩
  · split
    · unfold rxControl
      split <;> exact ⟨rfl, rfl, rfl, rfl⟩
    · split <;> exact ⟨rfl, rfl, rfl, rfl⟩

theorem rxProcess_sg (t : RxTarget) {skb : Skb}
    (h : hdrPayldLen skb + htcHdrLength ≤ skb.data.length) :
    SameSg t (rxProcess t skb).1 := by
  unfold rxProcess
  split
  · exact ⟨rfl, rfl, rfl, rfl⟩
  · split
    · exact ⟨rfl, rfl, rfl, rfl⟩
    · dsimp only
      rw [if_neg (Nat.not_lt.mpr h)]
      split
      · split
        · exact ⟨rfl, rfl, rfl, rfl⟩
        · split
          · exact ⟨rfl, rfl, rfl, rfl⟩
          · have hp := rxPayload_sg (htcProcessTrailer t
              (skb.copy (htcHdrLength + hdrPayldLen skb - hdrCtrl0 skb) (hdrCtrl0 skb))
              (hdrEid skb)).1 skb (hdrCtrl0 skb)
            exact ⟨hp.inProgress, hp.exp, hp.cur, hp.q⟩
      · exact rxPayload_sg t skb 0

def startSg (t : RxTarget) (skb : Skb) : RxTarget :=
  { t with rxSgInProgress := true
           rxSgQ := t.rxSgQ ++ [skb.data]
           rxSgTotalLenExp := hdrPayldLen skb + htcHdrLength
           rxSgTotalLenCur := u32 (t.rxSgTotalLenCur + skb.data.length) }

theorem rxProcess_start {t : RxTarget} {skb : Skb} (hc : isCrash skb = false)
    (he : hdrEid skb < 9) (h : skb.data.length < hdrPayldLen skb + htcHdrLength) :
    (rxProcess t skb).1 = startSg t skb := by
  unfold rxProcess
  rw [if_neg (by simp [hc]), if_neg (Nat.not_le.mpr he)]
  dsimp only
  rw [if_pos h]
  rfl

theorem Sound.process {t : RxTarget} (h : Sound t) (hp : t.rxSgInProgress = false) (skb : Skb) :
    Sound (rxProcess t skb).1 := by
  by_cases hshort : skb.data.length < hdrPayldLen skb + htcHdrLength
  · cases hc : isCrash skb with
    | true =>
      rw [rxProcess, if_pos hc]
      exact h.same ⟨rfl, rfl, rfl, rfl⟩
    | false =>
      by_cases he : hdrEid skb < 9
      · rw [rxProcess_start hc he hshort]
        refine ⟨by rintro ⟨⟩, fun _ => ?_⟩
        have hlt := hdrPayldLen_lt skb
        have hsix : htcHdrLength = 6 := rfl
        show u32 (t.rxSgTotalLenCur + skb.data.length) < hdrPayldLen skb + htcHdrLength
        rw [(h.idle hp).1, Nat.zero_add, u32_of_lt (by omega)]
        exact hshort
      · rw [rxProcess, if_neg (by simp [hc]), if_pos (Nat.not_lt.mp he)]
        exact h
  · exact h.same (rxProcess_sg t (Nat.not_lt.mp hshort))

theorem endSg_sound (t : RxTarget) : Sound t.endSg := ⟨fun _ => ⟨rfl, rfl⟩, by rintro ⟨⟩⟩

theorem rxSgToSingleNetbuf_fst (t : RxTarget) (alloc : Bool) (beyond : Nat → UInt8) :
    (rxSgToSingleNetbuf t alloc beyond).1 = t.endSg := by
  unfold rxSgToSingleNetbuf
  split <;> rfl

theorem Sound.step {t : RxTarget} (h : Sound t) {nb : Netbuf} (ho : NoOvershoot t nb) :
    Sound (step t nb) := by
  unfold HtcRx.step htcRxCompletion
  cases hp : t.rxSgInProgress with
  | false =>
    simp only [Bool.false_eq_true, if_false]
    exact h.process hp nb.skb
  | true =>
    simp only [if_true]
    unfold rxSgAppend
    dsimp only
    by_cases he : u32 (t.rxSgTotalLenCur + nb.len) = t.rxSgTotalLenExp
    · rw [if_pos he]
      have hend := rxSgToSingleNetbuf_fst { t with
        rxSgTotalLenCur := u32 (t.rxSgTotalLenCur + nb.len), rxSgQ := t.rxSgQ ++ [nb.skb.data] }
        nb.alloc nb.skb.beyond
      generalize rxSgToSingleNetbuf _ nb.alloc nb.skb.beyond = m at hend
      obtain ⟨u, o⟩ := m
      dsimp only at hend
      cases o with
      | none =>
        rw [hend]
        exact endSg_sound _
      | some skb =>
        rw [hend]
        exact (endSg_sound _).process rfl skb
    · rw [if_neg he]
      refine ⟨fun hn => ?_, fun _ => ?_⟩
      · cases hp.symm.trans hn
      · exact Nat.lt_of_le_of_ne (ho hp) he

theorem overshoot_unbounded {t : RxTarget} {nb : Netbuf} (ho : ¬ NoOvershoot t nb) :
    ¬ Bounded (step t nb) := by
  simp only [NoOvershoot, Classical.not_imp, Nat.not_le] at ho
  obtain ⟨hp, ho⟩ := ho
  have hs : step t nb = { t with rxSgTotalLenCur := u32 (t.rxSgTotalLenCur + nb.len)
                                 rxSgQ := t.rxSgQ ++ [nb.skb.data] } := by
    unfold step htcRxCompletion rxSgAppend
    simp only [hp, if_true]
    rw [if_neg (Nat.ne_of_gt ho)]
  rw [hs]
  exact fun hb => Nat.not_le.mpr ho (hb hp)

theorem Sound.bounded {t : RxTarget} (h : Sound t) : Bounded t := fun hp => (h.busy hp).le

theorem bounded_iff {t : RxTarget} (h : Sound t) (nbs : List Netbuf) :
    (∀ u, u <+: nbs → Bounded (run step t u)) ↔ AllSteps step NoOvershoot t nbs :=
  prefix_iff_allSteps (I := Sound) (P := Bounded) (fun _ hs => hs.bounded)
    (fun _ _ hs ho => hs.step ho)
    (fun _ _ _ hb => by_contra fun hn => overshoot_unbounded hn hb) h nbs

theorem rxSgAppend_done {t : RxTarget} {nb : Netbuf}
    (h : u32 (t.rxSgTotalLenCur + nb.len) = t.rxSgTotalLenExp) :
    (rxSgAppend t nb).1.rxSgInProgress = false := by
  unfold rxSgAppend
  dsimp only
  rw [if_pos h, rxSgToSingleNetbuf_fst]
  rfl

/-- What the header of a buffer says. -/
structure SameHdr (a b : Skb) : Prop where
  crash : isCrash a = isCrash b
  eid : hdrEid a = hdrEid b
  payldLen : hdrPayldLen a = hdrPayldLen b
  trailer : hasTrailer a = hasTrailer b
  ctrl0 : hdrCtrl0 a = hdrCtrl0 b

theorem sameHdr_prefix {d r : Bytes} {f g : Nat → UInt8} (h : htcHdrLength ≤ d.length) :
    SameHdr ⟨d ++ r, f⟩ ⟨d, g⟩ := by
  have hb : ∀ i, i < 6 → Skb.byte ⟨d ++ r, f⟩ i = Skb.byte ⟨d, g⟩ i := fun i hi =>
    Skb.byte_prefix (Nat.lt_of_lt_of_le hi h)
  have hc : Skb.copy ⟨d ++ r, f⟩ 0 4 = Skb.copy ⟨d, g⟩ 0 4 :=
    Skb.copy_prefix (Nat.le_trans (by decide) h)
  refine ⟨?_, ?_, ?_, ?_, ?_⟩
  · rw [isCrash, isCrash, hc]
  · rw [hdrEid, hdrEid, hb 0 (by decide)]
  · rw [hdrPayldLen, hdrPayldLen, hb 2 (by decide), hb 3 (by decide)]
  · rw [hasTrailer, hasTrailer, hdrFlags, hdrFlags, hb 1 (by decide)]
  · rw [hdrCtrl0, hdrCtrl0, hb 4 (by decide)]

theorem sameHdr_of_data {d : Bytes} {f g : Nat → UInt8} (h : htcHdrLength ≤ d.length) :
    SameHdr ⟨d, f⟩ ⟨d, g⟩ := by
  have hp := sameHdr_prefix (r := []) (f := f) (g := g) h
  rwa [List.append_nil] at hp

theorem rxProcess_data {t : RxTarget} {d : Bytes} {f g : Nat → UInt8}
    (h : hdrPayldLen ⟨d, f⟩ + htcHdrLength ≤ d.length) :
    rxProcess t ⟨d, f⟩ = rxProcess t ⟨d, g⟩ := by
  have hh := sameHdr_of_data (d := d) (f := f) (g := g) (Nat.le_trans (Nat.le_add_left _ _) h)
  have hpay : ∀ u trailerlen, rxPayload u ⟨d, f⟩ trailerlen = rxPayload u ⟨d, g⟩ trailerlen := by
    intro u trailerlen
    have hcopy : Skb.copy ⟨d, f⟩ htcHdrLength (d.length - htcHdrLength - trailerlen) =
        Skb.copy ⟨d, g⟩ htcHdrLength (d.length - htcHdrLength - trailerlen) :=
      Skb.copy_of_le (by omega)
    unfold rxPayload rxControl
    dsimp only
    rw [hh.payldLen, hh.eid, hcopy]
  have htr : ¬ (hdrCtrl0 ⟨d, g⟩ < 2 ∨ hdrCtrl0 ⟨d, g⟩ > hdrPayldLen ⟨d, g⟩) →
      Skb.copy ⟨d, f⟩ (htcHdrLength + hdrPayldLen ⟨d, g⟩ - hdrCtrl0 ⟨d, g⟩) (hdrCtrl0 ⟨d, g⟩) =
      Skb.copy ⟨d, g⟩ (htcHdrLength + hdrPayldLen ⟨d, g⟩ - hdrCtrl0 ⟨d, g⟩) (hdrCtrl0 ⟨d, g⟩) := by
    intro hok
    rw [hh.payldLen] at h
    exact Skb.copy_of_le (by omega)
  unfold rxProcess
  rw [hh.crash, hh.eid, hh.payldLen, hh.trailer, hh.ctrl0]
  by_cases hbad : hdrCtrl0 ⟨d, g⟩ < 2 ∨ hdrCtrl0 ⟨d, g⟩ > hdrPayldLen ⟨d, g⟩
  · simp only [hbad, if_true, hpay]
  · simp only [htr hbad, hpay]

/-- An HTC message as the USB layer delivers it: its first netbuf, with at least the header,
and the netbufs with the rest of the announced bytes. -/
structure SplitMsg where
  first : Netbuf
  rest : List Netbuf
  header : htcHdrLength ≤ first.len
  announced : (first.skb.data ++ (rest.map fun nb => nb.skb.data).flatten).length =
    hdrPayldLen first.skb + htcHdrLength
  lastFull : ∀ nb∈rest.getLast?, nb.skb.data ≠ []

def SplitMsg.fragments (m : SplitMsg) : List Netbuf := m.first :: m.rest

def SplitMsg.bytes (m : SplitMsg) : Bytes :=
  m.first.skb.data ++ (m.rest.map fun nb => nb.skb.data).flatten

def SplitMsg.skb (m : SplitMsg) : Skb := ⟨m.bytes, fun _ => 0⟩

def SplitMsg.whole (m : SplitMsg) : Netbuf := ⟨m.skb, true⟩

/-- A message that is split is for an endpoint, does not look like a firmware crash, and a
buffer to collect it in can be had. -/
def Plain (m : SplitMsg) : Prop :=
  m.rest ≠ [] → isCrash m.skb = false ∧ hdrEid m.skb < 9 ∧
    ∀ nb∈m.rest.getLast?, nb.alloc = true

/-- Nothing of a message is kept. -/
def Idle (t : RxTarget) : Prop := t.endSg = t

theorem Idle.sound {t : RxTarget} (h : Idle t) : Sound t := h ▸ endSg_sound t

theorem Idle.same {t t' : RxTarget} (h : Idle t) (hs : SameSg t t') : Idle t' := by
  have h0 : t.endSg = t := h
  have hp := hs.inProgress.trans (congrArg RxTarget.rxSgInProgress h0).symm
  have he := hs.exp.trans (congrArg RxTarget.rxSgTotalLenExp h0).symm
  have hc := hs.cur.trans (congrArg RxTarget.rxSgTotalLenCur h0).symm
  have hq := hs.q.trans (congrArg RxTarget.rxSgQ h0).symm
  cases t'
  dsimp only [RxTarget.endSg] at hp he hc hq
  subst hp he hc hq
  rfl

theorem SplitMsg.sameHdr (m : SplitMsg) : SameHdr m.skb m.first.skb := sameHdr_prefix m.header

theorem SplitMsg.length_eq (m : SplitMsg) :
    m.bytes.length = hdrPayldLen m.skb + htcHdrLength := by
  rw [m.sameHdr.payldLen]
  exact m.announced

theorem rest_pos {rest : List Netbuf} (hne : rest ≠ [])
    (hfull : ∀ nb∈rest.getLast?, nb.skb.data ≠ []) :
    0 < (rest.map fun nb => nb.skb.data).flatten.length := by
  have hlast : rest.getLast hne∈rest := List.getLast_mem hne
  refine List.length_pos_of_ne_nil fun hnil => ?_
  refine hfull _ (List.getLast?_eq_some_getLast hne) ?_
  exact List.flatten_eq_nil_iff.mp hnil _ (List.mem_map_of_mem hlast)

theorem run_collect {t : RxTarget} {rest : List Netbuf} (hne : rest ≠ [])
    (hp : t.rxSgInProgress = true) (hexp : t.rxSgTotalLenExp < 4294967296)
    (hsum : t.rxSgTotalLenCur + (rest.map fun nb => nb.skb.data).flatten.length =
      t.rxSgTotalLenExp)
    (hfull : ∀ nb∈rest.getLast?, nb.skb.data ≠ [])
    (halloc : ∀ nb∈rest.getLast?, nb.alloc = true) :
    ∃ f, run step t rest = (rxProcess t.endSg
      ⟨t.rxSgQ.flatten ++ (rest.map fun nb => nb.skb.data).flatten, f⟩).1 := by
  induction rest generalizing t with
  | nil => exact absurd rfl hne
  | cons nb rest ih =>
    have hlen : t.rxSgTotalLenCur + (nb.len + (rest.map fun nb => nb.skb.data).flatten.length) =
        t.rxSgTotalLenExp := by
      rw [← hsum, List.map_cons, List.flatten_cons, List.length_append]
      rfl
    cases rest with
    | nil =>
      refine ⟨nb.skb.beyond, ?_⟩
      have hhit : u32 (t.rxSgTotalLenCur + nb.len) = t.rxSgTotalLenExp := by
        have hall : t.rxSgTotalLenCur + nb.len = t.rxSgTotalLenExp := by simpa using hlen
        rw [hall, u32_of_lt hexp]
      have hal : nb.alloc = true := halloc nb rfl
      simp [step, htcRxCompletion, hp, rxSgAppend, hhit, rxSgToSingleNetbuf, hal,
        RxTarget.endSg]
    | cons nb' rest =>
      have hpos := rest_pos (List.cons_ne_nil nb' rest)
        fun x hx => hfull x (by rw [List.getLast?_cons_cons]; exact hx)
      have hmiss : u32 (t.rxSgTotalLenCur + nb.len) = t.rxSgTotalLenCur + nb.len :=
        u32_of_lt (by omega)
      have hstep : step t nb = { t with rxSgTotalLenCur := t.rxSgTotalLenCur + nb.len
                                        rxSgQ := t.rxSgQ ++ [nb.skb.data] } := by
        unfold step htcRxCompletion rxSgAppend
        simp only [hp, if_true, hmiss]
        rw [if_neg (by omega)]
      have hnext := ih (t := step t nb) (by simp) (by rw [hstep]; exact hp)
        (by rw [hstep]; exact hexp) (by rw [hstep]; dsimp only; omega)
        (fun x hx => hfull x (by rw [List.getLast?_cons_cons]; exact hx))
        (fun x hx => halloc x (by rw [List.getLast?_cons_cons]; exact hx))
      obtain ⟨f, hf⟩ := hnext
      refine ⟨f, ?_⟩
      rw [run_cons, hf, hstep]
      simp [RxTarget.endSg, List.flatten_append]

theorem run_fragments {t : RxTarget} (h : Idle t) {m : SplitMsg} (hm : Plain m) :
    run step t m.fragments = step t m.whole := by
  have hidle : t.rxSgInProgress = false := congrArg RxTarget.rxSgInProgress (Eq.symm h)
  have hwhole : step t m.whole = (rxProcess t m.skb).1 := by
    simp only [step, htcRxCompletion, hidle, Bool.false_eq_true, if_false, SplitMsg.whole]
  have hcomplete : hdrPayldLen m.skb + htcHdrLength ≤ m.bytes.length := m.length_eq.ge
  rw [hwhole, SplitMsg.fragments, run_cons]
  have hfst : step t m.first = (rxProcess t m.first.skb).1 := by
    simp only [step, htcRxCompletion, hidle, Bool.false_eq_true, if_false]
  by_cases hr : m.rest = []
  · have hb : m.bytes = m.first.skb.data := by simp [SplitMsg.bytes, hr]
    rw [hr, run_nil, hfst, SplitMsg.skb, hb]
    refine congrArg Prod.fst (rxProcess_data ?_)
    rw [← m.sameHdr.payldLen, ← hb]
    exact hcomplete
  · obtain ⟨hcrash, heid, halloc⟩ := hm hr
    have hshort : m.first.skb.data.length < hdrPayldLen m.first.skb + htcHdrLength := by
      rw [← m.announced, List.length_append]
      have hpos := rest_pos hr m.lastFull
      omega
    rw [m.sameHdr.crash] at hcrash
    rw [m.sameHdr.eid] at heid
    rw [hfst, rxProcess_start hcrash heid hshort]
    have hcur : t.rxSgTotalLenCur = 0 := (h.sound.idle hidle).1
    have hq : t.rxSgQ = [] := (h.sound.idle hidle).2
    have hlt := hdrPayldLen_lt m.first.skb
    have hsix : htcHdrLength = 6 := rfl
    have hlen := m.announced
    rw [List.length_append] at hlen
    obtain ⟨f, hf⟩ := run_collect (t := startSg t m.first.skb) hr rfl
      (by dsimp only [startSg]; omega)
      (by dsimp only [startSg]; rw [hcur, Nat.zero_add, u32_of_lt (by omega)]; exact hlen)
      m.lastFull halloc
    have hend : (startSg t m.first.skb).endSg = t := h
    have hbytes : (startSg t m.first.skb).rxSgQ.flatten ++
        (m.rest.map fun nb => nb.skb.data).flatten = m.bytes := by
      simp [startSg, hq, SplitMsg.bytes]
    rw [hf, hend, hbytes]
    exact congrArg Prod.fst (rxProcess_data (by
      rw [(sameHdr_of_data (g := fun _ => 0) (Nat.le_trans (Nat.le_add_left _ _) hcomplete)).payldLen]
      exact hcomplete))

theorem Idle.whole {t : RxTarget} (h : Idle t) (m : SplitMsg) : Idle (step t m.whole) := by
  have hidle : t.rxSgInProgress = false := congrArg RxTarget.rxSgInProgress (Eq.symm h)
  simp only [step, htcRxCompletion, hidle, Bool.false_eq_true, if_false, SplitMsg.whole]
  exact h.same (rxProcess_sg t m.length_eq.ge)

theorem run_messages {t : RxTarget} (h : Idle t) {msgs : List SplitMsg}
    (hm : ∀ m∈msgs, Plain m) :
    run step t (msgs.flatMap SplitMsg.fragments) = run step t (msgs.map SplitMsg.whole) := by
  induction msgs generalizing t with
  | nil => rfl
  | cons m msgs ih =>
    rw [List.flatMap_cons, run_append, run_fragments h (hm m (by simp)), List.map_cons, run_cons]
    exact ih (h.whole m) fun x hx => hm x (by simp [hx])

def SplitMsg.trailerLen (m : SplitMsg) : Nat := if hasTrailer m.skb then hdrCtrl0 m.skb else 0

def SplitMsg.trailer (m : SplitMsg) : Bytes :=
  m.skb.copy (htcHdrLength + hdrPayldLen m.skb - hdrCtrl0 m.skb) (hdrCtrl0 m.skb)

def SplitMsg.trailerOk (m : SplitMsg) : Bool :=
  !hasTrailer m.skb || (2 ≤ hdrCtrl0 m.skb && hdrCtrl0 m.skb ≤ hdrPayldLen m.skb &&
    (trailerLoop m.trailer.length m.trailer).2 = 0)

/-- A message for an endpoint other than `ENDPOINT_0` that carries a payload, with a trailer
in order if it has one. -/
def SplitMsg.forEndpoint (m : SplitMsg) : Bool :=
  !isCrash m.skb && hdrEid m.skb < 9 && hdrEid m.skb ≠ 0 && m.trailerOk &&
    m.trailerLen < hdrPayldLen m.skb

/-- What the endpoint of a message receives: the payload without the trailer. -/
def SplitMsg.packet (m : SplitMsg) : RxPacket where
  endpoint := hdrEid m.skb
  actLen := hdrPayldLen m.skb - m.trailerLen
  buf := (m.bytes.drop htcHdrLength).take (hdrPayldLen m.skb - m.trailerLen)

/-- The packets a step hands over. -/
def Delivers (t t' : RxTarget) (ps : List RxPacket) : Prop :=
  t'.delivered = t.delivered ++ ps ∧ t'.htcPacketPool = t.htcPacketPool

theorem Delivers.none (t : RxTarget) : Delivers t t [] := ⟨(List.append_nil _).symm, rfl⟩

theorem rxPayload_delivers {t : RxTarget} (hpool : t.htcPacketPool ≠ 0) (m : SplitMsg) :
    Delivers t (rxPayload t m.skb m.trailerLen).1
      (if hdrEid m.skb ≠ 0 ∧ m.trailerLen < hdrPayldLen m.skb then [m.packet] else []) := by
  have hlen : m.skb.data.length = hdrPayldLen m.skb + htcHdrLength := m.length_eq
  unfold rxPayload
  by_cases hle : hdrPayldLen m.skb ≤ m.trailerLen
  · rw [if_pos hle, if_neg (fun h => Nat.not_lt.mpr hle h.2)]
    exact Delivers.none t
  · rw [if_neg hle]
    by_cases he : hdrEid m.skb = 0
    · rw [if_pos he, if_neg (fun h => h.1 he)]
      unfold rxControl
      split
      · exact Delivers.none t
      · exact ⟨(List.append_nil _).symm, rfl⟩
    · rw [if_neg he, if_neg hpool, if_pos ⟨he, Nat.not_le.mp hle⟩]
      refine ⟨?_, rfl⟩
      have hact : m.skb.data.length - htcHdrLength - m.trailerLen =
          hdrPayldLen m.skb - m.trailerLen := by
        rw [hlen, Nat.add_sub_cancel]
      have hcopy : m.skb.copy htcHdrLength (hdrPayldLen m.skb - m.trailerLen) =
          (m.bytes.drop htcHdrLength).take (hdrPayldLen m.skb - m.trailerLen) := by
        exact Skb.copy_eq (s := m.skb) (by omega)
      dsimp only
      rw [hact, hcopy]
      rfl

theorem rxProcess_delivers {t : RxTarget} (hpool : t.htcPacketPool ≠ 0) (m : SplitMsg) :
    Delivers t (rxProcess t m.skb).1 (if m.forEndpoint then [m.packet] else []) := by
  unfold rxProcess
  cases hc : isCrash m.skb with
  | true => simp [SplitMsg.forEndpoint, hc, Delivers]
  | false =>
    by_cases he : hdrEid m.skb < 9
    · have hcomplete : ¬ m.skb.data.length < hdrPayldLen m.skb + htcHdrLength :=
        Nat.not_lt.mpr m.length_eq.ge
      have hpay := rxPayload_delivers hpool m
      rw [if_neg (by decide), if_neg (Nat.not_le.mpr he)]
      dsimp only
      rw [if_neg hcomplete]
      cases ht : hasTrailer m.skb with
      | false =>
        have htl : m.trailerLen = 0 := by simp [SplitMsg.trailerLen, ht]
        rw [htl] at hpay
        simpa [SplitMsg.forEndpoint, SplitMsg.trailerOk, hc, he, ht, htl] using hpay
      | true =>
        have htl : m.trailerLen = hdrCtrl0 m.skb := by simp [SplitMsg.trailerLen, ht]
        rw [htl] at hpay
        rw [if_pos rfl]
        by_cases hbad : hdrCtrl0 m.skb < 2 ∨ hdrCtrl0 m.skb > hdrPayldLen m.skb
        · have hno : m.forEndpoint = false := by
            simp only [SplitMsg.forEndpoint, SplitMsg.trailerOk, ht]
            cases hbad with
            | inl h => simp [Nat.not_le.mpr h]
            | inr h => simp [Nat.not_le.mpr h]
          rw [if_pos hbad, hno]
          exact Delivers.none t
        · rw [if_neg hbad]
          have hs : (htcProcessTrailer t m.trailer (hdrEid m.skb)).2 =
              (trailerLoop m.trailer.length m.trailer).2 := rfl
          have hp := rxPayload_delivers
            (t := (htcProcessTrailer t m.trailer (hdrEid m.skb)).1) hpool m
          rw [htl] at hp
          rw [SplitMsg.trailer] at hs hp
          by_cases hz : (trailerLoop m.trailer.length m.trailer).2 = 0
          · rw [if_neg (by rw [hs]; exact not_not.mpr hz)]
            have hiff : m.forEndpoint = true ↔
                hdrEid m.skb ≠ 0 ∧ hdrCtrl0 m.skb < hdrPayldLen m.skb := by
              simp only [SplitMsg.forEndpoint, SplitMsg.trailerOk, ht, hc, htl, hz]
              simp
              omega
            simp only [hiff]
            exact hp
          · rw [if_pos (by rw [hs]; exact hz)]
            have hno : m.forEndpoint = false := by
              simp [SplitMsg.forEndpoint, SplitMsg.trailerOk, ht, hz]
            rw [hno]
            exact Delivers.none t
    · rw [if_neg (by decide), if_pos (Nat.not_lt.mp he)]
      simp [SplitMsg.forEndpoint, he, Delivers]

theorem run_whole_delivers {t : RxTarget} (h : Idle t) (hpool : t.htcPacketPool ≠ 0)
    (msgs : List SplitMsg) :
    (run step t (msgs.map SplitMsg.whole)).delivered =
      t.delivered ++ (msgs.filter SplitMsg.forEndpoint).map SplitMsg.packet := by
  induction msgs generalizing t with
  | nil => simp
  | cons m msgs ih =>
    have hidle : t.rxSgInProgress = false := congrArg RxTarget.rxSgInProgress (Eq.symm h)
    have hstep : step t m.whole = (rxProcess t m.skb).1 := by
      simp only [step, htcRxCompletion, hidle, Bool.false_eq_true, if_false, SplitMsg.whole]
    obtain ⟨hdel, hsame⟩ := rxProcess_delivers hpool m
    rw [← hstep] at hdel hsame
    rw [List.map_cons, run_cons, ih (h.whole m) (hsame ▸ hpool), hdel]
    cases hf : m.forEndpoint <;> simp [hf]

theorem Sound.run {t : RxTarget} (h : Sound t) {nbs : List Netbuf}
    (hC : AllSteps HtcRx.step NoOvershoot t nbs) : Sound (run HtcRx.step t nbs) :=
  run_invariant_of (I := Sound) (fun _ _ hs hc => hs.step hc) h hC

/-- Reassembly. Through a whole run the collected length stays within the announced one
exactly if no netbuf overshoots; then bytes are missing whenever a message is being collected,
and the missing bytes end the collecting. Messages split in any way do what the unsplit
messages do, and each endpoint gets the announced payloads. -/
theorem rx_reassembly {t : RxTarget} (h : Idle t) :
    (∀ nbs, (∀ u, u <+: nbs → Bounded (run step t u)) ↔ AllSteps step NoOvershoot t nbs) ∧
    (∀ nbs, AllSteps step NoOvershoot t nbs → (run step t nbs).rxSgInProgress = true →
      (run step t nbs).rxSgTotalLenCur < (run step t nbs).rxSgTotalLenExp ∧
      ∀ nb, u32 ((run step t nbs).rxSgTotalLenCur + nb.len) = (run step t nbs).rxSgTotalLenExp →
        (rxSgAppend (run step t nbs) nb).1.rxSgInProgress = false) ∧
    ∀ msgs : List SplitMsg, (∀ m∈msgs, Plain m) →
      run step t (msgs.flatMap SplitMsg.fragments) = run step t (msgs.map SplitMsg.whole) ∧
      (t.htcPacketPool ≠ 0 → (run step t (msgs.flatMap SplitMsg.fragments)).delivered =
        t.delivered ++ (msgs.filter SplitMsg.forEndpoint).map SplitMsg.packet) := by
  refine ⟨bounded_iff h.sound, fun nbs hC hp => ?_, fun msgs hm => ?_⟩
  · exact ⟨(h.sound.run hC).busy hp, fun _ => rxSgAppend_done⟩
  · have hrun := run_messages h hm
    refine ⟨hrun, fun hpool => ?_⟩
    rw [hrun]
    exact run_whole_delivers h hpool msgs

/-- A message for endpoint 1, split after its first payload byte. -/
def splitPair : SplitMsg where
  first := ⟨⟨[1, 0, 2, 0, 0, 0, 8], fun _ => 0⟩, true⟩
  rest := [⟨⟨[9], fun _ => 0⟩, true⟩]
  header := by decide
  announced := by decide
  lastFull := by simp

theorem rx_reassembly_split :
    (run step {} splitPair.fragments).delivered = [⟨1, 2, [8, 9]⟩] := by
  have hplain : ∀ m∈[splitPair], Plain m := by
    intro m hm _
    rw [List.mem_singleton.mp hm]
    exact ⟨by decide, by decide, by simp [splitPair]⟩
  have hrun := ((rx_reassembly (t := {}) rfl).2.2 [splitPair] hplain).2 (by decide)
  rw [List.flatMap_singleton] at hrun
  rw [hrun]
  decide

/-- Six of ten announced payload bytes, a continuation of five, and a whole message. -/
def overshootingRun : List Netbuf :=
  [⟨⟨[1, 0, 10, 0, 0, 0] ++ List.replicate 6 7, fun _ => 0⟩, true⟩,
   ⟨⟨List.replicate 5 7, fun _ => 0⟩, true⟩, ⟨⟨[1, 0, 1, 0, 0, 0, 9], fun _ => 0⟩, true⟩]

/-- One byte too many, and every later message is swallowed. -/
theorem rx_reassembly_wedged :
    ¬ Bounded (run step {} (overshootingRun.take 2)) ∧
    (run step {} overshootingRun).rxSgInProgress = true ∧
    (run step {} overshootingRun).delivered = [] ∧
    (run step {} (overshootingRun.drop 2)).delivered = [⟨1, 1, [9]⟩] := by
  refine ⟨fun hb => ?_, by decide, by decide, by decide⟩
  exact absurd (hb (by decide)) (by decide)

end Ath6kl.HtcRx
