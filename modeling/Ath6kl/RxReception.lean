import Ath6kl.RxSupply

/-! HTC turns reception off when it has no buffer for a message. When it does, and that it stays
so: a buffer is given only by the handler of the interrupt that is then masked. -/
namespace Ath6kl.RxSupply
open Htc HtcTrailer HtcRxFetch Lib.Machine

section Defs
-- how many buffers there is memory for in each refill
variable (mem : Nat → Nat)

/-- The most packets that one turn can ask for. -/
def maxPerTurn : Nat := htcHostMaxMsgPerBundle*htcHostMaxMsgPerBundle

/-- The buffers of endpoint `e` while `out` of those of `eid` are out. -/
def Rx.owned (s : Rx) (eid out e : Nat) : Nat := s.rxBufq e + if e = eid then out else 0

/-- Each refill so far got a buffer at least. -/
def Fed (s : Rx) : Prop := ∀ k<s.refills, 0 < mem k

/-- Inside the handler, while `out` packets of the `rx_bufq` of `eid` are out. -/
structure Mid (eid out : Nat) (s : Rx) : Prop where
  on : s.mboxData = true
  control : s.owned eid out 0 = (boot mem).rxBufq 0
  held : s.epWaiting = some 0 → eid = 0 ∧ 0<out
  bound : ∀ e ≠ 0, s.owned eid out e ≤ maxRxBuffers + maxPerTurn
  amsdu : s.amsduRxBufferQueue ≤ maxAmsduRxBuffers
  fed : Fed mem s → 0<s.amsduRxBufferQueue ∧ ∀ e, s.epWaiting = some e → e = 0

end Defs

section Boot
variable {s : Rx}

theorem addRxbuf_quiet (h : s.epWaiting ≠ some eid) (n : Nat) :
    addRxbuf s eid n = { s with rxBufq := Function.update s.rxBufq eid (s.rxBufq eid + n) } :=
  if_neg h

/-- Before `ath6kl_htc_mbox_start` nothing has asked for a packet, and all buffers are at the
endpoint that is not connected yet. -/
structure Booting (s : Rx) : Prop where
  on : s.mboxData = true
  quiet : s.epWaiting = none
  bound : s.rxBufq 0 ≤ maxRxBuffers
  service : ∀ eid ≠ 0, s.rxBufq eid = 0
  amsdu : s.amsduRxBufferQueue = 0

theorem Booting.rxRefill (mem : Nat → Nat) (h : Booting s) :
    Booting (rxRefill mem s unconnectedEp) := by
  have h0 : unconnectedEp = 0 := rfl
  simp only [RxSupply.rxRefill, h0]
  split_ifs
  · exact h
  · exact ⟨h.on, h.quiet, h.bound, h.service, h.amsdu⟩
  · rw [addRxbuf_quiet (by simp [h.quiet])]
    refine ⟨h.on, h.quiet, ?_, fun e he => ?_, h.amsdu⟩
    · have hb := h.bound
      simp only [Function.update_self]
      omega
    · simpa [he] using h.service e he

/-- The control buffers come to what `ath6kl_core_init` leaves. -/
theorem boot_eq (mem : Nat → Nat) : ∃ s, Booting s ∧ boot mem =
    { refillAmsduRxbufs mem s maxAmsduRxBuffers with
      rxBufq := Function.update s.rxBufq 0 (s.rxBufq 0 + numControlRxBuffers) } := by
  have hempty : Booting {} := ⟨rfl, rfl, Nat.zero_le _, fun _ _ => rfl, rfl⟩
  have h := (hempty.rxRefill mem).rxRefill mem
  refine ⟨_, h, addRxbuf_quiet ?_ _⟩
  simp [refillAmsduRxbufs, h.quiet]

/-- What `ENDPOINT_0` has: the control buffers, and what was meant for the services. -/
theorem boot_control (mem : Nat → Nat) : numControlRxBuffers ≤ (boot mem).rxBufq 0 ∧
    (boot mem).rxBufq 0 ≤ maxRxBuffers + numControlRxBuffers := by
  obtain ⟨s, h, hboot⟩ := boot_eq mem
  have hb := h.bound
  rw [hboot]
  simp only [Function.update_self]
  omega

end Boot

section Mid
variable {mem : Nat → Nat} {s : Rx} {eid out : Nat}

/-- Buffers that come back to `rx_bufq`, or go out, are owned as before. -/
theorem owned_update {m out' : Nat} (hm : m + out' = s.rxBufq eid + out) (e : Nat) :
    Rx.owned { s with rxBufq := Function.update s.rxBufq eid m } eid out' e =
      s.owned eid out e := by
  unfold Rx.owned
  by_cases he : e = eid
  · subst he
    simp only [Function.update_self, if_true]
    exact hm
  · simp [he]

theorem Mid.rest (h : Mid mem eid 0 s) (eid' : Nat) : Mid mem eid' 0 s where
  on := h.on
  control := by simpa [Rx.owned] using h.control
  held := fun hw => absurd (h.held hw).2 (Nat.lt_irrefl 0)
  bound := fun e he => by simpa [Rx.owned] using h.bound e he
  amsdu := h.amsdu
  fed := h.fed

theorem Mid.giveBack (h : Mid mem eid (out+1) s) : Mid mem eid out (addRxbuf s eid 1) := by
  have howned : ∀ e, Rx.owned
      { s with rxBufq := Function.update s.rxBufq eid (s.rxBufq eid + 1) } eid out e =
      s.owned eid (out+1) e := owned_update (by omega)
  unfold addRxbuf
  dsimp only
  split_ifs with hw
  · exact ⟨rfl, (howned 0).trans h.control, by simp, fun e he => (howned e).trans_le (h.bound e he),
      h.amsdu, fun hf => ⟨(h.fed hf).1, by simp⟩⟩
  · refine ⟨h.on, (howned 0).trans h.control, fun h0 => ?_,
      fun e he => (howned e).trans_le (h.bound e he), h.amsdu, h.fed⟩
    obtain ⟨rfl, -⟩ := h.held h0
    exact absurd h0 hw

/-- A packet of a service stays with `ath6kl_rx`. -/
theorem Mid.keep (h : Mid mem eid (out+1) s) (heid : eid ≠ 0) : Mid mem eid out s where
  on := h.on
  control := by simpa [Rx.owned, heid.symm] using h.control
  held := fun h0 => absurd (h.held h0).1 heid
  bound := by
    intro e he
    have hb := h.bound e he
    unfold Rx.owned at hb ⊢
    split_ifs at hb ⊢ <;> omega
  amsdu := h.amsdu
  fed := h.fed

/-- A refill of `rx_bufq`. -/
theorem Mid.rxRefill (h : Mid mem eid out s) (heid : eid ≠ 0) (hout : out ≤ maxPerTurn) :
    Mid mem eid out (rxRefill mem s eid) := by
  simp only [RxSupply.rxRefill]
  split_ifs with hfull hnone
  · exact h
  · refine ⟨h.on, h.control, h.held, h.bound, h.amsdu, fun hf => ?_⟩
    -- a refill that got nothing
    have hpos := hf s.refills (Nat.lt_succ_self _)
    omega
  · have hfew : min (maxRxBuffers - s.rxBufq eid) (mem s.refills) ≤ maxRxBuffers - s.rxBufq eid :=
      Nat.min_le_left _ _
    generalize min (maxRxBuffers - s.rxBufq eid) (mem s.refills) = got at hfew
    have hctrl : Rx.owned
        { s with rxBufq := Function.update s.rxBufq eid (s.rxBufq eid + got) } eid out 0 =
        s.owned eid out 0 := by
      simp [Rx.owned, heid.symm]
    have hbound : ∀ e ≠ 0, Rx.owned
        { s with rxBufq := Function.update s.rxBufq eid (s.rxBufq eid + got) } eid out e ≤
        maxRxBuffers + maxPerTurn := by
      intro e he
      have hb := h.bound e he
      unfold Rx.owned at hb ⊢
      by_cases hee : e = eid
      · subst hee
        simp only [Function.update_self, if_true]
        omega
      · simpa [hee] using hb
    have hfed : Fed mem { s with refills := s.refills+1 } → Fed mem s :=
      fun hf k hk => hf k (Nat.lt_succ_of_lt hk)
    unfold addRxbuf
    dsimp only
    split_ifs with hw
    · exact ⟨rfl, hctrl.trans h.control, by simp, hbound, h.amsdu,
        fun hf => ⟨(h.fed (hfed hf)).1, by simp⟩⟩
    · exact ⟨h.on, hctrl.trans h.control, h.held, hbound, h.amsdu, fun hf => h.fed (hfed hf)⟩

/-- What a request for a packet leaves; without one, some refill has got nothing, or a packet of
`ENDPOINT_0` is out. -/
structure Asked (mem : Nat → Nat) (eid out : Nat) (plain : Nat) (x : Rx × Bool) : Prop where
  got : x.2 = true → Mid mem eid (out+plain) x.1
  none : x.2 = false → Mid mem eid out x.1 ∧ (eid = 0 → 0<out) ∧ (Fed mem x.1 → eid = 0)

theorem takeRxbuf_asked (h : Mid mem eid out s) (hout : out ≤ maxPerTurn) :
    Asked mem eid out 1 (takeRxbuf mem s eid) := by
  have hrefill :
      Mid mem eid out (if s.rxBufq eid = 0 ∧ eid ≠ 0 then rxRefill mem s eid else s) := by
    split_ifs with hempty
    · exact h.rxRefill hempty.2 hout
    · exact h
  have hshort : (if s.rxBufq eid = 0 ∧ eid ≠ 0 then rxRefill mem s eid else s).rxBufq eid = 0 →
      Fed mem (if s.rxBufq eid = 0 ∧ eid ≠ 0 then rxRefill mem s eid else s) → eid = 0 := by
    split_ifs with hempty
    · intro hq hf
      by_contra _
      have hpos : ¬maxRxBuffers - s.rxBufq eid = 0 := by
        rw [hempty.1]
        decide
      simp only [rxRefill, if_neg hpos] at hq hf
      split_ifs at hq hf with hgot
      · have := hf s.refills (Nat.lt_succ_self _)
        omega
      · unfold addRxbuf at hq
        dsimp only at hq
        split_ifs at hq <;> simp at hq <;> omega
    · intro hq _
      by_contra hne
      exact hempty ⟨hq, hne⟩
  unfold takeRxbuf
  dsimp only
  generalize (if s.rxBufq eid = 0 ∧ eid ≠ 0 then rxRefill mem s eid else s) = s' at hrefill hshort
  split_ifs with hq
  · refine ⟨by simp, fun _ => ⟨hrefill, fun h0 => ?_, hshort hq⟩⟩
    subst h0
    have hctrl := hrefill.control
    simp only [Rx.owned, hq, if_true, Nat.zero_add] at hctrl
    have hsix : 6 ≤ (boot mem).rxBufq 0 := (boot_control mem).1
    omega
  · have howned : ∀ e, Rx.owned
        { s' with rxBufq := Function.update s'.rxBufq eid (s'.rxBufq eid - 1) } eid (out+1) e =
        s'.owned eid out e := owned_update (by omega)
    refine ⟨fun _ => ?_, by simp⟩
    exact ⟨hrefill.on, (howned 0).trans hrefill.control,
      fun h0 => ⟨(hrefill.held h0).1, Nat.succ_pos _⟩,
      fun e he => (howned e).trans_le (hrefill.bound e he), hrefill.amsdu, hrefill.fed⟩

/-- A refill of the A-MSDU queue, as `ath6kl_alloc_amsdu_rxbuf` counts it. -/
theorem Mid.refillAmsdu (h : Mid mem eid out s) (depth : Nat) (hdepth : depth ≤ maxAmsduRxBuffers) :
    Mid mem eid out (refillAmsduRxbufs mem { s with amsduRxBufferQueue := depth }
      (maxAmsduRxBuffers-depth)) where
  on := h.on
  control := h.control
  held := h.held
  bound := h.bound
  amsdu := by
    have hmin := Nat.min_le_left (maxAmsduRxBuffers-depth) (mem s.refills)
    simp only [refillAmsduRxbufs]
    omega
  fed := by
    intro hf
    have hpos := hf s.refills (Nat.lt_succ_self _)
    refine ⟨?_, (h.fed fun k hk => hf k (Nat.lt_succ_of_lt hk)).2⟩
    simp only [refillAmsduRxbufs]
    by_cases hd : depth = 0
    · subst hd
      simp only [maxAmsduRxBuffers]
      omega
    · omega

theorem allocAmsduRxbuf_asked {len : Nat} (h : Mid mem eid out s) (heid : eid ≠ 0)
    (hlen : bufferSize<len) (hmax : len ≤ amsduBufferSize) :
    Asked mem eid out 0 (allocAmsduRxbuf mem s len) := by
  unfold allocAmsduRxbuf
  dsimp only
  rw [if_neg (by omega)]
  split_ifs with hempty hfew
  · have hmid := h.refillAmsdu 0 (Nat.zero_le _)
    have hs : { s with amsduRxBufferQueue := 0 } = s := by rw [← hempty]
    rw [hs] at hmid
    refine ⟨by simp, fun _ => ⟨hmid, fun h0 => absurd h0 heid, fun hf => ?_⟩⟩
    have hpos := (h.fed fun k hk => hf k (Nat.lt_succ_of_lt hk)).1
    omega
  · have hle := h.amsdu
    exact ⟨fun _ => h.refillAmsdu _ (by omega), by simp⟩
  · have hle := h.amsdu
    refine ⟨fun _ => ⟨h.on, h.control, h.held, h.bound, by dsimp only; omega, fun hf => ?_⟩,
      by simp⟩
    simp only [amsduRefillThreshold, maxAmsduRxBuffers] at hfew
    exact ⟨by dsimp only; omega, (h.fed hf).2⟩

end Mid

section Alloc
variable {mem : Nat → Nat} {t : Setup} {s : Rx} {eid : Nat} {a : Alloc}

@[simp] theorem plain_nil : plain [] = 0 := rfl

@[simp] theorem plain_cons (p : Packet) (q : List Packet) :
    plain (p::q) = (if p.noRecycle then 0 else 1) + plain q := rfl

@[simp] theorem plain_append (q q' : List Packet) : plain (q ++ q') = plain q + plain q' := by
  simp [plain]

theorem plain_le_length (q : List Packet) : plain q ≤ q.length := by
  induction q with
  | nil => exact Nat.le_refl 0
  | cons p q ih =>
    rw [plain_cons, List.length_cons]
    split_ifs <;> omega

theorem request_asked {h : LkAhd} {out : Nat} (hs : Mid mem eid out s) (hout : out ≤ maxPerTurn)
    (hvalid : htcValidRxFrameLen t.toTarget eid (fullLen t.toTarget h) = true) :
    Asked mem eid out (if noRecycle t.toTarget eid h then 0 else 1)
      (request mem t.toTarget eid h s) := by
  unfold request
  split_ifs with hbig
  · unfold noRecycle at hbig
    rw [t.allocThresh] at hbig
    by_cases hctrl : eid = 0 ∨ eid = t.ctrlEp
    · simp [hctrl] at hbig
    · rw [if_neg hctrl] at hbig
      obtain ⟨heid, hne⟩ := not_or.mp hctrl
      unfold htcValidRxFrameLen at hvalid
      rw [if_neg hne] at hvalid
      exact allocAmsduRxbuf_asked hs heid (by simpa using hbig) (by simpa using hvalid)
  · exact takeRxbuf_asked hs hout

/-- The packets queued for `eid`, and what is left of the buffers. -/
structure Queued (mem : Nat → Nat) (eid : Nat) (a : Alloc) : Prop where
  mid : Mid mem eid (plain a.queue) a.rx
  own : ∀ p∈a.queue, p.endpoint = eid

theorem setupLoop_queued {h : LkAhd} {n : Nat} (ha : Queued mem eid a)
    (hvalid : htcValidRxFrameLen t.toTarget eid (fullLen t.toTarget h) = true)
    (hn : a.queue.length+n ≤ maxPerTurn) :
    Queued mem eid (setupLoop mem t.toTarget eid h n a) ∧
      (setupLoop mem t.toTarget eid h n a).queue.length ≤ a.queue.length+n := by
  induction n generalizing a with
  | zero => exact ⟨ha, Nat.le_refl _⟩
  | succ n ih =>
    have hout := (plain_le_length a.queue).trans (show a.queue.length ≤ maxPerTurn by omega)
    have hasked := request_asked (h := h) ha.mid hout hvalid
    rw [setupLoop]
    dsimp only
    generalize request mem t.toTarget eid h a.rx = x at hasked
    split_ifs with hgot
    · have hmid := hasked.got hgot
      have hlen : (a.queue ++ [(⟨eid, noRecycle t.toTarget eid h⟩ : Packet)]).length =
          a.queue.length+1 := by simp
      have hrest := ih (a := ⟨x.1, a.queue ++ [⟨eid, noRecycle t.toTarget eid h⟩], 0⟩)
        ⟨by simpa using hmid, by
          intro p hp
          rcases List.mem_append.mp hp with hp | hp
          · exact ha.own p hp
          · rw [List.mem_singleton.mp hp]⟩ (by rw [hlen]; omega)
      refine ⟨hrest.1, hrest.2.trans ?_⟩
      rw [hlen]
      omega
    · obtain ⟨hmid, hout0, hfed⟩ := hasked.none (by simpa using hgot)
      refine ⟨⟨⟨hmid.on, hmid.control, fun h0 => ?_, hmid.bound, hmid.amsdu, fun hf => ?_⟩, ha.own⟩,
        Nat.le_add_right _ _⟩
      · have heid := Option.some.inj h0
        exact ⟨heid, hout0 heid⟩
      · refine ⟨(hmid.fed hf).1, fun e he => ?_⟩
        rw [← Option.some.inj he]
        exact hfed hf

theorem rxSetup_queued {h : LkAhd} {n : Nat} (ha : Queued mem eid a)
    (hn : a.queue.length+n ≤ maxPerTurn) :
    Queued mem eid (rxSetup mem t.toTarget eid h n a) ∧
      (rxSetup mem t.toTarget eid h n a).queue.length ≤ a.queue.length+n := by
  unfold rxSetup
  split_ifs with hvalid
  · exact setupLoop_queued (a := { a with status := 0 }) ⟨ha.mid, ha.own⟩ hvalid hn
  · exact ⟨⟨ha.mid, ha.own⟩, Nat.le_add_right _ _⟩

theorem nMsg_le {h : LkAhd}
    (hb : ¬(h.flags &&& htcFlgRxBndlCnt ≠ 0 ∧ nMsg h > t.msgPerBndlMax)) :
    nMsg h ≤ htcHostMaxMsgPerBundle := by
  have hbundles := t.bundles
  by_cases hflags : h.flags &&& htcFlgRxBndlCnt ≠ 0
  · omega
  · unfold nMsg
    rw [if_neg hflags]
    decide

theorem allocLoop_queued (hs : List LkAhd) (ha : Queued mem eid a)
    (hn : a.queue.length + hs.length*htcHostMaxMsgPerBundle ≤ maxPerTurn) :
    Queued mem eid (allocLoop mem t.toTarget eid hs a) ∧
      (allocLoop mem t.toTarget eid hs a).queue.length ≤ maxPerTurn := by
  induction hs generalizing a with
  | nil => exact ⟨ha, by simpa [allocLoop] using hn⟩
  | cons h hs ih =>
    have hfail : ∀ status, Queued mem eid { a with status := status } ∧
        a.queue.length ≤ maxPerTurn := fun _ => ⟨⟨ha.mid, ha.own⟩, by omega⟩
    rw [List.length_cons, Nat.succ_mul] at hn
    rw [allocLoop]
    dsimp only
    split_ifs with h1 h2 h3 h4 h5
    · exact hfail enomem
    · exact hfail enomem
    · exact hfail enomem
    · exact hfail enomem
    · exact hfail enomem
    all_goals
      have hmsg := nMsg_le (t := t) h5
      have hsetup := rxSetup_queued (t := t) (h := h) (n := nMsg h) ha (by omega)
    · exact ⟨hsetup.1, by omega⟩
    · exact ih hsetup.1 (by omega)

end Alloc

section Turn
variable {mem : Nat → Nat} {t : Setup} {s : Rx} {eid : Nat}

theorem Mid.reclaim {p : Packet} {out : Nat} (h : Mid mem eid (plain [p] + out) s)
    (hp : p.endpoint = eid) : Mid mem eid out (reclaim s p) := by
  unfold RxSupply.reclaim
  rw [plain_cons, plain_nil] at h
  split_ifs at h ⊢ with hrec
  · simpa using h
  · rw [hp]
    exact Mid.giveBack (by rwa [Nat.add_comm out])

theorem Mid.complete {p : Packet} {out : Nat} (h : Mid mem eid (plain [p] + out) s)
    (hp : p.endpoint = eid) : Mid mem eid out (complete s p) := by
  unfold RxSupply.complete
  split_ifs with heid
  · exact h.reclaim hp
  · rw [plain_cons, plain_nil] at h
    split_ifs at h with hrec
    · simpa using h
    · exact Mid.keep (by rwa [Nat.add_comm out]) (hp ▸ heid)

theorem Mid.walk {f : Rx → Packet → Rx}
    (hf : ∀ {s p out}, Mid mem eid (plain [p] + out) s → p.endpoint = eid → Mid mem eid out (f s p))
    {q : List Packet} {out : Nat} (h : Mid mem eid (plain q + out) s)
    (hq : ∀ p∈q, p.endpoint = eid) : Mid mem eid out (q.foldl f s) := by
  induction q generalizing s with
  | nil => simpa using h
  | cons p q ih =>
    have hp : Mid mem eid (plain [p] + (plain q + out)) s := by
      simpa [Nat.add_assoc] using h
    exact ih (hf hp (hq p List.mem_cons_self)) fun x hx => hq x (List.mem_cons_of_mem p hx)

theorem rxAlloc_queued {lkAhds : List LkAhd} (hs : Mid mem eid 0 s)
    (hlen : lkAhds.length ≤ htcHostMaxMsgPerBundle) :
    Queued mem eid (rxAlloc mem t.toTarget eid lkAhds s) ∧
      (rxAlloc mem t.toTarget eid lkAhds s).queue.length ≤ maxPerTurn ∧
      ((rxAlloc mem t.toTarget eid lkAhds s).status ≠ 0 →
        (rxAlloc mem t.toTarget eid lkAhds s).queue = []) := by
  have hmax : lkAhds.length*htcHostMaxMsgPerBundle ≤ maxPerTurn := Nat.mul_le_mul_right _ hlen
  have ha := allocLoop_queued (t := t) lkAhds
    (⟨hs, by simp⟩ : Queued mem eid { rx := s }) (by simpa using hmax)
  simp only [rxAlloc]
  generalize allocLoop mem t.toTarget eid lkAhds { rx := s } = a at ha
  split_ifs with hspace hfail
  · exact ⟨⟨ha.1.mid, ha.1.own⟩, ha.2, fun h => absurd rfl h⟩
  · exact ⟨⟨Mid.walk (fun h => h.reclaim) ha.1.mid ha.1.own, by simp⟩, by simp, fun _ => rfl⟩
  · exact ⟨ha.1, ha.2, fun h => absurd h hfail⟩

theorem fetch_mid {a : Alloc} (r : Round) (ha : Queued mem eid a)
    (hlen : a.queue.length ≤ maxPerTurn) :
    Mid mem eid (plain (fetch mem r eid a).2) (fetch mem r eid a).1 ∧
      ∀ p∈(fetch mem r eid a).2, p.endpoint = eid := by
  simp only [fetch]
  generalize r.failed.getD a.queue.length = k
  split_ifs with hk
  · refine ⟨Mid.walk (fun h => h.reclaim) ?_ fun p hp => ha.own p (List.mem_of_mem_drop hp),
      fun p hp => ha.own p (List.mem_of_mem_take hp)⟩
    rw [Nat.add_comm, ← plain_append, List.take_append_drop]
    exact ha.mid
  · refine ⟨?_, ha.own⟩
    simp only [chkWaterMark]
    split_ifs with hlow
    · exact ha.mid.rxRefill hlow.1 ((plain_le_length _).trans hlen)
    · exact ha.mid

theorem turn_mid {lkAhds : List LkAhd} (r : Round) (hs : Mid mem 0 0 s)
    (hlen : lkAhds.length ≤ htcHostMaxMsgPerBundle) :
    Mid mem 0 0 (turn mem t.toTarget s lkAhds r).1 := by
  cases lkAhds with
  | nil => exact hs
  | cons h hs' =>
    simp only [turn]
    split_ifs with hep hstatus
    · exact hs
    · obtain ⟨ha, -, hnil⟩ := rxAlloc_queued (t := t) (hs.rest h.eid) hlen
      have hmid := ha.mid
      rw [hnil hstatus, plain_nil] at hmid
      exact hmid.rest 0
    · obtain ⟨ha, hfew, -⟩ := rxAlloc_queued (t := t) (hs.rest h.eid) hlen
      obtain ⟨hf, hown⟩ := fetch_mid r ha hfew
      generalize fetch mem r h.eid (rxAlloc mem t.toTarget h.eid (h::hs') s) = f at hf hown
      simp only [processPackets]
      generalize r.refused.getD f.2.length = k
      have hsplit := hf
      rw [← List.take_append_drop k f.2, plain_append] at hsplit
      have hdone := Mid.walk (fun h => h.complete) hsplit
        fun p hp => hown p (List.mem_of_mem_take hp)
      exact (Mid.walk (fun h => h.reclaim) hdone
        fun p hp => hown p (List.mem_of_mem_drop hp)).rest 0

theorem handlerLoop_mid {lkAhds : List LkAhd} {rs : List Round} (hs : Mid mem 0 0 s)
    (hlen : lkAhds.length ≤ htcHostMaxMsgPerBundle) :
    Mid mem 0 0 (handlerLoop mem t.toTarget s lkAhds rs) := by
  induction rs generalizing s lkAhds with
  | nil => exact hs
  | cons r rs ih =>
    rw [handlerLoop]
    split_ifs
    · exact ih (turn_mid r hs hlen) r.next.property
    · exact turn_mid r hs hlen

end Turn

/-- Between two interrupts reception is on exactly if HTC does not wait for a buffer, and HTC waits
only if a refill has got nothing, and never for a control message. -/
structure Sound (mem : Nat → Nat) (s : Rx) : Prop where
  on_iff : s.mboxData = true ↔ s.epWaiting = none
  short : s.mboxData = false → ∃ k<s.refills, mem k = 0
  service : s.epWaiting ≠ some 0
  control : s.rxBufq 0 = (boot mem).rxBufq 0
  few : numControlRxBuffers ≤ s.rxBufq 0 ∧ s.rxBufq 0 ≤ maxRxBuffers + numControlRxBuffers
  bound : ∀ eid ≠ 0, s.rxBufq eid ≤ maxRxBuffers + maxPerTurn
  amsdu : s.amsduRxBufferQueue ≤ maxAmsduRxBuffers

section Run
variable {mem : Nat → Nat} {t : Setup} {s : Rx}

/-- A handler has just returned. -/
def Left (mem : Nat → Nat) (s : Rx) : Prop := ∃ s₀, Mid mem 0 0 s₀ ∧ s = leave s₀

theorem Left.sound (h : Left mem s) : Sound mem s := by
  obtain ⟨s₀, hmid, rfl⟩ := h
  have hservice : s₀.epWaiting ≠ some 0 := fun h0 => absurd (hmid.held h0).2 (Nat.lt_irrefl 0)
  have hctrl : s₀.rxBufq 0 = (boot mem).rxBufq 0 := by simpa [Rx.owned] using hmid.control
  have hfew := boot_control mem
  rw [← hctrl] at hfew
  have hbound : ∀ eid ≠ 0, s₀.rxBufq eid ≤ maxRxBuffers + maxPerTurn :=
    fun eid heid => (Nat.le_add_right _ _).trans (hmid.bound eid heid)
  unfold leave
  split_ifs with hw
  · refine ⟨?_, fun _ => ?_, hservice, hctrl, hfew, hbound, hmid.amsdu⟩
    · simp [Option.isSome_iff_ne_none.mp hw]
    · obtain ⟨e, he⟩ := Option.isSome_iff_exists.mp hw
      have hne : e ≠ 0 := fun h0 => hservice (h0 ▸ he)
      have hfed : ¬Fed mem s₀ := fun hf => hne ((hmid.fed hf).2 e he)
      simpa [Fed] using hfed
  · have hnone := Option.not_isSome_iff_eq_none.mp hw
    exact ⟨by simp [hmid.on, hnone], fun hoff => by simp [hmid.on] at hoff, hservice, hctrl, hfew,
      hbound, hmid.amsdu⟩

theorem Left.mid (h : Left mem s) (hon : s.mboxData = true) : Mid mem 0 0 s := by
  obtain ⟨s₀, hmid, rfl⟩ := h
  unfold leave at hon ⊢
  split_ifs at hon ⊢
  exact hmid

theorem Left.step (h : Left mem s) (e : Irq) : Left mem (step mem t.toTarget s e) := by
  unfold RxSupply.step
  split_ifs with hirq
  · exact ⟨_, handlerLoop_mid (h.mid hirq.1) (by simp [htcHostMaxMsgPerBundle]), rfl⟩
  · exact h

end Run

def services : Setup where
  blockMask := 127
  msgPerBndlMax := 8
  maxRxBndlSz := 16384
  rxBndlEnable := true
  ctrlEp := 1
  svcId := fun _ => 1
  rxAllocThresh := fun eid => if eid = 0 ∨ eid = 1 then none else some bufferSize
  allocThresh := fun _ => rfl
  bundles := Nat.le_refl 8

-- twice the A-MSDU queue could not be refilled; it has been by now, but reception is off
example :
    let mem := fun k => if k = 3 ∨ k = 4 then 0 else 16
    let big : Irq := ⟨(2, 0, 0xd0, 0x07), [⟨none, none, ⟨[], Nat.zero_le 8⟩⟩]⟩
    let s := run (step mem services.toTarget) (boot mem) (List.replicate 5 big)
    s.mboxData = false ∧ s.amsduRxBufferQueue = 4 ∧ s.rxBufq 2 = 16 := by decide

end Ath6kl.RxSupply
