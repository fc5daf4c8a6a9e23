import Ath6kl.RemainOnChannelTalk

/-! Cookies are reported consistently as long as no answer can be taken for that of another
request. The interface speaks the conversation: each of its steps is one of the moves there, or none
of them. -/
namespace Ath6kl.RemainOnChannel
open Lib.Machine List

variable {s : Roc} {c : Choice}

/-- What is still to come of an answer that the handler has not settled yet. -/
def Cause.pending (w : List Cmd) : Cause → Option Cookie × List Cmd
  | .stop k => (some k, w)
  | .reject k => (none, .roc k::w)
  | .fail => (none, .cancel::w)

def airing : Bool → List Cmd → Option Cookie × List Cmd
  | true, .roc k::w => (some k, w)
  | _, w => (none, w)

/-- The request whose end comes next, and the commands without any answer. -/
def Roc.pending (s : Roc) : Option Cookie × List Cmd :=
  match s.hpc with
  | .startRead _ => (none, s.wire)
  | .test c _ | .rejectReady c | .rejectExpired c | .endRead c => c.pending s.wire
  | .rejectCancelId | .endUnknown => (none, .cancel::s.wire)
  | _ => airing s.started s.wire

def Pc.asking : Pc → Bool
  | .rocPend _ | .rocSend => true
  | _ => false

/-- The cancel command that the operation is about to send. -/
def Pc.cancels : Pc → List Cmd
  | .cancelSend => [.cancel]
  | _ => []

def Hpc.stage : Hpc → Stage
  | .startClear _ id | .startSet _ id | .startReport _ id => .starting id
  | .rejectExpired _ => .rejecting
  | .endClear _ id | .endReport _ id => .ending id
  | _ => .quiet

def Roc.conversation (s : Roc) : Conversation where
  last := s.lastRocId
  cancel := s.lastCancelRocId
  onAir := s.pending.1
  rest := s.pending.2 ++ s.pc.cancels
  asking := s.pc.asking
  stage := s.hpc.stage
  log := s.log

/-- What the handler's place tells about the commands and its own variables. -/
def Roc.Fits (s : Roc) : Prop :=
  match s.hpc with
  | .idle | .startWake => s.started = true → ∃ k w, s.wire = .roc k::w
  | .startRead k => s.started = true ∧ ∃ w, s.wire = .roc k::w
  | .startClear k id | .startSet k id | .startReport k id =>
    id = k ∧ s.started = true ∧ ∃ w, s.wire = .roc k::w
  | .test _ _ | .rejectCancelId | .rejectClear | .endUnknown => s.started = false
  | .rejectReady c | .rejectExpired c => s.started = false ∧ ∃ k, c = .reject k
  | .endRead c => s.started = false ∧ c.request ≠ none
  | .endClear c id | .endReport c id => s.started = false ∧ c.request = some id

/-- The condition of an operation's step. A request takes a new cookie while no other one is without
an answer, and none on the channel but for the last one after it was cancelled; only the last one is
cancelled; and a cancel command that was lost leaves no cookie behind for good. -/
def OpMeets (s : Roc) (c : Choice) : Pc → Prop
  | .rocIssue _ => s.lastRocId + 1 ≠ 0 ∧ (∀ x∈s.pending.2, x = .cancel) ∧
    (s.pending.1 = none ∨ s.pending.1 = some s.lastRocId ∧ s.lastCancelRocId = s.lastRocId)
  | .cancelTake _ => ∀ k∈s.pending.1, k = s.lastRocId
  | .cancelSend => c.sent = true ∨ s.lastCancelRocId = 0 ∨ s.pending.1 ≠ none ∨ s.pending.2 ≠ []
  | _ => True

/-- An answer to a cancel command that found nothing to cancel comes while no request is waiting for
its start, and is dropped as that of an unknown channel. -/
def HandlerMeets (s : Roc) : Hpc → Prop
  | .test .fail chan => s.pend = false ∧ chan = false
  | _ => True

def Meets (s : Roc) : Event → Prop
  | .thread c => OpMeets s c s.pc
  | .handler => HandlerMeets s s.hpc
  | .op _ | .deliver _ => True

instance OpMeets.decidable (s : Roc) (c : Choice) : ∀ pc, Decidable (OpMeets s c pc)
  | .rocIssue _ => inferInstanceAs (Decidable (s.lastRocId + 1 ≠ 0 ∧
    (∀ x∈s.pending.2, x = .cancel) ∧
    (s.pending.1 = none ∨ s.pending.1 = some s.lastRocId ∧ s.lastCancelRocId = s.lastRocId)))
  -- not the instance that goes through all cookies
  | .cancelTake _ => s.pending.1.decidableForallMem
  | .cancelSend => inferInstanceAs (Decidable (c.sent = true ∨ s.lastCancelRocId = 0 ∨
    s.pending.1 ≠ none ∨ s.pending.2 ≠ []))
  | .idle | .rocStart _ | .rocTestPend _ | .rocTestOngoing _ | .rocSetWait _ | .rocWait _
  | .rocWaitOver _ | .rocPend _ | .rocSend | .cancelTestPend _ | .cancelSetWait _ | .cancelWait _
  | .cancelWaitOver | .scanTestCancel | .scanWaitCancel | .scanTestOngoing | .scanSetCancel
  | .scanSend | .scanFailed | .scanWait | .scanWaitOver => isTrue trivial

instance HandlerMeets.decidable (s : Roc) : ∀ hpc, Decidable (HandlerMeets s hpc)
  | .test .fail chan => inferInstanceAs (Decidable (s.pend = false ∧ chan = false))
  | .test (.stop _) _ | .test (.reject _) _ | .idle | .startRead _ | .startClear _ _
  | .startSet _ _ | .startReport _ _ | .startWake | .rejectReady _ | .rejectExpired _
  | .rejectCancelId | .rejectClear | .endUnknown | .endRead _ | .endClear _ _
  | .endReport _ _ => isTrue trivial

instance (s : Roc) : ∀ e, Decidable (Meets s e)
  | .thread c => inferInstanceAs (Decidable (OpMeets s c s.pc))
  | .handler => inferInstanceAs (Decidable (HandlerMeets s s.hpc))
  | .op _ | .deliver _ => isTrue trivial

structure Sound (s : Roc) : Prop where
  fits : s.Fits
  ok : s.conversation.Ok

theorem fits_send (h : s.Fits) (cmd : Cmd) : Roc.Fits { s with wire := s.wire ++ [cmd] } := by
  have hhead : ∀ {k : Cookie}, (∃ w, s.wire = .roc k::w) → ∃ w, s.wire ++ [cmd] = .roc k::w := by
    rintro k ⟨w, hw⟩
    exact ⟨w ++ [cmd], by rw [hw, cons_append]⟩
  cases hp : s.hpc with
  | idle | startWake =>
    simp only [Roc.Fits, hp] at h ⊢
    intro hs
    obtain ⟨k, hw⟩ := h hs
    exact ⟨k, hhead hw⟩
  | startRead k =>
    simp only [Roc.Fits, hp] at h ⊢
    exact ⟨h.1, hhead h.2⟩
  | startClear k id | startSet k id | startReport k id =>
    simp only [Roc.Fits, hp] at h ⊢
    exact ⟨h.1, h.2.1, hhead h.2.2⟩
  | test | rejectReady | rejectExpired | rejectCancelId | rejectClear | endUnknown | endRead
  | endClear | endReport =>
    simp only [Roc.Fits, hp] at h ⊢
    exact h

theorem airing_send {started : Bool} {wire : List Cmd}
    (h : started = true → ∃ k w, wire = .roc k::w) (cmd : Cmd) :
    airing started (wire ++ [cmd]) = ((airing started wire).1, (airing started wire).2 ++ [cmd]) := by
  cases hs : started with
  | false => rfl
  | true =>
    obtain ⟨k, w, hw⟩ := h hs
    rw [hw]
    rfl

theorem pending_send (h : s.Fits) (cmd : Cmd) :
    Roc.pending { s with wire := s.wire ++ [cmd] } = (s.pending.1, s.pending.2 ++ [cmd]) := by
  cases hp : s.hpc with
  | idle | startWake =>
    simp only [Roc.Fits, hp] at h
    simp only [Roc.pending, hp]
    exact airing_send h cmd
  | startRead k => simp [Roc.pending, hp]
  | startClear k id | startSet k id | startReport k id =>
    simp only [Roc.Fits, hp] at h
    simp only [Roc.pending, hp]
    exact airing_send (fun _ => ⟨k, h.2.2⟩) cmd
  | rejectClear =>
    simp only [Roc.Fits, hp] at h
    simp only [Roc.pending, hp]
    exact airing_send (by simp [h]) cmd
  | endClear | endReport =>
    simp only [Roc.Fits, hp] at h
    simp only [Roc.pending, hp]
    exact airing_send (by simp [h.1]) cmd
  | test c | rejectReady c | rejectExpired c | endRead c =>
    simp only [Roc.pending, hp]
    cases c <;> rfl
  | rejectCancelId | endUnknown => simp [Roc.pending, hp]

theorem Sound.silent (h : Sound s) {t : Roc} (hpc : t.hpc = s.hpc) (hwire : t.wire = s.wire)
    (hstarted : t.started = s.started) (hlast : t.lastRocId = s.lastRocId)
    (hcancel : t.lastCancelRocId = s.lastCancelRocId) (hlog : t.log = s.log)
    (hask : t.pc.asking = s.pc.asking) (hcmd : t.pc.cancels = s.pc.cancels) : Sound t := by
  have hpend : t.pending = s.pending := by
    simp only [Roc.pending, hpc, hwire, hstarted]
  constructor
  · have hf := h.fits
    simp only [Roc.Fits, hpc, hwire, hstarted]
    exact hf
  · have hc : t.conversation = s.conversation := by
      simp only [Roc.conversation, hpend, hpc, hlast, hcancel, hlog, hask, hcmd]
    rw [hc]
    exact h.ok

theorem conversation_send (h : s.Fits) (cmd : Cmd) (pc : Pc) (hpc : pc.cancels = []) :
    Roc.conversation { s with wire := s.wire ++ [cmd], pc := pc } =
      { s.conversation with rest := s.pending.2 ++ [cmd], asking := pc.asking } := by
  have hpend : Roc.pending { s with wire := s.wire ++ [cmd], pc := pc } =
    (s.pending.1, s.pending.2 ++ [cmd]) := pending_send h cmd
  simp only [Roc.conversation, hpend, hpc, append_nil]

theorem rocSend_sound (h : Sound s) (hp : s.pc = .rocSend) : Sound (opStep s c) := by
  have hc := h.ok
  have hrest : s.conversation.rest = s.pending.2 := by simp [Roc.conversation, hp, Pc.cancels]
  have hask : s.conversation.asking = true := by simp [Roc.conversation, hp, Pc.asking]
  simp only [opStep, hp, Roc.send, Roc.goto]
  cases hsent : c.sent with
  | true =>
    refine ⟨fits_send h.fits _, ?_⟩
    have heq := conversation_send h.fits (.roc s.lastRocId) .idle rfl
    simp only [if_true]
    rw [heq, ← hrest]
    exact hc.ask hask
  | false =>
    refine ⟨h.fits, ?_⟩
    have heq : Roc.conversation { s with pc := .idle } =
        { s.conversation with asking := false } := by
      simp [Roc.conversation, hp, Roc.pending, Pc.cancels, Pc.asking]
    simp only [Bool.false_eq_true, if_false]
    rw [heq]
    exact hc.dropAsk

theorem cancelTake_sound (h : Sound s) {k : Cookie} (hp : s.pc = .cancelTake k)
    (hm : OpMeets s c s.pc) : Sound (opStep s c) := by
  simp only [OpMeets, hp] at hm
  simp only [opStep, hp, Roc.goto]
  split
  · exact h.silent rfl rfl rfl rfl rfl rfl (by simp [hp, Pc.asking]) (by simp [hp, Pc.cancels])
  · rename_i hk
    rw [ne_eq, not_not] at hk
    refine ⟨h.fits, ?_⟩
    have heq : Roc.conversation { s with lastCancelRocId := k, cancelPend := true,
                                         pc := .cancelSend } =
        { s.conversation with cancel := s.lastRocId, rest := s.conversation.rest ++ [.cancel] } := by
      simp [Roc.conversation, hp, Roc.pending, Pc.cancels, Pc.asking, hk]
    rw [heq]
    exact h.ok.take fun j hj => hm j hj

theorem cancelSend_sound (h : Sound s) (hp : s.pc = .cancelSend) (hm : OpMeets s c s.pc) :
    Sound (opStep s c) := by
  simp only [OpMeets, hp] at hm
  have hrest : s.conversation.rest = s.pending.2 ++ [.cancel] := by
    simp [Roc.conversation, hp, Pc.cancels]
  have hask : s.conversation.asking = false := by simp [Roc.conversation, hp, Pc.asking]
  simp only [opStep, hp, Roc.send, Roc.goto]
  cases hsent : c.sent with
  | true =>
    refine ⟨fits_send h.fits _, ?_⟩
    have heq := conversation_send h.fits .cancel .idle rfl
    simp only [if_true]
    rw [heq, ← hrest]
    simp only [Pc.asking, ← hask]
    exact h.ok
  | false =>
    refine ⟨h.fits, ?_⟩
    have heq : Roc.conversation { s with pc := .idle } =
        { s.conversation with rest := s.pending.2 } := by
      simp [Roc.conversation, hp, Roc.pending, Pc.cancels, Pc.asking]
    simp only [Bool.false_eq_true, if_false]
    rw [heq]
    exact h.ok.loseCancel hrest (hm.resolve_left (by simp [hsent]))

theorem scanSend_sound (h : Sound s) (hp : s.pc = .scanSend) : Sound (opStep s c) := by
  have hrest : s.conversation.rest = s.pending.2 := by simp [Roc.conversation, hp, Pc.cancels]
  have hask : s.conversation.asking = false := by simp [Roc.conversation, hp, Pc.asking]
  simp only [opStep, hp, Roc.send, Roc.goto]
  cases hsent : c.sent with
  | true =>
    refine ⟨fits_send h.fits _, ?_⟩
    have heq := conversation_send h.fits .cancel .scanWait rfl
    simp only [if_true]
    rw [heq, ← hrest]
    simp only [Pc.asking, ← hask]
    exact h.ok.sendCancel
  | false =>
    simp only [Bool.false_eq_true, if_false]
    exact h.silent rfl rfl rfl rfl rfl rfl (by simp [hp, Pc.asking]) (by simp [hp, Pc.cancels])

theorem op_sound (h : Sound s) (hm : OpMeets s c s.pc) : Sound (opStep s c) := by
  cases hp : s.pc with
  | rocIssue d =>
    simp only [OpMeets, hp] at hm
    have hnext : nextCookie s.lastRocId = s.lastRocId + 1 := by rw [nextCookie, if_neg hm.1]
    have hreq : ∀ k, .roc k∉s.pending.2 := fun k hk => by cases hm.2.1 _ hk
    have hc := h.ok
    simp only [Roc.conversation, hp, Pc.cancels, append_nil] at hc
    simp only [opStep, hp, hnext]
    refine ⟨h.fits, ?_⟩
    simpa [Roc.conversation, Pc.cancels, Pc.asking, Roc.pending] using
      hc.issue hm.1 hreq hm.2.2
  | rocSend => exact rocSend_sound h hp
  | cancelTake k => exact cancelTake_sound h hp hm
  | cancelSend => exact cancelSend_sound h hp hm
  | scanSend => exact scanSend_sound h hp
  | idle =>
    simp only [opStep, hp]
    exact h
  -- the other steps change flags, or wait
  | _ =>
    simp only [opStep, hp, Roc.goto]
    repeat' split
    all_goals first
      | exact h
      | exact h.silent rfl rfl rfl rfl rfl rfl (by simp [hp, Pc.asking]) (by simp [hp, Pc.cancels])

theorem Sound.unheard (h : Sound s) {t : Roc} (hfits : t.Fits) (hpend : t.pending = s.pending)
    (hpc : t.pc = s.pc) (hlast : t.lastRocId = s.lastRocId)
    (hcancel : t.lastCancelRocId = s.lastCancelRocId) (hlog : t.log = s.log)
    (hstage : t.hpc.stage = s.hpc.stage) : Sound t := by
  refine ⟨hfits, ?_⟩
  have hc : t.conversation = s.conversation := by
    simp only [Roc.conversation, hpend, hpc, hlast, hcancel, hlog, hstage]
  rw [hc]
  exact h.ok

theorem startRead_sound (h : Sound s) {k : Cookie} (hp : s.hpc = .startRead k) :
    Sound (handlerStep s) := by
  have hf := h.fits
  simp only [Roc.Fits, hp] at hf
  obtain ⟨hs, w, hw⟩ := hf
  have hrest : s.conversation.rest = .roc k::(w ++ s.pc.cancels) := by
    simp [Roc.conversation, Roc.pending, hp, hw]
  have hair : s.conversation.onAir = none := by simp [Roc.conversation, Roc.pending, hp]
  have hlast : k = s.lastRocId := (h.ok.reqs k (hrest ▸ mem_cons_self)).1
  have hstart := h.ok.start hair hrest (by simp [Roc.conversation, hp, Hpc.stage])
    (.starting s.lastRocId) (.inr (by rw [hlast]))
  simp only [handlerStep, hp, Roc.hgoto]
  refine ⟨?_, ?_⟩
  · simp only [Roc.Fits]
    exact ⟨hlast.symm, hs, w, hw⟩
  · simpa [Roc.conversation, Roc.pending, airing, hs, hw, Hpc.stage] using hstart

theorem startReport_sound (h : Sound s) {k id : Cookie} (hp : s.hpc = .startReport k id) :
    Sound (handlerStep s) := by
  have hf := h.fits
  simp only [Roc.Fits, hp] at hf
  obtain ⟨-, -, w, hw⟩ := hf
  have hstage : s.conversation.stage = .starting id := by simp [Roc.conversation, hp, Hpc.stage]
  simp only [handlerStep, hp]
  refine ⟨?_, ?_⟩
  · simp only [Roc.Fits]
    exact fun _ => ⟨k, w, hw⟩
  · split
    · simpa [Roc.conversation, Roc.pending, hp, Hpc.stage] using h.ok.hush hstage
    · simpa [Roc.conversation, Roc.pending, hp, Hpc.stage] using h.ok.ready hstage

theorem test_sound (h : Sound s) {a : Cause} {chan : Bool} (hp : s.hpc = .test a chan)
    (hm : HandlerMeets s s.hpc) : Sound (handlerStep s) := by
  have hf := h.fits
  simp only [Roc.Fits, hp] at hf
  have hstage : s.conversation.stage = .quiet := by simp [Roc.conversation, hp, Hpc.stage]
  simp only [handlerStep, hp, Roc.hgoto]
  cases a with
  | stop k =>
    cases chan with
    | true =>
      refine h.unheard ?_ ?_ rfl rfl rfl rfl ?_
      · simp [Roc.Fits, hf, Cause.status, Cause.request]
      · simp [Roc.pending, hp, Cause.status]
      · simp [hp, Hpc.stage, Cause.status]
    | false =>
      refine ⟨by simp [Roc.Fits, hf, Cause.status], ?_⟩
      simpa [Roc.conversation, Roc.pending, hp, Hpc.stage, Cause.status, Cause.pending]
        using h.ok.forgetStopped hstage
  | reject k =>
    by_cases hpend : s.pend = true
    · refine h.unheard ?_ ?_ rfl rfl rfl rfl ?_
      · simp [Roc.Fits, hf, Cause.status, hpend]
      · simp [Roc.pending, hp, Cause.status, hpend]
      · simp [hp, Hpc.stage, Cause.status, hpend]
    · cases chan with
      | true =>
        refine h.unheard ?_ ?_ rfl rfl rfl rfl ?_
        · simp [Roc.Fits, hf, Cause.status, Cause.request, hpend]
        · simp [Roc.pending, hp, Cause.status, hpend]
        · simp [hp, Hpc.stage, Cause.status, hpend]
      | false =>
        have hair : s.conversation.onAir = none := by
          simp [Roc.conversation, Roc.pending, hp, Cause.pending]
        have hrest : s.conversation.rest = .roc k::(s.wire ++ s.pc.cancels) := by
          simp [Roc.conversation, Roc.pending, hp, Cause.pending]
        refine ⟨by simp [Roc.Fits, hf, Cause.status, hpend], ?_⟩
        simpa [Roc.conversation, Roc.pending, hp, Hpc.stage, Cause.status, Cause.pending, hpend]
          using h.ok.forgetRejected hair hrest hstage
  | fail =>
    simp only [HandlerMeets, hp] at hm
    refine h.unheard ?_ ?_ rfl rfl rfl rfl ?_
    · simp [Roc.Fits, hf, hm.1, hm.2]
    · simp [Roc.pending, hp, Cause.pending, hm.1, hm.2]
    · simp [hp, Hpc.stage, hm.1, hm.2]

theorem reject_sound (h : Sound s) {a : Cause} (hp : s.hpc = .rejectReady a ∨
    s.hpc = .rejectExpired a) : Sound (handlerStep s) := by
  obtain ⟨k, hs, rfl⟩ : ∃ k, s.started = false ∧ a = .reject k := by
    have hf := h.fits
    cases hp with
    | inl hp | inr hp =>
      simp only [Roc.Fits, hp] at hf
      obtain ⟨hs, k, hk⟩ := hf
      exact ⟨k, hs, hk⟩
  have hair : s.conversation.onAir = none := by
    cases hp with
    | inl hp | inr hp => simp [Roc.conversation, Roc.pending, hp, Cause.pending]
  have hrest : s.conversation.rest = .roc k::(s.wire ++ s.pc.cancels) := by
    cases hp with
    | inl hp | inr hp => simp [Roc.conversation, Roc.pending, hp, Cause.pending]
  cases hp with
  | inl hp =>
    have hstage : s.conversation.stage = .quiet := by simp [Roc.conversation, hp, Hpc.stage]
    simp only [handlerStep, hp]
    refine ⟨by simp [Roc.Fits, hs], ?_⟩
    have hlog : ∀ b : Bool, (if b then s.log ++ [.ready s.lastRocId] else s.log) = s.log ∨
        (if b then s.log ++ [.ready s.lastRocId] else s.log) =
          s.log ++ [.ready s.lastRocId] := by
      intro b
      cases b with
      | true => exact .inr rfl
      | false => exact .inl rfl
    have hc := h.ok.reject hair hrest hstage _ (hlog (s.lastRocDuration = rocMaxPeriod))
    simpa [Roc.conversation, Roc.pending, hp, Hpc.stage] using hc
  | inr hp =>
    have hstage : s.conversation.stage = .rejecting := by simp [Roc.conversation, hp, Hpc.stage]
    simp only [handlerStep, hp]
    refine ⟨by simp [Roc.Fits, hs], ?_⟩
    simpa [Roc.conversation, Roc.pending, hp, Hpc.stage, Cause.request, Cause.pending]
      using h.ok.rejected hstage hrest

theorem reset_sound (h : Sound s) (hp : s.hpc = .rejectCancelId ∨ s.hpc = .endUnknown) :
    Sound (handlerStep s) := by
  have hs : s.started = false := by
    have hf := h.fits
    cases hp with
    | inl hp | inr hp => simpa only [Roc.Fits, hp] using hf
  have hair : s.conversation.onAir = none := by
    cases hp with
    | inl hp | inr hp => simp [Roc.conversation, Roc.pending, hp]
  have hrest : s.conversation.rest = .cancel::(s.wire ++ s.pc.cancels) := by
    cases hp with
    | inl hp | inr hp => simp [Roc.conversation, Roc.pending, hp]
  have hstage : s.conversation.stage = .quiet := by
    cases hp with
    | inl hp | inr hp => simp [Roc.conversation, hp, Hpc.stage]
  have hc := h.ok.reset hair hrest hstage
  cases hp with
  | inl hp | inr hp =>
    simp only [handlerStep, hp]
    refine ⟨by simp [Roc.Fits, hs], ?_⟩
    simpa [Roc.conversation, Roc.pending, airing, hp, hs, Hpc.stage] using hc

theorem endRead_sound (h : Sound s) {a : Cause} (hp : s.hpc = .endRead a) :
    Sound (handlerStep s) := by
  have hf := h.fits
  simp only [Roc.Fits, hp] at hf
  obtain ⟨hs, hreq⟩ := hf
  simp only [handlerStep, hp]
  cases a with
  | stop k =>
    have hair : s.conversation.onAir = some k := by
      simp [Roc.conversation, Roc.pending, hp, Cause.pending]
    have hid : endCookie s.lastRocId s.lastCancelRocId = k := h.ok.endCookie_stop hair
    have hc := h.ok.endStop hair (by simp [Roc.conversation, hp, Hpc.stage])
    refine ⟨by simp [Roc.Fits, hs, hid, Cause.request], ?_⟩
    simpa [Roc.conversation, Roc.pending, airing, hp, hs, hid, Hpc.stage, Cause.pending] using hc
  | reject k =>
    have hair : s.conversation.onAir = none := by
      simp [Roc.conversation, Roc.pending, hp, Cause.pending]
    have hrest : s.conversation.rest = .roc k::(s.wire ++ s.pc.cancels) := by
      simp [Roc.conversation, Roc.pending, hp, Cause.pending]
    have hid : endCookie s.lastRocId s.lastCancelRocId = k := h.ok.endCookie_reject hair hrest
    have hc := h.ok.endReject hair hrest
    refine ⟨by simp [Roc.Fits, hs, hid, Cause.request], ?_⟩
    simpa [Roc.conversation, Roc.pending, airing, hp, hs, hid, Hpc.stage, Cause.pending] using hc
  | fail => exact absurd rfl hreq

theorem endReport_sound (h : Sound s) {a : Cause} {id : Cookie} (hp : s.hpc = .endReport a id) :
    Sound (handlerStep s) := by
  have hf := h.fits
  simp only [Roc.Fits, hp] at hf
  have hstage : s.conversation.stage = .ending id := by simp [Roc.conversation, hp, Hpc.stage]
  simp only [handlerStep, hp]
  refine ⟨by simp [Roc.Fits, hf.1], ?_⟩
  simpa [Roc.conversation, Roc.pending, hp, hf.2, Hpc.stage] using h.ok.expired hstage

theorem handler_sound (h : Sound s) (hm : HandlerMeets s s.hpc) : Sound (handlerStep s) := by
  cases hp : s.hpc with
  | startRead k => exact startRead_sound h hp
  | startReport k id => exact startReport_sound h hp
  | test a chan => exact test_sound h hp hm
  | rejectReady a => exact reject_sound h (.inl hp)
  | rejectExpired a => exact reject_sound h (.inr hp)
  | rejectCancelId => exact reset_sound h (.inl hp)
  | endUnknown => exact reset_sound h (.inr hp)
  | endRead a => exact endRead_sound h hp
  | endReport a id => exact endReport_sound h hp
  | idle =>
    simp only [handlerStep, hp]
    exact h
  | rejectClear =>
    have hf := h.fits
    simp only [Roc.Fits, hp] at hf
    simp only [handlerStep, hp]
    refine h.unheard ?_ ?_ rfl rfl rfl rfl ?_
    · simp [Roc.Fits, hf]
    · simp [Roc.pending, hp]
    · simp [hp, Hpc.stage]
  | startClear k id | startSet k id | startWake | endClear a id =>
    have hf := h.fits
    simp only [Roc.Fits, hp] at hf
    simp only [handlerStep, hp]
    refine h.unheard ?_ ?_ rfl rfl rfl rfl ?_
    · simpa [Roc.Fits] using hf
    · simp [Roc.pending, hp]
    · simp [hp, Hpc.stage]

theorem deliver_sound (h : Sound s) (hp : s.hpc = .idle) (a : Answer) : Sound (deliver s a) := by
  have hf := h.fits
  simp only [Roc.Fits, hp] at hf
  have hstage : s.conversation.stage = .quiet := by simp [Roc.conversation, hp, Hpc.stage]
  unfold deliver
  split
  · rename_i k w chan hs hw
    cases chan with
    | true =>
      refine h.unheard ?_ ?_ rfl rfl rfl rfl ?_
      · simp [Roc.Fits, hw]
      · simp [Roc.pending, airing, hp, hs]
      · simp [hp, Hpc.stage]
    | false =>
      have hair : s.conversation.onAir = none := by
        simp [Roc.conversation, Roc.pending, airing, hp, hs]
      have hrest : s.conversation.rest = .roc k::(w ++ s.pc.cancels) := by
        simp [Roc.conversation, Roc.pending, airing, hp, hs, hw]
      have hc := h.ok.start hair hrest hstage .quiet (.inl rfl)
      refine ⟨by simp [Roc.Fits, hw], ?_⟩
      simpa [Roc.conversation, Roc.pending, airing, hw, Hpc.stage] using hc
  · rename_i k w chan hs hw
    refine h.unheard ?_ ?_ rfl rfl rfl rfl ?_
    · simp [Roc.Fits, hs]
    · simp [Roc.pending, airing, hp, hs, hw, Cause.pending]
    · simp [hp, Hpc.stage]
  · rename_i k w chan hs hw
    refine h.unheard ?_ ?_ rfl rfl rfl rfl ?_
    · simp [Roc.Fits]
    · simp [Roc.pending, airing, hp, hs, hw, Cause.pending]
    · simp [hp, Hpc.stage]
  · rename_i k w chan hs hw
    have hair : s.conversation.onAir = some k := by
      simp [Roc.conversation, Roc.pending, airing, hp, hs, hw]
    have hrest : s.conversation.rest = .cancel::(w ++ s.pc.cancels) := by
      simp [Roc.conversation, Roc.pending, airing, hp, hs, hw]
    refine ⟨by simp [Roc.Fits], ?_⟩
    simpa [Roc.conversation, Roc.pending, airing, hp, hs, hw, Hpc.stage, Cause.pending]
      using h.ok.merge hair hrest
  · rename_i w chan hs hw
    refine h.unheard ?_ ?_ rfl rfl rfl rfl ?_
    · simp [Roc.Fits, hs]
    · simp [Roc.pending, airing, hp, hs, hw, Cause.pending]
    · simp [hp, Hpc.stage]
  · exact h

theorem step_sound (h : Sound s) {e : Event} (hm : Meets s e) : Sound (step s e) := by
  cases e with
  | op o =>
    simp only [step]
    split
    · rename_i hp
      cases o <;> exact h.silent rfl rfl rfl rfl rfl rfl
        (by simp [hp, Roc.goto, Op.entry, Pc.asking]) (by simp [hp, Roc.goto, Op.entry, Pc.cancels])
    · exact h
  | thread c => exact op_sound h hm
  | deliver a =>
    simp only [step]
    split
    · rename_i hp
      exact deliver_sound h hp a
    · exact h
  | handler => exact handler_sound h hm

def fresh : Roc := {}

theorem fresh_sound : Sound fresh where
  fits := nofun
  ok :=
    { reqs := nofun
      single := Nat.zero_le 1
      asks := nofun
      air := nofun
      front _ hc := absurd rfl hc
      busy hc := absurd rfl hc
      waiting := nofun
      starting := nofun
      rejecting := nofun
      ending := nofun
      bound := nofun
      good := ⟨Pairwise.nil, nofun⟩ }

theorem roc_cookies_consistent (es : List Event) (h : AllSteps step Meets fresh es) :
    Consistent (run step fresh es).log := by
  have hs : Sound (run step fresh es) :=
    run_invariant_of (I := Sound) (fun _ _ hs hm => step_sound hs hm) fresh_sound h
  exact hs.ok.good

/-- The first request is cancelled while it is on the channel, and the second one is rejected. -/
theorem roc_cookies_consistent_two : Consistent (run step fresh
    (.op (.remainOnChannel 5000)::replicate 6 (.thread {}) ++ .deliver (.start true)::
      replicate 5 .handler ++ .op (.cancelRemainOnChannel 1)::replicate 3 (.thread {}) ++
      .deliver (.cancelled true)::replicate 4 .handler ++
      .op (.remainOnChannel 5000)::replicate 6 (.thread {}) ++ .deliver (.reject true)::
      replicate 5 .handler)).log :=
  roc_cookies_consistent _ (by decide)

/-- The user cancels the first request as it ends. The answer to the cancel command comes when the
second request waits for its start, and is notified as its end. -/
theorem roc_cookies_inconsistent : ¬ Consistent (run step fresh
    (.op (.remainOnChannel 100)::replicate 6 (.thread {}) ++ .deliver (.start true)::
      replicate 5 .handler ++ .op (.cancelRemainOnChannel 1)::replicate 3 (.thread {}) ++
      .deliver (.stop true)::replicate 4 .handler ++
      .op (.remainOnChannel 100)::replicate 6 (.thread {}) ++ .deliver (.fail true)::
      replicate 5 .handler)).log := by
  intro h
  exact absurd (h.cause (.expired 2 none) (by decide)) (by simp [RightCookie])

end Ath6kl.RemainOnChannel
