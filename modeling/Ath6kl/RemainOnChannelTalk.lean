import Ath6kl.RemainOnChannel
import Mathlib.Data.List.Basic
import Mathlib.Data.List.Count
import Mathlib.Data.List.Nodup

/-! Which request an answer of the target is taken to be about. The conversation is what is left of
an interface without its flags and waits: the two cookies it remembers and the answers that
are still to come, in their order. -/
namespace Ath6kl.RemainOnChannel
open List

def Report.cookie : Report → Cookie
  | .ready k => k
  | .expired k _ => k

def Report.isReady : Report → Bool
  | .ready _ => true
  | .expired _ _ => false

/-- A notification `b` after `a`: another cookie, or the end of a channel period that is ready. -/
def MayFollow (a b : Report) : Prop :=
  a.cookie = b.cookie → a.isReady = true ∧ b.isReady = false

/-- An end carries the cookie of the request that ended or was rejected. -/
def RightCookie : Report → Prop
  | .ready _ => True
  | .expired k cause => cause = some k

/-- For each cookie at most one ready and one expired, never ready after expired; and every end is
that of its own request. -/
structure Consistent (log : List Report) : Prop where
  order : log.Pairwise MayFollow
  cause : ∀ r∈log, RightCookie r

def Unheard (log : List Report) (k : Cookie) : Prop := ∀ r∈log, r.cookie ≠ k

def Unexpired (log : List Report) (k : Cookie) : Prop :=
  ∀ r∈log, r.cookie = k → r.isReady = true

theorem Unheard.unexpired {log : List Report} {k : Cookie} (h : Unheard log k) :
    Unexpired log k := fun r hr he => absurd he (h r hr)

theorem Unheard.snoc {log : List Report} {k : Cookie} {r : Report} (h : Unheard log k)
    (hr : r.cookie ≠ k) : Unheard (log ++ [r]) k := by
  intro x hx
  rw [mem_append, mem_singleton] at hx
  cases hx with
  | inl hx => exact h x hx
  | inr hx => exact hx ▸ hr

theorem Unexpired.snoc {log : List Report} {k : Cookie} {r : Report} (h : Unexpired log k)
    (hr : r.cookie = k → r.isReady = true) : Unexpired (log ++ [r]) k := by
  intro x hx
  rw [mem_append, mem_singleton] at hx
  cases hx with
  | inl hx => exact h x hx
  | inr hx => exact hx ▸ hr

theorem bound_snoc {log : List Report} {n : Nat} {r : Report}
    (h : ∀ x∈log, x.cookie.toNat ≤ n) (hr : r.cookie.toNat ≤ n) :
    ∀ x∈log ++ [r], x.cookie.toNat ≤ n := by
  intro x hx
  rw [mem_append, mem_singleton] at hx
  cases hx with
  | inl hx => exact h x hx
  | inr hx => exact hx ▸ hr

theorem Consistent.ready {log : List Report} {k : Cookie} (h : Consistent log)
    (hk : Unheard log k) : Consistent (log ++ [.ready k]) where
  order := by
    rw [pairwise_append]
    refine ⟨h.order, pairwise_singleton _ _, fun a ha b hb he => ?_⟩
    rw [mem_singleton] at hb
    subst hb
    exact absurd he (hk a ha)
  cause r hr := by
    rw [mem_append, mem_singleton] at hr
    cases hr with
    | inl hr => exact h.cause r hr
    | inr hr => exact hr ▸ trivial

theorem Consistent.expired {log : List Report} {k : Cookie} (h : Consistent log)
    (hk : Unexpired log k) : Consistent (log ++ [.expired k (some k)]) where
  order := by
    rw [pairwise_append]
    refine ⟨h.order, pairwise_singleton _ _, fun a ha b hb he => ?_⟩
    rw [mem_singleton] at hb
    subst hb
    exact ⟨hk a ha he, rfl⟩
  cause r hr := by
    rw [mem_append, mem_singleton] at hr
    cases hr with
    | inl hr => exact h.cause r hr
    | inr hr => exact hr ▸ rfl

/-- What the handler is about to notify. -/
inductive Stage
  | quiet
  | starting (id : Cookie)
  | rejecting
  | ending (id : Cookie)
deriving DecidableEq

/-- `onAir` is the request whose end comes next, `rest` the commands without any answer; `asking`
tells that the last cookie was taken for a request that is not sent yet. -/
structure Conversation where
  last : Cookie
  cancel : Cookie
  onAir : Option Cookie
  rest : List Cmd
  asking : Bool
  stage : Stage
  log : List Report

variable {c : Conversation} {k id : Cookie} {w : List Cmd}

/-- Every answer to come will be taken for the one it is. -/
structure Conversation.Ok (c : Conversation) : Prop where
  reqs : ∀ k, .roc k∈c.rest → k = c.last ∧ k ≠ 0
  single : c.rest.count (.roc c.last) ≤ 1
  asks : c.asking = true → .roc c.last∉c.rest ∧ c.onAir ≠ some c.last ∧ c.last ≠ 0 ∧
    Unheard c.log c.last
  air : ∀ k, c.onAir = some k → k ≠ 0 ∧ k.toNat ≤ c.last.toNat ∧ Unexpired c.log k ∧
    (k = c.last ∧ .roc c.last∉c.rest ∧ ¬ (c.cancel ≠ 0 ∧ c.cancel + 1 = c.last) ∨
      k + 1 = c.last ∧ c.cancel = k)
  front : c.onAir = none → c.cancel ≠ 0 → c.cancel + 1 = c.last → c.rest.head? = some .cancel
  busy : c.cancel ≠ 0 → c.onAir ≠ none ∨ c.rest ≠ []
  waiting : ∀ k, .roc k∈c.rest → Unexpired c.log k ∧ (c.stage ≠ .rejecting → Unheard c.log k)
  starting : ∀ id, c.stage = .starting id → c.onAir = some id ∧ Unheard c.log id
  rejecting : c.stage = .rejecting → c.onAir = none ∧ c.rest.head? = some (.roc c.last)
  ending : ∀ id, c.stage = .ending id → Unexpired c.log id ∧ c.onAir ≠ some id ∧
    .roc id∉c.rest ∧ (c.asking = true → id ≠ c.last) ∧ id.toNat ≤ c.last.toNat
  bound : ∀ r∈c.log, r.cookie.toNat ≤ c.last.toNat
  good : Consistent c.log

theorem ne_succ (k : Cookie) : k ≠ k + 1 := by
  intro h
  have h' := congrArg UInt32.toBitVec h
  rw [UInt32.toBitVec_add] at h'
  simp at h'

theorem succ_toNat {k : Cookie} (h : k + 1 ≠ 0) : (k + 1).toNat = k.toNat + 1 := by
  have hlt := k.toNat_lt
  have hne : ¬ k.toNat = 2 ^ 32 - 1 := by
    intro hk
    apply h
    apply UInt32.toNat_inj.mp
    rw [UInt32.toNat_add, hk]
    rfl
  rw [UInt32.toNat_add]
  have h1 : (1 : UInt32).toNat = 1 := rfl
  rw [h1]
  omega

theorem mem_snoc_cancel {k : Cookie} (h : .roc k∈w ++ [.cancel]) : .roc k∈w := by
  simpa using h

theorem head_append {w v : List Cmd} (h : w ≠ []) : (w ++ v).head? = w.head? := by
  cases w with
  | nil => exact absurd rfl h
  | cons x w => rfl

theorem ne_nil_of_head {w : List Cmd} {x : Cmd} (h : w.head? = some x) : w ≠ [] := by
  intro h0
  rw [h0] at h
  cases h

theorem Conversation.Ok.tail (h : c.Ok) (hr : c.rest = .roc k::w) : ∀ n, .roc n∉w := by
  intro n hn
  have hk := (h.reqs k (hr ▸ mem_cons_self)).1
  have hnl := (h.reqs n (hr ▸ mem_cons_of_mem _ hn)).1
  have hs := h.single
  rw [hr, hk, count_cons_self] at hs
  have hpos := count_pos_iff.mpr (hnl ▸ hn)
  omega

theorem Conversation.Ok.cancel_tail (h : c.Ok) (hr : c.rest = .roc k::w) :
    ∀ n, .roc n∉.cancel::w := fun n hn =>
  h.tail hr n (mem_of_ne_of_mem (by simp) hn)

theorem count_le_one_of_forall {w : List Cmd} (h : ∀ n, .roc n∉w) (k : Cookie) :
    w.count (.roc k) ≤ 1 := by
  rw [count_eq_zero.mpr (h k)]
  exact Nat.zero_le 1

theorem Conversation.Ok.not_asking (h : c.Ok) (hk : .roc k∈c.rest) : c.asking = false := by
  cases ha : c.asking with
  | false => rfl
  | true => exact absurd ((h.reqs k hk).1 ▸ hk) (h.asks ha).1

theorem Conversation.Ok.issue (h : c.Ok) (hwrap : c.last + 1 ≠ 0)
    (hreq : ∀ k, .roc k∉c.rest) (hair : c.onAir = none ∨ c.onAir = some c.last ∧
      c.cancel = c.last) : Ok { c with last := c.last + 1, asking := true } where
  reqs k hk := absurd hk (hreq k)
  single := by
    rw [count_eq_zero.mpr (hreq (c.last + 1))]
    exact Nat.zero_le 1
  asks _ := by
    refine ⟨hreq _, fun he => ?_, hwrap, fun r hr he => ?_⟩
    · cases hair with
      | inl hnone => cases hnone.symm.trans he
      | inr hsome => exact ne_succ c.last (Option.some.inj (hsome.1.symm.trans he))
    · have he' : r.cookie = c.last + 1 := he
      have hb := h.bound r hr
      have hs := succ_toNat hwrap
      rw [← he'] at hs
      omega
  air k hk := by
    obtain ⟨h0, hle, hx, -⟩ := h.air k hk
    have hs := succ_toNat hwrap
    refine ⟨h0, ?_, hx, .inr ?_⟩
    · dsimp only
      omega
    · cases hair with
      | inl hnone => cases hnone.symm.trans hk
      | inr hsome =>
        have he : c.last = k := Option.some.inj (hsome.1.symm.trans hk)
        exact ⟨he ▸ rfl, hsome.2.trans he⟩
  front hnone hc _ := by
    have hne : c.rest ≠ [] := (h.busy hc).resolve_left fun hn => hn hnone
    cases hr : c.rest with
    | nil => exact absurd hr hne
    | cons x w =>
      cases x with
      | roc k => exact absurd (hr ▸ mem_cons_self) (hreq k)
      | cancel => rfl
  busy := h.busy
  waiting k hk := absurd hk (hreq k)
  starting := h.starting
  rejecting hs := absurd (mem_of_head? (h.rejecting hs).2) (hreq c.last)
  ending id hs := by
    obtain ⟨hx, hair', hroc, -, hle⟩ := h.ending id hs
    have hsucc := succ_toNat hwrap
    refine ⟨hx, hair', hroc, fun _ he => ?_, ?_⟩
    · rw [he] at hle
      dsimp only at hle
      omega
    · dsimp only
      omega
  bound r hr := by
    have hb := h.bound r hr
    have hs := succ_toNat hwrap
    dsimp only
    omega
  good := h.good

theorem Conversation.Ok.ask (h : c.Ok) (ha : c.asking = true) :
    Ok { c with rest := c.rest ++ [.roc c.last], asking := false } where
  reqs k hk := by
    rw [mem_append, mem_singleton] at hk
    cases hk with
    | inl hk => exact h.reqs k hk
    | inr hk =>
      cases hk
      exact ⟨rfl, (h.asks ha).2.2.1⟩
  single := by
    rw [count_append, count_eq_zero.mpr (h.asks ha).1]
    simp
  asks he := nomatch he
  air k hk := by
    obtain ⟨h0, hle, hx, hor⟩ := h.air k hk
    refine ⟨h0, hle, hx, .inr (hor.resolve_left fun he => ?_)⟩
    exact (h.asks ha).2.1 (he.1 ▸ hk)
  front hnone hc hl := by
    have hhead := h.front hnone hc hl
    rw [head_append (ne_nil_of_head hhead)]
    exact hhead
  busy _ := .inr (by simp)
  waiting k hk := by
    rw [mem_append, mem_singleton] at hk
    cases hk with
    | inl hk => exact h.waiting k hk
    | inr hk =>
      cases hk
      have hun := (h.asks ha).2.2.2
      exact ⟨hun.unexpired, fun _ => hun⟩
  starting := h.starting
  rejecting hs := by
    obtain ⟨hnone, hhead⟩ := h.rejecting hs
    refine ⟨hnone, ?_⟩
    rw [head_append (ne_nil_of_head hhead)]
    exact hhead
  ending id hs := by
    obtain ⟨hx, hair, hroc, hne, hle⟩ := h.ending id hs
    refine ⟨hx, hair, fun hk => ?_, fun he => (nomatch he), hle⟩
    rw [mem_append, mem_singleton] at hk
    cases hk with
    | inl hk => exact hroc hk
    | inr hk => exact hne ha (Cmd.roc.inj hk)
  bound := h.bound
  good := h.good

theorem Conversation.Ok.dropAsk (h : c.Ok) : Ok { c with asking := false } where
  reqs := h.reqs
  single := h.single
  asks he := nomatch he
  air := h.air
  front := h.front
  busy := h.busy
  waiting := h.waiting
  starting := h.starting
  rejecting := h.rejecting
  ending id hs := by
    obtain ⟨hx, hair, hroc, -, hle⟩ := h.ending id hs
    exact ⟨hx, hair, hroc, fun he => (nomatch he), hle⟩
  bound := h.bound
  good := h.good

theorem Conversation.Ok.sendCancel (h : c.Ok) : Ok { c with rest := c.rest ++ [.cancel] } where
  reqs k hk := h.reqs k (mem_snoc_cancel hk)
  single := by
    rw [count_append]
    simpa using h.single
  asks ha := by
    obtain ⟨hroc, hrest⟩ := h.asks ha
    exact ⟨fun hk => hroc (mem_snoc_cancel hk), hrest⟩
  air k hk := by
    obtain ⟨h0, hle, hx, hor⟩ := h.air k hk
    refine ⟨h0, hle, hx, hor.imp_left fun he => ?_⟩
    exact ⟨he.1, fun hk => he.2.1 (mem_snoc_cancel hk), he.2.2⟩
  front hnone hc hl := by
    have hhead := h.front hnone hc hl
    rw [head_append (ne_nil_of_head hhead)]
    exact hhead
  busy _ := .inr (by simp)
  waiting k hk := h.waiting k (mem_snoc_cancel hk)
  starting := h.starting
  rejecting hs := by
    obtain ⟨hnone, hhead⟩ := h.rejecting hs
    refine ⟨hnone, ?_⟩
    rw [head_append (ne_nil_of_head hhead)]
    exact hhead
  ending id hs := by
    obtain ⟨hx, hair, hroc, hne, hle⟩ := h.ending id hs
    exact ⟨hx, hair, fun hk => hroc (mem_snoc_cancel hk), hne, hle⟩
  bound := h.bound
  good := h.good

theorem Conversation.Ok.take (h : c.Ok) (hair : ∀ k, c.onAir = some k → k = c.last) :
    Ok { c with cancel := c.last, rest := c.rest ++ [.cancel] } where
  reqs := h.sendCancel.reqs
  single := h.sendCancel.single
  asks := h.sendCancel.asks
  air k hk := by
    obtain ⟨h0, hle, hx, hor⟩ := h.sendCancel.air k hk
    refine ⟨h0, hle, hx, .inl ?_⟩
    have hroc : .roc c.last∉c.rest ++ [.cancel] := by
      cases hor with
      | inl he => exact he.2.1
      | inr he => exact absurd ((hair k hk).trans he.1.symm) (ne_succ k)
    exact ⟨hair k hk, hroc, fun he => ne_succ c.last he.2.symm⟩
  front _ _ hl := absurd hl.symm (ne_succ c.last)
  busy _ := .inr (by simp)
  waiting := h.sendCancel.waiting
  starting := h.starting
  rejecting := h.sendCancel.rejecting
  ending := h.sendCancel.ending
  bound := h.bound
  good := h.good

theorem Conversation.Ok.loseCancel (h : c.Ok) (hr : c.rest = w ++ [.cancel])
    (hb : c.cancel = 0 ∨ c.onAir ≠ none ∨ w ≠ []) : Ok { c with rest := w } where
  reqs k hk := h.reqs k (hr ▸ mem_append_left _ hk)
  single := by
    have hs := h.single
    rw [hr, count_append] at hs
    dsimp only
    omega
  asks ha := by
    obtain ⟨hroc, hrest⟩ := h.asks ha
    exact ⟨fun hk => hroc (hr ▸ mem_append_left _ hk), hrest⟩
  air k hk := by
    obtain ⟨h0, hle, hx, hor⟩ := h.air k hk
    refine ⟨h0, hle, hx, hor.imp_left fun he => ?_⟩
    exact ⟨he.1, fun hk => he.2.1 (hr ▸ mem_append_left _ hk), he.2.2⟩
  front hnone hc hl := by
    have hhead := h.front hnone hc hl
    have hne : w ≠ [] := (hb.resolve_left hc).resolve_left fun hn => hn hnone
    rw [hr, head_append hne] at hhead
    exact hhead
  busy hc := hb.resolve_left hc
  waiting k hk := h.waiting k (hr ▸ mem_append_left _ hk)
  starting := h.starting
  rejecting hs := by
    obtain ⟨hnone, hhead⟩ := h.rejecting hs
    refine ⟨hnone, ?_⟩
    rw [hr] at hhead
    cases w with
    | nil => cases hhead
    | cons x w => exact hhead
  ending id hs := by
    obtain ⟨hx, hair, hroc, hne, hle⟩ := h.ending id hs
    exact ⟨hx, hair, fun hk => hroc (hr ▸ mem_append_left _ hk), hne, hle⟩
  bound := h.bound
  good := h.good

theorem Conversation.Ok.start (h : c.Ok) (hair : c.onAir = none) (hr : c.rest = .roc k::w)
    (hq : c.stage = .quiet) (st : Stage) (hst : st = .quiet ∨ st = .starting k) :
    Ok { c with onAir := some k, rest := w, stage := st } where
  reqs n hn := absurd hn (h.tail hr n)
  single := count_le_one_of_forall (h.tail hr) c.last
  asks ha := by
    rw [h.not_asking (hr ▸ mem_cons_self)] at ha
    cases ha
  air n hn := by
    cases hn
    have hmem : .roc k∈c.rest := hr ▸ mem_cons_self
    obtain ⟨hl, h0⟩ := h.reqs k hmem
    refine ⟨h0, Nat.le_of_eq (congrArg _ hl), (h.waiting k hmem).1, .inl ⟨hl, ?_, ?_⟩⟩
    · exact h.tail hr c.last
    · rintro ⟨hc, he⟩
      have hhead := h.front hair hc he
      rw [hr] at hhead
      cases hhead
  front hn := nomatch hn
  busy _ := .inl (by simp)
  waiting n hn := absurd hn (h.tail hr n)
  starting id hs := by
    have hmem : .roc k∈c.rest := hr ▸ mem_cons_self
    have hun : Unheard c.log k := (h.waiting k hmem).2 (by simp [hq])
    cases hst with
    | inl he => cases he.symm.trans hs
    | inr he =>
      cases he.symm.trans hs
      exact ⟨rfl, hun⟩
  rejecting hs := by
    cases hst with
    | inl he => cases he.symm.trans hs
    | inr he => cases he.symm.trans hs
  ending id hs := by
    cases hst with
    | inl he => cases he.symm.trans hs
    | inr he => cases he.symm.trans hs
  bound := h.bound
  good := h.good

theorem Conversation.Ok.hush (h : c.Ok) (hs : c.stage = .starting id) :
    Ok { c with stage := .quiet } where
  reqs := h.reqs
  single := h.single
  asks := h.asks
  air := h.air
  front := h.front
  busy := h.busy
  waiting k hk := ⟨(h.waiting k hk).1, fun _ => (h.waiting k hk).2 (by simp [hs])⟩
  starting _ he := nomatch he
  rejecting he := nomatch he
  ending _ he := nomatch he
  bound := h.bound
  good := h.good

theorem Conversation.Ok.ready (h : c.Ok) (hs : c.stage = .starting id) :
    Ok { c with stage := .quiet, log := c.log ++ [.ready id] } where
  reqs := h.reqs
  single := h.single
  asks ha := by
    obtain ⟨hroc, hair, h0, hun⟩ := h.asks ha
    refine ⟨hroc, hair, h0, hun.snoc fun he => hair ?_⟩
    rw [(h.starting id hs).1]
    exact congrArg some he
  air k hk := by
    obtain ⟨h0, hle, hx, hor⟩ := h.air k hk
    exact ⟨h0, hle, hx.snoc fun _ => rfl, hor⟩
  front := h.front
  busy := h.busy
  waiting k hk := by
    have hair := (h.starting id hs).1
    have hun : Unheard c.log k := (h.waiting k hk).2 (by simp [hs])
    have hne : (Report.ready id).cookie ≠ k := by
      intro (he : id = k)
      obtain ⟨-, -, -, hor⟩ := h.air id hair
      have hkl := (h.reqs k hk).1
      cases hor with
      | inl hl => exact hl.2.1 (hkl ▸ hk)
      | inr hl => exact ne_succ id ((he.trans hkl).trans hl.1.symm)
    exact ⟨(hun.snoc hne).unexpired, fun _ => hun.snoc hne⟩
  starting _ he := nomatch he
  rejecting he := nomatch he
  ending _ he := nomatch he
  bound := bound_snoc h.bound (h.air id (h.starting id hs).1).2.1
  good := h.good.ready (h.starting id hs).2

theorem Conversation.Ok.reject (h : c.Ok) (hair : c.onAir = none) (hr : c.rest = .roc k::w)
    (hq : c.stage = .quiet) (log : List Report)
    (hlog : log = c.log ∨ log = c.log ++ [.ready c.last]) :
    Ok { c with stage := .rejecting, log := log } where
  reqs := h.reqs
  single := h.single
  asks ha := by
    rw [h.not_asking (hr ▸ mem_cons_self)] at ha
    cases ha
  air n hn := by
    rw [hair] at hn
    cases hn
  front := h.front
  busy := h.busy
  waiting n hn := by
    refine ⟨?_, fun he => absurd rfl he⟩
    have hx := (h.waiting n hn).1
    cases hlog with
    | inl he => exact he ▸ hx
    | inr he => exact he ▸ hx.snoc fun _ => rfl
  starting _ he := nomatch he
  rejecting _ := by
    refine ⟨hair, ?_⟩
    rw [hr, (h.reqs k (hr ▸ mem_cons_self)).1]
    rfl
  ending _ he := nomatch he
  bound := by
    cases hlog with
    | inl he => exact he ▸ h.bound
    | inr he => exact he ▸ bound_snoc h.bound (Nat.le_refl _)
  good := by
    have hmem : .roc c.last∈c.rest := by
      rw [hr, (h.reqs k (hr ▸ mem_cons_self)).1]
      exact mem_cons_self
    cases hlog with
    | inl he => exact he ▸ h.good
    | inr he => exact he ▸ h.good.ready ((h.waiting c.last hmem).2 (by simp [hq]))

/-- The end of a rejected request. The cookie to cancel is not reset yet. -/
theorem Conversation.Ok.rejected (h : c.Ok) (hs : c.stage = .rejecting)
    (hr : c.rest = .roc k::w) :
    Ok { c with rest := .cancel::w, stage := .quiet
                log := c.log ++ [.expired c.last (some k)] } where
  reqs n hn := absurd hn (h.cancel_tail hr n)
  single := count_le_one_of_forall (h.cancel_tail hr) c.last
  asks ha := by
    rw [h.not_asking (hr ▸ mem_cons_self)] at ha
    cases ha
  air n hn := by
    rw [(h.rejecting hs).1] at hn
    cases hn
  front _ _ _ := rfl
  busy _ := .inr (by simp)
  waiting n hn := absurd hn (h.cancel_tail hr n)
  starting _ he := nomatch he
  rejecting he := nomatch he
  ending _ he := nomatch he
  bound := bound_snoc h.bound (Nat.le_refl _)
  good := by
    have hmem : .roc k∈c.rest := hr ▸ mem_cons_self
    have hk := (h.reqs k hmem).1
    rw [← hk]
    exact h.good.expired (h.waiting k hmem).1

theorem Conversation.Ok.reset (h : c.Ok) (hair : c.onAir = none) (hr : c.rest = .cancel::w)
    (hq : c.stage = .quiet) : Ok { c with cancel := 0, rest := w } where
  reqs k hk := h.reqs k (hr ▸ mem_cons_of_mem _ hk)
  single := by
    have hs := h.single
    rw [hr, count_cons_of_ne (by simp)] at hs
    exact hs
  asks ha := by
    obtain ⟨hroc, hrest⟩ := h.asks ha
    exact ⟨fun hk => hroc (hr ▸ mem_cons_of_mem _ hk), hrest⟩
  air k hk := by
    rw [hair] at hk
    cases hk
  front _ hc := absurd rfl hc
  busy hc := absurd rfl hc
  waiting k hk := h.waiting k (hr ▸ mem_cons_of_mem _ hk)
  starting id hs := by
    rw [hq] at hs
    cases hs
  rejecting hs := by
    rw [hq] at hs
    cases hs
  ending id hs := by
    rw [hq] at hs
    cases hs
  bound := h.bound
  good := h.good

theorem Conversation.Ok.forgetRejected (h : c.Ok) (hair : c.onAir = none)
    (hr : c.rest = .roc k::w) (hq : c.stage = .quiet) :
    Ok { c with rest := .cancel::w } where
  reqs n hn := absurd hn (h.cancel_tail hr n)
  single := count_le_one_of_forall (h.cancel_tail hr) c.last
  asks ha := by
    rw [h.not_asking (hr ▸ mem_cons_self)] at ha
    cases ha
  air n hn := by
    rw [hair] at hn
    cases hn
  front _ _ _ := rfl
  busy _ := .inr (by simp)
  waiting n hn := absurd hn (h.cancel_tail hr n)
  starting id hs := by
    rw [hq] at hs
    cases hs
  rejecting hs := by
    rw [hq] at hs
    cases hs
  ending id hs := by
    rw [hq] at hs
    cases hs
  bound := h.bound
  good := h.good

theorem Conversation.Ok.forgetStopped (h : c.Ok) (hq : c.stage = .quiet) :
    Ok { c with onAir := none, rest := .cancel::c.rest } where
  reqs n hn := h.reqs n (mem_of_ne_of_mem (by simp) hn)
  single := by
    rw [count_cons_of_ne (by simp)]
    exact h.single
  asks ha := by
    obtain ⟨hroc, -, hrest⟩ := h.asks ha
    exact ⟨fun hk => hroc (mem_of_ne_of_mem (by simp) hk), by simp, hrest⟩
  air n hn := nomatch hn
  front _ _ _ := rfl
  busy _ := .inr (by simp)
  waiting n hn := h.waiting n (mem_of_ne_of_mem (by simp) hn)
  starting id hs := by
    rw [hq] at hs
    cases hs
  rejecting hs := by
    rw [hq] at hs
    cases hs
  ending id hs := by
    rw [hq] at hs
    cases hs
  bound := h.bound
  good := h.good

theorem Conversation.Ok.merge (h : c.Ok) (hair : c.onAir = some k) (hr : c.rest = .cancel::w) :
    Ok { c with rest := w } where
  reqs k hk := h.reqs k (hr ▸ mem_cons_of_mem _ hk)
  single := by
    have hs := h.single
    rw [hr, count_cons_of_ne (by simp)] at hs
    exact hs
  asks ha := by
    obtain ⟨hroc, hrest⟩ := h.asks ha
    exact ⟨fun hk => hroc (hr ▸ mem_cons_of_mem _ hk), hrest⟩
  air n hn := by
    obtain ⟨h0, hle, hx, hor⟩ := h.air n hn
    refine ⟨h0, hle, hx, hor.imp_left fun he => ?_⟩
    exact ⟨he.1, fun hk => he.2.1 (hr ▸ mem_cons_of_mem _ hk), he.2.2⟩
  front hn := by
    rw [hair] at hn
    cases hn
  busy _ := .inl (by simp [hair])
  waiting n hn := h.waiting n (hr ▸ mem_cons_of_mem _ hn)
  starting := h.starting
  rejecting hs := by
    rw [(h.rejecting hs).1] at hair
    cases hair
  ending id hs := by
    obtain ⟨hx, hne, hroc, hrest⟩ := h.ending id hs
    exact ⟨hx, hne, fun hk => hroc (hr ▸ mem_cons_of_mem _ hk), hrest⟩
  bound := h.bound
  good := h.good

theorem Conversation.Ok.endCookie_reject (h : c.Ok) (hair : c.onAir = none)
    (hr : c.rest = .roc k::w) : endCookie c.last c.cancel = k := by
  rw [endCookie, if_neg]
  · exact ((h.reqs k (hr ▸ mem_cons_self)).1).symm
  · rintro ⟨hc, he⟩
    have hhead := h.front hair hc he
    rw [hr] at hhead
    cases hhead

theorem Conversation.Ok.endCookie_stop (h : c.Ok) (hair : c.onAir = some k) :
    endCookie c.last c.cancel = k := by
  obtain ⟨h0, -, -, hor⟩ := h.air k hair
  rw [endCookie]
  cases hor with
  | inl hl =>
    rw [if_neg hl.2.2]
    exact hl.1.symm
  | inr hl =>
    rw [hl.2, if_pos ⟨h0, hl.1⟩]

theorem Conversation.Ok.endReject (h : c.Ok) (hair : c.onAir = none) (hr : c.rest = .roc k::w)
    : Ok { c with cancel := 0, rest := w, stage := .ending k } where
  reqs n hn := absurd hn (h.tail hr n)
  single := count_le_one_of_forall (h.tail hr) c.last
  asks ha := by
    rw [h.not_asking (hr ▸ mem_cons_self)] at ha
    cases ha
  air n hn := by
    rw [hair] at hn
    cases hn
  front _ hc := absurd rfl hc
  busy hc := absurd rfl hc
  waiting n hn := absurd hn (h.tail hr n)
  starting _ he := nomatch he
  rejecting he := nomatch he
  ending id hs := by
    cases hs
    have hmem : .roc k∈c.rest := hr ▸ mem_cons_self
    have hl := (h.reqs k hmem).1
    refine ⟨(h.waiting k hmem).1, by simp [hair], h.tail hr k, fun ha => ?_, ?_⟩
    · rw [h.not_asking hmem] at ha
      cases ha
    · exact Nat.le_of_eq (congrArg _ hl)
  bound := h.bound
  good := h.good

theorem Conversation.Ok.endStop (h : c.Ok) (hair : c.onAir = some k) (hq : c.stage = .quiet) :
    Ok { c with onAir := none, cancel := 0, stage := .ending k } where
  reqs := h.reqs
  single := h.single
  asks ha := by
    obtain ⟨hroc, -, hrest⟩ := h.asks ha
    exact ⟨hroc, by simp, hrest⟩
  air n hn := nomatch hn
  front _ hc := absurd rfl hc
  busy hc := absurd rfl hc
  waiting n hn := ⟨(h.waiting n hn).1, fun _ => (h.waiting n hn).2 (by simp [hq])⟩
  starting _ he := nomatch he
  rejecting he := nomatch he
  ending id hs := by
    cases hs
    obtain ⟨-, hle, hx, hor⟩ := h.air k hair
    refine ⟨hx, by simp, fun hk => ?_, fun ha he => ?_, hle⟩
    · have hl := (h.reqs k hk).1
      cases hor with
      | inl hor => exact hor.2.1 (hl ▸ hk)
      | inr hor => exact ne_succ k (hl.trans hor.1.symm)
    · exact (h.asks ha).2.1 (he ▸ hair)
  bound := h.bound
  good := h.good

theorem Conversation.Ok.expired (h : c.Ok) (hs : c.stage = .ending id) :
    Ok { c with stage := .quiet, log := c.log ++ [.expired id (some id)] } where
  reqs := h.reqs
  single := h.single
  asks ha := by
    obtain ⟨hroc, hair, h0, hun⟩ := h.asks ha
    exact ⟨hroc, hair, h0, hun.snoc ((h.ending id hs).2.2.2.1 ha)⟩
  air k hk := by
    obtain ⟨h0, hle, hx, hor⟩ := h.air k hk
    refine ⟨h0, hle, hx.snoc fun he => ?_, hor⟩
    have he' : id = k := he
    exact absurd (he' ▸ hk) (h.ending id hs).2.1
  front := h.front
  busy := h.busy
  waiting k hk := by
    have hun : Unheard c.log k := (h.waiting k hk).2 (by simp [hs])
    have hne : (Report.expired id (some id)).cookie ≠ k := by
      intro (he : id = k)
      exact (h.ending id hs).2.2.1 (he ▸ hk)
    exact ⟨(hun.snoc hne).unexpired, fun _ => hun.snoc hne⟩
  starting _ he := nomatch he
  rejecting he := nomatch he
  ending _ he := nomatch he
  bound := bound_snoc h.bound (h.ending id hs).2.2.2.2
  good := h.good.expired (h.ending id hs).1

end Ath6kl.RemainOnChannel
