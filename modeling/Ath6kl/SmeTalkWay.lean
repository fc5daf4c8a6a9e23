import Ath6kl.SmeTalk
import Mathlib.Data.List.Count

/-! The events on their way to cfg80211, and what has to hold of them for cfg80211 to end up in the
driver's state. -/
namespace Ath6kl.SmeTalk
open List

/-- What an event makes of the state of cfg80211, its BSS known. -/
def CfgSme.after : CfgSme → Event → CfgSme
  | .connecting, .connectResult _ status => if status = wlanStatusSuccess then .connected else .idle
  | .connected, .disconnected _ => .idle
  | q, _ => q

def CfgSme.settle (q : CfgSme) (w : List Event) : CfgSme := w.foldl CfgSme.after q

def Event.isResult : Event → Bool
  | .connectResult _ _ => true
  | _ => false

/-- The state of cfg80211 that goes with a state of the driver. -/
def SmeState.told : SmeState → CfgSme
  | .disconnected => .idle
  | .connecting => .connecting
  | .connected => .connected

/-- The events on their way to cfg80211: those in its list, and the one held back. -/
def Sys.way (s : Sys) : List Event := s.eventList ++ s.pendingConnectInfo.toList

def Sys.settled (s : Sys) : CfgSme := s.wdev.smeState.settle s.way

/-- While the driver is not in the middle of a disconnect request, cfg80211 is on its way to the
driver's state. -/
def Agree (s : Sys) : Prop :=
  (∀ waits, s.op ≠ .disconnecting waits) → s.settled = s.vif.smeState.told

/-- The agreement with what carries it over a step. -/
structure Inv (s : Sys) : Prop where
  agree : Agree s
  asking : ∀ c, s.op = .connecting c → s.wdev.smeState = .connecting
  ending : ∀ waits, s.op = .disconnecting waits →
    s.vif.smeState = .disconnected ∧ s.wdev.smeState ≠ .idle
  heard : s.wdev.smeState = .connected → ∀ e∈s.way, e.isResult = false
  once : (s.way.countP Event.isResult) ≤ 1
  held : ∀ e, s.pendingConnectInfo = some e → ∃ b, e = .connectResult b wlanStatusSuccess

section
variable {q : CfgSme} {w v : List Event} {e : Event}

theorem settle_append (q : CfgSme) (w v : List Event) : q.settle (w ++ v) = (q.settle w).settle v :=
  foldl_append

@[simp] theorem settle_idle (w : List Event) : CfgSme.idle.settle w = .idle := by
  induction w with
  | nil => rfl
  | cons e w ih => cases e <;> exact ih

theorem settle_connecting (h : ∀ e∈w, e.isResult = false) :
    CfgSme.connecting.settle w = .connecting := by
  induction w with
  | nil => rfl
  | cons e w ih =>
    have hw := ih fun x hx => h x (mem_cons_of_mem e hx)
    cases e with
    | connectResult b st => cases h _ mem_cons_self
    | roamed b => exact hw
    | disconnected r => exact hw

theorem settle_connected (w : List Event) :
    CfgSme.connected.settle w = .connected ∨ CfgSme.connected.settle w = .idle := by
  induction w with
  | nil => exact .inl rfl
  | cons e w ih =>
    cases e with
    | connectResult b st => exact ih
    | roamed b => exact ih
    | disconnected r => exact .inr (settle_idle w)

theorem settle_connecting_iff :
    CfgSme.connecting.settle w = .connecting ↔ ∀ e∈w, e.isResult = false := by
  refine ⟨fun h => ?_, settle_connecting⟩
  induction w with
  | nil =>
    intro e he
    cases he
  | cons e w ih =>
    cases e with
    | connectResult b st =>
      have hs : CfgSme.settle (if st = wlanStatusSuccess then .connected else .idle) w =
          .connecting := h
      split at hs
      · cases settle_connected w with
        | inl hc => cases hc.symm.trans hs
        | inr hi => cases hi.symm.trans hs
      · cases (settle_idle w).symm.trans hs
    | roamed b => exact forall_mem_cons.mpr ⟨rfl, ih h⟩
    | disconnected r => exact forall_mem_cons.mpr ⟨rfl, ih h⟩

theorem settle_eq_connecting :
    q.settle w = .connecting ↔ q = .connecting ∧ ∀ e∈w, e.isResult = false := by
  cases q with
  | idle => simp
  | connecting => simp [settle_connecting_iff]
  | connected =>
    cases settle_connected w with
    | inl h => simp [h]
    | inr h => simp [h]

theorem after_roamed (q : CfgSme) (b : Mac) : q.after (.roamed b) = q := by
  cases q <;> rfl

theorem process_smeState (d : Wdev) (found : Bool) (e : Event)
    (h : d.smeState = .connecting → ∀ b, e = .connectResult b wlanStatusSuccess → found = true) :
    (d.process found e).smeState = d.smeState.after e := by
  cases d with
  | mk q bss =>
    cases e with
    | connectResult b st =>
      cases q with
      | idle => rfl
      | connected => rfl
      | connecting =>
        by_cases hst : st = wlanStatusSuccess
        · subst hst
          rw [h rfl b rfl]
          rfl
        · simp [Wdev.process, Wdev.connectResult, CfgSme.after, hst]
    | roamed b =>
      rw [after_roamed]
      simp only [Wdev.process, Wdev.roamed]
      split <;> rfl
    | disconnected r => cases q <;> rfl

end

/-- A step leaves cfg80211 and its request alone, and the driver in `sme` with these events on their
way. -/
structure Becomes (s s' : Sys) (sme : SmeState) (l : List Event) (p : Option Event) : Prop where
  sme : s'.vif.smeState = sme
  wdev : s'.wdev = s.wdev
  op : s'.op = s.op
  list : s'.eventList = l
  pend : s'.pendingConnectInfo = p

section
variable {s s' : Sys} {sme : SmeState} {l : List Event} {p : Option Event}

theorem Becomes.way (h : Becomes s s' sme l p) : s'.way = l ++ p.toList := by
  rw [Sys.way, h.list, h.pend]

theorem Becomes.settled (h : Becomes s s' sme l p) :
    s'.settled = s.wdev.smeState.settle (l ++ p.toList) := by
  rw [Sys.settled, h.way, h.wdev]

theorem Becomes.agree_iff (h : Becomes s s' sme l p) (hop : ∀ waits, s.op ≠ .disconnecting waits) :
    Agree s' ↔ s.wdev.smeState.settle (l ++ p.toList) = sme.told := by
  unfold Agree
  rw [h.settled, h.sme, h.op]
  exact ⟨fun ha => ha hop, fun ha _ => ha⟩

theorem Inv.becomes (h : Inv s) (hb : Becomes s s' sme l p)
    (hagree : Agree s') (hsme : sme = .disconnected ∨ ∀ waits, s.op ≠ .disconnecting waits)
    (hheard : s.wdev.smeState = .connected → ∀ e∈l ++ p.toList, e.isResult = false)
    (honce : (l ++ p.toList).countP Event.isResult ≤ 1)
    (hheld : ∀ e, p = some e → ∃ b, e = .connectResult b wlanStatusSuccess) : Inv s' where
  agree := hagree
  asking c hc := by
    rw [hb.op] at hc
    rw [hb.wdev]
    exact h.asking c hc
  ending waits hw := by
    rw [hb.op] at hw
    rw [hb.wdev, hb.sme]
    exact ⟨hsme.resolve_right fun hn => hn waits hw, (h.ending waits hw).2⟩
  heard hc := by
    rw [hb.wdev] at hc
    rw [hb.way]
    exact hheard hc
  once := by
    rw [hb.way]
    exact honce
  held e he := by
    rw [hb.pend] at he
    exact hheld e he

theorem Inv.quiet (h : Inv s) :
    s.vif.smeState = .disconnected ∨ ∀ waits, s.op ≠ .disconnecting waits := by
  cases ho : s.op with
  | disconnecting waits => exact .inl (h.ending waits ho).1
  | free => exact .inr fun waits hw => by cases hw
  | connecting c => exact .inr fun waits hw => by cases hw

theorem Inv.same (h : Inv s) (hb : Becomes s s' s.vif.smeState s.eventList s.pendingConnectInfo) :
    Inv s' := by
  refine h.becomes hb ?_ ?_ h.heard h.once h.held
  · intro hop
    rw [hb.op] at hop
    rw [hb.settled, hb.sme]
    exact h.agree hop
  · exact h.quiet

/-- The driver waits for the target: so does cfg80211, for the driver. -/
theorem Inv.waiting (h : Inv s) (hc : s.vif.smeState = .connecting) :
    (∀ waits, s.op ≠ .disconnecting waits) ∧ s.wdev.smeState = .connecting ∧
      (∀ e∈s.way, e.isResult = false) ∧ s.pendingConnectInfo = none := by
  have hop : ∀ waits, s.op ≠ .disconnecting waits := by
    intro waits hw
    cases hc.symm.trans (h.ending waits hw).1
  have hset := h.agree hop
  rw [hc] at hset
  obtain ⟨hq, hno⟩ := settle_eq_connecting.mp hset
  refine ⟨hop, hq, hno, ?_⟩
  cases hp : s.pendingConnectInfo with
  | none => rfl
  | some e =>
    obtain ⟨b, rfl⟩ := h.held e hp
    have hmem : Event.connectResult b wlanStatusSuccess∈s.way := by simp [Sys.way, hp]
    cases hno _ hmem

theorem Inv.joined (h : Inv s) (hc : s.vif.smeState = .connected) :
    (∀ waits, s.op ≠ .disconnecting waits) ∧ s.settled = .connected := by
  have hop : ∀ waits, s.op ≠ .disconnecting waits := by
    intro waits hw
    cases hc.symm.trans (h.ending waits hw).1
  have hset := h.agree hop
  rw [hc] at hset
  exact ⟨hop, hset⟩

theorem Inv.pending (h : Inv s) {e : Event} (hp : s.pendingConnectInfo = some e) :
    (∃ b, e = .connectResult b wlanStatusSuccess) ∧ s.wdev.smeState ≠ .connected ∧
      ∀ x∈s.eventList, x.isResult = false := by
  obtain ⟨b, rfl⟩ := h.held e hp
  refine ⟨⟨b, rfl⟩, fun hc => ?_, ?_⟩
  · have hmem : Event.connectResult b wlanStatusSuccess∈s.way := by simp [Sys.way, hp]
    cases h.heard hc _ hmem
  · have honce := h.once
    rw [Sys.way, hp, countP_append] at honce
    have hone : countP Event.isResult
        (Option.some (Event.connectResult b wlanStatusSuccess)).toList = 1 := rfl
    rw [hone] at honce
    intro x hx
    have hz : countP Event.isResult s.eventList = 0 := by omega
    simpa using countP_eq_zero.mp hz x hx

theorem Inv.result (h : Inv s) (hc : s.vif.smeState = .connecting) {b : Mac} {st : Nat}
    (hb : Becomes s s' sme l p) (hway : l ++ p.toList = s.way ++ [.connectResult b st])
    (hsme : sme.told = if st = wlanStatusSuccess then .connected else .idle)
    (hp : ∀ e, p = some e → ∃ b, e = .connectResult b wlanStatusSuccess) : Inv s' := by
  obtain ⟨hop, hq, hno, -⟩ := h.waiting hc
  have hset : s.wdev.smeState.settle (l ++ p.toList) = sme.told := by
    rw [hway, hq, settle_append, settle_connecting hno, hsme]
    rfl
  refine h.becomes hb ((hb.agree_iff hop).mpr hset) (.inr hop) ?_ ?_ hp
  · intro hcon
    cases hq.symm.trans hcon
  · have hz : countP Event.isResult s.way = 0 := countP_eq_zero.mpr (by simpa using hno)
    rw [hway, countP_append, hz]
    exact Nat.le_of_eq rfl

theorem Inv.lost (h : Inv s) (hc : s.vif.smeState = .connecting)
    (hb : Becomes s s' sme s.eventList s.pendingConnectInfo) (hsme : sme ≠ .connecting) :
    ¬ Agree s' := by
  obtain ⟨hop, hq, hno, -⟩ := h.waiting hc
  rw [hb.agree_iff hop]
  intro ha
  have hset : s.wdev.smeState.settle (s.eventList ++ s.pendingConnectInfo.toList) =
      .connecting := by
    rw [hq]
    exact settle_connecting hno
  rw [hset] at ha
  cases sme with
  | disconnected => cases ha
  | connecting => exact hsme rfl
  | connected => cases ha

theorem settle_insert_roamed (q : CfgSme) (w v : List Event) (b : Mac) :
    q.settle (w ++ [.roamed b] ++ v) = q.settle (w ++ v) := by
  rw [settle_append, settle_append, settle_append]
  exact congrArg (CfgSme.settle · v) (after_roamed _ b)

theorem settle_insert_disconnected {q : CfgSme} {w v : List Event} {r : Nat}
    (h : q.settle (w ++ v) = .idle) : q.settle (w ++ [.disconnected r] ++ v) = .idle := by
  rw [settle_append] at h
  rw [settle_append, settle_append]
  cases hz : q.settle w with
  | idle => exact settle_idle v
  | connecting =>
    rw [hz] at h
    exact h
  | connected => exact settle_idle v

theorem countP_insert {w v : List Event} {e : Event} (he : e.isResult = false) :
    countP Event.isResult (w ++ [e] ++ v) = countP Event.isResult (w ++ v) := by
  simp [countP_append, he]

theorem forall_insert {w v : List Event} {e : Event} (he : e.isResult = false)
    (h : ∀ x∈w ++ v, x.isResult = false) : ∀ x∈w ++ [e] ++ v, x.isResult = false := by
  intro x hx
  simp only [mem_append, mem_singleton] at hx
  cases hx with
  | inl hx =>
    cases hx with
    | inl hx => exact h x (mem_append_left v hx)
    | inr hx => exact hx ▸ he
  | inr hx => exact h x (mem_append_right w hx)

theorem Inv.insert (h : Inv s) {e : Event} (he : e.isResult = false)
    (hb : Becomes s s' s.vif.smeState (s.eventList ++ [e]) s.pendingConnectInfo)
    (hset : (∀ waits, s.op ≠ .disconnecting waits) →
      s.wdev.smeState.settle (s.eventList ++ [e] ++ s.pendingConnectInfo.toList) = s.settled) :
    Inv s' := by
  refine h.becomes hb ?_ ?_ (fun hc => forall_insert he (h.heard hc)) ?_ h.held
  · intro hop
    rw [hb.op] at hop
    rw [hb.settled, hb.sme, hset hop]
    exact h.agree hop
  · exact h.quiet
  · rw [countP_insert he]
    exact h.once

theorem Inv.ended (h : Inv s) (hc : s.vif.smeState = .connected) {r : Nat}
    (hb : Becomes s s' .disconnected (s.eventList ++ [.disconnected r]) none)
    (hp : s.pendingConnectInfo = none) : Inv s' := by
  obtain ⟨hop, hset⟩ := h.joined hc
  have hway : s.way = s.eventList := by simp [Sys.way, hp]
  rw [Sys.settled, hway] at hset
  have hafter : s.wdev.smeState.settle (s.eventList ++ [.disconnected r] ++ Option.toList none) =
      SmeState.disconnected.told := by
    rw [settle_append, settle_append, hset]
    rfl
  refine h.becomes hb ((hb.agree_iff hop).mpr hafter) (.inl rfl) ?_ ?_ (fun e he => by cases he)
  · intro hcon
    have hno := h.heard hcon
    rw [hway] at hno
    exact forall_insert rfl (by simpa using hno)
  · have honce := h.once
    rw [hway] at honce
    rw [countP_insert rfl]
    simpa using honce

theorem Inv.unended (h : Inv s) (hc : s.vif.smeState = .connected) {r : Nat} {alloc : Bool}
    (hb : Becomes s s' .disconnected
      (if alloc then s.eventList ++ [.disconnected r] else s.eventList) s.pendingConnectInfo)
    (ha : Agree s') : alloc = true ∧ s.pendingConnectInfo = none := by
  obtain ⟨hop, hset⟩ := h.joined hc
  rw [hb.agree_iff hop] at ha
  cases alloc with
  | false =>
    have hcon : s.wdev.smeState.settle (s.eventList ++ s.pendingConnectInfo.toList) =
        .connected := hset
    cases hcon.symm.trans ha
  | true =>
    refine ⟨rfl, ?_⟩
    cases hp : s.pendingConnectInfo with
    | none => rfl
    | some e =>
      obtain ⟨⟨b, rfl⟩, hne, hno⟩ := h.pending hp
      cases hq : s.wdev.smeState with
      | connected => exact absurd hq hne
      | idle =>
        rw [Sys.settled, hq, settle_idle] at hset
        cases hset
      | connecting =>
        rw [hp, hq, if_pos rfl, settle_append, settle_append, settle_connecting hno] at ha
        cases ha

end

end Ath6kl.SmeTalk
