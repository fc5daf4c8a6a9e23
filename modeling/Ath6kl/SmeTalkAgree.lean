import Ath6kl.SmeTalkWay
import Ath6kl.Lib.Machine

/-! Agreement of the driver and cfg80211. What the driver holds of the connection is what cfg80211
will hold once it has read every event on its way. -/
namespace Ath6kl.SmeTalk
open Lib.Machine List

/-- The event gets past the checks of `ath6kl_cfg80211_connect_event`. -/
def ConnectEvent.heard (ev : ConnectEvent) : Prop :=
  ev.adhoc = false ∧ ev.chan = true ∧ ev.bss = true

/-- The successful result is held back for a while. -/
def delays (cfg : Config) (s : Sys) (x : Env) (ev : ConnectEvent) : Prop :=
  needPendingConnect cfg { (handshakeProtect s.vif ev.bssid).1 with smeState := .connected } x ∧
    x.pendAlloc = true

/-- The driver has the memory to report what it ends, and holds back no result. -/
def EndTold (s : Sys) (x : Env) : Prop :=
  match s.vif.smeState with
  | .connecting => x.alloc = true
  | .connected => x.alloc = true ∧ s.pendingConnectInfo = none
  | .disconnected => True

/-- What keeps the two sides together: no request to connect while the result of an earlier one is
on its way, none that fails after the driver took it up, no disconnect request that a signal
interrupts, no end while the success is held back, and memory for every event. -/
def Kept (cfg : Config) (s : Sys) : Step → Prop
  | .connect c =>
    match s.op, s.wdev.smeState, connectStart s.vif c with
    | .free, .idle, .ok _ => ∀ e∈s.way, e.isResult = false
    | _, _, _ => True
  | .connectEnd =>
    match s.op with
    | .connecting c => (connectFinish s.vif c).2.isSome → s.vif.smeState = .disconnected
    | _ => True
  | .disconnectEnd signal =>
    match s.op with
    | .disconnecting true => signal = true → s.settled = .idle
    | _ => True
  | .connectEvent x ev =>
    ev.heard → s.vif.smeState = .connecting → ¬ delays cfg s x ev → x.alloc = true
  | .disconnectEvent x ev => ev.reason = disconnectCmd → EndTold s x
  | .pendingConnectWork alloc =>
    match s.op, s.wdev.smeState, s.pendingConnectInfo with
    | .disconnecting _, _, _ => True
    | _, .connecting, some _ => alloc = true
    | _, _, _ => True
  | .close x =>
    match s.op with
    | .free => EndTold s x
    | _ => True
  | .stop x => EndTold s x
  | .process found =>
    match s.op, s.wdev.smeState, s.eventList with
    | .free, .connecting, .connectResult _ status::_ =>
      status = wlanStatusSuccess → found = true
    | _, _, _ => True
  | .disconnect _ => True
  | .disconnectTimer => True

section
variable (cfg : Config) (s : Sys)

@[simp] theorem handshakeProtect_smeState (v : Vif) (b : Mac) :
    (handshakeProtect v b).1.smeState = v.smeState := by
  unfold handshakeProtect
  split
  · split <;> rfl
  · rfl

theorem post_becomes (alloc : Bool) (e : Event) :
    Becomes s (s.post alloc e) s.vif.smeState (if alloc then s.eventList ++ [e] else s.eventList)
      s.pendingConnectInfo := by
  unfold Sys.post
  cases alloc <;> exact ⟨rfl, rfl, rfl, rfl, rfl⟩

variable {s}

theorem connectResult_becomes (x : Env) (b : Mac) (st : Nat)
    (hnot : ¬ (needPendingConnect cfg s.vif x ∧ x.pendAlloc)) :
    Becomes s (cfg80211ConnectResult cfg s x b st) s.vif.smeState
      (if x.alloc then s.eventList ++ [.connectResult b st] else s.eventList)
      s.pendingConnectInfo := by
  rw [cfg80211ConnectResult, if_neg hnot]
  exact post_becomes s x.alloc _

theorem needPendingConnect_eq_false {v : Vif} (h : v.smeState ≠ .connected) (x : Env) :
    needPendingConnect cfg v x = false := by
  simp [needPendingConnect, h, IeWalk.p2pNeedPendingConnect]

theorem connectEvent_becomes (x : Env) (ev : ConnectEvent) :
    let s' := connectEvent cfg s x ev
    (ev.heard ∧ s.vif.smeState = .connecting ∧ ¬ delays cfg s x ev ∧
      Becomes s s' .connected
        (if x.alloc then s.eventList ++ [.connectResult ev.bssid wlanStatusSuccess]
        else s.eventList) s.pendingConnectInfo) ∨
    (ev.heard ∧ s.vif.smeState = .connecting ∧ delays cfg s x ev ∧
      Becomes s s' .connected s.eventList (some (.connectResult ev.bssid wlanStatusSuccess))) ∨
    ((ev.heard → s.vif.smeState ≠ .connecting) ∧
      (Becomes s s' s.vif.smeState s.eventList s.pendingConnectInfo ∨
        Becomes s s' s.vif.smeState (s.eventList ++ [.roamed ev.bssid]) s.pendingConnectInfo)) := by
  dsimp only
  by_cases hh : ev.heard
  swap
  · refine .inr (.inr ⟨fun h => absurd h hh, .inl ?_⟩)
    have hskip : ev.adhoc = true ∨ (!ev.chan) = true ∨ (!ev.bss) = true := by
      unfold ConnectEvent.heard at hh
      cases ha : ev.adhoc <;> cases hch : ev.chan <;> cases hb : ev.bss <;> simp_all
    simp only [connectEvent, cfg80211ConnectEvent, if_pos hskip]
    exact ⟨rfl, rfl, rfl, rfl, rfl⟩
  have hgo : ¬ (ev.adhoc = true ∨ (!ev.chan) = true ∨ (!ev.bss) = true) := by
    obtain ⟨h1, h2, h3⟩ := hh
    simp [h1, h2, h3]
  simp only [connectEvent, cfg80211ConnectEvent, if_neg hgo, handshakeProtect_smeState]
  by_cases hc : s.vif.smeState = .connecting
  · simp only [if_pos hc]
    by_cases hd : delays cfg s x ev
    · refine .inr (.inl ⟨hh, hc, hd, ?_⟩)
      unfold delays at hd
      simp only [cfg80211ConnectResult, if_pos hd]
      exact ⟨rfl, rfl, rfl, rfl, rfl⟩
    · refine .inl ⟨hh, hc, hd, ?_⟩
      unfold delays at hd
      simp only [cfg80211ConnectResult, if_neg hd]
      cases hx : x.alloc
      · exact ⟨rfl, rfl, rfl, rfl, rfl⟩
      · exact ⟨rfl, rfl, rfl, rfl, rfl⟩
  · refine .inr (.inr ⟨fun _ => hc, ?_⟩)
    simp only [if_neg hc]
    split
    · cases hx : x.alloc
      · exact .inl ⟨handshakeProtect_smeState _ _, rfl, rfl, rfl, rfl⟩
      · exact .inr ⟨handshakeProtect_smeState _ _, rfl, rfl, rfl, rfl⟩
    · exact .inl ⟨handshakeProtect_smeState _ _, rfl, rfl, rfl, rfl⟩

theorem connectStart_smeState {v v' : Vif} {c : ConnectReq} (h : connectStart v c = .ok v') :
    v'.smeState = .connecting := by
  unfold connectStart at h
  split at h
  · cases h
  split at h
  · cases h
  split at h
  · cases h
  split at h
  · cases h
  cases h
  rfl

theorem disconnectStart_smeState {v : Vif} {d : DisconnectReq} {r : Vif × Bool}
    (h : disconnectStart v d = .ok r) : r.1.smeState = .disconnected := by
  unfold disconnectStart at h
  split at h
  · cases h
  split at h
  · cases h
  split at h
  · cases h
  cases h
  rfl

@[simp] theorem setWpaVersion_smeState (v : Vif) (n : Nat) :
    (setWpaVersion v n).smeState = v.smeState := by
  unfold setWpaVersion
  split
  · rfl
  split
  · rfl
  split <;> rfl

theorem setAuthType_smeState {v v' : Vif} {a : AuthType} (h : setAuthType v a = some v') :
    v'.smeState = v.smeState := by
  cases a <;> cases h <;> rfl

@[simp] theorem setCipher_smeState (v : Vif) (n : Nat) (ucast : Bool) :
    (setCipher v n ucast).smeState = v.smeState := by
  unfold setCipher
  cases cipherCrypt n with
  | none => rfl
  | some t => cases ucast <;> rfl

@[simp] theorem setKeyMgmt_smeState (v : Vif) (n : Nat) :
    (setKeyMgmt v n).smeState = v.smeState := by
  unfold setKeyMgmt
  split
  · split
    · rfl
    split <;> rfl
  split
  · split
    · rfl
    split <;> rfl
  split
  · rfl
  split <;> rfl

@[simp] theorem ath6klDisconnect_smeState (v : Vif) :
    (ath6klDisconnect v).smeState = v.smeState := by
  unfold ath6klDisconnect
  split <;> rfl

theorem connectProfile_smeState (v : Vif) (c : ConnectReq) :
    (connectProfile v c).smeState = v.smeState := by
  unfold connectProfile
  cases c.akmSuites <;> simp

theorem connectSend_smeState (v : Vif) (c : ConnectReq) :
    (connectSend v c).1.smeState = v.smeState := by
  unfold connectSend
  split <;> rfl

theorem connectNew_smeState (v : Vif) (c : ConnectReq) :
    (connectNew v c).1.smeState = v.smeState := by
  have hsame : (if v.ssid = c.ssid then ath6klDisconnect v else v).smeState = v.smeState := by
    split
    · exact ath6klDisconnect_smeState v
    · rfl
  unfold connectNew
  dsimp only
  split
  · rw [setWpaVersion_smeState]
    exact hsame
  · rename_i hauth
    have hv := setAuthType_smeState hauth
    rw [setWpaVersion_smeState] at hv
    split
    · rw [connectProfile_smeState, hv]
      exact hsame
    split
    · rw [connectProfile_smeState, hv]
      exact hsame
    · rw [connectSend_smeState, connectProfile_smeState, hv]
      exact hsame

theorem connectFinish_smeState (v : Vif) (c : ConnectReq) :
    (connectFinish v c).1.smeState = v.smeState := by
  unfold connectFinish
  cases c.drain with
  | timeout => rfl
  | signal => rfl
  | drained =>
    cases c.assocReqIes with
    | some e => rfl
    | none =>
      dsimp only
      split
      · rfl
      split
      · rfl
      · exact connectNew_smeState _ c

/-- The driver gives the connection up, whatever is left of it. -/
inductive Ends (s t : Sys) (x : Env) : Prop
  | failed (b : Mac) (st : Nat) : s.vif.smeState = .connecting → st ≠ wlanStatusSuccess →
      Becomes s t .disconnected
        (if x.alloc then s.eventList ++ [.connectResult b st] else s.eventList)
        s.pendingConnectInfo → Ends s t x
  | parted (r : Nat) : s.vif.smeState = .connected →
      Becomes s t .disconnected (if x.alloc then s.eventList ++ [.disconnected r] else s.eventList)
        s.pendingConnectInfo → Ends s t x
  | silent : s.vif.smeState = .disconnected →
      Becomes s t .disconnected s.eventList s.pendingConnectInfo → Ends s t x
  | again (r : Nat) : s.vif.smeState = .disconnected →
      Becomes s t .disconnected (s.eventList ++ [.disconnected r]) s.pendingConnectInfo → Ends s t x

theorem failed_becomes (x : Env) (b : Mac) (st : Nat) (hc : s.vif.smeState = .connecting) :
    Becomes s (cfg80211ConnectResult cfg s x b st) s.vif.smeState
      (if x.alloc then s.eventList ++ [.connectResult b st] else s.eventList)
      s.pendingConnectInfo := by
  refine connectResult_becomes cfg x b st ?_
  rw [needPendingConnect_eq_false cfg (by simp [hc]) x]
  simp

theorem Becomes.move {s s' t : Sys} {sme sme' : SmeState} {l : List Event} {p : Option Event}
    (h : Becomes s s' sme l p) (hs : t.vif.smeState = sme') (hw : t.wdev = s'.wdev)
    (ho : t.op = s'.op) (hl : t.eventList = s'.eventList)
    (hp : t.pendingConnectInfo = s'.pendingConnectInfo) : Becomes s t sme' l p :=
  ⟨hs, hw.trans h.wdev, ho.trans h.op, hl.trans h.list, hp.trans h.pend⟩

theorem Becomes.of_vif {s t : Sys} {v : Vif} {sme : SmeState} {l : List Event} {p : Option Event}
    (h : Becomes { s with vif := v } t sme l p) : Becomes s t sme l p :=
  ⟨h.sme, h.wdev, h.op, h.list, h.pend⟩

theorem Ends.move {s s' t : Sys} {x : Env} (h : Ends s s' x) (hs : t.vif.smeState = .disconnected)
    (hw : t.wdev = s'.wdev) (ho : t.op = s'.op) (hl : t.eventList = s'.eventList)
    (hp : t.pendingConnectInfo = s'.pendingConnectInfo) : Ends s t x := by
  cases h with
  | failed b st hc hst hb => exact .failed b st hc hst (hb.move hs hw ho hl hp)
  | parted r hc hb => exact .parted r hc (hb.move hs hw ho hl hp)
  | silent hc hb => exact .silent hc (hb.move hs hw ho hl hp)
  | again r hc hb => exact .again r hc (hb.move hs hw ho hl hp)

theorem Ends.of_vif {s t : Sys} {x : Env} {v : Vif} (h : Ends { s with vif := v } t x)
    (hv : v.smeState = s.vif.smeState) : Ends s t x := by
  cases h with
  | failed b st hc hst hb => exact .failed b st (hv.symm.trans hc) hst hb.of_vif
  | parted r hc hb => exact .parted r (hv.symm.trans hc) hb.of_vif
  | silent hc hb => exact .silent (hv.symm.trans hc) hb.of_vif
  | again r hc hb => exact .again r (hv.symm.trans hc) hb.of_vif

theorem Becomes.refl (s : Sys) : Becomes s s s.vif.smeState s.eventList s.pendingConnectInfo :=
  ⟨rfl, rfl, rfl, rfl, rfl⟩

theorem reportEnd_ends (s : Sys) (x : Env) (b : Mac) {st : Nat} (r : Nat)
    (hst : st ≠ wlanStatusSuccess) {t : Sys} (hs : t.vif.smeState = .disconnected)
    (hw : t.wdev = (reportEnd cfg s x b st r).wdev) (ho : t.op = (reportEnd cfg s x b st r).op)
    (hl : t.eventList = (reportEnd cfg s x b st r).eventList)
    (hp : t.pendingConnectInfo = (reportEnd cfg s x b st r).pendingConnectInfo) : Ends s t x := by
  unfold reportEnd at hw ho hl hp
  cases hc : s.vif.smeState with
  | connecting =>
    rw [hc] at hw ho hl hp
    exact .failed b st hc hst ((failed_becomes cfg x b st hc).move hs hw ho hl hp)
  | connected =>
    rw [hc] at hw ho hl hp
    exact .parted r hc ((post_becomes s x.alloc _).move hs hw ho hl hp)
  | disconnected =>
    rw [hc] at hw ho hl hp
    exact .silent hc ((Becomes.refl s).move hs hw ho hl hp)

theorem close_ends (s : Sys) (x : Env) : Ends s (close cfg s x) x :=
  reportEnd_ends cfg s x s.vif.bssid 0 (by decide) rfl rfl rfl rfl rfl

theorem stop_ends (s : Sys) (x : Env) : Ends s (cfg80211Stop cfg s x) x := by
  unfold cfg80211Stop
  cases hc : s.vif.smeState with
  | connecting =>
    have hb := failed_becomes cfg x s.vif.bssid wlanStatusUnspecifiedFailure hc
    exact .failed s.vif.bssid _ hc (by decide) (hb.move rfl rfl rfl rfl rfl)
  | connected => exact .parted 0 hc ((post_becomes s x.alloc _).move rfl rfl rfl rfl rfl)
  | disconnected =>
    have hb := post_becomes s x.alloc (.disconnected 0)
    by_cases hx : x.alloc = true
    · rw [if_pos hx] at hb
      exact .again 0 hc (hb.move rfl rfl rfl rfl rfl)
    · rw [if_neg hx] at hb
      exact .silent hc (hb.move rfl rfl rfl rfl rfl)

theorem disconnectEvent_becomes (x : Env) (ev : DisconnectEvent) (hr : ev.reason ≠ disconnectCmd) :
    Becomes s (disconnectEvent cfg s x ev) s.vif.smeState s.eventList s.pendingConnectInfo := by
  simp only [disconnectEvent, cfg80211DisconnectEvent, if_pos hr, if_neg hr]
  split
  · exact ⟨rfl, rfl, rfl, rfl, rfl⟩
  · exact ⟨rfl, rfl, rfl, rfl, rfl⟩

theorem cfg80211DisconnectEvent_ends (s : Sys) (x : Env) (ev : DisconnectEvent) (b : Mac)
    (hr : ev.reason = disconnectCmd) : Ends s (cfg80211DisconnectEvent cfg s x ev b) x := by
  have hcmd : ¬ ev.reason ≠ disconnectCmd := fun h => h hr
  have hst : (if s.vif.nextConnStatus ≠ 0 then s.vif.nextConnStatus
      else wlanStatusUnspecifiedFailure) ≠ wlanStatusSuccess := by
    split
    · assumption
    · decide
  simp only [cfg80211DisconnectEvent, if_neg hcmd]
  refine Ends.of_vif (v := { s.vif with connectPend := false }) ?_ rfl
  exact reportEnd_ends cfg _ x b ev.protoReason hst rfl rfl rfl rfl rfl

theorem disconnectEvent_ends (s : Sys) (x : Env) (ev : DisconnectEvent)
    (hr : ev.reason = disconnectCmd) : Ends s (disconnectEvent cfg s x ev) x := by
  have hna : ¬ ev.reason = assocFailed := by
    rw [hr]
    decide
  simp only [disconnectEvent, if_pos hr, hna, false_and, if_false]
  refine (cfg80211DisconnectEvent_ends cfg s x ev _ hr).move ?_ rfl rfl rfl rfl
  simp only [cfg80211DisconnectEvent, hr, ne_eq, not_true, if_false]

theorem Ends.inv {s t : Sys} {x : Env} (h : Inv s) (he : Ends s t x) (hk : EndTold s x) :
    Inv t := by
  cases he with
  | failed b st hc hst hb =>
    rw [EndTold, hc] at hk
    rw [if_pos hk] at hb
    obtain ⟨-, -, -, hp⟩ := h.waiting hc
    refine h.result (b := b) hc hb ?_ (by rw [if_neg hst]; rfl) h.held
    simp [Sys.way, hp]
  | parted r hc hb =>
    rw [EndTold, hc] at hk
    rw [if_pos hk.1, hk.2] at hb
    exact h.ended hc hb hk.2
  | silent hc hb => exact h.same (hc ▸ hb)
  | again r hc hb =>
    refine h.insert rfl (hc ▸ hb) fun hop => ?_
    have hset := h.agree hop
    rw [hc] at hset
    exact (settle_insert_disconnected hset).trans hset.symm

theorem Ends.kept {s t : Sys} {x : Env} (h : Inv s) (he : Ends s t x) (ha : Agree t) :
    EndTold s x := by
  unfold EndTold
  cases he with
  | failed b st hc hst hb =>
    rw [hc]
    cases hx : x.alloc with
    | true => rfl
    | false =>
      rw [hx] at hb
      exact absurd ha (h.lost hc hb (by simp))
  | parted r hc hb =>
    rw [hc]
    exact h.unended hc hb ha
  | silent hc hb =>
    rw [hc]
    trivial
  | again r hc hb =>
    rw [hc]
    trivial

theorem connectEvent_inv (h : Inv s) (x : Env) (ev : ConnectEvent)
    (hk : Kept cfg s (.connectEvent x ev)) : Inv (connectEvent cfg s x ev) := by
  obtain ⟨hh, hc, hd, hb⟩ | ⟨hh, hc, hd, hb⟩ | ⟨-, hb | hb⟩ :=
    connectEvent_becomes (s := s) cfg x ev
  · obtain ⟨-, -, -, hp⟩ := h.waiting hc
    rw [if_pos (hk hh hc hd)] at hb
    have hway : s.eventList ++ [Event.connectResult ev.bssid wlanStatusSuccess] ++
        s.pendingConnectInfo.toList = s.way ++ [.connectResult ev.bssid wlanStatusSuccess] := by
      simp [Sys.way, hp]
    exact h.result hc hb hway rfl h.held
  · obtain ⟨-, -, -, hp⟩ := h.waiting hc
    have hway : s.eventList ++ [Event.connectResult ev.bssid wlanStatusSuccess] =
        s.way ++ [.connectResult ev.bssid wlanStatusSuccess] := by
      simp [Sys.way, hp]
    refine h.result hc hb hway rfl ?_
    rintro e ⟨⟩
    exact ⟨_, rfl⟩
  · exact h.same hb
  · exact h.insert rfl hb fun _ => settle_insert_roamed _ _ _ _

theorem connectEvent_kept (h : Inv s) (x : Env) (ev : ConnectEvent)
    (ha : Agree (connectEvent cfg s x ev)) : Kept cfg s (.connectEvent x ev) := by
  intro hh hc hd
  obtain ⟨-, -, -, hb⟩ | ⟨-, -, hd', -⟩ | ⟨hc', -⟩ := connectEvent_becomes (s := s) cfg x ev
  · cases hx : x.alloc with
    | true => rfl
    | false =>
      rw [hx] at hb
      exact absurd ha (h.lost hc hb (by simp))
  · exact absurd hd' hd
  · exact absurd hc (hc' hh)

theorem disconnectEvent_inv (h : Inv s) (x : Env) (ev : DisconnectEvent)
    (hk : Kept cfg s (.disconnectEvent x ev)) : Inv (disconnectEvent cfg s x ev) := by
  by_cases hr : ev.reason = disconnectCmd
  · exact (disconnectEvent_ends cfg s x ev hr).inv h (hk hr)
  · exact h.same (disconnectEvent_becomes cfg x ev hr)

theorem pendingConnectWork_becomes {e : Event} (hp : s.pendingConnectInfo = some e) (alloc : Bool) :
    Becomes s (pendingConnectWork s alloc) s.vif.smeState
      (if alloc then s.eventList ++ [e] else s.eventList) none := by
  rw [pendingConnectWork, hp]
  cases alloc <;> exact ⟨rfl, rfl, rfl, rfl, rfl⟩

/-- The work sends what is held back on its way; without memory it is gone. -/
theorem pendingConnectWork_inv (h : Inv s) (alloc : Bool)
    (hk : Kept cfg s (.pendingConnectWork alloc)) : Inv (pendingConnectWork s alloc) := by
  cases hp : s.pendingConnectInfo with
  | none =>
    rw [pendingConnectWork, hp]
    exact h
  | some e =>
    have hb := pendingConnectWork_becomes hp alloc
    obtain ⟨⟨b, rfl⟩, hne, hno⟩ := h.pending hp
    cases alloc with
    | true =>
      rw [if_pos rfl] at hb
      have hway : (s.eventList ++ [.connectResult b wlanStatusSuccess]) ++ Option.toList none =
          s.way := by simp [Sys.way, hp]
      refine h.becomes hb ?_ h.quiet (hway ▸ h.heard) (hway ▸ h.once) (fun e he => by cases he)
      intro hop
      rw [hb.op] at hop
      rw [hb.settled, hb.sme, hway]
      exact h.agree hop
    | false =>
      have hno' : ∀ e∈s.eventList ++ Option.toList none, e.isResult = false := by simpa using hno
      refine h.becomes hb ?_ h.quiet (fun _ => hno') ?_ (fun e he => by cases he)
      · intro hop
        rw [hb.op] at hop
        rw [hb.settled, hb.sme, ← h.agree hop, Sys.settled]
        cases hq : s.wdev.smeState with
        | connected => exact absurd hq hne
        | idle => rw [settle_idle, settle_idle]
        | connecting =>
          rw [Kept, hq, hp] at hk
          cases ho : s.op with
          | disconnecting waits => exact absurd ho (hop waits)
          | free =>
            rw [ho] at hk
            cases hk
          | connecting c =>
            rw [ho] at hk
            cases hk
      · rw [if_neg (by simp), countP_eq_zero.mpr (by simpa using hno')]
        exact Nat.zero_le 1

theorem pendingConnectWork_kept (h : Inv s) (alloc : Bool)
    (ha : Agree (pendingConnectWork s alloc)) : Kept cfg s (.pendingConnectWork alloc) := by
  unfold Kept
  cases hp : s.pendingConnectInfo with
  | none => cases s.op <;> cases s.wdev.smeState <;> trivial
  | some e =>
    have hb := pendingConnectWork_becomes hp alloc
    obtain ⟨⟨b, rfl⟩, -, hno⟩ := h.pending hp
    cases alloc with
    | true => cases s.op <;> cases s.wdev.smeState <;> trivial
    | false =>
      cases hq : s.wdev.smeState with
      | idle => cases s.op <;> trivial
      | connected => cases s.op <;> trivial
      | connecting =>
        by_cases hop : ∀ waits, s.op ≠ .disconnecting waits
        · -- cfg80211 waits for ever for the success
          have hset := h.agree hop
          rw [Sys.settled, Sys.way, hp, hq, settle_append, settle_connecting hno] at hset
          rw [hb.agree_iff hop, hq, ← hset, settle_connecting (by simpa using hno)] at ha
          cases ha
        · obtain ⟨waits, hw⟩ := not_forall_not.mp hop
          rw [hw]
          trivial

theorem cfgProcess_inv (h : Inv s) (found : Bool) (hk : Kept cfg s (.process found)) :
    Inv (cfgProcess s found) := by
  unfold cfgProcess
  cases ho : s.op with
  | connecting c => exact h
  | disconnecting waits => exact h
  | free =>
    cases hl : s.eventList with
    | nil => exact h
    | cons e es =>
      have hfound : s.wdev.smeState = .connecting →
          ∀ b, e = .connectResult b wlanStatusSuccess → found = true := by
        rintro hq b rfl
        rw [Kept, ho, hq, hl] at hk
        exact hk rfl
      have hstate := process_smeState s.wdev found e hfound
      have hway : s.way = e :: (es ++ s.pendingConnectInfo.toList) := by simp [Sys.way, hl]
      have honce := h.once
      rw [hway, countP_cons] at honce
      refine ⟨fun hop => ?_, fun c hc => (by cases hc),
        fun waits hw => (by cases hw), fun hc => ?_, ?_, h.held⟩
      · have hset := h.agree (by simp [ho])
        rw [Sys.settled, hway] at hset
        rw [Sys.settled]
        exact (congrArg (CfgSme.settle · _) hstate).trans hset
      · have hc' : s.wdev.smeState.after e = .connected := hstate.symm.trans hc
        show ∀ x∈es ++ s.pendingConnectInfo.toList, x.isResult = false
        cases hq : s.wdev.smeState with
        | connected =>
          have hno := h.heard hq
          rw [hway] at hno
          exact fun x hx => hno x (mem_cons_of_mem e hx)
        | idle =>
          rw [hq] at hc'
          cases e <;> cases hc'
        | connecting =>
          rw [hq] at hc'
          -- only a result leads there, and it was the only one
          have he : e.isResult = true := by
            cases e with
            | connectResult b st => rfl
            | roamed b => cases hc'
            | disconnected r => cases hc'
          rw [if_pos he] at honce
          have hz : countP Event.isResult (es ++ s.pendingConnectInfo.toList) = 0 := by omega
          intro x hx
          simpa using countP_eq_zero.mp hz x hx
      · show countP Event.isResult (es ++ s.pendingConnectInfo.toList) ≤ 1
        omega

theorem cfgProcess_kept (h : Inv s) (found : Bool) (ha : Agree (cfgProcess s found)) :
    Kept cfg s (.process found) := by
  unfold Kept
  cases ho : s.op with
  | connecting c => trivial
  | disconnecting waits => trivial
  | free =>
    cases hl : s.eventList with
    | nil => cases s.wdev.smeState <;> trivial
    | cons e es =>
      cases hq : s.wdev.smeState with
      | idle => trivial
      | connected => trivial
      | connecting =>
        cases e with
        | roamed b => trivial
        | disconnected r => trivial
        | connectResult b st =>
          rintro rfl
          cases found with
          | true => rfl
          | false =>
            -- the success is passed over
            have hway : s.way = .connectResult b wlanStatusSuccess ::
                (es ++ s.pendingConnectInfo.toList) := by simp [Sys.way, hl]
            have hset := h.agree (by simp [ho])
            have honce := h.once
            rw [hway, countP_cons, if_pos (show Event.isResult _ = true from rfl)] at honce
            have hno : ∀ x∈es ++ s.pendingConnectInfo.toList, x.isResult = false := by
              have hz : countP Event.isResult (es ++ s.pendingConnectInfo.toList) = 0 := by omega
              intro x hx
              simpa using countP_eq_zero.mp hz x hx
            have hnew := ha (by simp [cfgProcess, ho, hl])
            have hwait : (cfgProcess s false).settled = .connecting := by
              simp only [cfgProcess, ho, hl, Sys.settled, Sys.way, Wdev.process, Wdev.connectResult,
                hq]
              exact settle_connecting hno
            have hv : (cfgProcess s false).vif = s.vif := by simp [cfgProcess, ho, hl]
            rw [hwait, hv, ← hset, Sys.settled, hway, hq] at hnew
            cases settle_connected (es ++ s.pendingConnectInfo.toList) with
            | inl hc => cases hnew.trans hc
            | inr hi => cases hnew.trans hi

theorem cfgConnect_inv (h : Inv s) (c : ConnectReq) (hk : Kept cfg s (.connect c)) :
    Inv (cfgConnect s c) := by
  unfold cfgConnect
  cases ho : s.op with
  | connecting c => exact h
  | disconnecting waits => exact h
  | free =>
    cases hq : s.wdev.smeState with
    | connecting => exact h
    | connected => exact h
    | idle =>
      cases hv : connectStart s.vif c with
      | error e => exact h
      | ok v =>
        rw [Kept, ho, hq, hv] at hk
        have hsme : v.smeState = .connecting := connectStart_smeState hv
        refine ⟨fun _ => ?_, fun _ _ => rfl, fun waits hw => (by cases hw), fun hc => (by cases hc),
          h.once, h.held⟩
        rw [hsme]
        exact settle_connecting hk

theorem cfgConnect_kept (c : ConnectReq) (ha : Agree (cfgConnect s c)) :
    Kept cfg s (.connect c) := by
  unfold Kept
  cases ho : s.op with
  | connecting c => trivial
  | disconnecting waits => trivial
  | free =>
    cases hq : s.wdev.smeState with
    | connecting => trivial
    | connected => trivial
    | idle =>
      dsimp only
      cases hv : connectStart s.vif c with
      | error e => trivial
      | ok v =>
        simp only [cfgConnect, ho, hq, hv, Agree, Sys.settled] at ha
        have hset := ha (by simp)
        rw [connectStart_smeState hv] at hset
        exact settle_connecting_iff.mp hset

theorem cfgConnectEnd_inv (h : Inv s) (hk : Kept cfg s .connectEnd) : Inv (cfgConnectEnd s) := by
  unfold cfgConnectEnd
  cases ho : s.op with
  | free => exact h
  | disconnecting waits => exact h
  | connecting c =>
    have hset := h.agree (by simp [ho])
    have hq := h.asking c ho
    rw [Kept, ho] at hk
    have hv := connectFinish_smeState s.vif c
    cases hr : (connectFinish s.vif c).2 with
    | none =>
      dsimp only
      rw [if_neg (by simp [hr])]
      refine ⟨fun _ => ?_, fun _ hc => (by cases hc), fun _ hw => (by cases hw), h.heard, h.once,
        h.held⟩
      rw [hv]
      exact hset
    | some e =>
      have hsome : (connectFinish s.vif c).2.isSome = true := by rw [hr]; rfl
      dsimp only
      rw [if_pos hsome]
      refine ⟨fun _ => ?_, fun _ hc => (by cases hc), fun _ hw => (by cases hw),
        fun hc => (by cases hc), h.once, h.held⟩
      rw [hv, hk hsome]
      exact settle_idle _

theorem cfgConnectEnd_kept (ha : Agree (cfgConnectEnd s)) : Kept cfg s .connectEnd := by
  unfold Kept
  cases ho : s.op with
  | free => trivial
  | disconnecting waits => trivial
  | connecting c =>
    intro hr
    simp only [cfgConnectEnd, ho, Agree, Sys.settled, if_pos hr, settle_idle,
      connectFinish_smeState] at ha
    have hset := ha (by simp)
    cases hc : s.vif.smeState with
    | disconnected => rfl
    | connecting =>
      rw [hc] at hset
      cases hset
    | connected =>
      rw [hc] at hset
      cases hset

theorem cfgDisconnect_inv (h : Inv s) (d : DisconnectReq) : Inv (cfgDisconnect s d) := by
  unfold cfgDisconnect
  cases ho : s.op with
  | connecting c => exact h
  | disconnecting waits => exact h
  | free =>
    dsimp only
    split
    · exact h
    · rename_i hq
      cases hv : disconnectStart s.vif d with
      | error e => exact h
      | ok r =>
        refine ⟨fun hop => absurd rfl (hop r.2), fun _ hc => (by cases hc), fun _ _ => ?_, h.heard,
          h.once, h.held⟩
        exact ⟨disconnectStart_smeState hv, hq⟩

theorem Wdev.end_idle (w : Wdev) : w.end.smeState = .idle := by
  unfold Wdev.end
  cases hq : w.smeState with
  | idle => exact hq
  | connecting => simp [Wdev.connectResult, hq, wlanStatusUnspecifiedFailure, wlanStatusSuccess]
  | connected => simp [Wdev.disconnected, hq]

theorem cfgDisconnectEnd_inv (h : Inv s) (signal : Bool) (hk : Kept cfg s (.disconnectEnd signal)) :
    Inv (cfgDisconnectEnd s signal) := by
  unfold cfgDisconnectEnd
  cases ho : s.op with
  | free => exact h
  | connecting c => exact h
  | disconnecting waits =>
    obtain ⟨hd, hne⟩ := h.ending waits ho
    by_cases hs : waits && signal
    · obtain ⟨rfl, rfl⟩ := Bool.and_eq_true_iff.mp hs
      rw [Kept, ho] at hk
      refine ⟨fun _ => ?_, fun _ hc => (by cases hc), fun _ hw => (by cases hw), h.heard, h.once,
        h.held⟩
      rw [hd]
      exact hk rfl
    · refine ⟨fun _ => ?_, fun _ hc => (by cases hc), fun _ hw => (by cases hw), fun hc => ?_,
        h.once, h.held⟩
      · simp only [if_neg hs, Sys.settled, Wdev.end_idle, settle_idle, hd]
        rfl
      · simp only [if_neg hs, Wdev.end_idle] at hc
        cases hc

theorem cfgDisconnectEnd_kept (h : Inv s) (signal : Bool) (ha : Agree (cfgDisconnectEnd s signal)) :
    Kept cfg s (.disconnectEnd signal) := by
  unfold Kept
  cases ho : s.op with
  | free => trivial
  | connecting c => trivial
  | disconnecting waits =>
    cases waits with
    | false => trivial
    | true =>
      rintro rfl
      have hset := ha (by simp [cfgDisconnectEnd, ho])
      simp only [cfgDisconnectEnd, ho, Bool.and_self, if_true] at hset
      rw [(h.ending true ho).1] at hset
      exact hset

theorem step_inv (h : Inv s) (e : Step) (hk : Kept cfg s e) : Inv (step cfg s e) := by
  cases e with
  | connect c => exact cfgConnect_inv cfg h c hk
  | connectEnd => exact cfgConnectEnd_inv cfg h hk
  | disconnect d => exact cfgDisconnect_inv h d
  | disconnectEnd signal => exact cfgDisconnectEnd_inv cfg h signal hk
  | connectEvent x ev => exact connectEvent_inv cfg h x ev hk
  | disconnectEvent x ev => exact disconnectEvent_inv cfg h x ev hk
  | disconnectTimer =>
    unfold step
    dsimp only
    split
    · exact h.same ⟨by simp [disconnectTimerHandler], rfl, rfl, rfl, rfl⟩
    · exact h
  | pendingConnectWork alloc => exact pendingConnectWork_inv cfg h alloc hk
  | close x =>
    unfold step
    cases ho : s.op with
    | free =>
      rw [Kept, ho] at hk
      exact (close_ends cfg s x).inv h hk
    | connecting c => exact h
    | disconnecting waits => exact h
  | stop x => exact (stop_ends cfg s x).inv h hk
  | process found => exact cfgProcess_inv cfg h found hk

theorem step_kept (h : Inv s) (e : Step) (ha : Agree (step cfg s e)) : Kept cfg s e := by
  cases e with
  | connect c => exact cfgConnect_kept cfg c ha
  | connectEnd => exact cfgConnectEnd_kept cfg ha
  | disconnect d => trivial
  | disconnectEnd signal => exact cfgDisconnectEnd_kept cfg h signal ha
  | connectEvent x ev => exact connectEvent_kept cfg h x ev ha
  | disconnectEvent x ev => exact fun hr => (disconnectEvent_ends cfg s x ev hr).kept h ha
  | disconnectTimer => trivial
  | pendingConnectWork alloc => exact pendingConnectWork_kept cfg h alloc ha
  | close x =>
    unfold Kept
    cases ho : s.op with
    | free =>
      rw [step, ho] at ha
      exact (close_ends cfg s x).kept h ha
    | connecting c => trivial
    | disconnecting waits => trivial
  | stop x => exact (stop_ends cfg s x).kept h ha
  | process found => exact cfgProcess_kept cfg h found ha

end

/-- A fresh interface, whatever its profile and flags. -/
def fresh (v : Vif) : Sys := { vif := { v with smeState := .disconnected } }

theorem fresh_inv (v : Vif) : Inv (fresh v) where
  agree _ := rfl
  asking _ hc := by
    cases hc
  ending _ hw := by
    cases hw
  heard hc := by
    cases hc
  once := Nat.zero_le 1
  held _ he := by
    cases he

/-- The driver and cfg80211 agree after every step of a run exactly if each step of it keeps them
together. -/
theorem agree_iff_kept (cfg : Config) (v : Vif) (es : List Step) :
    (∀ u, u <+: es → Agree (run (step cfg) (fresh v) u)) ↔
      AllSteps (step cfg) (Kept cfg) (fresh v) es := by
  have hgood : ∀ s, Inv s → Agree s := fun _ h => h.agree
  have hstep : ∀ s e, Inv s → Kept cfg s e → Inv (step cfg s e) :=
    fun _ e h hk => step_inv cfg h e hk
  have hbad : ∀ s e, Inv s → Agree (step cfg s e) → Kept cfg s e :=
    fun _ e h ha => step_kept cfg h e ha
  exact prefix_iff_allSteps hgood hstep hbad (fresh_inv v) es

end Ath6kl.SmeTalk
