import Ath6kl.Scan
import Ath6kl.Lib.Machine
import Mathlib.Data.List.Nodup

/-! Scan requests are completed at most once and only if cfg80211 issued them, as long as one owner
at a time uses `vif->scan_req`. -/
namespace Ath6kl.Scan
open Lib.Machine List

variable {s : Vif}

/-- Only requests of cfg80211 are completed, none twice, and none by the completion of a coexistence
scan that was running when it was accepted. -/
structure Consistent (s : Vif) : Prop where
  owner : ∀ d∈s.done, ∃ n beside, d.request = .user n ∧ (n, beside)∈s.accepted
  once : (s.done.map Done.request).Nodup
  cause : ∀ d∈s.done, ∀ n, d.request = .user n → (n, true)∈s.accepted → d.cause ≠ some .coex

/-- No coexistence scan is in flight when a request is accepted; its completion finds the
coexistence running; and the interface is not disconnected before. -/
def Meets (s : Vif) : Event → Prop
  | .scan env => env.early = 0 → s.scanning = false → env.late = 0 → .coex∉s.inFlight
  | .scanComplete i _ _ => s.inFlight[i]? ≠ none → s.scanReq = some .coex → s.coex.start = true
  | .disconnect _ _ _ => s.scanReq ≠ some .coex
  | _ => True

instance (s : Vif) : ∀ e, Decidable (Meets s e)
  | .scan env => inferInstanceAs (Decidable
    (env.early = 0 → s.scanning = false → env.late = 0 → .coex∉s.inFlight))
  | .scanComplete i _ _ => inferInstanceAs (Decidable
    (s.inFlight[i]? ≠ none → s.scanReq = some .coex → s.coex.start = true))
  | .disconnect _ _ _ => inferInstanceAs (Decidable (s.scanReq ≠ some .coex))
  | .coexTimer _ | .scanTimer | .connect _ | .coexConfig _ _ _ | .coexDisconnect => isTrue trivial

/-- Between the events: the request of cfg80211 under way is not completed and no coexistence scan is
in flight, and the timer runs for such a request alone. -/
structure Owned (s : Vif) : Prop where
  owner : ∀ d∈s.done, ∃ n beside, d.request = .user n ∧ (n, beside)∈s.accepted
  once : (s.done.map Done.request).Nodup
  cause : ∀ d∈s.done, d.cause ≠ some .coex
  bound : ∀ a∈s.accepted, a.1<s.requests
  underWay : ∀ n, s.scanReq = some (.user n) →
    (∃ beside, (n, beside)∈s.accepted) ∧ .user n∉s.done.map Done.request ∧ .coex∉s.inFlight
  timer : s.vifscanTimer = true → ∃ n, s.scanReq = some (.user n)

theorem Owned.consistent (h : Owned s) : Consistent s where
  owner := h.owner
  once := h.once
  cause d hd _ _ _ := h.cause d hd

theorem Owned.frame (h : Owned s) {t : Vif} (hdone : t.done = s.done)
    (hacc : t.accepted = s.accepted) (hreq : t.requests = s.requests)
    (hscan : t.scanReq = s.scanReq) (hfly : t.inFlight <+ s.inFlight)
    (htimer : t.vifscanTimer = true → s.vifscanTimer = true) : Owned t where
  owner := by simpa only [hdone, hacc] using h.owner
  once := by simpa only [hdone] using h.once
  cause := by simpa only [hdone] using h.cause
  bound := by simpa only [hacc, hreq] using h.bound
  underWay n hn := by
    obtain ⟨hmem, hnot, hcoex⟩ := h.underWay n (hscan ▸ hn)
    refine ⟨by simpa only [hacc] using hmem, by simpa only [hdone] using hnot, fun hc => ?_⟩
    exact hcoex (hfly.subset hc)
  timer ht := by simpa only [hscan] using h.timer (htimer ht)

theorem Owned.scanDone (h : Owned s) {n : Nat} (hs : s.scanReq = some (.user n))
    (ht : s.vifscanTimer = false) (aborted : Bool) {cause : Option Request}
    (hc : cause ≠ some .coex) : Owned (scanDone s (.user n) aborted cause) where
  owner d hd := by
    simp only [Scan.scanDone, mem_append, mem_singleton] at hd
    cases hd with
    | inl hd => exact h.owner d hd
    | inr hd =>
      obtain ⟨beside, hmem⟩ := (h.underWay n hs).1
      exact ⟨n, beside, by rw [hd], hmem⟩
  once := by
    simp only [Scan.scanDone, map_append, map_cons, map_nil]
    refine h.once.append (nodup_singleton _) fun r hr hr' => ?_
    rw [mem_singleton] at hr'
    exact (h.underWay n hs).2.1 (hr' ▸ hr)
  cause d hd := by
    simp only [Scan.scanDone, mem_append, mem_singleton] at hd
    cases hd with
    | inl hd => exact h.cause d hd
    | inr hd => exact hd ▸ hc
  bound := h.bound
  underWay _ hn := nomatch hn
  timer ht' := by
    simp only [Scan.scanDone, ht] at ht'
    cases ht'

/-- The coexistence takes `scan_req`, or gives it up. -/
theorem Owned.noUser (h : Owned s) {r : Option Request} (hr : ∀ n, r ≠ some (.user n))
    (ht : s.vifscanTimer = false) (fly : List Request) :
    Owned { s with scanReq := r, inFlight := fly } where
  owner := h.owner
  once := h.once
  cause := h.cause
  bound := h.bound
  underWay n hn := absurd hn (hr n)
  timer ht' := by
    rw [ht] at ht'
    cases ht'

theorem Owned.timer_off (h : Owned s) (hs : ∀ n, s.scanReq ≠ some (.user n)) :
    s.vifscanTimer = false := by
  cases ht : s.vifscanTimer with
  | false => rfl
  | true =>
    obtain ⟨n, hn⟩ := h.timer ht
    exact absurd hn (hs n)

theorem scan_owned (h : Owned s) {env : ScanEnv} (hm : Meets s (.scan env)) :
    Owned (scan s env).1 := by
  have hreq : Owned { s with requests := s.requests+1 } :=
    { owner := h.owner, once := h.once, cause := h.cause, underWay := h.underWay, timer := h.timer
      bound := fun a ha => Nat.lt_succ_of_lt (h.bound a ha) }
  simp only [scan]
  split
  · exact hreq
  · rename_i hearly
    split
    · exact hreq
    · rename_i hscanning
      split
      · exact hreq
      · rename_i hlate
        have hcoex : .coex∉s.inFlight :=
          hm (by simpa using hearly) (by simpa using hscanning) (by simpa using hlate)
        constructor
        · intro d hd
          obtain ⟨n, beside, he, hmem⟩ := h.owner d hd
          exact ⟨n, beside, he, mem_append_left _ hmem⟩
        · exact h.once
        · exact h.cause
        · intro a ha
          rw [mem_append, mem_singleton] at ha
          cases ha with
          | inl ha => exact Nat.lt_succ_of_lt (h.bound a ha)
          | inr ha =>
            rw [ha]
            exact Nat.lt_succ_self _
        · intro n hn
          cases hn
          refine ⟨⟨_, mem_append_right _ mem_cons_self⟩, fun hmem => ?_, by simpa using hcoex⟩
          -- a request that is completed was accepted before
          obtain ⟨d, hd, hr⟩ := mem_map.mp hmem
          obtain ⟨n, beside, he, hacc⟩ := h.owner d hd
          cases he.symm.trans hr
          exact Nat.lt_irrefl _ (h.bound _ hacc)
        · exact fun _ => ⟨_, rfl⟩

theorem coexScan_owned (h : Owned s) (env : CoexEnv) : Owned (coexScan s env) := by
  simp only [coexScan]
  split
  · exact h
  · rename_i hfree
    simp only [not_or, ne_eq, not_not] at hfree
    repeat' split
    all_goals first
      | exact h
      | exact h.noUser (by simp) (h.timer_off (by simp [hfree])) _

theorem htcoexScanStart_owned (h : Owned s) (env : CoexEnv) : Owned (htcoexScanStart s env) := by
  have hc := coexScan_owned h env
  simp only [htcoexScanStart]
  split
  · exact hc.frame rfl rfl rfl rfl (Sublist.refl _) id
  · exact hc

theorem cfg80211ScanComplete_owned (h : Owned s) (aborted : Bool) {cause : Option Request}
    (hne : s.scanReq ≠ some .coex) (hc : ∀ n, s.scanReq = some (.user n) → cause ≠ some .coex) :
    Owned (cfg80211ScanComplete s aborted cause) := by
  have hoff : Owned { s with vifscanTimer := false } :=
    h.frame rfl rfl rfl rfl (Sublist.refl _) nofun
  cases hreq : s.scanReq with
  | none =>
    simp only [cfg80211ScanComplete, hreq]
    exact hreq ▸ hoff
  | some r =>
    cases r with
    | coex => exact absurd hreq hne
    | user n =>
      simp only [cfg80211ScanComplete, hreq]
      exact hreq ▸ hoff.scanDone hreq rfl aborted (hc n hreq)

theorem scanCompleteEvt_owned (h : Owned s) (aborted intolerant40 : Bool) {cause : Request}
    (hstart : s.scanReq = some .coex → s.coex.start = true)
    (hc : ∀ n, s.scanReq = some (.user n) → cause ≠ .coex) :
    Owned (scanCompleteEvt s aborted intolerant40 cause) := by
  have hc' : ∀ n, s.scanReq = some (.user n) → some cause ≠ some .coex :=
    fun n hn he => hc n hn (Option.some.inj he)
  have hrates : Owned { s with coex := s.coex.scanned intolerant40 } :=
    h.frame rfl rfl rfl rfl (Sublist.refl _) id
  by_cases hskip : ¬ s.coex.start ∨ s.scanReq = none
  · simp only [scanCompleteEvt, htcoexScanComplete]
    rw [if_pos hskip]
    refine cfg80211ScanComplete_owned h aborted (fun he => ?_) hc'
    cases hskip with
    | inl hs => exact hs (hstart he)
    | inr hs => cases hs.symm.trans he
  · by_cases hreq : s.scanReq = some .coex
    · simp only [scanCompleteEvt, htcoexScanComplete]
      rw [if_neg hskip, if_pos hreq]
      exact hrates.noUser (r := none) nofun (h.timer_off (by simp [hreq])) s.inFlight
    · simp only [scanCompleteEvt, htcoexScanComplete]
      rw [if_neg hskip, if_neg hreq]
      exact cfg80211ScanComplete_owned hrates aborted hreq hc'

theorem scanTimer_owned (h : Owned s) : Owned (step s .scanTimer) := by
  simp only [step]
  split
  · rename_i ht
    obtain ⟨n, hn⟩ := h.timer ht
    have hoff : Owned { s with vifscanTimer := false } :=
      h.frame rfl rfl rfl rfl (Sublist.refl _) nofun
    simp only [scanTimerHandler, hn]
    exact hn ▸ hoff.scanDone hn rfl true nofun
  · exact h

theorem disconnectEvent_owned (h : Owned s) (hm : s.scanReq ≠ some .coex) (reason prot : Nat)
    (reconnect : Bool) : Owned (disconnectEvent s reason prot reconnect) := by
  have hc : Owned (cfg80211Disconnect s) := by
    have hoff : Owned { s with vifscanTimer := false } :=
      h.frame rfl rfl rfl rfl (Sublist.refl _) nofun
    cases hreq : s.scanReq with
    | none => simpa only [cfg80211Disconnect, hreq] using h
    | some r =>
      cases r with
      | coex => exact absurd hreq hm
      | user n =>
        simp only [cfg80211Disconnect, hreq]
        exact hreq ▸ hoff.scanDone hreq rfl true nofun
  simp only [disconnectEvent]
  split
  · exact hc.frame rfl rfl rfl rfl (Sublist.refl _) id
  · exact hc.frame rfl rfl rfl rfl (Sublist.refl _) id

theorem step_owned (h : Owned s) {e : Event} (hm : Meets s e) : Owned (step s e) := by
  cases e with
  | scan env => exact scan_owned h hm
  | coexTimer env =>
    simp only [step]
    split
    · have hoff : Owned { s with coex := { s.coex with scanTimer := false } } :=
        h.frame rfl rfl rfl rfl (Sublist.refl _) id
      exact htcoexScanStart_owned hoff env
    · exact h
  | scanComplete i aborted intolerant40 =>
    simp only [step]
    split
    · exact h
    · rename_i cause hcause
      have hsub : Owned { s with inFlight := s.inFlight.eraseIdx i } :=
        h.frame rfl rfl rfl rfl (eraseIdx_sublist _ i) id
      apply scanCompleteEvt_owned hsub aborted intolerant40 (hm (by simp [hcause]))
      rintro n hn rfl
      exact (h.underWay n hn).2.2 (mem_of_getElem? hcause)
  | scanTimer => exact scanTimer_owned h
  | connect env => exact h.frame rfl rfl rfl rfl (Sublist.refl _) id
  | disconnect reason prot reconnect => exact disconnectEvent_owned h hm reason prot reconnect
  | coexConfig interval rateRollback channels => exact h.frame rfl rfl rfl rfl (Sublist.refl _) id
  | coexDisconnect => exact h.frame rfl rfl rfl rfl (Sublist.refl _) id

def fresh : Vif := {}

theorem fresh_owned : Owned fresh where
  owner := nofun
  once := nodup_nil
  cause := nofun
  bound := nofun
  underWay := nofun
  timer := nofun

theorem scans_completed_once (es : List Event) (h : AllSteps step Meets fresh es) :
    Consistent (run step fresh es) := by
  have ho : Owned (run step fresh es) :=
    run_invariant_of (I := Owned) (fun _ _ ho hm => step_owned ho hm) fresh_owned h
  exact ho.consistent

/-- A coexistence scan and two requests of cfg80211, one of them timed out. -/
theorem scans_completed_once_three : Consistent (run step fresh
    [.coexConfig 60000 0 true, .connect ⟨some true, true⟩, .coexTimer {},
      .scanComplete 0 false true, .scan {}, .scanComplete 0 false false, .scan {}, .scanTimer,
      .scanComplete 0 true false]) :=
  scans_completed_once _ (by decide)

/-- A connection that is lost during a coexistence scan, and a request that is accepted during one
and completed with it. -/
theorem scans_completed_wrongly :
    ¬ Consistent (run step fresh
      [.coexConfig 60000 0 true, .connect ⟨some true, true⟩, .coexTimer {},
        .disconnect 2 0 false]) ∧
    ¬ Consistent (run step fresh
      [.coexConfig 60000 0 true, .connect ⟨some true, true⟩, .coexTimer {}, .scan {},
        .scanComplete 0 false false]) := by
  refine ⟨fun h => ?_, fun h => ?_⟩
  · obtain ⟨n, beside, he, -⟩ := h.owner ⟨.coex, true, none⟩ (by decide)
    cases he
  · exact h.cause ⟨.user 0, false, some .coex⟩ (by decide) 0 rfl (by decide) rfl

end Ath6kl.Scan
