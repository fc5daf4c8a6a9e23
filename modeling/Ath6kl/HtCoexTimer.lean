import Ath6kl.HtCoex
import Ath6kl.Lib.Machine

/-! The timer of the periodic scan, the flag that it runs under and the list that it scans, over any
order of connects, disconnects, settings, expiries and the teardown. -/
namespace Ath6kl.HtCoex
open Lib.Compact Lib.Machine P2pRc

section Properties

/-- The array begins with as many channels of the band as are counted. -/
def Coex.Listed (c : Coex) : Prop :=
  ∃ b xs, c.scanChannels = some b ∧ b.Holds xs ∧ c.numScanChannels = xs.length ∧
    xs.Sublist channels2ghz

/-- The timer is pending only under the flag, and with the flag there is a list. -/
structure Coex.Coupled (c : Coex) : Prop where
  armed : c.scanTimer = true → c.start = true
  listed : c.start = true → c.Listed

/-- The timer is not pending and the list is freed. -/
structure Coex.Quiet (c : Coex) : Prop where
  timer : c.scanTimer = false
  list : c.scanChannels = none

structure Sound (s : State) : Prop where
  coupled : ∀ c∈s.ctx, c.Coupled
  quiet : ∀ c∈s.freed, c.Quiet
  unused : s.usedFreed = false

/-- What an event must not find: a connect to a BSS that is not scanned for, the timer pending; a
connect to one that is, the flag set when there is no room for the new list; the teardown, a list
without the flag. -/
def EventFits (c : Coex) : Event → Prop
  | .connect infra bss w room =>
    infra = true → ∀ b∈bss,
      if c.wants b then w.disabled.isSome = true → room = false → c.start = false
      else c.scanTimer = false
  | .deinit => c.start = true ∨ c.scanChannels = none
  | _ => True

def StepFits (s : State) (e : Event) : Prop := ∀ c∈s.ctx, EventFits c e

end Properties

section Channels

/-- What the loop of `htcoex_set_scan_channels` makes of an empty list. -/
def scanList (disabled : Nat → Bool) : Buffer Nat × Nat :=
  collect (fun freq => !disabled freq) (Buffer.blank 0, 0) channels2ghz

theorem scanList_spec (disabled : Nat → Bool) :
    (scanList disabled).1.Holds (channels2ghz.filter fun freq => !disabled freq) ∧
      (scanList disabled).2 = (channels2ghz.filter fun freq => !disabled freq).length := by
  have hblank : (Buffer.blank (0 : Nat)).Holds [] := Buffer.holds_nil (Buffer.blank_top 0)
  simpa [scanList] using collect_spec (fun freq => !disabled freq) hblank channels2ghz

theorem clear_old (c : Coex) :
    (if c.numScanChannels ≠ 0 ∨ c.scanChannels.isSome then htcoexClearScanChannels c else c) =
      htcoexClearScanChannels c := by
  by_cases h : c.numScanChannels ≠ 0 ∨ c.scanChannels.isSome
  · simp [h]
  · have hnum : c.numScanChannels = 0 := by
      simp only [not_or, ne_eq, not_not] at h
      exact h.1
    have hlist : c.scanChannels = none := by
      simp only [not_or, Bool.not_eq_true, Option.isSome_eq_false_iff, Option.isNone_iff_eq_none]
        at h
      exact h.2
    cases c
    simp_all [htcoexClearScanChannels]

theorem setScanChannels_none {w : Wiphy2ghz} (hw : w.disabled = none) (room : Bool) (c : Coex) :
    htcoexSetScanChannels w room c = (some .einval, c) := by
  simp [htcoexSetScanChannels, hw]

theorem setScanChannels_full {w : Wiphy2ghz} {disabled : Nat → Bool}
    (hw : w.disabled = some disabled) (c : Coex) :
    htcoexSetScanChannels w false c = (some .enomem, htcoexClearScanChannels c) := by
  simp only [htcoexSetScanChannels, hw, clear_old]
  simp [htcoexClearScanChannels]

theorem setScanChannels_room {w : Wiphy2ghz} {disabled : Nat → Bool}
    (hw : w.disabled = some disabled) (c : Coex) :
    htcoexSetScanChannels w true c =
      (none, { c with scanChannels := some (scanList disabled).1,
                      numScanChannels := (scanList disabled).2 }) := by
  simp only [htcoexSetScanChannels, hw, clear_old]
  simp [htcoexClearScanChannels, scanList]

end Channels

section Contexts

theorem Coex.Coupled.stopped {c : Coex} (hs : c.start = false) (ht : c.scanTimer = false) :
    c.Coupled :=
  ⟨by simp [ht], by simp [hs]⟩

theorem Coex.Coupled.timer_false {c : Coex} (h : c.Coupled) (hs : c.start = false) :
    c.scanTimer = false := by
  cases ht : c.scanTimer with
  | false => rfl
  | true =>
    have hstart := h.armed ht
    simp [hs] at hstart

theorem Coex.Coupled.transfer {c d : Coex} (h : c.Coupled) (ht : d.scanTimer = c.scanTimer)
    (hs : d.start = c.start) (hl : d.scanChannels = c.scanChannels)
    (hn : d.numScanChannels = c.numScanChannels) : d.Coupled := by
  constructor
  · rw [ht, hs]
    exact h.armed
  · simpa only [Coex.Listed, hs, hl, hn] using h.listed

theorem listed_scanList {c : Coex} (disabled : Nat → Bool)
    (hlist : c.scanChannels = some (scanList disabled).1)
    (hnum : c.numScanChannels = (scanList disabled).2) : c.Listed := by
  obtain ⟨hholds, hlen⟩ := scanList_spec disabled
  exact ⟨_, _, hlist, hholds, by rw [hnum, hlen], List.filter_sublist⟩

theorem not_listed {c : Coex} (h : c.scanChannels = none) : ¬c.Listed := by
  rintro ⟨b, xs, hb, -⟩
  simp [h] at hb

theorem coupled_startScan {c : Coex} (ht : c.scanTimer = false) (hl : c.start = true → c.Listed)
    (w : Wiphy2ghz) (room : Bool) :
    (startScan w room c).Coupled ↔
      (w.disabled.isSome = true → room = false → c.start = false) := by
  cases hw : w.disabled with
  | none => simpa [startScan, setScanChannels_none hw] using ⟨by simp [ht], hl⟩
  | some disabled =>
    cases room with
    | true =>
      have hc : (startScan w true c).Coupled :=
        ⟨by simp [startScan, setScanChannels_room hw],
          fun _ => listed_scanList disabled
            (by simp [startScan, setScanChannels_room hw, modTimer])
            (by simp [startScan, setScanChannels_room hw, modTimer])⟩
      simpa using hc
    | false =>
      have hs : startScan w false c = htcoexClearScanChannels c := by
        simp [startScan, setScanChannels_full hw]
      rw [hs]
      constructor
      · intro h _ _
        by_contra hstart
        exact not_listed rfl (h.listed (by simpa [htcoexClearScanChannels] using hstart))
      · intro h
        exact Coex.Coupled.stopped (h rfl rfl) ht

/-- `del_timer` for a scan that is started; the timer of another was not pending. -/
theorem Coex.Coupled.timer_off {c : Coex} (h : c.Coupled) :
    (if c.start then delTimer c else c).scanTimer = false := by
  cases hs : c.start with
  | true => simp [delTimer]
  | false => simpa using h.timer_false hs

theorem clampInterval_fields (c : Coex) : (clampInterval c).scanTimer = c.scanTimer ∧
    (clampInterval c).start = c.start ∧ ((clampInterval c).Listed ↔ c.Listed) := by
  rw [clampInterval]
  split_ifs <;> simp [Coex.Listed]

end Contexts

section Events
variable {c : Coex} (h : c.Coupled)
include h

theorem coupled_restart (w : Wiphy2ghz) (room : Bool) :
    (startScan w room (clampInterval (if c.start then delTimer c else c))).Coupled ↔
      (w.disabled.isSome = true → room = false → c.start = false) := by
  obtain ⟨htimer, hstart, hlisted⟩ := clampInterval_fields (if c.start then delTimer c else c)
  have hs : (if c.start then delTimer c else c).start = c.start := by
    split_ifs <;> rfl
  have hl : c.start = true → (if c.start then delTimer c else c).Listed := by
    intro hc
    simpa [hc, delTimer, Coex.Listed] using h.listed hc
  have hscan := coupled_startScan (htimer.trans h.timer_off)
    (fun hd => hlisted.mpr (hl (by rwa [hstart, hs] at hd))) w room
  rwa [hstart, hs] at hscan

theorem coupled_connect (infra : Bool) (bss : Option Bss) (w : Wiphy2ghz) (room : Bool) :
    (htcoexConnectEvent infra bss w room c).Coupled ↔
      EventFits c (.connect infra bss w room) := by
  cases infra with
  | false => simpa [htcoexConnectEvent, EventFits] using h
  | true =>
    cases bss with
    | none => simpa [htcoexConnectEvent, EventFits] using h
    | some b =>
      by_cases hwant : c.wants b = true
      · have hfits : EventFits c (.connect true (some b) w room) ↔
            (w.disabled.isSome = true → room = false → c.start = false) := by
          simp [EventFits, hwant]
        rw [hfits, ← coupled_restart h w room]
        simp only [htcoexConnectEvent, hwant, if_true]
        exact ⟨fun hc => hc.transfer rfl rfl rfl rfl, fun hc => hc.transfer rfl rfl rfl rfl⟩
      · have hfits : EventFits c (.connect true (some b) w room) ↔ c.scanTimer = false := by
          simp [EventFits, hwant]
        rw [hfits]
        simp only [htcoexConnectEvent, hwant, if_true]
        exact ⟨fun hc => hc.timer_false rfl, fun ht => Coex.Coupled.stopped rfl ht⟩

theorem coupled_disconnect (infra : Bool) : (htcoexDisconnectEvent infra c).Coupled := by
  cases infra with
  | false => simpa [htcoexDisconnectEvent] using h
  | true =>
    cases hs : c.start with
    | true =>
      simp only [htcoexDisconnectEvent, hs, if_true]
      exact Coex.Coupled.stopped rfl rfl
    | false =>
      have hflush : (htcoexFlushBssInfo c).Coupled := h.transfer rfl rfl rfl rfl
      simpa [htcoexDisconnectEvent, hs] using hflush

omit h in
theorem coupled_applyInterval {d : Coex} (hs : d.start = false) (ht : d.scanTimer = false)
    (restart : Bool) (rateRollback : UInt8) (w : Wiphy2ghz) (room : Bool) :
    (applyInterval restart rateRollback w room d).Coupled := by
  obtain ⟨htimer, hstart, -⟩ := clampInterval_fields d
  have hs' : (clampInterval d).start = false := hstart.trans hs
  have ht' : (clampInterval d).scanTimer = false := htimer.trans ht
  rw [applyInterval]
  split_ifs with hi hr
  · exact Coex.Coupled.stopped hs ht
  · let e : Coex := { clampInterval d with enabled := true }
    have hlist : e.start = true → e.Listed := fun he => absurd (hs'.symm.trans he) (by decide)
    have hscan : (startScan w room e).Coupled :=
      (coupled_startScan (c := e) ht' hlist w room).mpr fun _ _ => hs'
    exact hscan.transfer rfl rfl rfl rfl
  · exact Coex.Coupled.stopped hs' ht'

theorem coupled_config (interval : Nat) (rateRollback : UInt8) (w : Wiphy2ghz) (room : Bool) :
    (htcoexConfig interval rateRollback w room c).Coupled := by
  let d : Coex := { c with scanInterval := interval }
  have hset : (applyInterval c.start rateRollback w room
      (if c.start then stopScan d else d)).Coupled := by
    cases hs : c.start with
    | true => exact coupled_applyInterval rfl rfl true rateRollback w room
    | false => exact coupled_applyInterval (d := d) hs (h.timer_false hs) false rateRollback w room
  exact hset.transfer rfl rfl rfl rfl

theorem coupled_resche : (resche c).Coupled := by
  rw [resche]
  split_ifs with hc
  · exact ⟨fun _ => hc.1, h.listed⟩
  · exact h

theorem coupled_expiry (env : ScanEnv) : (htcoexScanStart env (delTimer c)).2.Coupled := by
  have hoff : (delTimer c).Coupled := ⟨by simp [delTimer], h.listed⟩
  cases hb : env.bypass with
  | true => simpa [htcoexScanStart, hb] using coupled_resche hoff
  | false =>
    by_cases hret : env.startscanRet = 0
    · have hcount : ({ delTimer c with numScan := ((delTimer c).numScan+1)%2^32 } : Coex).Coupled :=
        hoff.transfer rfl rfl rfl rfl
      simpa [htcoexScanStart, hb, hret] using coupled_resche hcount
    · simpa [htcoexScanStart, hb, hret] using coupled_resche hoff

theorem quiet_deinit : (htcoexDeinit c).Quiet ↔ EventFits c .deinit := by
  cases hs : c.start with
  | true =>
    have hq : (htcoexDeinit c).Quiet := by
      simp only [htcoexDeinit, hs, if_true]
      exact ⟨rfl, rfl⟩
    simpa [EventFits, hs] using hq
  | false =>
    simp only [htcoexDeinit, EventFits, hs, Bool.false_eq_true, if_false, false_or]
    exact ⟨fun hq => hq.list, fun hl => ⟨h.timer_false hs, hl⟩⟩

end Events

section Runs

theorem sound_map {s : State} (h : Sound s) (f : Coex → Coex) :
    Sound { s with ctx := s.ctx.map f } ↔ ∀ c∈s.ctx, (f c).Coupled := by
  constructor
  · intro hs c hc
    exact hs.coupled (f c) (Option.mem_map_of_mem f hc)
  · intro hf
    refine ⟨fun d hd => ?_, h.quiet, h.unused⟩
    obtain ⟨c, hc, rfl⟩ := Option.mem_map.mp hd
    exact hf c hc

theorem sound_expiry {s : State} (h : Sound s) (env : ScanEnv) : Sound (step s (.expiry env)) := by
  cases hctx : s.ctx with
  | some c =>
    have hc : c.Coupled := h.coupled c hctx
    by_cases ht : c.scanTimer = true
    · simp only [step, hctx, ht, if_true]
      exact ⟨by simpa using coupled_expiry hc env, h.quiet, h.unused⟩
    · simpa [step, hctx, ht] using h
  | none =>
    cases hfreed : s.freed with
    | some c =>
      have ht : c.scanTimer = false := (h.quiet c hfreed).timer
      simpa [step, hctx, hfreed, ht] using h
    | none => simpa [step, hctx, hfreed] using h

theorem sound_deinit {s : State} (h : Sound s) :
    Sound (step s .deinit) ↔ ∀ c∈s.ctx, EventFits c .deinit := by
  cases hctx : s.ctx with
  | some c =>
    have hq := quiet_deinit (h.coupled c hctx)
    have hs : Sound (step s .deinit) ↔ (htcoexDeinit c).Quiet := by
      simp only [step, hctx]
      exact ⟨fun hd => hd.quiet _ rfl, fun hd => ⟨by simp, by simpa using hd, h.unused⟩⟩
    simpa [hs] using hq
  | none => simpa [step, hctx] using h

theorem sound_step {s : State} (h : Sound s) (e : Event) : Sound (step s e) ↔ StepFits s e := by
  cases e with
  | connect infra bss w room =>
    refine (sound_map h _).trans (forall₂_congr fun c hc => ?_)
    exact coupled_connect (h.coupled c hc) infra bss w room
  | disconnect infra =>
    refine (sound_map h _).trans (forall₂_congr fun c hc => ?_)
    exact iff_of_true (coupled_disconnect (h.coupled c hc) infra) trivial
  | config interval rateRollback w room =>
    refine (sound_map h _).trans (forall₂_congr fun c hc => ?_)
    exact iff_of_true (coupled_config (h.coupled c hc) interval rateRollback w room) trivial
  | expiry env => exact iff_of_true (sound_expiry h env) fun _ _ => trivial
  | deinit => exact sound_deinit h

theorem sound_initial : Sound initial := by
  refine ⟨fun c hc => ?_, by simp [initial], rfl⟩
  obtain rfl : htcoexInit = c := by simpa [initial] using hc
  exact Coex.Coupled.stopped rfl rfl

/-- The timer, the flag, the list and the teardown are as they should be all along a run exactly
when each event finds what it must. -/
theorem timer_sound_iff (es : List Event) :
    (∀ u, u <+: es → Sound (run step initial u)) ↔ AllSteps step StepFits initial es :=
  prefix_iff_allSteps (I := Sound) (P := Sound) (fun _ h => h) (fun _ e h hc => (sound_step h e).mpr hc)
    (fun _ e h hs => (sound_step h e).mp hs) sound_initial es

theorem expiry_scans_list {s : State} (h : Sound s) {c : Coex} (hc : s.ctx = some c)
    (ht : c.scanTimer = true) (env : ScanEnv) :
    ∀ scan∈(htcoexScanStart env (delTimer c)).1, ∃ b xs, scan = (xs.length, some b) ∧ b.Holds xs ∧
      xs.Sublist channels2ghz := by
  have hcoupled := h.coupled c hc
  obtain ⟨b, xs, hb, hholds, hnum, hsub⟩ := hcoupled.listed (hcoupled.armed ht)
  intro scan hscan
  cases hbypass : env.bypass with
  | true => simp [htcoexScanStart, hbypass] at hscan
  | false =>
    refine ⟨b, xs, ?_, hholds, hsub⟩
    simpa [htcoexScanStart, hbypass, delTimer, hb, hnum, eq_comm] using hscan

/-- All channels enabled; an 11n BSS and a legacy one. -/
def wiphyAll : Wiphy2ghz := ⟨some fun _ => false⟩
def bss11n : Bss := ⟨.band2G, some (fun i => if i = 0 then eidHtCapability else 0, 2)⟩
def bssLegacy : Bss := ⟨.band2G, some (fun _ => 0, 0)⟩

def legacyRoam : List Event :=
  [.config 60000 0 wiphyAll true, .connect true (some bss11n) wiphyAll true,
    .connect true (some bssLegacy) wiphyAll true]

/-- After a roam from an 11n to a legacy BSS the timer is pending without the flag, and after the
teardown it expires on the freed context. After a connect without room for the list the flag is
set with none. -/
theorem legacy_roam_unsound :
    ¬Sound (run step initial legacyRoam) ∧
    ¬Sound (run step initial (legacyRoam ++ [.deinit])) ∧
    (run step initial (legacyRoam ++
      [.deinit, .expiry ⟨true, true, false, false, false, 0, false, 0⟩])).usedFreed = true ∧
    ¬Sound (run step initial
      [.config 60000 0 wiphyAll true, .connect true (some bss11n) wiphyAll true,
        .connect true (some bss11n) wiphyAll false]) := by
  refine ⟨fun h => ?_, fun h => ?_, by decide, fun h => ?_⟩
  · have harmed := (h.coupled _ rfl).armed (by decide)
    exact absurd harmed (by decide)
  · have htimer := (h.quiet _ rfl).timer
    exact absurd htimer (by decide)
  · have hlisted := (h.coupled _ rfl).listed (by decide)
    exact not_listed rfl hlisted

end Runs

section Owner

/-- The list is set if the band is there and there is room. -/
def listSet (w : Wiphy2ghz) (room : Bool) : Bool := w.disabled.isSome && room

theorem toHtcoex_startScan (w : Wiphy2ghz) (room : Bool) (c : Coex) :
    (startScan w room c).toHtcoex =
      if listSet w room then { c.toHtcoex with scanTimer := true, start := true }
      else c.toHtcoex := by
  cases hw : w.disabled with
  | none => simp [startScan, setScanChannels_none hw, listSet, hw]
  | some disabled =>
    cases room with
    | true => simp [startScan, setScanChannels_room hw, listSet, hw, modTimer]
    | false => simp [startScan, setScanChannels_full hw, listSet, htcoexClearScanChannels]

theorem toHtcoex_clampInterval (c : Coex) : (clampInterval c).toHtcoex =
    if c.scanInterval<Scan.scanPeriod then { c.toHtcoex with scanInterval := Scan.scanPeriod }
    else c.toHtcoex := by
  rw [clampInterval]
  split_ifs <;> rfl

theorem toHtcoex_connect (b : Option Bss) (w : Wiphy2ghz) (room : Bool) (c : Coex) :
    (htcoexConnectEvent true b w room c).toHtcoex =
      c.toHtcoex.connect ⟨b.map fun b => (b.band == .band2G) && b.ht, listSet w room⟩ := by
  cases b with
  | none => simp [htcoexConnectEvent, Scan.Htcoex.connect]
  | some b =>
    have hwant : c.wants b = true ↔ c.enabled = true ∧ ((b.band == .band2G) && b.ht) = true := by
      simp [Coex.wants, and_assoc]
    by_cases h : c.wants b = true
    · have hleft : (htcoexConnectEvent true (some b) w room c).toHtcoex =
          { (startScan w room (clampInterval (if c.start then delTimer c else c))).toHtcoex with
            tolerant40Cnt := 0, currentRatemask := Scan.ratemaskFull } := by
        simp [htcoexConnectEvent, h, htcoexFlushBssInfo]
      have htimer : (if c.start then delTimer c else c).toHtcoex =
          if c.start then { c.toHtcoex with scanTimer := false } else c.toHtcoex := by
        split_ifs <;> rfl
      rw [hleft, toHtcoex_startScan, toHtcoex_clampInterval, htimer]
      simp only [Scan.Htcoex.connect, Option.map_some, if_pos (hwant.mp h)]
    · have hleft : (htcoexConnectEvent true (some b) w room c).toHtcoex =
          { c.toHtcoex with
            start := false, tolerant40Cnt := 0, currentRatemask := Scan.ratemaskFull } := by
        simp [htcoexConnectEvent, h, htcoexFlushBssInfo]
      rw [hleft]
      simp only [Scan.Htcoex.connect, Option.map_some, if_neg (mt hwant.mpr h)]

theorem toHtcoex_disconnect (c : Coex) :
    (htcoexDisconnectEvent true c).toHtcoex = c.toHtcoex.disconnect := by
  rw [Scan.Htcoex.disconnect, htcoexDisconnectEvent, if_pos rfl]
  split_ifs with hs <;> simp [htcoexFlushBssInfo, stopScan, htcoexClearScanChannels, delTimer, hs]

theorem toHtcoex_applyInterval (restart : Bool) (rateRollback : UInt8) (w : Wiphy2ghz)
    (room : Bool) (c : Coex) :
    (applyInterval restart rateRollback w room c).toHtcoex =
      if c.scanInterval = 0 then { c.toHtcoex with enabled := false }
      else
        let c := { (clampInterval c).toHtcoex with enabled := true }
        let c := if restart ∧ listSet w room then { c with scanTimer := true, start := true } else c
        { c with rateRollbackInterval := rateRollback } := by
  rw [applyInterval]
  by_cases hi : c.scanInterval = 0
  · rw [if_pos hi, if_pos hi]
  · rw [if_neg hi, if_neg hi]
    cases restart with
    | false => simp
    | true =>
      have hstart := toHtcoex_startScan w room { clampInterval c with enabled := true }
      simp [hstart]

theorem toHtcoex_config (interval : Nat) (rateRollback : UInt8) (w : Wiphy2ghz) (room : Bool)
    (c : Coex) : (htcoexConfig interval rateRollback w room c).toHtcoex =
      c.toHtcoex.config interval rateRollback (listSet w room) := by
  let d : Coex := { c with scanInterval := interval }
  have hstop : (if c.start then stopScan d else d).toHtcoex =
      if c.start then { d.toHtcoex with scanTimer := false, start := false } else d.toHtcoex := by
    split_ifs <;> rfl
  have hset := toHtcoex_applyInterval c.start rateRollback w room
    (if c.start then stopScan d else d)
  rw [toHtcoex_clampInterval, hstop] at hset
  exact hset

end Owner

end Ath6kl.HtCoex
