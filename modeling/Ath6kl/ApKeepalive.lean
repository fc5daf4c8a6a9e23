import Ath6kl.Lib.Jiffies
import Ath6kl.Lib.Machine
import Mathlib.Data.UInt

/-! The keep-alive of an access point (ap.c): its configuration and its timer. What the timer
function does to the stations is left out here. -/
namespace Ath6kl.ApKeepalive
open Lib.Jiffies Lib.Machine

/-- `ATH6KL_AP_KA_INTERVAL_DEFAULT`, `ATH6KL_AP_KA_INTERVAL_MIN`, `ATH6KL_AP_KA_RECLAIM_CYCLE`,
`ATH6KL_AP_KA_RECLAIM_TIME_MAX` and `ATH6KL_AP_KA_PRELOAD_LEADTIME`; times are in ms. -/
def intervalDefault : UInt32 := 15*1000
def intervalMin : UInt32 := 5*1000
def reclaimCycle : UInt32 := 4
def reclaimTimeMax : UInt32 := 15*60*1000
def preloadLeadtime : Nat := 2*1000

/-- `enum ap_keepalive_mode`. -/
inductive Mode
  | disable
  | enable
  | bySupp
  | configBySupp
deriving DecidableEq

/-- `struct ap_keepalive_info`: the flags, the configuration and what the timer is armed with, in
jiffies from then. `preloads` is history: `ap_ka_interval` and the delay at each arming for a
preload. -/
structure Keepalive where
  enabled : Bool := false
  bySupp : Bool := false
  start : Bool := false
  preloadStat : Bool := false
  configBySupp : Bool := false
  interval : UInt32 := 0
  cycle : UInt32 := 0
  removeTime : UInt32 := 0
  timer : Option Int := none
  preloads : List (UInt32 × Int) := []

/-- `ath6kl_ap_keepalive_init`. -/
def init (mode : Mode) : Keepalive :=
  let driven := mode = .enable ∨ mode = .configBySupp
  let interval := if driven then intervalDefault else 0
  let cycle := if driven then reclaimCycle else 0
  { enabled := driven
    configBySupp := decide (mode = .configBySupp)
    bySupp := decide (mode = .bySupp)
    interval := interval
    cycle := cycle
    removeTime := interval*cycle }

namespace Keepalive
variable (c : Clock) (s : Keepalive)

/-- `mod_timer` with `ap_ka_interval` less a lead time, for a preload. -/
def armPreload (lead : Nat) : Keepalive :=
  let delay := (c.msecsToJiffies s.interval.toNat : Int) - c.msecsToJiffies lead
  { s with
    timer := some delay
    preloads := s.preloads ++ [(s.interval, delay)] }

/-- The end of `ap_keepalive_start`: the timer is armed anew, by turns for the check and for the
next preload. -/
def rearm : Keepalive :=
  if s.start && s.interval != 0 then
    if s.preloadStat then
      { s with timer := some (c.msecsToJiffies preloadLeadtime), preloadStat := false }
    else { s.armPreload c preloadLeadtime with preloadStat := true }
  else s

/-- `ap_keepalive_start`, the timer function; `connected`: `nw_type` is `AP_NETWORK` and
`CONNECTED` is set. -/
def fire (connected : Bool) : Keepalive :=
  if s.timer.isNone then s
  else if connected then { s with timer := none }.rearm c
  else { s with timer := none }

/-- `ath6kl_ap_keepalive_start`. -/
def begin : Keepalive :=
  if s.enabled then { s.armPreload c preloadLeadtime with start := true, preloadStat := true }
  else s

/-- `ath6kl_ap_keepalive_stop`. -/
def stop : Keepalive :=
  if s.start then { s with timer := none, start := false, preloadStat := false } else s

/-- `ath6kl_ap_keepalive_config` looks at its arguments only with the driver's own mechanism. -/
def configurable : Bool := !s.bySupp && s.enabled && !s.configBySupp

/-- The interval and the cycle that it takes its arguments for. -/
def clampInterval (interval : UInt32) : UInt32 :=
  if interval ≠ 0 ∧ interval < intervalMin then intervalMin else interval

def clampCycle (cycle : UInt32) : UInt32 := if cycle = 0 then 1 else cycle

/-- The configuration that replaces the old one; the product is one of 32 bits. -/
def setConfig (interval cycle : UInt32) : Keepalive :=
  let fits := interval*cycle < reclaimTimeMax
  let interval := if fits then interval else intervalDefault
  let cycle := if fits then cycle else reclaimCycle
  { s with interval := interval, cycle := cycle, removeTime := interval*cycle, enabled := true }

/-- `ath6kl_ap_keepalive_config`. -/
def config (interval cycle : UInt32) : Keepalive :=
  if s.configurable then
    let interval := clampInterval interval
    let cycle := clampCycle cycle
    let restart := s.start
    let s := s.stop
    if interval = 0 then { s with interval := 0, cycle := 0, enabled := false }
    else
      let s := s.setConfig interval cycle
      if restart then
        { s.armPreload c (preloadLeadtime*1000) with start := true, preloadStat := true }
      else s
  else s

/-- The interval that `ath6kl_ap_keepalive_config_by_supp` picks for a time in ms. -/
def suppInterval (timeout : UInt32) : UInt32 :=
  if timeout < intervalDefault*reclaimCycle then
    if timeout ≤ intervalDefault then intervalMin else intervalDefault
  else intervalDefault

/-- `ath6kl_ap_keepalive_config_by_supp`. -/
def configSupp (inactiveTime : UInt16) : Keepalive :=
  let timeout := inactiveTime.toUInt32*1000
  if !s.enabled || !s.configBySupp then s
  else if timeout = 0 then s
  else
    let timeout :=
      if timeout < intervalMin*1 then intervalMin*1
      else if timeout > reclaimTimeMax then reclaimTimeMax
      else timeout
    let interval := suppInterval timeout
    { s with
      interval := interval
      cycle := timeout/interval
      removeTime := interval*(timeout/interval) }

end Keepalive

inductive Event
  | start
  | stop
  | fire (connected : Bool)
  | config (interval cycle : UInt32)
  | configSupp (inactiveTime : UInt16)

def step (c : Clock) (s : Keepalive) : Event → Keepalive
  | .start => s.begin c
  | .stop => s.stop
  | .fire connected => s.fire c connected
  | .config interval cycle => s.config c interval cycle
  | .configSupp inactiveTime => s.configSupp inactiveTime

/-- The numbers of a configuration fit together. -/
structure Fit (interval cycle removeTime : UInt32) : Prop where
  minInterval : intervalMin ≤ interval
  minCycle : 1 ≤ cycle
  product : removeTime.toNat = interval.toNat*cycle.toNat
  max : removeTime ≤ reclaimTimeMax

/-- A delay in jiffies is ahead of the interval by the lead time, and positive. -/
def Ahead (c : Clock) (p : UInt32 × Int) : Prop :=
  0<p.2 ∧ p.2 = (c.msecsToJiffies p.1.toNat : Int) - c.msecsToJiffies preloadLeadtime

/-- While keep-alive is enabled its numbers fit, and each arming for a preload was right. -/
structure Sound (c : Clock) (s : Keepalive) : Prop where
  fit : s.enabled = true → Fit s.interval s.cycle s.removeTime
  preload : ∀ p∈s.preloads, Ahead c p

/-- A configuration from the driver finds the timer stopped, and its product does not wrap into
the range that is accepted. -/
def Ok (s : Keepalive) : Event → Prop
  | .config interval cycle => s.configurable = true → interval ≠ 0 → s.start = false ∧
    ((Keepalive.clampInterval interval).toNat*(Keepalive.clampCycle cycle).toNat<2^32 ∨
      ¬Keepalive.clampInterval interval*Keepalive.clampCycle cycle < reclaimTimeMax)
  | _ => True

section Fit
variable {c : Clock} {interval cycle removeTime : UInt32}

theorem fit_default : Fit intervalDefault reclaimCycle (intervalDefault*reclaimCycle) := by
  constructor <;> decide

theorem Fit.removeTime_le (h : Fit interval cycle removeTime) : removeTime.toNat ≤ 900000 :=
  UInt32.le_iff_toNat_le.mp h.max

theorem Fit.interval_le_removeTime (h : Fit interval cycle removeTime) :
    interval.toNat ≤ removeTime.toNat := by
  have hcycle : 1 ≤ cycle.toNat := UInt32.le_iff_toNat_le.mp h.minCycle
  have hle : interval.toNat*1 ≤ interval.toNat*cycle.toNat := Nat.mul_le_mul_left _ hcycle
  have hprod := h.product
  omega

theorem Fit.interval_le (h : Fit interval cycle removeTime) : interval.toNat ≤ 900000 :=
  h.interval_le_removeTime.trans h.removeTime_le

theorem Fit.removeTime_ge (h : Fit interval cycle removeTime) : 5000 ≤ removeTime.toNat :=
  (UInt32.le_iff_toNat_le.mp h.minInterval).trans h.interval_le_removeTime

theorem Fit.ahead (h : Fit interval cycle removeTime) :
    Ahead c (interval,
      (c.msecsToJiffies interval.toNat : Int) - c.msecsToJiffies preloadLeadtime) := by
  have hmin : 5000 ≤ interval.toNat := UInt32.le_iff_toNat_le.mp h.minInterval
  have hle := h.interval_le
  have hlt : c.msecsToJiffies preloadLeadtime < c.msecsToJiffies interval.toNat := by
    apply Clock.msecsToJiffies_lt <;> simp [preloadLeadtime] <;> omega
  constructor
  · simp only
    omega
  · rfl

theorem fit_iff (hi : intervalMin ≤ interval) (hc : 1 ≤ cycle)
    (h : interval*cycle < reclaimTimeMax) :
    Fit interval cycle (interval*cycle) ↔ interval.toNat*cycle.toNat<2^32 := by
  constructor
  · intro hf
    have hprod := hf.product
    have hlt := (interval*cycle).toNat_lt
    omega
  · intro hlt
    refine ⟨hi, hc, ?_, UInt32.le_of_lt h⟩
    rw [UInt32.toNat_mul, Nat.mod_eq_of_lt hlt]

end Fit

section Config
variable {interval : UInt32}

theorem clampInterval_ge (h : interval ≠ 0) :
    intervalMin ≤ Keepalive.clampInterval interval := by
  by_cases hi : interval < intervalMin
  · simp [Keepalive.clampInterval, h, hi]
  · simpa [Keepalive.clampInterval, hi] using UInt32.not_lt.mp hi

theorem clampCycle_ge (cycle : UInt32) : 1 ≤ Keepalive.clampCycle cycle := by
  by_cases h : cycle = 0
  · simp [Keepalive.clampCycle, h]
  · have hne : cycle.toNat ≠ 0 := fun h0 => h (UInt32.toNat_inj.mp h0)
    simp only [Keepalive.clampCycle, h, if_false, UInt32.le_iff_toNat_le, UInt32.toNat_one]
    omega

theorem setConfig_fit {s : Keepalive} {interval cycle : UInt32} (hi : intervalMin ≤ interval)
    (hc : 1 ≤ cycle) :
    Fit (s.setConfig interval cycle).interval (s.setConfig interval cycle).cycle
      (s.setConfig interval cycle).removeTime ↔
      interval.toNat*cycle.toNat<2^32 ∨ ¬interval*cycle < reclaimTimeMax := by
  by_cases h : interval*cycle < reclaimTimeMax
  · simpa [Keepalive.setConfig, h] using fit_iff hi hc h
  · simpa [Keepalive.setConfig, h] using fit_default

theorem suppInterval_le {timeout : UInt32} (h : intervalMin ≤ timeout) :
    intervalMin ≤ Keepalive.suppInterval timeout ∧ Keepalive.suppInterval timeout ≤ timeout := by
  have hmin : intervalMin ≤ intervalDefault := by decide
  have hlong : intervalDefault ≤ intervalDefault*reclaimCycle := by decide
  by_cases h1 : timeout < intervalDefault*reclaimCycle
  · by_cases h2 : timeout ≤ intervalDefault
    · simp [Keepalive.suppInterval, h1, h2, h]
    · simpa [Keepalive.suppInterval, h1, h2, hmin] using UInt32.le_of_lt (UInt32.not_le.mp h2)
  · simpa [Keepalive.suppInterval, h1, hmin] using UInt32.le_trans hlong (UInt32.not_lt.mp h1)

theorem suppConfig_fit {interval timeout : UInt32} (hi : intervalMin ≤ interval)
    (hle : interval ≤ timeout) (hmax : timeout ≤ reclaimTimeMax) :
    Fit interval (timeout/interval) (interval*(timeout/interval)) := by
  have hmin : 5000 ≤ interval.toNat := UInt32.le_iff_toNat_le.mp hi
  have hle' : interval.toNat ≤ timeout.toNat := UInt32.le_iff_toNat_le.mp hle
  have hmul : interval.toNat*(timeout.toNat/interval.toNat) ≤ timeout.toNat := Nat.mul_div_le _ _
  have hprod : (interval*(timeout/interval)).toNat
      = interval.toNat*(timeout.toNat/interval.toNat) := by
    rw [UInt32.toNat_mul, UInt32.toNat_div, Nat.mod_eq_of_lt]
    have hlt := timeout.toNat_lt
    omega
  constructor
  case minInterval => exact hi
  case minCycle =>
    rw [UInt32.le_iff_toNat_le, UInt32.toNat_div]
    exact Nat.div_pos hle' (by omega)
  case product => rw [hprod, UInt32.toNat_div]
  case max =>
    apply UInt32.le_trans _ hmax
    rw [UInt32.le_iff_toNat_le, hprod]
    exact hmul

end Config

variable {c : Clock} {s : Keepalive}

/-- `Sound`, and a started timer means that keep-alive is enabled. -/
structure Inv (c : Clock) (s : Keepalive) : Prop extends Sound c s where
  started : s.start = true → s.enabled = true

theorem inv_init (mode : Mode) : Inv c (init mode) := by
  cases mode
  case enable | configBySupp => exact ⟨⟨fun _ => fit_default, by simp [init]⟩, by simp [init]⟩
  case disable | bySupp => exact ⟨⟨by simp [init], by simp [init]⟩, by simp [init]⟩

theorem Inv.stop (h : Inv c s) : Inv c s.stop := by
  by_cases hs : s.start = true
  · simp only [Keepalive.stop, hs, if_true]
    exact ⟨⟨h.fit, h.preload⟩, by simp⟩
  · simpa [Keepalive.stop, hs] using h

theorem preload_append {l : List (UInt32 × Int)} {p : UInt32 × Int} (hl : ∀ q∈l, Ahead c q)
    (hp : Ahead c p) : ∀ q∈l ++ [p], Ahead c q := by
  simp only [List.mem_append, List.mem_singleton]
  rintro q (hq | rfl)
  · exact hl q hq
  · exact hp

theorem Inv.begin (h : Inv c s) : Inv c (s.begin c) := by
  by_cases he : s.enabled = true
  · simp only [Keepalive.begin, he, if_true]
    have hfit := h.fit he
    exact ⟨⟨fun _ => hfit, preload_append h.preload hfit.ahead⟩, fun _ => he⟩
  · simpa [Keepalive.begin, he] using h

theorem Inv.rearm (h : Inv c s) : Inv c (s.rearm c) := by
  by_cases hs : (s.start && s.interval != 0) = true
  · by_cases hp : s.preloadStat = true
    · simp only [Keepalive.rearm, hs, hp, if_true]
      exact ⟨⟨h.fit, h.preload⟩, h.started⟩
    · simp only [Keepalive.rearm, hs, hp, if_true]
      have hfit := h.fit (h.started (Bool.and_eq_true_iff.mp hs).1)
      exact ⟨⟨h.fit, preload_append h.preload hfit.ahead⟩, h.started⟩
  · simpa [Keepalive.rearm, hs] using h

theorem Inv.fire (h : Inv c s) (connected : Bool) : Inv c (s.fire c connected) := by
  have hoff : Inv c { s with timer := none } := ⟨⟨h.fit, h.preload⟩, h.started⟩
  unfold Keepalive.fire
  split_ifs
  · exact h
  · exact hoff.rearm
  · exact hoff

theorem Inv.configSupp (h : Inv c s) (inactiveTime : UInt16) :
    Inv c (s.configSupp inactiveTime) := by
  have hfit : ∀ timeout, intervalMin ≤ timeout → timeout ≤ reclaimTimeMax →
      Fit (Keepalive.suppInterval timeout) (timeout/Keepalive.suppInterval timeout)
        (Keepalive.suppInterval timeout*(timeout/Keepalive.suppInterval timeout)) := by
    intro timeout hmin hmax
    have hint := suppInterval_le hmin
    exact suppConfig_fit hint.1 hint.2 hmax
  unfold Keepalive.configSupp
  dsimp only
  split_ifs with hoff hzero hlow hhigh
  · exact h
  · exact h
  · exact ⟨⟨fun _ => hfit (intervalMin*1) (by decide) (by decide), h.preload⟩, h.started⟩
  · exact ⟨⟨fun _ => hfit reclaimTimeMax (by decide) (by decide), h.preload⟩, h.started⟩
  · have hmin := UInt32.not_lt.mp hlow
    have hmax := UInt32.not_lt.mp hhigh
    exact ⟨⟨fun _ => hfit _ hmin hmax, h.preload⟩, h.started⟩

section Step
variable {interval cycle : UInt32}

theorem Inv.setConfig (h : Inv c s)
    (hfit : Fit (s.setConfig interval cycle).interval (s.setConfig interval cycle).cycle
      (s.setConfig interval cycle).removeTime) : Inv c (s.setConfig interval cycle) :=
  ⟨⟨fun _ => hfit, h.preload⟩, fun _ => rfl⟩

theorem config_of_configurable (hc : s.configurable = true) (hi : interval ≠ 0) :
    s.config c interval cycle =
      if s.start then
        { (s.stop.setConfig (Keepalive.clampInterval interval)
            (Keepalive.clampCycle cycle)).armPreload c (preloadLeadtime*1000) with
          start := true, preloadStat := true }
      else
        s.stop.setConfig (Keepalive.clampInterval interval) (Keepalive.clampCycle cycle) := by
  have hne : Keepalive.clampInterval interval ≠ 0 := by
    intro h0
    have hge := clampInterval_ge hi
    rw [h0] at hge
    exact absurd hge (by decide)
  unfold Keepalive.config
  rw [if_pos hc]
  dsimp only
  rw [if_neg hne]

theorem Inv.config (h : Inv c s) (hok : Ok s (.config interval cycle)) :
    Inv c (s.config c interval cycle) := by
  by_cases hc : s.configurable = true
  · by_cases hi : interval = 0
    · have hzero : Keepalive.clampInterval interval = 0 := by simp [Keepalive.clampInterval, hi]
      unfold Keepalive.config
      dsimp only
      rw [if_pos hc, if_pos hzero]
      refine ⟨⟨by simp, h.stop.preload⟩, ?_⟩
      by_cases hs : s.start = true
      · simp [Keepalive.stop, hs]
      · simp [Keepalive.stop, hs]
    · obtain ⟨hs, hwrap⟩ := hok hc hi
      rw [config_of_configurable hc hi, hs, if_neg Bool.false_ne_true]
      have hfit :=
        (setConfig_fit (s := s.stop) (clampInterval_ge hi) (clampCycle_ge cycle)).mpr hwrap
      exact h.stop.setConfig hfit
  · simpa [Keepalive.config, hc] using h

theorem Inv.step (h : Inv c s) (e : Event) (hok : Ok s e) : Inv c (step c s e) := by
  cases e with
  | start => exact h.begin
  | stop => exact h.stop
  | fire connected => exact h.fire connected
  | config interval cycle => exact h.config hok
  | configSupp inactiveTime => exact h.configSupp inactiveTime

theorem not_ahead_restart (interval : UInt32) :
    ¬Ahead c (interval, (c.msecsToJiffies interval.toNat : Int)
      - c.msecsToJiffies (preloadLeadtime*1000)) := by
  rintro ⟨-, heq⟩
  have hlt : c.msecsToJiffies preloadLeadtime < c.msecsToJiffies (preloadLeadtime*1000) :=
    Clock.msecsToJiffies_lt (by decide) (by decide)
  simp only at heq
  omega

theorem ok_of_sound (e : Event) (hs : Sound c (Ath6kl.ApKeepalive.step c s e)) : Ok s e := by
  cases e with
  | config interval cycle =>
    intro hc hi
    have hconf : Sound c (s.config c interval cycle) := hs
    rw [config_of_configurable hc hi] at hconf
    cases hstart : s.start with
    | true =>
      rw [hstart, if_pos rfl] at hconf
      have hlast := hconf.preload _ (List.mem_append_right _ List.mem_cons_self)
      exact absurd hlast (not_ahead_restart _)
    | false =>
      rw [hstart, if_neg Bool.false_ne_true] at hconf
      have hfit := hconf.fit rfl
      exact ⟨rfl, (setConfig_fit (clampInterval_ge hi) (clampCycle_ge cycle)).mp hfit⟩
  | start | stop | fire | configSupp => trivial

end Step

/-- The numbers of keep-alive fit, and the timer is armed ahead of the interval, in every state of
exactly the runs whose configurations from the driver find the timer stopped and do not wrap. -/
theorem keepalive_sound_iff (c : Clock) (mode : Mode) (es : List Event) :
    (∀ u, u <+: es → Sound c (run (step c) (init mode) u)) ↔
      AllSteps (step c) Ok (init mode) es :=
  prefix_iff_allSteps (I := Inv c) (fun _ h => h.toSound) (fun _ e h hok => h.step e hok)
    (fun _ e _ hs => ok_of_sound e hs) (inv_init mode) es

/-- At 100 ticks a second: the product of numbers that are accepted is 0, and a timer that is
running is armed for a time in the past. -/
theorem config_wraps_and_restarts_late :
    ¬Sound default (run (step default) (init .enable) [.config (2^31) 2]) ∧
      ¬Sound default (run (step default) (init .enable) [.start, .config intervalDefault 19]) := by
  constructor
  · intro h
    have hprod := (h.fit rfl).product
    exact absurd hprod (by decide)
  · intro h
    have hlast := (h.preload (intervalDefault, -198500) (by decide)).1
    exact absurd hlast (by decide)

end Ath6kl.ApKeepalive
