import Ath6kl.ApKeepalive
import Ath6kl.Lib.SeqSpace

/-! When a station was active last: the target's clock and the host's (ap.c), and what the timer
of the keep-alive makes of it. -/
namespace Ath6kl.ApKeepaliveClock
open Lib.Jiffies Lib.Machine Lib.SeqSpace ApKeepalive

/-- `last_txrx_time_tgt` and `last_txrx_time` of `struct ath6kl_sta`; the first is 0 until a base
is set, the second is in jiffies. -/
structure Sta where
  lastTxrxTimeTgt : UInt16 := 0
  lastTxrxTime : Nat := 0

/-- `enum ap_keepalive_adjust`, less the error that is never returned. -/
inductive Adjust
  | adjust
  | baseset
deriving DecidableEq

/-- `AP_KA_ACTION_*`. -/
inductive Action
  | none
  | poll
  | remove
deriving DecidableEq

/-- `diff_ms`: a tick of the target is 1024 ms. -/
def diffMs (tgt last : UInt16) : Nat :=
  if tgt ≤ last then (last.toNat - tgt.toNat) <<< 10
  else (0xffff - (tgt.toNat - last.toNat)) <<< 10

/-- `__ap_keepalive_adjust_txrx_time`. -/
def adjustTxrxTime (c : Clock) (conn : Sta) (last : UInt16) (now : Nat) : Adjust × Sta :=
  if conn.lastTxrxTimeTgt ≠ 0 then
    let time := (conn.lastTxrxTime + c.msecsToJiffies (diffMs conn.lastTxrxTimeTgt last)) % c.wrap
    (.adjust, { lastTxrxTimeTgt := last, lastTxrxTime := if time > now then now else time })
  else (.baseset, { lastTxrxTimeTgt := last, lastTxrxTime := now })

/-- `_ap_keepalive_update_check_txrx_time`. -/
def updateCheckTxrxTime (c : Clock) (ap : Keepalive) (conn : Sta) (last : UInt16) (now : Nat) :
    Action × Sta :=
  let (result, conn) := adjustTxrxTime c conn last now
  if result = .adjust then
    let action : Action :=
      if c.timeAfterEq now (conn.lastTxrxTime + c.msecsToJiffies ap.interval.toNat) then .poll
      else .none
    if c.timeAfterEq now (conn.lastTxrxTime + c.msecsToJiffies ap.removeTime.toNat) then
      (.remove, conn)
    else (action, conn)
  else (.none, conn)

/-- A sample of a station's activity: the target's clock then, before it is cut to 16 bits, and
the host's. It is taken by the timer (`check`) or by `ap_keepalive_get_inactive_time`. -/
structure Sample where
  ticks : Nat
  now : Nat
  check : Bool

def Sample.last (e : Sample) : UInt16 := UInt16.ofNat e.ticks

/-- A station along its samples. `action` is what the last check decided; the rest is history:
`sample` the clock of the last sample, `since` the host's time at the first of the samples since
then that were equal to it, `now` the host's time at the last. -/
structure Track where
  conn : Sta := {}
  action : Action := .none
  sample : Option Nat := none
  since : Nat := 0
  now : Nat := 0

def step (c : Clock) (ap : Keepalive) (s : Track) (e : Sample) : Track :=
  let (action, conn) :=
    if e.check then updateCheckTxrxTime c ap s.conn e.last e.now
    else (.none, (adjustTxrxTime c s.conn e.last e.now).2)
  { conn := conn
    action := action
    sample := some e.ticks
    since := if s.sample = some e.ticks then s.since else e.now
    now := e.now }

/-- Neither clock goes back, the host's does not wrap, and the target's wraps at most once. -/
def Ordered (c : Clock) (s : Track) (e : Sample) : Prop :=
  s.now ≤ e.now ∧ e.now<c.wrap ∧ ∀ old, s.sample = some old → old ≤ e.ticks ∧ e.ticks<old + 65536

/-- Past the first sample the host's time follows the target's, limited to now. -/
def Advanced (c : Clock) (ap : Keepalive) (s : Track) (e : Sample) : Prop :=
  ∀ old, s.sample = some old → (step c ap s e).conn.lastTxrxTime =
    min (s.conn.lastTxrxTime +
      c.msecsToJiffies (fwd 65536 (UInt16.ofNat old).toNat e.last.toNat*1024)) e.now

/-- A check removes a station whose clock has not moved for the time of all cycles. -/
def Removed (c : Clock) (ap : Keepalive) (s : Track) (e : Sample) : Prop :=
  e.check = true → s.sample = some e.ticks →
    s.since + c.msecsToJiffies ap.removeTime.toNat ≤ e.now → (step c ap s e).action = .remove

/-- The last transmission is at most the interval back; the target's clock had that value then,
`phase` apart from the host's. -/
def Active (c : Clock) (ap : Keepalive) (phase : Nat) (_ : Track) (e : Sample) : Prop :=
  ∃ tx, tx ≤ e.now ∧ e.now ≤ tx + c.msecsToJiffies ap.interval.toNat ∧
    e.ticks = (1000*tx + phase) / (1024*c.hz)

def Kept (c : Clock) (ap : Keepalive) (s : Track) (e : Sample) : Prop :=
  (step c ap s e).action ≠ .remove

/-- What the advance needs: no tick is lost at a wrap or after a base of 0 unless the limit hides
it, and the host's time does not wrap. -/
def Exact (c : Clock) (s : Track) (e : Sample) : Prop :=
  s.sample ≠ none →
    let time := s.conn.lastTxrxTime + c.msecsToJiffies (diffMs s.conn.lastTxrxTimeTgt e.last)
    if s.conn.lastTxrxTimeTgt = 0 then e.now ≤ time
    else time<c.wrap ∧ (s.conn.lastTxrxTimeTgt ≤ e.last ∨ e.now ≤ time)

/-- A check at which a station is due comes less than half the count of jiffies later. -/
def Near (c : Clock) (ap : Keepalive) (s : Track) (e : Sample) : Prop :=
  e.check = true → s.sample = some e.ticks →
    s.since + c.msecsToJiffies ap.removeTime.toNat ≤ e.now →
      e.now<s.conn.lastTxrxTime + c.msecsToJiffies ap.removeTime.toNat + 2^(c.bits-1)

section Diff
variable {tgt last : UInt16}

theorem diffMs_of_le (h : tgt ≤ last) : diffMs tgt last = fwd 65536 tgt.toNat last.toNat*1024 := by
  have hle : tgt.toNat ≤ last.toNat := UInt16.le_iff_toNat_le.mp h
  have hlt := last.toNat_lt
  have hfwd : fwd 65536 tgt.toNat last.toNat = last.toNat - tgt.toNat :=
    fwd_unique (by decide) (by omega) (by rw [Nat.add_sub_cancel' hle])
  rw [diffMs, if_pos h, hfwd, Nat.shiftLeft_eq]

theorem diffMs_of_lt (h : last < tgt) :
    diffMs tgt last + 1024 = fwd 65536 tgt.toNat last.toNat*1024 := by
  have hlt : last.toNat < tgt.toNat := UInt16.lt_iff_toNat_lt.mp h
  have htgt := tgt.toNat_lt
  have hfwd : fwd 65536 tgt.toNat last.toNat = 65536 - (tgt.toNat - last.toNat) :=
    fwd_unique (by decide) (by omega) (by omega)
  rw [diffMs, if_neg (UInt16.not_le.mpr h), hfwd, Nat.shiftLeft_eq]
  omega

variable {c : Clock}

theorem jiffies_fwd_lt (a b : Nat) : c.msecsToJiffies (fwd 65536 a b*1024) < c.wrap := by
  have hfwd : fwd 65536 a b < 65536 := fwd_lt (by decide)
  have hhalf := c.half_ge
  have hle : c.msecsToJiffies (fwd 65536 a b*1024) ≤ 2^(c.bits-1) :=
    Clock.msecsToJiffies_le_half (by omega)
  rw [Clock.wrap_eq]
  omega

theorem jiffies_diff_lt (h : last < tgt) : c.msecsToJiffies (diffMs tgt last) <
    c.msecsToJiffies (fwd 65536 tgt.toNat last.toNat*1024) := by
  have hfwd : fwd 65536 tgt.toNat last.toNat < 65536 := fwd_lt (by decide)
  rw [← diffMs_of_lt h]
  apply Clock.msecsToJiffies_lt
  · have hdiff := diffMs_of_lt h
    omega
  · omega

end Diff

section Step
variable {c : Clock} {ap : Keepalive} {s : Track} {e : Sample}

@[simp] theorem updateCheck_conn (conn : Sta) (last : UInt16) (now : Nat) :
    (updateCheckTxrxTime c ap conn last now).2 = (adjustTxrxTime c conn last now).2 := by
  simp only [updateCheckTxrxTime]
  split_ifs <;> rfl

@[simp] theorem step_conn :
    (step c ap s e).conn = (adjustTxrxTime c s.conn e.last e.now).2 := by
  cases hc : e.check
  · simp [step, hc]
  · simp [step, hc]

@[simp] theorem step_sample : (step c ap s e).sample = some e.ticks := by
  cases hc : e.check <;> simp [step, hc]

@[simp] theorem step_now : (step c ap s e).now = e.now := by
  cases hc : e.check <;> simp [step, hc]

theorem step_since :
    (step c ap s e).since = if s.sample = some e.ticks then s.since else e.now := by
  cases hc : e.check <;> simp [step, hc]

theorem adjust_host_le (conn : Sta) (last : UInt16) (now : Nat) :
    (adjustTxrxTime c conn last now).2.lastTxrxTime ≤ now := by
  by_cases h : conn.lastTxrxTimeTgt = 0
  · simp [adjustTxrxTime, h]
  · simp only [adjustTxrxTime, h, ne_eq, not_false_eq_true, if_true]
    split_ifs with hlim
    · exact le_refl _
    · exact Nat.not_lt.mp hlim

@[simp] theorem adjust_tgt (conn : Sta) (last : UInt16) (now : Nat) :
    (adjustTxrxTime c conn last now).2.lastTxrxTimeTgt = last := by
  by_cases h : conn.lastTxrxTimeTgt = 0 <;> simp [adjustTxrxTime, h]

theorem adjust_zero {conn : Sta} (h : conn.lastTxrxTimeTgt = 0) (last : UInt16) (now : Nat) :
    (adjustTxrxTime c conn last now).2.lastTxrxTime = now := by
  simp [adjustTxrxTime, h]

theorem adjust_host {conn : Sta} (h : conn.lastTxrxTimeTgt ≠ 0) (last : UInt16) (now : Nat) :
    (adjustTxrxTime c conn last now).2.lastTxrxTime =
      min ((conn.lastTxrxTime + c.msecsToJiffies (diffMs conn.lastTxrxTimeTgt last)) % c.wrap)
        now := by
  simp only [adjustTxrxTime, h, ne_eq, not_false_eq_true, if_true]
  split_ifs with hlim
  · exact (min_eq_right (by omega)).symm
  · exact (min_eq_left (by omega)).symm

/-- What the samples so far leave: the target's last value, and a host's time that is not ahead. -/
structure Inv (c : Clock) (s : Track) : Prop where
  tgt : ∀ old, s.sample = some old → s.conn.lastTxrxTimeTgt = UInt16.ofNat old
  fresh : s.sample = none → s.conn.lastTxrxTimeTgt = 0
  host : s.conn.lastTxrxTime ≤ s.now

theorem inv_init : Inv c {} := ⟨by simp, by simp, le_refl _⟩

theorem Inv.step : Inv c (step c ap s e) := by
  constructor
  case tgt => simp [Sample.last]
  case fresh => simp
  case host => simpa using adjust_host_le s.conn e.last e.now

/-- A sum of `unsigned long` that is then limited: it agrees with a longer one unless it wraps,
or is shorter where the limit does not hide it. -/
theorem min_add_mod_iff {host now j k wrap : Nat} (hhost : host ≤ now) (hnow : now<wrap)
    (hj : j ≤ k) (hk : k<wrap) :
    min ((host+j) % wrap) now = min (host+k) now ↔
      host+j<wrap ∧ (j = k ∨ now ≤ host+j) := by
  by_cases hw : host+j<wrap
  · rw [Nat.mod_eq_of_lt hw]
    omega
  · have hmod : (host+j) % wrap = host+j-wrap := by
      rw [Nat.mod_eq_sub_mod (by omega), Nat.mod_eq_of_lt (by omega)]
    rw [hmod]
    omega

theorem advanced_iff_exact (hi : Inv c s) (ho : Ordered c s e) :
    Advanced c ap s e ↔ Exact c s e := by
  cases hs : s.sample with
  | none => simp [Advanced, Exact, hs]
  | some old =>
    have htgt := hi.tgt old hs
    have hhost := hi.host
    obtain ⟨hnow, hwrap, -⟩ := ho
    have hfwd := jiffies_fwd_lt (c := c) (UInt16.ofNat old).toNat e.last.toNat
    simp only [Advanced, Exact, hs, Option.some.injEq, forall_eq', step_conn, htgt, ne_eq,
      reduceCtorEq, not_false_eq_true, forall_const]
    by_cases hzero : UInt16.ofNat old = 0
    · -- Zero is no base: the host's time is set to now.
      rw [hzero] at htgt
      rw [adjust_zero htgt, if_pos hzero, hzero, diffMs_of_le UInt16.zero_le]
      omega
    · have hne : s.conn.lastTxrxTimeTgt ≠ 0 := htgt ▸ hzero
      rw [adjust_host hne, if_neg hzero, htgt]
      by_cases hle : UInt16.ofNat old ≤ e.last
      · rw [diffMs_of_le hle, min_add_mod_iff (by omega) hwrap le_rfl hfwd]
        simp [hle]
      · have hlt := jiffies_diff_lt (c := c) (UInt16.not_le.mp hle)
        rw [min_add_mod_iff (by omega) hwrap hlt.le hfwd]
        simp only [hlt.ne, hle, false_or]

section Idle

@[simp] theorem diffMs_self (tgt : UInt16) : diffMs tgt tgt = 0 := by
  simp [diffMs]

theorem Inv.tgt_last (hi : Inv c s) (hs : s.sample = some e.ticks) :
    s.conn.lastTxrxTimeTgt = e.last := hi.tgt e.ticks hs

theorem host_of_unchanged (hi : Inv c s) (ho : Ordered c s e) (hx : Exact c s e)
    (hs : s.sample = some e.ticks) :
    (step c ap s e).conn.lastTxrxTime = s.conn.lastTxrxTime := by
  have htgt := hi.tgt_last hs
  have hhost := hi.host
  have hnow := ho.1
  have hwrap := ho.2.1
  have hx' := hx (by simp [hs])
  rw [step_conn]
  by_cases hzero : s.conn.lastTxrxTimeTgt = 0
  · simp only [hzero, ← htgt, diffMs_self, Clock.msecsToJiffies_zero, if_true] at hx'
    rw [adjust_zero hzero]
    omega
  · rw [adjust_host hzero, htgt, diffMs_self, Clock.msecsToJiffies_zero, Nat.add_zero,
      Nat.mod_eq_of_lt (by omega), min_eq_left (by omega)]

/-- The host's time is not past the first of the samples equal to the last. -/
def Unmoved (s : Track) : Prop := s.sample ≠ none → s.conn.lastTxrxTime ≤ s.since

theorem Unmoved.step (hi : Inv c s) (hu : Unmoved s) (ho : Ordered c s e) (hx : Exact c s e) :
    Unmoved (step c ap s e) := by
  intro _
  rw [step_since]
  by_cases hs : s.sample = some e.ticks
  · rw [host_of_unchanged hi ho hx hs, if_pos hs]
    exact hu (by simp [hs])
  · rw [step_conn, if_neg hs]
    exact adjust_host_le s.conn e.last e.now

theorem action_of_check (hc : e.check = true) (hb : s.conn.lastTxrxTimeTgt ≠ 0) :
    (step c ap s e).action = .remove ↔ c.timeAfterEq e.now
      ((step c ap s e).conn.lastTxrxTime + c.msecsToJiffies ap.removeTime.toNat) = true := by
  have hadj : (adjustTxrxTime c s.conn e.last e.now).1 = .adjust := by simp [adjustTxrxTime, hb]
  rw [step_conn]
  simp only [step, updateCheckTxrxTime, hc, hadj, if_true]
  split_ifs with hrem hpoll <;> simp [hrem]

theorem removed_iff_near (hf : Fit ap.interval ap.cycle ap.removeTime) (hi : Inv c s)
    (hu : Unmoved s) (ho : Ordered c s e) (hx : Exact c s e) :
    Removed c ap s e ↔ Near c ap s e := by
  have hmin := hf.removeTime_ge
  have hmax := hf.removeTime_le
  have hpos : c.msecsToJiffies 0 < c.msecsToJiffies ap.removeTime.toNat :=
    Clock.msecsToJiffies_lt (by omega) (by omega)
  -- It is enough to look at a check where the station is due.
  refine forall_congr' fun hc => forall_congr' fun hs => forall_congr' fun hdue => ?_
  have hsince := hu (by simp [hs])
  have htgt := hi.tgt_last hs
  have hwrap := ho.2.1
  have hx' := hx (by simp [hs])
  have hb : s.conn.lastTxrxTimeTgt ≠ 0 := by
    intro hzero
    simp only [hzero, ← htgt, diffMs_self, Clock.msecsToJiffies_zero, if_true] at hx' hpos
    omega
  rw [action_of_check hc hb, host_of_unchanged hi ho hx hs,
    Clock.timeAfterEq_iff_of_le (by omega) (by omega)]

end Idle

section Busy

/-- The host's time is not behind the target's clock. -/
def Follows (c : Clock) (phase : Nat) (s : Track) : Prop :=
  ∀ old, s.sample = some old → 1024*c.hz*old ≤ 1000*s.conn.lastTxrxTime + phase

variable {phase : Nat}

theorem fwd_of_ordered {old : Nat} (ho : Ordered c s e) (hs : s.sample = some old) :
    fwd 65536 (UInt16.ofNat old).toNat e.last.toNat = e.ticks - old := by
  obtain ⟨hle, hlt⟩ := ho.2.2 old hs
  apply fwd_unique
  · decide
  · omega
  · simp only [UInt16.toNat_ofNat', Sample.last]
    omega

theorem Follows.step (hi : Inv c s) (hf : Follows c phase s) (ho : Ordered c s e)
    (hx : Exact c s e) (ha : Active c ap phase s e) : Follows c phase (step c ap s e) := by
  obtain ⟨tx, htx, -, hticks⟩ := ha
  have htick : 1024*c.hz*e.ticks ≤ 1000*tx + phase := by
    rw [hticks]
    exact Nat.mul_div_le _ _
  intro old hold
  rw [step_sample, Option.some.injEq] at hold
  subst hold
  cases hs : s.sample with
  | none =>
    rw [step_conn, adjust_zero (hi.fresh hs)]
    omega
  | some old =>
    have hadv : Advanced c ap s e := (advanced_iff_exact hi ho).mpr hx
    have hadv := hadv old hs
    obtain ⟨hle, hlt⟩ := ho.2.2 old hs
    have hold := hf old hs
    rw [fwd_of_ordered ho hs] at hadv
    have hj : (e.ticks-old)*1024*c.hz ≤ 1000*c.msecsToJiffies ((e.ticks-old)*1024) :=
      Clock.mul_hz_le (by omega)
    have hsplit : 1024*c.hz*e.ticks = 1024*c.hz*old + (e.ticks-old)*1024*c.hz := by
      obtain ⟨d, hd⟩ := Nat.exists_eq_add_of_le hle
      rw [hd, Nat.add_sub_cancel_left]
      ring
    rw [hadv]
    omega

theorem action_ne_remove
    (h : e.now<(step c ap s e).conn.lastTxrxTime + c.msecsToJiffies ap.removeTime.toNat)
    (hmax : ap.removeTime.toNat ≤ 900000) : (step c ap s e).action ≠ .remove := by
  have hle : (step c ap s e).conn.lastTxrxTime ≤ e.now := by
    simpa using adjust_host_le s.conn e.last e.now
  have hhalf : c.msecsToJiffies ap.removeTime.toNat ≤ 2^(c.bits-1) :=
    Clock.msecsToJiffies_le_half (by omega)
  cases hc : e.check with
  | false => simp [step, hc]
  | true =>
    by_cases hb : s.conn.lastTxrxTimeTgt = 0
    · simp [step, updateCheckTxrxTime, adjustTxrxTime, hc, hb]
    · rw [Ne, action_of_check hc hb, Clock.timeAfterEq_of_lt h (by omega)]
      simp

theorem kept_of_follows (hf : Fit ap.interval ap.cycle ap.removeTime) (hcycle : 2 ≤ ap.cycle)
    (hfol : Follows c phase (step c ap s e)) (ha : Active c ap phase s e) : Kept c ap s e := by
  obtain ⟨tx, -, hnow, hticks⟩ := ha
  have hmin : 5000 ≤ ap.interval.toNat := UInt32.le_iff_toNat_le.mp hf.minInterval
  have hcyc : 2 ≤ ap.cycle.toNat := UInt32.le_iff_toNat_le.mp hcycle
  have hmax := hf.removeTime_le
  have hinterval := hf.interval_le
  have hz := c.hz_pos
  have hle := hfol e.ticks step_sample
  have htick : 1000*tx + phase < 1024*c.hz*(e.ticks+1) := by
    rw [hticks]
    exact Nat.lt_mul_div_succ _ (by omega)
  have hlong : ap.interval.toNat*c.hz + 5000*c.hz ≤ 1000*c.msecsToJiffies ap.removeTime.toNat := by
    have htwo : ap.interval.toNat*2 ≤ ap.interval.toNat*ap.cycle.toNat := Nat.mul_le_mul_left _ hcyc
    have hprod := hf.product
    calc ap.interval.toNat*c.hz + 5000*c.hz = (ap.interval.toNat + 5000)*c.hz := by ring
      _ ≤ ap.removeTime.toNat*c.hz := Nat.mul_le_mul_right _ (by omega)
      _ ≤ 1000*c.msecsToJiffies ap.removeTime.toNat := Clock.mul_hz_le (by omega)
  have hshort : 1000*c.msecsToJiffies ap.interval.toNat < ap.interval.toNat*c.hz + 1000 :=
    Clock.lt_mul_hz (by omega)
  rw [Nat.mul_add, Nat.mul_one] at htick
  apply action_ne_remove _ hmax
  omega

end Busy

end Step

/-- For samples whose clocks do not go back: the host's time advances as the target's exactly when
no tick is lost and the sum does not wrap. Then an idle station is removed exactly when no check
comes too late, and with two cycles a station that transmits in every interval is kept. -/
theorem txrx_clock_tracks (c : Clock) (ap : Keepalive)
    (hf : Fit ap.interval ap.cycle ap.removeTime) (es : List Sample)
    (ho : AllSteps (step c ap) (Ordered c) {} es) :
    (AllSteps (step c ap) (Advanced c ap) {} es ↔ AllSteps (step c ap) (Exact c) {} es) ∧
      (AllSteps (step c ap) (Exact c) {} es →
        (AllSteps (step c ap) (Removed c ap) {} es ↔ AllSteps (step c ap) (Near c ap) {} es)) ∧
      (AllSteps (step c ap) (Exact c) {} es → 2 ≤ ap.cycle → ∀ phase,
        AllSteps (step c ap) (Active c ap phase) {} es →
          AllSteps (step c ap) (Kept c ap) {} es) := by
  refine ⟨?_, fun hx => ?_, fun hx hcycle phase ha => ?_⟩
  · exact allSteps_congr_of (I := Inv c) (fun _ _ _ _ => Inv.step)
      (fun _ _ hi ho => advanced_iff_exact hi ho) inv_init ho
  · apply allSteps_congr_of (I := fun s => Inv c s ∧ Unmoved s)
      (A := fun s e => Ordered c s e ∧ Exact c s e)
    · rintro s e ⟨hi, hu⟩ ⟨ho, hx⟩
      exact ⟨Inv.step, hu.step hi ho hx⟩
    · rintro s e ⟨hi, hu⟩ ⟨ho, hx⟩
      exact removed_iff_near hf hi hu ho hx
    · exact ⟨inv_init, by simp [Unmoved]⟩
    · exact allSteps_and.mpr ⟨ho, hx⟩
  · apply allSteps_of_invariant (I := fun s => Inv c s ∧ Follows c phase s)
      (C := fun s e => Ordered c s e ∧ Exact c s e ∧ Active c ap phase s e)
    · rintro s e ⟨hi, hfol⟩ ⟨ho, hx, ha⟩
      exact ⟨Inv.step, hfol.step hi ho hx ha⟩
    · rintro s e ⟨hi, hfol⟩ ⟨ho, hx, ha⟩
      exact kept_of_follows hf hcycle (hfol.step hi ho hx ha) ha
    · exact ⟨inv_init, by simp [Follows]⟩
    · exact allSteps_and.mpr ⟨ho, allSteps_and.mpr ⟨hx, ha⟩⟩

/-- A station that moves for ten ticks and then stops is followed and removed; while it moves it is
kept. -/
theorem txrx_clock_tracks_ten :
    (AllSteps (step default (init .enable)) (Advanced default (init .enable)) {}
        [⟨10, 1000, true⟩, ⟨20, 2600, true⟩, ⟨20, 9000, true⟩] ∧
      AllSteps (step default (init .enable)) (Removed default (init .enable)) {}
        [⟨10, 1000, true⟩, ⟨20, 2600, true⟩, ⟨20, 9000, true⟩]) ∧
      AllSteps (step default (init .enable)) (Kept default (init .enable)) {}
        [⟨10, 1000, true⟩, ⟨20, 2600, true⟩] := by
  have hlong := txrx_clock_tracks default (init .enable) fit_default
    [⟨10, 1000, true⟩, ⟨20, 2600, true⟩, ⟨20, 9000, true⟩]
    (by simp only [AllSteps, Ordered, step_now, step_sample]; decide)
  have hshort := txrx_clock_tracks default (init .enable) fit_default
    [⟨10, 1000, true⟩, ⟨20, 2600, true⟩]
    (by simp only [AllSteps, Ordered, step_now, step_sample]; decide)
  have hexact : AllSteps (step default (init .enable)) (Exact default) {}
      [⟨10, 1000, true⟩, ⟨20, 2600, true⟩, ⟨20, 9000, true⟩] := by
    simp only [AllSteps, Exact]
    decide
  have hnear : AllSteps (step default (init .enable)) (Near default (init .enable)) {}
      [⟨10, 1000, true⟩, ⟨20, 2600, true⟩, ⟨20, 9000, true⟩] := by
    simp only [AllSteps, Near]
    decide
  refine ⟨⟨hlong.1.mpr hexact, (hlong.2.1 hexact).mpr hnear⟩, ?_⟩
  apply hshort.2.2 ⟨hexact.1, hexact.2.1, trivial⟩ (by decide) 24000
  exact ⟨⟨1000, by decide⟩, ⟨2100, by decide⟩, trivial⟩

/-- At a wrap of the target's clock the host's time is a tick short, and a station whose clock
stands at 0 is never removed. -/
theorem tick_lost_at_wrap :
    (AllSteps (step default (init .enable)) (Ordered default) {}
        [⟨65535, 1000, true⟩, ⟨65540, 10000, true⟩] ∧
      ¬AllSteps (step default (init .enable)) (Advanced default (init .enable)) {}
        [⟨65535, 1000, true⟩, ⟨65540, 10000, true⟩]) ∧
    (AllSteps (step default (init .enable)) (Ordered default) {}
        [⟨0, 1000, true⟩, ⟨0, 10000, true⟩] ∧
      ¬AllSteps (step default (init .enable)) (Removed default (init .enable)) {}
        [⟨0, 1000, true⟩, ⟨0, 10000, true⟩]) := by
  refine ⟨⟨?_, fun h => ?_⟩, ?_, fun h => ?_⟩
  · simp only [AllSteps, Ordered, step_now, step_sample]
    decide
  · have hlast := h.2.1 65535 rfl
    exact absurd hlast (by decide)
  · simp only [AllSteps, Ordered, step_now, step_sample]
    decide
  · have hlast := h.2.1 rfl rfl (by decide)
    exact absurd hlast (by decide)

end Ath6kl.ApKeepaliveClock
