import Ath6kl.PowerStates
import Ath6kl.Lib.Machine

/-! What the driver goes by through every order of suspends, resumes and requests: that its state
says whether the target runs and thinks the host asleep, and that `WLAN_ENABLED` says which
interfaces have not been closed. -/
namespace Ath6kl.PowerStates
open Lib.Machine

section Suspend
variable {s : Ar} {a : Answers}

/-- The mode in which `ath6kl_cfg80211_suspend` goes to work, if `ath6kl_sdio_suspend` gets so
far. -/
def Host.tried (h : Host) (s : Ar) (wow : Bool) (a : Answers) : Option Mode :=
  if h.mode wow = .cutpower ∨ a.pmFlags then some (cfgMode s (h.mode wow)) else none

/-- `ath6kl_wow_suspend` comes as far as to tell the target that the host sleeps. -/
def SaysAsleep (s : Ar) (a : Answers) : Prop :=
  s.state ≠ .wow ∧ s.firstReady ∧ a.wowConfig ∧ a.hostSleep ∧ s.running

/-- `ath6kl_wow_suspend` succeeds. -/
def Sleeps (s : Ar) (a : Answers) : Prop :=
  s.state = .wow ∨ SaysAsleep s a ∧ a.processed ∧ a.drained

inductive Suspended (s : Ar) (a : Answers) : Option Mode → Ar → Prop
  | ended : Suspended s a none s
  | slept (h : s.state = .wow) : Suspended s a (some .wow) s
  | unready (h : s.state ≠ .wow) (hr : ¬(s.firstReady ∧ a.wowConfig)) :
      Suspended s a (some .wow) s
  | unsaid (h : s.state ≠ .wow) (hr : s.firstReady ∧ a.wowConfig)
      (hs : ¬(a.hostSleep ∧ s.running)) :
      Suspended s a (some .wow) (arpOffloadAll s a)
  | late (h : SaysAsleep s a) (hl : ¬(a.processed ∧ a.drained)) :
      Suspended s a (some .wow) { arpOffloadAll s a with asleep := true }
  | asleep (h : SaysAsleep s a) (hl : a.processed ∧ a.drained) :
      Suspended s a (some .wow) { arpOffloadAll s a with asleep := true, state := .wow }
  | deep (h : s.state = .deepsleep) : Suspended s a (some .deepsleep) s
  | unfit (h : s.state ≠ .deepsleep) (hn : needSuspend s = false) :
      Suspended s a (some .deepsleep) s
  | deepens (h : s.state ≠ .deepsleep) (hn : needSuspend s) :
      Suspended s a (some .deepsleep) (deepsleepSuspend s a).1
  | offStays (h : s.state = .off) : Suspended s a (some .cutpower) (stopAll s a)
  | cut (h : s.state ≠ .off) :
      Suspended s a (some .cutpower) { halt (stopAll s a) with state := .cutpower }

theorem not_sleeps (h : s.state ≠ .wow) (hs : ¬(SaysAsleep s a ∧ a.processed ∧ a.drained)) :
    ¬Sleeps s a := not_or.mpr ⟨h, hs⟩

theorem wowSuspend_suspended :
    Suspended s a (some .wow)
      (if (wowSuspend s a).2 then { (wowSuspend s a).1 with state := .wow }
        else (wowSuspend s a).1) := by
  by_cases hw : s.state = .wow
  · simp only [wowSuspend, hw, if_true]
    have hs : { s with state := .wow } = s := by rw [← hw]
    rw [hs]
    exact .slept hw
  by_cases hr : s.firstReady ∧ a.wowConfig
  · by_cases hs : a.hostSleep ∧ s.running
    · have hsay : SaysAsleep s a := ⟨hw, hr.1, hr.2, hs.1, hs.2⟩
      by_cases hl : a.processed ∧ a.drained
      · simpa [wowSuspend, hw, hr, hs, hl] using Suspended.asleep hsay hl
      · have hlate : (a.processed && a.drained) = false := by simpa using hl
        simpa [wowSuspend, hw, hr, hs, hlate] using Suspended.late hsay hl
    · simpa [wowSuspend, hw, hr, hs] using Suspended.unsaid hw hr hs
  · simpa [wowSuspend, hw, hr] using Suspended.unready hw hr

theorem cfgSuspend_suspended (mode : Mode) :
    Suspended s a (some (cfgMode s mode)) (cfgSuspend s mode a).1 := by
  unfold cfgSuspend
  cases cfgMode s mode with
  | wow =>
    have hs := wowSuspend_suspended (s := s) (a := a)
    dsimp only
    split_ifs at hs ⊢ <;> exact hs
  | deepsleep =>
    dsimp only
    split_ifs with h
    · exact .deep h
    · cases hn : needSuspend s with
      | false => simpa [deepsleepSuspend, hn] using Suspended.unfit h hn
      | true => exact .deepens h hn
  | cutpower =>
    dsimp only
    split_ifs with h
    · exact .offStays h
    · exact .cut h

theorem sdioSuspend_suspended (h : Host) (wow : Bool) :
    ∃ s', Suspended s a (h.tried s wow a) s' ∧
      sdioSuspend h s wow a = { s' with pm := (sdioSuspend h s wow a).pm } := by
  have hc := fun mode => cfgSuspend_suspended (s := s) (a := a) mode
  unfold sdioSuspend Host.tried
  cases hm : h.mode wow with
  | cutpower => exact ⟨_, hc .cutpower, rfl⟩
  | wow =>
    cases hp : a.pmFlags with
    | false => exact ⟨s, by simpa using Suspended.ended, rfl⟩
    | true => exact ⟨_, by simpa using hc .wow, rfl⟩
  | deepsleep =>
    cases hp : a.pmFlags with
    | false => exact ⟨s, by simpa using Suspended.ended, rfl⟩
    | true => exact ⟨_, by simpa using hc .deepsleep, rfl⟩

end Suspend

section Awake
variable {h : Host} {s : Ar}

/-- The target runs unless its power was cut, and it thinks that the host sleeps exactly while the
state is `ATH6KL_STATE_WOW`. -/
def AwakeAt (state : State) (running asleep : Bool) : Prop :=
  match state with
  | .on => running ∧ asleep = false
  | .deepsleep => running ∧ asleep = false
  | .wow => running ∧ asleep
  | .off => running = false ∧ asleep = false
  | .cutpower => running = false ∧ asleep = false

def Awake (s : Ar) : Prop := AwakeAt s.state s.running s.asleep

/-- The host goes on only with a target that has followed; deep sleep begins only awake; the power
goes only where the driver has stopped the target; the target hears of the host's waking. -/
def KeepsAwake (h : Host) (s : Ar) : Event → Prop
  | .suspend wow a =>
    match h.tried s wow a with
    | some .wow => SaysAsleep s a → a.processed ∧ a.drained
    | some .deepsleep => needSuspend s → s.state = .on ∨ s.state = .deepsleep
    | _ => True
  | .hostSleeps => s.pm = some false → s.state = .off ∨ s.state = .cutpower
  | .resume a => s.state = .wow → a.awake
  | .rx a => s.state = .wow → a.awake
  | _ => True

theorem suspend_awake_iff (hs : Awake s) (wow : Bool) (a : Answers) :
    Awake (sdioSuspend h s wow a) ↔ KeepsAwake h s (.suspend wow a) := by
  obtain ⟨s', hsus, he⟩ := sdioSuspend_suspended (s := s) (a := a) h wow
  have hpm : Awake (sdioSuspend h s wow a) ↔ Awake s' := by rw [he]; rfl
  rw [hpm]
  simp only [KeepsAwake]
  revert hsus
  generalize h.tried s wow a = tried
  intro hsus
  cases hsus with
  | ended => simpa using hs
  | slept hw => simpa [SaysAsleep, hw] using hs
  | unready hw hr => 
    have hno : ¬SaysAsleep s a := fun hsay => hr ⟨hsay.2.1, hsay.2.2.1⟩
    simpa [hno] using hs
  | unsaid hw hr hno =>
    have hno' : ¬SaysAsleep s a := fun hsay => hno hsay.2.2.2
    exact iff_of_true hs fun hsay => absurd hsay hno'
  | late hsay hl =>
    refine iff_of_false ?_ fun hk => hl (hk hsay)
    obtain ⟨hw, -, -, -, hrun⟩ := hsay
    intro hlate
    change AwakeAt s.state s.running true at hlate
    rw [hrun] at hlate
    cases hstate : s.state with
    | wow => exact hw hstate
    | _ => simp [AwakeAt, hstate] at hlate
  | asleep hsay hl => exact iff_of_true ⟨hsay.2.2.2.2, rfl⟩ fun _ => hl
  | deep hd => exact iff_of_true hs fun _ => Or.inr hd
  | unfit hd hn => exact iff_of_true hs fun hn' => absurd hn' (by simp [hn])
  | deepens hd hn =>
    have hdeep : Awake (deepsleepSuspend s a).1 ↔ s.running ∧ s.asleep = false := by
      simp [Awake, AwakeAt, deepsleepSuspend, hn, stopAll]
    rw [hdeep]
    unfold Awake at hs
    cases hstate : s.state <;> rw [hstate] at hs <;> simp [AwakeAt] at hs <;> simp [hs, hn]
  | offStays hoff =>
    have hrun : Awake (stopAll s a) ↔ Awake s := Iff.rfl
    exact iff_of_true (hrun.mpr hs) trivial
  | cut hoff => exact iff_of_true ⟨rfl, rfl⟩ trivial

theorem resume_awake_iff (hs : Awake s) (a : Answers) :
    Awake (cfgResume s a) ↔ (s.state = .wow → a.awake) := by
  unfold Awake at hs
  cases hstate : s.state <;> rw [hstate] at hs
  case wow => simp [Awake, cfgResume, hstate, AwakeAt, hs.1, hs.2]
  case cutpower => cases hh : a.hwStart <;> simp [Awake, cfgResume, hstate, AwakeAt, hh, hs.1, hs.2]
  all_goals simp [Awake, cfgResume, hstate, AwakeAt, hs.1, hs.2]

theorem ifaceStep_awake (hs : Awake s) (e : Event) : Awake (ifaceStep s e) := by
  unfold ifaceStep
  split <;> exact hs

theorem step_awake_iff (hs : Awake s) (e : Event) : Awake (step h s e) ↔ KeepsAwake h s e := by
  cases e with
  | suspend wow a => exact suspend_awake_iff hs wow a
  | hostSleeps =>
    simp only [step, hostSleeps, KeepsAwake]
    split_ifs with hpm
    · -- the power goes
      unfold Awake
      cases hst : s.state <;> simp [halt, AwakeAt, hpm, hst]
    · exact iff_of_true hs fun hp => absurd hp hpm
  | resume a => exact resume_awake_iff hs a
  | rx a =>
    simp only [step, KeepsAwake]
    split_ifs with hw
    · exact resume_awake_iff hs a
    · exact iff_of_true hs fun hw' => absurd hw' hw
  | wowPattern => exact iff_of_true hs trivial
  | _ => exact iff_of_true (ifaceStep_awake hs _) trivial

theorem boot_awake (n : Nat) : Awake (boot n) := ⟨rfl, rfl⟩

/-- In every run the driver's state says after each step whether the target runs and whether it
thinks the host asleep, exactly if each step keeps that. -/
theorem state_told (h : Host) (n : Nat) (es : List Event) :
    (∀ u, u <+: es → Awake (run (step h) (boot n) u)) ↔
      AllSteps (step h) (KeepsAwake h) (boot n) es :=
  prefix_iff_allSteps (I := Awake) (fun _ => id) (fun _ e hs => (step_awake_iff hs e).mpr)
    (fun _ e hs => (step_awake_iff hs e).mp) (boot_awake n) es

end Awake

section Rest
variable {x : Slot}

/-- An interface without what has to do with its power mode or comes with a connection. -/
def Vif.rest (v : Vif) : Vif :=
  { v with
    apNetwork := false
    psStick := false
    lastPwrMode := .recPower
    savedPwrMode := .recPower
    asked := .recPower }

def Slot.rest (x : Slot) : Slot := { x with vif := x.vif.map Vif.rest, told := .recPower }

theorem rest_onVif {f : Vif → Vif} (hf : ∀ v, (f v).rest = v.rest) (x : Slot) :
    (x.onVif f).rest = x.rest := by
  cases hv : x.vif <;> simp [Slot.onVif, Slot.rest, hv, hf]

theorem powermodeCmd_rest (running : Bool) (m : PwrMode) (r : Sending) :
    (powermodeCmd running x m r).1.rest = x.rest := by
  have hlast : (x.onVif fun v => { v with lastPwrMode := m }).rest = x.rest :=
    rest_onVif (by exact fun _ => rfl) x
  unfold powermodeCmd
  cases r.given running with
  | noBuf => rfl
  | dropped => exact hlast
  | sent => exact hlast

theorem cfgStop_rest (running : Bool) (r : Sending) : (cfgStop running r x).rest = x.rest := by
  unfold cfgStop
  split_ifs
  · rfl
  · dsimp only
    rw [rest_onVif, powermodeCmd_rest, rest_onVif] <;> exact fun _ => rfl

theorem askMode_rest (running : Bool) (m : PwrMode) (r : Sending) :
    (askMode running m r x).1.rest = x.rest := by
  unfold askMode
  rw [powermodeCmd_rest, rest_onVif]
  exact fun _ => rfl

theorem setPowerMgmt_rest (running : Bool) (m : PwrMode) (r : Sending) :
    (setPowerMgmt running m r x).rest = x.rest := by
  unfold setPowerMgmt
  split
  · rfl
  · split_ifs
    · rfl
    · exact askMode_rest running m r

theorem p2pSetPs_rest (running : Bool) (m : PwrMode) (r : Sending) :
    (p2pSetPs running m r x).rest = x.rest := by
  unfold p2pSetPs
  split_ifs
  · rfl
  · exact askMode_rest running m r

theorem reconfigPs_rest (running stick : Bool) (m : PwrMode) (r : Sending) :
    (reconfigPs running stick m r x).rest = x.rest := by
  unfold reconfigPs
  split_ifs
  · rfl
  · rw [askMode_rest, rest_onVif]
    exact fun _ => rfl

theorem startAp_rest (running first : Bool) (r : Sending) (rest : Bool) :
    (startAp running first r rest x).rest = x.rest := by
  have hmode : (startApMode running first r x).1.rest = x.rest := by
    unfold startApMode
    split_ifs
    · exact askMode_rest running _ r
    · rfl
  unfold startAp
  split
  · rfl
  · dsimp only
    split_ifs
    · rw [rest_onVif, hmode]
      exact fun _ => rfl
    · exact hmode
    · rfl

theorem connect_rest : (connect x).rest = x.rest := by
  refine rest_onVif (fun v => ?_) x
  split_ifs <;> rfl

theorem wakeSlot_rest (running : Bool) (r : Sending) :
    (wakeSlot running r x).rest = (x.onVif wakeVif).rest := by
  unfold wakeSlot
  dsimp only
  split
  · rfl
  · split_ifs
    · exact powermodeCmd_rest ..
    · rfl

end Rest

section Slots
variable {s : Ar} {P : Slot → Prop}

theorem ifaceStep_forall_iff (h : ∀ x∈s.slots, P x) {e : Event} {i : Nat} {f : Slot → Slot}
    (he : slotStep s e = some (i, f)) :
    (∀ x∈(ifaceStep s e).slots, P x) ↔ ∀ x, s.slots[i]? = some x → P (f x) := by
  unfold ifaceStep
  rw [he]
  exact forall_modify_iff h i

theorem arpWrite_forall_iff (h : ∀ x∈s.slots, P x) (ip : Nat) (sent : Bool) :
    (∀ x∈(ifaceStep s (.arpWrite ip sent)).slots, P x) ↔
      ∀ i, s.order.head? = some i → ∀ x, s.slots[i]? = some x →
        P (arpWrite ip (sent && s.running) x) := by
  cases ho : s.order.head? with
  | none => simpa [ifaceStep, slotStep, ho] using h
  | some i =>
    have he : slotStep s (.arpWrite ip sent) = some (i, arpWrite ip (sent && s.running)) := by
      simp only [slotStep, ho, Option.map_some]
    rw [ifaceStep_forall_iff h he]
    simp

theorem forall_boot (hfirst : P { vif := some {} }) (hfree : P {}) (n : Nat) :
    ∀ x∈(boot n).slots, P x := by
  intro x hx
  rcases List.mem_cons.mp hx with rfl | hx
  · exact hfirst
  · rw [List.eq_of_mem_replicate hx]
    exact hfree

theorem ifaceStep_state (e : Event) : (ifaceStep s e).state = s.state := by
  unfold ifaceStep
  split <;> rfl

/-- `P` of the driver's interface, if there is one. -/
def Slot.Each (P : Vif → Prop) (x : Slot) : Prop := ∀ v, x.vif = some v → P v

theorem Slot.each_rest {P : Vif → Prop} (hP : ∀ v, P v.rest ↔ P v) {x y : Slot}
    (h : y.rest = x.rest) : y.Each P ↔ x.Each P := by
  have hvif : y.vif.map Vif.rest = x.vif.map Vif.rest := congrArg Slot.vif h
  unfold Slot.Each
  cases hx : x.vif with
  | none => cases hy : y.vif <;> simp_all
  | some v =>
    cases hy : y.vif with
    | none => simp_all
    | some w =>
      have hrest : w.rest = v.rest := by simpa [hx, hy] using hvif
      simp [← hP w, ← hP v, hrest]

theorem arpOffload_each {P : Vif → Prop} (hP : ∀ v ip, P { v with arpOffloadIp := ip } ↔ P v)
    (running : Bool) (r : Sending) (x : Slot) : (arpOffload running r x).Each P ↔ x.Each P := by
  unfold arpOffload
  split
  · rfl
  · rename_i v hv
    split
    · rfl
    · split_ifs
      · rfl
      · cases r.given running with
        | noBuf => rfl
        | dropped => simp [Slot.Each, hv, hP]
        | sent => simp [Slot.Each, hv, hP]

theorem Slot.each_onVif {P : Vif → Prop} {f : Vif → Vif} {x : Slot} :
    (x.onVif f).Each P ↔ x.Each fun v => P (f v) := by
  unfold Slot.Each Slot.onVif
  cases hx : x.vif <;> simp

end Slots

section Enabled
variable {h : Host} {s : Ar}

/-- An interface is enabled unless it was closed and not opened again; in deep sleep those that
sleep are not. -/
def EnabledAt (state : State) : Bool × Bool × Bool → Prop
  | (enabled, dormant, closed) =>
    if dormant then state = .deepsleep ∧ enabled = false else enabled = !closed

def Vif.mark (v : Vif) : Bool × Bool × Bool := (v.wlanEnabled, v.dormant, v.closed)

def Enabled (s : Ar) : Prop := ∀ x∈s.slots, x.Each fun v => EnabledAt s.state v.mark

/-- Deep sleep is left with no interface dormant but by the resume, and then with none of them
closed; none is opened that is dormant; a close finds a buffer for its command. -/
def KeepsEnabled (h : Host) (s : Ar) : Event → Prop
  | .suspend wow a =>
    match h.tried s wow a with
    | some .wow =>
      s.state = .deepsleep → Sleeps s a → ∀ x∈s.slots, x.Each fun v => v.dormant = false
    | some .cutpower => s.state = .deepsleep → ∀ x∈s.slots, x.Each fun v => v.dormant = false
    | _ => True
  | .resume _ =>
    s.state = .deepsleep → ∀ x∈s.slots, x.Each fun v => v.dormant → v.closed = false
  | .openDev i => ∀ x, s.slots[i]? = some x → x.Each fun v => v.dormant = false
  | .closeDev i r =>
    ∀ x, s.slots[i]? = some x → x.Each fun v => v.dormant = false → r ≠ .noBuf ∨ v.closed
  | _ => True

theorem ifaceStep_enabled_iff (hs : Enabled s) {e : Event} {i : Nat} {f : Slot → Slot}
    (he : slotStep s e = some (i, f)) :
    Enabled (ifaceStep s e) ↔
      ∀ x, s.slots[i]? = some x → (f x).Each fun v => EnabledAt s.state v.mark := by
  unfold Enabled
  rw [ifaceStep_state]
  exact ifaceStep_forall_iff hs he

theorem blind_enabled (hs : Enabled s) {e : Event} {i : Nat} {f : Slot → Slot}
    (he : slotStep s e = some (i, f)) (hf : ∀ x, (f x).rest = x.rest) :
    Enabled (ifaceStep s e) := by
  rw [ifaceStep_enabled_iff hs he]
  intro x hx
  exact (Slot.each_rest (fun _ => Iff.rfl) (hf x)).mpr (hs x (List.mem_of_getElem? hx))

theorem stopAll_enabled (state : State) (a : Answers) :
    (∀ x∈(stopAll s a).slots, x.Each fun v => EnabledAt state v.mark) ↔
      ∀ x∈s.slots, x.Each fun v => EnabledAt state v.mark :=
  forall_mapIdx_congr fun _ _ _ => Slot.each_rest (fun _ => Iff.rfl) (cfgStop_rest ..)

theorem arpOffloadAll_enabled (state : State) (a : Answers) :
    (∀ x∈(arpOffloadAll s a).slots, x.Each fun v => EnabledAt state v.mark) ↔
      ∀ x∈s.slots, x.Each fun v => EnabledAt state v.mark :=
  forall_mapIdx_congr fun _ x _ => arpOffload_each (fun _ _ => Iff.rfl) _ _ x

theorem leaves_iff (hs : Enabled s) {state : State} (hne : state ≠ .deepsleep) :
    (∀ x∈s.slots, x.Each fun v => EnabledAt state v.mark) ↔
      (s.state = .deepsleep → ∀ x∈s.slots, x.Each fun v => v.dormant = false) := by
  constructor
  · intro hst _ x hx v hv
    have hv' := hst x hx v hv
    cases hd : v.dormant with
    | false => rfl
    | true => simp [EnabledAt, Vif.mark, hd, hne] at hv'
  · intro hdor x hx v hv
    have hv' := hs x hx v hv
    cases hd : v.dormant with
    | false => simpa [EnabledAt, Vif.mark, hd] using hv'
    | true =>
      have hdeep : s.state = .deepsleep := by
        simp only [EnabledAt, Vif.mark, hd, if_true] at hv'
        exact hv'.1
      have hno := hdor hdeep x hx v hv
      simp [hno] at hd

theorem suspend_enabled_iff (hs : Enabled s) (wow : Bool) (a : Answers) :
    Enabled (sdioSuspend h s wow a) ↔ KeepsEnabled h s (.suspend wow a) := by
  obtain ⟨s', hsus, he⟩ := sdioSuspend_suspended (s := s) (a := a) h wow
  have hpm : Enabled (sdioSuspend h s wow a) ↔ Enabled s' := by rw [he]; rfl
  rw [hpm]
  simp only [KeepsEnabled]
  revert hsus
  generalize h.tried s wow a = tried
  intro hsus
  cases hsus with
  | ended => exact iff_of_true hs trivial
  | slept hw => exact iff_of_true hs fun hd => by simp [hw] at hd
  | unready hw hr =>
    have hno := not_sleeps (a := a) hw fun hsay => hr ⟨hsay.1.2.1, hsay.1.2.2.1⟩
    exact iff_of_true hs fun _ hsl => absurd hsl hno
  | unsaid hw hr hno =>
    have hno' := not_sleeps (a := a) hw fun hsay => hno hsay.1.2.2.2
    exact iff_of_true ((arpOffloadAll_enabled s.state a).mpr hs) fun _ hsl => absurd hsl hno'
  | late hsay hl =>
    have hno' := not_sleeps (a := a) hsay.1 fun hsay => hl hsay.2
    exact iff_of_true ((arpOffloadAll_enabled s.state a).mpr hs) fun _ hsl => absurd hsl hno'
  | asleep hsay hl =>
    have hsl : Sleeps s a := Or.inr ⟨hsay, hl⟩
    have hleave := (arpOffloadAll_enabled .wow a).trans (leaves_iff hs (by decide))
    exact hleave.trans ⟨fun hd hdeep _ => hd hdeep, fun hd hdeep => hd hdeep hsl⟩
  | deep hd => exact iff_of_true hs trivial
  | unfit hd hn => exact iff_of_true hs trivial
  | deepens hd hn =>
    refine iff_of_true ?_ trivial
    have hdim : ∀ x∈s.slots.map (Slot.onVif dim), x.Each fun v => EnabledAt .deepsleep v.mark := by
      intro y hy
      obtain ⟨x, -, rfl⟩ := List.mem_map.mp hy
      exact Slot.each_onVif.mpr fun _ _ => ⟨rfl, rfl⟩
    simp only [deepsleepSuspend, hn, if_true]
    exact (stopAll_enabled .deepsleep a).mpr hdim
  | offStays hoff => 
    exact iff_of_true ((stopAll_enabled s.state a).mpr hs) fun hd => by simp [hoff] at hd
  | cut hoff => 
    have hhalt : Enabled { halt (stopAll s a) with state := .cutpower } ↔
        ∀ x∈(stopAll s a).slots, x.Each fun v => EnabledAt .cutpower v.mark :=
      List.forall_mem_map
    exact hhalt.trans ((stopAll_enabled .cutpower a).trans (leaves_iff hs (by decide)))

theorem halt_enabled (hs : Enabled s) : Enabled (halt s) :=
  List.forall_mem_map.mpr hs

theorem resume_enabled_iff (hs : Enabled s) (a : Answers) :
    Enabled (cfgResume s a) ↔
      (s.state = .deepsleep → ∀ x∈s.slots, x.Each fun v => v.dormant → v.closed = false) := by
  have hon : State.on ≠ .deepsleep := by decide
  have hstay : s.state ≠ .deepsleep → Enabled { s with state := .on } := fun hne =>
    (leaves_iff hs hon).mpr fun hd => absurd hd hne
  unfold cfgResume
  cases hst : s.state with
  | deepsleep =>
    simp only [forall_const]
    refine forall_mapIdx_congr fun i x hx => ?_
    rw [Slot.each_rest (fun _ => Iff.rfl) (wakeSlot_rest ..), Slot.each_onVif]
    refine forall₂_congr fun v hv => ?_
    have hv' := hs x hx v hv
    rw [hst] at hv'
    cases hd : v.dormant <;> simp_all [EnabledAt, Vif.mark, wakeVif]
  | wow => exact iff_of_true (hstay (by simp [hst])) (by simp)
  | cutpower =>
    refine iff_of_true ?_ (by simp)
    dsimp only
    split_ifs
    · exact hstay (by simp [hst])
    · exact hs
  | on => exact iff_of_true hs (by simp)
  | off => exact iff_of_true hs (by simp)

theorem step_enabled_iff (hs : Enabled s) (e : Event) :
    Enabled (step h s e) ↔ KeepsEnabled h s e := by
  cases e with
  | suspend wow a => exact suspend_enabled_iff hs wow a
  | hostSleeps =>
    refine iff_of_true ?_ trivial
    simp only [step, hostSleeps]
    split_ifs
    · exact halt_enabled hs
    · exact hs
  | resume a => exact resume_enabled_iff hs a
  | rx a =>
    refine iff_of_true ?_ trivial
    simp only [step]
    split_ifs with hw
    · exact (resume_enabled_iff hs a).mpr fun hd => by simp [hw] at hd
    · exact hs
  | wowPattern => exact iff_of_true hs trivial
  | openDev i =>
    refine (ifaceStep_enabled_iff hs rfl).trans (forall₂_congr fun x hx => ?_)
    rw [Slot.each_onVif]
    have hx' := hs x (List.mem_of_getElem? hx)
    refine forall₂_congr fun v hv => ?_
    have hv' := hx' v hv
    cases hd : v.dormant <;> simp_all [EnabledAt, Vif.mark]
  | closeDev i r =>
    refine (ifaceStep_enabled_iff hs rfl).trans (forall₂_congr fun x hx => ?_)
    rw [Slot.each_onVif]
    have hx' := hs x (List.mem_of_getElem? hx)
    refine forall₂_congr fun v hv => ?_
    have hv' := hx' v hv
    cases hd : v.dormant <;> cases r <;> simp_all [EnabledAt, Vif.mark]
  | disconnectEvent i =>
    refine iff_of_true ((ifaceStep_enabled_iff hs rfl).mpr fun x hx => ?_) trivial
    exact Slot.each_onVif.mpr (hs x (List.mem_of_getElem? hx))
  | addIface i ap =>
    refine iff_of_true ((ifaceStep_enabled_iff hs rfl).mpr fun x hx => ?_) trivial
    split_ifs
    · rintro v ⟨⟩
      rfl
    · exact hs x (List.mem_of_getElem? hx)
  | delIface i =>
    exact iff_of_true ((ifaceStep_enabled_iff hs rfl).mpr fun x _ v hv => by simp at hv) trivial
  | startAp i r rest => exact iff_of_true (blind_enabled hs rfl fun x => startAp_rest ..) trivial
  | connect i => exact iff_of_true (blind_enabled hs rfl fun x => connect_rest) trivial
  | setPowerMgmt i m r =>
    exact iff_of_true (blind_enabled hs rfl fun x => setPowerMgmt_rest ..) trivial
  | p2pSetPs i m r => exact iff_of_true (blind_enabled hs rfl fun x => p2pSetPs_rest ..) trivial
  | reconfigPs i stick m r =>
    exact iff_of_true (blind_enabled hs rfl fun x => reconfigPs_rest ..) trivial
  | address i d =>
    refine iff_of_true ((ifaceStep_enabled_iff hs rfl).mpr fun x hx => ?_) trivial
    exact Slot.each_onVif.mpr (hs x (List.mem_of_getElem? hx))
  | arpWrite ip sent =>
    refine iff_of_true ?_ trivial
    change ∀ x∈(ifaceStep s (.arpWrite ip sent)).slots,
      x.Each fun v => EnabledAt (ifaceStep s (.arpWrite ip sent)).state v.mark
    rw [ifaceStep_state, arpWrite_forall_iff hs]
    intro i _ x hx
    have hx' := hs x (List.mem_of_getElem? hx)
    unfold arpWrite
    split_ifs <;> exact hx'

theorem boot_enabled (n : Nat) : Enabled (boot n) := by
  refine forall_boot (fun v hv => ?_) (fun v hv => ?_) n
  · obtain rfl : ({} : Vif) = v := Option.some.inj hv
    rfl
  · simp at hv

/-- In every run an interface is enabled after each step unless it was closed and not opened again,
or sleeps with the device, exactly if each step keeps that. -/
theorem enabled_unless_closed (h : Host) (n : Nat) (es : List Event) :
    (∀ u, u <+: es → Enabled (run (step h) (boot n) u)) ↔
      AllSteps (step h) (KeepsEnabled h) (boot n) es :=
  prefix_iff_allSteps (I := Enabled) (fun _ => id) (fun _ e hs => (step_enabled_iff hs e).mpr)
    (fun _ e hs => (step_enabled_iff hs e).mp) (boot_enabled n) es

/-- An interface that is closed while the device sleeps is enabled when it wakes. -/
example :
    ((run (step ⟨true, false, false⟩) (boot 0)
      [.closeDev 0 .sent, .suspend false fine, .resume fine]).slots.map fun x =>
        x.vif.map Vif.mark) = [some (true, false, true)] := by
  decide

end Enabled
end Ath6kl.PowerStates
