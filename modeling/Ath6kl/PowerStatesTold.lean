import Ath6kl.PowerStatesAwake

/-! What the target was told of an interface, against what the driver keeps and its users ask for:
the address that the target answers ARP for and the power mode. -/
namespace Ath6kl.PowerStates
open Lib.Machine

section Arp
variable {h : Host} {s : Ar} {a : Answers}

/-- `arp_offload_ip` is the address that the target has. -/
def Slot.Arp (x : Slot) : Prop := x.Each fun v => v.arpOffloadIp = x.toldIp

def ArpKnown (s : Ar) : Prop := ∀ x∈s.slots, x.Arp

/-- `ath6kl_wow_suspend` comes to the loop that sets the addresses. -/
def SetsAddresses (s : Ar) (a : Answers) : Prop := s.state ≠ .wow ∧ s.firstReady ∧ a.wowConfig

/-- A command that sets another address than before is not dropped. -/
def FitArp (r : Sending) (v : Vif) : Prop :=
  ∀ ip, v.inDev = some ip → v.arpOffloadIp ≠ ip → r ≠ .dropped

/-- The power goes only while no address is set, no command that sets an address is dropped, nobody
sets another address behind the driver's back, and a new interface finds none. -/
def KeepsArp (h : Host) (s : Ar) : Event → Prop
  | .suspend wow a =>
    match h.tried s wow a with
    | some .wow =>
      SetsAddresses s a → ∀ i, ∀ x : Slot, s.slots[i]? = some x →
        x.Each (FitArp ((a.arp i).given s.running))
    | some .cutpower => s.state ≠ .off → ∀ x∈s.slots, x.Each fun v => v.arpOffloadIp = 0
    | _ => True
  | .hostSleeps => s.pm = some false → ∀ x∈s.slots, x.Each fun v => v.arpOffloadIp = 0
  | .addIface i _ => ∀ x, s.slots[i]? = some x → x.vif = none → x.toldIp = 0
  | .arpWrite ip sent =>
    ∀ i, s.order.head? = some i → ∀ x, s.slots[i]? = some x →
      sent → s.running → x.Each fun _ => x.toldIp = ip
  | _ => True

theorem arp_rest {x y : Slot} (hr : y.rest = x.rest) : y.Arp ↔ x.Arp := by
  have hip : y.rest.toldIp = x.rest.toldIp := congrArg Slot.toldIp hr
  change y.toldIp = x.toldIp at hip
  unfold Slot.Arp
  rw [hip]
  exact Slot.each_rest (fun _ => Iff.rfl) hr

theorem arpOffload_arp_iff {x : Slot} (hx : x.Arp) (running : Bool) (r : Sending) :
    (arpOffload running r x).Arp ↔ x.Each (FitArp (r.given running)) := by
  unfold arpOffload
  split
  · rename_i hv
    exact iff_of_true hx fun v hv' => by simp [hv] at hv'
  rename_i v hv
  have hknown : v.arpOffloadIp = x.toldIp := hx v hv
  have honly : x.Each (FitArp (r.given running)) ↔ FitArp (r.given running) v := by
    simp [Slot.Each, hv]
  rw [honly]
  split
  · rename_i hin
    exact iff_of_true hx fun ip hip => by simp [hin] at hip
  rename_i own hown
  split_ifs with hsame
  · refine iff_of_true hx fun ip hip hne => absurd hsame ?_
    obtain rfl : own = ip := by simpa [hown] using hip
    exact hne
  · cases r.given running with
    | noBuf => exact iff_of_true hx fun _ _ _ => by decide
    | dropped =>
      refine iff_of_false (fun hy => hsame ?_) fun hfit => hfit own hown hsame rfl
      exact hknown.trans (hy _ rfl).symm
    | sent =>
      refine iff_of_true ?_ fun _ _ _ => by decide
      rintro w ⟨⟩
      rfl

theorem arpOffloadAll_arp_iff (hs : ArpKnown s) (a : Answers) :
    ArpKnown (arpOffloadAll s a) ↔ ∀ i, ∀ x : Slot, s.slots[i]? = some x →
      x.Each (FitArp ((a.arp i).given s.running)) :=
  forall_mapIdx_iff.trans (forall₃_congr fun i x hx =>
    arpOffload_arp_iff (hs x (List.mem_of_getElem? hx)) s.running (a.arp i))

theorem stopAll_arp (hs : ArpKnown s) (a : Answers) : ArpKnown (stopAll s a) :=
  (forall_mapIdx_congr (P := Slot.Arp) fun _ _ _ => arp_rest (cfgStop_rest ..)).mpr hs

theorem halt_arp_iff : ArpKnown (halt s) ↔ ∀ x∈s.slots, x.Each fun v => v.arpOffloadIp = 0 :=
  List.forall_mem_map

theorem suspend_arp_iff (hs : ArpKnown s) (wow : Bool) (a : Answers) :
    ArpKnown (sdioSuspend h s wow a) ↔ KeepsArp h s (.suspend wow a) := by
  obtain ⟨s', hsus, he⟩ := sdioSuspend_suspended (s := s) (a := a) h wow
  have hpm : ArpKnown (sdioSuspend h s wow a) ↔ ArpKnown s' := by rw [he]; rfl
  rw [hpm]
  simp only [KeepsArp]
  revert hsus
  generalize h.tried s wow a = tried
  intro hsus
  have harp := arpOffloadAll_arp_iff hs a
  cases hsus with
  | ended => exact iff_of_true hs trivial
  | slept hw => exact iff_of_true hs fun hset => absurd hw hset.1
  | unready hw hr => exact iff_of_true hs fun hset => absurd hset.2 hr
  | unsaid hw hr hno => exact harp.trans ⟨fun hk _ => hk, fun hk => hk ⟨hw, hr⟩⟩
  | late hsay hl => exact harp.trans ⟨fun hk _ => hk, fun hk => hk ⟨hsay.1, hsay.2.1, hsay.2.2.1⟩⟩
  | asleep hsay hl => exact harp.trans ⟨fun hk _ => hk, fun hk => hk ⟨hsay.1, hsay.2.1, hsay.2.2.1⟩⟩
  | deep hd => exact iff_of_true hs trivial
  | unfit hd hn => exact iff_of_true hs trivial
  | deepens hd hn =>
    refine iff_of_true ?_ trivial
    simp only [deepsleepSuspend, hn, if_true]
    refine stopAll_arp (fun y hy => ?_) a
    obtain ⟨x, hx, rfl⟩ := List.mem_map.mp hy
    exact Slot.each_onVif.mpr (hs x hx)
  | offStays hoff => exact iff_of_true (stopAll_arp hs a) fun hne => absurd hoff hne
  | cut hoff =>
    have hcut : ArpKnown { halt (stopAll s a) with state := .cutpower } ↔
        ∀ x∈s.slots, x.Each fun v => v.arpOffloadIp = 0 :=
      halt_arp_iff.trans
        (forall_mapIdx_congr fun _ _ _ => Slot.each_rest (fun _ => Iff.rfl) (cfgStop_rest ..))
    rw [hcut]
    exact ⟨fun hz _ => hz, fun hz => hz hoff⟩

theorem resume_arp (hs : ArpKnown s) (a : Answers) : ArpKnown (cfgResume s a) := by
  unfold cfgResume
  cases s.state with
  | deepsleep =>
    refine (forall_mapIdx_congr fun i x hx => ?_).mpr hs
    rw [arp_rest (wakeSlot_rest ..)]
    refine Slot.each_onVif.trans (forall₂_congr fun v _ => ?_)
    have hip : (wakeVif v).arpOffloadIp = v.arpOffloadIp := by
      unfold wakeVif
      split_ifs <;> rfl
    exact iff_of_eq (congrArg (· = x.toldIp) hip)
  | wow => exact hs
  | cutpower =>
    dsimp only
    split_ifs <;> exact hs
  | on => exact hs
  | off => exact hs

theorem blind_arp (hs : ArpKnown s) {e : Event} {i : Nat} {f : Slot → Slot}
    (he : slotStep s e = some (i, f)) (hf : ∀ x, (f x).rest = x.rest) : ArpKnown (ifaceStep s e) :=
  (ifaceStep_forall_iff hs he).mpr fun x hx =>
    (arp_rest (hf x)).mpr (hs x (List.mem_of_getElem? hx))

theorem onVif_arp (hs : ArpKnown s) {e : Event} {i : Nat} {f : Vif → Vif}
    (he : slotStep s e = some (i, Slot.onVif f)) (hf : ∀ v, (f v).arpOffloadIp = v.arpOffloadIp) :
    ArpKnown (ifaceStep s e) := by
  refine (ifaceStep_forall_iff hs he).mpr fun x hx => Slot.each_onVif.mpr fun v hv => ?_
  exact (hf v).trans (hs x (List.mem_of_getElem? hx) v hv)

theorem step_arp_iff (hs : ArpKnown s) (e : Event) : ArpKnown (step h s e) ↔ KeepsArp h s e := by
  cases e with
  | suspend wow a => exact suspend_arp_iff hs wow a
  | hostSleeps =>
    simp only [step, hostSleeps, KeepsArp]
    split_ifs with hpm
    · simpa [hpm] using halt_arp_iff
    · exact iff_of_true hs fun hp => absurd hp hpm
  | resume a => exact iff_of_true (resume_arp hs a) trivial
  | rx a =>
    refine iff_of_true ?_ trivial
    simp only [step]
    split_ifs
    · exact resume_arp hs a
    · exact hs
  | wowPattern => exact iff_of_true hs trivial
  | openDev i => exact iff_of_true (onVif_arp hs rfl fun _ => rfl) trivial
  | closeDev i r => exact iff_of_true (onVif_arp hs rfl fun _ => rfl) trivial
  | disconnectEvent i => exact iff_of_true (onVif_arp hs rfl fun _ => rfl) trivial
  | addIface i ap =>
    refine (ifaceStep_forall_iff hs rfl).trans (forall₂_congr fun x hx => ?_)
    have hx' := hs x (List.mem_of_getElem? hx)
    cases hv : x.vif with
    | none => simp [Slot.Arp, Slot.Each, eq_comm]
    | some v => exact iff_of_true (by simpa [hv] using hx') (by simp)
  | delIface i =>
    exact iff_of_true ((ifaceStep_forall_iff hs rfl).mpr fun x _ v hv => by simp at hv) trivial
  | startAp i r rest => exact iff_of_true (blind_arp hs rfl fun _ => startAp_rest ..) trivial
  | connect i => exact iff_of_true (blind_arp hs rfl fun _ => connect_rest) trivial
  | setPowerMgmt i m r =>
    exact iff_of_true (blind_arp hs rfl fun _ => setPowerMgmt_rest ..) trivial
  | p2pSetPs i m r => exact iff_of_true (blind_arp hs rfl fun _ => p2pSetPs_rest ..) trivial
  | reconfigPs i stick m r =>
    exact iff_of_true (blind_arp hs rfl fun _ => reconfigPs_rest ..) trivial
  | address i d => exact iff_of_true (onVif_arp hs rfl fun _ => rfl) trivial
  | arpWrite ip sent =>
    refine (arpWrite_forall_iff hs ip sent).trans ?_
    refine forall₂_congr fun i _ => forall₂_congr fun x hx => ?_
    have hx' := hs x (List.mem_of_getElem? hx)
    unfold arpWrite
    split_ifs with hsent
    · obtain ⟨-, hsent⟩ := hsent
      have hboth : sent ∧ s.running := by simpa using hsent
      refine ⟨fun hip _ _ v hv => (hx' v hv).symm.trans (hip v hv), fun hk v hv => ?_⟩
      exact (hx' v hv).trans (hk hboth.1 hboth.2 v hv)
    · refine iff_of_true hx' fun hse hrun v hv => absurd ?_ hsent
      simp [hv, hse, hrun]

theorem arpOffload_told {x : Slot} (hx : x.Arp) :
    (arpOffload true .sent x).Each fun v =>
      ∀ ip, v.inDev = some ip → (arpOffload true .sent x).toldIp = ip := by
  intro w hw ip hip
  unfold arpOffload at hw ⊢
  split at hw
  · simp_all
  · rename_i v hv
    split at hw
    · simp_all
    · rename_i own hown
      have hknown := hx v hv
      split_ifs at hw with hsame
      · simp_all
      · obtain rfl := Option.some.inj hw
        simp_all [Sending.given]

theorem boot_arp (n : Nat) : ArpKnown (boot n) := by
  refine forall_boot (fun v hv => ?_) (fun v hv => ?_) n
  · obtain rfl : ({} : Vif) = v := Option.some.inj hv
    rfl
  · simp at hv

theorem suspend_told (hs : ArpKnown s) {wow : Bool} (ht : h.tried s wow a = some .wow)
    (hsay : SaysAsleep s a) (harp : ∀ i, a.arp i = .sent) :
    ∀ x∈(sdioSuspend h s wow a).slots, x.Each fun v => ∀ ip, v.inDev = some ip → x.toldIp = ip := by
  have hall : ∀ x∈(arpOffloadAll s a).slots,
      x.Each fun v => ∀ ip, v.inDev = some ip → x.toldIp = ip := by
    intro y hy
    obtain ⟨i, hi, rfl⟩ := List.mem_mapIdx.mp hy
    rw [harp i, hsay.2.2.2.2]
    exact arpOffload_told (hs _ (List.getElem_mem hi))
  obtain ⟨s', hsus, he⟩ := sdioSuspend_suspended (s := s) (a := a) h wow
  rw [he]
  rw [ht] at hsus
  cases hsus with
  | slept hw => exact absurd hw hsay.1
  | unready hw hr => exact absurd ⟨hsay.2.1, hsay.2.2.1⟩ hr
  | unsaid hw hr hno => exact absurd hsay.2.2.2 hno
  | late _ hl => exact hall
  | asleep _ hl => exact hall

/-- In every run the driver's record of each address is what the target has, after each step,
exactly if each step keeps that; where it is, a suspend whose commands get through to the target
leaves it answering for the own address of each interface. -/
theorem arp_told (h : Host) (n : Nat) (es : List Event) :
    ((∀ u, u <+: es → ArpKnown (run (step h) (boot n) u)) ↔
      AllSteps (step h) (KeepsArp h) (boot n) es) ∧
    (AllSteps (step h) (KeepsArp h) (boot n) es →
      ∀ wow a, h.tried (run (step h) (boot n) es) wow a = some .wow →
        SaysAsleep (run (step h) (boot n) es) a → (∀ i, a.arp i = .sent) →
        ∀ x∈(run (step h) (boot n) (es ++ [.suspend wow a])).slots,
          x.Each fun v => ∀ ip, v.inDev = some ip → x.toldIp = ip) := by
  have hiff := prefix_iff_allSteps (I := ArpKnown) (fun _ => id)
    (fun _ e hs => (step_arp_iff (h := h) hs e).mpr) (fun _ e hs => (step_arp_iff hs e).mp)
    (boot_arp n) es
  refine ⟨hiff, fun hk wow a ht hsay harp => ?_⟩
  rw [run_append]
  exact suspend_told (hiff.mpr hk es (List.prefix_refl es)) ht hsay harp

/-- An address that the interface gets is the target's after the next suspend. -/
theorem arp_told_address :
    ∀ x∈(run (step ⟨true, true, false⟩) (boot 0)
        ([.address 0 (some 5)] ++ [.suspend true fine])).slots,
      x.Each fun v => ∀ ip, v.inDev = some ip → x.toldIp = ip := by
  refine (arp_told ⟨true, true, false⟩ 0 [.address 0 (some 5)]).2 ⟨trivial, trivial⟩ true fine
    (by decide) ?_ fun _ => rfl
  exact ⟨by decide, by decide, by decide, by decide, by decide⟩

end Arp

section Modes
variable {h : Host} {s : Ar} {a : Answers}

/-- The target runs an interface in the mode that was asked for; in deep sleep the resume will set
that mode, and without power all modes asked for are those a target starts with. -/
def ModeAt (state : State) (told : PwrMode) (v : Vif) : Prop :=
  match state with
  | .on => v.lastPwrMode = v.asked ∧ told = v.asked
  | .wow => v.lastPwrMode = v.asked ∧ told = v.asked
  | .deepsleep =>
    v.savedPwrMode = v.asked ∧ (v.lastPwrMode = v.savedPwrMode → told = v.savedPwrMode)
  | .off => v.lastPwrMode = .recPower ∧ v.asked = .recPower ∧ told = .recPower
  | .cutpower => v.lastPwrMode = .recPower ∧ v.asked = .recPower ∧ told = .recPower

def Slot.Mode (state : State) (x : Slot) : Prop := x.Each (ModeAt state x.told)

/-- A host that cuts the power: the interface saves power again, which nobody asked for. -/
example :
    ((run (step ⟨false, false, false⟩) (boot 0)
      [.setPowerMgmt 0 .maxPerfPower .sent, .suspend false fine, .resume fine]).slots.map fun x =>
        (x.told, x.vif.map Vif.asked)) = [(.recPower, some .maxPerfPower)] := by
  decide

end Modes
end Ath6kl.PowerStates
