import Mathlib.Data.List.Basic

/-! How the driver goes to sleep with its host and wakes (`cfg80211.c`, `sdio.c`, `main.c`), over
SDIO and without Android's, the USB driver's or `CE_SUPPORT`'s own power management, once the
driver has started (`WMI_READY`). For each interface that the target has, the state says beside
the driver's fields what the target was told of it last. Whatever HTC, the target and the SDIO
core answer comes with the event. -/
namespace Ath6kl.PowerStates

/-- `enum ath6kl_state`, without the two states of `USB_AUTO_SUSPEND`. -/
inductive State where
  | off
  | on
  | deepsleep
  | cutpower
  | wow
  deriving DecidableEq

/-- `REC_POWER` and `MAX_PERF_POWER`. -/
inductive PwrMode where
  | recPower
  | maxPerfPower
  deriving DecidableEq

/-- What becomes of a command: there is no buffer for it and the caller hears so,
`ath6kl_control_tx` or HTC drops it and the caller does not (`ath6kl_wmi_cmd_send` returns 0 then),
or the target has it. -/
inductive Sending where
  | noBuf
  | dropped
  | sent
  deriving DecidableEq

/-- A target that does not run takes no command. -/
def Sending.given (running : Bool) (r : Sending) : Sending :=
  if r = .sent ∧ running = false then .dropped else r

/-- The fields of `struct ath6kl_vif` that count. `inDev` is the interface's `in_device` with its
first address, 0 for none. `closed` says that `ath6kl_close` ran last, not `ath6kl_open`, and
`asked` is the power mode that somebody other than `ath6kl_cfg80211_stop` or the resume last set out
to set, whatever became of the command. -/
structure Vif where
  apNetwork : Bool := false
  wlanEnabled : Bool := true
  dormant : Bool := false
  psStick : Bool := false
  lastPwrMode : PwrMode := .recPower
  savedPwrMode : PwrMode := .recPower
  arpOffloadIp : Nat := 0
  inDev : Option Nat := some 0
  closed : Bool := false
  asked : PwrMode := .recPower
  deriving DecidableEq

/-- An interface of the target (`fw_vif_idx`): the driver's interface on it, the power mode and
the address to answer ARP for. -/
structure Slot where
  vif : Option Vif := none
  told : PwrMode := .recPower
  toldIp : Nat := 0
  deriving DecidableEq

/-- `order` is `vif_list`. `pm` is what the SDIO core goes by once the suspend has succeeded:
whether `MMC_PM_KEEP_POWER` is set. -/
structure Ar where
  state : State := .on
  slots : List Slot
  order : List Nat := [0]
  getWowPattern : Bool := false
  pm : Option Bool := none
  running : Bool := true
  asleep : Bool := false
  deriving DecidableEq

/-- The capabilities of the SDIO host (`MMC_PM_KEEP_POWER`, `MMC_PM_WAKE_SDIO_IRQ`) and
`ATH6KL_CONF_SUSPEND_CUTPOWER`. -/
structure Host where
  keepPower : Bool
  wakeIrq : Bool
  cutPower : Bool

/-- `wowConfig` is what all commands that set patterns and filter up return. `hostSleep` and `awake`
say that the target has the command: to one that is dropped no event answers, and the suspend
fails. `processed` and `drained` say that this event came and the control endpoint emptied in
time. -/
structure Answers where
  pmFlags : Bool
  wakeFlag : Bool
  wowConfig : Bool
  arp : Nat → Sending
  hostSleep : Bool
  processed : Bool
  drained : Bool
  awake : Bool
  powerMode : Nat → Sending
  hwStart : Bool

def fine : Answers :=
  ⟨true, true, true, fun _ => .sent, true, true, true, true, fun _ => .sent, true⟩

def Slot.onVif (f : Vif → Vif) (x : Slot) : Slot := { x with vif := x.vif.map f }

/-- `ath6kl_wmi_powermode_cmd` -/
def powermodeCmd (running : Bool) (x : Slot) (m : PwrMode) (r : Sending) : Slot × Bool :=
  match r.given running with
  | .noBuf => (x, false)
  | .dropped => (x.onVif fun v => { v with lastPwrMode := m }, true)
  | .sent => ({ x.onVif (fun v => { v with lastPwrMode := m }) with told := m }, true)

/-- `ath6kl_cfg80211_stop`, as far as power goes -/
def cfgStop (running : Bool) (r : Sending) (x : Slot) : Slot :=
  if x.vif.isNone then x
  else
    let y := x.onVif fun v => { v with savedPwrMode := v.lastPwrMode }
    (powermodeCmd running y .recPower r).1.onVif fun v => { v with psStick := false }

/-- `ath6kl_cfg80211_stop_all` -/
def stopAll (s : Ar) (a : Answers) : Ar :=
  { s with slots := s.slots.mapIdx fun i => cfgStop s.running (a.powerMode i) }

/-- The target without power, or stopped: once it starts again it knows nothing of before. -/
def halt (s : Ar) : Ar :=
  { s with
    running := false
    asleep := false
    slots := s.slots.map fun x => { x with told := .recPower, toldIp := 0 } }

def Ar.vifs (s : Ar) : List Vif := s.slots.filterMap Slot.vif

/-- `ath6kl_get_vif_by_index` -/
def Ar.vif? (s : Ar) (i : Nat) : Option Vif := s.slots[i]?.bind Slot.vif

/-- `ath6kl_vif_first` with `ath6kl_cfg80211_ready` -/
def Ar.firstReady (s : Ar) : Bool :=
  (s.order.head?.bind s.vif?).any Vif.wlanEnabled

/-- `ath6kl_cfg80211_need_suspend` -/
def needSuspend (s : Ar) : Bool :=
  !s.order.isEmpty && s.vifs.all fun v => !v.apNetwork

def dim (v : Vif) : Vif := { v with wlanEnabled := false, dormant := true }

/-- `ath6kl_cfg80211_deepsleep_suspend` -/
def deepsleepSuspend (s : Ar) (a : Answers) : Ar × Bool :=
  if needSuspend s then
    (stopAll { s with slots := s.slots.map (Slot.onVif dim), state := .deepsleep } a, a.drained)
  else (s, false)

/-- The turn of the loop of `ath6kl_wow_suspend` that sets the own address up for ARP. -/
def arpOffload (running : Bool) (r : Sending) (x : Slot) : Slot :=
  match x.vif with
  | none => x
  | some v =>
    match v.inDev with
    | none => x
    | some ip =>
      if v.arpOffloadIp = ip then x
      else
        match r.given running with
        | .noBuf => x
        -- the address counts as set
        | .dropped => { x with vif := some { v with arpOffloadIp := ip } }
        | .sent => { x with vif := some { v with arpOffloadIp := ip }, toldIp := ip }

def arpOffloadAll (s : Ar) (a : Answers) : Ar :=
  { s with slots := s.slots.mapIdx fun i => arpOffload s.running (a.arp i) }

/-- `ath6kl_wow_suspend` -/
def wowSuspend (s : Ar) (a : Answers) : Ar × Bool :=
  if s.state = .wow then (s, true)
  else if s.firstReady ∧ a.wowConfig then
    let s' := arpOffloadAll s a
    if a.hostSleep ∧ s.running then ({ s' with asleep := true }, a.processed && a.drained)
    else (s', false)
  else (s, false)

/-- `enum ath6kl_cfg_suspend_mode` -/
inductive Mode where
  | deepsleep
  | cutpower
  | wow
  deriving DecidableEq

/-- The mode that `ath6kl_cfg80211_suspend` makes of the one it is given. -/
def cfgMode (s : Ar) (mode : Mode) : Mode :=
  if needSuspend s ∧ s.getWowPattern then .wow else mode

/-- `ath6kl_cfg80211_suspend` -/
def cfgSuspend (s : Ar) (mode : Mode) (a : Answers) : Ar × Bool :=
  match cfgMode s mode with
  | .wow =>
    let r := wowSuspend s a
    if r.2 then ({ r.1 with state := .wow }, true) else r
  | .deepsleep => if s.state = .deepsleep then (s, true) else deepsleepSuspend s a
  | .cutpower =>
    let s' := stopAll s a
    if s.state = .off then (s', true) else ({ halt s' with state := .cutpower }, true)

/-- The mode that `ath6kl_sdio_suspend` chooses; `wow` says that triggers are set. -/
def Host.mode (h : Host) (wow : Bool) : Mode :=
  if h.keepPower = false ∨ h.cutPower then .cutpower
  else if h.wakeIrq ∧ wow then .wow
  else .deepsleep

/-- `ath6kl_sdio_suspend` -/
def sdioSuspend (h : Host) (s : Ar) (wow : Bool) (a : Answers) : Ar :=
  match h.mode wow with
  | .cutpower =>
    let r := cfgSuspend s .cutpower a
    { r.1 with pm := if r.2 then some false else none }
  | .wow =>
    if a.pmFlags then
      let r := cfgSuspend s .wow a
      { r.1 with pm := if r.2 ∧ a.wakeFlag then some true else none }
    else { s with pm := none }
  | .deepsleep =>
    if a.pmFlags then
      let r := cfgSuspend s .deepsleep a
      { r.1 with pm := if r.2 then some true else none }
    else { s with pm := none }

def wakeVif (v : Vif) : Vif :=
  if v.dormant then { v with wlanEnabled := true, dormant := false } else v

/-- The turn of the loop of `ath6kl_cfg80211_resume` after deep sleep. -/
def wakeSlot (running : Bool) (r : Sending) (x : Slot) : Slot :=
  let y := x.onVif wakeVif
  match y.vif with
  | none => y
  | some v =>
    if v.lastPwrMode ≠ v.savedPwrMode then (powermodeCmd running y v.savedPwrMode r).1 else y

/-- `ath6kl_cfg80211_resume` -/
def cfgResume (s : Ar) (a : Answers) : Ar :=
  match s.state with
  | .wow => { s with state := .on, asleep := s.asleep && !(a.awake && s.running) }
  | .deepsleep =>
    { s with
      state := .on
      slots := s.slots.mapIdx fun i => wakeSlot s.running (a.powerMode i) }
  | .cutpower => if a.hwStart then { s with state := .on, running := true } else s
  | _ => s

/-- The SDIO core goes to sleep after a suspend that succeeded. -/
def hostSleeps (s : Ar) : Ar := if s.pm = some false then halt s else s

def Ar.onSlot (s : Ar) (i : Nat) (f : Slot → Slot) : Ar := { s with slots := s.slots.modify i f }

def askMode (running : Bool) (m : PwrMode) (r : Sending) (x : Slot) : Slot × Bool :=
  powermodeCmd running (x.onVif fun v => { v with asked := m }) m r

/-- `ath6kl_cfg80211_set_power_mgmt` -/
def setPowerMgmt (running : Bool) (m : PwrMode) (r : Sending) (x : Slot) : Slot :=
  match x.vif with
  | none => x
  | some v => if v.psStick ∨ v.wlanEnabled = false then x else (askMode running m r x).1

/-- `ath6kl_ioctl_p2p_set_ps` -/
def p2pSetPs (running : Bool) (m : PwrMode) (r : Sending) (x : Slot) : Slot :=
  if x.vif.isNone then x else (askMode running m r x).1

/-- A turn of the loop of `ath6kl_p2p_reconfig_ps`, or what `ath6kl_p2p_connect_event` does for
the sake of some access points. -/
def reconfigPs (running stick : Bool) (m : PwrMode) (r : Sending) (x : Slot) : Slot :=
  if x.vif.isNone then x
  else (askMode running m r (x.onVif fun v => { v with psStick := stick })).1

/-- An access point on the first interface turns power saving off. -/
def startApMode (running first : Bool) (r : Sending) (x : Slot) : Slot × Bool :=
  if first then askMode running .maxPerfPower r x else (x, true)

/-- `ath6kl_ap_beacon` with `add`, from where power is concerned; `rest` says that all went well
after that. -/
def startAp (running first : Bool) (r : Sending) (rest : Bool) (x : Slot) : Slot :=
  match x.vif with
  | none => x
  | some v =>
    if v.wlanEnabled then
      let y := startApMode running first r x
      if y.2 ∧ rest then y.1.onVif fun v => { v with apNetwork := true } else y.1
    else x

/-- A connect request or `ath6kl_cfg80211_join_ibss`, as far as `nw_type` goes. -/
def connect (x : Slot) : Slot :=
  x.onVif fun v => if v.wlanEnabled then { v with apNetwork := false } else v

/-- `ath6kl_arp_offload_ipaddrs_write` -/
def arpWrite (ip : Nat) (sent : Bool) (x : Slot) : Slot :=
  if x.vif.isSome ∧ sent then { x with toldIp := ip } else x

inductive Event where
  | suspend (wow : Bool) (a : Answers)
  | hostSleeps
  | resume (a : Answers)
  | rx (a : Answers)
  | openDev (i : Nat)
  | closeDev (i : Nat) (r : Sending)
  | disconnectEvent (i : Nat)
  | addIface (i : Nat) (ap : Bool)
  | delIface (i : Nat)
  | startAp (i : Nat) (r : Sending) (rest : Bool)
  | connect (i : Nat)
  | setPowerMgmt (i : Nat) (m : PwrMode) (r : Sending)
  | p2pSetPs (i : Nat) (m : PwrMode) (r : Sending)
  | reconfigPs (i : Nat) (stick : Bool) (m : PwrMode) (r : Sending)
  | address (i : Nat) (inDev : Option Nat)
  | arpWrite (ip : Nat) (sent : Bool)
  | wowPattern

def slotStep (s : Ar) : Event → Option (Nat × (Slot → Slot))
  | .openDev i => some (i, Slot.onVif fun v => { v with wlanEnabled := true, closed := false })
  | .closeDev i r =>
    -- without a buffer for the scan command it returns early
    some (i, Slot.onVif fun v =>
      { v with
        psStick := false
        closed := true
        wlanEnabled := if r = .noBuf then v.wlanEnabled else false })
  | .disconnectEvent i => some (i, Slot.onVif fun v => { v with psStick := false })
  | .addIface i ap =>
    some (i, fun x => if x.vif.isNone then { x with vif := some { apNetwork := ap } } else x)
  | .delIface i => some (i, fun x => { x with vif := none })
  | .startAp i r rest =>
    some (i, PowerStates.startAp s.running (decide (s.order.head? = some i)) r rest)
  | .connect i => some (i, PowerStates.connect)
  | .setPowerMgmt i m r => some (i, PowerStates.setPowerMgmt s.running m r)
  | .p2pSetPs i m r => some (i, PowerStates.p2pSetPs s.running m r)
  | .reconfigPs i stick m r => some (i, PowerStates.reconfigPs s.running stick m r)
  | .address i inDev => some (i, Slot.onVif fun v => { v with inDev := inDev })
  | .arpWrite ip sent =>
    s.order.head?.map fun i => (i, PowerStates.arpWrite ip (sent && s.running))
  | _ => none

/-- How `vif_list` changes. -/
def orderStep (s : Ar) : Event → List Nat
  | .addIface i _ =>
    if (s.slots[i]?.any fun x => x.vif.isNone) then s.order ++ [i] else s.order
  | .delIface i => s.order.erase i
  | _ => s.order

def ifaceStep (s : Ar) (e : Event) : Ar :=
  match slotStep s e with
  | some (i, f) => { s.onSlot i f with order := orderStep s e }
  | none => s

def step (h : Host) (s : Ar) (e : Event) : Ar :=
  match e with
  | .suspend wow a => sdioSuspend h s wow a
  | .hostSleeps => PowerStates.hostSleeps s
  | .resume a => { cfgResume s a with pm := none }
  -- ath6kl_check_wow_status
  | .rx a => if s.state = .wow then cfgResume s a else s
  | .wowPattern => { s with getWowPattern := true }
  | e => ifaceStep s e

/-- After `ath6kl_core_init`: one interface, and `n` more that the target has. -/
def boot (n : Nat) : Ar where
  slots := { vif := some {} } :: List.replicate n {}

end Ath6kl.PowerStates
