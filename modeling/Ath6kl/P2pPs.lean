import Ath6kl.Lib.LittleEndian
import Mathlib.Data.List.FinRange
import Mathlib.Logic.Function.Basic

/-! The power save of a P2P-GO interface: what `p2p.c` keeps of the NoA and OppPS events of the
target (`wmi.c`), and the element it appends to the IEs of the user. Allocations succeed. -/
namespace Ath6kl.P2pPs
open Function

/-- `ATH6KL_P2P_PS_MAX_NOA_DESCRIPTORS`. -/
abbrev maxNoaDescriptors : Nat := 4

/-- `struct ieee80211_p2p_noa_descriptor`, in host order. -/
structure Descriptor where
  countOrType : UInt8 := 0
  duration : UInt32 := 0
  interval : UInt32 := 0
  startOrOffset : UInt32 := 0
deriving DecidableEq

def le32 (x : UInt32) : List UInt8 := Lib.LittleEndian.bytes 4 x.toNat

def Descriptor.bytes (d : Descriptor) : List UInt8 :=
  d.countOrType::(le32 d.duration ++ le32 d.interval ++ le32 d.startOrOffset)

/-- `struct p2p_ps_info`. -/
structure PsInfo where
  noaEnabled : Bool := false
  opppsEnabled : Bool := false
  goNoaEnableIdx : BitVec 8 := 0
  index : UInt8 := 0
  ctwindowOppsParam : UInt8 := 0
  noas : Fin maxNoaDescriptors → Descriptor := fun _ => {}
  goLastBeaconAppIe : List UInt8 := []
  goLastNoaIe : List UInt8 := []

def PsInfo.enabled (ps : PsInfo) : Bool := ps.noaEnabled || ps.opppsEnabled

/-- `ath6kl_p2p_ps_reset_noa`. -/
def resetNoa (ps : PsInfo) : PsInfo :=
  { ps with
    noaEnabled := false
    index := ps.index + 1
    goNoaEnableIdx := 0
    noas := fun _ => {} }

/-- `ath6kl_p2p_ps_setup_noa`, without its error code. -/
def setupNoa (ps : PsInfo) (noaId : Nat) (d : Descriptor) : PsInfo :=
  if h : noaId < maxNoaDescriptors then
    { ps with
      noas := update ps.noas ⟨noaId, h⟩ d
      goNoaEnableIdx := ps.goNoaEnableIdx ||| BitVec.twoPow 8 noaId
      noaEnabled := true }
  else ps

/-- `ath6kl_p2p_ps_reset_opps`. -/
def resetOpps (ps : PsInfo) : PsInfo :=
  { ps with opppsEnabled := false, index := ps.index + 1, ctwindowOppsParam := 0 }

/-- `ath6kl_p2p_ps_setup_opps`. -/
def setupOpps (ps : PsInfo) (enabled ctwindows : UInt8) : PsInfo :=
  { ps with
    ctwindowOppsParam := if enabled ≠ 0 then 0x80 ||| (ctwindows &&& 0x7f) else 0
    opppsEnabled := true }

def PsInfo.enabledNoas (ps : PsInfo) : List Descriptor :=
  (List.finRange maxNoaDescriptors).filterMap fun i =>
    if ps.goNoaEnableIdx.getLsbD i.val then some (ps.noas i) else none

/-- The element that `ath6kl_p2p_ps_update_notif` writes. -/
def noaIe (index ctwindow : UInt8) (noas : List Descriptor) : List UInt8 :=
  let attrLen := 2 + 13 * noas.length
  [0xdd, UInt8.ofNat (attrLen + 7), 0x50, 0x6f, 0x9a, 9, 12] ++ Lib.LittleEndian.bytes 2 attrLen ++
    [index, ctwindow] ++ noas.flatMap Descriptor.bytes

/-- `ath6kl_p2p_ps_update_notif`, with the IEs that it sets for beacons. -/
def updateNotif (ps : PsInfo) : PsInfo × Option (List UInt8) :=
  if ps.enabled then
    let ie := noaIe ps.index ps.ctwindowOppsParam ps.enabledNoas
    ({ ps with goLastNoaIe := ie }, some (ps.goLastBeaconAppIe ++ ie))
  else if ps.goLastBeaconAppIe.length = 0 then (ps, none)
  else ({ ps with goLastNoaIe := [] }, some ps.goLastBeaconAppIe)

inductive MgmtFrmType
  | beacon
  | probeResp

/-- `ath6kl_p2p_ps_user_app_ie`. The length of the IEs for beacons is kept in 16 bits. -/
def userAppIe (ps : PsInfo) (mgmtFrmType : MgmtFrmType) (ie : List UInt8) : PsInfo × List UInt8 :=
  let append (ps : PsInfo) := if ps.enabled then (ps, ie ++ ps.goLastNoaIe) else (ps, ie)
  match mgmtFrmType with
  | .beacon => append { ps with goLastBeaconAppIe := ie.take (ie.length % 65536) }
  | .probeResp => if ie.length = 0 then (ps, ie) else append ps

/-- `ath6kl_wmi_set_appie_cmd`, whose length is a byte. -/
def setAppie (ie : List UInt8) : List UInt8 := ie.take (ie.length % 256)

/-- `struct wmi_noa_info`; `count` is the number of its descriptors. -/
structure NoaInfo where
  enable : UInt8
  noas : List Descriptor

/-- `ath6kl_wmi_noa_info_event_rx`. -/
def noaInfoEvent (ps : PsInfo) (ev : NoaInfo) : PsInfo × Option (List UInt8) :=
  let noas := ev.noas.take maxNoaDescriptors
  let ps := resetNoa ps
  if ev.enable = 0 ∨ noas.length = 0 then updateNotif ps
  else updateNotif (noas.zipIdx.foldl (fun ps d => setupNoa ps d.2 d.1) ps)

/-- `ath6kl_wmi_oppps_info_event_rx`. -/
def opppsInfoEvent (ps : PsInfo) (enable ctwin : UInt8) : PsInfo × Option (List UInt8) :=
  updateNotif (setupOpps (resetOpps ps) enable (ctwin &&& 0x7f))

/-- A probe response: the P2P and WFD IEs of the user, and what is sent. -/
structure ProbeResp where
  p2p : List UInt8
  wfd : List UInt8
  sent : List UInt8

/-- The interface: the IEs last set for beacons, and the probe response that the last step sent. The
history is what the user and the target said last, how many events came, and each element that was
advertised, with the number of events before it. -/
structure Vif where
  ps : PsInfo := {}
  beacon : Option (List UInt8) := none
  probeResp : Option ProbeResp := none
  user : List UInt8 := []
  noas : List Descriptor := []
  ctwindow : Option UInt8 := none
  events : Nat := 0
  advertised : List (Nat × List UInt8) := []

def Vif.advertise (s : Vif) : Vif :=
  if s.ps.enabled then { s with advertised := s.advertised ++ [(s.events, s.ps.goLastNoaIe)] } else s

/-- The power save information and the IEs for beacons after an event. -/
def Vif.notify (s : Vif) (r : PsInfo × Option (List UInt8)) : Vif :=
  { s with
    ps := r.1
    beacon := match r.2 with
      | some ie => some (setAppie ie)
      | none => s.beacon
    probeResp := none
    events := s.events + 1 }.advertise

inductive Event
  | noaInfo (ev : NoaInfo)
  | opppsInfo (enable ctwin : UInt8)
  | beaconIes (ies : List UInt8)
  | probeResp (p2p wfd : List UInt8)

def step (s : Vif) : Event → Vif
  | .noaInfo ev =>
    { s with noas := if ev.enable = 0 then [] else ev.noas.take maxNoaDescriptors }.notify
      (noaInfoEvent s.ps ev)
  | .opppsInfo enable ctwin =>
    { s with ctwindow := if enable = 0 then none else some ctwin }.notify
      (opppsInfoEvent s.ps enable ctwin)
  | .beaconIes ies =>
    let (ps, ie) := userAppIe s.ps .beacon ies
    { s with
      ps := ps
      beacon := some (setAppie ie)
      probeResp := none
      user := ies }.advertise
  | .probeResp p2p wfd =>
    let (ps, ie) := userAppIe s.ps .probeResp p2p
    let s := { s with ps := ps, probeResp := some ⟨p2p, wfd, ie ++ wfd⟩ }
    if p2p.length = 0 then s else s.advertise

end Ath6kl.P2pPs
