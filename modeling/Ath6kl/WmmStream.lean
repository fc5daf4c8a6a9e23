import Ath6kl.EthFrame
import Ath6kl.Lib.Machine
import Mathlib.Logic.Function.Basic
import Mathlib.Data.Fintype.Defs

/-! The WMM streams as `struct wmi` and `struct ath6kl` keep them (`wmi.c`), and
`ath6kl_indicate_tx_activity` (`txrx.c`). -/
namespace Ath6kl.WmmStream
open EthFrame Function

abbrev wmmNumAc : Nat := 4

abbrev Ac := Fin wmmNumAc

def upToAc (up : Fin 8) : Ac := Fin.ofNat wmmNumAc ([0, 1, 1, 0, 2, 2, 3, 3].getD up 0)

def wmiImplicitPstream : UInt8 := 0xFF

/-- The target's view of `traffic_class` is a byte. -/
def toAc (trafficClass : UInt8) : Option Ac :=
  if h : trafficClass.toNat < wmmNumAc then some ⟨trafficClass.toNat, h⟩ else none

/-- `htcActive` is what HTC was told last about the endpoint of the class. -/
structure Wmm where
  streamExistForAc : Ac → BitVec 16 := fun _ => 0
  fatPipeExist : BitVec 8 := 0
  trafficClass : UInt8 := 100
  acStreamActive : Ac → Bool := fun _ => false
  acStreamPriMap : Ac → Nat
  hiacStreamActivePri : Nat := 0
  acStreamActiveNum : Nat := 0
  htcActive : Ac → Bool := fun _ => false

def Wmm.fatPipe (s : Wmm) (ac : Ac) : Bool := s.fatPipeExist.getLsbD ac

def Wmm.setFatPipe (s : Wmm) (ac : Ac) : Wmm :=
  { s with fatPipeExist := s.fatPipeExist ||| BitVec.twoPow 8 ac }

def Wmm.clearFatPipe (s : Wmm) (ac : Ac) : Wmm :=
  { s with fatPipeExist := s.fatPipeExist &&& ~~~(BitVec.twoPow 8 ac) }

def Wmm.addStream (s : Wmm) (ac : Ac) (tsid : UInt8) : Wmm :=
  { s with streamExistForAc :=
      update s.streamExistForAc ac (s.streamExistForAc ac ||| BitVec.twoPow 16 tsid.toNat) }

/-- `stream_exist_for_ac[ac] &= ~mask`. -/
def Wmm.clearStreams (s : Wmm) (ac : Ac) (mask : BitVec 16) : Wmm :=
  { s with streamExistForAc :=
      update s.streamExistForAc ac (s.streamExistForAc ac &&& ~~~mask) }

def highestActive (active : Ac → Bool) (pri : Ac → Nat) (acs : List Ac) (hiac : Nat) : Nat :=
  acs.foldl (fun hiac i => if active i ∧ hiac < pri i then pri i else hiac) hiac

/-- `ath6kl_indicate_tx_activity`, with `WMI_ENABLED` set. -/
def indicateTxActivity (s : Wmm) (ac : Ac) (active : Bool) : Wmm :=
  let acStreamActive := update s.acStreamActive ac active
  let pri := s.acStreamPriMap
  { s with
    acStreamActive := acStreamActive
    hiacStreamActivePri :=
      if active then
        if s.hiacStreamActivePri < pri ac then pri ac else s.hiacStreamActivePri
      else if s.hiacStreamActivePri = pri ac then
        highestActive acStreamActive pri (List.finRange wmmNumAc) 0
      else s.hiacStreamActivePri
    acStreamActiveNum := (List.finRange wmmNumAc).countP fun i => acStreamActive i
    htcActive := update s.htcActive ac active }

/-- What an operation cannot decide: whether the buffer is allocated, and what
`ath6kl_wmi_cmd_send` returns. -/
structure Env where
  alloc : Bool := true
  send : Int := 0

def einval : Int := -22
def enomem : Int := -12
def enodata : Int := -61

/-- The fields of `struct wmi_create_pstream_cmd` that the driver looks at or fills in. -/
structure CreatePstream where
  inactivityInt : UInt32 := 0
  minPhyRate : UInt32 := 0
  trafficClass : UInt8
  trafficDirec : UInt8 := 0
  trafficType : UInt8 := 0
  voicePscCap : UInt8 := 0
  tsid : UInt8
  userPri : UInt8
  nominalPhy : UInt8 := 0

/-- The parameter check, with the class it accepts. -/
def CreatePstream.check (p : CreatePstream) : Option Ac :=
  if h : p.userPri.toNat < 8 then
    let ac := upToAc ⟨p.userPri.toNat, h⟩
    if ac.val = p.trafficClass.toNat ∧ p.trafficDirec.toNat ≤ 2 ∧ p.trafficType.toNat ≤ 1 ∧
        p.voicePscCap.toNat ≤ 2 ∧ (p.tsid = wmiImplicitPstream ∨ p.tsid.toNat ≤ 15) then some ac
    else none
  else none

/-- The nominal PHY rate in units of 500 kbps, which allows the TSRS element. -/
def CreatePstream.tsrs (p : CreatePstream) : CreatePstream :=
  let minPhy := p.minPhyRate.toNat / 1000 / 1000
  { p with nominalPhy :=
      if minPhy ≤ p.nominalPhy.toNat then UInt8.ofNat (p.nominalPhy.toNat * 1000 / 500) else 0 }

/-- `ath6kl_wmi_create_pstream_cmd`, with the command it sends. -/
def createPstreamCmd (s : Wmm) (p : CreatePstream) (env : Env) :
    Wmm × Option CreatePstream × Int :=
  match p.check with
  | none => (s, none, einval)
  | some ac =>
    if !env.alloc then (s, none, enomem)
    else
      let fatpipeExistForAc := s.acStreamActive ac
      let s := if p.tsid = wmiImplicitPstream then s else s.addStream ac p.tsid
      let s := s.setFatPipe ac
      let s := if fatpipeExistForAc then s else indicateTxActivity s ac true
      (s, some p.tsrs, env.send)

def streamsGone (s : Wmm) (ac : Ac) : Wmm :=
  if s.streamExistForAc ac = 0 then (indicateTxActivity s ac false).clearFatPipe ac else s

/-- `ath6kl_wmi_delete_pstream_cmd`. -/
def deletePstreamCmd (s : Wmm) (trafficClass tsid : UInt8) (env : Env) : Wmm × Int :=
  match toAc trafficClass with
  | none => (s, einval)
  | some ac =>
    if !env.alloc then (s, enomem)
    else
      let mask := BitVec.twoPow 16 tsid.toNat
      if s.streamExistForAc ac &&& mask = 0 then (s, enodata)
      else (streamsGone (s.clearStreams ac mask) ac, env.send)

/-- The user priority that `ath6kl_wmi_implicit_create_pstream` finds. `pae` tells whether the frame is
an EAPOL frame. -/
def implicitUsrPri (skb : Skb) (layer2Pri : Nat) (wmmEnabled pae : Bool) : Nat :=
  let metaSize := if (skb.byte 3).toNat / 32 = 0 then 0 else 12
  let llc := wmiDataHdrLen + metaSize + ethHlen
  if !wmmEnabled then 0
  else if pae then 7
  else if skb.copy (llc + 6) 2 = htons 0x0800 then
    max (layer2Pri % 8) ((skb.byte (llc + llcSnapHdrLen + 1)).toNat / 32 % 8)
  else layer2Pri % 8

def implicitUp (s : Wmm) (usrPri : Nat) : Fin 8 :=
  let usrPri := if s.trafficClass = 2 ∧ (usrPri = 5 ∨ usrPri = 4) then 1 else usrPri
  ⟨usrPri % 8, Nat.mod_lt _ (by decide)⟩

def implicitPstream (up : Fin 8) : CreatePstream where
  trafficClass := UInt8.ofNat (upToAc up)
  userPri := UInt8.ofNat up
  inactivityInt := 5000
  tsid := wmiImplicitPstream

/-- `ath6kl_wmi_implicit_create_pstream`. -/
def implicitCreatePstream (s : Wmm) (skb : Skb) (layer2Pri : Nat) (wmmEnabled pae : Bool)
    (env : Env) : Wmm :=
  let up := implicitUp s (implicitUsrPri skb layer2Pri wmmEnabled pae)
  let ac := upToAc up
  if s.fatPipe ac then s
  else (createPstreamCmd (s.setFatPipe ac) (implicitPstream up) env).1

/-- `ath6kl_wmi_pstream_timeout_event_rx`. -/
def pstreamTimeoutEvent (s : Wmm) (ac : Ac) : Wmm :=
  let s := { s with streamExistForAc := update s.streamExistForAc ac 0 }
  indicateTxActivity (s.clearFatPipe ac) ac false

/-- The fields of `struct wmi_cac_event`; `tsinfo` is that of the suggested TSPEC. -/
structure CacEvent where
  ac : UInt8
  cacIndication : UInt8
  statusCode : UInt8 := 0
  tsinfo : UInt16 := 0

def CacEvent.tsid (e : CacEvent) : UInt8 := UInt8.ofNat (e.tsinfo.toNat / 2 % 16)

inductive Indication
  | admissionResp
  | delete
  | noResp
  | other

def CacEvent.indication (e : CacEvent) : Indication :=
  if e.cacIndication = 1 ∧ e.statusCode ≠ 0 then .admissionResp
  else if e.cacIndication = 3 then .noResp
  else if e.cacIndication = 2 then .delete
  else .other

def lowestTsid (activeTsids : BitVec 16) : Option Nat :=
  (List.range 16).find? fun index => activeTsids.getLsbD index

/-- `ath6kl_wmi_cac_event_rx`; `none` when a table is accessed outside its four entries. -/
def cacEvent (s : Wmm) (e : CacEvent) (env : Env) : Option Wmm :=
  match e.indication with
  | .admissionResp => some (deletePstreamCmd s e.ac e.tsid env).1
  | .noResp => (toAc e.ac).map fun ac =>
      match lowestTsid (s.streamExistForAc ac) with
      | some index => (deletePstreamCmd s e.ac (UInt8.ofNat index) env).1
      | none => s
  | .delete => (toAc e.ac).map fun ac =>
      streamsGone (s.clearStreams ac (BitVec.twoPow 16 e.tsid.toNat)) ac
  | .other => some s

/-- One round of `ath6kl_wmi_relinquish_implicit_pstream_credits`; the bitmap is a copy. -/
def relinquishAc (r : Wmm × BitVec 8) (i : Ac) : Wmm × BitVec 8 :=
  if r.2.getLsbD i ∧ r.1.streamExistForAc i = 0 then
    (indicateTxActivity r.1 i false, r.2 &&& ~~~(BitVec.twoPow 8 i))
  else r

def relinquishImplicitPstreamCredits (s : Wmm) : Wmm :=
  let (s, streamExist) := (List.finRange wmmNumAc).foldl relinquishAc (s, s.fatPipeExist)
  { s with fatPipeExist := streamExist }

inductive Event
  | implicitCreate (skb : Skb) (layer2Pri : Nat) (wmmEnabled pae : Bool) (env : Env)
  | create (p : CreatePstream) (env : Env)
  | delete (trafficClass tsid : UInt8) (env : Env)
  | pstreamTimeout (trafficClass : UInt8)
  | cac (e : CacEvent) (env : Env)
  | relinquish

/-- `wild` is set by an access outside the tables; nothing is known afterwards. -/
structure Driver where
  wmm : Wmm
  wild : Bool := false

def Driver.take (s : Driver) : Option Wmm → Driver
  | some w => { s with wmm := w }
  | none => { s with wild := true }

def step (s : Driver) : Event → Driver
  | .implicitCreate skb layer2Pri wmmEnabled pae env =>
    { s with wmm := implicitCreatePstream s.wmm skb layer2Pri wmmEnabled pae env }
  | .create p env => { s with wmm := (createPstreamCmd s.wmm p env).1 }
  | .delete trafficClass tsid env =>
    { s with wmm := (deletePstreamCmd s.wmm trafficClass tsid env).1 }
  | .pstreamTimeout trafficClass => s.take ((toAc trafficClass).map (pstreamTimeoutEvent s.wmm))
  | .cac e env => s.take (cacEvent s.wmm e env)
  | .relinquish => { s with wmm := relinquishImplicitPstreamCredits s.wmm }

end Ath6kl.WmmStream
