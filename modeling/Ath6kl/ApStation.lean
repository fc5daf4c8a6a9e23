import Ath6kl.EthFrame
import Ath6kl.Lib.Machine
import Mathlib.Logic.Function.Basic
import Mathlib.Data.Fintype.Defs

/-! The station table of an access point: `ath6kl_connect_ap_mode_sta` and
`ath6kl_disconnect_event` (`main.c`) with what they tell the target and the stack. -/
namespace Ath6kl.ApStation
open EthFrame

abbrev apMaxNumSta : Nat := 10

abbrev Slot := Fin apMaxNumSta

abbrev Mac := BitVec 48

def zeroMac : Mac := 0
def broadcastMac : Mac := BitVec.allOnes 48

/-- `BIT(5)`. -/
def staHtSupport : BitVec 16 := 0x20#16

/-- An empty `wpa_ie`. -/
def noIe : Bytes := List.replicate 256 0

/-- `struct ath6kl_sta`. `vif` tells whether the back pointer is set. `assocHt` is history: whether
the latest association in this slot advertised HT, which the driver does not keep. -/
structure Sta where
  staFlags : BitVec 16 := 0
  mac : Mac := zeroMac
  aid : UInt8 := 0
  keymgmt : UInt8 := 0
  ucipher : UInt8 := 0
  auth : UInt8 := 0
  wpaIe : Bytes := noIe
  phymode : UInt8 := 0
  vif : Bool := false
  psqAgeActive : Bool := false
  apsdInfo : UInt8 := 0
  lastTxrxTimeTgt : UInt16 := 0
  lastTxrxTime : Nat := 0
  assocHt : Bool := false

def Sta.htSupport (sta : Sta) : Bool := sta.staFlags &&& staHtSupport != 0

/-- The fields of `struct ath6kl_vif`. The target's statistics have one entry more than the table; only
their `aid` is written here. -/
structure Vif where
  devAddr : Mac
  nextChan : Nat := 0
  wmiReady : Bool := true
  sta : Slot → Sta := fun _ => {}
  staListIndex : BitVec 16 := 0
  staNoHtNum : Int := 0
  apStats : Fin (apMaxNumSta+1) → UInt8 := fun _ => 0

/-- What ends a run: `BUG_ON`, or an access at an index outside the table. -/
inductive Fault
  | bugOn
  | outOfBounds (idx : Int)
deriving DecidableEq

inductive HtOpmode
  | pure
  | mixed
deriving DecidableEq

inductive Effect
  | newSta (mac : Mac) (ies : Option Bytes)
  | setHtOp (opmode : HtOpmode)
  | purgeMcast
  | setMcastPvb
  | delSta (mac : Mac)
  | down
deriving DecidableEq

/-- `memcpy` over the front of a buffer. -/
def overlay (new old : Bytes) : Bytes := new ++ old.drop new.length

def assocIes (assocInfo : Bytes) : Option Bytes :=
  if 24 < assocInfo.length then
    let fc := assocInfo.getD 0 0 &&& 0xfc
    if fc = 0x00 ∧ 24 + 4 ≤ assocInfo.length then some (assocInfo.drop 28)
    else if fc = 0x20 ∧ 24 + 10 ≤ assocInfo.length then some (assocInfo.drop 34)
    else none
  else none

/-- What the walk over the elements has found. -/
structure Found where
  wpaIe : Option Bytes := none
  isHtSta : Bool := false

/-- The length that goes with `wpa_ie`, in a `u8`. -/
def Found.ielen (f : Found) : UInt8 :=
  match f.wpaIe with
  | some ie => 2 + ie.getD 1 0
  | none => 0

/-- One element; `true` ends the walk. -/
def Found.element (f : Found) (ie : Bytes) : Found × Bool :=
  let id := ie.getD 0 0
  if id = 0x30 then ({ f with wpaIe := some ie }, false)
  else if id = 0xdd ∧ 4 ≤ ie.getD 1 0 ∧ ie.getD 2 0 = 0x00 ∧ ie.getD 3 0 = 0x50 ∧
      ie.getD 4 0 = 0xf2 then
    if ie.getD 5 0 = 0x01 then ({ f with wpaIe := some ie }, false)
    else if ie.getD 5 0 = 0x04 then ({ f with wpaIe := some ie }, true)
    else (f, false)
  else if id = 0x2d ∧ 22 ≤ ie.getD 1 0 then ({ f with isHtSta := true }, false)
  else if id = 0x44 ∧ f.wpaIe = none then ({ f with wpaIe := some ie }, true)
  else (f, false)

def Found.walk (f : Found) (pos : Bytes) : Found :=
  match pos with
  | id::len::rest =>
    if rest.length < len.toNat then f
    else
      let (f, stop) := f.element (id::len::rest.take len.toNat)
      if stop then f else f.walk (rest.drop len.toNat)
  | _ => f
termination_by pos.length
decreasing_by simp only [List.length_cons, List.length_drop]; omega

def assocFound (assocInfo : Bytes) : Found :=
  match assocIes assocInfo with
  | some ies => ({} : Found).walk ies
  | none => {}

/-- The arguments of `ath6kl_connect_ap_mode_sta`. -/
structure Connect where
  aid : UInt8
  mac : Mac
  keymgmt : UInt8 := 0
  ucipher : UInt8 := 0
  auth : UInt8 := 0
  assocInfo : Bytes := []
  apsdInfo : UInt8 := 0
  phymode : UInt8 := 0

def Connect.htSupport (c : Connect) : Bool := (assocFound c.assocInfo).isHtSta

/-- The slot after `ath6kl_add_new_sta`. -/
def Sta.fill (sta : Sta) (c : Connect) : Sta :=
  let found := assocFound c.assocInfo
  { sta with
    mac := c.mac
    wpaIe := overlay ((found.wpaIe.getD []).take found.ielen.toNat) sta.wpaIe
    aid := c.aid
    keymgmt := c.keymgmt
    ucipher := c.ucipher
    auth := c.auth
    apsdInfo := c.apsdInfo
    phymode := c.phymode
    vif := true
    psqAgeActive := true
    lastTxrxTimeTgt := 0
    lastTxrxTime := 0
    staFlags := if c.htSupport then sta.staFlags ||| staHtSupport else sta.staFlags
    assocHt := c.htSupport }

def bit (i : Slot) : BitVec 16 := 1#16 <<< i.val

/-- `ath6kl_add_new_sta` once `free_slot` is known to lie in the table. -/
def fillSlot (v : Vif) (i : Slot) (c : Connect) : Vif :=
  { v with
    sta := Function.update v.sta i ((v.sta i).fill c)
    staListIndex := v.staListIndex ||| bit i
    apStats := Function.update v.apStats i.castSucc c.aid
    staNoHtNum := if c.htSupport then v.staNoHtNum else v.staNoHtNum + 1 }

/-- `free_slot` is a `u8`. -/
def addNewSta (v : Vif) (c : Connect) : Except Fault Vif :=
  if apMaxNumSta < c.aid.toNat then .error .bugOn
  else
    let freeSlot := c.aid - 1
    if h : freeSlot.toNat < apMaxNumSta then .ok (fillSlot v ⟨freeSlot.toNat, h⟩ c)
    else .error (.outOfBounds freeSlot.toNat)

/-- The slot after `ath6kl_sta_cleanup`; its PS queues are purged as well. -/
def Sta.clear (sta : Sta) : Sta :=
  { sta with
    psqAgeActive := false
    vif := false
    mac := zeroMac
    wpaIe := noIe
    aid := 0
    staFlags := 0 }

def clearSlot (v : Vif) (i : Slot) (stat : Fin (apMaxNumSta+1)) : Vif :=
  { v with
    sta := Function.update v.sta i (v.sta i).clear
    apStats := Function.update v.apStats stat 0
    staNoHtNum := if (v.sta i).htSupport then v.staNoHtNum else v.staNoHtNum - 1
    staListIndex := v.staListIndex &&& ~~~(bit i) }

def staCleanup (v : Vif) (i : Slot) : Except Fault Vif :=
  let stat : Int := (v.sta i).aid.toNat - 1
  if h : 0 ≤ stat ∧ stat < apMaxNumSta+1 then .ok (clearSlot v i ⟨stat.toNat, by omega⟩)
  else .error (.outOfBounds stat)

/-- One round of the loop for the broadcast address. -/
def cleanupUsed (r : Vif × Bool) (i : Slot) : Except Fault (Vif × Bool) :=
  if (r.1.sta i).mac ≠ zeroMac then do
    let v ← staCleanup r.1 i
    return (v, true)
  else return r

/-- `ath6kl_remove_sta`, with `removed`. -/
def removeSta (v : Vif) (mac : Mac) : Except Fault (Vif × Bool) :=
  if mac = zeroMac then return (v, false)
  else if mac = broadcastMac then (List.finRange apMaxNumSta).foldlM cleanupUsed (v, false)
  else
    match (List.finRange apMaxNumSta).find? fun i => (v.sta i).mac = mac with
    | some i => do
      let v ← staCleanup v i
      return (v, true)
    | none => return (v, false)

/-- `ath6kl_ap_ht_update_ies`. -/
def apHtUpdateIes (v : Vif) : List Effect :=
  if 4000 < v.nextChan then [.setHtOp (if 0 < v.staNoHtNum then .mixed else .pure)] else []

/-- `ath6kl_connect_ap_mode_sta`, and the update of the elements that follows it. -/
def connectApModeSta (v : Vif) (c : Connect) : Except Fault (Vif × List Effect) := do
  let w ← addNewSta v c
  return (w, .newSta c.mac (assocIes c.assocInfo)::apHtUpdateIes w)

/-- `ath6kl_disconnect_event` of an access point. -/
def disconnectEvent (v : Vif) (bssid : Mac) : Except Fault (Vif × List Effect) := do
  let (w, removed) ← removeSta v bssid
  if removed then
    return (w, apHtUpdateIes w ++
      (if w.staListIndex = 0 then .purgeMcast::(if w.wmiReady then [.setMcastPvb] else [])
        else []) ++
      (if bssid = broadcastMac then [] else [.delSta bssid]) ++
      if w.devAddr = bssid then [.down] else [])
  else return (w, [])

inductive Event
  | connect (c : Connect)
  | disconnect (bssid : Mac)

structure Driver where
  vif : Vif
  effects : List Effect := []
  fault : Option Fault := none

def Driver.take (s : Driver) : Except Fault (Vif × List Effect) → Driver
  | .ok (v, es) => { s with vif := v, effects := s.effects ++ es }
  | .error f => { s with fault := some f }

def step (s : Driver) (e : Event) : Driver :=
  if s.fault.isSome then s
  else match e with
    | .connect c => s.take (connectApModeSta s.vif c)
    | .disconnect bssid => s.take (disconnectEvent s.vif bssid)

end Ath6kl.ApStation
