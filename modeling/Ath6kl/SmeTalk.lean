import Ath6kl.IeWalk

/-! A connection of a station or P2P client as the driver and cfg80211 talk about it (`cfg80211.c`,
`main.c`, `p2p.c`, and `sme.c` and `util.c` of the vendored cfg80211). cfg80211 asks under its lock;
the driver answers with events that cfg80211 takes from a list, one at a time, later. -/
namespace Ath6kl.SmeTalk
open Lib

inductive SmeState
  | disconnected
  | connecting
  | connected
deriving DecidableEq

/-- `wdev->sme_state`. -/
inductive CfgSme
  | idle
  | connecting
  | connected
deriving DecidableEq

abbrev Mac := List UInt8

def zeroAddr : Mac := List.replicate 6 0
def isZeroEtherAddr (a : Mac) : Bool := a.all (· == 0)
def isBroadcastEtherAddr (a : Mac) : Bool := a.all (· == 0xFF)
def isValidEtherAddr (a : Mac) : Bool := a.headD 0 % 2 == 0 && !isZeroEtherAddr a

inductive Errno
  | eio
  | ebusy
  | einval
  | erestartsys
  | etimedout
  | eintr
  | enoent
  | enomem
  | enotsupp
deriving DecidableEq

def wlanStatusSuccess : Nat := 0
def wlanStatusUnspecifiedFailure : Nat := 1
def wlanStatusChallengeFail : Nat := 15

/-- `enum wmi_disconnect_reason`, as far as it is looked at. -/
def disconnectCmd : Nat := 3
def authFailed : Nat := 5
def assocFailed : Nat := 6
def cservDisconnect : Nat := 8

/-- `struct cfg80211_event`. -/
inductive Event
  | connectResult (bssid : Mac) (status : Nat)
  | roamed (bssid : Mac)
  | disconnected (reason : Nat)
deriving DecidableEq

/-- `struct wireless_dev`. -/
structure Wdev where
  smeState : CfgSme := .idle
  currentBss : Option Mac := none

/-- `__cfg80211_connect_result`; `found`: `cfg80211_get_bss` knows the BSS. -/
def Wdev.connectResult (w : Wdev) (bssid : Mac) (status : Nat) (found : Bool) : Wdev :=
  if w.smeState ≠ .connecting then w
  else if status ≠ wlanStatusSuccess then ⟨.idle, none⟩
  else if !found then { w with currentBss := none }
  else ⟨.connected, some bssid⟩

/-- `__cfg80211_roamed`. -/
def Wdev.roamed (w : Wdev) (bssid : Mac) : Wdev :=
  if w.smeState ≠ .connected ∨ w.currentBss.isNone then w else { w with currentBss := some bssid }

/-- `__cfg80211_disconnected`. -/
def Wdev.disconnected (w : Wdev) : Wdev :=
  if w.smeState ≠ .connected then w else ⟨.idle, none⟩

/-- One turn of `cfg80211_process_wdev_events`. -/
def Wdev.process (found : Bool) (w : Wdev) : Event → Wdev
  | .connectResult bssid status => w.connectResult bssid status found
  | .roamed bssid => w.roamed bssid
  | .disconnected _ => w.disconnected

/-- `enum auth_mode`. -/
def noneAuth : Nat := 0x01
def wpaAuth : Nat := 0x02
def wpa2Auth : Nat := 0x04
def wpaPskAuth : Nat := 0x08
def wpa2PskAuth : Nat := 0x10
def wpaAuthCckm : Nat := 0x20
def wpa2AuthCckm : Nat := 0x40
def wpa2PskSha256Auth : Nat := 0x80

/-- `enum crypto_type`. -/
def noneCrypt : Nat := 0x01
def wepCrypt : Nat := 0x02
def tkipCrypt : Nat := 0x04
def aesCrypt : Nat := 0x08
def wapiCrypt : Nat := 0x10

/-- `enum dot11_auth_mode`. -/
def openAuth : Nat := 0x01
def sharedAuth : Nat := 0x02
def leapAuth : Nat := 0x04

def wmiMaxKeyIndex : Nat := 3

/-- What `struct ath6kl_vif` keeps of a connection. `disconnectTimer` tells whether the timer is
pending. -/
structure Vif where
  smeState : SmeState := .disconnected
  connected : Bool := false
  connectPend : Bool := false
  disconnectPend : Bool := false
  handshakeProtect : Bool := false
  reconnectFlag : Bool := false
  wpsFlag : Bool := false
  doWpaOffload : Bool := false
  usrBssFilter : Bool := false
  disconnectTimer : Bool := false
  nextConnStatus : Nat := 0
  authMode : Nat := noneAuth
  dot11AuthMode : Nat := openAuth
  prwiseCrypto : Nat := noneCrypt
  grpCrypto : Nat := noneCrypt
  ssid : List UInt8 := []
  bssid : Mac := zeroAddr
  reqBssid : Mac := zeroAddr
  chHint : Nat := 0

/-- `ath6kl_set_wpa_version`; another version leaves the mode. -/
def setWpaVersion (v : Vif) (wpaVersion : Nat) : Vif :=
  if wpaVersion = 0 then { v with authMode := noneAuth }
  else if wpaVersion &&& 2 ≠ 0 then { v with authMode := wpa2Auth }
  else if wpaVersion &&& 1 ≠ 0 then { v with authMode := wpaAuth }
  else v

/-- `enum nl80211_auth_type`. -/
inductive AuthType
  | openSystem
  | sharedKey
  | ft
  | networkEap
  | automatic
deriving DecidableEq

/-- `ath6kl_set_auth_type`. -/
def setAuthType (v : Vif) : AuthType → Option Vif
  | .openSystem => some { v with dot11AuthMode := openAuth }
  | .sharedKey => some { v with dot11AuthMode := sharedAuth }
  | .networkEap => some { v with dot11AuthMode := leapAuth }
  | .automatic => some { v with dot11AuthMode := openAuth ||| sharedAuth }
  | .ft => none

/-- `ath6kl_set_cipher`: the type a cipher suite selects. -/
def cipherCrypt (cipher : Nat) : Option Nat :=
  if cipher = 0 then some noneCrypt
  else if cipher = 0x000FAC01 ∨ cipher = 0x000FAC05 then some wepCrypt
  else if cipher = 0x000FAC02 then some tkipCrypt
  else if cipher = 0x000FAC04 then some aesCrypt
  else if cipher = 0x00147201 then some wapiCrypt
  else none

def setCipher (v : Vif) (cipher : Nat) (ucast : Bool) : Vif :=
  match cipherCrypt cipher with
  | none => v
  | some t => if ucast then { v with prwiseCrypto := t } else { v with grpCrypto := t }

/-- `ath6kl_set_key_mgmt`, with `PMF_SUPPORT`. -/
def setKeyMgmt (v : Vif) (keyMgmt : Nat) : Vif :=
  if keyMgmt = 0x000FAC02 then
    if v.authMode = wpaAuth then { v with authMode := wpaPskAuth }
    else if v.authMode = wpa2Auth then { v with authMode := wpa2PskAuth }
    else v
  else if keyMgmt = 0x00409600 then
    if v.authMode = wpaAuth then { v with authMode := wpaAuthCckm }
    else if v.authMode = wpa2Auth then { v with authMode := wpa2AuthCckm }
    else v
  else if keyMgmt = 0x000FAC06 then { v with authMode := wpa2PskSha256Auth }
  else if keyMgmt ≠ 0x000FAC01 ∧ keyMgmt ≠ 0x000FAC05 then { v with authMode := noneAuth }
  else v

/-- `ath6kl_disconnect`: the command goes out if there is a connection or one is pending. -/
def ath6klDisconnect (v : Vif) : Vif :=
  if v.connected ∨ v.connectPend then { v with connectPend := false } else v

/-- Where the wait for the command queue ends. -/
inductive Drain
  | drained
  | timeout
  | signal
deriving DecidableEq

/-- `struct cfg80211_connect_params`, and what the call finds on its way: the state of the device,
and where a command or an allocation fails. -/
structure ConnectReq where
  ready : Bool := true
  destroyInProgress : Bool := false
  skipScan : Bool := false
  interrupted : Bool := false
  drain : Drain := .drained
  wpsIe : Bool := false
  assocReqIes : Option Errno := none
  rsnFails : Bool := false
  reconnectFails : Bool := false
  bssfilterFails : Bool := false
  connectCmd : Option Errno := none
  ssid : List UInt8 := []
  bssid : Option Mac := none
  centerFreq : Option Nat := none
  wpaVersions : Nat := 0
  authType : AuthType := .openSystem
  ciphersPairwise : List Nat := []
  cipherGroup : Nat := 0
  akmSuites : List Nat := []
  keyLen : Nat := 0
  keyIdx : Nat := 0

/-- `ath6kl_cfg80211_connect` up to the wait for the command queue. -/
def connectStart (v : Vif) (c : ConnectReq) : Except Errno Vif :=
  if !c.ready then .error .eio
  else if c.destroyInProgress then .error .ebusy
  else if c.skipScan ∧ (c.centerFreq = some 0 ∨ c.bssid.any isZeroEtherAddr) then .error .einval
  else if c.interrupted then .error .erestartsys
  else .ok { v with smeState := .connecting }

/-- The profile of the new network, after the name. -/
def connectProfile (v : Vif) (c : ConnectReq) : Vif :=
  let v := setCipher v (c.ciphersPairwise.headD 0) true
  let v := setCipher v c.cipherGroup false
  match c.akmSuites with
  | [] => v
  | akm::_ => setKeyMgmt v akm

def connectSend (v : Vif) (c : ConnectReq) : Vif × Option Errno :=
  let v := { v with reconnectFlag := false }
  match c.connectCmd with
  | some .einval => ({ v with ssid := [] }, some .enoent)
  | some _ => (v, some .eio)
  | none =>
    let psk := v.authMode = wpaPskAuth ∨ v.authMode = wpa2PskAuth
    ({ v with disconnectTimer := v.disconnectTimer || (!v.doWpaOffload && psk)
              doWpaOffload := false
              connectPend := true }, none)

/-- A network that is not the one connected to. -/
def connectNew (v : Vif) (c : ConnectReq) : Vif × Option Errno :=
  let v := if v.ssid = c.ssid then ath6klDisconnect v else v
  let v := { v with ssid := c.ssid
                    chHint := c.centerFreq.getD v.chHint
                    reqBssid := match c.bssid with
                      | some b => if isBroadcastEtherAddr b then zeroAddr else b
                      | none => zeroAddr }
  let v := setWpaVersion v c.wpaVersions
  match setAuthType v c.authType with
  | none => (v, some .enotsupp)
  | some v =>
    let v := connectProfile v c
    if c.keyLen ≠ 0 ∧ v.authMode = noneAuth ∧ v.prwiseCrypto = wepCrypt ∧
        wmiMaxKeyIndex<c.keyIdx then (v, some .enoent)
    else if !v.usrBssFilter ∧ c.bssfilterFails then (v, some .eio)
    else connectSend v c

/-- `ath6kl_cfg80211_connect` from the wait for the command queue. -/
def connectFinish (v : Vif) (c : ConnectReq) : Vif × Option Errno :=
  match c.drain with
  | .timeout => (v, some .etimedout)
  | .signal => (v, some .eintr)
  | .drained =>
    let v := { v with wpsFlag := c.wpsIe }
    match c.assocReqIes with
    | some e => (v, some e)
    | none =>
      if c.rsnFails then (v, some .eio)
      else if v.connected ∧ v.ssid = c.ssid then
        ({ v with reconnectFlag := true }, if c.reconnectFails then some .eio else none)
      else connectNew v c

/-- Who holds the lock of the `wdev`, and what `ath6kl_cfg80211_disconnect` sleeps for. -/
inductive Op
  | free
  | connecting (c : ConnectReq)
  | disconnecting (waits : Bool)

structure Config where
  p2pClient : Bool := false
  /-- `WIPHY_FLAG_SUPPORTS_FW_ROAM` -/
  fwRoam : Bool := false
  p2pWarBadBroadcomGo : Bool := true

/-- The interface, its `wdev` with the list of events, and the delayed work that holds back the
result of a connection. -/
structure Sys where
  vif : Vif := {}
  wdev : Wdev := {}
  eventList : List Event := []
  pendingConnectInfo : Option Event := none
  op : Op := .free

/-- `cfg80211_connect_result`, `cfg80211_roamed_bss` and `cfg80211_disconnected`; `alloc`: there is
memory for the event. -/
def Sys.post (s : Sys) (alloc : Bool) (e : Event) : Sys :=
  if alloc then { s with eventList := s.eventList ++ [e] } else s

/-- What the handling of one event finds in memory. -/
structure Env where
  alloc : Bool := true
  pendAlloc : Bool := true
  ies : Option (Memory × Nat) := none

variable (cfg : Config)

/-- `_p2p_need_pending_connect`. -/
def needPendingConnect (v : Vif) (x : Env) : Bool :=
  let war := cfg.p2pWarBadBroadcomGo && v.smeState = .connected && v.wpsFlag && cfg.p2pClient
  (IeWalk.p2pNeedPendingConnect war x.ies).any (·.state)

/-- `ath6kl_cfg80211_connect_result` with `ath6kl_p2p_pending_connect_event`. -/
def cfg80211ConnectResult (s : Sys) (x : Env) (bssid : Mac) (status : Nat) : Sys :=
  let e := Event.connectResult bssid status
  if needPendingConnect cfg s.vif x ∧ x.pendAlloc then { s with pendingConnectInfo := some e }
  else s.post x.alloc e

/-- `ath6kl_cfg80211_disconnected`. -/
def cfg80211Disconnected (s : Sys) (x : Env) (reason : Nat) : Sys :=
  s.post x.alloc (.disconnected reason)

/-- The report that a connection, or the wait for one, is over: the switch of
`ath6kl_cfg80211_disconnect_event` and of `ath6kl_close`. -/
def reportEnd (s : Sys) (x : Env) (bssid : Mac) (status reason : Nat) : Sys :=
  match s.vif.smeState with
  | .connecting => cfg80211ConnectResult cfg s x bssid status
  | .connected => cfg80211Disconnected s x reason
  | .disconnected => s

/-- `ath6kl_handshake_protect` on the flag, and whether it was set afresh. -/
def handshakeProtect (v : Vif) (bssid : Mac) : Vif × Bool :=
  if noneAuth<v.authMode ∧ wepCrypt<v.prwiseCrypto then
    if bssid ≠ v.bssid ∨ !v.handshakeProtect then ({ v with handshakeProtect := true }, true)
    else (v, false)
  else ({ v with handshakeProtect := false }, false)

/-- `ath6kl_roamed_indicate`. -/
def roamedIndicate (v : Vif) (resetHkProt : Bool) : Bool :=
  v.smeState = .connected && cfg.fwRoam && (!v.handshakeProtect || resetHkProt)

/-- A connect event of the target, with the two bits of the network type; `chan` and `bss` tell
whether the channel is known and the BSS could be had. -/
structure ConnectEvent where
  bssid : Mac
  adhoc : Bool := false
  chan : Bool := true
  bss : Bool := true

/-- `ath6kl_cfg80211_connect_event`. -/
def cfg80211ConnectEvent (s : Sys) (x : Env) (ev : ConnectEvent) : Sys :=
  if ev.adhoc ∨ !ev.chan ∨ !ev.bss then s
  else
    let (v, resetHkProt) := handshakeProtect s.vif ev.bssid
    if v.smeState = .connecting then
      let v := { v with smeState := .connected }
      cfg80211ConnectResult cfg { s with vif := v } x ev.bssid wlanStatusSuccess
    else if roamedIndicate cfg v resetHkProt then
      { s with vif := v }.post x.alloc (.roamed ev.bssid)
    else { s with vif := v }

/-- `ath6kl_connect_event`. -/
def connectEvent (s : Sys) (x : Env) (ev : ConnectEvent) : Sys :=
  let s := cfg80211ConnectEvent cfg s x ev
  { s with vif := { s.vif with bssid := ev.bssid
                               connected := true
                               connectPend := false
                               reconnectFlag := false } }

structure DisconnectEvent where
  reason : Nat
  bssid : Mac
  protoReason : Nat := 0

/-- `ath6kl_cfg80211_disconnect_event`. Another reason than the host's command only leads to
that command; its own event follows. -/
def cfg80211DisconnectEvent (s : Sys) (x : Env) (ev : DisconnectEvent) (bssid : Mac) : Sys :=
  if ev.reason ≠ disconnectCmd then
    let challenge := ev.reason = authFailed ∧ s.vif.dot11AuthMode &&& sharedAuth ≠ 0
    let st := if challenge then wlanStatusChallengeFail else wlanStatusUnspecifiedFailure
    { s with vif := { s.vif with nextConnStatus := st } }
  else
    let v := { s.vif with connectPend := false }
    let st := if v.nextConnStatus ≠ 0 then v.nextConnStatus else wlanStatusUnspecifiedFailure
    let s := reportEnd cfg { s with vif := v } x bssid st ev.protoReason
    { s with vif := { s.vif with smeState := .disconnected
                                 nextConnStatus := wlanStatusSuccess
                                 disconnectPend := false } }

/-- `ath6kl_disconnect_event` of an infrastructure network. -/
def disconnectEvent (s : Sys) (x : Env) (ev : DisconnectEvent) : Sys :=
  let bssid := if !isValidEtherAddr ev.bssid ∧ isValidEtherAddr s.vif.reqBssid then s.vif.reqBssid
    else ev.bssid
  let s := cfg80211DisconnectEvent cfg s x ev bssid
  let v : Vif := { s.vif with disconnectTimer := false }
  let v : Vif := if ev.reason = disconnectCmd then v else { v with connectPend := true }
  if ev.reason = assocFailed ∧
      (ev.protoReason = 0x11 ∨ (ev.protoReason = 0 ∧ v.reconnectFlag)) then
    { s with vif := { v with connected := true } }
  else
    { s with vif := { v with connected := false
                             handshakeProtect := false
                             reconnectFlag := v.reconnectFlag && ev.reason = cservDisconnect
                             bssid := zeroAddr } }

def disconnectTimerHandler (v : Vif) : Vif :=
  ath6klDisconnect { v with disconnectTimer := false
                            ssid := []
                            dot11AuthMode := openAuth
                            authMode := noneAuth
                            prwiseCrypto := noneCrypt
                            grpCrypto := noneCrypt
                            reqBssid := zeroAddr
                            bssid := zeroAddr }

/-- The end of `ath6kl_close` and of `ath6kl_cfg80211_stop`. -/
def Vif.shut (v : Vif) : Vif :=
  { ath6klDisconnect v with smeState := .disconnected
                            connected := false
                            connectPend := false
                            handshakeProtect := false }

/-- `ath6kl_close`. -/
def close (s : Sys) (x : Env) : Sys :=
  let s := reportEnd cfg s x s.vif.bssid wlanStatusUnspecifiedFailure 0
  { s with vif := s.vif.shut }

/-- `ath6kl_cfg80211_stop`: it reports a disconnection when there is no connection too. -/
def cfg80211Stop (s : Sys) (x : Env) : Sys :=
  let s := match s.vif.smeState with
    | .connecting => cfg80211ConnectResult cfg s x s.vif.bssid wlanStatusUnspecifiedFailure
    | _ => cfg80211Disconnected s x 0
  { s with vif := s.vif.shut }

/-- How `ath6kl_cfg80211_disconnect` fares before its wait. -/
structure DisconnectReq where
  ready : Bool := true
  destroyInProgress : Bool := false
  interrupted : Bool := false
  skipScan : Bool := false
  cmdFails : Bool := false

/-- `ath6kl_cfg80211_disconnect` up to its wait; the answer tells whether it waits. -/
def disconnectStart (v : Vif) (d : DisconnectReq) : Except Errno (Vif × Bool) :=
  if !d.ready then .error .eio
  else if d.destroyInProgress then .error .ebusy
  else if d.interrupted then .error .erestartsys
  else
    let ret := (v.connected || v.connectPend) && d.cmdFails
    let v := ath6klDisconnect { v with reconnectFlag := false }
    let v := { v with ssid := []
                      reqBssid := if d.skipScan then v.reqBssid else zeroAddr
                      smeState := .disconnected }
    let waits := !ret && v.connected && !v.disconnectPend
    .ok ({ v with disconnectPend := v.disconnectPend || waits }, waits)

/-- What can happen next: a request of cfg80211 begins or ends, the target sends an event, a timer
or a work runs, the interface goes down, or cfg80211 takes an event from its list. -/
inductive Step
  | connect (c : ConnectReq)
  | connectEnd
  | disconnect (d : DisconnectReq)
  | disconnectEnd (signal : Bool)
  | connectEvent (x : Env) (ev : ConnectEvent)
  | disconnectEvent (x : Env) (ev : DisconnectEvent)
  | disconnectTimer
  | pendingConnectWork (alloc : Bool)
  | close (x : Env)
  | stop (x : Env)
  | process (found : Bool)

/-- `__cfg80211_connect` up to the driver's wait. -/
def cfgConnect (s : Sys) (c : ConnectReq) : Sys :=
  match s.op, s.wdev.smeState with
  | .free, .idle =>
    match connectStart s.vif c with
    | .error _ => s
    | .ok v => { s with vif := v, wdev := { s.wdev with smeState := .connecting }
                        op := .connecting c }
  | _, _ => s

def cfgConnectEnd (s : Sys) : Sys :=
  match s.op with
  | .connecting c =>
    let r := connectFinish s.vif c
    let w := if r.2.isSome then { s.wdev with smeState := .idle } else s.wdev
    { s with vif := r.1, wdev := w, op := .free }
  | _ => s

/-- `__cfg80211_disconnect` up to the driver's wait. -/
def cfgDisconnect (s : Sys) (d : DisconnectReq) : Sys :=
  match s.op with
  | .free =>
    if s.wdev.smeState = .idle then s
    else match disconnectStart s.vif d with
      | .error _ => s
      | .ok (v, waits) => { s with vif := v, op := .disconnecting waits }
  | _ => s

/-- What `__cfg80211_disconnect` does to its `wdev` once the driver is done. -/
def Wdev.end (w : Wdev) : Wdev :=
  match w.smeState with
  | .connected => w.disconnected
  | .connecting => w.connectResult zeroAddr wlanStatusUnspecifiedFailure false
  | .idle => w

/-- The driver's wait ends: the event has come, half a second is over, or a signal. -/
def cfgDisconnectEnd (s : Sys) (signal : Bool) : Sys :=
  match s.op with
  | .disconnecting waits =>
    { s with op := .free, wdev := if waits && signal then s.wdev else s.wdev.end }
  | _ => s

/-- `_p2p_pending_connect_work`. -/
def pendingConnectWork (s : Sys) (alloc : Bool) : Sys :=
  match s.pendingConnectInfo with
  | some e => { s with pendingConnectInfo := none }.post alloc e
  | none => s

def cfgProcess (s : Sys) (found : Bool) : Sys :=
  match s.op, s.eventList with
  | .free, e::es => { s with wdev := s.wdev.process found e, eventList := es }
  | _, _ => s

def step (s : Sys) : Step → Sys
  | .connect c => cfgConnect s c
  | .connectEnd => cfgConnectEnd s
  | .disconnect d => cfgDisconnect s d
  | .disconnectEnd signal => cfgDisconnectEnd s signal
  | .connectEvent x ev => connectEvent cfg s x ev
  | .disconnectEvent x ev => disconnectEvent cfg s x ev
  | .disconnectTimer =>
    if s.vif.disconnectTimer then { s with vif := disconnectTimerHandler s.vif } else s
  | .pendingConnectWork alloc => pendingConnectWork s alloc
  -- under the RTNL, as the requests are; the USB driver's own suspend stops without it
  | .close x => match s.op with
    | .free => close cfg s x
    | _ => s
  | .stop x => cfg80211Stop cfg s x
  | .process found => cfgProcess s found

end Ath6kl.SmeTalk
