import Ath6kl.Lib.Compact
import Ath6kl.Lib.Tlv
import Ath6kl.P2pRc
import Ath6kl.Scan
import Mathlib.Data.UInt

/-! The 20/40 coexistence context of an interface (htcoex.c): the periodic scan, its timer and its
list of channels, and the frames recorded for the report. -/
namespace Ath6kl.HtCoex
open Lib.Compact Lib.Tlv P2pRc
open Scan (Htcoex scanPeriod ratemaskFull ratemaskHt20)

/-- `WLAN_EID_HT_CAPABILITY`. -/
def eidHtCapability : UInt8 := 45

section Elem

/-- The state is `elem_start`. -/
def elemWalker (elemId : UInt8) (mem : Memory) : Walker (Option Nat) :=
  Walker.seeker (fun pos => mem pos == elemId) fun pos => (pos+2, [pos])

/-- `htcoex_get_elem`; `start`: where the elements begin, if the pointer is not `NULL`. Of an element
that is cut only the read of the length stands here: its identifier is the byte before. -/
def htcoexGetElem (elemId : UInt8) (mem : Memory) (start : Option Nat) (len : Nat) :
    Walked (Option Nat) :=
  match start with
  | none => { state := none }
  | some pos =>
    if len = 0 then { state := none }
    else (elemWalker elemId mem).checkedWalk mem (pos+len) pos none

end Elem

/-- `ath6kl_2ghz_channels`, by `center_freq`. -/
def channels2ghz : List Nat :=
  [2412, 2417, 2422, 2427, 2432, 2437, 2442, 2447, 2452, 2457, 2462, 2467, 2472, 2484]

/-- `htcoex_bss_info`: a frame, of `frameLen` bytes of the memory, and the channel of the wiphy that
it was received on. -/
structure BssInfo where
  rawFrame : Memory
  frameLen : Nat
  bssid : List UInt8
  channel : Channel
  u16 : frameLen<2^16
  known : channel.band = .band2G → channel.centerFreq∈channels2ghz

/-- `htcoex`: besides what the owner of a scan depends on, the list of channels, of the array
`scan_channels` its entries, and the recorded frames. -/
structure Coex extends Htcoex where
  numScan : Nat := 0
  numScanChannels : Nat := 0
  scanChannels : Option (Buffer Nat) := none
  bssInfoList : List BssInfo := []

/-- `ath6kl_htcoex_init`. -/
def htcoexInit : Coex := {}

/-- The 2.4 GHz band of the wiphy, if it has one: whether a channel is `IEEE80211_CHAN_DISABLED`. -/
structure Wiphy2ghz where
  disabled : Option (Nat → Bool)

section Channels

inductive Errno where
  | einval | enomem
deriving DecidableEq

def htcoexClearScanChannels (c : Coex) : Coex :=
  { c with scanChannels := none, numScanChannels := 0 }

/-- `htcoex_set_scan_channels`; `room`: the array can be had. -/
def htcoexSetScanChannels (w : Wiphy2ghz) (room : Bool) (c : Coex) : Option Errno × Coex :=
  match w.disabled with
  | none => (some .einval, c)
  | some disabled =>
    let c := if c.numScanChannels ≠ 0 ∨ c.scanChannels.isSome then htcoexClearScanChannels c else c
    if room then
      let list := collect (fun freq => !disabled freq) (Buffer.blank 0, c.numScanChannels)
        channels2ghz
      (none, { c with scanChannels := some list.1, numScanChannels := list.2 })
    else (some .enomem, { c with scanChannels := none })

end Channels

section Timer

def delTimer (c : Coex) : Coex := { c with scanTimer := false }

def modTimer (c : Coex) : Coex := { c with scanTimer := true }

def htcoexFlushBssInfo (c : Coex) : Coex := { c with bssInfoList := [] }

def clampInterval (c : Coex) : Coex :=
  if c.scanInterval<scanPeriod then { c with scanInterval := scanPeriod } else c

/-- The channels are set, and the timer is armed if they are. -/
def startScan (w : Wiphy2ghz) (room : Bool) (c : Coex) : Coex :=
  let r := htcoexSetScanChannels w room c
  if r.1.isNone then { modTimer r.2 with start := true } else r.2

/-- The timer is deleted and the channels are cleared, with the flag. -/
def stopScan (c : Coex) : Coex := htcoexClearScanChannels { delTimer c with start := false }

end Timer

/-- The `cfg80211_bss` of the new connection; `ies`: its elements and how many bytes, if they are
known. -/
structure Bss where
  band : Band
  ies : Option (Memory × Nat)

def Bss.ht (b : Bss) : Bool :=
  match b.ies with
  | none => (htcoexGetElem eidHtCapability (fun _ => 0) none 0).state.isSome
  | some (mem, len) => (htcoexGetElem eidHtCapability mem (some 0) (len%2^16)).state.isSome

def Coex.wants (c : Coex) (b : Bss) : Bool := c.enabled && (b.band == .band2G) && b.ht

section Events

/-- `ath6kl_htcoex_connect_event`; `infra`: `nw_type` is `INFRA_NETWORK`, `bss`: what
`ath6kl_bss_get` finds. -/
def htcoexConnectEvent (infra : Bool) (bss : Option Bss) (w : Wiphy2ghz) (room : Bool) (c : Coex) :
    Coex :=
  if infra then
    match bss with
    | none => c
    | some b =>
      let c :=
        if c.wants b then
          startScan w room (clampInterval (if c.start then delTimer c else c))
        else { c with start := false }
      htcoexFlushBssInfo
        { c with numScan := 0, tolerant40Cnt := 0, currentRatemask := ratemaskFull }
  else c

/-- `ath6kl_htcoex_disconnect_event`. -/
def htcoexDisconnectEvent (infra : Bool) (c : Coex) : Coex :=
  if infra then
    htcoexFlushBssInfo (if c.start then stopScan c else c)
  else c

/-- What a new interval means; `restart`: the scan was started. -/
def applyInterval (restart : Bool) (rateRollback : UInt8) (w : Wiphy2ghz) (room : Bool) (c : Coex) :
    Coex :=
  if c.scanInterval = 0 then { c with enabled := false }
  else
    let c := { clampInterval c with enabled := true }
    { (if restart then startScan w room c else c) with rateRollbackInterval := rateRollback }

/-- `ath6kl_htcoex_config`. -/
def htcoexConfig (interval : Nat) (rateRollback : UInt8) (w : Wiphy2ghz) (room : Bool) (c : Coex) :
    Coex :=
  let restart := c.start
  let c := { c with scanInterval := interval }
  let c := if restart then stopScan c else c
  htcoexFlushBssInfo (applyInterval restart rateRollback w room c)

/-- What `htcoex_scan_start` finds: `scanning` for `scan_req`, and what the two commands return. -/
structure ScanEnv where
  infra : Bool
  connected : Bool
  scanning : Bool
  handshakeProtect : Bool
  usrBssFilter : Bool
  bssfilterRet : Int
  rocPend : Bool
  startscanRet : Int

def ScanEnv.bypass (env : ScanEnv) : Bool :=
  !env.infra || !env.connected || env.scanning || env.handshakeProtect ||
    (!env.usrBssFilter && env.bssfilterRet != 0) || env.rocPend

/-- What `htcoex_scan_start` ends with. -/
def resche (c : Coex) : Coex := if c.start ∧ c.scanInterval ≠ 0 then modTimer c else c

/-- `htcoex_scan_start`: the count and the list of channels that `ath6kl_wmi_startscan_cmd` is
called with, if it is. -/
def htcoexScanStart (env : ScanEnv) (c : Coex) : Option (Nat × Option (Buffer Nat)) × Coex :=
  if env.bypass then (none, resche c)
  else
    (some (c.numScanChannels, c.scanChannels),
      resche (if env.startscanRet ≠ 0 then c else { c with numScan := (c.numScan+1)%2^32 }))

/-- `ath6kl_htcoex_deinit`: the context as it is when it is freed. -/
def htcoexDeinit (c : Coex) : Coex :=
  htcoexFlushBssInfo (if c.start then htcoexClearScanChannels (delTimer c) else c)

end Events

section Machine

/-- `htcoex_ctx`, the memory of a context that was freed, and whether a timer's function has run on
that. -/
structure State where
  ctx : Option Coex
  freed : Option Coex := none
  usedFreed : Bool := false

def initial : State := { ctx := some htcoexInit }

inductive Event where
  | connect (infra : Bool) (bss : Option Bss) (w : Wiphy2ghz) (room : Bool)
  | disconnect (infra : Bool)
  | config (interval : Nat) (rateRollback : UInt8) (w : Wiphy2ghz) (room : Bool)
  | expiry (env : ScanEnv)
  | deinit

/-- An expiry is of a timer that is pending. Once the interface is gone nothing else comes. -/
def step (s : State) : Event → State
  | .connect infra bss w room =>
    { s with ctx := s.ctx.map (htcoexConnectEvent infra bss w room) }
  | .disconnect infra => { s with ctx := s.ctx.map (htcoexDisconnectEvent infra) }
  | .config interval rateRollback w room =>
    { s with ctx := s.ctx.map (htcoexConfig interval rateRollback w room) }
  | .expiry env =>
    match s.ctx, s.freed with
    | some c, _ =>
      if c.scanTimer then { s with ctx := some (htcoexScanStart env (delTimer c)).2 } else s
    | none, some c =>
      if c.scanTimer then { s with freed := some (delTimer c), usedFreed := true } else s
    | none, none => s
  | .deinit =>
    match s.ctx with
    | some c => { s with ctx := none, freed := some (htcoexDeinit c) }
    | none => s

end Machine

end Ath6kl.HtCoex
