import Mathlib.Data.List.Basic

/-! Scans of a station interface: those that cfg80211 asks for (`cfg80211.c`), those of the 20/40
coexistence timer (`htcoex.c`), and the events of the target that end them (`main.c`). Both owners
share `vif->scan_req`. -/
namespace Ath6kl.Scan

/-- What `vif->scan_req` points to: a request of cfg80211, or `&coex->request`. -/
inductive Request
  | user (n : Nat)
  | coex
deriving DecidableEq

/-- A call of `cfg80211_scan_done`. The `cause` is history: the scan whose completion event made it,
if one did. -/
structure Done where
  request : Request
  aborted : Bool
  cause : Option Request
deriving DecidableEq

/-- `ATH6KL_HTCOEX_SCAN_PERIOD`. -/
def scanPeriod : Nat := 60000

/-- `ATH6KL_HTCOEX_RATEMASK_FULL`, which is also that of HT40. -/
def ratemaskFull : Nat := 0x00000fffffffffff

def ratemaskHt20 : Nat := 0x000000000fffffff

/-- `struct htcoex`: its two flags, and whether `scan_timer` is pending. -/
structure Htcoex where
  enabled : Bool := false
  start : Bool := false
  scanInterval : Nat := scanPeriod
  rateRollbackInterval : UInt8 := 0
  currentRatemask : Nat := 0
  tolerant40Cnt : UInt32 := 0
  scanTimer : Bool := false

/-- The interface, with its flags `CONNECTED` and `SCANNING`. What cfg80211 asked for, which requests
were accepted and beside a coexistence scan or not, what it was told, and the scans that the target
has begun and not completed are history. -/
structure Vif where
  connected : Bool := false
  scanning : Bool := false
  scanReq : Option Request := none
  vifscanTimer : Bool := false
  coex : Htcoex := {}
  requests : Nat := 0
  accepted : List (Nat × Bool) := []
  inFlight : List Request := []
  done : List Done := []

/-- What a scan request meets: flags, an interrupted wait for `ar->sem`, what stopping a RoC
returns, and what the commands to the target return. -/
structure ScanEnv where
  disabled : Bool := false
  connecting : Bool := false
  ready : Bool := true
  interrupted : Bool := false
  roc : Int := 0
  usrBssFilter : Bool := false
  bssfilter : Int := 0
  probeReqIes : Int := 0
  handshakeProtect : Bool := false
  scanparams : Int := 0
  startscan : Int := 0

def eio : Int := -5
def ebusy : Int := -16
def erestartsys : Int := -512

/-- How the request is refused before the test of `SCANNING`, or 0. -/
def ScanEnv.early (env : ScanEnv) : Int :=
  if env.disabled then eio
  else if env.connecting then ebusy
  else if ¬ env.ready then eio
  else if env.interrupted then erestartsys
  else if env.roc ≠ 0 then env.roc
  else if ¬ env.usrBssFilter ∧ env.bssfilter ≠ 0 then env.bssfilter
  else env.probeReqIes

def ScanEnv.late (env : ScanEnv) : Int :=
  if env.handshakeProtect then ebusy
  else if env.scanparams ≠ 0 then env.scanparams
  else env.startscan

/-- `_ath6kl_cfg80211_scan`. -/
def scan (s : Vif) (env : ScanEnv) : Vif × Int :=
  let n := s.requests
  let s := { s with requests := n+1 }
  if env.early ≠ 0 then (s, env.early)
  else if s.scanning then (s, ebusy)
  else if env.late ≠ 0 then (s, env.late)
  else
    ({ s with
        scanning := true
        scanReq := some (.user n)
        vifscanTimer := true
        accepted := s.accepted ++ [(n, decide (.coex∈s.inFlight))]
        inFlight := s.inFlight ++ [.user n] }, 0)

structure CoexEnv where
  eapolProtect : Bool := false
  usrBssFilter : Bool := false
  bssfilter : Int := 0
  rocPend : Bool := false
  startscan : Int := 0

/-- `htcoex_scan_start`, before its label `resche`. -/
def coexScan (s : Vif) (env : CoexEnv) : Vif :=
  if ¬ s.connected ∨ s.scanReq ≠ none ∨ env.eapolProtect then s
  else if ¬ env.usrBssFilter ∧ env.bssfilter ≠ 0 then s
  else if env.rocPend then s
  else if env.startscan ≠ 0 then s
  else { s with scanReq := some .coex, inFlight := s.inFlight ++ [.coex] }

def htcoexScanStart (s : Vif) (env : CoexEnv) : Vif :=
  let s := coexScan s env
  if s.coex.start ∧ s.coex.scanInterval ≠ 0 then
    { s with coex := { s.coex with scanTimer := true } }
  else s

/-- `cfg80211_scan_done` and what its callers do after it. -/
def scanDone (s : Vif) (r : Request) (aborted : Bool) (cause : Option Request) : Vif :=
  { s with
    done := s.done ++ [⟨r, aborted, cause⟩]
    scanReq := none
    scanning := false }

def cfg80211ScanComplete (s : Vif) (aborted : Bool) (cause : Option Request) : Vif :=
  let s := { s with vifscanTimer := false }
  match s.scanReq with
  | none => s
  | some r => scanDone s r aborted cause

def Htcoex.rateset (c : Htcoex) (enabled : Bool) : Htcoex :=
  { c with currentRatemask := if enabled then ratemaskFull else ratemaskHt20 }

/-- The rates after a scan that saw `intolerant40`, or did not. -/
def Htcoex.scanned (c : Htcoex) (intolerant40 : Bool) : Htcoex :=
  if intolerant40 then { c.rateset false with tolerant40Cnt := 0 }
  else if c.rateRollbackInterval ≠ 0 then
    let c := { c with tolerant40Cnt := c.tolerant40Cnt + 1 }
    if c.rateRollbackInterval.toNat<c.tolerant40Cnt.toNat then c.rateset true else c
  else c

/-- `ath6kl_htcoex_scan_complete_event`. It returns whether cfg80211 is to be told. -/
def htcoexScanComplete (s : Vif) (intolerant40 : Bool) : Vif × Bool :=
  if ¬ s.coex.start ∨ s.scanReq = none then (s, true)
  else
    let s := { s with coex := s.coex.scanned intolerant40 }
    if s.scanReq = some .coex then ({ s with scanReq := none }, false) else (s, true)

/-- `ath6kl_scan_complete_evt`. -/
def scanCompleteEvt (s : Vif) (aborted intolerant40 : Bool) (cause : Request) : Vif :=
  match htcoexScanComplete s intolerant40 with
  | (s, true) => cfg80211ScanComplete s aborted (some cause)
  | (s, false) => s

/-- `ath6kl_scan_timer_handler`. -/
def scanTimerHandler (s : Vif) : Vif :=
  match s.scanReq with
  | none => s
  | some r => scanDone s r true none

/-- A connect event: whether a BSS is found and is 11n on 2 GHz, and whether the channels to scan can
be set. -/
structure ConnectEnv where
  bss : Option Bool
  channels : Bool

/-- `ath6kl_htcoex_connect_event`. -/
def Htcoex.connect (c : Htcoex) (env : ConnectEnv) : Htcoex :=
  match env.bss with
  | none => c
  | some ht2g =>
    let c :=
      if c.enabled ∧ ht2g then
        let c := if c.start then { c with scanTimer := false } else c
        let c := if c.scanInterval<scanPeriod then { c with scanInterval := scanPeriod } else c
        if env.channels then { c with scanTimer := true, start := true } else c
      else { c with start := false }
    { c with tolerant40Cnt := 0, currentRatemask := ratemaskFull }

def connectEvent (s : Vif) (env : ConnectEnv) : Vif :=
  { s with connected := true, coex := s.coex.connect env }

/-- `ath6kl_htcoex_disconnect_event`. -/
def Htcoex.disconnect (c : Htcoex) : Htcoex :=
  if c.start then { c with scanTimer := false, start := false } else c

def disconnectCmd : Nat := 3
def assocFailed : Nat := 6

/-- `ath6kl_cfg80211_disconnect_event`. -/
def cfg80211Disconnect (s : Vif) : Vif :=
  match s.scanReq with
  | none => s
  | some r => scanDone { s with vifscanTimer := false } r true none

/-- `ath6kl_disconnect_event`. A reassociation that failed keeps the connection. -/
def disconnectEvent (s : Vif) (reason protReason : Nat) (reconnect : Bool) : Vif :=
  let s := cfg80211Disconnect s
  if reason ≠ disconnectCmd ∧ reason = assocFailed ∧
      (protReason = 0x11 ∨ protReason = 0 ∧ reconnect) then { s with connected := true }
  else { s with connected := false, coex := s.coex.disconnect }

/-- `ath6kl_htcoex_config`. -/
def Htcoex.config (c : Htcoex) (interval : Nat) (rateRollback : UInt8) (channels : Bool) :
    Htcoex :=
  let restart := c.start
  let c := { c with scanInterval := interval }
  let c := if restart then { c with scanTimer := false, start := false } else c
  if c.scanInterval = 0 then { c with enabled := false }
  else
    let c := if c.scanInterval<scanPeriod then { c with scanInterval := scanPeriod } else c
    let c := { c with enabled := true }
    let c := if restart ∧ channels then { c with scanTimer := true, start := true } else c
    { c with rateRollbackInterval := rateRollback }

/-- The target may complete any scan it has begun. -/
inductive Event
  | scan (env : ScanEnv)
  | coexTimer (env : CoexEnv)
  | scanComplete (i : Nat) (aborted intolerant40 : Bool)
  | scanTimer
  | connect (env : ConnectEnv)
  | disconnect (reason protReason : Nat) (reconnect : Bool)
  | coexConfig (interval : Nat) (rateRollback : UInt8) (channels : Bool)
  | coexDisconnect

def step (s : Vif) : Event → Vif
  | .scan env => (scan s env).1
  | .coexTimer env =>
    if s.coex.scanTimer then
      htcoexScanStart { s with coex := { s.coex with scanTimer := false } } env
    else s
  | .scanComplete i aborted intolerant40 =>
    match s.inFlight[i]? with
    | none => s
    | some cause =>
      scanCompleteEvt { s with inFlight := s.inFlight.eraseIdx i } aborted intolerant40 cause
  | .scanTimer =>
    if s.vifscanTimer then scanTimerHandler { s with vifscanTimer := false } else s
  | .connect env => connectEvent s env
  | .disconnect reason protReason reconnect => disconnectEvent s reason protReason reconnect
  | .coexConfig interval rateRollback channels =>
    { s with coex := s.coex.config interval rateRollback channels }
  | .coexDisconnect => { s with coex := s.coex.disconnect }

end Ath6kl.Scan
