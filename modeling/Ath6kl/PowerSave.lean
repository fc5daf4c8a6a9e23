import Ath6kl.Lib.Interleave
import Ath6kl.Lib.Machine

/-! AP power save for one associated station (`txrx.c`, `main.c`): the queues of a sleeping
station, the operations on them, and the PVB commands they send. A thread takes one step for
a section under `conn->lock`, for a WMI command, and for an access to `sta_flags`. -/
namespace Ath6kl.PowerSave
open Lib.Interleave Lib.Machine

/-- A data frame; `ipTos` is the TOS byte of an IP packet. -/
structure DataFrame where
  id : Nat
  ipTos : Option Nat := none
deriving DecidableEq

/-- A management frame and what `ath6kl_ps_queue_enqueue_mgmt` keeps with it. `probeResp`:
the buffer reaches `u.probe_resp.variable` and `ieee80211_is_probe_resp` holds. -/
structure MgmtFrame where
  id : Nat
  freq : Nat := 0
  wait : Nat := 0
  noCck : Bool := false
  dontWaitForAck : Bool := false
  probeResp : Bool := false
deriving DecidableEq

/-- `struct ath6kl_ps_buf_desc`. -/
structure PsBuf (α : Type) where
  frame : α
  age : Nat := 0
deriving DecidableEq

/-- `ATH6KL_PS_QUEUE_MAX_AGE`, `ATH6KL_PS_QUEUE_NO_AGE`. -/
def psQueueMaxAge : Nat := 5
def psQueueNoAge : Nat := 0
/-- `ATH6KL_PS_QUEUE_MAX_DEPTH`, `ATH6KL_PS_QUEUE_NO_DEPTH`. -/
def psQueueMaxDepth : Nat := 65535
def psQueueNoDepth : Nat := 0

/-- The `WMI_DATA_HDR_FLAGS` of a frame sent while the station sleeps. -/
structure WmiDataFlags where
  more : Bool := false
  eosp : Bool := false
  triggered : Bool := false
  pspolled : Bool := false
deriving DecidableEq

/-- What leaves the driver for the station. -/
inductive Sent
  | data (frame : DataFrame) (flags : WmiDataFlags)
  | goProbeResponse (frame : MgmtFrame)
  | action (frame : MgmtFrame)
deriving DecidableEq

/-- The part of `struct ath6kl_sta` that power saving works on. The first four fields are
`STA_PS_SLEEP`, `STA_PS_POLLED`, `STA_PS_APSD_TRIGGER` and `STA_PS_APSD_EOSP` of `sta_flags`;
`pvb` is the flag of the last PVB command for the station's aid, `apsdTraffic` the arguments
of the last `ath6kl_wmi_set_apsd_buffered_traffic_cmd`. -/
structure Sta where
  sleep : Bool := false
  polled : Bool := false
  apsdTrigger : Bool := false
  apsdEosp : Bool := false
  psqData : List (PsBuf DataFrame) := []
  psqMgmt : List (PsBuf MgmtFrame) := []
  pvb : Bool := false
  apsdTraffic : Bool × Bool := (false, false)
  sent : List Sent := []
deriving DecidableEq

/-- `WMM_ENABLED` and `conn->apsd_info`. -/
structure Config where
  wmm : Bool := true
  apsdInfo : Nat := 0

/-- `up_to_ac`, with `WMM_AC_BE` 0, `WMM_AC_BK` 1, `WMM_AC_VI` 2 and `WMM_AC_VO` 3. -/
def upToAc : List Nat := [0, 1, 1, 0, 2, 2, 3, 3]

/-- `ath6kl_wmi_determine_user_priority` with layer-2 priority 0. -/
def determineUserPriority (tos : Nat) : Nat := tos / 32 % 8

/-- The `trigger` of `__powersave_ap_tx_unicast_sleep`: the frame is of a trigger-enabled
access category. -/
def isTrigger (cfg : Config) (frame : DataFrame) : Bool :=
  if cfg.apsdInfo = 0 then false
  else
    let up := if cfg.wmm then (frame.ipTos.map determineUserPriority).getD 0 else 0
    cfg.apsdInfo.testBit (upToAc.getD up 0)

/-- Both `ath6kl_ps_queue_empty`. -/
def Sta.psqEmpty (s : Sta) : Bool := s.psqData.isEmpty && s.psqMgmt.isEmpty

/-- `ath6kl_ps_queue_enqueue_data` and `ath6kl_ps_queue_enqueue_mgmt`; `none` for `-EBUSY`
and `-ENOMEM`. -/
def psQueueEnqueue {α : Type} (maxDepth : Nat) (psq : List (PsBuf α)) (frame : α)
    (alloc : Bool) : Option (List (PsBuf α)) :=
  if maxDepth ≠ psQueueNoDepth ∧ psq.length > maxDepth then none
  else if alloc then some (psq ++ [⟨frame, 0⟩]) else none

/-- `ath6kl_ps_queue_aging`. -/
def psQueueAging {α : Type} (ageCycle : Nat) (psq : List (PsBuf α)) : List (PsBuf α) :=
  psq.filterMap fun b =>
    if ageCycle ≠ psQueueNoAge ∧ b.age+1 ≥ ageCycle then none else some ⟨b.frame, b.age+1⟩

/-- `ath6kl_ps_queue_age_handler`: the management queue ages only if the data queue is
empty, and the PVB command is sent under the lock. -/
def ageHandler (s : Sta) : Sta :=
  let s := { s with psqData := psQueueAging psQueueMaxAge s.psqData }
  if s.psqData.isEmpty then
    let s := { s with psqMgmt := psQueueAging psQueueMaxAge s.psqMgmt }
    if s.psqMgmt.isEmpty then { s with pvb := false } else s
  else s

/-- How far `ath6kl_data_tx` has come with a frame. -/
inductive Tx
  | test (frame : DataFrame)
  | queue (frame : DataFrame)
  | awake (frame : DataFrame)
  | apsd
  | pvb
deriving DecidableEq

/-- The locked section of `__powersave_ap_tx_unicast_sleep`. -/
def unicastSleep (cfg : Config) (s : Sta) (frame : DataFrame) (alloc : Bool) :
    Sta × Option Tx :=
  match psQueueEnqueue psQueueMaxDepth s.psqData frame alloc with
  | none => (s, none)
  | some psq =>
    ({ s with psqData := psq },
      if s.psqEmpty then some (if isTrigger cfg frame then .apsd else .pvb) else none)

/-- The flags `__powersave_ap_tx_unicast_awake` finds under the lock. -/
def unicastAwakeFlags (s : Sta) : WmiDataFlags where
  more := !s.psqEmpty
  eosp := !s.polled && s.apsdEosp
  triggered := !s.polled
  pspolled := s.polled

/-- One step of `ath6kl_data_tx`; `none` once it is done with the frame. -/
def txStep (cfg : Config) (s : Sta) (alloc : Bool) : Tx → Sta × Option Tx
  | .test frame =>
    if s.sleep then
      if !(s.polled || s.apsdTrigger) then (s, some (.queue frame)) else (s, some (.awake frame))
    else ({ s with sent := s.sent ++ [.data frame {}] }, none)
  | .queue frame => unicastSleep cfg s frame alloc
  | .awake frame => ({ s with sent := s.sent ++ [.data frame (unicastAwakeFlags s)] }, none)
  | .apsd => ({ s with apsdTraffic := (true, false) }, some .pvb)
  | .pvb => ({ s with pvb := true }, none)

def sendMgmt (s : Sta) (frame : MgmtFrame) : Sta :=
  { s with sent := s.sent ++ [if frame.probeResp then .goProbeResponse frame else .action frame] }

/-- What `_powersave_ap_rx` remembers: `prev_ps`, `ps_state` and `trigger_state`. -/
structure Rx where
  prevPs : Bool
  psState : Bool
  triggerState : Bool
deriving DecidableEq

/-- The locals of `ath6kl_uapsd_trigger_frame_rx`. -/
structure Uapsd where
  isPsqEmpty : Bool
  isPsqEmptyAtStart : Bool
  numFramesToDeliver : Nat
deriving DecidableEq

inductive Item
  | data (frame : DataFrame)
  | mgmt (frame : MgmtFrame)
deriving DecidableEq

/-- Where a thread is. The prefix names the operation: `ath6kl_data_tx`,
`ath6kl_mgmt_powersave_ap`, `ath6kl_pspoll_event`, `ath6kl_uapsd_trigger_frame_rx`,
`_powersave_ap_rx`; `flush` is the loop of the last one when the station wakes up. -/
inductive Pc
  | idle
  | dataTx (tx : Tx)
  | mgmtTest (frame : MgmtFrame)
  | mgmtQueue (frame : MgmtFrame)
  | mgmtMore (frame : MgmtFrame)
  | mgmtPvb
  | pollTake
  | pollSet (item : Item)
  | pollSend (frame : MgmtFrame)
  | pollTx (tx : Tx)
  | pollClear
  | pollCheck
  | pollPvb
  | trigLook (r : Rx)
  | trigTake (r : Rx) (u : Uapsd)
  | trigSet (r : Rx) (u : Uapsd) (item : Item)
  | trigSend (r : Rx) (u : Uapsd) (frame : MgmtFrame)
  | trigTx (r : Rx) (u : Uapsd) (tx : Tx)
  | trigClear (r : Rx) (u : Uapsd)
  | trigPvb (r : Rx) (u : Uapsd)
  | trigApsd (r : Rx) (u : Uapsd)
  | rxRead (psState triggerState : Bool)
  | rxUpdate (r : Rx)
  | rxDecide (r : Rx)
  | rxCompare (r : Rx)
  | flushStart
  | flushSend (atStart : Bool) (frame : MgmtFrame)
  | flushMgmt (atStart : Bool)
  | flushTx (atStart : Bool) (tx : Tx)
  | flushData (atStart : Bool)
  | flushApsd
  | flushPvb
deriving DecidableEq

/-- Go on with `ath6kl_data_tx` as `inside`, or return from it to `after`. -/
def resume (inside : Tx → Pc) (after : Pc) : Sta × Option Tx → Sta × Pc
  | (s, some tx) => (s, inside tx)
  | (s, none) => (s, after)

/-- The locked section of `ath6kl_mgmt_powersave_ap` for a sleeping station. -/
def mgmtSleep (s : Sta) (frame : MgmtFrame) (alloc : Bool) : Sta × Pc :=
  match psQueueEnqueue psQueueNoDepth s.psqMgmt frame alloc with
  | none => (s, .idle)
  | some psq => ({ s with psqMgmt := psq }, if s.psqEmpty then .mgmtPvb else .idle)

/-- The first locked section of `ath6kl_pspoll_event`. -/
def pollTakeFrame (s : Sta) : Sta × Pc :=
  match s.psqMgmt, s.psqData with
  | m::ms, _ => ({ s with psqMgmt := ms }, .pollSet (.mgmt m.frame))
  | [], d::ds => ({ s with psqData := ds }, .pollSet (.data d.frame))
  | [], [] => (s, .idle)

/-- The head of the loop of `ath6kl_uapsd_trigger_frame_rx`, and what follows the loop. -/
def trigLoop (r : Rx) (u : Uapsd) : Pc :=
  if !u.isPsqEmpty && u.numFramesToDeliver ≠ 0 then .trigTake r u
  else if u.isPsqEmpty then .trigPvb r u
  else .rxCompare r

/-- `num_frames_to_deliver` for a service period. -/
def maxFramesToDeliver (cfg : Config) : Nat :=
  if cfg.apsdInfo / 16 % 16 = 0 then 0xFFFF else cfg.apsdInfo / 16 % 16

/-- The locked section in the loop of `ath6kl_uapsd_trigger_frame_rx`. -/
def trigTakeFrame (s : Sta) (r : Rx) (u : Uapsd) : Sta × Pc :=
  match s.psqMgmt, s.psqData with
  | m::ms, _ =>
    let s := { s with psqMgmt := ms }
    (s, .trigSet r { u with isPsqEmpty := s.psqEmpty } (.mgmt m.frame))
  | [], d::ds =>
    let s := { s with psqData := ds }
    (s, .trigSet r { u with isPsqEmpty := s.psqEmpty } (.data d.frame))
  | [], [] => (s, trigLoop r { u with isPsqEmpty := true })

def flushTakeData (s : Sta) (atStart : Bool) : Sta × Pc :=
  match s.psqData with
  | d::ds => ({ s with psqData := ds }, .flushTx atStart (.test d.frame))
  | [] => (s, if atStart then .flushPvb else .flushApsd)

/-- A locked section of the first flush loop; the lock is kept on the way into the second. -/
def flushTakeMgmt (s : Sta) (atStart : Bool) : Sta × Pc :=
  match s.psqMgmt with
  | m::ms => ({ s with psqMgmt := ms }, .flushSend atStart m.frame)
  | [] => flushTakeData s atStart

/-- One step of a thread. `alloc` answers the allocation of a queue entry. -/
def move (cfg : Config) (s : Sta) (pc : Pc) (alloc : Bool) : Sta × Pc :=
  match pc with
  | .idle => (s, .idle)
  | .dataTx tx => resume .dataTx .idle (txStep cfg s alloc tx)
  | .mgmtTest frame =>
    if s.sleep then
      if !s.polled then (s, .mgmtQueue frame) else (s, .mgmtMore frame)
    else (sendMgmt s frame, .idle)
  | .mgmtQueue frame => mgmtSleep s frame alloc
  | .mgmtMore frame => (sendMgmt s frame, .idle)
  | .mgmtPvb => ({ s with pvb := true }, .idle)
  | .pollTake => pollTakeFrame s
  | .pollSet item =>
    ({ s with polled := true }, match item with
      | .mgmt frame => .pollSend frame
      | .data frame => .pollTx (.test frame))
  | .pollSend frame => (sendMgmt s frame, .pollClear)
  | .pollTx tx => resume .pollTx .pollClear (txStep cfg s alloc tx)
  | .pollClear => ({ s with polled := false }, .pollCheck)
  | .pollCheck => (s, if s.psqEmpty then .pollPvb else .idle)
  | .pollPvb => ({ s with pvb := false }, .idle)
  | .trigLook r => (s, trigLoop r ⟨s.psqEmpty, s.psqEmpty, maxFramesToDeliver cfg⟩)
  | .trigTake r u => trigTakeFrame s r u
  | .trigSet r u item =>
    let u := { u with numFramesToDeliver := u.numFramesToDeliver - 1 }
    ({ s with apsdTrigger := true
              apsdEosp := s.apsdEosp || u.isPsqEmpty || u.numFramesToDeliver = 0 },
      match item with
      | .mgmt frame => .trigSend r u frame
      | .data frame => .trigTx r u (.test frame))
  | .trigSend r u frame => (sendMgmt s frame, .trigClear r u)
  | .trigTx r u tx => resume (.trigTx r u) (.trigClear r u) (txStep cfg s alloc tx)
  | .trigClear r u => ({ s with apsdTrigger := false, apsdEosp := false }, trigLoop r u)
  | .trigPvb r u => ({ s with pvb := false }, .trigApsd r u)
  | .trigApsd r u => ({ s with apsdTraffic := (false, u.isPsqEmptyAtStart) }, .rxCompare r)
  | .rxRead psState triggerState => (s, .rxUpdate ⟨s.sleep, psState, triggerState⟩)
  | .rxUpdate r => ({ s with sleep := r.psState }, .rxDecide r)
  | .rxDecide r => (s, if s.sleep && r.triggerState then .trigLook r else .rxCompare r)
  | .rxCompare r => (s, if r.prevPs && !s.sleep then .flushStart else .idle)
  | .flushStart => flushTakeMgmt s s.psqEmpty
  | .flushSend atStart frame => (sendMgmt s frame, .flushMgmt atStart)
  | .flushMgmt atStart => flushTakeMgmt s atStart
  | .flushTx atStart tx => resume (.flushTx atStart) (.flushData atStart) (txStep cfg s alloc tx)
  | .flushData atStart => flushTakeData s atStart
  | .flushApsd => ({ s with apsdTraffic := (false, false) }, .flushPvb)
  | .flushPvb => ({ s with pvb := false }, .idle)

inductive Op
  | dataTx (frame : DataFrame)
  | mgmtTx (frame : MgmtFrame)
  | pspoll
  | rx (psState triggerState : Bool)
deriving DecidableEq

def Op.pc : Op → Pc
  | .dataTx frame => .dataTx (.test frame)
  | .mgmtTx frame => .mgmtTest frame
  | .pspoll => .pollTake
  | .rx psState triggerState => .rxRead psState triggerState

abbrev Ap := Sys Sta Pc

/-- A new operation begins, an operation in progress takes a step, or the aging timer
expires. -/
inductive Event
  | start (op : Op)
  | next (thread : Nat) (alloc : Bool)
  | age
deriving DecidableEq

def step (cfg : Config) (s : Ap) : Event → Ap
  | .start op => s.spawn op.pc
  | .next thread alloc => s.next (move cfg) thread alloc
  | .age => ⟨ageHandler s.shared, s.threads⟩

end Ath6kl.PowerSave
