import Ath6kl.Htc
import Ath6kl.Lib.Machine
import Mathlib.Logic.Function.Basic

/-! P2P flow control (`p2p.c`): the queues of each connection, the packets taken back from
the HTC endpoints when the channel is left, and the connection table. Each operation is one step:
`p2p_flowctrl_lock` is dropped on the way where a packet is scheduled and then sent, and where
`ath6kl_p2p_flowctrl_set_conn_id` collects the packets of a connection, and what another context
does just there is left out. -/
namespace Ath6kl.P2pFlowctrl
open Htc Lib.Machine

/-- `NUM_CONN`: `AP_MAX_NUM_STA`, which is 10, and `NUM_DEV`, which is 4. -/
abbrev numConn : Nat := 14

instance numConn_ne_zero : @NeZero Nat Zero.ofOfNat0 14 := ⟨Nat.succ_ne_zero 13⟩

abbrev ConnId := Fin numConn

abbrev Mac := List UInt8

def isMulticast (mac : Mac) : Bool := (mac.headD 0).toNat % 2 = 1

/-- `ATH6KL_P2P_FLOWCTRL_RECYCLE_LIMIT`. -/
def recycleLimit : Nat := 10

/-- `ATH6KL_CONTROL_PKT_TAG`, `ATH6KL_DATA_PKT_TAG` and `ATH6KL_PRI_DATA_PKT_TAG`. -/
inductive Tag
  | control
  | data
  | priData
deriving DecidableEq

/-- The part of `struct htc_packet` flow control looks at; `connid` is `none` for
`ATH6KL_P2P_FLOWCTRL_NULL_CONNID`. `serial` numbers the submissions. -/
structure Packet where
  serial : Nat
  connid : Option ConnId
  endpoint : Eid
  tag : Tag
  recycleCount : Nat := 0
deriving DecidableEq

/-- The part of `struct ath6kl_vif` the connection table needs. -/
structure Vif where
  idx : Nat
  apNetwork : Bool
  devAddr : Mac

/-- `struct ath6kl_fw_conn_list`. -/
structure FwConn where
  connQueue : List Packet := []
  reQueue : List Packet := []
  connId : Option ConnId := none
  parentConnId : Option ConnId := none
  macAddr : Mac := List.replicate 6 0
  vif : Option Nat := none
  connectStatus : Nat := 0
  previousCanSend : Bool := true
  scheTxQueued : Int := 0

/-- The off-channel bit of `connect_status`. -/
def FwConn.ocs (c : FwConn) : Bool := c.connectStatus.testBit 5

/-- `struct ath6kl_p2p_flowctrl` and the HTC endpoint queues. `serial` is the number of the
next submission; `htcTx`, `completed` and `takenBack` list the packets given to
`ath6kl_htc_tx`, given to `ath6kl_tx_complete` and taken off an HTC queue, in order. -/
structure Flowctrl where
  conn : ConnId → FwConn := fun _ => {}
  skipFlowctrlEvent : Bool := false
  txq : Eid → List Packet := fun _ => []
  serial : Nat := 0
  htcTx : List Packet := []
  completed : List Packet := []
  takenBack : List Packet := []

def Flowctrl.setConn (s : Flowctrl) (i : ConnId) (c : FwConn) : Flowctrl :=
  { s with conn := Function.update s.conn i c }

/-- `ath6kl_htc_tx`: the packet joins the queue of its endpoint. -/
def Flowctrl.send (s : Flowctrl) (p : Packet) : Flowctrl :=
  { s with txq := Function.update s.txq p.endpoint (s.txq p.endpoint ++ [p])
           htcTx := s.htcTx ++ [p] }

/-- `ath6kl_tx_complete`. -/
def Flowctrl.complete (s : Flowctrl) (ps : List Packet) : Flowctrl :=
  { s with completed := s.completed ++ ps }

def checkCanSend (s : Flowctrl) (c : FwConn) : Bool := !(c.ocs && !s.skipFlowctrlEvent)

/-- `ath6kl_p2p_flowctrl_conn_collect_by_conn`: the queues of connection `i` go to the
container of the caller, who completes it. -/
def collectByConn (s : Flowctrl) (i : ConnId) : Flowctrl :=
  let c := s.conn i
  let container := c.reQueue ++ c.connQueue
  (s.setConn i { c with reQueue := [], connQueue := []
                        scheTxQueued := c.scheTxQueued - container.length }).complete container

/-- `ath6kl_p2p_flowctrl_conn_list_cleanup`. -/
def connListCleanup (s : Flowctrl) : Flowctrl := (List.finRange numConn).foldl collectByConn s

def findParentConnId (s : Flowctrl) (hintVif : Nat) : Option ConnId :=
  ((List.finRange numConn).find? fun i =>
    (s.conn i).connId ≠ none ∧ (s.conn i).vif = some hintVif ∧
      (s.conn i).parentConnId = (s.conn i).connId).bind fun i => (s.conn i).connId

/-- `ath6kl_p2p_flowctrl_conn_list_cleanup_by_if`. -/
def connListCleanupByIf (s : Flowctrl) (vif : Nat) : Flowctrl :=
  match findParentConnId s vif with
  | none => s
  | some vifConnId =>
    (List.finRange numConn).foldl (fun s i =>
      if (s.conn i).parentConnId ≠ some vifConnId then s else collectByConn s i) s

/-- The turn of connection `i` in `ath6kl_p2p_flowctrl_tx_schedule`. -/
def txScheduleConn (s : Flowctrl) (i : ConnId) : Flowctrl :=
  let c := s.conn i
  if c.connId = none then s
  else if checkCanSend s c then
    let s := s.setConn i { c with reQueue := [], connQueue := []
                                  scheTxQueued := c.scheTxQueued - c.reQueue.length
                                    - c.connQueue.length }
    (c.reQueue ++ c.connQueue).foldl Flowctrl.send s
  else s

/-- `ath6kl_p2p_flowctrl_tx_schedule`. -/
def txSchedule (s : Flowctrl) : Flowctrl := (List.finRange numConn).foldl txScheduleConn s

/-- Put a packet on a queue of connection `i`: at the end of `conn_queue`, or for a priority
packet at the head of `re_queue`. -/
def enqueue (s : Flowctrl) (i : ConnId) (p : Packet) : Flowctrl :=
  let c := s.conn i
  if p.tag ≠ .priData then
    s.setConn i { c with connQueue := c.connQueue ++ [p], scheTxQueued := c.scheTxQueued+1 }
  else s.setConn i { c with reQueue := p :: c.reQueue, scheTxQueued := c.scheTxQueued+1 }

/-- `ath6kl_p2p_flowctrl_tx_schedule_pkt`: 0 if the packet is queued, 1 if the caller is to
send it. -/
def txSchedulePkt (s : Flowctrl) (p : Packet) : Flowctrl × Int :=
  match p.connid with
  | none => (s, 1)
  | some i =>
    if !checkCanSend s (s.conn i) then (enqueue s i p, 0)
    else if (s.conn i).connQueue ≠ [] ∨ (s.conn i).reQueue ≠ [] then
      (txSchedule (enqueue s i p), 0)
    else (s, 1)

def agedOut (p : Packet) : Bool := p.recycleCount > recycleLimit

def recycled (p : Packet) : Packet := { p with recycleCount := p.recycleCount+1 }

/-- The packets of connection `i` on the queue of endpoint `e`. -/
def ofConn (s : Flowctrl) (i : ConnId) (e : Eid) : List Packet :=
  (s.txq e).filter fun p => p.connid = some i

/-- The turn of endpoint `e` in `ath6kl_p2p_flowctrl_state_change`: its packets of connection
`i` are taken back, to `re_queue` or, recycled too often, to be completed. -/
def takeBack (i : ConnId) (s : Flowctrl) (e : Eid) : Flowctrl :=
  let c := s.conn i
  let back := ofConn s i e
  let again := (back.filter fun p => !agedOut p).map recycled
  let s := s.setConn i { c with reQueue := c.reQueue ++ again
                                scheTxQueued := c.scheTxQueued + again.length }
  { s with txq := Function.update s.txq e ((s.txq e).filter fun p => p.connid ≠ some i)
           completed := s.completed ++ back.filter agedOut
           takenBack := s.takenBack ++ back }

/-- `ENDPOINT_5` down to `ENDPOINT_2`. -/
def dataEndpoints : List Eid := [5, 4, 3, 2]

/-- The turn of connection `i` in `ath6kl_p2p_flowctrl_state_change`. -/
def stateChangeConn (s : Flowctrl) (i : ConnId) : Flowctrl :=
  let flowctrlAllowed := checkCanSend s (s.conn i)
  let s := if !flowctrlAllowed && (s.conn i).previousCanSend then dataEndpoints.foldl (takeBack i) s
    else s
  s.setConn i { s.conn i with previousCanSend := flowctrlAllowed }

/-- `ath6kl_p2p_flowctrl_state_change`. -/
def stateChange (s : Flowctrl) : Flowctrl := (List.finRange numConn).foldl stateChangeConn s

/-- `ath6kl_p2p_flowctrl_state_update`; `acMap` has one entry for each connection reported. -/
def stateUpdate (s : Flowctrl) (acMap : List Nat) : Flowctrl :=
  { s with conn := fun i =>
      match acMap[i.val]? with
      | some status => { s.conn i with connectStatus := status }
      | none => s.conn i }

/-- `ath6kl_p2p_flowctrl_set_conn_id`, with a MAC address or, to disconnect, without. -/
def setConnId (s : Flowctrl) (vif : Vif) (macAddr : Option Mac) (connId : ConnId) : Flowctrl :=
  match macAddr with
  | some mac =>
    let s := if (s.conn connId).scheTxQueued ≠ 0 then collectByConn s connId else s
    let s := s.setConn connId { s.conn connId with
      vif := some vif.idx, connId := some connId, macAddr := mac }
    -- the parent of a client of a group owner is the group owner
    let parent :=
      if vif.apNetwork ∧ vif.devAddr ≠ mac then findParentConnId s vif.idx else some connId
    s.setConn connId { s.conn connId with parentConnId := parent, scheTxQueued := 0 }
  | none =>
    s.setConn connId { s.conn connId with
      connId := none, parentConnId := none, connectStatus := 0, previousCanSend := true
      macAddr := List.replicate 6 0, scheTxQueued := 0 }

/-- The address `ath6kl_p2p_flowctrl_get_conn_id` looks for. -/
def connHint (vif : Vif) (hSource hDest : Mac) : Mac :=
  if !vif.apNetwork then hSource else if isMulticast hDest then hSource else hDest

/-- `ath6kl_p2p_flowctrl_get_conn_id`. -/
def getConnId (s : Flowctrl) (hint : Mac) : Option ConnId :=
  ((List.finRange numConn).find? fun i =>
    (s.conn i).connId ≠ none ∧ (s.conn i).macAddr = hint).bind fun i => (s.conn i).connId

/-- The end of `ath6kl_data_tx`: the packet gets its connection, and is sent by the caller if
flow control does not keep it. -/
def dataTx (s : Flowctrl) (hint : Mac) (endpoint : Eid) (tag : Tag) : Flowctrl :=
  let p : Packet := ⟨s.serial, getConnId s hint, endpoint, tag, 0⟩
  let (s, ret) := txSchedulePkt { s with serial := s.serial+1 } p
  if ret = 0 then s else s.send p

/-- The operations, and HTC taking the `k`-th packet off the queue of an endpoint: to send it
if `k` is 0, to turn it away or flush it otherwise. -/
inductive Event
  | dataTx (vif : Vif) (hSource hDest : Mac) (endpoint : Eid) (tag : Tag)
  | txSchedule
  | stateUpdate (acMap : List Nat)
  | stateChange
  | setConnId (vif : Vif) (macAddr : Option Mac) (connId : ConnId)
  | connListCleanup
  | connListCleanupByIf (vif : Nat)
  | setSkipFlowctrlEvent (skip : Bool)
  | htcTake (endpoint : Eid) (k : Nat)

def step (s : Flowctrl) : Event → Flowctrl
  | .dataTx vif hSource hDest endpoint tag => dataTx s (connHint vif hSource hDest) endpoint tag
  | .txSchedule => txSchedule s
  | .stateUpdate acMap => stateUpdate s acMap
  | .stateChange => stateChange s
  | .setConnId vif macAddr connId => setConnId s vif macAddr connId
  | .connListCleanup => connListCleanup s
  | .connListCleanupByIf vif => connListCleanupByIf s vif
  | .setSkipFlowctrlEvent skip => { s with skipFlowctrlEvent := skip }
  | .htcTake endpoint k =>
    { s with txq := Function.update s.txq endpoint ((s.txq endpoint).eraseIdx k) }

end Ath6kl.P2pFlowctrl
