import Ath6kl.WmmStream

/-! `ath6kl_wmi_sync_point` (`wmi.c`), beside the operations that change `fat_pipe_exist`. A step is one
section under `wmi->lock`, with what the call does on its own after it, or one send. -/
namespace Ath6kl.SyncPoint
open WmmStream

/-- The endpoints of the access classes and that of the commands, `wmi->ep_id`. -/
structure Endpoints where
  ac2ep : Ac → Nat
  epId : Nat

/-- What the steps cannot decide: whether the buffer of the command and those of the messages are
allocated, whether the interface is valid and the target asleep, and what `ath6kl_control_tx`
returns. -/
structure Answer where
  alloc : Bool := true
  allocs : List Bool := []
  ifIdx : Bool := true
  asleep : Bool := false
  controlTx : Int := 0

/-- Where the call stands. `sending` holds the classes whose message is still in `data_sync_bufs`. -/
inductive Pc
  | start
  | found (streams : List Ac)
  | ready (streams : List Ac)
  | sending (streams : List Ac)
  | done (ret : Int)

/-- What the call met: the bitmap at its two sections and the answers. -/
structure Met where
  first : BitVec 8 := 0
  second : BitVec 8 := 0
  alloc : Answer := {}
  command : Answer := {}
  sends : List Answer := []

/-- A call. The message of a class is allocated, freed or queued on the endpoint of the class, where
each list has one entry for each time; `commandSent` tells that the command is queued. These and
`met` are history. -/
structure Call where
  pc : Pc := .start
  dataSyncMap : BitVec 8 := 0
  commandSent : Bool := false
  allocated : List Ac := []
  freed : List Ac := []
  queued : List Ac := []
  met : Met := {}

def streams (fatPipeExist : BitVec 8) : List Ac :=
  (List.finRange wmmNumAc).filter fun index => fatPipeExist.getLsbD index

/-- The messages that are allocated, and whether all are. -/
def allocData : List Ac → List Bool → List Ac × Bool
  | [], _ => ([], true)
  | index::rest, answers =>
    if answers.headD true then
      (index::(allocData rest answers.tail).1, (allocData rest answers.tail).2)
    else ([], false)

/-- `free_data_skb`. -/
def Call.freeData (c : Call) (held : List Ac) (ret : Int) : Call :=
  { c with freed := c.freed ++ held, pc := .done ret }

/-- The second section, between the allocations. -/
def Call.prepare (c : Call) (acs : List Ac) (fatPipeExist : BitVec 8) (a : Answer) : Call :=
  let c := { c with met := { c.met with alloc := a } }
  if ¬ a.alloc then { c with pc := .done enomem }
  else
    let c := { c with dataSyncMap := fatPipeExist, met := { c.met with second := fatPipeExist } }
    let (held, ok) := allocData acs a.allocs
    let c := { c with allocated := held }
    if ok then { c with pc := .ready held } else c.freeData held enomem

def Call.next (c : Call) (held : List Ac) : Call :=
  { c with pc := if held = [] then .done 0 else .sending held }

/-- `ath6kl_wmi_cmd_send`. A command that HTC does not take is dropped without an error. -/
def Call.cmdSend (c : Call) (held : List Ac) (a : Answer) : Call :=
  let c := { c with met := { c.met with command := a } }
  if ¬ a.ifIdx then c.freeData held einval
  else if a.asleep then c.freeData held einval
  else { c with commandSent := a.controlTx = 0 }.next held

/-- `ath6kl_wmi_data_sync_send`, which frees what it does not queue. -/
def Call.dataSyncSend (ep : Endpoints) (c : Call) (index : Ac) (a : Answer) : Call × Int :=
  let c := { c with met := { c.met with sends := c.met.sends ++ [a] } }
  if ep.ac2ep index = ep.epId then ({ c with freed := c.freed ++ [index] }, einval)
  else if a.controlTx ≠ 0 then ({ c with freed := c.freed ++ [index] }, a.controlTx)
  else ({ c with queued := c.queued ++ [index] }, 0)

def Call.step (ep : Endpoints) (fatPipeExist : BitVec 8) (a : Answer) (c : Call) : Call :=
  match c.pc with
  | .start =>
    { c with
      pc := .found (streams fatPipeExist)
      met := { c.met with first := fatPipeExist } }
  | .found acs => c.prepare acs fatPipeExist a
  | .ready held => c.cmdSend held a
  | .sending [] => c
  | .sending (index::held) =>
    let (c, ret) := c.dataSyncSend ep index a
    if ret ≠ 0 then c.freeData held ret else c.next held
  | .done _ => c

structure Wmi where
  fatPipeExist : BitVec 8 := 0
  calls : List Call := []

/-- The sections of the other operations set a bit, clear one, or write a bitmap back
(`ath6kl_wmi_relinquish_implicit_pstream_credits`). -/
inductive Event
  | setPipe (trafficClass : Ac)
  | clearPipe (trafficClass : UInt8)
  | writePipes (streamExist : BitVec 8)
  | call
  | thread (i : Nat) (a : Answer)

def step (ep : Endpoints) (s : Wmi) : Event → Wmi
  | .setPipe trafficClass =>
    { s with fatPipeExist := s.fatPipeExist ||| BitVec.twoPow 8 trafficClass }
  | .clearPipe trafficClass =>
    { s with fatPipeExist := s.fatPipeExist &&& ~~~(BitVec.twoPow 8 trafficClass.toNat) }
  | .writePipes streamExist => { s with fatPipeExist := streamExist }
  | .call => { s with calls := s.calls ++ [{}] }
  | .thread i a => { s with calls := s.calls.modify i (Call.step ep s.fatPipeExist a) }

end Ath6kl.SyncPoint
