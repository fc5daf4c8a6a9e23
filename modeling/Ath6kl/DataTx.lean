import Ath6kl.AmsduTx
import Ath6kl.Lib.Machine
import Ath6kl.P2pFlowctrl

/-! `ath6kl_data_tx` (`txrx.c`) as the stack and the power save code call it, with what can
come between two calls: a flush timer, a new configuration, a station that falls asleep or
wakes up. Each call runs to its end. -/
namespace Ath6kl.DataTx
open EthFrame AmsduTx Lib.Machine
open P2pFlowctrl (Tag)
open PowerSave (PsBuf WmiDataFlags psQueueEnqueue psQueueAging psQueueMaxAge psQueueMaxDepth
  psQueueNoDepth upToAc isTrigger maxFramesToDeliver)

def endpointUnused : Int := -1
/-- `ENDPOINT_2` to `ENDPOINT_5`. -/
def ibssEndpoints : List Int := [2, 3, 4, 5]
def maxNodeNum : Nat := 15
def maxVifCookieNum : Nat := 200

/-- `struct ath6kl_node_mapping`. -/
structure NodeMapping where
  macAddr : Bytes := []
  epId : Int := 0
  txPend : Nat := 0

/-- What `ath6kl_data_tx` uses of `struct ath6kl`: `WMI_READY`, `WMI_ENABLED`, `MCC_ENABLED`,
the endpoint maps, the free cookies and the counters. `connected` is `CONNECTED` and
`dataCookieCount` is `data_cookie_count`, both of the interface. `ctrlEp` is `ctrl_ep`, which is
also the `ep_id` of `struct wmi`, and `ctrlEpFull` is `WMI_CTRL_EP_FULL`; `scanReq` are the
interfaces with a `scan_req`. -/
structure Ar where
  connected : Bool := true
  wmiReady : Bool := true
  wmiEnabled : Bool := true
  mcc : Bool := false
  ibssPsEnable : Bool := false
  ac2epMap : Nat → Int := fun ac => ac + 2
  cookieData : Nat := 0
  cookieCtrl : Nat := 0
  dataCookieCount : Nat := 0
  txPending : Int → Nat := fun _ => 0
  totalTxDataPend : Nat := 0
  nodeNum : Nat := 0
  nodeMap : Nat → NodeMapping := fun _ => {}
  nextEpId : Int := 2
  ctrlEp : Int := 1
  ctrlEpFull : Bool := false
  fatPipeExist : Nat → Bool := fun _ => false
  scanReq : List UInt8 := []

def Ar.setNode (ar : Ar) (n : Nat) (node : NodeMapping) : Ar :=
  { ar with nodeMap := Function.update ar.nodeMap n node }

/-- The endpoint for a new node: a free one, or the next in turn. -/
def Ar.freshEpId (ar : Ar) : Ar × Int :=
  match ibssEndpoints.find? fun e => ar.txPending e = 0 with
  | some e => (ar, e)
  | none =>
    ({ ar with nextEpId := if ar.nextEpId + 1 > 5 then 2 else ar.nextEpId + 1 }, ar.nextEpId)

/-- `ath6kl_ibss_map_epid`: the endpoint and `map_no`. The function returns a `u8`, so
`ENDPOINT_UNUSED` comes back as 255. -/
def ibssMapEpid (ar : Ar) (dest : Bytes) : Ar × Int × Nat :=
  if isMulticastEtherAddr (dest.getD 0 0) then (ar, 2, 0)
  else match (List.range ar.nodeNum).find? fun i => (ar.nodeMap i).macAddr = dest with
    | some i =>
      let node := ar.nodeMap i
      (ar.setNode i { node with txPend := (node.txPend + 1) % 256 }, node.epId, i + 1)
    | none =>
      let free := (List.range ar.nodeNum).find? fun i => (ar.nodeMap i).txPend = 0
      let epMap := free.getD ar.nodeNum
      let ar := if free = none then { ar with nodeNum := (ar.nodeNum + 1) % 256 } else ar
      if free = none ∧ ar.nodeNum > maxNodeNum then (ar, 255, 0)
      else
        let (ar, epId) := ar.freshEpId
        (ar.setNode epMap ⟨dest, epId, ((ar.nodeMap epMap).txPend + 1) % 256⟩, epId, epMap + 1)

/-- `ath6kl_alloc_cookie(ar, COOKIE_TYPE_DATA)` with the count of the interface. -/
def Ar.allocCookieData (ar : Ar) : Option Ar :=
  if ar.cookieData = 0 then none
  else some { ar with
    cookieData := ar.cookieData - 1
    dataCookieCount := ar.dataCookieCount + 1 }

/-- `ath6kl_alloc_cookie(ar, COOKIE_TYPE_CTRL)`. -/
def Ar.allocCookieCtrl (ar : Ar) : Option Ar :=
  if ar.cookieCtrl = 0 then none else some { ar with cookieCtrl := ar.cookieCtrl - 1 }

/-- The cookie that `ath6kl_data_tx` asks for. -/
def Ar.allocCookie (ar : Ar) (tag : Tag) : Option Ar :=
  if tag = .data then
    if ar.mcc ∧ ar.dataCookieCount > maxVifCookieNum then none else ar.allocCookieData
  else ar.allocCookieCtrl

def Ar.count (ar : Ar) (eid : Int) : Ar :=
  { ar with
    txPending := Function.update ar.txPending eid (ar.txPending eid + 1)
    totalTxDataPend := ar.totalTxDataPend + 1 }

/-- `ath6kl_control_tx`: a packet that gets no cookie is dropped. -/
def Ar.controlTx (ar : Ar) (eid : Int) : Option Ar :=
  if ar.ctrlEpFull ∧ eid = ar.ctrlEp then none
  else ar.allocCookieCtrl.map fun ar => { ar with
    txPending := Function.update ar.txPending eid (ar.txPending eid + 1)
    totalTxDataPend :=
      if eid ≠ ar.ctrlEp then ar.totalTxDataPend + 1 else ar.totalTxDataPend }

/-- The commands that go out on the way of a frame. -/
inductive TxCmd
  | setPvb (aid : Nat)
  | setApsdBufferedTraffic (aid : Nat)
  | createPstream (trafficClass : Nat) (userPri : Tid)
  | abortScan (ifIdx : UInt8)
deriving DecidableEq

/-- `ath6kl_p2p_flowctrl_tx_schedule_pkt`: 1, 0 and below 0; without flow control, `send`. -/
inductive FlowRet
  | send
  | queue
  | error
deriving DecidableEq

/-- Whether the frame has room for its headers: as it is, in a new buffer, which shows other
bytes behind its end, or not at all. -/
inductive Headroom
  | enough
  | realloc (beyond : Nat → UInt8)
  | failed

/-- What one call of `ath6kl_data_tx` finds: whether a clone could be copied, the headroom,
the other allocations (a power save buffer, the buffer of a command, `amsdu_skb`, the aligned
copy), the time, and the answers of flow control for the frame and for the aggregates it
flushes. -/
structure Env where
  copyOk : Bool := true
  headroom : Headroom := .enough
  psAlloc : Bool := true
  cmdAlloc : TxCmd → Bool := fun _ => true
  amsduAlloc : Bool := true
  expandOk : Bool := true
  clk : Clock := {}
  flow : FlowRet := .send
  flushFlow : Tid → FlowRet := fun _ => .send

/-- The driver: `htcTx` are the buffers handed to `ath6kl_htc_tx`, `cmdTx` the commands handed to
it, `flowQ` the buffers that flow control keeps, `submitted` what the stack handed over. -/
structure Driver where
  vif : Vif
  ar : Ar
  htcTx : List TxSkb := []
  cmdTx : List TxCmd := []
  flowQ : List TxSkb := []
  submitted : List Msdu := []

/-- `ath6kl_wmi_cmd_send`, after `ath6kl_wmi_get_new_buf`. -/
def Driver.cmdSend (env : Env) (s : Driver) (cmd : TxCmd) : Driver :=
  if env.cmdAlloc cmd then
    match s.ar.controlTx s.ar.ctrlEp with
    | none => s
    | some ar => { s with ar := ar, cmdTx := s.cmdTx ++ [cmd] }
  else s

def Driver.cmdsSend (s : Driver) (cmds : List TxCmd) (env : Env) : Driver :=
  cmds.foldl (Driver.cmdSend env) s

/-- The end of `ath6kl_data_tx` and of `aggr_tx_tid`. -/
def Driver.submit (s : Driver) (skb : TxSkb) : FlowRet → Driver
  | .send => { s with htcTx := s.htcTx ++ [skb] }
  | .queue => { s with flowQ := s.flowQ ++ [skb] }
  | .error => s

def unmapped (eid : Int) : Bool := eid = 0 || eid = endpointUnused

def aggrTxTid (s : Driver) (i : StaIdx) (tid : Tid) (timerStop : Bool) (clk : Clock)
    (flow : FlowRet) : Driver :=
  let r := aggrTxTake s.vif i tid timerStop clk
  let s := { s with vif := r.1 }
  match r.2 with
  | none => s
  | some skb =>
    let eid := s.ar.ac2epMap (upToAc.getD (wmiDataHdrGetUp skb.data) 0)
    if unmapped eid then s
    else match s.ar.allocCookieData with
      | none => s
      | some ar => { s with ar := ar.count eid }.submit skb flow

/-- The TIDs in the order of `aggr_tx_flush`. -/
def flushTids : List Tid := (List.finRange 8).reverse

def aggrTxFlush (s : Driver) (conn : Option StaIdx) (env : Env) : Driver :=
  let flush (i : StaIdx) := flushTids.foldl
    (fun s tid => aggrTxTid s i tid true env.clk (env.flushFlow tid)) s
  match conn with
  | some i => flush i
  | none => if s.vif.nwType = .infra then flush sta0 else s

/-- `_powersave_ap_tx_multicast`: `none` when the frame is queued or dropped. -/
def powersaveApTxMulticast (vif : Vif) (skb : TxSkb) (alloc : Bool) :
    Vif × Option WmiDataFlags :=
  if (List.finRange 10).any fun i => (vif.sta i).sleep then
    if !vif.dtimExpired then
      let psq := psQueueEnqueue psQueueNoDepth vif.psqMcast skb alloc
      ({ vif with psqMcast := psq.getD vif.psqMcast }, none)
    else (vif, some { more := !vif.psqMcast.isEmpty })
  else (vif, some {})

/-- Both `ath6kl_ps_queue_empty`. -/
def psqEmpty (sta : Sta) : Bool := sta.psqData.isEmpty && sta.psqMgmt.isEmpty

/-- The flags of `__powersave_ap_tx_unicast_awake`. -/
def unicastAwakeFlags (sta : Sta) : WmiDataFlags where
  more := !psqEmpty sta
  triggered := !sta.polled
  eosp := !sta.polled && sta.apsdEosp
  pspolled := sta.polled

/-- `_powersave_ap_tx_unicast` for the station `i`. -/
def powersaveApTxUnicast (vif : Vif) (i : StaIdx) (skb : TxSkb) (alloc : Bool) :
    Vif × Option WmiDataFlags :=
  let sta := vif.sta i
  if sta.sleep then
    if !(sta.polled || sta.apsdTrigger) then
      let psq := psQueueEnqueue psQueueMaxDepth sta.psqData skb alloc
      (vif.setSta i { sta with psqData := psq.getD sta.psqData }, none)
    else (vif, some (unicastAwakeFlags sta))
  else (vif, some {})

def hDest (skb : TxSkb) : Bytes := skb.copy 0 6

/-- The station a frame is for; a group frame in AP mode is for none. -/
def receiver (vif : Vif) (skb : TxSkb) : Option StaIdx :=
  if vif.nwType = .ap ∧ isMulticastEtherAddr (skb.byte 0) then none else vif.findSta (hDest skb)

/-- `ath6kl_powersave_ap`, called in AP mode only: `none` when the frame is consumed, else
its flags and the station that the frame is for. -/
def powersaveAp (vif : Vif) (skb : TxSkb) (alloc : Bool) :
    Vif × Option (WmiDataFlags × Option StaIdx) :=
  if vif.nwType ≠ .ap then (vif, some ({}, none))
  else if isMulticastEtherAddr (skb.byte 0) then
    let r := powersaveApTxMulticast vif skb alloc
    (r.1, r.2.map fun flags => (flags, none))
  else match vif.findSta (hDest skb) with
    | none => (vif, none)
    | some i =>
      let r := powersaveApTxUnicast vif i skb alloc
      (r.1, r.2.map fun flags => (flags, some i))

/-- The TOS byte that `__powersave_ap_tx_unicast_sleep` finds in an IP packet, DIX or 802.3. -/
def ipTos (skb : TxSkb) : Option Nat :=
  let type := ntohs (skb.byte 12) (skb.byte 13)
  let dix := isEthertype type
  let type := if dix then type else ntohs (skb.byte 20) (skb.byte 21)
  if type = ethertypeIp then
    some (skb.byte ((if dix then ethHlen else ethHlen + llcSnapHdrLen) + 1)).toNat
  else none

def mcastAid : Nat := 0xFF

/-- The commands of `ath6kl_powersave_ap`: they announce a frame that is queued first. -/
def powersaveApCmds (vif : Vif) (skb : TxSkb) (alloc : Bool) : List TxCmd :=
  if vif.nwType ≠ .ap then []
  else if isMulticastEtherAddr (skb.byte 0) then
    if ((List.finRange 10).any fun i => (vif.sta i).sleep) && !vif.dtimExpired &&
        (psQueueEnqueue psQueueNoDepth vif.psqMcast skb alloc).isSome && vif.psqMcast.isEmpty then
      [.setPvb mcastAid]
    else []
  else match vif.findSta (hDest skb) with
    | none => []
    | some i =>
      let sta := vif.sta i
      if sta.sleep && !(sta.polled || sta.apsdTrigger) &&
          (psQueueEnqueue psQueueMaxDepth sta.psqData skb alloc).isSome && psqEmpty sta then
        if isTrigger ⟨vif.wmm, sta.apsdInfo⟩ ⟨0, ipTos skb⟩ then
          [.setApsdBufferedTraffic sta.aid, .setPvb sta.aid]
        else [.setPvb sta.aid]
      else []

/-- The end of `ath6kl_wmi_implicit_create_pstream`: the first frame of a class creates its
stream. -/
def Driver.createPstream (s : Driver) (trafficClass : Nat) (usrPri : Tid) (env : Env) : Driver :=
  if s.ar.fatPipeExist trafficClass then s
  else { s with ar := { s.ar with
    fatPipeExist := Function.update s.ar.fatPipeExist trafficClass true } }.cmdSend env
      (.createPstream trafficClass usrPri)

/-- `ath6kl_eapol_handshake_protect`, called for an EAPOL frame: it aborts every scan. -/
def Driver.handshakeProtect (s : Driver) (skb : TxSkb) (env : Env) : Driver :=
  if s.ar.connected && skb.pae then
    { s with ar := { s.ar with scanReq := [] } }.cmdsSend (s.ar.scanReq.map .abortScan) env
  else s

/-- The frame in a buffer with room for its headers. A new buffer does not take over
`skb->protocol`. -/
def Headroom.apply (skb : TxSkb) : Headroom → Option TxSkb
  | .enough => some skb
  | .realloc beyond => some { skb with pae := false, beyond := beyond }
  | .failed => none

/-- `ath6kl_wmi_dix_2_dot3` and `ath6kl_wmi_data_hdr_add`, which push bytes to the front. -/
def encap (vif : Vif) (flags : WmiDataFlags) (skb : TxSkb) : TxSkb :=
  let data := wmiDataHdrAdd flags vif.fwVifIdx (dix2Dot3 skb.data)
  { skb with
    data := data
    beyond := fun i => skb.beyond (i + skb.data.length - data.length) }

/-- The end of `ath6kl_data_tx` from `spin_lock_bh(&ar->lock)` on; `ac` is `none` when the
endpoint comes from `ath6kl_ibss_map_epid`. -/
def dataTxSend (s : Driver) (skb : TxSkb) (ac : Option Nat) (tag : Tag) (env : Env) : Driver :=
  let (ar, eid) := match ac with
    | none =>
      let r := ibssMapEpid s.ar (skb.copy wmiDataHdrLen 6)
      (r.1, r.2.1)
    | some ac => (s.ar, s.ar.ac2epMap ac)
  let s := { s with ar := ar }
  if unmapped eid then s
  else match ar.allocCookie tag with
    | none => s
    | some ar =>
      let s := { s with ar := ar.count eid }
      if env.expandOk then s.submit skb env.flow else s

/-- The A-MSDU section of `ath6kl_data_tx` and what follows it. -/
def dataTxAggr (s : Driver) (skb : TxSkb) (conn : Option StaIdx) (ac : Nat) (tag : Tag)
    (env : Env) : Driver :=
  let r := aggrTx s.vif conn skb env.amsduAlloc env.clk
  let s := { s with vif := r.1 }
  match r.2 with
  | .ok => s
  | .drop => s
  | .done amsdu => dataTxSend s amsdu (some ac) tag env
  | .bypass =>
    dataTxSend (if s.vif.aggr.seqPkt then aggrTxFlush s conn env else s) skb (some ac) tag env

/-- `ath6kl_data_tx` from `ath6kl_wmi_data_hdr_add` on. -/
def dataTxWmi (s : Driver) (skb : TxSkb) (conn : Option StaIdx) (bypassTxAggr : Bool)
    (env : Env) : Driver :=
  if s.vif.nwType = .adhoc ∧ s.ar.ibssPsEnable then
    dataTxSend (s.handshakeProtect skb env) skb none .data env
  else
    let up := usrPri s.vif.wmm skb
    let tag : Tag := if s.vif.wmm && skb.pae then .priData else .data
    let skb := { skb with data := wmiDataHdrSetUp up skb.data }
    let ac := upToAc.getD up 0
    let s := (s.createPstream ac up env).handshakeProtect skb env
    if s.vif.amsduEnabled ∧ !bypassTxAggr ∧ s.vif.aggr.enable ∧
        (s.vif.nwType = .infra ∨ s.vif.nwType = .ap) then
      dataTxAggr s skb conn ac tag env
    else dataTxSend s skb (some ac) tag env

/-- `ath6kl_data_tx`. -/
def dataTx (s : Driver) (skb : TxSkb) (bypassTxAggr : Bool) (env : Env) : Driver :=
  if !s.ar.connected || !s.ar.wmiReady || !env.copyOk then s
  else
    let r := powersaveAp s.vif skb env.psAlloc
    let s := { s with vif := r.1 }.cmdsSend (powersaveApCmds s.vif skb env.psAlloc) env
    match r.2 with
    | none => s
    | some (flags, conn) =>
      if !s.ar.wmiEnabled then s
      else match env.headroom.apply skb with
        | none => s
        | some skb => dataTxWmi s (encap s.vif flags skb) conn bypassTxAggr env

def Driver.modifySta (s : Driver) (i : StaIdx) (f : Sta → Sta) : Driver :=
  { s with vif := s.vif.setSta i (f (s.vif.sta i)) }

/-- Send the head of `psq_data` with flags set around the call of `ath6kl_data_tx`. -/
def psqSendHead (s : Driver) (i : StaIdx) (set clear : Sta → Sta) (env : Env) : Driver :=
  match (s.vif.sta i).psqData with
  | [] => s
  | b::bs =>
    let s := s.modifySta i fun sta => set { sta with psqData := bs }
    (dataTx s b.frame true env).modifySta i clear

/-- The loop of `ath6kl_uapsd_trigger_frame_rx` for at most `n` frames. -/
def uapsdTriggerLoop (s : Driver) (i : StaIdx) (envs : Nat → Env) : Nat → Driver
  | 0 => s
  | n+1 =>
    match (s.vif.sta i).psqMgmt with
    | _::ms =>
      uapsdTriggerLoop (s.modifySta i fun sta =>
        { sta with psqMgmt := ms, apsdTrigger := false, apsdEosp := false }) i envs n
    | [] =>
      if (s.vif.sta i).psqData.isEmpty then s
      else
        uapsdTriggerLoop (psqSendHead s i
          (fun sta => { sta with
            apsdTrigger := true
            apsdEosp := sta.apsdEosp || psqEmpty sta || n = 0 })
          (fun sta => { sta with apsdTrigger := false, apsdEosp := false }) (envs n)) i envs n

/-- The second loop of `_powersave_ap_rx` when the station wakes up: `n` frames are left. -/
def psqFlushLoop (s : Driver) (i : StaIdx) (envs : Nat → Env) : Nat → Driver
  | 0 => s
  | n+1 => psqFlushLoop (psqSendHead s i id id (envs n)) i envs n

/-- `_powersave_ap_rx`, called in AP mode only. -/
def powersaveApRx (s : Driver) (i : StaIdx) (psState triggerState : Bool) (env : Env)
    (envs : Nat → Env) : Driver :=
  if s.vif.nwType ≠ .ap then s
  else
    let prevPs := (s.vif.sta i).sleep
    let s := s.modifySta i fun sta => { sta with sleep := psState }
    let s := if psState && !prevPs then aggrTxFlush s (some i) env else s
    let s := if psState && triggerState then
        uapsdTriggerLoop s i envs
          (maxFramesToDeliver ⟨s.vif.wmm, (s.vif.sta i).apsdInfo⟩)
      else s
    if prevPs && !psState then
      let s := s.modifySta i fun sta => { sta with psqMgmt := [] }
      psqFlushLoop s i envs (s.vif.sta i).psqData.length
    else s

/-- `ath6kl_pspoll_event` once the station is known. -/
def pspollEvent (s : Driver) (i : StaIdx) (env : Env) : Driver :=
  match (s.vif.sta i).psqMgmt with
  | _::ms => s.modifySta i fun sta => { sta with psqMgmt := ms, polled := false }
  | [] => psqSendHead s i (fun sta => { sta with polled := true })
      (fun sta => { sta with polled := false }) env

/-- `ath6kl_ps_queue_age_handler`. -/
def psQueueAgeHandler (s : Driver) (i : StaIdx) : Driver :=
  s.modifySta i fun sta =>
    let psqData := psQueueAging psQueueMaxAge sta.psqData
    { sta with
      psqData := psqData
      psqMgmt := if psqData.isEmpty then psQueueAging psQueueMaxAge sta.psqMgmt else sta.psqMgmt }

/-- What can happen. The stack hands over at least an Ethernet header. `others` is all other use
of `struct ath6kl`: packets complete, other interfaces transmit, the firmware maps endpoints. -/
inductive Event
  | startTx (skb : TxSkb) (hdr : ethHlen ≤ skb.data.length) (env : Env)
  | aggrTxTimeout (i : StaIdx) (tid : Tid) (clk : Clock) (flow : FlowRet)
  | aggrTxConfig (seqPkt progressive : Bool) (maxAggrNum : UInt8) (maxPduLen timeout : UInt16)
  | powersaveApRx (i : StaIdx) (psState triggerState : Bool) (env : Env) (envs : Nat → Env)
  | pspoll (i : StaIdx) (env : Env)
  | psqAge (i : StaIdx)
  | others (ar : Ar)

/-- The station and the TID that `ath6kl_data_tx` finds for the frame. -/
def msduOf (s : Driver) (skb : TxSkb) (env : Env) : Msdu where
  seq := s.submitted.length
  rcv := receiver s.vif skb
  tid := usrPri s.vif.wmm (encap s.vif {} ((env.headroom.apply skb).getD skb))

/-- `ath6kl_start_tx`, and the frame noted as submitted. -/
def startTx (s : Driver) (skb : TxSkb) (env : Env) : Driver :=
  let m := msduOf s skb env
  dataTx { s with submitted := s.submitted ++ [m] } { skb with msdus := [m] } false env

/-- A real expiry: the timer is no longer pending. -/
def aggrTxTimeout (s : Driver) (i : StaIdx) (tid : Tid) (clk : Clock) (flow : FlowRet) : Driver :=
  let vif := s.vif.setTid i tid { (s.vif.sta i).txTid tid with timer := false }
  aggrTxTid { s with vif := vif } i tid false clk flow

def step (s : Driver) : Event → Driver
  | .startTx skb _ env => startTx s skb env
  | .aggrTxTimeout i tid clk flow => aggrTxTimeout s i tid clk flow
  | .aggrTxConfig seqPkt progressive maxAggrNum maxPduLen timeout =>
    { s with vif := { s.vif with
      aggr := aggrTxConfig s.vif.aggr seqPkt progressive maxAggrNum maxPduLen timeout } }
  | .powersaveApRx i psState triggerState env envs =>
    powersaveApRx s i psState triggerState env envs
  | .pspoll i env => pspollEvent s i env
  | .psqAge i => psQueueAgeHandler s i
  | .others ar => { s with ar := ar }

end Ath6kl.DataTx
