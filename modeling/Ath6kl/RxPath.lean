import Ath6kl.RxReorderSession

/-! The receive path (`txrx.c`, `wmi.c`): what `ath6kl_rx` makes of a packet of the data endpoint,
through the reorder buffer of its station and TID, to the network stack or back on the air. -/
namespace Ath6kl.RxPath
open EthFrame RxReorder

/-- An index below `AP_MAX_NUM_STA`. -/
abbrev StaIdx := Fin 10
/-- An index below `NUM_OF_TIDS`. -/
abbrev Tid := Fin 8
/-- The entry that a station interface has for its access point. -/
abbrev apSta : StaIdx := ⟨0, Nat.succ_pos 9⟩

/-- `v & mask`, for a mask of ones. -/
def masked (mask v : Nat) : Fin (mask+1) := ⟨v % (mask+1), Nat.mod_lt v (Nat.succ_pos mask)⟩

def wmiMaxAmsduRxDataFrameLength : Nat := 3840+wmiDataHdrLen+ethHlen+llcSnapHdrLen
def minHdrLen : Nat := ethHlen+wmiDataHdrLen+llcSnapHdrLen

def dot113addrLen : Nat := 24
/-- The QoS header, rounded up to a word. -/
def dot11QosLen : Nat := 28

/-- `struct wmi_data_hdr`, taken apart by its getters. -/
structure WmiDataHdr where
  rssi : UInt8
  up : Tid
  dot11 : Bool
  seqNo : Fin 4096
  amsdu : Bool
  metaVer : Nat
  ifIdx : Nat
  padBeforeData : Nat

def wmiDataHdr (s : Skb) : WmiDataHdr :=
  let info := (s.byte 1).toNat
  let info2 := (s.byte 2).toNat + 256*(s.byte 3).toNat
  let info3 := (s.byte 4).toNat + 256*(s.byte 5).toNat
  { rssi := s.byte 0
    up := masked 7 (info/4)
    dot11 := info/64 % 4 = 1
    seqNo := masked 4095 info2
    amsdu := info2/4096 % 2 = 1
    metaVer := info2/8192 % 8
    ifIdx := info3 % 16
    padBeforeData := info3/256 % 256 }

/-- `skb_pull`: nothing happens if there is less. -/
def skbPull (s : Skb) (n : Nat) : Skb :=
  if n ≤ s.data.length then ⟨s.data.drop n, fun i => s.beyond (i+n)⟩ else s

/-- `skb_push` and a `memcpy` into the room it makes. -/
def skbPush (s : Skb) (bs : Bytes) : Skb := ⟨bs ++ s.data, fun i => s.beyond (i-bs.length)⟩

/-- A `memcpy` to `skb->data`, past its end if need be. -/
def skbWrite (s : Skb) (bs : Bytes) : Skb where
  data := (bs ++ s.data.drop bs.length).take s.data.length
  beyond i := if i < bs.length then bs.getD i 0 else s.beyond i

/-- `ath6kl_wmi_dot3_2_dix` on any buffer. -/
def wmiDot32Dix (s : Skb) : Skb :=
  skbWrite (skbPull s llcSnapHdrLen) (s.copy 0 12 ++ s.copy 20 2)

/-- `ath6kl_wmi_dot11_hdr_remove`. The addresses of a frame between two distribution systems are
left zero. -/
def wmiDot11HdrRemove (s : Skb) : Skb :=
  let fc := (s.byte 0).toNat + 256*(s.byte 1).toNat
  let subType := fc/16 % 16
  let addr1 := s.copy 4 6
  let addr2 := s.copy 10 6
  let addr3 := s.copy 16 6
  let t := if subType = 8 then skbPull s dot11QosLen
    else if subType = 0 then skbPull s dot113addrLen
    else s
  let addrs :=
    if fc/256 % 4 = 0 then addr1 ++ addr2
    else if fc/256 % 4 = 1 then addr3 ++ addr2
    else if fc/256 % 4 = 2 then addr1 ++ addr3
    else List.replicate 12 0
  skbPush (skbPull t llcSnapHdrLen) (addrs ++ t.copy 6 2)

/-- An entry of `sta_list`. -/
structure Sta where
  mac : Bytes
  rxtid : Tid → Rxtid

inductive Out
  | freed
  | control (skb : Skb)
  | toStack (frame : Bytes)
  | toAir (frame : Bytes)

/-- `struct ath6kl_vif`; `up` is `IFF_UP`. -/
structure Vif where
  ap : Bool
  up : Bool
  intraBss : Bool
  fwVifIdx : Nat
  staList : StaIdx → Sta

def dest (frame : Bytes) : Bytes := frame.take 6
def isMulticast (frame : Bytes) : Bool := frame.headD 0 % 2 = 1

/-- `ath6kl_find_sta`. -/
def findSta (v : Vif) (mac : Bytes) : Option StaIdx :=
  if !v.ap then some apSta else (List.finRange 10).find? fun i => (v.staList i).mac == mac

/-- `ath6kl_deliver_frames_to_nw_stack`, built without `DIRECT_AUDIO_SUPPORT` and without
`CONFIG_ANDROID`, with which an EAPOL frame may wait in `pend_skb`. -/
def deliverFrames (v : Vif) (frame : Bytes) : Out :=
  if !v.up then .freed
  else if v.ap ∧ (findSta v (dest frame)).isSome then
    if v.intraBss then .toAir frame else .freed
  else .toStack frame

def Vif.setRxtid (v : Vif) (i : StaIdx) (tid : Tid) (r : Rxtid) : Vif :=
  let sta := v.staList i
  { v with staList := Function.update v.staList i
                        ⟨sta.mac, Function.update sta.rxtid tid r⟩ }

/-- The reorder buffer did something: what it handed over since is delivered. -/
def Vif.reordered (v : Vif) (i : StaIdx) (tid : Tid) (r : Rxtid) : Vif × List Out :=
  (v.setRxtid i tid r,
    (r.delivered.drop ((v.staList i).rxtid tid).delivered.length).map fun d =>
      deliverFrames v d.frame)

/-- A packet as HTC completes it, its header pulled. `bufs` buffers are free for slicing, `alloc`
tells whether a copy can be had. -/
structure Packet where
  failed : Bool := false
  ctrlEp : Bool := false
  skb : Skb
  bufs : Nat := 0
  alloc : Bool := true

variable (disableRxAggrDrop : Bool)

/-- `ath6kl_rx` from its label `rx_aggr_process`. -/
def rxAggrProcess (v : Vif) (i : StaIdx) (h : WmiDataHdr) (s : Skb) (bufs : Nat) :
    Vif × List Out :=
  if !isMulticast s.data ∨ v.ap then
    let r := (v.staList i).rxtid h.up
    let f : RecvFrm := ⟨h.seqNo, h.amsdu, s, bufs⟩
    let (r', isQueued) := aggrProcessRecvFrm disableRxAggrDrop r f
    let res := v.reordered i h.up r'
    if isQueued then res else (res.1, res.2 ++ [deliverFrames v s.data])
  else (v, [deliverFrames v s.data])

/-- The bridge of `ath6kl_rx` in AP mode, for a frame of station `i`. -/
def rxBridge (v : Vif) (i : StaIdx) (h : WmiDataHdr) (s : Skb) (bufs : Nat) (alloc : Bool) :
    Vif × List Out :=
  if isMulticast s.data then
    let res := rxAggrProcess disableRxAggrDrop v i h s bufs
    (res.1, (if alloc then [.toAir s.data] else []) ++ res.2)
  else if h.amsdu then rxAggrProcess disableRxAggrDrop v i h s bufs
  else if (findSta v (dest s.data)).isSome then
    (v, [if v.intraBss then .toAir s.data else .freed])
  else rxAggrProcess disableRxAggrDrop v i h s bufs

/-- A length that is too small, or too large, once the padding is taken off; below the padding it
wraps to a large one, or is negative. -/
def badLen (actLen pad : Nat) : Bool :=
  actLen < pad || actLen-pad < minHdrLen || actLen-pad > wmiMaxAmsduRxDataFrameLength

/-- The headers come off: `ath6kl_rx` up to its conversion to DIX. -/
def rxStrip (h : WmiDataHdr) (s : Skb) : Skb :=
  let s := skbPull s wmiDataHdrLen
  let s := if h.metaVer = 1 then skbPull s 6 else if h.metaVer = 2 then skbPull s 3 else s
  let s := skbPull s h.padBeforeData
  if h.dot11 then wmiDot11HdrRemove s else if !h.amsdu then wmiDot32Dix s else s

/-- `ath6kl_rx`, without what a station's power management makes of the frame. -/
def rx (v : Vif) (p : Packet) : Vif × List Out :=
  if p.failed then (v, [.freed])
  else
    let h := wmiDataHdr p.skb
    let ifIdx := if p.ctrlEp then (p.skb.byte 2).toNat % 16 else h.ifIdx
    -- a packet of another interface
    if ifIdx ≠ v.fwVifIdx then (v, [])
    else if p.ctrlEp then (v, [.control p.skb])
    else if !v.ap then
      if badLen p.skb.data.length h.padBeforeData then (v, [.freed])
      else if !v.up then (v, [.freed])
      else rxAggrProcess disableRxAggrDrop v apSta h (rxStrip h p.skb) p.bufs
    else
      let s := rxStrip h p.skb
      match findSta v (s.copy 6 6) with
      | none => (v, [.freed])
      | some i =>
        if badLen p.skb.data.length h.padBeforeData then (v, [.freed])
        else if !v.up then (v, [.freed])
        else rxBridge disableRxAggrDrop v i h s p.bufs p.alloc

/-- What can happen to the interface: a packet, an event of one reorder buffer, or another setting.
`ath6kl_sta_cleanup` is a `setSta` and a `resetState` of every TID. -/
inductive Event
  | rx (p : Packet)
  | reorder (i : StaIdx) (tid : Tid) (e : TidEvent)
  | setUp (up : Bool)
  | setIntraBss (intraBss : Bool)
  | setSta (i : StaIdx) (mac : Bytes)

/-- One event, and what it hands over. -/
def step (v : Vif) : Event → Vif × List Out
  | .rx p => rx disableRxAggrDrop v p
  | .reorder i tid e =>
    v.reordered i tid (handle disableRxAggrDrop ((v.staList i).rxtid tid) e)
  | .setUp up => ({ v with up }, [])
  | .setIntraBss intraBss => ({ v with intraBss }, [])
  | .setSta i mac =>
    ({ v with staList := Function.update v.staList i ⟨mac, (v.staList i).rxtid⟩ }, [])

end Ath6kl.RxPath
