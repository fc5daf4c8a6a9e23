import Ath6kl.EthFrame
import Ath6kl.PowerSave
import Mathlib.Data.List.FinRange
import Mathlib.Logic.Function.Basic

/-! A-MSDU aggregation on the transmit path (`txrx.c`, `wmi.c`): the WMI data header, the
aggregate a TID holds, `aggr_tx`, the flush of a TID and the adaptive configuration. -/
namespace Ath6kl.AmsduTx
open EthFrame PowerSave

/-- An index below `AP_MAX_NUM_STA`. -/
abbrev StaIdx := Fin 10
/-- An index below `NUM_OF_TIDS`. -/
abbrev Tid := Fin 8
abbrev Mac := {addr : Bytes // addr.length = 6}

def aggrTxMaxAggrSize : Nat := 1600
def aggrTxMaxPduSize : Nat := 120
def aggrTxMinPduSize : Nat := 64
def aggrTxMaxNum : Nat := 16
def aggrTxTimeout : Nat := 4
def aggrTxProgHsThresh : UInt32 := 1000
def aggrTxProgHsFactor : UInt32 := 2
def aggrTxProgNsThresh : UInt32 := 250
def aggrTxProgNsFactor : UInt32 := 4
def aggrTxProgHsMaxNum : Nat := 22
def aggrTxProgHsTimeout : Nat := 8

/-- `tx_amsdu_max_aggr_len`, which only `aggr_init` sets. -/
def txAmsduMaxAggrLen : Nat := aggrTxMaxAggrSize - 100

def ethertypeIp : Nat := 0x0800
def ipProtoTcp : UInt8 := 0x6
def wmiVoiceUserPriority : Tid := ⟨7, by decide⟩

/-- An MSDU, for the record: when it was submitted, for which station and TID. -/
structure Msdu where
  seq : Nat
  rcv : Option StaIdx
  tid : Tid
deriving DecidableEq

/-- A buffer on its way out. `pae`: the protocol is `ETH_P_PAE`. `msdus` is the record of
what the buffer carries, which no function looks at. -/
structure TxSkb extends Skb where
  pae : Bool := false
  msdus : List Msdu := []

/-- `ath6kl_wmi_data_hdr_add` for `DATA_MSGTYPE`, an 802.3 frame and no meta data: `rssi`,
`info`, then `info2` and `info3`, both little endian. -/
def wmiDataHdrAdd (flags : WmiDataFlags) (ifIdx : UInt8) (skb : Bytes) : Bytes :=
  [0, if flags.more then 0x20 else 0, 0, 0,
    (ifIdx &&& 0xF) ||| (if flags.eosp then 0x10 else 0) |||
      (if flags.triggered then 0x40 else 0) ||| (if flags.pspolled then 0x80 else 0), 0] ++ skb

def wmiDataHdrSetUp (usrPri : Tid) (skb : Bytes) : Bytes :=
  skb.modify 1 fun info => (info &&& (0xE3 : UInt8)) ||| (UInt8.ofNat usrPri <<< (2 : UInt8))

/-- `(wmi_hdr->info >> WMI_DATA_HDR_UP_SHIFT) & WMI_DATA_HDR_UP_MASK`. -/
def wmiDataHdrGetUp (skb : Bytes) : Tid :=
  ⟨(skb.getD 1 0 >>> 2).toNat % 8, Nat.mod_lt _ (by decide)⟩

theorem getUp_setUp (t : Tid) (flags : WmiDataFlags) (ifIdx : UInt8) (skb : Bytes) :
    wmiDataHdrGetUp (wmiDataHdrSetUp t (wmiDataHdrAdd flags ifIdx skb)) = t := by
  have hup : ∀ (b : Bool) (t : Tid), (((if b then (0x20 : UInt8) else 0) &&& (0xE3 : UInt8) |||
      (UInt8.ofNat t <<< (2 : UInt8))) >>> 2).toNat % 8 = t.val := by decide
  exact Fin.ext (hup flags.more t)

/-- The A-MSDU bit of `info2`. -/
def wmiDataHdrSetAmsdu (skb : Bytes) : Bytes := skb.modify 3 fun b => b ||| 0x10

/-- The `usr_pri` of `ath6kl_wmi_implicit_create_pstream` with layer-2 priority 0. -/
def usrPri (wmm : Bool) (skb : TxSkb) : Tid :=
  if !wmm then ⟨0, by decide⟩
  else if skb.pae then wmiVoiceUserPriority
  else if skb.copy (wmiDataHdrLen + ethHlen + 6) 2 = htons ethertypeIp then
    ⟨determineUserPriority (skb.byte (wmiDataHdrLen + ethHlen + llcSnapHdrLen + 1)).toNat,
      Nat.mod_lt _ (by decide)⟩
  else ⟨0, by decide⟩

/-- `struct aggr_info`, the transmit part; every configuration keeps the two ranges. -/
structure AggrInfo where
  enable : Bool := true
  seqPkt : Bool := true
  progressive : Bool := true
  hispeed : Bool := false
  maxAggrNum : Nat := aggrTxMaxNum
  maxPduLen : Nat := aggrTxMaxPduSize
  timeout : Nat := aggrTxTimeout
  num_range : 2 ≤ maxAggrNum ∧ maxAggrNum < 256 := by decide
  pdu_range : aggrTxMinPduSize ≤ maxPduLen ∧ maxPduLen ≤ txAmsduMaxAggrLen / 2 := by decide

/-- What `aggr_tx_config` makes of `tx_amsdu_max_pdu_len`. -/
def configPduLen (pduLen : Nat) : Nat :=
  let pduLen := if pduLen = 0 then aggrTxMaxPduSize
    else if pduLen < aggrTxMinPduSize then aggrTxMinPduSize else pduLen
  if pduLen > txAmsduMaxAggrLen / 2 then txAmsduMaxAggrLen / 2 else pduLen

/-- What `aggr_tx_config` makes of `tx_amsdu_max_aggr_num`. -/
def configAggrNum (num : UInt8) : Nat :=
  if num.toNat = 0 then aggrTxMaxNum else if num.toNat < 2 then 2 else num.toNat

theorem configPduLen_range (pduLen : Nat) : aggrTxMinPduSize ≤ configPduLen pduLen ∧
    configPduLen pduLen ≤ txAmsduMaxAggrLen / 2 := by
  unfold configPduLen
  simp only [aggrTxMinPduSize, aggrTxMaxPduSize, txAmsduMaxAggrLen, aggrTxMaxAggrSize]
  by_cases h0 : pduLen = 0
  · simp [h0]
  · by_cases h1 : pduLen < 64
    · simp [h0, h1]
    · simp only [h0, h1, if_false]
      split <;> omega

theorem configAggrNum_range (num : UInt8) : 2 ≤ configAggrNum num ∧ configAggrNum num < 256 := by
  have hlt := num.toNat_lt
  simp only [configAggrNum, aggrTxMaxNum]
  split_ifs <;> omega

def aggrTxConfig (aggr : AggrInfo) (seqPkt progressive : Bool) (maxAggrNum : UInt8)
    (maxPduLen timeout : UInt16) : AggrInfo where
  enable := aggr.enable
  seqPkt := seqPkt
  progressive := progressive
  hispeed := if !progressive && aggr.progressive then false else aggr.hispeed
  timeout := if timeout.toNat = 0 then aggrTxTimeout else timeout.toNat
  maxPduLen := configPduLen maxPduLen.toNat
  maxAggrNum := configAggrNum maxAggrNum
  num_range := configAggrNum_range maxAggrNum
  pdu_range := configPduLen_range maxPduLen.toNat

/-- An `amsdu_skb` under construction with the fields of `struct txtid` that describe it.
`hdr` is the WMI header ahead of `amsdu_start`, `body` what follows the 14 bytes kept free
there; `amsdu_skb->len` is the length of `body`. -/
structure Amsdu where
  hdr : Bytes
  body : Bytes := []
  cnt : Nat := 0
  len : Nat := 0
  lastpduLen : Nat := 0
  msdus : List Msdu := []

/-- The fresh aggregate: the WMI header of the first frame, turned into an A-MSDU one. -/
def Amsdu.start (skb : TxSkb) : Amsdu where
  hdr := wmiDataHdrSetAmsdu (skb.data.take wmiDataHdrLen)

/-- Append the PDU behind the WMI header of `skb`, filled up to four bytes with zeros. -/
def Amsdu.append (a : Amsdu) (skb : TxSkb) : Amsdu :=
  let pdu := skb.data.drop wmiDataHdrLen
  let subframeLen := align4 pdu.length
  { hdr := a.hdr
    body := a.body ++ (pdu ++ List.replicate (subframeLen - pdu.length) 0)
    cnt := (a.cnt+1) % 256
    lastpduLen := pdu.length % 65536
    len := (a.len + subframeLen) % 65536
    msdus := a.msdus ++ skb.msdus }

/-- The header fix-up that `aggr_tx` and `aggr_tx_tid` make: no padding behind the last PDU,
of length `pduLen`, and the A-MSDU header in the free bytes. -/
def Amsdu.finish (a : Amsdu) (pduLen : Nat) (dest source : Mac) : TxSkb :=
  let len := if pduLen % 4 ≠ 0 then a.body.length - (4 - pduLen % 4) else a.body.length
  { data := a.hdr ++ (dest.val ++ source.val ++ htons len ++ a.body.take len)
    msdus := a.msdus }

/-- The counters of `aggr_tx_progressive`. -/
structure Progress where
  lastCheckTime : UInt64 := 0
  lastNumAmsdu : UInt32 := 0
  lastNumTimeout : UInt32 := 0

/-- `struct txtid`; `amsdu` is `none` when `amsdu_skb` is NULL and its fields are reset,
`timer` tells whether the flush timer is pending. -/
structure TxTid where
  aid : Nat := 0
  maxAggrSz : Nat := 0
  amsdu : Option Amsdu := none
  timer : Bool := false
  prog : Progress := {}

/-- `struct ath6kl_sta`; the flags are `STA_PS_SLEEP`, `STA_PS_POLLED`,
`STA_PS_APSD_TRIGGER` and `STA_PS_APSD_EOSP`. -/
structure Sta where
  mac : Mac
  aid : Nat
  apsdInfo : Nat := 0
  sleep : Bool := false
  polled : Bool := false
  apsdTrigger : Bool := false
  apsdEosp : Bool := false
  psqData : List (PsBuf TxSkb) := []
  psqMgmt : List (PsBuf MgmtFrame) := []
  txTid : Tid → TxTid := fun _ => {}

inductive NwType
  | infra
  | adhoc
  | ap
deriving DecidableEq

/-- `struct ath6kl_vif`; `wmm`, `amsduEnabled` and `dtimExpired` are `WMM_ENABLED`,
`AMSDU_ENABLED` and `DTIM_EXPIRED`. -/
structure Vif where
  nwType : NwType
  fwVifIdx : UInt8
  bssid : Mac
  devAddr : Mac
  wmm : Bool := true
  amsduEnabled : Bool := true
  dtimExpired : Bool := false
  aggr : AggrInfo := {}
  psqMcast : List (PsBuf TxSkb) := []
  sta : StaIdx → Sta

/-- `&sta_list[0]`. -/
def sta0 : StaIdx := ⟨0, by decide⟩

/-- `ath6kl_find_sta`. -/
def Vif.findSta (vif : Vif) (addr : Bytes) : Option StaIdx :=
  if vif.nwType ≠ .ap then some sta0
  else (List.finRange 10).find? fun i => (vif.sta i).mac.val = addr

/-- `ath6kl_find_sta_by_aid`. -/
def Vif.findStaByAid (vif : Vif) (aid : Nat) : Option StaIdx :=
  if vif.nwType ≠ .ap then some sta0
  else (List.finRange 10).find? fun i => (vif.sta i).aid = aid

def Vif.setSta (vif : Vif) (i : StaIdx) (sta : Sta) : Vif :=
  { vif with sta := Function.update vif.sta i sta }

def Sta.setTid (sta : Sta) (tid : Tid) (txtid : TxTid) : Sta :=
  { sta with txTid := Function.update sta.txTid tid txtid }

def Vif.setTid (vif : Vif) (i : StaIdx) (tid : Tid) (txtid : TxTid) : Vif :=
  vif.setSta i ((vif.sta i).setTid tid txtid)

/-- `jiffies`, and `AGGR_TX_PROG_CHECK_INTVAL` in jiffies. -/
structure Clock where
  now : UInt64 := 0
  checkIntval : UInt64 := 0

/-- What `aggr_tx_progressive` does with the configuration at a check. -/
def progressiveConfig (aggr : AggrInfo) (p : Progress) : AggrInfo :=
  if !aggr.hispeed then
    if p.lastNumAmsdu > aggrTxProgHsThresh ∧
        p.lastNumTimeout < p.lastNumAmsdu >>> aggrTxProgHsFactor then
      aggrTxConfig { aggr with hispeed := true } aggr.seqPkt true
        (UInt8.ofNat aggrTxProgHsMaxNum) (UInt16.ofNat aggrTxMaxPduSize)
        (UInt16.ofNat aggrTxProgHsTimeout)
    else aggr
  else if p.lastNumAmsdu < aggrTxProgNsThresh ∧
      p.lastNumTimeout > p.lastNumAmsdu >>> aggrTxProgNsFactor then
    aggrTxConfig { aggr with hispeed := false } aggr.seqPkt true
      (UInt8.ofNat aggrTxMaxNum) (UInt16.ofNat aggrTxMaxPduSize) (UInt16.ofNat aggrTxTimeout)
  else aggr

def aggrTxProgressive (vif : Vif) (i : StaIdx) (tid : Tid) (txTimeout : Bool) (clk : Clock) :
    Vif :=
  if vif.nwType ≠ .infra then vif
  else
    let txtid := (vif.sta i).txTid tid
    let p : Progress :=
      { txtid.prog with
        lastNumAmsdu := txtid.prog.lastNumAmsdu + 1
        lastNumTimeout := txtid.prog.lastNumTimeout + (if txTimeout then 1 else 0) }
    if vif.aggr.progressive ∧
        (p.lastCheckTime = 0 ∨ clk.now - p.lastCheckTime > clk.checkIntval) then
      { vif.setTid i tid { txtid with prog := ⟨clk.now, 0, 0⟩ } with
        aggr := progressiveConfig vif.aggr p }
    else vif.setTid i tid { txtid with prog := p }

/-- `aggr_tx_reset_aggr`. -/
def Vif.resetAggr (vif : Vif) (i : StaIdx) (tid : Tid) (timerStop : Bool) : Vif :=
  let txtid := (vif.sta i).txTid tid
  vif.setTid i tid { txtid with amsdu := none, timer := txtid.timer && !timerStop }

/-- `mod_timer` of the flush timer. -/
def Vif.startTimer (vif : Vif) (i : StaIdx) (tid : Tid) : Vif :=
  vif.setTid i tid { (vif.sta i).txTid tid with timer := true }

/-- The result of `aggr_tx`; `AGGR_TX_DONE` comes with the aggregate in `*skb`. -/
inductive AggrTx
  | ok
  | done (skb : TxSkb)
  | bypass
  | drop

/-- The end of `aggr_tx`: the frame joins the aggregate `a`, which goes out when it is full. -/
def aggrTxJoin (vif : Vif) (i : StaIdx) (tid : Tid) (a : Amsdu) (skb : TxSkb) (clk : Clock) :
    Vif × AggrTx :=
  let a := a.append skb
  if a.cnt ≥ vif.aggr.maxAggrNum then
    let dest := if vif.nwType = .infra then vif.bssid else (vif.sta i).mac
    (aggrTxProgressive (vif.resetAggr i tid true) i tid false clk,
      .done (a.finish (skb.data.length - wmiDataHdrLen) dest vif.devAddr))
  else (vif.setTid i tid { (vif.sta i).txTid tid with amsdu := some a }, .ok)

/-- `aggr_tx` once the station is known. -/
def aggrTxConn (vif : Vif) (i : StaIdx) (skb : TxSkb) (alloc : Bool) (clk : Clock) :
    Vif × AggrTx :=
  let sta := vif.sta i
  if vif.nwType = .ap ∧ (sta.sleep || sta.polled || sta.apsdTrigger) then (vif, .bypass)
  else
    let tid := wmiDataHdrGetUp skb.data
    let txtid := sta.txTid tid
    if txtid.maxAggrSz = 0 then (vif, .bypass)
    else match txtid.amsdu with
      | none =>
        if alloc then aggrTxJoin (vif.startTimer i tid) i tid (.start skb) skb clk
        else (vif, .bypass)
      | some a =>
        -- num_overflow
        if a.len + (skb.data.length - wmiDataHdrLen) > txAmsduMaxAggrLen then (vif, .bypass)
        else aggrTxJoin vif i tid a skb clk

/-- `is_multicast_ether_addr` of an address that starts with `b`. -/
def isMulticastEtherAddr (b : UInt8) : Bool := (b &&& 1) ≠ 0

/-- `aggr_tx`. `alloc` answers `dev_alloc_skb`. -/
def aggrTx (vif : Vif) (sta : Option StaIdx) (skb : TxSkb) (alloc : Bool) (clk : Clock) :
    Vif × AggrTx :=
  if skb.data.length - wmiDataHdrLen > vif.aggr.maxPduLen then (vif, .bypass)
  else if isMulticastEtherAddr (skb.byte wmiDataHdrLen) then (vif, .bypass)
  else if skb.copy (wmiDataHdrLen + ethHlen + 6) 2 = htons ethertypeIp ∧
      skb.byte (wmiDataHdrLen + ethHlen + llcSnapHdrLen + 9) = ipProtoTcp then
    match sta <|> vif.findSta (skb.copy wmiDataHdrLen 6) with
    | some i => aggrTxConn vif i skb alloc clk
    | none => (vif, .drop)
  else (vif, .bypass)

/-- The section of `aggr_tx_tid` under `txtid->lock`: the aggregate it takes, if any. -/
def aggrTxTake (vif : Vif) (i : StaIdx) (tid : Tid) (timerStop : Bool) (clk : Clock) :
    Vif × Option TxSkb :=
  let txtid := (vif.sta i).txTid tid
  match txtid.amsdu with
  | none => (vif, none)
  | some a =>
    let dest := if vif.nwType = .infra then some vif.bssid
      else (vif.findStaByAid txtid.aid).map fun j => (vif.sta j).mac
    match dest with
    | none => (vif.resetAggr i tid timerStop, none)
    | some dest =>
      (aggrTxProgressive (vif.resetAggr i tid timerStop) i tid (!timerStop) clk,
        some (a.finish a.lastpduLen dest vif.devAddr))

def Vif.held (vif : Vif) (p : StaIdx × Tid) : Option Amsdu := ((vif.sta p.1).txTid p.2).amsdu

/-- What the aggregation leaves alone: all but the aggregates, the counters of
`aggr_tx_progressive` and the sizes in the configuration. -/
structure Same (v w : Vif) : Prop where
  nwType : w.nwType = v.nwType
  fwVifIdx : w.fwVifIdx = v.fwVifIdx
  devAddr : w.devAddr = v.devAddr
  wmm : w.wmm = v.wmm
  amsduEnabled : w.amsduEnabled = v.amsduEnabled
  dtimExpired : w.dtimExpired = v.dtimExpired
  psqMcast : w.psqMcast = v.psqMcast
  seqPkt : w.aggr.seqPkt = v.aggr.seqPkt
  enable : w.aggr.enable = v.aggr.enable
  sta : ∀ i, w.sta i = { v.sta i with txTid := (w.sta i).txTid }
  aid : ∀ i t, ((w.sta i).txTid t).aid = ((v.sta i).txTid t).aid
  maxAggrSz : ∀ i t, ((w.sta i).txTid t).maxAggrSz = ((v.sta i).txTid t).maxAggrSz

theorem Same.refl (v : Vif) : Same v v where
  nwType := rfl
  fwVifIdx := rfl
  devAddr := rfl
  wmm := rfl
  amsduEnabled := rfl
  dtimExpired := rfl
  psqMcast := rfl
  seqPkt := rfl
  enable := rfl
  sta _ := rfl
  aid _ _ := rfl
  maxAggrSz _ _ := rfl

theorem Same.trans {u v w : Vif} (h : Same u v) (k : Same v w) : Same u w where
  nwType := k.nwType.trans h.nwType
  fwVifIdx := k.fwVifIdx.trans h.fwVifIdx
  devAddr := k.devAddr.trans h.devAddr
  wmm := k.wmm.trans h.wmm
  amsduEnabled := k.amsduEnabled.trans h.amsduEnabled
  dtimExpired := k.dtimExpired.trans h.dtimExpired
  psqMcast := k.psqMcast.trans h.psqMcast
  seqPkt := k.seqPkt.trans h.seqPkt
  enable := k.enable.trans h.enable
  sta i := by rw [k.sta i, h.sta i]
  aid i t := (k.aid i t).trans (h.aid i t)
  maxAggrSz i t := (k.maxAggrSz i t).trans (h.maxAggrSz i t)

theorem Same.mac {v w : Vif} (h : Same v w) (i : StaIdx) : (w.sta i).mac = (v.sta i).mac := by
  rw [h.sta i]

theorem Same.sleep {v w : Vif} (h : Same v w) (i : StaIdx) :
    (w.sta i).sleep = (v.sta i).sleep := by
  rw [h.sta i]

theorem Same.psqData {v w : Vif} (h : Same v w) (i : StaIdx) :
    (w.sta i).psqData = (v.sta i).psqData := by
  rw [h.sta i]

theorem Same.findSta {v w : Vif} (h : Same v w) (addr : Bytes) :
    w.findSta addr = v.findSta addr := by
  simp only [Vif.findSta, h.nwType, h.mac]

theorem Same.findStaByAid {v w : Vif} (h : Same v w) (aid : Nat) :
    w.findStaByAid aid = v.findStaByAid aid := by
  have haid : ∀ i, (w.sta i).aid = (v.sta i).aid := fun i => by rw [h.sta i]
  simp only [Vif.findStaByAid, h.nwType, haid]

section SetTid
variable (v : Vif) (i : StaIdx) (t : Tid) (x : TxTid)

theorem setTid_sta_ne {j : StaIdx} (h : j ≠ i) : (v.setTid i t x).sta j = v.sta j :=
  Function.update_of_ne h _ _

theorem setTid_self : ((v.setTid i t x).sta i).txTid t = x := by
  simp [Vif.setTid, Vif.setSta, Sta.setTid]

theorem setTid_other {j : StaIdx} {u : Tid} (h : (j, u) ≠ (i, t)) :
    ((v.setTid i t x).sta j).txTid u = (v.sta j).txTid u := by
  by_cases hj : j = i
  · have hu : u ≠ t := fun hu => h (by rw [hj, hu])
    subst hj
    simp [Vif.setTid, Vif.setSta, Sta.setTid, Function.update_of_ne hu]
  · rw [setTid_sta_ne v i t x hj]

theorem held_setTid : (v.setTid i t x).held = Function.update v.held (i, t) x.amsdu := by
  funext p
  by_cases hp : p = (i, t)
  · rw [hp, Function.update_self, Vif.held, setTid_self]
  · rw [Function.update_of_ne hp, Vif.held, setTid_other v i t x hp, Vif.held]

variable {x}

theorem same_setTid (haid : x.aid = ((v.sta i).txTid t).aid)
    (hsz : x.maxAggrSz = ((v.sta i).txTid t).maxAggrSz) : Same v (v.setTid i t x) where
  nwType := rfl
  fwVifIdx := rfl
  devAddr := rfl
  wmm := rfl
  amsduEnabled := rfl
  dtimExpired := rfl
  psqMcast := rfl
  seqPkt := rfl
  enable := rfl
  sta j := by
    by_cases hj : j = i
    · subst hj
      simp [Vif.setTid, Vif.setSta, Sta.setTid]
    · rw [setTid_sta_ne v i t x hj]
  aid j u := by
    by_cases hp : (j, u) = (i, t)
    · obtain ⟨rfl, rfl⟩ := Prod.mk.inj hp
      rw [setTid_self, haid]
    · rw [setTid_other v i t x hp]
  maxAggrSz j u := by
    by_cases hp : (j, u) = (i, t)
    · obtain ⟨rfl, rfl⟩ := Prod.mk.inj hp
      rw [setTid_self, hsz]
    · rw [setTid_other v i t x hp]

end SetTid

variable {vif : Vif} {i : StaIdx} {tid : Tid}

theorem resetAggr_same (timerStop : Bool) : Same vif (vif.resetAggr i tid timerStop) :=
  same_setTid vif i tid rfl rfl

theorem held_resetAggr (timerStop : Bool) :
    (vif.resetAggr i tid timerStop).held = Function.update vif.held (i, tid) none :=
  held_setTid vif i tid _

theorem startTimer_same : Same vif (vif.startTimer i tid) := same_setTid vif i tid rfl rfl

theorem held_startTimer : (vif.startTimer i tid).held = vif.held := by
  rw [Vif.startTimer, held_setTid]
  exact Function.update_eq_self (i, tid) vif.held

theorem progressiveConfig_seqPkt (aggr : AggrInfo) (p : Progress) :
    (progressiveConfig aggr p).seqPkt = aggr.seqPkt ∧
    (progressiveConfig aggr p).enable = aggr.enable := by
  unfold progressiveConfig
  split <;> split <;> exact ⟨rfl, rfl⟩

theorem aggrTxProgressive_same (txTimeout : Bool) (clk : Clock) :
    Same vif (aggrTxProgressive vif i tid txTimeout clk) := by
  unfold aggrTxProgressive
  split
  · exact Same.refl vif
  · dsimp only
    split
    · have h := same_setTid vif i tid
        (x := { (vif.sta i).txTid tid with prog := ⟨clk.now, 0, 0⟩ }) rfl rfl
      exact { h with
        seqPkt := (progressiveConfig_seqPkt vif.aggr _).1
        enable := (progressiveConfig_seqPkt vif.aggr _).2 }
    · exact same_setTid vif i tid rfl rfl

theorem held_aggrTxProgressive (txTimeout : Bool) (clk : Clock) :
    (aggrTxProgressive vif i tid txTimeout clk).held = vif.held := by
  have hset : ∀ p : Progress,
      (vif.setTid i tid { (vif.sta i).txTid tid with prog := p }).held = vif.held := fun p => by
    rw [held_setTid]
    exact Function.update_eq_self (i, tid) vif.held
  unfold aggrTxProgressive
  split
  · rfl
  · dsimp only
    split
    · exact hset _
    · exact hset _

/-- The aggregate `a` that `aggr_tx` lets the frame join. -/
structure Joins (vif : Vif) (sta : Option StaIdx) (skb : TxSkb) (i : StaIdx) (a : Amsdu) :
    Prop where
  conn : (sta <|> vif.findSta (skb.copy wmiDataHdrLen 6)) = some i
  unicast : isMulticastEtherAddr (skb.byte wmiDataHdrLen) = false
  awake : vif.nwType = .ap → (vif.sta i).sleep = false
  base : vif.held (i, wmiDataHdrGetUp skb.data) = some a ∧
      a.len + (skb.data.length - wmiDataHdrLen) ≤ txAmsduMaxAggrLen ∨
    vif.held (i, wmiDataHdrGetUp skb.data) = none ∧ a = .start skb
  small : skb.data.length - wmiDataHdrLen ≤ txAmsduMaxAggrLen / 2

/-- What `aggr_tx` can do. -/
inductive AggrTxSpec (vif : Vif) (sta : Option StaIdx) (skb : TxSkb) : Vif × AggrTx → Prop
  | bypass : AggrTxSpec vif sta skb (vif, .bypass)
  | drop (h : (sta <|> vif.findSta (skb.copy wmiDataHdrLen 6)) = none) :
      AggrTxSpec vif sta skb (vif, .drop)
  | ok {i : StaIdx} {a : Amsdu} {w : Vif} (hj : Joins vif sta skb i a) (hs : Same vif w)
      (hh : w.held =
        Function.update vif.held (i, wmiDataHdrGetUp skb.data) (some (a.append skb))) :
      AggrTxSpec vif sta skb (w, .ok)
  | done {i : StaIdx} {a : Amsdu} {w : Vif} {dest : Mac} (hj : Joins vif sta skb i a)
      (hs : Same vif w)
      (hh : w.held = Function.update vif.held (i, wmiDataHdrGetUp skb.data) none) :
      AggrTxSpec vif sta skb
        (w, .done ((a.append skb).finish (skb.data.length - wmiDataHdrLen) dest vif.devAddr))

theorem aggrTxJoin_spec {v : Vif} {sta : Option StaIdx} {skb : TxSkb} {a : Amsdu} {clk : Clock}
    (hv : Same vif v) (hheld : v.held = vif.held) (hj : Joins vif sta skb i a) :
    AggrTxSpec vif sta skb (aggrTxJoin v i (wmiDataHdrGetUp skb.data) a skb clk) := by
  unfold aggrTxJoin
  dsimp only
  split
  · rw [hv.devAddr]
    refine .done hj ((hv.trans (resetAggr_same true)).trans (aggrTxProgressive_same _ _)) ?_
    rw [held_aggrTxProgressive, held_resetAggr, hheld]
  · refine .ok hj (hv.trans (same_setTid _ _ _ rfl rfl)) ?_
    rw [held_setTid, hheld]

theorem aggrTxConn_spec {sta : Option StaIdx} {skb : TxSkb} {alloc : Bool} {clk : Clock}
    (hconn : (sta <|> vif.findSta (skb.copy wmiDataHdrLen 6)) = some i)
    (huni : isMulticastEtherAddr (skb.byte wmiDataHdrLen) = false)
    (hsmall : skb.data.length - wmiDataHdrLen ≤ txAmsduMaxAggrLen / 2) :
    AggrTxSpec vif sta skb (aggrTxConn vif i skb alloc clk) := by
  unfold aggrTxConn
  dsimp only
  split
  next => exact .bypass
  next hdoze =>
    have hawake : vif.nwType = .ap → (vif.sta i).sleep = false := fun hap => by
      cases hsl : (vif.sta i).sleep with
      | false => rfl
      | true => exact absurd ⟨hap, by simp [hsl]⟩ hdoze
    split
    · exact .bypass
    · split
      next hnone =>
        split
        · exact aggrTxJoin_spec startTimer_same held_startTimer
            ⟨hconn, huni, hawake, .inr ⟨hnone, rfl⟩, hsmall⟩
        · exact .bypass
      next a hsome =>
        split
        next => exact .bypass
        next hfit =>
          exact aggrTxJoin_spec (Same.refl vif) rfl
            ⟨hconn, huni, hawake, .inl ⟨hsome, Nat.le_of_not_gt hfit⟩, hsmall⟩

theorem aggrTx_spec (vif : Vif) (sta : Option StaIdx) (skb : TxSkb) (alloc : Bool) (clk : Clock) :
    AggrTxSpec vif sta skb (aggrTx vif sta skb alloc clk) := by
  unfold aggrTx
  split
  next => exact .bypass
  next hlen =>
    have hsmall : skb.data.length - wmiDataHdrLen ≤ txAmsduMaxAggrLen / 2 :=
      le_trans (Nat.le_of_not_gt hlen) vif.aggr.pdu_range.2
    split
    next => exact .bypass
    next hmulti =>
      split
      · cases hconn : (sta <|> vif.findSta (skb.copy wmiDataHdrLen 6)) with
        | none => exact .drop hconn
        | some i => exact aggrTxConn_spec hconn (Bool.eq_false_of_not_eq_true hmulti) hsmall
      · exact .bypass

/-- What `aggr_tx_tid` can take from a TID. -/
inductive AggrTxTakeSpec (vif : Vif) (i : StaIdx) (tid : Tid) : Vif × Option TxSkb → Prop
  | empty (h : vif.held (i, tid) = none) : AggrTxTakeSpec vif i tid (vif, none)
  | lost {w : Vif} (h : vif.nwType = .ap ∧ vif.findStaByAid ((vif.sta i).txTid tid).aid = none)
      (hs : Same vif w) (hh : w.held = Function.update vif.held (i, tid) none) :
      AggrTxTakeSpec vif i tid (w, none)
  | taken {w : Vif} {a : Amsdu} {dest : Mac} (h : vif.held (i, tid) = some a) (hs : Same vif w)
      (hh : w.held = Function.update vif.held (i, tid) none) :
      AggrTxTakeSpec vif i tid (w, some (a.finish a.lastpduLen dest vif.devAddr))

theorem aggrTxTake_spec (vif : Vif) (i : StaIdx) (tid : Tid) (timerStop : Bool) (clk : Clock) :
    AggrTxTakeSpec vif i tid (aggrTxTake vif i tid timerStop clk) := by
  unfold aggrTxTake
  dsimp only
  split
  next h => exact .empty h
  next a h =>
    split
    next hdest =>
      refine .lost ?_ (resetAggr_same timerStop) (held_resetAggr timerStop)
      by_cases hi : vif.nwType = .infra
      · simp [hi] at hdest
      · rw [if_neg hi, Option.map_eq_none_iff] at hdest
        refine ⟨?_, hdest⟩
        by_contra hap
        simp [Vif.findStaByAid, hap] at hdest
    next dest hdest =>
      refine .taken h ((resetAggr_same timerStop).trans (aggrTxProgressive_same _ _)) ?_
      rw [held_aggrTxProgressive, held_resetAggr]

def sessionVif : Vif where
  nwType := .infra
  fwVifIdx := 0
  bssid := ⟨[0, 2, 0, 0, 0, 9], rfl⟩
  devAddr := ⟨[0, 2, 0, 0, 0, 2], rfl⟩
  sta _ := { mac := ⟨[0, 2, 0, 0, 0, 9], rfl⟩, aid := 1, txTid := fun _ => { maxAggrSz := 1 } }

end Ath6kl.AmsduTx
