import Ath6kl.Lib.Accesses
import Ath6kl.Lib.Deframe
import Ath6kl.Lib.LittleEndian
import Ath6kl.Lib.Memory

/-! The packet log of the firmware (diag.c): an event carries records one after the other, and those
of transmitted and received frames become events of the diagnostic interface. -/
namespace Ath6kl.PktLog
open Lib.Accesses Lib.Deframe Lib.Memory

section Model

/-- `PKTLOG_TYPE_TXCTL`, `PKTLOG_TYPE_TXSTATUS` and `PKTLOG_TYPE_RX`. -/
def pktlogTypeTxctl : UInt16 := 0
def pktlogTypeTxstatus : UInt16 := 1
def pktlogTypeRx : UInt16 := 2

/-- `sizeof(struct ath_pktlog_hdr)`. -/
def pktlogHdrSize : Nat := 12

/-- `WHAL_RC_FLAG_SGI`, `MAX11_RATE_INDEX`, `WHAL_RXERR_CRC`. -/
def whalRcFlagSgi : UInt8 := 0x08
def max11RateIndex : UInt32 := 43
def whalRxerrCrc : UInt8 := 0x01

/-- `IEEE80211_QOS_HEADERLEN`, `IEEE80211_QOS_PADLEN`, and the size of `frame_data`. -/
def qosHeaderlen : UInt32 := 26
def qosPadlen : UInt32 := 2
def frameDataSize : Nat := 512

def macTxFrameEventenable : UInt32 := 0x00000001
def macRxFrameEventenable : UInt32 := 0x00000002

/-- `_rate_tbl_11`, without and with a short guard interval. -/
def rateTbl11 : List (Nat × Nat) := [
  (1000, 1000), (2000, 2000), (5500, 5500), (11000, 11000), (6000, 6000), (9000, 9000),
  (12000, 12000), (18000, 18000), (24000, 24000), (36000, 36000), (48000, 48000), (54000, 54000),
  (6500, 7200), (13000, 14400), (19500, 21700), (26000, 28900), (39000, 43300), (52000, 57800),
  (58500, 65000), (65000, 72200), (13000, 14400), (26000, 28900), (39000, 43300), (52000, 57800),
  (78000, 86700), (104000, 115600), (117000, 130000), (130000, 144400), (13500, 15000),
  (27000, 30000), (40500, 45000), (54000, 60000), (81000, 90000), (108000, 120000),
  (121500, 135000), (135000, 150000), (27000, 30000), (54000, 60000), (81000, 90000),
  (108000, 120000), (162000, 180000), (216000, 240000), (243000, 270000), (270000, 300000),
  (0, 0)]

/-- `IEEE80211_QOS_HAS_SEQ`. -/
def qosHasSeq (framectrl : UInt16) : Bool := framectrl &&& 0x8c = 0x88

def u16At (mem : Mem) (pos : Nat) : UInt16 :=
  UInt16.ofNat (Lib.LittleEndian.value (slice mem pos 2))
def u32At (mem : Mem) (pos : Nat) : UInt32 :=
  UInt32.ofNat (Lib.LittleEndian.value (slice mem pos 4))

/-- What the handlers use of `struct wifi_diag`. -/
structure Diag where
  cfgMask : UInt32
  diagEventInit : Bool
  txFrameType : UInt8
  txFrameSubtype : UInt8
  txFrameLen : UInt16

/-- The size of a pointer, `diag_local_test`, whether there is a callback, and whether there is
memory for the event of the record at a position. -/
structure Env where
  ptr : Nat
  diagLocalTest : Bool
  callback : Bool
  newBuf : Nat → Bool

def enabled (env : Env) (diag : Diag) (mask : UInt32) : Bool :=
  env.diagLocalTest || (diag.cfgMask &&& mask ≠ 0 && env.callback)

/-- A copy of `n` bytes to a place of `frame_data`, from a place of the record. -/
structure Copy where
  dst : Nat
  src : Nat
  n : UInt32

/-- What an event needs of its record: the rate and its flag, whether the frame has a QoS header,
where the frame stands and its length. -/
structure Source where
  mcs : UInt32
  sgi : UInt8
  qos : Bool
  bufOff : Nat
  bufLen : UInt32

/-- The record, the entry of the rate table, and the copies. -/
structure Frame where
  src : Source
  row : Nat
  col : Nat
  copies : List Copy

def frameOf (src : Source) : Frame where
  src := src
  row := (if src.mcs > max11RateIndex then max11RateIndex else src.mcs).toNat
  col := src.sgi.toNat
  copies :=
    if src.qos then
      [⟨0, src.bufOff, qosHeaderlen⟩,
        ⟨qosHeaderlen.toNat, src.bufOff+qosHeaderlen.toNat+qosPadlen.toNat,
          src.bufLen-qosPadlen-qosHeaderlen⟩]
    else [⟨0, src.bufOff, src.bufLen⟩]

/-- `struct wifi_diag_event_t` with the data of a frame event. -/
structure FrameEvent where
  eventId : Nat
  len : UInt16
  seqNum : UInt32
  power : UInt32
  snr : UInt8 := 0
  mcs : Nat
  bitrate : Nat
  fcs : Bool := false
  frameType : UInt8
  frameSubType : UInt8
  frameLength : UInt16
  frameData : Mem

/-- What a handler makes of a record: the state, what it reads of the payload, and the event. -/
structure Out where
  diag : Diag
  log : List Access := []
  frame : Option Frame := none
  event : Option FrameEvent := none

def Frame.bitrate (f : Frame) : Nat :=
  (rateTbl11.flatMap fun rate => [rate.1, rate.2])[2*f.row+f.col]?.getD 0

def copyReads (pdata : Nat) (copies : List Copy) : List Access :=
  (copies.filter fun c => c.n ≠ 0).map fun c => .read (pdata+c.src) c.n.toNat

def frameData (mem : Mem) (pdata : Nat) (copies : List Copy) : Mem :=
  copies.foldl (fun m c => store m c.dst (slice mem (pdata+c.src) c.n.toNat)) fun _ => 0

def lessPad (qos : Bool) (length : UInt16) : UInt16 :=
  if qos then length-qosPadlen.toUInt16 else length

/-- What `wifi_diag_mac_tx_frame_event` takes of `struct ath_pktlog_txstatus`. -/
def txSource (mem : Mem) (pdata : Nat) (diag : Diag) : Source where
  mcs := (u32At mem (pdata+40)).toUInt16.toUInt32
  sgi := (u32At mem (pdata+40) >>> 8).toUInt8 &&& whalRcFlagSgi
  qos := qosHasSeq (diag.txFrameSubtype.toUInt16 <<< 4 ||| diag.txFrameType.toUInt16)
  bufOff := 56
  bufLen := u32At mem (pdata+52)

/-- `wifi_diag_mac_tx_frame_event`. -/
def macTxFrameEvent (env : Env) (mem : Mem) (pdata : Nat) (diag : Diag) : Out :=
  if enabled env diag macTxFrameEventenable = false then { diag := diag }
  else if env.newBuf pdata = false then { diag := diag }
  else
    let frame := frameOf (txSource mem pdata diag)
    let event : FrameEvent := {
      eventId := 1
      len := lessPad frame.src.qos (frame.src.bufLen+14-1).toUInt16
      seqNum := u32At mem (pdata+48)
      power := u32At mem (pdata+44)
      mcs := frame.row
      bitrate := frame.bitrate
      frameType := diag.txFrameType
      frameSubType := diag.txFrameSubtype
      frameLength := lessPad frame.src.qos diag.txFrameLen
      frameData := frameData mem pdata frame.copies }
    { diag := diag
      log := .read (pdata+48) 4::.read (pdata+44) 4::.read (pdata+40) 4::.read (pdata+52) 4::
        copyReads pdata frame.copies
      frame := some frame
      event := if diag.diagEventInit then some event else none }

/-- `wifi_diag_mac_txctrl_event`. -/
def macTxctrlEvent (env : Env) (mem : Mem) (pdata : Nat) (diag : Diag) : Out :=
  if enabled env diag macTxFrameEventenable = false then { diag := diag }
  else
    let framectrl := u16At mem pdata
    { diag := { diag with
        txFrameType := (framectrl &&& 0x0c).toUInt8
        txFrameSubtype := ((framectrl &&& 0xf0) >>> 4).toUInt8
        txFrameLen := (u32At mem (pdata+12) &&& 0xFFF).toUInt16 }
      log := [.read pdata 2, .read (pdata+12) 4] }

/-- Where `rxmcs` stands in `struct ath_pktlog_rx`, behind two pointers. -/
def rxmcsOff (env : Env) : Nat := 60+2*env.ptr

/-- What `wifi_diag_mac_rx_frame_event` takes of `struct ath_pktlog_rx`. -/
def rxSource (env : Env) (mem : Mem) (pdata : Nat) : Source where
  mcs := u32At mem (pdata+rxmcsOff env)
  sgi := mem (pdata+rxmcsOff env+17) &&& whalRcFlagSgi
  qos := qosHasSeq (u16At mem pdata)
  bufOff := rxmcsOff env+36
  bufLen := u32At mem (pdata+rxmcsOff env+32)

/-- `wifi_diag_mac_rx_frame_event`. -/
def macRxFrameEvent (env : Env) (mem : Mem) (pdata : Nat) (diag : Diag) : Out :=
  if enabled env diag macRxFrameEventenable = false then { diag := diag }
  else if env.newBuf pdata = false then { diag := diag }
  else
    let rxmcs := pdata+rxmcsOff env
    let frame := frameOf (rxSource env mem pdata)
    let framectrl := u16At mem pdata
    let event : FrameEvent := {
      eventId := 2
      len := lessPad frame.src.qos (frame.src.bufLen+19-1).toUInt16
      seqNum := u32At mem (rxmcs+28)
      power := (mem (rxmcs+14)).toUInt32+u32At mem (rxmcs+4)
      snr := mem (rxmcs+14)
      mcs := frame.row
      bitrate := frame.bitrate
      fcs := mem (rxmcs+12) &&& whalRxerrCrc ≠ 0
      frameType := (framectrl &&& 0x0c).toUInt8
      frameSubType := ((framectrl &&& 0xf0) >>> 4).toUInt8
      frameLength := lessPad frame.src.qos (u16At mem (rxmcs+8))
      frameData := frameData mem pdata frame.copies }
    { diag := diag
      log := .read (rxmcs+28) 4::.read (rxmcs+14) 1::.read (rxmcs+4) 4::.read rxmcs 4::
        .read (rxmcs+17) 1::.read (rxmcs+12) 1::.read pdata 2::.read (rxmcs+8) 2::
        .read (rxmcs+32) 4::copyReads pdata frame.copies
      frame := some frame
      event := if diag.diagEventInit then some event else none }

/-- The `switch` over the type of the record at `pos`. -/
def dispatch (env : Env) (mem : Mem) (pos : Nat) (diag : Diag) : Out :=
  let logType := u16At mem (pos+4)
  let pdata := pos+pktlogHdrSize
  if logType = pktlogTypeTxstatus then macTxFrameEvent env mem pdata diag
  else if logType = pktlogTypeTxctl then macTxctrlEvent env mem pdata diag
  else if logType = pktlogTypeRx then macRxFrameEvent env mem pdata diag
  else { diag := diag }

/-- The size that a record tells of itself, with its header. -/
def recordSize (mem : Mem) (pos : Nat) : Nat := (u16At mem (pos+6)).toNat+pktlogHdrSize

/-- The records that were dispatched, the frames among them with the sizes of their records, the
events, what was read of the payload, and the state. -/
structure Rx where
  dispatched : List (List UInt8) := []
  frames : List (Nat × Frame) := []
  events : List FrameEvent := []
  log : List Access := []
  diag : Diag

/-- The loop of `ath6kl_wmi_pktlog_event_rx`, for as many rounds. The offset has 32 bits. -/
def pktlogLoop (env : Env) (mem : Mem) (len : UInt32) : Nat → UInt32 → Nat → Diag → Option Rx
  | 0, _, _, _ => none
  | fuel+1, offset, pos, diag =>
    if len-offset > 0 then
      let out := dispatch env mem pos diag
      let size := recordSize mem pos
      (pktlogLoop env mem len fuel (offset+UInt32.ofNat size) (pos+size) out.diag).map fun rest =>
        { dispatched := slice mem pos size::rest.dispatched
          frames := (out.frame.map fun f => (size-pktlogHdrSize, f)).toList ++ rest.frames
          events := out.event.toList ++ rest.events
          log := .read (pos+4) 2::(out.log ++ .read (pos+6) 2::rest.log)
          diag := rest.diag }
    else some { diag := diag }

def einval : Int := -22

/-- `ath6kl_wmi_pktlog_event_rx`; `vif` is the first interface. -/
def pktlogEventRx (env : Env) (mem : Mem) (len : UInt32) (fuel : Nat) (vif : Option Diag) :
    Option (Int × Option Rx) :=
  match vif with
  | none => some (einval, none)
  | some diag => (pktlogLoop env mem len fuel 0 0 diag).map fun rx => (0, some rx)

end Model

end Ath6kl.PktLog
