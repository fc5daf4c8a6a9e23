import Ath6kl.EthFrame
import Ath6kl.Htc
import Ath6kl.Lib.Machine

/-! The receive path of HTC over the USB pipes (`htc_pipe.c`): `htc_rx_completion`, its
reassembly of messages split over several netbufs, and the trailer. -/
namespace Ath6kl.HtcRx
open EthFrame Htc Lib.Machine

def htcMaxCtrlMsgLen : Nat := 256
def htcRecordCredits : Nat := 1
/-- `-EINVAL` and `-ENOMEM`. -/
def einval : Int := -22
def enomem : Int := -12

/-- A packet given to the receive callback of its endpoint. -/
structure RxPacket where
  endpoint : Nat
  actLen : Nat
  buf : Bytes
deriving DecidableEq

/-- The part of `struct htc_target` the receive path works on. `delivered`, `reports` and
`crashTraps` are what it hands on: to the endpoints, to `htc_process_credit_report`, and to
`ath6kl_fw_crash_trap`. -/
structure RxTarget where
  rxSgInProgress : Bool := false
  rxSgTotalLenExp : Nat := 0
  rxSgTotalLenCur : Nat := 0
  rxSgQ : List Bytes := []
  setupComplete : Bool := true
  htcPacketPool : Nat := 32
  ctrlResponse : Option Bytes := none
  delivered : List RxPacket := []
  reports : List (Nat × List CreditReport) := []
  crashTraps : Nat := 0
deriving DecidableEq

/-- A netbuf from the USB layer, and whether a buffer to collect a message in can be had. -/
structure Netbuf where
  skb : Skb
  alloc : Bool := true

def Netbuf.len (nb : Netbuf) : Nat := nb.skb.data.length

/-- A `u32` sum. -/
def u32 (n : Nat) : Nat := n % 4294967296

/-- The fields of `struct htc_frame_hdr` at the start of a buffer. -/
def hdrEid (skb : Skb) : Nat := (skb.byte 0).toNat
def hdrFlags (skb : Skb) : Nat := (skb.byte 1).toNat
def hdrPayldLen (skb : Skb) : Nat := (skb.byte 2).toNat + 256*(skb.byte 3).toNat
def hdrCtrl0 (skb : Skb) : Nat := (skb.byte 4).toNat

/-- `HTC_FLG_RX_TRAILER`. -/
def hasTrailer (skb : Skb) : Bool := (hdrFlags skb).testBit 1

/-- `assert_pattern` at the start of a buffer. -/
def isCrash (skb : Skb) : Bool := skb.copy 0 4 = [0x00, 0x00, 0xc6, 0x00]

def creditEntries : Bytes → List CreditReport
  | eid::credits::rest => ⟨eid.toNat, credits.toNat⟩ :: creditEntries rest
  | _ => []

/-- The loop of `htc_process_trailer`: the credit reports it passes on and its status. The
fuel is the length of the trailer, of which every record takes some. -/
def trailerLoop : Nat → Bytes → List (List CreditReport) × Int
  | 0, _ => ([], 0)
  | _, [] => ([], 0)
  | _, [_] => ([], einval)
  | fuel+1, recId::len::rest =>
    if len.toNat > rest.length then ([], einval)
    else if recId.toNat = htcRecordCredits then
      if len.toNat < 2 then ([], einval)
      else
        let (rpts, status) := trailerLoop fuel (rest.drop len.toNat)
        (creditEntries (rest.take len.toNat) :: rpts, status)
    else trailerLoop fuel (rest.drop len.toNat)

def htcProcessTrailer (t : RxTarget) (trailer : Bytes) (fromEp : Nat) : RxTarget × Int :=
  let (rpts, status) := trailerLoop trailer.length trailer
  ({ t with reports := t.reports ++ rpts.map fun r => (fromEp, r) }, status)

/-- Empty the queue and leave reassembly, as both exits of `rx_sg_to_single_netbuf` do. -/
def RxTarget.endSg (t : RxTarget) : RxTarget :=
  { t with rxSgInProgress := false, rxSgTotalLenExp := 0, rxSgTotalLenCur := 0, rxSgQ := [] }

/-- `rx_sg_to_single_netbuf`; the new netbuf is followed by whatever `beyond` holds. -/
def rxSgToSingleNetbuf (t : RxTarget) (alloc : Bool) (beyond : Nat → UInt8) :
    RxTarget × Option Skb :=
  if t.rxSgQ.isEmpty ∨ !alloc then (t.endSg, none)
  else (t.endSg, some ⟨t.rxSgQ.flatten, beyond⟩)

/-- The start of `htc_rx_completion` while a message is being collected. -/
def rxSgAppend (t : RxTarget) (nb : Netbuf) : RxTarget × Option Skb :=
  let t := { t with rxSgTotalLenCur := u32 (t.rxSgTotalLenCur + nb.len)
                    rxSgQ := t.rxSgQ ++ [nb.skb.data] }
  if t.rxSgTotalLenCur = t.rxSgTotalLenExp then rxSgToSingleNetbuf t nb.alloc nb.skb.beyond
  else (t, none)

/-- A control message for the host: the response buffer of `ENDPOINT_0`. -/
def rxControl (t : RxTarget) (skb : Skb) : RxTarget × Int :=
  if t.setupComplete then (t, einval)
  else
    ({ t with ctrlResponse := some ((skb.data.drop htcHdrLength).take htcMaxCtrlMsgLen) }, 0)

/-- The end of `htc_rx_completion`: hand the payload to the endpoint. -/
def rxPayload (t : RxTarget) (skb : Skb) (trailerlen : Nat) : RxTarget × Int :=
  if hdrPayldLen skb ≤ trailerlen then (t, 0)
  else if hdrEid skb = 0 then rxControl t skb
  else if t.htcPacketPool = 0 then (t, enomem)
  else
    let actLen := skb.data.length - htcHdrLength - trailerlen
    ({ t with delivered := t.delivered ++
                [⟨hdrEid skb, actLen, skb.copy htcHdrLength actLen⟩] }, 0)

/-- `htc_rx_completion` on a netbuf that starts with an HTC header. -/
def rxProcess (t : RxTarget) (skb : Skb) : RxTarget × Int :=
  if isCrash skb then ({ t with crashTraps := t.crashTraps+1 }, 0)
  else if hdrEid skb ≥ 9 then (t, einval)
  else
    let payloadLen := hdrPayldLen skb
    if skb.data.length < payloadLen + htcHdrLength then
      ({ t with rxSgInProgress := true
                rxSgQ := t.rxSgQ ++ [skb.data]
                rxSgTotalLenExp := payloadLen + htcHdrLength
                rxSgTotalLenCur := u32 (t.rxSgTotalLenCur + skb.data.length) }, 0)
    else if hasTrailer skb then
      let trailerlen := hdrCtrl0 skb
      if trailerlen < 2 ∨ trailerlen > payloadLen then (t, einval)
      else
        let (t, status) := htcProcessTrailer t
          (skb.copy (htcHdrLength + payloadLen - trailerlen) trailerlen) (hdrEid skb)
        if status ≠ 0 then (t, status) else rxPayload t skb trailerlen
    else rxPayload t skb 0

def htcRxCompletion (t : RxTarget) (nb : Netbuf) : RxTarget × Int :=
  if t.rxSgInProgress then
    match rxSgAppend t nb with
    | (t, none) => (t, 0)
    | (t, some skb) => rxProcess t skb
  else rxProcess t nb.skb

def step (t : RxTarget) (nb : Netbuf) : RxTarget := (htcRxCompletion t nb).1

end Ath6kl.HtcRx
