import Ath6kl.Lib.Accesses
import Ath6kl.Lib.LittleEndian
import Ath6kl.Lib.Memory

/-! The bootloader messages (bmi.c): memory of the target is written and read, and an image is
downloaded, in commands that fit `cmd_buf`. A buffer of the caller is memory of which `len` bytes
are its own. -/
namespace Ath6kl.Bmi
open Lib.Accesses Lib.Memory

section Model

def eacces : Int := -13
def einval : Int := -22
def enomem : Int := -12
def e2big : Int := -7

def bmiReadMemory : Nat := 2
def bmiWriteMemory : Nat := 3
def bmiLzStreamStart : Nat := 13
def bmiLzData : Nat := 14

/-- The size of `aligned_buf`. -/
def alignedBufSize : Nat := 400

/-- `struct ath6kl_bmi`. -/
structure BmiInfo where
  doneSent : Bool
  maxDataSize : Nat
  maxCmdSize : Nat
deriving DecidableEq

/-- `ath6kl_bmi_init`; `alloc`: there is memory for `cmd_buf`. -/
def bmiInit (alloc : Bool) (maxDataSize : Nat) : Int × BmiInfo :=
  if maxDataSize = 0 then (einval, ⟨false, maxDataSize, 0⟩)
  else if alloc then (0, ⟨false, maxDataSize, maxDataSize+4*3⟩)
  else (enomem, ⟨false, maxDataSize, maxDataSize+4*3⟩)

def le32 (n : Nat) : List UInt8 := Lib.LittleEndian.bytes 4 n

/-- What a transfer does: the messages that reach the target, what is read of the caller's buffer,
how much of `cmd_buf` is filled, and the caller's buffer afterwards. -/
structure Xfer where
  ret : Int := 0
  sent : List (List UInt8) := []
  reads : List Access := []
  fills : List Nat := []
  buf : Mem
  finished : Bool := true

/-- The transfer so far, and how it goes on. -/
def Xfer.after (x : Xfer) (sent : List (List UInt8)) (reads : List Access) (fills : List Nat) :
    Xfer :=
  { x with sent := sent ++ x.sent, reads := reads ++ x.reads, fills := fills ++ x.fills }

/-- The header of `ath6kl_bmi_write` and of `ath6kl_bmi_lz_data`. -/
def writeHeader : Nat := 12
def lzHeader : Nat := 8

/-- The loop of `ath6kl_bmi_write`; `hif` is what the transfers to the target return, the next one
being number `k`. -/
def writeLoop (bmi : BmiInfo) (hif : Nat → Int) (buf : Mem) (len : Nat) :
    Nat → Nat → UInt32 → Nat → Xfer
  | 0, _, _, lenRemain => { buf := buf, finished := decide (lenRemain = 0) }
  | fuel+1, k, addr, lenRemain =>
    if lenRemain = 0 then { buf := buf }
    else
      let src := len-lenRemain
      let room := bmi.maxDataSize-writeHeader
      let unaligned := decide (lenRemain < room) && decide (lenRemain%4 ≠ 0)
      let aligned := if unaligned then lenRemain+(4-lenRemain%4) else lenRemain
      let txLen := if lenRemain < room then aligned else room
      -- four bytes are taken as a word, of which `txLen` bytes are sent
      let copied := if len = 4 then 4 else txLen
      let message := le32 bmiWriteMemory ++ le32 addr.toNat ++ le32 txLen ++
        (slice buf src copied).take txLen
      let reads := if unaligned then [.read src aligned] else [.read src copied]
      let fills := [writeHeader+copied]
      if hif k ≠ 0 then { ret := hif k, reads := reads, fills := fills, buf := buf }
      else
        (writeLoop bmi hif buf len fuel (k+1) (addr+UInt32.ofNat txLen) (aligned-txLen)).after
          [message] reads fills

/-- `ath6kl_bmi_write`. -/
def bmiWrite (bmi : BmiInfo) (hif : Nat → Int) (addr : UInt32) (buf : Mem) (len : Nat) : Xfer :=
  if bmi.doneSent then { ret := eacces, buf := buf }
  else if bmi.maxCmdSize < bmi.maxDataSize+writeHeader then { ret := einval, buf := buf }
  else if alignedBufSize < bmi.maxDataSize then { ret := e2big, buf := buf }
  else (writeLoop bmi hif buf len len 0 addr len).after [] [] [bmi.maxDataSize+writeHeader]

/-- What the target does at a message: a command to write its memory is carried out. -/
def execute (t : Device) (message : List UInt8) : Device :=
  if Lib.LittleEndian.value (message.take 4) = bmiWriteMemory then
    let addr := Lib.LittleEndian.value ((message.drop 4).take 4)
    let len := Lib.LittleEndian.value ((message.drop 8).take 4)
    t.write (UInt32.ofNat addr) ((message.drop 12).take len)
  else t

/-- What the target answers to a command to read its memory. -/
def answer (t : Device) (message : List UInt8) : List UInt8 :=
  let addr := Lib.LittleEndian.value ((message.drop 4).take 4)
  let len := Lib.LittleEndian.value ((message.drop 8).take 4)
  t.read (UInt32.ofNat addr) len

/-- The loop of `ath6kl_bmi_read`: a message and the answer to it. -/
def readLoop (bmi : BmiInfo) (hif : Nat → Int) (t : Device) (len : Nat) :
    Nat → Nat → UInt32 → Nat → Mem → Xfer
  | 0, _, _, lenRemain, buf => { buf := buf, finished := decide (lenRemain = 0) }
  | fuel+1, k, addr, lenRemain, buf =>
    if lenRemain = 0 then { buf := buf }
    else
      let rxLen := if lenRemain < bmi.maxDataSize then lenRemain else bmi.maxDataSize
      let message := le32 bmiReadMemory ++ le32 addr.toNat ++ le32 rxLen
      if hif k ≠ 0 then { ret := hif k, fills := [message.length], buf := buf }
      else if hif (k+1) ≠ 0 then
        { ret := hif (k+1), sent := [message], fills := [message.length, rxLen], buf := buf }
      else
        (readLoop bmi hif t len fuel (k+2) (addr+UInt32.ofNat rxLen) (lenRemain-rxLen)
          (store buf (len-lenRemain) ((answer t message).take rxLen))).after
          [message] [] [message.length, rxLen]

/-- `ath6kl_bmi_read`. -/
def bmiRead (bmi : BmiInfo) (hif : Nat → Int) (t : Device) (addr : UInt32) (buf : Mem) (len : Nat) :
    Xfer :=
  let size := (bmi.maxDataSize+4+4+4)%2^16
  if bmi.doneSent then { ret := eacces, buf := buf }
  else if bmi.maxCmdSize < size then { ret := einval, buf := buf }
  else (readLoop bmi hif t len len 0 addr len buf).after [] [] [size]

/-- The loop of `ath6kl_bmi_lz_data`. -/
def lzDataLoop (bmi : BmiInfo) (hif : Nat → Int) (buf : Mem) (len : Nat) : Nat → Nat → Nat → Xfer
  | 0, _, lenRemain => { buf := buf, finished := decide (lenRemain = 0) }
  | fuel+1, k, lenRemain =>
    if lenRemain = 0 then { buf := buf }
    else
      let room := bmi.maxDataSize-lzHeader
      let txLen := if lenRemain < room then lenRemain else room
      let src := len-lenRemain
      let message := le32 bmiLzData ++ le32 txLen ++ slice buf src txLen
      if hif k ≠ 0 then
        { ret := hif k, reads := [.read src txLen], fills := [message.length], buf := buf }
      else
        (lzDataLoop bmi hif buf len fuel (k+1) (lenRemain-txLen)).after
          [message] [.read src txLen] [message.length]

/-- `ath6kl_bmi_lz_data`. -/
def bmiLzDataSend (bmi : BmiInfo) (hif : Nat → Int) (buf : Mem) (len : Nat) : Xfer :=
  let size := (bmi.maxDataSize+lzHeader)%2^16
  if bmi.doneSent then { ret := eacces, buf := buf }
  else if bmi.maxCmdSize < size then { ret := einval, buf := buf }
  else (lzDataLoop bmi hif buf len len 0 len).after [] [] [size]

/-- `ath6kl_bmi_lz_stream_start`. -/
def bmiLzStreamStartSend (bmi : BmiInfo) (hif : Nat → Int) (addr : UInt32) (buf : Mem) : Xfer :=
  let message := le32 bmiLzStreamStart ++ le32 addr.toNat
  if bmi.doneSent then { ret := eacces, buf := buf }
  else if bmi.maxCmdSize < message.length then { ret := einval, buf := buf }
  else if hif 0 ≠ 0 then
    { ret := hif 0, fills := [message.length, message.length], buf := buf }
  else { sent := [message], fills := [message.length, message.length], buf := buf }

/-- What a download does: as a transfer, with the reads of the image and of the last word. -/
structure Download where
  ret : Int := 0
  sent : List (List UInt8) := []
  reads : List Access := []
  wordReads : List Access := []
  fills : List Nat := []
  finished : Bool := true

/-- A call of the download that reads the image, and what is done after it when it succeeds. -/
def Xfer.andThen (x : Xfer) (next : Download) : Download :=
  let next := if x.ret ≠ 0 then { ret := x.ret } else next
  { next with sent := x.sent ++ next.sent, reads := x.reads ++ next.reads,
              fills := x.fills ++ next.fills, finished := x.finished && next.finished }

/-- `ath6kl_bmi_fast_download`; each of its calls has its own transfers. -/
def bmiFastDownload (bmi : BmiInfo) (hif : Nat → Nat → Int) (addr : UInt32) (buf : Mem)
    (len : Nat) : Download :=
  let lastWordOffset := len-len%4
  let unalignedBytes := len%4
  -- the last word, in a buffer of zeros
  let lastWord := store (fun _ => 0) 0 (slice buf lastWordOffset unalignedBytes)
  let stop := (bmiLzStreamStartSend bmi (hif 3) 0 buf).andThen {}
  let tail :=
    if unalignedBytes ≠ 0 then
      let x := bmiLzDataSend bmi (hif 2) lastWord 4
      let d := { x with reads := [] }.andThen stop
      { d with wordReads := x.reads }
    else stop
  let data := (bmiLzDataSend bmi (hif 1) buf lastWordOffset).andThen tail
  let copy : List Access :=
    if unalignedBytes ≠ 0 then [.read lastWordOffset unalignedBytes] else []
  (bmiLzStreamStartSend bmi (hif 0) addr buf).andThen { data with reads := copy ++ data.reads }

def lzPayload (message : List UInt8) : List UInt8 :=
  if Lib.LittleEndian.value (message.take 4) = bmiLzData then
    (message.drop 8).take (Lib.LittleEndian.value ((message.drop 4).take 4))
  else []

end Model

end Ath6kl.Bmi
