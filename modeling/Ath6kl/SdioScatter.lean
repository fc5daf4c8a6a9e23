import Ath6kl.SdioAsync
import Mathlib.Algebra.Ring.Nat

/-! Scatter requests over SDIO, submitted by `ath6kl_hif_submit_scat_req` (hif.c): with
`virt_scat` the entries go through a bounce buffer in one transfer, without it the host gathers
them itself. What the kernel does for a transfer is a parameter. -/
namespace Ath6kl.SdioScatter
open SdioAsync

def hifRead : UInt32 := 0x01
def hifIncrementalAddress : UInt32 := 0x200
/-- `HIF_RD_SYNC_BLOCK_FIX`, `HIF_WR_ASYNC_BLOCK_INC`. -/
def hifRdSyncBlockFix : UInt32 := hifRead ||| hifSynchronous ||| hifBlockBasis ||| hifFixedAddress
def hifWrAsyncBlockInc : UInt32 :=
  hifWrite ||| hifAsynchronous ||| hifBlockBasis ||| hifIncrementalAddress

def maxScatterEntriesPerReq : Nat := 16
def maxScatterReqTransferSize : Nat := 32*1024
def ath6klScatterEntriesPerReq : Nat := 16
def ath6klMaxTransferSizePerScatter : Nat := 16*1024

/-- Buffers by their number, bytes by their offset. -/
abbrev Heap := Nat → Nat → UInt8

namespace Heap
variable (h : Heap)

def bytes (buf len : Nat) : List UInt8 := (List.range len).map (h buf)

/-- `memcpy` of `len` bytes from `src` to `dst`. -/
def memcpy (dst doff src soff len : Nat) : Heap :=
  Function.update h dst fun i =>
    if doff ≤ i ∧ i < doff+len then h src (soff + (i-doff)) else h dst i

end Heap

/-- `htc_setup_msg_bndl` and `ath6kl_sdio_enable_scatter`: the limits of the target. -/
structure Limits where
  virtScat : Bool
  maxScatEntries : Nat
  maxXferSzperScatreq : Nat

/-- `maxSegs`: the host takes enough segments; `setup`: the first attempt succeeds. -/
def enableScatterLimits (maxSegs setup : Bool) : Limits :=
  if maxSegs && setup then ⟨!maxSegs, maxScatterEntriesPerReq, maxScatterReqTransferSize⟩
  else ⟨!maxSegs, ath6klScatterEntriesPerReq, ath6klMaxTransferSizePerScatter⟩

def Limits.maxRxBndlSz (l : Limits) : Nat := l.maxXferSzperScatreq
def Limits.maxTxBndlSz (l : Limits) : Nat := min hifMbox0ExtWidth.toNat l.maxXferSzperScatreq

def totalLen (list : List (Nat × UInt32)) : Nat := (list.map fun e => e.2.toNat).sum

/-- A scatter request as HTC fills it: each packet has its own buffer, and no packet is in the
bounce buffer of a request. -/
structure HtcScatReq (l : Limits) (read : Bool) where
  list : List (Nat × UInt32)
  virtDmaBuf : Nat
  count : list.length ≤ l.maxScatEntries
  blocks : ∀ e∈list, 0<e.2 ∧ e.2 % hifMboxBlockSize = 0
  total : totalLen list ≤ if read then l.maxRxBndlSz else l.maxTxBndlSz
  distinct : (list.map Prod.fst).Nodup
  apart : ∀ e∈list, e.1 ≠ virtDmaBuf

/-- HTC adds the lengths up in `len`. -/
def HtcScatReq.toScatReq {l : Limits} {read : Bool} (q : HtcScatReq l read) (virtScat : Bool) :
    ScatReq where
  len := q.list.foldl (fun len e => len + e.2) 0
  virtScat := virtScat
  virtDmaBuf := q.virtDmaBuf
  list := q.list
  busrequest := 0

/-- The memory, and the offsets and lengths of the copies in the bounce buffer. -/
structure Bounce where
  heap : Heap
  copies : List (Nat × Nat) := []

/-- `ath6kl_hif_cp_scat_dma_buf`, with `buf` at offset `off` of the bounce buffer. -/
def cpScatDmaBuf (fromDma : Bool) (dma : Nat) : Nat → List (Nat × UInt32) → Bounce → Bounce
  | _, [], b => b
  | off, e::rest, b =>
    cpScatDmaBuf fromDma dma (off + e.2.toNat) rest
      { heap :=
          if fromDma then b.heap.memcpy e.1 0 dma off e.2.toNat
          else b.heap.memcpy dma off e.1 0 e.2.toNat
        copies := b.copies ++ [(off, e.2.toNat)] }

def addresses (fixed : Bool) (addr len : Nat) : List Nat :=
  (List.range len).map fun i => if fixed then addr else addr+i

def sgBytes (h : Heap) (sg : List (Nat × UInt32)) : List UInt8 :=
  sg.flatMap fun e => h.bytes e.1 e.2.toNat

/-- The entries take `len` received bytes, each those from `off` on. -/
def sgFill (rx : Nat → UInt8) (len : Nat) : Nat → List (Nat × UInt32) → Heap → Heap
  | _, [], h => h
  | off, e::rest, h =>
    sgFill rx len (off + e.2.toNat) rest
      (Function.update h e.1 fun i => if i < e.2.toNat ∧ off+i < len then rx (off+i) else h e.1 i)

/-- The functions of the kernel that carry a transfer out (`sdio_memcpy_toio`, `sdio_writesb`,
`sdio_memcpy_fromio`, `sdio_readsb`, `mmc_wait_for_req`), where they succeed: the bytes on the
card's addresses, and the memory after it; the first argument are the bytes that the card gives to
a read. -/
abbrev Host := (Nat → UInt8) → Heap → Transfer → List (Nat × UInt8) × Heap

/-- What is documented of them. A command goes over its scatter list in order. -/
structure Host.Lawful (perform : Host) : Prop where
  writes : ∀ rx h fixed addr buf len, perform rx h (.io true fixed addr buf len) =
    ((addresses fixed addr.toNat len.toNat).zip (h.bytes buf len.toNat), h)
  reads : ∀ rx h fixed addr buf len, perform rx h (.io false fixed addr buf len) =
    ((addresses fixed addr.toNat len.toNat).zip ((List.range len.toNat).map rx),
      Function.update h buf fun i => if i < len.toNat then rx i else h buf i)
  gathers : ∀ rx h fixed addr blocks sg, perform rx h (.cmd53 true fixed addr blocks sg) =
    ((addresses fixed addr.toNat (blocks.toNat * hifMboxBlockSize.toNat)).zip (sgBytes h sg), h)
  scatters : ∀ rx h fixed addr blocks sg, perform rx h (.cmd53 false fixed addr blocks sg) =
    ((addresses fixed addr.toNat (blocks.toNat * hifMboxBlockSize.toNat)).zip
        ((List.range (blocks.toNat * hifMboxBlockSize.toNat)).map rx),
      sgFill rx (blocks.toNat * hifMboxBlockSize.toNat) 0 sg h)

/-- The head of `ath6kl_hif_submit_scat_req`. -/
def address (r : ScatReq) (read : Bool) : ScatReq :=
  if read then { r with req := hifRdSyncBlockFix, addr := hifMboxBaseAddr }
  else
    { r with
      req := hifWrAsyncBlockInc
      addr := if r.len > hifMboxWidth then hifMbox0ExtBaseAddr else hifMboxBaseAddr }

/-- The bytes on the card's addresses, the memory, and the copies in the bounce buffer. -/
structure Effect where
  accesses : List (Nat × UInt8) := []
  heap : Heap
  copies : List (Nat × Nat) := []

/-- `ath6kl_hif_submit_scat_req` and the transfer it leads to. An empty request is refused with
`-EINVAL`. -/
def submitScatReq (perform : Host) (rx : Nat → UInt8) (h : Heap) (r : ScatReq) (read : Bool) : Effect :=
  let r := address r read
  let b := if !read && r.virtScat then cpScatDmaBuf false r.virtDmaBuf 0 r.list ⟨h, []⟩ else ⟨h, []⟩
  if r.len = 0 then { heap := b.heap, copies := b.copies }
  else
    let (accesses, heap) := perform rx b.heap (scatRw r).1
    if read && r.virtScat then
      let b := cpScatDmaBuf true r.virtDmaBuf 0 r.list ⟨heap, b.copies⟩
      ⟨accesses, b.heap, b.copies⟩
    else ⟨accesses, heap, b.copies⟩

end Ath6kl.SdioScatter
