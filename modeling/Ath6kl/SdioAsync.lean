import Ath6kl.Lib.Machine
import Mathlib.Data.List.FinRange
import Mathlib.Logic.Function.Basic

/-! Asynchronous bus requests over SDIO (sdio.c): plain writes and scatter requests share the
bus requests, the queue and the worker. The worker is cut wherever it does not hold
`wr_async_lock`; every other call runs to its end. -/
namespace Ath6kl.SdioAsync

/-- An index below `BUS_REQUEST_MAX_NUM`. -/
abbrev ReqIdx := Fin 64
/-- The address of a `struct hif_scatter_req`. -/
abbrev ScatId := Nat

def ecanceled : Int := -125

def hifWrite : UInt32 := 0x02
def hifSynchronous : UInt32 := 0x10
def hifAsynchronous : UInt32 := 0x20
def hifBlockBasis : UInt32 := 0x80
def hifFixedAddress : UInt32 := 0x100

/-- `request & flag`. -/
def has (request flag : UInt32) : Bool := request &&& flag != 0

def hifMboxBlockSize : UInt32 := 128
def hifMboxBaseAddr : UInt32 := 0x800
def hifMboxWidth : UInt32 := 0x800
def hifMboxEndAddr : UInt32 := 4*0x800 - 1
def hifMbox0ExtBaseAddr : UInt32 := 0x4000
def hifMbox0ExtWidth : UInt32 := 12*1024

def maxScatterRequests : Nat := 4
def ath6klScatterReqs : Nat := 4

/-- What goes over the bus: `ath6kl_sdio_io`, or a block command with its scatter list. -/
inductive Transfer
  | io (write fixed : Bool) (addr : UInt32) (buf : Nat) (len : UInt32)
  | cmd53 (write fixed : Bool) (addr blocks : UInt32) (sg : List (Nat × UInt32))
deriving DecidableEq

/-- `round_down(len, HIF_MBOX_BLOCK_SIZE)` for a transfer in blocks. -/
def wholeBlocks (request len : UInt32) : UInt32 :=
  if has request hifBlockBasis then len - len % hifMboxBlockSize else len

/-- `ath6kl_sdio_io`: a write ends at the end of its mailbox. -/
def sdioIo (request addr : UInt32) (buf : Nat) (len : UInt32) : Transfer :=
  let addr :=
    if has request hifWrite then
      let addr := if hifMboxBaseAddr ≤ addr ∧ addr ≤ hifMboxEndAddr then
          addr + (hifMboxWidth - len) else addr
      if addr = hifMbox0ExtBaseAddr then addr + (hifMbox0ExtWidth - len) else addr
    else addr
  .io (has request hifWrite) (has request hifFixedAddress) addr buf len

def readWriteSync (addr : UInt32) (buf : Nat) (len request : UInt32) : Transfer :=
  sdioIo request addr buf (wholeBlocks request len)

/-- `struct hif_scatter_req`; `list` are the buffers and lengths of `scat_list`. -/
structure ScatReq where
  addr : UInt32 := 0
  req : UInt32 := 0
  len : UInt32 := 0
  virtScat : Bool
  virtDmaBuf : Nat
  list : List (Nat × UInt32) := []
  busrequest : ReqIdx
deriving DecidableEq

/-- "Fixup the address so that the last byte will fall on MBOX EOM." -/
def ScatReq.fixAddr (r : ScatReq) : UInt32 :=
  if has r.req hifWrite then
    if r.addr = hifMboxBaseAddr then r.addr + (hifMboxWidth - r.len)
    else r.addr + (hifMbox0ExtWidth - r.len)
  else r.addr

/-- `ath6kl_sdio_scat_rw` up to the status: the transfer and the request after it. -/
def scatRw (r : ScatReq) : Transfer × ScatReq :=
  if r.virtScat then (sdioIo r.req r.addr r.virtDmaBuf (wholeBlocks r.req r.len), r)
  else
    (.cmd53 (has r.req hifWrite) (has r.req hifFixedAddress) (r.fixAddr &&& 0x1FFFF)
      (r.len / hifMboxBlockSize &&& 0x1FF) r.list, { r with addr := r.fixAddr })

/-- `struct bus_request`. -/
structure BusReq where
  address : UInt32 := 0
  buffer : Nat := 0
  length : UInt32 := 0
  request : UInt32 := 0
  packet : Nat := 0
  scatReq : Option ScatId := none

inductive Token
  | packet (p : Nat)
  | scatter (id : ScatId)
deriving DecidableEq

/-- An accepted request as its caller gave it. -/
inductive Item
  | write (address : UInt32) (buffer : Nat) (length request : UInt32) (packet : Nat)
  | scatter (id : ScatId) (r : ScatReq)
deriving DecidableEq

def Item.token : Item → Token
  | .write _ _ _ _ packet => .packet packet
  | .scatter id _ => .scatter id

def Item.transfer : Item → Transfer
  | .write address buffer length request _ => readWriteSync address buffer length request
  | .scatter _ r => (scatRw r).1

/-- Where `ath6kl_sdio_write_async_work` stands: before the transfer, after it, with the bus
request of a plain write freed, or about to take the lock. `next` is `tmp_req`, `none` for the
head of the list. `fault`: it followed a pointer to freed memory. -/
inductive Worker
  | idle
  | exec (req : ReqIdx) (next : Option ReqIdx)
  | ran (req : ReqIdx) (status : Int) (next : Option ReqIdx)
  | freed (packet : Nat) (status : Int) (next : Option ReqIdx)
  | back (next : Option ReqIdx)
  | fault
deriving DecidableEq

/-- `struct ath6kl_sdio` (`workQueued`: `wr_async_work` is queued), the scatter requests allocated (`scat`), those in the hands of the
caller (`held`), and the history: what was accepted, executed (`none` when cancelled) and
completed, the `scat_req` of every bus request drawn for a plain write, and which bus requests
`ath6kl_sdio_cleanup_scatter` was the last to free. -/
structure Sdio where
  busReqFreeq : List ReqIdx
  busReq : ReqIdx → BusReq := fun _ => {}
  scat : ScatId → Option ScatReq := fun _ => none
  fresh : ScatId := 0
  scatReq : List ScatId := []
  held : List ScatId := []
  scatterEnabled : Bool := false
  wrAsyncq : List ReqIdx := []
  workQueued : Bool := false
  worker : Worker := .idle
  accepted : List Item := []
  executed : List (Option Transfer) := []
  completed : List (Token × Int) := []
  drawn : List (Option ScatId) := []
  cleanupFreed : ReqIdx → Bool := fun _ => false

namespace Sdio
variable (s : Sdio)

def allocBusreq : Option (ReqIdx × Sdio) :=
  match s.busReqFreeq with
  | [] => none
  | b::rest => some (b, { s with busReqFreeq := rest })

def freeBusReq (b : ReqIdx) : Sdio :=
  { s with busReqFreeq := s.busReqFreeq ++ [b]
           cleanupFreed := Function.update s.cleanupFreed b false }

def setBusReq (b : ReqIdx) (r : BusReq) : Sdio :=
  { s with busReq := Function.update s.busReq b r }

def setScat (id : ScatId) (r : Option ScatReq) : Sdio :=
  { s with scat := Function.update s.scat id r }

@[simp] theorem setScat_self (id : ScatId) (r : Option ScatReq) :
    (s.setScat id r).scat id = r := Function.update_self ..

theorem setScat_ne {id x : ScatId} (h : x ≠ id) (r : Option ScatReq) :
    (s.setScat id r).scat x = s.scat x := Function.update_of_ne h ..

/-- The request returns to the pool, or its owner keeps it. -/
def scatterReqAdd (id : ScatId) (keep : Bool) : Sdio :=
  { s with
    scatReq := if keep then s.scatReq else s.scatReq ++ [id]
    held := if keep then s.held ++ [id] else s.held }

/-- What the allocator answers for one scatter request: for the request itself, then for its
buffer or its scatter list. -/
structure Alloc where
  req : Bool
  buf : Option Nat

/-- One turn of the loop of `ath6kl_sdio_alloc_prep_scat_req`. -/
def allocPrepOne (virtScat : Bool) (a : Alloc) : Option Sdio :=
  if !a.req then none
  else match a.buf with
    | none => none
    | some buf => match s.allocBusreq with
      | none => none
      | some (b, s) =>
        let s := s.setBusReq b { s.busReq b with scatReq := some s.fresh }
        let s := s.setScat s.fresh (some
          { virtScat := virtScat, virtDmaBuf := if virtScat then buf else 0, busrequest := b })
        some { s.scatterReqAdd s.fresh false with fresh := s.fresh+1 }

/-- `ath6kl_sdio_alloc_prep_scat_req`, and whether it returns 0. -/
def allocPrepScatReq (virtScat : Bool) (alloc : Nat → Alloc) : Nat → Sdio → Sdio × Bool
  | 0, s => (s, true)
  | n+1, s =>
    match s.allocPrepOne virtScat (alloc n) with
    | none => (s, false)
    | some s => allocPrepScatReq virtScat alloc n s

/-- One turn of the loop of `ath6kl_sdio_cleanup_scatter`. -/
def cleanupOne (s : Sdio) (id : ScatId) : Sdio :=
  match s.scat id with
  | none => s
  | some r =>
    let s := s.freeBusReq r.busrequest
    { s.setScat id none with cleanupFreed := Function.update s.cleanupFreed r.busrequest true }

def cleanupScatter : Sdio := s.scatReq.foldl cleanupOne { s with scatReq := [] }

/-- An attempt to set scatter resources up, cleaned up after a failure. -/
def scatterAttempt (virtScat : Bool) (alloc : Nat → Alloc) (n : Nat) : Sdio × Bool :=
  let r := allocPrepScatReq virtScat alloc n s
  if r.2 then r else (r.1.cleanupScatter, false)

/-- `ath6kl_sdio_enable_scatter`: `maxSegs` tells whether the host takes enough segments,
`first` and `second` are the answers of the allocator in the two attempts. -/
def enableScatter (maxSegs : Bool) (first second : Nat → Alloc) : Sdio :=
  if s.scatterEnabled then s
  else
    let s := { s with scatterEnabled := true }
    let virtScat := !maxSegs
    let r := if !virtScat then s.scatterAttempt virtScat first maxScatterRequests else (s, false)
    if virtScat || !r.2 then (r.1.scatterAttempt virtScat second ath6klScatterReqs).1 else r.1

/-- `ath6kl_sdio_write_async`. -/
def writeAsync (address : UInt32) (buffer : Nat) (length request : UInt32) (packet : Nat) :
    Sdio :=
  match s.allocBusreq with
  | none => s
  | some (b, s) =>
    let r := s.busReq b
    let s := s.setBusReq b { r with
      address := address, buffer := buffer, length := length, request := request
      packet := packet }
    { s with
      wrAsyncq := s.wrAsyncq ++ [b]
      workQueued := true
      accepted := s.accepted ++ [.write address buffer length request packet]
      drawn := s.drawn ++ [r.scatReq] }

def scatterReqGet : Sdio :=
  match s.scatReq with
  | [] => s
  | id::rest => { s with scatReq := rest, held := s.held ++ [id] }

/-- Return the `i`-th request held without submitting it. -/
def putBack (i : Nat) : Sdio :=
  match s.held[i]? with
  | none => s
  | some id => { s with held := s.held.eraseIdx i }.scatterReqAdd id false

/-- What the caller writes into a scatter request; the flags ask for an asynchronous one. -/
structure ScatArgs where
  addr : UInt32
  req : UInt32
  len : UInt32
  list : List (Nat × UInt32)
  async : has req hifAsynchronous = true
  notSync : has req hifSynchronous = false

/-- `ath6kl_sdio_async_rw_scatter` on the `i`-th request held. -/
def asyncRwScatter (i : Nat) (a : ScatArgs) : Sdio :=
  match s.held[i]? with
  | none => s
  | some id => match s.scat id with
    | none => { s with worker := .fault }
    | some r =>
      let r := { r with addr := a.addr, req := a.req, len := a.len, list := a.list }
      let s := s.setScat id (some r)
      if r.len = 0 then s
      else
        { s with
          held := s.held.eraseIdx i
          wrAsyncq := s.wrAsyncq ++ [r.busrequest]
          workQueued := true
          accepted := s.accepted ++ [.scatter id r] }

/-- The entry behind `b` in `wr_asyncq`. -/
def nextOf (q : List ReqIdx) (b : ReqIdx) : Option ReqIdx :=
  (q.dropWhile fun x => x ≠ b).tail.head?

/-- The loop head of the worker, under the lock: leave, or unlink the entry. -/
def take : Option ReqIdx → Sdio
  | none => { s with worker := .idle }
  | some b => { s with
      wrAsyncq := s.wrAsyncq.erase b
      worker := .exec b (nextOf s.wrAsyncq b) }

/-- The transfer in `__ath6kl_sdio_write_async`; the host answers with `status`. -/
def exec (b : ReqIdx) (next : Option ReqIdx) (status : Int) : Sdio :=
  let req := s.busReq b
  match req.scatReq with
  | none => { s with
      executed := s.executed ++ [some (readWriteSync req.address req.buffer req.length req.request)]
      worker := .ran b status next }
  | some id => match s.scat id with
    | none => { s with worker := .fault }
    | some r => { s.setScat id (some (scatRw r).2) with
        executed := s.executed ++ [some (scatRw r).1]
        worker := .ran b status next }

/-- What follows the transfer: `complete` of a scatter request, the return of the bus request
of a plain write. -/
def release (b : ReqIdx) (next : Option ReqIdx) (status : Int) (keep : Bool) : Sdio :=
  match (s.busReq b).scatReq with
  | none => { s.freeBusReq b with worker := .freed (s.busReq b).packet status next }
  | some id => match s.scat id with
    | none => { s with worker := .fault }
    | some r =>
      if has r.req hifAsynchronous then
        { s.scatterReqAdd id keep with
          completed := s.completed ++ [(.scatter id, status)]
          worker := .back next }
      else { s with worker := .back next }

/-- `ath6kl_sdio_write_async_work`: start once it is queued, or go on to the next cut. -/
def work (status : Int) (keep : Bool) : Sdio :=
  match s.worker with
  | .idle => if s.workQueued then { s with workQueued := false }.take s.wrAsyncq.head? else s
  | .exec b next => s.exec b next status
  | .ran b status next => s.release b next status keep
  | .freed packet status next => { s with
      completed := s.completed ++ [(.packet packet, status)]
      worker := .back next }
  | .back next => s.take next
  | .fault => s

/-- One turn of the loop of `ath6kl_sdio_stop`. -/
def stopOne (keep : ScatId → Bool) (s : Sdio) (b : ReqIdx) : Sdio :=
  match (s.busReq b).scatReq with
  | some id => match s.scat id with
    | none => { s with worker := .fault }
    | some _ => { s.scatterReqAdd id (keep id) with
        executed := s.executed ++ [none]
        completed := s.completed ++ [(.scatter id, ecanceled)] }
  | none => { s.freeBusReq b with
      executed := s.executed ++ [none]
      completed := s.completed ++ [(.packet (s.busReq b).packet, ecanceled)] }

/-- `ath6kl_sdio_stop`; `cancel_work_sync` lets a running worker finish first. -/
def stop (keep : ScatId → Bool) : Sdio :=
  if s.worker = .idle then
    s.wrAsyncq.foldl (stopOne keep) { s with wrAsyncq := [], workQueued := false }
  else s

end Sdio

open Sdio in
inductive Event
  | enableScatter (maxSegs : Bool) (first second : Nat → Alloc)
  | writeAsync (address : UInt32) (buffer : Nat) (length request : UInt32) (packet : Nat)
  | scatterReqGet
  | putBack (i : Nat)
  | asyncRwScatter (i : Nat) (a : ScatArgs)
  | work (status : Int) (keep : Bool)
  | stop (keep : ScatId → Bool)
  | cleanupScatter

def step (s : Sdio) : Event → Sdio
  | .enableScatter maxSegs first second => s.enableScatter maxSegs first second
  | .writeAsync address buffer length request packet =>
    s.writeAsync address buffer length request packet
  | .scatterReqGet => s.scatterReqGet
  | .putBack i => s.putBack i
  | .asyncRwScatter i a => s.asyncRwScatter i a
  | .work status keep => s.work status keep
  | .stop keep => s.stop keep
  | .cleanupScatter => s.cleanupScatter

/-- `ath6kl_sdio_probe`: every bus request is free. -/
def probe : Sdio where
  busReqFreeq := List.finRange 64

end Ath6kl.SdioAsync
