import Ath6kl.Lib.Machine
import Ath6kl.UsbPipe

/-! Transmission over USB with auto-suspend (usb.c, ath6kl_usb_send): a buffer is submitted at
once, or parked while the device sleeps and submitted by `ath6kl_auto_pm_wakeup_resume`, which
the completion worker and the resume path call. -/
namespace Ath6kl.UsbAutoPm
open UsbPipe

/-- An `sk_buff`. -/
structure Skb where
  id : Nat
  len : Nat
deriving DecidableEq

structure Urb where
  ctx : Nat
  buf : Skb
  zeroPacket : Bool
deriving DecidableEq

/-- One transmit pipe; `ctxBuf` is the buffer of each URB context. `accepted` are the buffers for
which `ath6kl_usb_send` returned 0, `bus` those submitted, `txCompletion` those passed to
`tx_completion`. -/
structure Pipe where
  pool : UrbPool
  maxPacketSize : Nat
  ctxBuf : Nat → Option Skb := fun _ => none
  submitted : List Urb := []
  ioCompQueue : List Skb := []
  accepted : List Skb := []
  bus : List Skb := []
  txCompletion : List Skb := []

/-- What a call returns; `fault` stands for a write through `NULL`, which does not return. -/
inductive Status where
  | ok | enomem | einval | etxtbsy | fault
deriving DecidableEq

/-- What `usb_alloc_urb` and `usb_submit_urb` answer. -/
structure Answer where
  urbOk : Bool := true
  submitOk : Bool := true

namespace Pipe
variable (p : Pipe)

def setCtxBuf (c : Nat) (o : Option Skb) : Pipe :=
  { p with ctxBuf := fun d => if d = c then o else p.ctxBuf d }

/-- From `ath6kl_usb_alloc_urb_from_pipe` to `usb_submit_urb`, the same in `ath6kl_usb_send` and
in `ath6kl_auto_pm_wakeup_resume`. -/
def transmit (b : Skb) (a : Answer) : Pipe × Status :=
  match p.pool.allocUrb with
  | none => (p, .enomem)
  | some (c, pool) =>
    let p := { p.setCtxBuf c (some b) with pool := pool }
    if !a.urbOk then ({ p with pool := p.pool.freeUrb c }, .enomem)
    else if !a.submitOk then ({ p with pool := p.pool.freeUrb c }, .einval)
    else
      let urb : Urb := ⟨c, b, b.len % p.maxPacketSize == 0⟩
      ({ p with submitted := p.submitted ++ [urb], bus := p.bus ++ [b] }, .ok)

def accept (b : Skb) : Pipe := { p with accepted := p.accepted ++ [b] }

/-- `ath6kl_usb_usb_transmit_complete`. A context without a buffer would queue `NULL`. -/
def urbComplete (i : Nat) : Pipe :=
  match p.submitted[i]? with
  | none => p
  | some u =>
    { p.setCtxBuf u.ctx none with
      submitted := p.submitted.eraseIdx i, pool := p.pool.freeUrb u.ctx,
      ioCompQueue := p.ioCompQueue ++ (p.ctxBuf u.ctx).toList }

/-- `tx_completion` in the loop of `ath6kl_usb_io_comp_work`. -/
def ioCompWork : Pipe :=
  match p.ioCompQueue with
  | [] => p
  | b::rest => { p with ioCompQueue := rest, txCompletion := p.txCompletion ++ [b] }

end Pipe

/-- `struct usb_pm_skb_queue_t`. -/
structure Entry where
  pipeId : Nat
  skb : Skb
deriving DecidableEq

structure Device where
  state : ArState
  pipes : Nat → Pipe
  usbPmSkbQueue : List Entry := []
  oops : Bool := false

namespace Device
variable (d : Device)

def setPipe (i : Nat) (p : Pipe) : Device :=
  { d with pipes := fun j => if j = i then p else d.pipes j }

/-- `ath6kl_usb_send`. The entry for the queue is written even if `kmalloc` fails. -/
def send (i : Nat) (b : Skb) (kmallocOk : Bool) (a : Answer) : Device × Status :=
  if d.state = .preSuspendDeepSleep then (d, .etxtbsy)
  else if d.usbPmSkbQueue ≠ [] ∨ d.state = .wow ∨ d.state = .deepSleep then
    if !kmallocOk then ({ d with oops := true }, .fault)
    else
      ({ d.setPipe i ((d.pipes i).accept b) with
          usbPmSkbQueue := d.usbPmSkbQueue ++ [⟨i, b⟩] }, .ok)
  else
    match (d.pipes i).transmit b a with
    | (p, .ok) => (d.setPipe i (p.accept b), .ok)
    | (p, status) => (d.setPipe i p, status)

/-- The loop of `ath6kl_auto_pm_wakeup_resume` over the queue, with the answers of each turn. It
stops where a context or an URB is missing; an entry is unlinked before it is submitted. -/
def drain : List Entry → List Answer → Device → Device
  | [], _, d => d
  | e::rest, as, d =>
    match (d.pipes e.pipeId).transmit e.skb (as.headD {}) with
    | (p, .enomem) => d.setPipe e.pipeId p
    | (p, _) => drain rest as.tail { d.setPipe e.pipeId p with usbPmSkbQueue := rest }

def wakeupResume (as : List Answer) : Device := drain d.usbPmSkbQueue as d

end Device

inductive Event where
  | setState (state : ArState)
  | setMaxQueueNumber (mccEnable : Bool)
  | send (i : Nat) (b : Skb) (kmallocOk : Bool) (a : Answer)
  | wakeupResume (as : List Answer)
  | urbComplete (i n : Nat)
  | ioCompWork (i : Nat)

def step (d : Device) : Event → Device
  | .setState state => { d with state := state }
  | .setMaxQueueNumber mccEnable =>
    { d with pipes := fun i =>
        { d.pipes i with pool := (d.pipes i).pool.setMaxQueueNumber mccEnable } }
  | .send i b kmallocOk a => (d.send i b kmallocOk a).1
  | .wakeupResume as => d.wakeupResume as
  | .urbComplete i n => d.setPipe i ((d.pipes i).urbComplete n)
  | .ioCompWork i => d.setPipe i (d.pipes i).ioCompWork

def Pipe.fresh (urbCnt maxPacketSize : Nat) (ctrlOut : Bool) : Pipe :=
  { pool := .init urbCnt ctrlOut, maxPacketSize := maxPacketSize }

end Ath6kl.UsbAutoPm
