import Ath6kl.Lib.Machine
import Ath6kl.UsbPipe

/-! Bundled transmission over USB (usb.c, ath6kl_usb_send_bundle): the messages of a bundle are
copied into the buffer of an URB context and wait in its queue for the URB to complete. The
completion handler is two moves, since it returns the context before it empties the queue. -/
namespace Ath6kl.UsbBundle
open UsbPipe

def txBundleBufferSize : Nat := 16384
def targetCreditSize : Nat := 1664
def htcHostMaxMsgPerBundle : Nat := 8

/-- An `sk_buff` with its HTC header. -/
structure Msg where
  id : Nat
  len : Nat
deriving DecidableEq

/-- What `htc_issue_packets` hands down. -/
structure Bundle where
  msgs : List Msg
  count : msgs.length ≤ htcHostMaxMsgPerBundle
  size : ∀ m∈msgs, m.len ≤ targetCreditSize

structure Urb where
  ctx : Nat
  msgs : List Msg
  len : Nat
  zeroPacket : Bool
deriving DecidableEq

/-- One transmit pipe. The URBs whose context is back on the list while their completion still
has the queue to empty are `handing`, those done with it `handedOver`; `accepted` are the URBs
submitted so far, `txCompletion` the buffers passed to `tx_completion`, and `copies` the places
and lengths written in the bundle buffers. -/
structure Pipe where
  pool : UrbPool
  maxPacketSize : Nat
  compQueue : Nat → List Msg := fun _ => []
  submitted : List Urb := []
  handing : List Urb := []
  ioCompQueue : List Msg := []
  accepted : List Urb := []
  handedOver : List Urb := []
  txCompletion : List Msg := []
  copies : List (Nat × Nat) := []

structure Fill where
  streamNetdata : Nat
  streamNetlen : Nat
  compQueue : List Msg
  copies : List (Nat × Nat)

def fillStep (f : Fill) (m : Msg) : Fill where
  streamNetdata := f.streamNetdata + targetCreditSize
  streamNetlen := f.streamNetlen + targetCreditSize
  compQueue := f.compQueue ++ [m]
  copies := f.copies ++ [(f.streamNetdata, m.len)]

def fill (compQueue msgs : List Msg) : Fill := msgs.foldl fillStep ⟨0, 0, compQueue, []⟩

inductive Status where
  | ok | enomem | einval
deriving DecidableEq

namespace Pipe
variable (p : Pipe)

def setCompQueue (c : Nat) (q : List Msg) : Pipe :=
  { p with compQueue := fun d => if d = c then q else p.compQueue d }

/-- `ath6kl_usb_send_bundle`: `urbOk` and `submitOk` are the answers of `usb_alloc_urb` and
`usb_submit_urb`. -/
def sendBundle (state : ArState) (b : Bundle) (urbOk submitOk : Bool) : Pipe × Status :=
  match p.pool.allocUrb with
  | none => (p, .enomem)
  | some (c, pool) =>
    let p := { p with pool := pool }
    if !urbOk then ({ p with pool := p.pool.freeUrb c }, .enomem)
    else
      let f := fill (p.compQueue c) b.msgs
      let p := { p.setCompQueue c f.compQueue with copies := p.copies ++ f.copies }
      let urb : Urb := ⟨c, b.msgs, f.streamNetlen, f.streamNetlen % p.maxPacketSize == 0⟩
      if state.asleep || !submitOk then ({ p with pool := p.pool.freeUrb c }, .einval)
      else ({ p with submitted := p.submitted ++ [urb], accepted := p.accepted ++ [urb] }, .ok)

/-- `ath6kl_usb_transmit_bundle_complete` up to the return of the context. -/
def urbComplete (i : Nat) : Pipe :=
  match p.submitted[i]? with
  | none => p
  | some u =>
    { p with submitted := p.submitted.eraseIdx i, handing := p.handing ++ [u],
             pool := p.pool.freeUrb u.ctx }

def handOver (i : Nat) : Pipe :=
  match p.handing[i]? with
  | none => p
  | some u =>
    { p.setCompQueue u.ctx [] with
      handing := p.handing.eraseIdx i, handedOver := p.handedOver ++ [u],
      ioCompQueue := p.ioCompQueue ++ p.compQueue u.ctx }

/-- One turn of the loop of `ath6kl_usb_io_comp_work`. -/
def ioCompWork : Pipe :=
  match p.ioCompQueue with
  | [] => p
  | m::rest => { p with ioCompQueue := rest, txCompletion := p.txCompletion ++ [m] }

end Pipe

inductive PipeEvent where
  | sendBundle (b : Bundle) (urbOk submitOk : Bool)
  | urbComplete (i : Nat)
  | handOver (i : Nat)
  | ioCompWork

def Pipe.step (state : ArState) (p : Pipe) : PipeEvent → Pipe
  | .sendBundle b urbOk submitOk => (p.sendBundle state b urbOk submitOk).1
  | .urbComplete i => p.urbComplete i
  | .handOver i => p.handOver i
  | .ioCompWork => p.ioCompWork

/-- `struct ath6kl_usb` with the state of the device. -/
structure Device where
  state : ArState
  pipes : List Pipe

inductive Event where
  | setState (state : ArState)
  | setMaxQueueNumber (mccEnable : Bool)
  | pipe (pid : Nat) (e : PipeEvent)

def step (d : Device) : Event → Device
  | .setState state => { d with state := state }
  | .setMaxQueueNumber mccEnable =>
    { d with pipes := d.pipes.map fun p => { p with pool := p.pool.setMaxQueueNumber mccEnable } }
  | .pipe pid e => { d with pipes := d.pipes.modify pid fun p => p.step d.state e }

def Pipe.fresh (urbCnt maxPacketSize : Nat) : Pipe :=
  { pool := .init urbCnt false, maxPacketSize := maxPacketSize }

end Ath6kl.UsbBundle
