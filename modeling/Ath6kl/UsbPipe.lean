import Mathlib.Data.List.Nodup

/-! What the transmit pipes of usb.c share: the state of the device and the URB contexts of a
pipe, which wait on a list while no URB uses them. A context is its number in the pipe. -/
namespace Ath6kl.UsbPipe

/-- `enum ath6kl_state`. -/
inductive ArState where
  | off | on | deepSleep | cutPower | wow | preSuspend | preSuspendDeepSleep
deriving DecidableEq

def ArState.asleep : ArState → Bool
  | .deepSleep | .wow => true
  | _ => false

def txUrbCountMcc : Nat := 10

/-- `urb_list_head` with the counts and the threshold of the pipe. -/
structure UrbPool where
  urbList : List Nat
  urbAlloc : Nat
  urbCntThreshOut : Nat := 0
  ctrlOut : Bool := false
deriving DecidableEq

namespace UrbPool
variable (p : UrbPool)

def urbCnt : Nat := p.urbList.length

/-- `ath6kl_usb_free_urb_to_pipe`. -/
def freeUrb (c : Nat) : UrbPool := { p with urbList := c::p.urbList }

/-- `ath6kl_usb_alloc_urb_from_pipe` without reclaiming. -/
def allocUrb : Option (Nat × UrbPool) :=
  match p.urbList with
  | [] => none
  | c::rest =>
    if p.urbCntThreshOut ≠ 0 ∧ p.ctrlOut = false ∧
        p.urbCntThreshOut < p.urbAlloc - p.urbCnt then none
    else some (c, { p with urbList := rest })

/-- `ath6kl_usb_alloc_pipe_resources`. -/
def init (urbCnt : Nat) (ctrlOut : Bool) : UrbPool :=
  { urbList := (List.range urbCnt).reverse, urbAlloc := urbCnt, ctrlOut := ctrlOut }

/-- `ath6kl_usb_set_max_queue_number`. -/
def setMaxQueueNumber (mccEnable : Bool) : UrbPool :=
  if p.ctrlOut then p
  else { p with urbCntThreshOut := if mccEnable then txUrbCountMcc else 0 }

variable {p} {q : UrbPool} {c : Nat}

theorem freeUrb_allocUrb (h : p.allocUrb = some (c, q)) : q.freeUrb c = p := by
  rw [allocUrb] at h
  cases hl : p.urbList with
  | nil => simp [hl] at h
  | cons x rest =>
    simp only [hl] at h
    split at h
    · cases h
    · cases h
      simp only [freeUrb, ← hl]

theorem allocUrb_list (h : p.allocUrb = some (c, q)) : p.urbList = c::q.urbList :=
  congrArg urbList (freeUrb_allocUrb h).symm

theorem allocUrb_urbAlloc (h : p.allocUrb = some (c, q)) : p.urbAlloc = q.urbAlloc := by
  rw [← freeUrb_allocUrb h]
  rfl

theorem setMaxQueueNumber_urbList (p : UrbPool) (mccEnable : Bool) :
    (p.setMaxQueueNumber mccEnable).urbList = p.urbList := by
  rw [setMaxQueueNumber]
  split <;> rfl

theorem setMaxQueueNumber_urbAlloc (p : UrbPool) (mccEnable : Bool) :
    (p.setMaxQueueNumber mccEnable).urbAlloc = p.urbAlloc := by
  rw [setMaxQueueNumber]
  split <;> rfl

theorem init_nodup (n : Nat) (b : Bool) : (init n b).urbList.Nodup :=
  List.nodup_reverse.mpr List.nodup_range

end UrbPool

end Ath6kl.UsbPipe
