import Ath6kl.Lib.Custody
import Ath6kl.Lib.Machine
import Mathlib.Data.List.Range

/-! Stitching of overflowed transfers over USB (usb.c, ath6kl_usb_recv_complete): with a receive
buffer that is not of 2048 bytes, a transfer that ends with `-EOVERFLOW` waits in the global
`g_overflow_buf` and the next one is appended to it. -/
namespace Ath6kl.UsbRxOverflow
open Lib.Custody Lib.Machine
open scoped List

/-- What lies in the buffer of a completed URB, and `actual_length`. -/
structure Transfer where
  bytes : List UInt8
  actualLength : Nat
  fits : actualLength ≤ bytes.length

def Transfer.data (t : Transfer) : List UInt8 := t.bytes.take t.actualLength

inductive Status where
  | ok | eoverflow | error
deriving DecidableEq

/-- A completion on a buffer of its own: `newBuf` is what `__dev_alloc_skb` answers, `junk` what a
buffer shows that was freed. -/
structure Completion where
  status : Status
  transfer : Transfer
  newBuf : Bool := true
  junk : List UInt8 := []

/-- Buffers are numbered as they come; `skb` holds their data, `freed` those freed, `ioCompQueue`
those delivered with their bytes. `badRead`: a freed buffer was read. -/
structure Driver where
  next : Nat := 0
  skb : Nat → List UInt8 := fun _ => []
  gOverflowBuf : Option Nat := none
  freed : List Nat := []
  ioCompQueue : List (Nat × List UInt8) := []
  badRead : Bool := false

namespace Driver
variable (d : Driver)

def kfree (i : Nat) : Driver := { d with freed := d.freed ++ [i] }

/-- What is read in buffer `i`. -/
def contents (i : Nat) (junk : List UInt8) : List UInt8 := if i∈d.freed then junk else d.skb i

def touch (i : Nat) : Driver := { d with badRead := d.badRead || decide (i∈d.freed) }

/-- `skb_put` and `skb_queue_tail` of the buffer of the URB, or its release if nothing came. -/
def passUp (b : Nat) (bytes : List UInt8) (actualLength : Nat) : Driver :=
  if actualLength = 0 then d.kfree b
  else { d with ioCompQueue := d.ioCompQueue ++ [(b, bytes.take actualLength)] }

/-- The branch for a transfer behind an overflowed one, up to the new buffer `c`. The length of
`g_overflow_buf` is added after it has been freed. -/
def stitch (g b c : Nat) (t : Transfer) (junk : List UInt8) : Driver :=
  let first := d.contents g junk
  let d := ((d.touch g).kfree g).kfree b
  let actualLength := t.actualLength + (d.contents g junk).length
  { (d.touch g) with gOverflowBuf := none, next := d.next+1 }.passUp c (first ++ t.data) actualLength

/-- `ath6kl_usb_recv_complete`, up to the posting of further transfers. -/
def recvComplete (rxBufferSize : Nat) (e : Completion) : Driver :=
  let b := d.next
  let d := { d with next := d.next+1 }
  match e.status with
  | .error => d.kfree b
  | .eoverflow =>
    if rxBufferSize ≠ 2048 then
      let d := { d with gOverflowBuf := some b }
      if e.transfer.actualLength = 0 then d.kfree b
      else { d with skb := fun i => if i = b then e.transfer.data else d.skb i }
    else d.passUp b e.transfer.bytes rxBufferSize
  | .ok =>
    match d.gOverflowBuf with
    | none => d.passUp b e.transfer.bytes e.transfer.actualLength
    | some g =>
      if rxBufferSize = 2048 then d.passUp b e.transfer.bytes e.transfer.actualLength
      else if !e.newBuf then
        { ((d.touch g).kfree g) with gOverflowBuf := none }.passUp b e.transfer.bytes
          e.transfer.actualLength
      else d.stitch g b d.next e.transfer e.junk

/-- The pending buffer, unless it is gone. -/
def held : List Nat :=
  match d.gOverflowBuf with
  | none => []
  | some g => if g∈d.freed then [] else [g]

end Driver

/-- What should be delivered: an overflowed transfer and the next normal one as one buffer, and
every other normal transfer that carries bytes. -/
structure Wanted where
  pending : Option (List UInt8) := none
  delivered : List (List UInt8) := []

def Wanted.step (w : Wanted) (e : Completion) : Wanted :=
  match e.status, w.pending with
  | .error, _ => w
  | .eoverflow, _ => { w with pending := some e.transfer.data }
  | .ok, some first =>
    { pending := none, delivered := w.delivered ++ [first ++ e.transfer.data] }
  | .ok, none =>
    if e.transfer.actualLength = 0 then w
    else { w with delivered := w.delivered ++ [e.transfer.data] }

structure System where
  driver : Driver := {}
  wanted : Wanted := {}

def step (rxBufferSize : Nat) (s : System) (e : Completion) : System where
  driver := s.driver.recvComplete rxBufferSize e
  wanted := s.wanted.step e

/-- No freed buffer was read, what is delivered is what should be, and each buffer was delivered
once or freed once, or is the one pending. -/
structure Sound (s : System) : Prop where
  reads : s.driver.badRead = false
  queue : s.driver.ioCompQueue.map Prod.snd = s.wanted.delivered
  once : List.range s.driver.next ~
    s.driver.ioCompQueue.map Prod.fst ++ (s.driver.freed ++ s.driver.held)

/-- No overflowed transfer is pending for a normal one, and none with bytes for another
overflow. -/
def Ok (s : System) (e : Completion) : Prop :=
  match e.status with
  | .ok => s.driver.gOverflowBuf = none
  | .eoverflow => s.driver.held = []
  | .error => True

structure Inv (s : System) : Prop where
  sound : Sound s
  fresh : ∀ g, s.driver.gOverflowBuf = some g → g < s.driver.next
  waiting : ∀ g, s.driver.gOverflowBuf = some g → g∉s.driver.freed →
    s.wanted.pending = some (s.driver.skb g) ∧ s.driver.skb g ≠ []
  idle : s.driver.gOverflowBuf = none → s.wanted.pending = none

theorem Transfer.data_eq_nil {t : Transfer} (h : t.data = []) : t.actualLength = 0 := by
  have hlen := congrArg List.length h
  have := t.fits
  rw [Transfer.data, List.length_take, List.length_nil] at hlen
  omega

namespace Driver
variable {d : Driver}

theorem held_none (h : d.gOverflowBuf = none) : d.held = [] := by
  rw [held, h]

theorem held_some {g : Nat} (hg : d.gOverflowBuf = some g) :
    d.held = if g∈d.freed then [] else [g] := by
  rw [held, hg]

theorem held_eq_nil {g : Nat} (hg : d.gOverflowBuf = some g) : d.held = [] ↔ g∈d.freed := by
  rw [held_some hg]
  split_ifs with h <;> simp [h]

theorem held_kfree {b : Nat} (h : d.gOverflowBuf ≠ some b) : (d.kfree b).held = d.held := by
  cases hg : d.gOverflowBuf with
  | none => rw [held_none hg, held_none (show (d.kfree b).gOverflowBuf = none from hg)]
  | some g =>
    have hgb : g ≠ b := fun he => h (he ▸ hg)
    rw [held_some hg, held_some (show (d.kfree b).gOverflowBuf = some g from hg)]
    simp [kfree, hgb]

theorem passUp_badRead (b : Nat) (bytes : List UInt8) (n : Nat) :
    (d.passUp b bytes n).badRead = d.badRead := by
  unfold passUp
  split_ifs <;> rfl

theorem stitch_badRead (g b c : Nat) (t : Transfer) (junk : List UInt8) :
    (d.stitch g b c t junk).badRead = true := by
  have hm : g∈d.freed ++ [g] ++ [b] := by simp
  rw [stitch, passUp_badRead]
  exact (congrArg _ (decide_eq_true hm)).trans (Bool.or_true _)

end Driver

section Once
variable {n : Nat} {queue freed held : List Nat}

theorem once_freed (h : List.range n ~ queue ++ (freed ++ held)) :
    List.range (n+1) ~ queue ++ (freed ++ [n] ++ held) := by
  rw [List.range_succ, ← List.append_assoc, ← List.append_assoc]
  rw [← List.append_assoc] at h
  exact take_in h n

theorem once_queued (h : List.range n ~ queue ++ (freed ++ held)) :
    List.range (n+1) ~ queue ++ [n] ++ (freed ++ held) := by
  rw [List.range_succ]
  exact take_in h n

theorem once_held (h : List.range n ~ queue ++ (freed ++ [])) :
    List.range (n+1) ~ queue ++ (freed ++ [n]) := by
  rw [List.append_nil] at h
  rw [List.range_succ, ← List.append_assoc]
  exact h.append_right [n]

end Once

theorem Sound.lt_next {s : System} (h : Sound s) {i : Nat}
    (hi : i∈s.driver.ioCompQueue.map Prod.fst ∨ i∈s.driver.freed) : i < s.driver.next := by
  apply List.mem_range.mp
  apply h.once.mem_iff.mpr
  rcases hi with hq | hf
  · exact List.mem_append_left _ hq
  · exact List.mem_append_right _ (List.mem_append_left _ hf)

theorem Sound.not_queued {s : System} (h : Sound s) {g : Nat} (hg : g∈s.driver.held) :
    g∉s.driver.ioCompQueue.map Prod.fst := by
  have hnd := h.once.nodup_iff.mp List.nodup_range
  intro hq
  exact (List.nodup_append.mp hnd).2.2 g hq g (List.mem_append_right _ hg) rfl

theorem recv_ok {rxBufferSize : Nat} {d : Driver} (h : d.gOverflowBuf = none) (t : Transfer)
    (newBuf : Bool) (junk : List UInt8) :
    d.recvComplete rxBufferSize ⟨.ok, t, newBuf, junk⟩ =
      { d with next := d.next+1 }.passUp d.next t.bytes t.actualLength := by
  simp only [Driver.recvComplete, h]

section Step
variable {rxBufferSize : Nat} {s : System}

theorem Inv.fresh_next (h : Inv s) (g : Nat) (hg : s.driver.gOverflowBuf = some g) :
    g < s.driver.next+1 :=
  Nat.lt_succ_of_lt (h.fresh g hg)

theorem Inv.once_kfree (h : Inv s) : List.range (s.driver.next+1) ~
    s.driver.ioCompQueue.map Prod.fst ++ (s.driver.freed ++ [s.driver.next] ++
      (({ s.driver with next := s.driver.next+1 } : Driver).kfree s.driver.next).held) := by
  have hne : s.driver.gOverflowBuf ≠ some s.driver.next := fun hg =>
    Nat.lt_irrefl _ (h.fresh _ hg)
  have hheld : (({ s.driver with next := s.driver.next+1 } : Driver).kfree s.driver.next).held =
      s.driver.held := Driver.held_kfree hne
  rw [hheld]
  exact once_freed h.sound.once

theorem step_error_inv (h : Inv s) (t : Transfer) (newBuf : Bool) (junk : List UInt8) :
    Inv (step rxBufferSize s ⟨.error, t, newBuf, junk⟩) := by
  refine ⟨⟨h.sound.reads, h.sound.queue, h.once_kfree⟩, h.fresh_next, fun g hg hn => ?_, h.idle⟩
  exact h.waiting g hg fun hm => hn (List.mem_append_left _ hm)

/-- With bytes the buffer of an overflow is the one pending; without, it is freed at once. -/
theorem step_overflow_inv (hsize : rxBufferSize ≠ 2048) (h : Inv s) (hheld : s.driver.held = [])
    (t : Transfer) (newBuf : Bool) (junk : List UInt8) :
    Inv (step rxBufferSize s ⟨.eoverflow, t, newBuf, junk⟩) := by
  have hon := h.sound.once
  rw [hheld] at hon
  simp only [step, Driver.recvComplete, if_pos hsize, Wanted.step]
  split_ifs with h0
  · have hfr : s.driver.next∈s.driver.freed ++ [s.driver.next] :=
      List.mem_append_right _ List.mem_cons_self
    refine ⟨⟨h.sound.reads, h.sound.queue, ?_⟩, fun g hg => ?_, fun g hg hn => ?_, fun hg => ?_⟩
    · rw [(Driver.held_eq_nil (g := s.driver.next) rfl).mpr hfr]
      exact once_freed hon
    · rw [← Option.some.inj hg]
      exact Nat.lt_succ_self _
    · exact absurd (Option.some.inj hg ▸ hfr) hn
    · exact nomatch hg
  · refine ⟨⟨h.sound.reads, h.sound.queue, ?_⟩, fun g hg => ?_, fun g hg hn => ?_, fun hg => ?_⟩
    · have hnf : s.driver.next∉s.driver.freed := fun hf =>
        Nat.lt_irrefl _ (h.sound.lt_next (Or.inr hf))
      rw [Driver.held_some (g := s.driver.next) rfl, if_neg hnf]
      exact once_held hon
    · rw [← Option.some.inj hg]
      exact Nat.lt_succ_self _
    · rw [← Option.some.inj hg]
      refine ⟨congrArg some (if_pos rfl).symm, fun hd => h0 (Transfer.data_eq_nil ?_)⟩
      exact (if_pos rfl).symm.trans hd
    · exact nomatch hg

theorem step_ok_inv (h : Inv s) (hnone : s.driver.gOverflowBuf = none) (t : Transfer)
    (newBuf : Bool) (junk : List UInt8) : Inv (step rxBufferSize s ⟨.ok, t, newBuf, junk⟩) := by
  have hw : s.wanted.pending = none := h.idle hnone
  simp only [step, recv_ok hnone, Wanted.step, hw, Driver.passUp]
  split_ifs with h0
  · refine ⟨⟨h.sound.reads, h.sound.queue, h.once_kfree⟩, h.fresh_next, fun g hg => ?_,
      fun _ => hw⟩
    exact absurd (hnone.symm.trans hg) (by simp)
  · refine ⟨⟨h.sound.reads, ?_, ?_⟩, h.fresh_next, fun g hg => ?_, fun _ => rfl⟩
    · simp [h.sound.queue, Transfer.data]
    · change _ ~ List.map Prod.fst (s.driver.ioCompQueue ++ [_]) ++
        (s.driver.freed ++ s.driver.held)
      rw [List.map_append]
      exact once_queued h.sound.once
    · exact absurd (hnone.symm.trans hg) (by simp)

theorem step_inv (hsize : rxBufferSize ≠ 2048) {e : Completion} (h : Inv s) (hok : Ok s e) :
    Inv (step rxBufferSize s e) := by
  obtain ⟨status, transfer, newBuf, junk⟩ := e
  cases status with
  | error => exact step_error_inv h transfer newBuf junk
  | eoverflow => exact step_overflow_inv hsize h hok transfer newBuf junk
  | ok => exact step_ok_inv h hok transfer newBuf junk

end Step

theorem recv_alone {rxBufferSize : Nat} (hsize : rxBufferSize ≠ 2048) {d : Driver} {g : Nat}
    (hg : d.gOverflowBuf = some g) (t : Transfer) (junk : List UInt8) :
    (d.recvComplete rxBufferSize ⟨.ok, t, false, junk⟩).badRead =
        (d.badRead || decide (g∈d.freed)) ∧
      (d.recvComplete rxBufferSize ⟨.ok, t, false, junk⟩).ioCompQueue.map Prod.snd =
        d.ioCompQueue.map Prod.snd ++ if t.actualLength = 0 then [] else [t.data] := by
  simp only [Driver.recvComplete, hg, if_neg hsize, Bool.not_false, if_true]
  refine ⟨Driver.passUp_badRead .., ?_⟩
  unfold Driver.passUp
  split_ifs <;> simp [Driver.kfree, Driver.touch, Transfer.data]

theorem not_sound_ok {rxBufferSize : Nat} (hsize : rxBufferSize ≠ 2048) {s : System} (h : Inv s)
    {g : Nat} (hg : s.driver.gOverflowBuf = some g) (t : Transfer) (newBuf : Bool)
    (junk : List UInt8) : ¬Sound (step rxBufferSize s ⟨.ok, t, newBuf, junk⟩) := by
  intro hs
  cases newBuf with
  | true =>
    have hr := hs.reads
    simp only [step, Driver.recvComplete, hg, if_neg hsize, Bool.not_true, Bool.false_eq_true,
      if_false, Driver.stitch_badRead] at hr
    exact nomatch hr
  | false =>
    obtain ⟨hbad, hqueue⟩ := recv_alone hsize hg t junk
    have hr := hs.reads
    have hq := hs.queue
    change (s.driver.recvComplete rxBufferSize ⟨.ok, t, false, junk⟩).badRead = false at hr
    change (s.driver.recvComplete rxBufferSize ⟨.ok, t, false, junk⟩).ioCompQueue.map _ = _ at hq
    rw [hbad, h.sound.reads, Bool.false_or, decide_eq_false_iff_not] at hr
    obtain ⟨hw, hne⟩ := h.waiting g hg hr
    rw [hqueue, h.sound.queue] at hq
    simp only [step, Wanted.step, hw] at hq
    have hq := List.append_cancel_left hq
    have hpos := List.length_pos_iff.mpr hne
    split_ifs at hq
    have hlen := congrArg List.length (List.cons.inj hq).1
    rw [List.length_append] at hlen
    omega

theorem not_sound_eoverflow {rxBufferSize : Nat} (hsize : rxBufferSize ≠ 2048) {s : System}
    (h : Inv s) (hheld : s.driver.held ≠ []) (t : Transfer) (newBuf : Bool) (junk : List UInt8) :
    ¬Sound (step rxBufferSize s ⟨.eoverflow, t, newBuf, junk⟩) := by
  intro hs
  cases hg : s.driver.gOverflowBuf with
  | none => exact hheld (Driver.held_none hg)
  | some g =>
    have hlt := h.fresh g hg
    have hf : g∉s.driver.freed := fun hf => hheld ((Driver.held_eq_nil hg).mpr hf)
    have hheld : g∈s.driver.held := by
      rw [Driver.held_some hg, if_neg hf]
      exact List.mem_cons_self
    have hq := h.sound.not_queued hheld
    have hne : g ≠ s.driver.next := Nat.ne_of_lt hlt
    have hon := hs.once.mem_iff.mp (List.mem_range.mpr (?_ : g < _))
    · simp only [step, Driver.recvComplete, if_pos hsize] at hon
      split_ifs at hon
      · simp only [Driver.kfree, Driver.held, List.mem_append, List.mem_singleton] at hon
        simp [hq, hf, hne] at hon
      · simp only [Driver.held, List.mem_append] at hon
        rcases hon with hon | hon | hon
        · exact hq hon
        · exact hf hon
        · split_ifs at hon
          · exact List.not_mem_nil hon
          · exact hne (List.mem_singleton.mp hon)
    · simp only [step, Driver.recvComplete, if_pos hsize]
      split_ifs <;> exact Nat.lt_succ_of_lt hlt

theorem ok_of_sound {rxBufferSize : Nat} (hsize : rxBufferSize ≠ 2048) {s : System}
    {e : Completion} (h : Inv s) (hs : Sound (step rxBufferSize s e)) : Ok s e := by
  obtain ⟨status, transfer, newBuf, junk⟩ := e
  cases status with
  | error => trivial
  | eoverflow =>
    by_contra hheld
    exact not_sound_eoverflow hsize h hheld transfer newBuf junk hs
  | ok =>
    cases hg : s.driver.gOverflowBuf with
    | none => exact hg
    | some g => exact absurd hs (not_sound_ok hsize h hg transfer newBuf junk)

theorem start_inv : Inv {} where
  sound := ⟨rfl, rfl, List.Perm.refl _⟩
  fresh := fun _ hg => nomatch hg
  waiting := fun _ hg => nomatch hg
  idle := fun _ => rfl

/-- Stitching keeps its promise along a run if and only if no overflowed transfer is ever pending
when a normal one completes, and none with bytes when another one overflows. -/
theorem overflow_sound_iff {rxBufferSize : Nat} (hsize : rxBufferSize ≠ 2048)
    (es : List Completion) :
    (∀ u, u <+: es → Sound (run (step rxBufferSize) {} u)) ↔
      AllSteps (step rxBufferSize) Ok {} es :=
  prefix_iff_allSteps (I := Inv) (P := Sound) (C := Ok) (fun _ h => h.sound)
    (fun _ _ => step_inv hsize) (fun _ _ => ok_of_sound hsize) start_inv es

def overflowed : List Completion :=
  [⟨.eoverflow, ⟨[1, 2, 3], 3, by decide⟩, true, []⟩, ⟨.ok, ⟨[4, 5, 0], 2, by decide⟩, true, []⟩]

theorem overflow_sound_iff_overflowed :
    4096 ≠ 2048 ∧ ((∀ u, u <+: overflowed → Sound (run (step 4096) {} u)) ↔
      AllSteps (step 4096) Ok {} overflowed) :=
  ⟨by decide, overflow_sound_iff (by decide) overflowed⟩

/-- The length of the first buffer is read after the buffer has been freed. -/
theorem overflow_unsound :
    ¬∀ rxBufferSize, rxBufferSize ≠ 2048 → ∀ es, Sound (run (step rxBufferSize) {} es) := by
  intro h
  have hr := (h 4096 (by decide) overflowed).reads
  revert hr
  decide

end Ath6kl.UsbRxOverflow
