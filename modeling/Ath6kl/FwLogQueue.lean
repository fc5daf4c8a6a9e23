import Ath6kl.Lib.Backlog
import Ath6kl.Lib.LittleEndian
import Ath6kl.Lib.Machine

/-! The queue between the firmware log and its reader (`debug.c`): slots of a fixed size, the oldest
dropped when there are too many, and the two files they are read from. -/
namespace Ath6kl.FwLogQueue
open Lib.Backlog Lib.Machine

abbrev Bytes := List UInt8

def fwlogMaxEntries : Nat := 20
def fwlogPayloadSize : Nat := 1500
/-- `sizeof(struct ath6kl_fwlog_slot)` and the payload. -/
def slotLen : Nat := 1508

/-- A log buffer that `ath6kl_debug_fwlog_event` accepts, with the time it came. -/
structure Slot where
  timestamp : UInt32
  buf : Bytes
  fits : buf.length ≤ fwlogPayloadSize

/-- `struct ath6kl_fwlog_slot`, padded. -/
def Slot.bytes (s : Slot) : Bytes :=
  Lib.LittleEndian.bytes 4 s.timestamp.toNat ++ Lib.LittleEndian.bytes 4 s.buf.length ++
    (s.buf ++ List.replicate (fwlogPayloadSize - s.buf.length) 0)

/-- A call of `ath6kl_debug_fwlog_event`; `alloc`: there is memory for the slot. -/
structure Event where
  jiffies : UInt32
  buf : Bytes
  alloc : Bool

/-- The two files over the one queue. -/
inductive File
  | fwlog
  | fwlogBlock
deriving DecidableEq

/-- `waiting` is the count of a read that sleeps, `done` the completion; `got` is history: what the
reads reported to the user. -/
structure State where
  log : Fifo Slot := {}
  file : Option File := none
  ppos : Nat := 0
  waiting : Option Nat := none
  done : Bool := false
  got : Bytes := []

/-- The while loop of `ath6kl_debug_fwlog_event`: what it drops and what stays. -/
def dropOldest : List Slot → List Slot × List Slot
  | [] => ([], [])
  | s::q =>
    if (s::q).length>fwlogMaxEntries then
      let r := dropOldest q
      (s::r.1, r.2)
    else ([], s::q)

/-- `ath6kl_debug_fwlog_event`. -/
def debugFwlogEvent (s : State) (e : Event) : State :=
  if h : e.buf.length ≤ fwlogPayloadSize then
    if e.alloc then
      let log := s.log.push ⟨e.jiffies, e.buf, h⟩
      let r := dropOldest log.queue
      { s with log := log.leave r.1 r.2 false, done := true }
    else s
  else s

/-- The dequeue loop of both reads, with `room` bytes left. -/
def dequeue : Nat → List Slot → List Slot × List Slot
  | _, [] => ([], [])
  | room, s::q =>
    if slotLen>room then ([], s::q)
    else
      let r := dequeue (room-slotLen) q
      (s::r.1, r.2)

/-- `copy_to_user`: the bytes that it could not copy. At most `fault` bytes are out of reach, at
the end of the user's buffer. -/
def copyToUser (buf : Bytes) (fault : Nat) : Nat := min fault buf.length

/-- `simple_read_from_buffer`: the bytes behind the file position that arrive. -/
def simpleRead (buf : Bytes) (ppos fault : Nat) : Bytes :=
  let rest := buf.drop ppos
  rest.take (rest.length - copyToUser rest fault)

/-- `ath6kl_fwlog_read`; `events` come from `ath6kl_read_fwlogs`. -/
def fwlogRead (s : State) (count : Nat) (vmalloc : Bool) (events : List Event) (fault : Nat) :
    State :=
  if !vmalloc then s
  else
    let s := events.foldl debugFwlogEvent s
    let r := dequeue count s.log.queue
    let given := simpleRead (r.1.flatMap Slot.bytes) s.ppos fault
    { s with log := s.log.leave r.1 r.2 true
             got := s.got ++ given
             ppos := s.ppos+given.length }

/-- The rest of `ath6kl_fwlog_block_read` once it does not have to wait. Where something could not
be copied it answers `-EFAULT`, and the slots are gone. -/
def blockTake (s : State) (count fault : Nat) : State :=
  let r := dequeue count s.log.queue
  let buf := r.1.flatMap Slot.bytes
  let s := { s with log := s.log.leave r.1 r.2 true, waiting := none }
  if copyToUser buf fault ≠ 0 then s
  else { s with got := s.got ++ buf, ppos := s.ppos+buf.length }

/-- `ath6kl_fwlog_block_read` up to its wait for the completion. -/
def fwlogBlockRead (s : State) (count : Nat) (vmalloc : Bool) (fault : Nat) : State :=
  if !vmalloc then s
  else if s.log.queue = [] then { s with done := false, waiting := some count }
  else blockTake s count fault

/-- What happens to the log: a buffer of the firmware, a system call, a signal or the completion for
the sleeping reader, or the end of the device with what it still holds. -/
inductive Step
  | event (e : Event)
  | openFile (f : File)
  | release
  | llseek (pos : Nat)
  | read (count : Nat) (vmalloc : Bool) (events : List Event) (fault : Nat)
  | wake (fault : Nat)
  | signal
  | cleanup

def step (s : State) : Step → State
  | .event e => debugFwlogEvent s e
  | .openFile f => if s.file = none then { s with file := some f, ppos := 0 } else s
  | .release => if s.waiting = none then { s with file := none } else s
  | .llseek pos => if s.file ≠ none ∧ s.waiting = none then { s with ppos := pos } else s
  | .read count vmalloc events fault =>
    if s.waiting ≠ none then s
    else match s.file with
      | none => s
      | some .fwlog => fwlogRead s count vmalloc events fault
      | some .fwlogBlock => fwlogBlockRead s count vmalloc fault
  | .wake fault => match s.waiting with
    | some count => if s.done then blockTake { s with done := false } count fault else s
    | none => s
  | .signal => { s with waiting := none }
  | .cleanup => { s with log := s.log.leave s.log.queue [] false, done := true }

/-- What a reader makes of the bytes of a slot. -/
def Slot.ofBytes (r : Bytes) : Slot where
  timestamp := UInt32.ofNat (Lib.LittleEndian.value (r.take 4))
  buf := ((r.drop 8).take (Lib.LittleEndian.value ((r.drop 4).take 4))).take fwlogPayloadSize
  fits := List.length_take_le _ _

def slots (bs : Bytes) : List Slot :=
  Lib.LittleEndian.records slotLen Slot.ofBytes (bs.length/slotLen) bs

/-- The slots that come into the queue with a step. -/
def accepted (e : Event) : List Slot :=
  if h : e.buf.length ≤ fwlogPayloadSize then
    if e.alloc then [⟨e.jiffies, e.buf, h⟩] else []
  else []

def arrivals (s : State) : Step → List Slot
  | .event e => accepted e
  | .read _ true events _ =>
    if s.waiting = none ∧ s.file = some .fwlog then events.flatMap accepted else []
  | _ => []

def arrived : State → List Step → List Slot
  | _, [] => []
  | s, e::es => arrivals s e ++ arrived (step s e) es

/-- A read that takes slots copies all its bytes to the user, and if it is of the plain file it
finds the file position at the start: every read moves the position, but what is read is always in
front of the buffer. -/
def HandsOver (s : State) : Step → Prop
  | .read count true events fault =>
    s.waiting = none →
      (s.file = some .fwlog →
        (dequeue count (events.foldl debugFwlogEvent s).log.queue).1 ≠ [] →
          s.ppos = 0 ∧ fault = 0) ∧
      (s.file = some .fwlogBlock → (dequeue count s.log.queue).1 ≠ [] → fault = 0)
  | .wake fault =>
    ∀ count, s.waiting = some count → s.done = true → (dequeue count s.log.queue).1 ≠ [] → fault = 0
  | _ => True

section
variable {s : State} {q : List Slot}

theorem length_bytes (x : Slot) : x.bytes.length = slotLen := by
  have hx := x.fits
  simp only [Slot.bytes, List.length_append, Lib.LittleEndian.length_bytes, List.length_replicate]
  unfold fwlogPayloadSize slotLen at *
  omega

@[ext] theorem Slot.ext {x y : Slot} (ht : x.timestamp = y.timestamp) (hb : x.buf = y.buf) :
    x = y := by
  cases x
  cases y
  subst ht
  subst hb
  rfl

theorem ofBytes_bytes (x : Slot) : Slot.ofBytes x.bytes = x := by
  have hx := x.fits
  have ht : Lib.LittleEndian.value (x.bytes.take 4) = x.timestamp.toNat := by
    rw [Slot.bytes, List.append_assoc, List.take_left' (Lib.LittleEndian.length_bytes _ _)]
    exact Lib.LittleEndian.value_bytes x.timestamp.toNat_lt
  have hrest : x.bytes.drop 4 = Lib.LittleEndian.bytes 4 x.buf.length ++
      (x.buf ++ List.replicate (fwlogPayloadSize - x.buf.length) 0) := by
    rw [Slot.bytes, List.append_assoc, List.drop_left' (Lib.LittleEndian.length_bytes _ _)]
  have hlen : Lib.LittleEndian.value ((x.bytes.drop 4).take 4) = x.buf.length := by
    rw [hrest, List.take_left' (Lib.LittleEndian.length_bytes _ _)]
    apply Lib.LittleEndian.value_bytes
    unfold fwlogPayloadSize at hx
    omega
  have hpay : x.bytes.drop 8 = x.buf ++ List.replicate (fwlogPayloadSize - x.buf.length) 0 := by
    rw [show 8 = 4+4 from rfl, ← List.drop_drop, hrest,
      List.drop_left' (Lib.LittleEndian.length_bytes _ _)]
  ext1
  · rw [Slot.ofBytes, ht, UInt32.ofNat_toNat]
  · simp only [Slot.ofBytes]
    rw [hlen, hpay, List.take_left, List.take_of_length_le hx]

theorem dropOldest_eq (q : List Slot) : q = (dropOldest q).1 ++ (dropOldest q).2 := by
  induction q with
  | nil => rfl
  | cons x q ih =>
    unfold dropOldest
    split
    · exact congrArg (List.cons x) ih
    · rfl

theorem length_dropOldest (q : List Slot) : (dropOldest q).2.length ≤ fwlogMaxEntries := by
  induction q with
  | nil => exact Nat.zero_le _
  | cons x q ih =>
    unfold dropOldest
    split
    · exact ih
    · rename_i h
      exact Nat.not_lt.mp h

theorem dequeue_eq (room : Nat) (q : List Slot) : q = (dequeue room q).1 ++ (dequeue room q).2 := by
  induction q generalizing room with
  | nil => rfl
  | cons x q ih =>
    unfold dequeue
    split
    · rfl
    · exact congrArg (List.cons x) (ih _)

theorem length_flat (q : List Slot) : (q.flatMap Slot.bytes).length = slotLen * q.length :=
  Lib.LittleEndian.length_flatMap length_bytes q

theorem length_slots (bs : Bytes) : (slots bs).length = bs.length/slotLen :=
  Lib.LittleEndian.length_records _ _ _ _

theorem slots_flat (q : List Slot) : slots (q.flatMap Slot.bytes) = q := by
  rw [slots, length_flat, Nat.mul_div_cancel_left _ (by decide)]
  exact Lib.LittleEndian.records_flatMap length_bytes ofBytes_bytes q

/-- An event only adds its slot, if there is memory, and drops the oldest for it. -/
structure Fed (s s' : State) (new : List Slot) : Prop where
  short : s'.log.queue.length ≤ fwlogMaxEntries
  all : s'.log.all = s.log.all ++ new
  taken : s'.log.taken = s.log.taken
  got : s'.got = s.got
  ppos : s'.ppos = s.ppos

theorem debugFwlogEvent_fed (e : Event) (h : s.log.queue.length ≤ fwlogMaxEntries) :
    Fed s (debugFwlogEvent s e) (accepted e) := by
  unfold debugFwlogEvent accepted
  split
  · split
    · refine ⟨length_dropOldest _, ?_, ?_, rfl, rfl⟩
      · rw [all_leave (dropOldest_eq _), all_push]
      · rw [taken_leave_false, taken_push]
    · exact ⟨h, (List.append_nil _).symm, rfl, rfl, rfl⟩
  · exact ⟨h, (List.append_nil _).symm, rfl, rfl, rfl⟩

theorem foldl_fed (events : List Event) (h : s.log.queue.length ≤ fwlogMaxEntries) :
    Fed s (events.foldl debugFwlogEvent s) (events.flatMap accepted) := by
  induction events generalizing s with
  | nil => exact ⟨h, (List.append_nil _).symm, rfl, rfl, rfl⟩
  | cons e events ih =>
    have hf := debugFwlogEvent_fed e h
    have hr := ih hf.short
    refine ⟨hr.short, ?_, hr.taken.trans hf.taken, hr.got.trans hf.got, hr.ppos.trans hf.ppos⟩
    rw [List.flatMap_cons, ← List.append_assoc, ← hf.all]
    exact hr.all

theorem length_dequeue (room : Nat) (q : List Slot) : (dequeue room q).2.length ≤ q.length := by
  have hq := congrArg List.length (dequeue_eq room q)
  rw [List.length_append] at hq
  omega

/-- What one step does to the log: it adds what arrives, and the reader gets `lost` bytes less than
the slots it takes. -/
structure Moved (s s' : State) (new read : List Slot) (lost : Nat) : Prop where
  short : s'.log.queue.length ≤ fwlogMaxEntries
  all : s'.log.all = s.log.all ++ new
  taken : s'.log.taken = s.log.taken ++ read
  got : ∃ given, s'.got = s.got ++ given ∧ given.length+lost = slotLen * read.length ∧
    (lost = 0 → given = read.flatMap Slot.bytes)

theorem Moved.stays {s' : State} (h : s.log.queue.length ≤ fwlogMaxEntries)
    (hs : s'.log = s.log ∧ s'.got = s.got) : Moved s s' [] [] 0 :=
  ⟨hs.1 ▸ h, by simp [hs.1], by simp [hs.1], [], by simp [hs.2]⟩

theorem Fed.moved {s' : State} {new : List Slot} (h : Fed s s' new) : Moved s s' new [] 0 :=
  ⟨h.short, h.all, by simp [h.taken], [], by simp [h.got]⟩

/-- A step that takes slots, with the condition that they arrive. -/
def Takes (s s' : State) (new read : List Slot) (ok : Prop) : Prop :=
  ∃ lost, Moved s s' new read lost ∧ (ok ↔ lost = 0)

theorem flat_pos {q : List Slot} (h : q ≠ []) : 0 < (q.flatMap Slot.bytes).length := by
  rw [length_flat]
  exact Nat.mul_pos (by decide) (List.length_pos_iff.mpr h)

theorem blockTake_takes (count fault : Nat) (h : s.log.queue.length ≤ fwlogMaxEntries) :
    Takes s (blockTake s count fault) [] (dequeue count s.log.queue).1
      ((dequeue count s.log.queue).1 ≠ [] → fault = 0) := by
  have hshort := Nat.le_trans (length_dequeue count s.log.queue) h
  have hall := all_leave (dequeue_eq count s.log.queue) true
  have htaken := taken_leave_true (b := s.log) (dequeue count s.log.queue).1
    (dequeue count s.log.queue).2
  have hlen := length_flat (dequeue count s.log.queue).1
  unfold blockTake
  by_cases hc : copyToUser ((dequeue count s.log.queue).1.flatMap Slot.bytes) fault = 0
  · simp only [hc, ne_eq, not_true_eq_false, if_false]
    refine ⟨0, ⟨hshort, hall.trans (List.append_nil _).symm, htaken, _, rfl, hlen, fun _ => rfl⟩,
      iff_of_true (fun hne => ?_) rfl⟩
    have hpos := flat_pos hne
    unfold copyToUser at hc
    omega
  · simp only [ne_eq, hc, not_false_eq_true, if_true]
    refine ⟨slotLen * (dequeue count s.log.queue).1.length,
      ⟨hshort, hall.trans (List.append_nil _).symm, htaken, [], by simp, by simp, ?_⟩, ?_⟩
    · intro hz
      exact (List.eq_nil_of_length_eq_zero (hlen.trans hz)).symm
    · unfold copyToUser at hc
      refine iff_of_false (fun hok => ?_) (by omega)
      refine hc ?_
      rw [hok (by rintro hnil; simp [hnil] at hc)]
      exact Nat.zero_min _

theorem fwlogRead_takes (count : Nat) (events : List Event) (fault : Nat)
    (h : s.log.queue.length ≤ fwlogMaxEntries) :
    Takes s (fwlogRead s count true events fault) (events.flatMap accepted)
      (dequeue count (events.foldl debugFwlogEvent s).log.queue).1
      ((dequeue count (events.foldl debugFwlogEvent s).log.queue).1 ≠ [] →
        s.ppos = 0 ∧ fault = 0) := by
  have hf := foldl_fed events h
  unfold fwlogRead
  simp only [Bool.not_true, Bool.false_eq_true, if_false]
  generalize events.foldl debugFwlogEvent s = t at hf
  have hshort := Nat.le_trans (length_dequeue count t.log.queue) hf.short
  have hall := (all_leave (dequeue_eq count t.log.queue) true).trans hf.all
  have htaken := taken_leave_true (b := t.log) (dequeue count t.log.queue).1
    (dequeue count t.log.queue).2
  rw [hf.taken] at htaken
  have hlen := length_flat (dequeue count t.log.queue).1
  have hgiven : (simpleRead ((dequeue count t.log.queue).1.flatMap Slot.bytes) s.ppos fault).length
      = slotLen * (dequeue count t.log.queue).1.length - s.ppos - fault := by
    simp only [simpleRead, copyToUser, List.length_take, List.length_drop, hlen]
    omega
  rw [hf.got, hf.ppos]
  refine ⟨slotLen * (dequeue count t.log.queue).1.length -
    (slotLen * (dequeue count t.log.queue).1.length - s.ppos - fault),
    ⟨hshort, hall, htaken, _, rfl, by rw [hgiven]; omega, fun hz => ?_⟩, ?_⟩
  · by_cases hnil : (dequeue count t.log.queue).1 = []
    · simp [hnil, simpleRead]
    · have hpos := flat_pos hnil
      have hzero : s.ppos = 0 ∧ fault = 0 := by omega
      simp [hzero, simpleRead, copyToUser]
  · by_cases hnil : (dequeue count t.log.queue).1 = []
    · simp [hnil]
    · have hpos := flat_pos hnil
      simp only [ne_eq, hnil, not_false_eq_true, forall_const]
      omega

theorem stays_takes (h : s.log.queue.length ≤ fwlogMaxEntries) (s' : State)
    (hs : s'.log = s.log ∧ s'.got = s.got) {ok : Prop} (hok : ok) :
    ∃ read, Takes s s' [] read ok :=
  ⟨[], 0, Moved.stays h hs, iff_of_true hok rfl⟩

theorem step_fwlogRead_takes (count : Nat) (events : List Event) (fault : Nat)
    (h : s.log.queue.length ≤ fwlogMaxEntries) (hw : s.waiting = none)
    (hf : s.file = some .fwlog) :
    ∃ read, Takes s (step s (.read count true events fault))
      (arrivals s (.read count true events fault)) read
      (HandsOver s (.read count true events fault)) := by
  have hs : step s (.read count true events fault) = fwlogRead s count true events fault := by
    simp [step, hw, hf]
  have hnew : arrivals s (.read count true events fault) = events.flatMap accepted := by
    simp [arrivals, hw, hf]
  rw [hs, hnew]
  obtain ⟨lost, hm, hl⟩ := fwlogRead_takes count events fault h
  exact ⟨_, lost, hm, by simpa [HandsOver, hw, hf] using hl⟩

theorem step_blockRead_takes (count : Nat) (events : List Event) (fault : Nat)
    (h : s.log.queue.length ≤ fwlogMaxEntries) (hw : s.waiting = none)
    (hf : s.file = some .fwlogBlock) :
    ∃ read, Takes s (step s (.read count true events fault))
      (arrivals s (.read count true events fault)) read
      (HandsOver s (.read count true events fault)) := by
  have hnew : arrivals s (.read count true events fault) = [] := by simp [arrivals, hf]
  rw [hnew]
  by_cases hq : s.log.queue = []
  · have hok : HandsOver s (.read count true events fault) := by
      simp [HandsOver, hf, hq, dequeue]
    have hs : step s (.read count true events fault) =
        { s with done := false, waiting := some count } := by
      simp [step, hw, hf, fwlogBlockRead, hq]
    rw [hs]
    exact stays_takes h { s with done := false, waiting := some count } ⟨rfl, rfl⟩ hok
  · have hs : step s (.read count true events fault) = blockTake s count fault := by
      simp [step, hw, hf, fwlogBlockRead, hq]
    rw [hs]
    obtain ⟨lost, hm, hl⟩ := blockTake_takes count fault h
    exact ⟨_, lost, hm, by simpa [HandsOver, hw, hf] using hl⟩

theorem step_read_takes (count : Nat) (vmalloc : Bool) (events : List Event) (fault : Nat)
    (h : s.log.queue.length ≤ fwlogMaxEntries) :
    ∃ read, Takes s (step s (.read count vmalloc events fault))
      (arrivals s (.read count vmalloc events fault)) read
      (HandsOver s (.read count vmalloc events fault)) := by
  by_cases hw : s.waiting = none
  swap
  · have hs : step s (.read count vmalloc events fault) = s := by simp [step, hw]
    have hnew : arrivals s (.read count vmalloc events fault) = [] := by
      cases vmalloc <;> simp [arrivals, hw]
    rw [hs, hnew]
    exact stays_takes h s ⟨rfl, rfl⟩ (by cases vmalloc <;> simp [HandsOver, hw])
  cases vmalloc with
  | false =>
    have hs : step s (.read count false events fault) = s := by
      cases hf : s.file with
      | none => simp [step, hf]
      | some f => cases f <;> simp [step, hf, fwlogRead, fwlogBlockRead]
    rw [hs]
    exact stays_takes h s ⟨rfl, rfl⟩ trivial
  | true =>
    cases hf : s.file with
    | none =>
      have hs : step s (.read count true events fault) = s := by simp [step, hf]
      have hnew : arrivals s (.read count true events fault) = [] := by simp [arrivals, hf]
      rw [hs, hnew]
      exact stays_takes h s ⟨rfl, rfl⟩ (by simp [HandsOver, hf])
    | some f =>
      cases f with
      | fwlog => exact step_fwlogRead_takes count events fault h hw hf
      | fwlogBlock => exact step_blockRead_takes count events fault h hw hf

theorem step_wake_takes (fault : Nat) (h : s.log.queue.length ≤ fwlogMaxEntries) :
    ∃ read, Takes s (step s (.wake fault)) [] read (HandsOver s (.wake fault)) := by
  cases hw : s.waiting with
  | none =>
    have hs : step s (.wake fault) = s := by simp [step, hw]
    rw [hs]
    exact stays_takes h s ⟨rfl, rfl⟩ (by simp [HandsOver, hw])
  | some count =>
    cases hd : s.done with
    | false =>
      have hs : step s (.wake fault) = s := by simp [step, hw, hd]
      rw [hs]
      exact stays_takes h s ⟨rfl, rfl⟩ (by simp [HandsOver, hd])
    | true =>
      have hs : step s (.wake fault) = blockTake { s with done := false } count fault := by
        simp [step, hw, hd]
      rw [hs]
      obtain ⟨lost, hm, hl⟩ := blockTake_takes (s := { s with done := false }) count fault h
      exact ⟨_, lost, ⟨hm.short, hm.all, hm.taken, hm.got⟩,
        by simpa [HandsOver, hw, hd] using hl⟩

theorem step_takes (e : Step) (h : s.log.queue.length ≤ fwlogMaxEntries) :
    ∃ read, Takes s (step s e) (arrivals s e) read (HandsOver s e) := by
  cases e with
  | event e => exact ⟨[], 0, (debugFwlogEvent_fed e h).moved, iff_of_true trivial rfl⟩
  | openFile f =>
    refine stays_takes h _ ?_ trivial
    unfold step
    dsimp only
    split <;> exact ⟨rfl, rfl⟩
  | release =>
    refine stays_takes h _ ?_ trivial
    unfold step
    dsimp only
    split <;> exact ⟨rfl, rfl⟩
  | llseek pos =>
    refine stays_takes h _ ?_ trivial
    unfold step
    dsimp only
    split <;> exact ⟨rfl, rfl⟩
  | read count vmalloc events fault => exact step_read_takes count vmalloc events fault h
  | wake fault => exact step_wake_takes fault h
  | signal => exact stays_takes h { s with waiting := none } ⟨rfl, rfl⟩ trivial
  | cleanup =>
    refine ⟨[], 0, ⟨Nat.zero_le _, ?_, ?_, [], by simp [step]⟩, iff_of_true trivial rfl⟩
    · exact (all_leave (List.append_nil _).symm false).trans (List.append_nil _).symm
    · exact (taken_leave_false _ _).trans (List.append_nil _).symm

structure Whole (s : State) : Prop where
  short : s.log.queue.length ≤ fwlogMaxEntries
  got : s.got = s.log.taken.flatMap Slot.bytes

theorem Whole.next (h : Whole s) (e : Step) (hk : HandsOver s e) : Whole (step s e) := by
  obtain ⟨read, lost, hm, hl⟩ := step_takes e h.short
  obtain ⟨given, hgot, -, hgiven⟩ := hm.got
  refine ⟨hm.short, ?_⟩
  rw [hgot, hm.taken, h.got, List.flatMap_append, hgiven (hl.mp hk)]

theorem Whole.handsOver (h : Whole s) (e : Step)
    (hs : slots (step s e).got = (step s e).log.taken) : HandsOver s e := by
  obtain ⟨read, lost, hm, hl⟩ := step_takes e h.short
  obtain ⟨given, hgot, hlen, -⟩ := hm.got
  refine hl.mpr ?_
  have hslots := congrArg List.length hs
  rw [hm.taken, List.length_append, length_slots, hgot, h.got, List.length_append, length_flat]
    at hslots
  by_contra hne
  have hlt : slotLen * s.log.taken.length + given.length <
      slotLen * (s.log.taken.length + read.length) := by
    rw [Nat.mul_add]
    omega
  exact absurd hslots (Nat.ne_of_lt (Nat.div_lt_of_lt_mul hlt))

theorem run_short (es : List Step) (h : s.log.queue.length ≤ fwlogMaxEntries) :
    (run step s es).log.queue.length ≤ fwlogMaxEntries ∧
      (run step s es).log.all = s.log.all ++ arrived s es := by
  induction es generalizing s with
  | nil => exact ⟨h, (List.append_nil _).symm⟩
  | cons e es ih =>
    obtain ⟨read, lost, hm, -⟩ := step_takes e h
    obtain ⟨hshort, hall⟩ := ih hm.short
    refine ⟨hshort, ?_⟩
    rw [run_cons, hall, hm.all, arrived, List.append_assoc]

end

/-- The log keeps its limit and its order, and its reader recovers time and content of every slot it
took exactly as long as every read hands over what it takes. -/
theorem reader_recovers (es : List Step) :
    (run step {} es).log.queue.length ≤ fwlogMaxEntries ∧
    (run step {} es).log.all = arrived {} es ∧
    (run step {} es).log.taken.Sublist (arrived {} es) ∧
    ((∀ u, u <+: es → slots (run step {} u).got = (run step {} u).log.taken) ↔
      AllSteps step HandsOver {} es) := by
  obtain ⟨hshort, hall⟩ := run_short es (s := {}) (Nat.zero_le _)
  have hall : (run step {} es).log.all = arrived {} es := hall
  refine ⟨hshort, hall, hall ▸ taken_sublist _, ?_⟩
  have hgood : ∀ s, Whole s → slots s.got = s.log.taken := by
    intro s h
    rw [h.got, slots_flat]
  have hstep : ∀ s e, Whole s → HandsOver s e → Whole (step s e) := fun _ e h hk => h.next e hk
  have hbad : ∀ s e, Whole s → slots (step s e).got = (step s e).log.taken → HandsOver s e :=
    fun _ e h hs => h.handsOver e hs
  exact prefix_iff_allSteps hgood hstep hbad ⟨Nat.zero_le _, rfl⟩ es

end Ath6kl.FwLogQueue
