import Ath6kl.PsQueue

/-! What the power-save queues of a station promise: exact books, a bounded depth, order of
arrival, and a bounded stay. The bound on the depth is checked with `>` for `≥`, and the
handler does not come to `psq_mgmt` while `psq_data` holds a frame. -/
namespace Ath6kl.PsQueue
open Lib.Machine PowerSave

variable {α : Type}

/-- A frame, and the number of handler runs before it was queued. -/
structure Stamped (α : Type) where
  frame : α
  since : Nat
deriving DecidableEq

/-- A queue with the frames that have come and gone. -/
structure Lane (α : Type) where
  psq : PsBufHead (Stamped α)
  arrived : List (Stamped α) := []
  departed : List (Stamped α) := []

inductive Call (α : Type) where
  | enqueue (frame : α) (alloc : Bool)
  | dequeue
  | purge

namespace Lane
variable (l : Lane α)

def call (runs : Nat) : Call α → Lane α
  | .enqueue frame alloc =>
    match l.psq.enqueue ⟨frame, runs⟩ alloc with
    | (psq, .ok) => { l with psq := psq, arrived := l.arrived ++ [⟨frame, runs⟩] }
    | (psq, _) => { l with psq := psq }
  | .dequeue =>
    let (psq, b) := l.psq.dequeue
    { l with psq := psq, departed := l.departed ++ b.toList.map PsBuf.frame }
  | .purge =>
    let (psq, freed) := l.psq.purge
    { l with psq := psq, departed := l.departed ++ freed.map PsBuf.frame }

def settle (psq : PsBufHead (Stamped α)) (freed : List (PsBuf (Stamped α))) : Lane α :=
  { l with psq := psq, departed := l.departed ++ freed.map PsBuf.frame }

end Lane

/-- A station; `runs` counts the runs of the handler. -/
structure Station where
  data : Lane DataFrame
  mgmt : Lane MgmtFrame
  runs : Nat := 0

inductive Event where
  | data (c : Call DataFrame)
  | mgmt (c : Call MgmtFrame)
  | ageHandler

def step (s : Station) : Event → Station
  | .data c => { s with data := s.data.call s.runs c }
  | .mgmt c => { s with mgmt := s.mgmt.call s.runs c }
  | .ageHandler =>
    let r := (Queues.mk s.data.psq s.mgmt.psq).ageHandler
    { data := s.data.settle r.queues.psqData r.freedData
      mgmt := s.mgmt.settle r.queues.psqMgmt r.freedMgmt
      runs := s.runs+1 }

/-- After both `ath6kl_ps_queue_init`. -/
def start (dataAge dataDepth mgmtAge mgmtDepth : Nat) : Station where
  data := { psq := .init dataAge dataDepth }
  mgmt := { psq := .init mgmtAge mgmtDepth }

structure Lane.Sound (l : Lane α) (runs : Nat) : Prop where
  counted : l.psq.Counted
  bounded : l.psq.maxDepth ≠ psQueueNoDepth → l.psq.depth ≤ l.psq.maxDepth
  ordered : l.arrived = l.departed ++ l.psq.list.map PsBuf.frame
  brief : l.psq.ageCycle ≠ psQueueNoAge →
    ∀ b∈l.psq.list, runs ≤ b.frame.since + l.psq.ageCycle

structure Station.Sound (s : Station) : Prop where
  data : s.data.Sound s.runs
  mgmt : s.mgmt.Sound s.runs

/-- A call that does not bring a frame into a queue that is full already. -/
def Lane.Room (l : Lane α) : Call α → Prop
  | .enqueue _ alloc => alloc = true → l.psq.maxDepth ≠ psQueueNoDepth →
    l.psq.depth ≠ l.psq.maxDepth
  | _ => True

/-- A frame of `psq_mgmt` that has seen its runs must go: `psq_data` holds nothing that stays,
and the age of the frame says so too. -/
def Station.Due (s : Station) (b : PsBuf (Stamped MgmtFrame)) : Prop :=
  (∀ d∈s.data.psq.list, s.data.psq.Expires d) ∧ s.mgmt.psq.Expires b

def Ok (s : Station) : Event → Prop
  | .data c => s.data.Room c
  | .mgmt c => s.mgmt.Room c
  | .ageHandler => s.mgmt.psq.ageCycle ≠ psQueueNoAge →
    ∀ b∈s.mgmt.psq.list, b.frame.since + s.mgmt.psq.ageCycle ≤ s.runs → s.Due b

/-- Older frames are ahead of younger ones. -/
def Lane.Sorted (l : Lane α) : Prop := l.psq.list.Pairwise fun a b => b.age ≤ a.age

/-- A queue that the handler never passes over. -/
structure Lane.Aged (l : Lane α) (runs : Nat) : Prop where
  exact : ∀ b∈l.psq.list, b.age + b.frame.since = runs
  young : l.psq.ageCycle ≠ psQueueNoAge → ∀ b∈l.psq.list, b.age < l.psq.ageCycle

theorem Lane.Aged.brief {l : Lane α} {runs : Nat} (h : l.Aged runs)
    (hc : l.psq.ageCycle ≠ psQueueNoAge) :
    ∀ b∈l.psq.list, runs ≤ b.frame.since + l.psq.ageCycle := by
  intro b hb
  have := h.exact b hb
  have := h.young hc b hb
  omega

/-- What a queue keeps whatever the other one does. -/
structure Lane.Kept (l : Lane α) : Prop where
  counted : l.psq.Counted
  bounded : l.psq.maxDepth ≠ psQueueNoDepth → l.psq.depth ≤ l.psq.maxDepth
  ordered : l.arrived = l.departed ++ l.psq.list.map PsBuf.frame
  sorted : l.Sorted

structure Inv (s : Station) : Prop where
  data : s.data.Kept
  mgmt : s.mgmt.Kept
  aged : s.data.Aged s.runs
  brief : s.mgmt.psq.ageCycle ≠ psQueueNoAge →
    ∀ b∈s.mgmt.psq.list, s.runs ≤ b.frame.since + s.mgmt.psq.ageCycle

theorem Inv.toSound {s : Station} (h : Inv s) : s.Sound where
  data := ⟨h.data.counted, h.data.bounded, h.data.ordered, h.aged.brief⟩
  mgmt := ⟨h.mgmt.counted, h.mgmt.bounded, h.mgmt.ordered, h.brief⟩

namespace Lane
variable {l : Lane α}

theorem call_bounds (l : Lane α) (runs : Nat) (c : Call α) :
    (l.call runs c).psq.ageCycle = l.psq.ageCycle ∧
      (l.call runs c).psq.maxDepth = l.psq.maxDepth := by
  cases c with
  | enqueue frame alloc =>
    simp only [call, PsBufHead.enqueue]
    split_ifs <;> exact ⟨rfl, rfl⟩
  | dequeue =>
    simp only [call, PsBufHead.dequeue]
    split_ifs
    · exact ⟨rfl, rfl⟩
    · split <;> exact ⟨rfl, rfl⟩
  | purge =>
    simp only [call, PsBufHead.purge]
    split_ifs
    · exact ⟨rfl, rfl⟩
    · exact PsBufHead.purgeLoop_bounds l.psq.list l.psq

theorem call_mem {runs : Nat} {c : Call α} {b : PsBuf (Stamped α)}
    (h : b∈(l.call runs c).psq.list) :
    b∈l.psq.list ∨ b.age = 0 ∧ b.frame.since = runs := by
  cases c with
  | enqueue frame alloc =>
    simp only [call, PsBufHead.enqueue] at h
    split_ifs at h
    · exact Or.inl h
    · exact Or.inl h
    · rcases List.mem_append.mp h with hb | hb
      · exact Or.inl hb
      · rw [List.mem_singleton.mp hb]
        exact Or.inr ⟨rfl, rfl⟩
  | dequeue =>
    simp only [call, PsBufHead.dequeue] at h
    split_ifs at h
    · exact Or.inl h
    · split at h
      · exact Or.inl h
      · next hl =>
        rw [hl]
        exact Or.inl (List.mem_cons_of_mem _ h)
  | purge =>
    simp only [call, PsBufHead.purge] at h
    split_ifs at h
    · exact Or.inl h
    · simp [PsBufHead.purgeLoop_list] at h

theorem call_counted (h : l.psq.Counted) (runs : Nat) (c : Call α) :
    (l.call runs c).psq.Counted := by
  cases c with
  | enqueue frame alloc =>
    have hc := h.enqueue ⟨frame, runs⟩ alloc
    simp only [call]
    rcases hr : l.psq.enqueue ⟨frame, runs⟩ alloc with ⟨psq, status⟩
    rw [hr] at hc
    cases status <;> exact hc
  | dequeue => exact h.dequeue
  | purge => exact h.purge

theorem call_ordered
    (ho : l.arrived = l.departed ++ l.psq.list.map PsBuf.frame) (runs : Nat) (c : Call α) :
    (l.call runs c).arrived =
      (l.call runs c).departed ++ (l.call runs c).psq.list.map PsBuf.frame := by
  cases c with
  | enqueue frame alloc =>
    simp only [call, PsBufHead.enqueue]
    split_ifs
    · exact ho
    · exact ho
    · simp [ho]
  | dequeue =>
    simp only [call, PsBufHead.dequeue]
    split_ifs
    · simpa using ho
    · split
      · simpa using ho
      · next hl => simp [ho, hl]
  | purge =>
    simp only [call, PsBufHead.purge]
    split_ifs
    · simpa using ho
    · simp [ho, PsBufHead.purgeLoop_list]

theorem call_sorted (h : l.Sorted) (runs : Nat) (c : Call α) : (l.call runs c).Sorted := by
  cases c with
  | enqueue frame alloc =>
    simp only [call, PsBufHead.enqueue]
    split_ifs
    · exact h
    · exact h
    · refine List.pairwise_append.mpr ⟨h, List.pairwise_singleton _ _, fun a _ b hb => ?_⟩
      rw [List.mem_singleton.mp hb]
      exact Nat.zero_le _
  | dequeue =>
    simp only [call, PsBufHead.dequeue]
    split_ifs
    · exact h
    · split
      · exact h
      · next hl =>
        rw [Sorted, hl] at h
        exact (List.pairwise_cons.mp h).2
  | purge =>
    simp only [call, PsBufHead.purge]
    split_ifs
    · exact h
    · simp [Sorted, PsBufHead.purgeLoop_list]

theorem call_bounded_iff (hb : l.psq.maxDepth ≠ psQueueNoDepth → l.psq.depth ≤ l.psq.maxDepth)
    (runs : Nat) (c : Call α) :
    (l.psq.maxDepth ≠ psQueueNoDepth → (l.call runs c).psq.depth ≤ l.psq.maxDepth) ↔
      l.Room c := by
  cases c with
  | enqueue frame alloc =>
    simp only [call, PsBufHead.enqueue, Room]
    split_ifs with hfull ha
    · have := hb hfull.1
      omega
    · simp only [Bool.not_eq_true'] at ha
      simpa [ha] using hb
    · simp only [Bool.not_eq_true', Bool.not_eq_false] at ha
      constructor
      · intro hn _ hm
        have : l.psq.depth+1 ≤ l.psq.maxDepth := hn hm
        omega
      · intro hn hm
        have := hb hm
        have := hn ha hm
        change l.psq.depth+1 ≤ l.psq.maxDepth
        omega
  | dequeue =>
    simp only [call, PsBufHead.dequeue, Room, iff_true]
    intro hm
    have := hb hm
    split_ifs
    · exact this
    · split
      · exact this
      · change l.psq.depth-1 ≤ l.psq.maxDepth
        omega
  | purge =>
    simp only [call, PsBufHead.purge, Room, iff_true]
    intro hm
    split_ifs
    · exact hb hm
    · exact Int.natCast_nonneg _

theorem Kept.call (h : l.Kept) (runs : Nat) {c : Call α} (hc : l.Room c) :
    (l.call runs c).Kept where
  counted := call_counted h.counted runs c
  bounded := by
    rw [(call_bounds l runs c).2]
    exact (call_bounded_iff h.bounded runs c).mpr hc
  ordered := call_ordered h.ordered runs c
  sorted := call_sorted h.sorted runs c

/-- The queue after one run that comes to it. -/
def age (l : Lane α) : Lane α := l.settle l.psq.aging.1 l.psq.aging.2

theorem age_list (h : l.psq.Counted) :
    l.age.psq.list = psQueueAging l.psq.ageCycle l.psq.list := h.aging_list

theorem Kept.age (h : l.Kept) : l.age.Kept where
  counted := h.counted.aging
  bounded := by
    have hb := h.bounded
    have hlen : l.age.psq.list.length ≤ l.psq.list.length := by
      rw [age_list h.counted]
      exact List.length_filterMap_le _ _
    have hd : l.age.psq.depth ≤ l.psq.depth := by
      have hda : l.age.psq.depth = l.age.psq.list.length := h.counted.aging.depth
      rw [h.counted.depth, hda]
      exact Int.ofNat_le.mpr hlen
    change l.psq.aging.1.maxDepth ≠ _ → l.age.psq.depth ≤ l.psq.aging.1.maxDepth
    rw [(PsBufHead.aging_bounds l.psq).2]
    exact fun hm => Int.le_trans hd (hb hm)
  ordered := by
    change l.arrived = l.departed ++ l.psq.aging.2.map PsBuf.frame ++ l.age.psq.list.map _
    rw [age_list h.counted, h.counted.aging_freed, List.append_assoc,
      PsBufHead.psQueueAging_split h.sorted, ← h.ordered]
  sorted := by
    rw [Sorted, age_list h.counted]
    exact PsBufHead.psQueueAging_sorted h.sorted

theorem Aged.age {runs : Nat} (h : l.Aged runs) (hc : l.psq.Counted) :
    l.age.Aged (runs+1) := by
  have hcycle : l.age.psq.ageCycle = l.psq.ageCycle := (PsBufHead.aging_bounds l.psq).1
  constructor
  · intro c hcm
    rw [age_list hc] at hcm
    obtain ⟨b, hb, -, rfl⟩ := PsBufHead.mem_psQueueAging.mp hcm
    rw [← h.exact b hb]
    exact Nat.add_right_comm b.age 1 b.frame.since
  · intro hn c hcm
    rw [hcycle] at hn ⊢
    rw [age_list hc] at hcm
    obtain ⟨b, -, he, rfl⟩ := PsBufHead.mem_psQueueAging.mp hcm
    by_contra hlt
    exact he ⟨hn, Nat.le_of_not_lt hlt⟩

theorem Aged.call {runs : Nat} (h : l.Aged runs) (c : Call α) : (l.call runs c).Aged runs := by
  constructor
  · intro b hb
    rcases call_mem hb with hb | ⟨ha, hs⟩
    · exact h.exact b hb
    · omega
  · rw [(call_bounds l runs c).1]
    intro hn b hb
    rcases call_mem hb with hb | ⟨ha, hs⟩
    · exact h.young hn b hb
    · rw [ha]
      exact Nat.pos_of_ne_zero hn

end Lane

theorem step_ageHandler (s : Station) :
    step s .ageHandler =
      { data := s.data.age
        mgmt := if s.data.age.psq.isEmpty then s.mgmt.age else s.mgmt
        runs := s.runs+1 } := by
  simp only [step, Queues.ageHandler, Lane.age]
  change _ = { data := _, mgmt := if s.data.psq.aging.1.isEmpty then _ else _, runs := _ : Station }
  split_ifs
  · rfl
  · simp [Lane.settle]

/-- What the handler must do with `psq_mgmt` is what it does, if and only if no frame there is
overdue. -/
theorem mgmt_brief_iff {s : Station} (h : Inv s) :
    (∀ b∈(step s .ageHandler).mgmt.psq.list,
        s.runs+1 ≤ b.frame.since + s.mgmt.psq.ageCycle) ↔
      ∀ b∈s.mgmt.psq.list, b.frame.since + s.mgmt.psq.ageCycle ≤ s.runs → s.Due b := by
  rw [step_ageHandler]
  have hempty : s.data.age.psq.isEmpty = true ↔
      ∀ d∈s.data.psq.list, s.data.psq.Expires d := by
    rw [h.data.age.counted.isEmpty_iff, Lane.age_list h.data.counted,
      PsBufHead.psQueueAging_eq_nil]
  split_ifs with he
  · rw [Lane.age_list h.mgmt.counted]
    constructor
    · intro hb b hm hlate
      refine ⟨hempty.mp he, ?_⟩
      by_contra hn
      have : s.runs+1 ≤ b.frame.since + s.mgmt.psq.ageCycle :=
        hb ⟨b.frame, b.age+1⟩ (PsBufHead.mem_psQueueAging.mpr ⟨b, hm, hn, rfl⟩)
      omega
    · intro hdue c hcm
      obtain ⟨b, hb, hn, rfl⟩ := PsBufHead.mem_psQueueAging.mp hcm
      by_contra hlate
      exact hn (hdue b hb (Nat.le_of_lt_succ (Nat.lt_of_not_le hlate))).2
  · constructor
    · intro hb b hm hlate
      have := hb b hm
      omega
    · intro hdue b hb
      by_contra hlate
      exact he (hempty.mpr (hdue b hb (by omega)).1)

/-- No call and no run changes the bounds of `psq_mgmt`. -/
theorem step_mgmt_ageCycle (s : Station) (e : Event) :
    (step s e).mgmt.psq.ageCycle = s.mgmt.psq.ageCycle := by
  cases e with
  | data c => rfl
  | mgmt c => exact (Lane.call_bounds s.mgmt s.runs c).1
  | ageHandler =>
    rw [step_ageHandler]
    split_ifs
    · exact (PsBufHead.aging_bounds s.mgmt.psq).1
    · rfl

theorem step_inv {s : Station} {e : Event} (h : Inv s) (hok : Ok s e) : Inv (step s e) := by
  cases e with
  | data c =>
    exact { h with data := h.data.call s.runs hok, aged := h.aged.call c }
  | mgmt c =>
    refine { h with mgmt := h.mgmt.call s.runs hok, brief := ?_ }
    rw [step_mgmt_ageCycle s (.mgmt c)]
    intro hn b hb
    rcases Lane.call_mem hb with hb | ⟨-, hs⟩
    · exact h.brief hn b hb
    · exact hs ▸ Nat.le_add_right _ _
  | ageHandler =>
    have hcycle := step_mgmt_ageCycle s .ageHandler
    have hbrief := fun hn => (mgmt_brief_iff h).mpr (hok hn)
    refine ⟨?_, ?_, ?_, ?_⟩
    · rw [step_ageHandler]
      exact h.data.age
    · rw [step_ageHandler]
      dsimp only
      split_ifs
      · exact h.mgmt.age
      · exact h.mgmt
    · rw [step_ageHandler]
      exact h.aged.age h.data.counted
    · rw [hcycle]
      exact hbrief

theorem ok_of_sound {s : Station} {e : Event} (h : Inv s) (hs : (step s e).Sound) : Ok s e := by
  cases e with
  | data c =>
    refine (Lane.call_bounded_iff h.data.bounded s.runs c).mp ?_
    rw [← (Lane.call_bounds s.data s.runs c).2]
    exact hs.data.bounded
  | mgmt c =>
    refine (Lane.call_bounded_iff h.mgmt.bounded s.runs c).mp ?_
    rw [← (Lane.call_bounds s.mgmt s.runs c).2]
    exact hs.mgmt.bounded
  | ageHandler =>
    intro hn
    have hb := hs.mgmt.brief
    rw [step_mgmt_ageCycle s .ageHandler] at hb
    exact (mgmt_brief_iff h).mp (hb hn)

theorem start_inv (dataAge dataDepth mgmtAge mgmtDepth : Nat) :
    Inv (start dataAge dataDepth mgmtAge mgmtDepth) where
  data := ⟨PsBufHead.init_counted _ _, fun _ => Int.natCast_nonneg _, rfl, List.Pairwise.nil⟩
  mgmt := ⟨PsBufHead.init_counted _ _, fun _ => Int.natCast_nonneg _, rfl, List.Pairwise.nil⟩
  aged := ⟨fun _ hb => (List.not_mem_nil hb).elim, fun _ _ hb => (List.not_mem_nil hb).elim⟩
  brief := fun _ _ hb => (List.not_mem_nil hb).elim

/-- The promise of the queues is kept in every state of a run if and only if no frame is brought
into a full queue, and no run of the handler leaves a frame in `psq_mgmt` that has already seen
`age_cycle` of them. -/
theorem psQueues_sound_iff (dataAge dataDepth mgmtAge mgmtDepth : Nat) (es : List Event) :
    (∀ u, u <+: es → (run step (start dataAge dataDepth mgmtAge mgmtDepth) u).Sound) ↔
      AllSteps step Ok (start dataAge dataDepth mgmtAge mgmtDepth) es :=
  prefix_iff_allSteps (I := Inv) (P := Station.Sound) (C := Ok) (fun _ => Inv.toSound)
    (fun _ _ => step_inv) (fun _ _ => ok_of_sound)
    (start_inv dataAge dataDepth mgmtAge mgmtDepth) es

/-- A management frame, and `n` times a data frame before a run of the handler. -/
def trickle (n : Nat) : List Event :=
  .mgmt (.enqueue { id := 0 } true) ::
    (List.range n).flatMap fun i => [.data (.enqueue { id := i } true), .ageHandler]

/-- With the bounds of `ath6kl_init_control_info`, a data frame for each cycle keeps a management frame
for a sixth run. -/
theorem psQueues_unsound :
    ¬∀ es, (run step (start psQueueMaxAge psQueueMaxDepth psQueueMaxAge psQueueNoDepth)
      es).Sound := by
  intro h
  have hb := (h (trickle 6)).mgmt.brief (by decide)
  revert hb
  decide

end Ath6kl.PsQueue
