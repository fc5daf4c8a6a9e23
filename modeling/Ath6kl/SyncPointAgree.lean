import Ath6kl.SyncPoint
import Ath6kl.Lib.Machine
import Mathlib.Data.List.FinRange
import Mathlib.Data.List.Forall2
import Mathlib.Data.List.Nodup

/-! When the map of a WMI_SYNCHRONIZE command names the classes whose endpoint got a message. The bits
are read twice and the messages sent one by one, so this is a matter of what the call met; the
buffers are accounted for in any case. -/
namespace Ath6kl.SyncPoint
open WmmStream Lib.Machine List

variable {ep : Endpoints} {c : Call} {acs held q : List Ac} {sends : List Answer}

def Call.finished (c : Call) : Prop := ∃ ret, c.pc = .done ret

/-- A call that has returned: if its command was sent, the map has the classes with one message
queued; and each message it allocated was queued or freed, once. -/
structure Consistent (c : Call) : Prop where
  agree : c.commandSent = true → ∀ ac : Ac, c.dataSyncMap.getLsbD ac = true ↔ c.queued.count ac = 1
  books : ∀ ac, c.allocated.count ac = c.freed.count ac + c.queued.count ac
  once : ∀ ac, c.allocated.count ac ≤ 1

/-- The message of the class can be queued. -/
def Reaches (ep : Endpoints) (index : Ac) (a : Answer) : Prop :=
  ep.ac2ep index ≠ ep.epId ∧ a.controlTx = 0

instance (ep : Endpoints) (index : Ac) (a : Answer) : Decidable (Reaches ep index a) :=
  inferInstanceAs (Decidable (ep.ac2ep index ≠ ep.epId ∧ a.controlTx = 0))

/-- The classes before the first whose message cannot. -/
def delivered (ep : Endpoints) : List Ac → List Answer → List Ac
  | index::acs, a::as => if Reaches ep index a then index::delivered ep acs as else []
  | _, _ => []

/-- Every buffer is allocated and the command is accepted. -/
def Met.commandLeaves (m : Met) : Prop :=
  m.alloc.alloc = true ∧ (allocData (streams m.first) m.alloc.allocs).2 = true ∧
    m.command.ifIdx = true ∧ m.command.asleep = false ∧ m.command.controlTx = 0

/-- If the command leaves, its section finds the classes that the first section found, but for those
from the first one on whose message cannot be queued. -/
def Met.Clean (ep : Endpoints) (m : Met) : Prop :=
  m.commandLeaves → ∀ ac : Ac,
    m.second.getLsbD ac = true ↔ ac∈delivered ep (streams m.first) m.sends

theorem streams_nodup (m : BitVec 8) : (streams m).Nodup := (nodup_finRange _).filter _

theorem allocData_sublist (acs : List Ac) (answers : List Bool) :
    (allocData acs answers).1 <+ acs := by
  induction acs generalizing answers with
  | nil => simp [allocData]
  | cons index acs ih =>
    rw [allocData]
    split
    · exact (ih answers.tail).cons_cons index
    · exact nil_sublist _

theorem allocData_all {answers : List Bool} (h : (allocData acs answers).2 = true) :
    (allocData acs answers).1 = acs := by
  induction acs generalizing answers with
  | nil => simp [allocData]
  | cons index acs ih =>
    rw [allocData] at h ⊢
    split
    · rename_i hfst
      rw [if_pos hfst] at h
      rw [ih h]
    · rename_i hfst
      rw [if_neg hfst] at h
      cases h

theorem delivered_append (h : Forall₂ (Reaches ep) q sends) (acs : List Ac) (as : List Answer) :
    delivered ep (q ++ acs) (sends ++ as) = q ++ delivered ep acs as := by
  induction h with
  | nil => rfl
  | cons hr _ ih => simp only [cons_append, delivered, hr, if_true, ih]

theorem delivered_of_forall₂ (h : Forall₂ (Reaches ep) q sends) : delivered ep q sends = q := by
  simpa [delivered] using delivered_append h [] []

/-- What the fields of a call are at each place of it. -/
def Call.Sound (ep : Endpoints) (c : Call) : Prop :=
  match c.pc with
  | .start => c.allocated = [] ∧ c.freed = [] ∧ c.queued = [] ∧ c.commandSent = false ∧
    c.met.sends = []
  | .found acs => acs = streams c.met.first ∧ c.allocated = [] ∧ c.freed = [] ∧ c.queued = [] ∧
    c.commandSent = false ∧ c.met.sends = []
  | .ready held => held = streams c.met.first ∧ c.allocated = held ∧ c.freed = [] ∧
    c.queued = [] ∧ c.commandSent = false ∧ c.met.sends = [] ∧ c.dataSyncMap = c.met.second ∧
    c.met.alloc.alloc = true ∧ (allocData (streams c.met.first) c.met.alloc.allocs).2 = true
  | .sending held => streams c.met.first = c.queued ++ held ∧ c.allocated = c.queued ++ held ∧
    c.freed = [] ∧ (c.commandSent = true ↔ c.met.commandLeaves) ∧ c.dataSyncMap = c.met.second ∧
    Forall₂ (Reaches ep) c.queued c.met.sends
  | .done _ => (c.commandSent = true ↔ c.met.commandLeaves) ∧
    (c.commandSent = true → c.dataSyncMap = c.met.second ∧
      c.queued = delivered ep (streams c.met.first) c.met.sends) ∧
    c.allocated ~ c.freed ++ c.queued ∧ c.allocated <+ streams c.met.first

theorem next_sound (hstreams : streams c.met.first = c.queued ++ held)
    (halloc : c.allocated = c.queued ++ held) (hfreed : c.freed = [])
    (hsent : c.commandSent = true ↔ c.met.commandLeaves) (hmap : c.dataSyncMap = c.met.second)
    (hsends : Forall₂ (Reaches ep) c.queued c.met.sends) : (c.next held).Sound ep := by
  cases held with
  | nil =>
    rw [append_nil] at hstreams halloc
    refine ⟨hsent, fun _ => ⟨hmap, ?_⟩, ?_, ?_⟩
    · simp only [Call.next, hstreams]
      exact (delivered_of_forall₂ hsends).symm
    · simp [Call.next, halloc, hfreed]
    · simp [Call.next, halloc, hstreams]
  | cons index held => exact ⟨hstreams, halloc, hfreed, hsent, hmap, hsends⟩

theorem prepare_sound (hpc : c.pc = .found acs) (h : c.Sound ep) (map : BitVec 8) (a : Answer) :
    (c.prepare acs map a).Sound ep := by
  simp only [Call.Sound, hpc] at h
  obtain ⟨rfl, halloc, hfreed, hqueued, hsent, hsends⟩ := h
  simp only [Call.prepare]
  split
  · rename_i ha
    simp only [Bool.not_eq_true] at ha
    refine ⟨?_, ?_, ?_, ?_⟩
    · simp [hsent, Met.commandLeaves, ha]
    · simp [hsent]
    · simp [halloc, hfreed, hqueued]
    · simp [halloc]
  · rename_i ha
    simp only [not_not] at ha
    split
    · rename_i hok
      have hall := allocData_all hok
      exact ⟨hall, rfl, hfreed, hqueued, hsent, hsends, rfl, ha, hok⟩
    · rename_i hok
      refine ⟨?_, ?_, ?_, ?_⟩
      · simp [Call.freeData, hsent, Met.commandLeaves, hok]
      · simp [Call.freeData, hsent]
      · simp [Call.freeData, hfreed, hqueued]
      · exact allocData_sublist _ _

theorem cmdSend_sound (hpc : c.pc = .ready held) (h : c.Sound ep) (a : Answer) :
    (c.cmdSend held a).Sound ep := by
  simp only [Call.Sound, hpc] at h
  obtain ⟨rfl, halloc, hfreed, hqueued, hsent, hsends, hmap, ha, hok⟩ := h
  -- a command that is refused leaves its messages to be freed
  have hfree : ∀ ret, ¬ (a.ifIdx = true ∧ a.asleep = false) →
      Call.Sound ep (Call.freeData { c with met := { c.met with command := a } }
        (streams c.met.first) ret) := by
    intro ret hno
    refine ⟨?_, ?_, ?_, ?_⟩
    · simp only [Call.freeData, hsent, Met.commandLeaves]
      constructor
      · intro hs
        cases hs
      · intro hl
        exact absurd ⟨hl.2.2.1, hl.2.2.2.1⟩ hno
    · simp [Call.freeData, hsent]
    · simp [Call.freeData, halloc, hfreed, hqueued]
    · simp [Call.freeData, halloc]
  simp only [Call.cmdSend]
  split
  · rename_i hif
    exact hfree einval fun hc => hif hc.1
  · rename_i hif
    split
    · rename_i hsleep
      exact hfree einval fun hc => by simp [hc.2] at hsleep
    · rename_i hsleep
      apply next_sound
      · simp [hqueued]
      · simp [hqueued, halloc]
      · exact hfreed
      · have hif' : a.ifIdx = true := not_not.mp hif
        simp only [Bool.not_eq_true] at hsleep
        simp [Met.commandLeaves, ha, hok, hif', hsleep]
      · exact hmap
      · simp [hqueued, hsends]

theorem send_sound {index : Ac} (hpc : c.pc = .sending (index::held)) (h : c.Sound ep)
    (map : BitVec 8) (a : Answer) : (c.step ep map a).Sound ep := by
  simp only [Call.Sound, hpc] at h
  obtain ⟨hstreams, halloc, hfreed, hsent, hmap, hsends⟩ := h
  simp only [Call.step, hpc, Call.dataSyncSend]
  by_cases hr : Reaches ep index a
  · have hstreams' : streams c.met.first = (c.queued ++ [index]) ++ held := by simpa using hstreams
    rw [if_neg hr.1, if_neg (not_not.mpr hr.2)]
    apply next_sound
    · exact hstreams'
    · simpa using halloc
    · exact hfreed
    · exact hsent
    · exact hmap
    · exact rel_append hsends (.cons hr .nil)
  · have hq : c.queued = delivered ep (streams c.met.first) (c.met.sends ++ [a]) := by
      rw [hstreams, delivered_append hsends]
      simp [delivered, hr]
    have hperm : c.allocated ~ c.freed ++ [index] ++ held ++ c.queued := by
      rw [halloc, hfreed]
      exact perm_append_comm
    have hsub : c.allocated <+ streams c.met.first := by
      rw [halloc, hstreams]
    rw [Reaches, not_and_or, not_not] at hr
    by_cases hep : ep.ac2ep index = ep.epId
    · rw [if_pos hep]
      exact ⟨hsent, fun _ => ⟨hmap, hq⟩, hperm, hsub⟩
    · have htx := hr.resolve_left hep
      rw [if_neg hep, if_pos htx]
      simp only [ne_eq, htx, not_false_eq_true, if_true]
      exact ⟨hsent, fun _ => ⟨hmap, hq⟩, hperm, hsub⟩

theorem call_step_sound (h : c.Sound ep) (map : BitVec 8) (a : Answer) :
    (c.step ep map a).Sound ep := by
  cases hpc : c.pc with
  | start =>
    simp only [Call.Sound, hpc] at h
    simp only [Call.step, hpc]
    exact ⟨rfl, h⟩
  | found acs =>
    simp only [Call.step, hpc]
    exact prepare_sound hpc h map a
  | ready held =>
    simp only [Call.step, hpc]
    exact cmdSend_sound hpc h a
  | sending held =>
    cases held with
    | nil =>
      simp only [Call.step, hpc]
      exact h
    | cons index held => exact send_sound hpc h map a
  | done ret =>
    simp only [Call.step, hpc]
    exact h

theorem step_sound {s : Wmi} (h : ∀ c∈s.calls, c.Sound ep) (e : Event) :
    ∀ c∈(step ep s e).calls, c.Sound ep := by
  cases e with
  | setPipe | clearPipe | writePipes => exact h
  | call =>
    intro c hc
    simp only [step, mem_append, mem_singleton] at hc
    cases hc with
    | inl hc => exact h c hc
    | inr hc =>
      subst hc
      exact ⟨rfl, rfl, rfl, rfl, rfl⟩
  | thread i a =>
    exact forall_modify (P := fun c : Call => c.Sound ep)
      (fun _ hc => call_step_sound hc s.fatPipeExist a) h i

theorem finished_consistent (h : c.Sound ep) (hf : c.finished) :
    Consistent c ↔ c.met.Clean ep := by
  obtain ⟨ret, hpc⟩ := hf
  simp only [Call.Sound, hpc] at h
  obtain ⟨hsent, hagree, hperm, hsub⟩ := h
  have hnodup : c.allocated.Nodup := (streams_nodup _).sublist hsub
  have hqueued : c.queued.Nodup := by
    have hboth := hperm.nodup_iff.mp hnodup
    exact (nodup_append.mp hboth).2.1
  have hone : ∀ ac, c.queued.count ac = 1 ↔ ac∈c.queued := fun ac =>
    ⟨fun hc => count_pos_iff.mp (by omega), fun hm => count_eq_one_of_mem hqueued hm⟩
  constructor
  · intro hc hl ac
    obtain ⟨hmap, hq⟩ := hagree (hsent.mpr hl)
    rw [← hmap, hc.agree (hsent.mpr hl) ac, hone, hq]
  · intro hm
    constructor
    · intro hs ac
      obtain ⟨hmap, hq⟩ := hagree hs
      rw [hmap, hm (hsent.mp hs) ac, hone, hq]
    · intro ac
      rw [hperm.count_eq, count_append]
    · exact fun ac => nodup_iff_count_le_one.mp hnodup ac

def fresh (fatPipeExist : BitVec 8) : Wmi := { fatPipeExist := fatPipeExist }

theorem sync_points_agree (ep : Endpoints) (fatPipeExist : BitVec 8) (es : List Event) :
    (∀ c∈(run (step ep) (fresh fatPipeExist) es).calls, c.finished → Consistent c) ↔
    ∀ c∈(run (step ep) (fresh fatPipeExist) es).calls, c.finished → c.met.Clean ep := by
  have hs : ∀ c∈(run (step ep) (fresh fatPipeExist) es).calls, c.Sound ep :=
    run_invariant (I := fun s : Wmi => ∀ c∈s.calls, c.Sound ep) (fun _ e hs => step_sound hs e)
      (by simp [fresh]) es
  constructor
  · intro h c hc hf
    exact (finished_consistent (hs c hc) hf).mp (h c hc hf)
  · intro h c hc hf
    exact (finished_consistent (hs c hc) hf).mpr (h c hc hf)

/-- A stream times out between the two sections; and a message is dropped. -/
theorem sync_points_disagree :
    (¬ ∀ c∈(run (step ⟨fun ac => ac + 2, 1⟩) (fresh 0b0101)
      [.call, .thread 0 {}, .clearPipe 2, .thread 0 {}, .thread 0 {}, .thread 0 {},
        .thread 0 {}]).calls, c.finished → Consistent c) ∧
    ¬ ∀ c∈(run (step ⟨fun ac => ac + 2, 1⟩) (fresh 0b0101)
      [.call, .thread 0 {}, .thread 0 {}, .thread 0 {}, .thread 0 { controlTx := -12 }]).calls,
        c.finished → Consistent c := by
  refine ⟨fun h => ?_, fun h => ?_⟩
  · have hc := h _ mem_cons_self ⟨0, rfl⟩
    exact absurd (hc.agree rfl ⟨2, by decide⟩) (by decide)
  · have hc := h _ mem_cons_self ⟨-12, rfl⟩
    exact absurd (hc.agree rfl ⟨0, by decide⟩) (by decide)

end Ath6kl.SyncPoint
