import Ath6kl.PowerSave

/-! The power-save queue `struct ath6kl_ps_buf_head` (main.c) with its depth and its counters,
and the age handler over the two queues of a station. `PowerSave` works on the lists alone:
`enqueue_list` and `ageHandler_lists` say that these are the lists of this queue. -/
namespace Ath6kl.PsQueue
open PowerSave

variable {α β : Type}

/-- `struct ath6kl_ps_buf_head`; the four counters are `u32`. -/
structure PsBufHead (α : Type) where
  list : List (PsBuf α) := []
  depth : Int := 0
  ageCycle : Nat
  maxDepth : Nat
  enqueued : BitVec 32 := 0
  enqueuedErr : BitVec 32 := 0
  dequeued : BitVec 32 := 0
  aged : BitVec 32 := 0

inductive Status where
  | ok | ebusy | enomem
deriving DecidableEq

namespace PsBufHead
variable (psq : PsBufHead α)

/-- `ath6kl_ps_queue_init`. -/
def init (ageCycle maxDepth : Nat) : PsBufHead α where
  ageCycle := ageCycle
  maxDepth := maxDepth

/-- `ath6kl_ps_queue_enqueue_data` and `ath6kl_ps_queue_enqueue_mgmt`, which differ in what
they copy from the frame; `alloc` is what `kmalloc` answers. -/
def enqueue (frame : α) (alloc : Bool) : PsBufHead α × Status :=
  if psq.maxDepth ≠ psQueueNoDepth ∧ psq.depth > psq.maxDepth then
    ({ psq with enqueuedErr := psq.enqueuedErr+1 }, .ebusy)
  else if !alloc then ({ psq with enqueuedErr := psq.enqueuedErr+1 }, .enomem)
  else
    ({ psq with
        list := psq.list ++ [⟨frame, 0⟩]
        depth := psq.depth+1
        enqueued := psq.enqueued+1 }, .ok)

/-- `ath6kl_ps_queue_dequeue`. -/
def dequeue : PsBufHead α × Option (PsBuf α) :=
  if psq.depth = 0 then (psq, none)
  else
    match psq.list with
    | [] => (psq, none)
    | b::rest =>
      ({ psq with list := rest, depth := psq.depth-1, dequeued := psq.dequeued+1 }, some b)

/-- The loop of `ath6kl_ps_queue_purge`. -/
def purgeLoop : List (PsBuf α) → PsBufHead α → PsBufHead α
  | [], psq => psq
  | _::rest, psq =>
    purgeLoop rest { psq with list := rest, depth := psq.depth-1, dequeued := psq.dequeued+1 }

/-- `ath6kl_ps_queue_purge`, with the frames that it frees. -/
def purge : PsBufHead α × List (PsBuf α) :=
  if psq.depth = 0 then (psq, [])
  else
    ({ purgeLoop psq.list psq with
        depth := 0, enqueued := 0, enqueuedErr := 0, dequeued := 0, aged := 0 }, psq.list)

/-- A frame that the next turn of `ath6kl_ps_queue_aging` drops. -/
def Expires (b : PsBuf α) : Prop := psq.ageCycle ≠ psQueueNoAge ∧ b.age+1 ≥ psq.ageCycle

instance (b : PsBuf α) : Decidable (psq.Expires b) :=
  inferInstanceAs (Decidable (psq.ageCycle ≠ psQueueNoAge ∧ b.age+1 ≥ psq.ageCycle))

/-- The loop of `ath6kl_ps_queue_aging` over what is left of the list, after `kept`; the second
component are the frames it frees. -/
def agingLoop (kept : List (PsBuf α)) : List (PsBuf α) → PsBufHead α → PsBufHead α × List (PsBuf α)
  | [], psq => ({ psq with list := kept }, [])
  | b::rest, psq =>
    if psq.Expires b then
      let r := agingLoop kept rest
        { psq with aged := psq.aged+1, dequeued := psq.dequeued+1, depth := psq.depth-1 }
      (r.1, b::r.2)
    else agingLoop (kept ++ [⟨b.frame, b.age+1⟩]) rest psq

/-- `ath6kl_ps_queue_aging`; it returns `isEmpty` of the queue it leaves. -/
def aging : PsBufHead α × List (PsBuf α) :=
  if psq.depth = 0 then (psq, []) else agingLoop [] psq.list psq

/-- `ath6kl_ps_queue_empty`. -/
def isEmpty : Bool := psq.depth = 0

end PsBufHead

/-- The queues of one `struct ath6kl_sta`. -/
structure Queues (α β : Type) where
  psqData : PsBufHead α
  psqMgmt : PsBufHead β

/-- What a run of the handler leaves, frees and sends. -/
structure Aged (α β : Type) where
  queues : Queues α β
  freedData : List (PsBuf α)
  freedMgmt : List (PsBuf β) := []
  pvbCleared : Bool := false

/-- `ath6kl_ps_queue_age_handler`: `&&` does not come to `psq_mgmt` while `psq_data` holds a
frame. -/
def Queues.ageHandler (q : Queues α β) : Aged α β :=
  let (data, freedData) := q.psqData.aging
  if data.isEmpty then
    let (mgmt, freedMgmt) := q.psqMgmt.aging
    ⟨⟨data, mgmt⟩, freedData, freedMgmt, mgmt.isEmpty⟩
  else { queues := ⟨data, q.psqMgmt⟩, freedData := freedData }

/-- The books of a queue: `depth` is the length of the list, and what the counters say. -/
structure PsBufHead.Counted (psq : PsBufHead α) : Prop where
  depth : psq.depth = psq.list.length
  counters : psq.enqueued - psq.dequeued = BitVec.ofInt 32 psq.depth

namespace PsBufHead
variable {psq : PsBufHead α}

theorem Counted.isEmpty_iff (h : psq.Counted) : psq.isEmpty = true ↔ psq.list = [] := by
  rw [isEmpty, decide_eq_true_iff, h.depth]
  simp

theorem init_counted (ageCycle maxDepth : Nat) :
    (init ageCycle maxDepth : PsBufHead α).Counted where
  depth := rfl
  counters := by simp [init]

theorem Counted.insert {psq' : PsBufHead α} (h : psq.Counted)
    (hl : psq'.list.length = psq.list.length+1) (hd : psq'.depth = psq.depth+1)
    (he : psq'.enqueued = psq.enqueued+1) (hq : psq'.dequeued = psq.dequeued) :
    psq'.Counted := by
  constructor
  · rw [hd, h.depth, hl]
    rfl
  · rw [hd, BitVec.ofInt_add, ← h.counters, he, hq]
    change _ = _ + 1#32
    grind

theorem Counted.remove {psq' : PsBufHead α} (h : psq.Counted)
    (hl : psq'.list.length+1 = psq.list.length) (hd : psq'.depth = psq.depth-1)
    (he : psq'.enqueued = psq.enqueued) (hq : psq'.dequeued = psq.dequeued+1) :
    psq'.Counted := by
  constructor
  · rw [hd, h.depth, ← hl]
    simp
  · rw [hd, Int.sub_eq_add_neg, BitVec.ofInt_add, ← h.counters, he, hq]
    change _ = _ + -1#32
    grind

theorem Counted.enqueue (h : psq.Counted) (frame : α) (alloc : Bool) :
    (psq.enqueue frame alloc).1.Counted := by
  unfold PsBufHead.enqueue
  split_ifs
  · exact ⟨h.depth, h.counters⟩
  · exact ⟨h.depth, h.counters⟩
  · exact h.insert (by simp) rfl rfl rfl

theorem Counted.dequeue (h : psq.Counted) : psq.dequeue.1.Counted := by
  unfold PsBufHead.dequeue
  split_ifs
  · exact h
  · split
    · exact h
    · next b rest hl => exact h.remove (by simp [hl]) rfl rfl rfl

theorem purgeLoop_list {l : List (PsBuf α)} (hl : psq.list = l) :
    (purgeLoop l psq).list = [] := by
  induction l generalizing psq with
  | nil => exact hl
  | cons b rest ih => exact ih rfl

theorem purgeLoop_bounds (l : List (PsBuf α)) (psq : PsBufHead α) :
    (purgeLoop l psq).ageCycle = psq.ageCycle ∧ (purgeLoop l psq).maxDepth = psq.maxDepth := by
  induction l generalizing psq with
  | nil => exact ⟨rfl, rfl⟩
  | cons b rest ih => exact ih _

theorem Counted.purgeLoop {l : List (PsBuf α)} (h : psq.Counted) (hl : psq.list = l) :
    (PsBufHead.purgeLoop l psq).Counted := by
  induction l generalizing psq with
  | nil => exact h
  | cons b rest ih => exact ih (h.remove (by simp [hl]) rfl rfl rfl) rfl

/-- The `WARN_ON`s behind the loop of the purge stay silent. -/
theorem Counted.purge_warnings (h : psq.Counted) :
    (PsBufHead.purgeLoop psq.list psq).depth = 0 ∧
      (PsBufHead.purgeLoop psq.list psq).enqueued =
        (PsBufHead.purgeLoop psq.list psq).dequeued := by
  have hc := h.purgeLoop rfl
  have hd : (PsBufHead.purgeLoop psq.list psq).depth = 0 := by
    simp [hc.depth, purgeLoop_list rfl]
  refine ⟨hd, ?_⟩
  have := hc.counters
  rw [hd] at this
  grind

theorem Counted.purge (h : psq.Counted) : psq.purge.1.Counted := by
  unfold PsBufHead.purge
  split_ifs
  · exact h
  · constructor
    · simp [purgeLoop_list rfl]
    · simp

theorem Counted.agingLoop {kept rest : List (PsBuf α)}
    (h : { psq with list := kept ++ rest }.Counted) :
    (PsBufHead.agingLoop kept rest psq).1.Counted := by
  induction rest generalizing kept psq with
  | nil => simpa [PsBufHead.agingLoop] using h
  | cons b rest ih =>
    unfold PsBufHead.agingLoop
    split_ifs
    · exact ih (h.remove (by simp; omega) rfl rfl rfl)
    · exact ih ⟨by simpa using h.depth, h.counters⟩

theorem Counted.aging (h : psq.Counted) : psq.aging.1.Counted := by
  unfold PsBufHead.aging
  split_ifs
  · exact h
  · exact Counted.agingLoop h

theorem psQueueAging_expires {b : PsBuf α} (h : psq.Expires b) (rest : List (PsBuf α)) :
    psQueueAging psq.ageCycle (b::rest) = psQueueAging psq.ageCycle rest :=
  List.filterMap_cons_none (if_pos h)

theorem psQueueAging_stays {b : PsBuf α} (h : ¬psq.Expires b) (rest : List (PsBuf α)) :
    psQueueAging psq.ageCycle (b::rest) =
      ⟨b.frame, b.age+1⟩::psQueueAging psq.ageCycle rest :=
  List.filterMap_cons_some (if_neg h)

theorem mem_psQueueAging {l : List (PsBuf α)} {c : PsBuf α} :
    c∈psQueueAging psq.ageCycle l ↔ ∃ b∈l, ¬psq.Expires b ∧ c = ⟨b.frame, b.age+1⟩ := by
  induction l with
  | nil => simp [psQueueAging]
  | cons b rest ih =>
    by_cases hb : psq.Expires b
    · simp [psQueueAging_expires hb, ih, hb]
    · simp [psQueueAging_stays hb, ih, hb]

theorem psQueueAging_eq_nil {l : List (PsBuf α)} :
    psQueueAging psq.ageCycle l = [] ↔ ∀ b∈l, psq.Expires b := by
  constructor
  · intro hl b hb
    by_contra hn
    have hm := mem_psQueueAging.mpr ⟨b, hb, hn, rfl⟩
    rw [hl] at hm
    exact List.not_mem_nil hm
  · intro h
    refine List.eq_nil_iff_forall_not_mem.mpr fun c hc => ?_
    obtain ⟨b, hb, hn, -⟩ := mem_psQueueAging.mp hc
    exact hn (h b hb)

theorem psQueueAging_split {l : List (PsBuf α)} (hs : l.Pairwise fun a b => b.age ≤ a.age) :
    (l.filter fun b => psq.Expires b).map PsBuf.frame ++
      (psQueueAging psq.ageCycle l).map PsBuf.frame = l.map PsBuf.frame := by
  induction l with
  | nil => rfl
  | cons b rest ih =>
    obtain ⟨hb, hrest⟩ := List.pairwise_cons.mp hs
    have ih := ih hrest
    by_cases he : psq.Expires b
    · rw [List.filter_cons_of_pos (by simpa using he), psQueueAging_expires he]
      exact congrArg (List.cons b.frame) ih
    · have hn : (rest.filter fun b => psq.Expires b) = [] := by
        refine List.filter_eq_nil_iff.mpr fun c hc hce => he ?_
        obtain ⟨hf, ha⟩ := of_decide_eq_true hce
        exact ⟨hf, Nat.le_trans ha (Nat.succ_le_succ (hb c hc))⟩
      rw [hn] at ih
      rw [List.filter_cons_of_neg (by simpa using he), hn, psQueueAging_stays he]
      exact congrArg (List.cons b.frame) ih

theorem psQueueAging_sorted {l : List (PsBuf α)} (hs : l.Pairwise fun a b => b.age ≤ a.age) :
    (psQueueAging psq.ageCycle l).Pairwise fun a b => b.age ≤ a.age := by
  induction l with
  | nil => exact List.Pairwise.nil
  | cons b rest ih =>
    obtain ⟨hb, hrest⟩ := List.pairwise_cons.mp hs
    by_cases he : psq.Expires b
    · rw [psQueueAging_expires he]
      exact ih hrest
    · rw [psQueueAging_stays he]
      refine List.pairwise_cons.mpr ⟨fun c hc => ?_, ih hrest⟩
      obtain ⟨d, hd, -, rfl⟩ := mem_psQueueAging.mp hc
      exact Nat.succ_le_succ (hb d hd)

theorem agingLoop_list (kept rest : List (PsBuf α)) (psq : PsBufHead α) :
    (agingLoop kept rest psq).1.list = kept ++ psQueueAging psq.ageCycle rest := by
  induction rest generalizing kept psq with
  | nil => simp [agingLoop, psQueueAging]
  | cons b rest ih =>
    unfold agingLoop
    split_ifs with hb
    · rw [psQueueAging_expires hb]
      exact ih kept _
    · rw [psQueueAging_stays hb, ih, List.append_assoc]
      rfl

theorem agingLoop_freed (kept rest : List (PsBuf α)) (psq : PsBufHead α) :
    (agingLoop kept rest psq).2 = rest.filter fun b => psq.Expires b := by
  induction rest generalizing kept psq with
  | nil => rfl
  | cons b rest ih =>
    unfold agingLoop
    split_ifs with hb
    · rw [List.filter_cons_of_pos (by simpa using hb)]
      exact congrArg (List.cons b) (ih kept _)
    · rw [List.filter_cons_of_neg (by simpa using hb), ih]

theorem agingLoop_bounds (kept rest : List (PsBuf α)) (psq : PsBufHead α) :
    (agingLoop kept rest psq).1.ageCycle = psq.ageCycle ∧
      (agingLoop kept rest psq).1.maxDepth = psq.maxDepth := by
  induction rest generalizing kept psq with
  | nil => exact ⟨rfl, rfl⟩
  | cons b rest ih =>
    unfold agingLoop
    split_ifs
    · exact ih kept _
    · exact ih _ psq

theorem Counted.aging_list (h : psq.Counted) :
    psq.aging.1.list = psQueueAging psq.ageCycle psq.list := by
  unfold PsBufHead.aging
  split_ifs with hd
  · have hl : psq.list = [] := by simpa [h.depth] using hd
    simp [hl, psQueueAging]
  · exact agingLoop_list [] psq.list psq

theorem Counted.aging_freed (h : psq.Counted) :
    psq.aging.2 = psq.list.filter fun b => psq.Expires b := by
  unfold PsBufHead.aging
  split_ifs with hd
  · have hl : psq.list = [] := by simpa [h.depth] using hd
    simp [hl]
  · exact agingLoop_freed [] psq.list psq

theorem aging_bounds (psq : PsBufHead α) :
    psq.aging.1.ageCycle = psq.ageCycle ∧ psq.aging.1.maxDepth = psq.maxDepth := by
  unfold aging
  split_ifs
  · exact ⟨rfl, rfl⟩
  · exact agingLoop_bounds [] psq.list psq

theorem Counted.enqueue_list (h : psq.Counted) (frame : α) (alloc : Bool) :
    psQueueEnqueue psq.maxDepth psq.list frame alloc =
      if (psq.enqueue frame alloc).2 = .ok then some (psq.enqueue frame alloc).1.list
      else none := by
  have hd : psq.list.length > psq.maxDepth ↔ psq.depth > psq.maxDepth := by
    rw [h.depth]
    exact Int.ofNat_lt.symm
  unfold psQueueEnqueue PsBufHead.enqueue
  simp only [hd]
  by_cases hf : psq.maxDepth ≠ psQueueNoDepth ∧ psq.depth > psq.maxDepth
  · simp [if_pos hf]
  · cases alloc <;> simp [if_neg hf]

end PsBufHead

theorem ageHandler_lists (q : Queues DataFrame MgmtFrame) (s : Sta)
    (hd : q.psqData.Counted) (hm : q.psqMgmt.Counted)
    (hda : q.psqData.ageCycle = psQueueMaxAge) (hma : q.psqMgmt.ageCycle = psQueueMaxAge)
    (hsd : s.psqData = q.psqData.list) (hsm : s.psqMgmt = q.psqMgmt.list) :
    ageHandler s = { s with
      psqData := q.ageHandler.queues.psqData.list
      psqMgmt := q.ageHandler.queues.psqMgmt.list
      pvb := !q.ageHandler.pvbCleared && s.pvb } := by
  have hld : psQueueAging psQueueMaxAge s.psqData = q.psqData.aging.1.list := by
    rw [hd.aging_list, hda, hsd]
  have hlm : psQueueAging psQueueMaxAge s.psqMgmt = q.psqMgmt.aging.1.list := by
    rw [hm.aging_list, hma, hsm]
  have hed := hd.aging.isEmpty_iff
  have hem := hm.aging.isEmpty_iff
  unfold ageHandler Queues.ageHandler
  simp only [hld, hlm, List.isEmpty_iff]
  split_ifs <;> simp_all

end Ath6kl.PsQueue
