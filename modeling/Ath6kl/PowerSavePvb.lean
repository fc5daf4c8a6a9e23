import Ath6kl.PowerSave

/-! The traffic indication of a sleeping station. Each way the PVB and the queues can
disagree is covered by a thread that still has to mend it, as long as no PVB command is
late and nothing is queued for a station that is awake. -/
namespace Ath6kl.PowerSave
open Lib.Interleave Lib.Machine
variable {cfg : Config} {s : Sta} {pc : Pc}

/-- A frame waits and the station has not been told. -/
def Untold (s : Sta) : Prop := s.psqEmpty = false ∧ s.pvb = false

/-- Nothing waits and the station is told to fetch it. -/
def Stale (s : Sta) : Prop := s.psqEmpty = true ∧ s.pvb = true

/-- A frame waits although the station is awake. -/
def LateMgmt (s : Sta) : Prop := s.sleep = false ∧ s.psqMgmt ≠ []
def LateData (s : Sta) : Prop := s.sleep = false ∧ s.psqData ≠ []

def Tx.announces : Tx → Prop
  | .apsd | .pvb => True
  | _ => False

/-- The thread still sends a PVB of 1. -/
def Announces : Pc → Prop
  | .dataTx tx | .pollTx tx | .trigTx _ _ tx | .flushTx _ tx => tx.announces
  | .mgmtPvb => True
  | _ => False

/-- The thread still looks at the queues to send a PVB of 0, or has found them empty. -/
def Clears : Pc → Prop
  | .pollSet _ | .pollSend _ | .pollTx _ | .pollClear | .pollCheck | .pollPvb => True
  | .trigSet _ u _ | .trigSend _ u _ | .trigTx _ u _ | .trigClear _ u => u.isPsqEmpty = true
  | .trigPvb _ _ => True
  | .flushSend _ _ | .flushMgmt _ | .flushTx _ _ | .flushData _ | .flushApsd | .flushPvb => True
  | _ => False

/-- The thread still empties the management queue of a station that woke up. -/
def FlushesMgmt : Pc → Prop
  | .rxDecide r | .rxCompare r => r.prevPs = true
  | .flushStart | .flushSend _ _ | .flushMgmt _ => True
  | _ => False

def FlushesData : Pc → Prop
  | .flushTx _ _ | .flushData _ => True
  | pc => FlushesMgmt pc

/-- The PVB value a thread is about to send. -/
def pvbOf : Pc → Option Bool
  | .dataTx .pvb | .pollTx .pvb | .trigTx _ _ .pvb | .flushTx _ .pvb | .mgmtPvb => some true
  | .pollPvb | .trigPvb _ _ | .flushPvb => some false
  | _ => none

def queues : Pc → Bool
  | .dataTx (.queue _) | .pollTx (.queue _) | .trigTx _ _ (.queue _) | .flushTx _ (.queue _)
  | .mgmtQueue _ => true
  | _ => false

/-- The previous power state a thread remembers as it marks the station awake. -/
def wakesFrom : Pc → Option Bool
  | .rxUpdate r => if r.psState then none else some r.prevPs
  | _ => none

/-- The step is not overtaken: a PVB command still says what the queues hold, a frame is
queued for a station that still sleeps, and a wake-up finds the power state it read. -/
structure Timely (s : Sta) (pc : Pc) : Prop where
  pvb : ∀ v∈pvbOf pc, v = !s.psqEmpty
  sleeping : queues pc = true → s.sleep = true
  woken : ∀ prevPs∈wakesFrom pc, prevPs = s.sleep

instance : Decidable (Timely s pc) :=
  decidable_of_iff ((∀ v∈pvbOf pc, v = !s.psqEmpty) ∧ (queues pc = true → s.sleep = true) ∧
      ∀ prevPs∈wakesFrom pc, prevPs = s.sleep)
    ⟨fun h => ⟨h.1, h.2.1, h.2.2⟩, fun h => ⟨h.pvb, h.sleeping, h.woken⟩⟩

structure MoveOk (s : Sta) (pc : Pc) (m : Sta × Pc) : Prop where
  untold : Respects Untold Announces s pc m
  stale : Respects Stale Clears s pc m
  lateMgmt : Respects LateMgmt FlushesMgmt s pc m
  lateData : Respects LateData FlushesData s pc m

theorem respects_of {Bad : Sta → Prop} {Obliged : Pc → Prop} {m : Sta × Pc}
    (hb : Bad m.1 → Bad s) (ho : Bad s → Obliged pc → Obliged m.2) :
    Respects Bad Obliged s pc m := by
  intro hbad
  by_cases h : Obliged pc
  · exact Or.inl (ho (hb hbad) h)
  · exact Or.inr ⟨hb hbad, h⟩

theorem MoveOk.quiet {s' : Sta} {pc' : Pc} (hdata : s'.psqData = s.psqData)
    (hmgmt : s'.psqMgmt = s.psqMgmt) (hpvb : s'.pvb = s.pvb) (hsleep : s'.sleep = s.sleep)
    (ha : Announces pc → Announces pc') (hc : Stale s → Clears pc → Clears pc')
    (hm : LateMgmt s → FlushesMgmt pc → FlushesMgmt pc')
    (hd : LateData s → FlushesData pc → FlushesData pc') : MoveOk s pc (s', pc') := by
  have hempty : s'.psqEmpty = s.psqEmpty := by simp only [Sta.psqEmpty, hdata, hmgmt]
  refine ⟨respects_of ?_ fun _ => ha, respects_of ?_ hc, respects_of ?_ hm, respects_of ?_ hd⟩
  · rintro ⟨h, hp⟩
    exact ⟨hempty ▸ h, hpvb ▸ hp⟩
  · rintro ⟨h, hp⟩
    exact ⟨hempty ▸ h, hpvb ▸ hp⟩
  · rintro ⟨h, hq⟩
    exact ⟨hsleep ▸ h, hmgmt ▸ hq⟩
  · rintro ⟨h, hq⟩
    exact ⟨hsleep ▸ h, hdata ▸ hq⟩

theorem MoveOk.free {s' : Sta} {pc' : Pc} (hdata : s'.psqData = s.psqData)
    (hmgmt : s'.psqMgmt = s.psqMgmt) (hpvb : s'.pvb = s.pvb) (hsleep : s'.sleep = s.sleep)
    (ha : ¬ Announces pc) (hc : ¬ Clears pc) (hm : ¬ FlushesMgmt pc) (hd : ¬ FlushesData pc) :
    MoveOk s pc (s', pc') :=
  MoveOk.quiet hdata hmgmt hpvb hsleep (fun h => absurd h ha) (fun _ h => absurd h hc)
    (fun _ h => absurd h hm) fun _ h => absurd h hd

theorem MoveOk.pvb {v : Bool} {pc' : Pc} (hv : v = !s.psqEmpty)
    (hm : FlushesMgmt pc → FlushesMgmt pc') (hd : FlushesData pc → FlushesData pc') :
    MoveOk s pc ({ s with pvb := v }, pc') := by
  refine ⟨?_, ?_, respects_of id fun _ => hm, respects_of id fun _ => hd⟩
  · rintro ⟨h, hp⟩
    have he : s.psqEmpty = false := h
    rw [he] at hv
    cases hv.symm.trans hp
  · rintro ⟨h, hp⟩
    have he : s.psqEmpty = true := h
    rw [he] at hv
    cases hv.symm.trans hp

/-- A frame queued for a sleeping station; the first one is announced. -/
theorem MoveOk.queued {s' : Sta} {pc' : Pc} (hne : s'.psqEmpty = false)
    (hpvb : s'.pvb = s.pvb) (hs' : s'.sleep = true) (hno : ¬ Announces pc)
    (ha : s.psqEmpty = true → Announces pc') : MoveOk s pc (s', pc') := by
  refine ⟨?_, ?_, ?_, ?_⟩
  · rintro ⟨_, hp⟩
    cases he : s.psqEmpty with
    | true => exact Or.inl (ha he)
    | false => exact Or.inr ⟨⟨he, hpvb ▸ hp⟩, hno⟩
  · rintro ⟨h, _⟩
    cases hne.symm.trans h
  · rintro ⟨h, _⟩
    cases hs'.symm.trans h
  · rintro ⟨h, _⟩
    cases hs'.symm.trans h

/-- A frame taken off a queue; whoever takes the last one clears the PVB. -/
theorem MoveOk.took {s' : Sta} {pc' : Pc} (hne : s.psqEmpty = false) (hpvb : s'.pvb = s.pvb)
    (hsleep : s'.sleep = s.sleep) (hmgmt : s'.psqMgmt ≠ [] → s.psqMgmt ≠ [])
    (hdata : s'.psqData ≠ [] → s.psqData ≠ []) (hno : ¬ Announces pc)
    (hc : s'.psqEmpty = true → Clears pc')
    (hm : s'.psqMgmt ≠ [] → FlushesMgmt pc → FlushesMgmt pc')
    (hd : s'.psqData ≠ [] → FlushesData pc → FlushesData pc') : MoveOk s pc (s', pc') := by
  refine ⟨?_, fun h => Or.inl (hc h.1), ?_, ?_⟩
  · rintro ⟨_, hp⟩
    exact Or.inr ⟨⟨hne, hpvb ▸ hp⟩, hno⟩
  · rintro ⟨h, hq⟩
    by_cases hf : FlushesMgmt pc
    · exact Or.inl (hm hq hf)
    · exact Or.inr ⟨⟨hsleep ▸ h, hmgmt hq⟩, hf⟩
  · rintro ⟨h, hq⟩
    by_cases hf : FlushesData pc
    · exact Or.inl (hd hq hf)
    · exact Or.inr ⟨⟨hsleep ▸ h, hdata hq⟩, hf⟩

theorem psqEmpty_data (h : s.psqData ≠ []) : s.psqEmpty = false := by
  cases hd : s.psqData with
  | nil => exact absurd hd h
  | cons d ds => simp [Sta.psqEmpty, hd]

theorem psqEmpty_mgmt (h : s.psqMgmt ≠ []) : s.psqEmpty = false := by
  cases hm : s.psqMgmt with
  | nil => exact absurd hm h
  | cons m ms => simp [Sta.psqEmpty, hm]

theorem psqQueueEnqueue_ne {α : Type} {maxDepth : Nat} {psq psq' : List (PsBuf α)} {frame : α}
    {alloc : Bool} (h : psQueueEnqueue maxDepth psq frame alloc = some psq') : psq' ≠ [] := by
  unfold psQueueEnqueue at h
  split at h
  · cases h
  · split at h
    · cases h
      simp
    · cases h

/-- `ath6kl_data_tx` called from an operation whose duties go on after it returns. -/
structure Nested (inside : Tx → Pc) (after : Pc) : Prop where
  announces : ∀ tx, Announces (inside tx) ↔ tx.announces
  clears : ∀ tx tx', Clears (inside tx) → Clears (inside tx')
  clearsAfter : ∀ tx, Clears (inside tx) → Clears after
  mgmt : ∀ tx tx', FlushesMgmt (inside tx) → FlushesMgmt (inside tx')
  mgmtAfter : ∀ tx, FlushesMgmt (inside tx) → FlushesMgmt after
  data : ∀ tx tx', FlushesData (inside tx) → FlushesData (inside tx')
  dataAfter : ∀ tx, FlushesData (inside tx) → FlushesData after

section Nested
variable {inside : Tx → Pc} {after : Pc}

theorem Nested.done (hn : Nested inside after) {s' : Sta} {tx : Tx} (ht : ¬ tx.announces)
    (hdata : s'.psqData = s.psqData) (hmgmt : s'.psqMgmt = s.psqMgmt) (hpvb : s'.pvb = s.pvb)
    (hsleep : s'.sleep = s.sleep) : MoveOk s (inside tx) (s', after) :=
  MoveOk.quiet hdata hmgmt hpvb hsleep (fun h => absurd ((hn.announces tx).mp h) ht)
    (fun _ => hn.clearsAfter tx) (fun _ => hn.mgmtAfter tx) fun _ => hn.dataAfter tx

theorem Nested.on (hn : Nested inside after) {s' : Sta} {tx tx' : Tx}
    (ht : tx.announces → tx'.announces) (hdata : s'.psqData = s.psqData)
    (hmgmt : s'.psqMgmt = s.psqMgmt) (hpvb : s'.pvb = s.pvb) (hsleep : s'.sleep = s.sleep) :
    MoveOk s (inside tx) (s', inside tx') :=
  MoveOk.quiet hdata hmgmt hpvb hsleep
    (fun h => (hn.announces tx').mpr (ht ((hn.announces tx).mp h)))
    (fun _ => hn.clears tx tx') (fun _ => hn.mgmt tx tx') fun _ => hn.data tx tx'

theorem Nested.unicastSleep (hn : Nested inside after) (frame : DataFrame) (alloc : Bool)
    (hs : s.sleep = true) : MoveOk s (inside (.queue frame))
      (resume inside after (unicastSleep cfg s frame alloc)) := by
  unfold PowerSave.unicastSleep
  cases hq : psQueueEnqueue psQueueMaxDepth s.psqData frame alloc with
  | none => exact hn.done id rfl rfl rfl rfl
  | some psq =>
    have hno : ¬ Announces (inside (.queue frame)) := fun h => (hn.announces _).mp h
    have hne : Sta.psqEmpty { s with psqData := psq } = false :=
      psqEmpty_data (psqQueueEnqueue_ne hq)
    cases he : s.psqEmpty with
    | true =>
      refine MoveOk.queued hne rfl hs hno fun _ => (hn.announces _).mpr ?_
      by_cases ht : isTrigger cfg frame = true
      · rw [if_pos ht]
        trivial
      · rw [if_neg ht]
        trivial
    | false => exact MoveOk.queued hne rfl hs hno (fun h => absurd (he.symm.trans h) (by decide))

theorem Nested.txStep (hn : Nested inside after) (tx : Tx) (alloc : Bool)
    (hpvb : tx = .pvb → s.psqEmpty = false) (hq : ∀ f, tx = .queue f → s.sleep = true) :
    MoveOk s (inside tx) (resume inside after (txStep cfg s alloc tx)) := by
  cases tx with
  | test frame =>
    simp only [PowerSave.txStep]
    split
    · split
      · exact hn.on id rfl rfl rfl rfl
      · exact hn.on id rfl rfl rfl rfl
    · exact hn.done id rfl rfl rfl rfl
  | queue frame => exact hn.unicastSleep frame alloc (hq frame rfl)
  | awake frame => exact hn.done id rfl rfl rfl rfl
  | apsd => exact hn.on (fun _ => trivial) rfl rfl rfl rfl
  | pvb =>
    have hv : true = !s.psqEmpty := by rw [hpvb rfl]; rfl
    exact MoveOk.pvb hv (hn.mgmtAfter _) (hn.dataAfter _)

end Nested

theorem nested_dataTx : Nested .dataTx .idle :=
  ⟨fun _ => Iff.rfl, fun _ _ => id, fun _ => id, fun _ _ => id, fun _ => id, fun _ _ => id,
    fun _ => id⟩

theorem nested_pollTx : Nested .pollTx .pollClear :=
  ⟨fun _ => Iff.rfl, fun _ _ => id, fun _ => id, fun _ _ => id, fun _ => id, fun _ _ => id,
    fun _ => id⟩

theorem nested_trigTx (r : Rx) (u : Uapsd) : Nested (.trigTx r u) (.trigClear r u) :=
  ⟨fun _ => Iff.rfl, fun _ _ => id, fun _ => id, fun _ _ => id, fun _ => id, fun _ _ => id,
    fun _ => id⟩

theorem nested_flushTx (atStart : Bool) : Nested (.flushTx atStart) (.flushData atStart) :=
  ⟨fun _ => Iff.rfl, fun _ _ => id, fun _ => id, fun _ _ => id, fun _ => id, fun _ _ => id,
    fun _ => id⟩

theorem mgmtSleep_ok (frame : MgmtFrame) (alloc : Bool) (hs : s.sleep = true) :
    MoveOk s (.mgmtQueue frame) (mgmtSleep s frame alloc) := by
  unfold mgmtSleep
  cases hq : psQueueEnqueue psQueueNoDepth s.psqMgmt frame alloc with
  | none => exact MoveOk.quiet rfl rfl rfl rfl id (fun _ => id) (fun _ => id) fun _ => id
  | some psq =>
    have hne : Sta.psqEmpty { s with psqMgmt := psq } = false :=
      psqEmpty_mgmt (psqQueueEnqueue_ne hq)
    refine MoveOk.queued hne rfl hs id fun he => ?_
    rw [if_pos he]
    trivial

theorem pollTakeFrame_ok : MoveOk s .pollTake (pollTakeFrame s) := by
  unfold pollTakeFrame
  cases hm : s.psqMgmt with
  | cons m ms =>
    exact MoveOk.took (psqEmpty_mgmt (by simp [hm])) rfl rfl (fun _ => by simp [hm]) id id
      (fun _ => trivial) (fun _ => id) fun _ => id
  | nil =>
    cases hd : s.psqData with
    | cons d ds =>
      exact MoveOk.took (psqEmpty_data (by simp [hd])) rfl rfl (absurd rfl) (fun _ => by simp [hd]) id
        (fun _ => trivial) (fun _ => id) fun _ => id
    | nil => exact MoveOk.quiet rfl rfl rfl rfl id (fun _ => id) (fun _ => id) fun _ => id

theorem clears_trigLoop (r : Rx) {u : Uapsd} (h : u.isPsqEmpty = true) :
    Clears (trigLoop r u) := by
  simp [trigLoop, h, Clears]

theorem trigTakeFrame_ok (r : Rx) (u : Uapsd) :
    MoveOk s (.trigTake r u) (trigTakeFrame s r u) := by
  unfold trigTakeFrame
  cases hm : s.psqMgmt with
  | cons m ms =>
    exact MoveOk.took (psqEmpty_mgmt (by simp [hm])) rfl rfl (fun _ => by simp [hm]) id id
      id (fun _ => False.elim) fun _ => False.elim
  | nil =>
    cases hd : s.psqData with
    | cons d ds =>
      exact MoveOk.took (psqEmpty_data (by simp [hd])) rfl rfl (absurd rfl) (fun _ => by simp [hd]) id
        id (fun _ => False.elim) fun _ => False.elim
    | nil =>
      exact MoveOk.quiet rfl rfl rfl rfl False.elim (fun _ => False.elim) (fun _ => False.elim)
        fun _ => False.elim

theorem flushTakeData_ok (atStart : Bool) (hno : ¬ Announces pc)
    (hm : FlushesMgmt pc → s.psqMgmt = []) : MoveOk s pc (flushTakeData s atStart) := by
  unfold flushTakeData
  cases hd : s.psqData with
  | cons d ds =>
    exact MoveOk.took (psqEmpty_data (by simp [hd])) rfl rfl id (fun _ => by simp [hd])
      hno (fun _ => trivial) (fun hne hf => absurd (hm hf) hne) fun _ _ => trivial
  | nil =>
    refine MoveOk.quiet rfl rfl rfl rfl (fun h => absurd h hno) (fun _ _ => ?_)
      (fun hl hf => absurd (hm hf) hl.2) fun hl => absurd hd hl.2
    cases atStart <;> trivial

theorem flushTakeMgmt_ok (atStart : Bool) (hno : ¬ Announces pc) :
    MoveOk s pc (flushTakeMgmt s atStart) := by
  unfold flushTakeMgmt
  cases hm : s.psqMgmt with
  | cons m ms =>
    exact MoveOk.took (psqEmpty_mgmt (by simp [hm])) rfl rfl (fun _ => by simp [hm]) id hno
      (fun _ => trivial) (fun _ _ => trivial) fun _ _ => trivial
  | nil => exact flushTakeData_ok atStart hno fun _ => hm

theorem rxUpdate_ok (r : Rx) (h : r.psState = false → r.prevPs = s.sleep) :
    MoveOk s (.rxUpdate r) ({ s with sleep := r.psState }, .rxDecide r) := by
  refine ⟨respects_of id fun _ => False.elim, respects_of id fun _ => False.elim, ?_, ?_⟩
  · rintro ⟨hs, hq⟩
    cases hsleep : s.sleep with
    | true => exact Or.inl ((h hs).trans hsleep)
    | false => exact Or.inr ⟨⟨hsleep, hq⟩, id⟩
  · rintro ⟨hs, hq⟩
    cases hsleep : s.sleep with
    | true => exact Or.inl ((h hs).trans hsleep)
    | false => exact Or.inr ⟨⟨hsleep, hq⟩, id⟩

theorem rxCompare_ok (r : Rx) :
    MoveOk s (.rxCompare r) (s, if r.prevPs && !s.sleep then .flushStart else .idle) := by
  have hflush : s.sleep = false → r.prevPs = true →
      (if r.prevPs && !s.sleep then Pc.flushStart else .idle) = .flushStart := by
    intro hs hr
    rw [hs, hr]
    rfl
  refine MoveOk.quiet rfl rfl rfl rfl False.elim (fun _ => False.elim) ?_ ?_
  · intro hl hr
    rw [hflush hl.1 hr]
    trivial
  · intro hl hr
    rw [hflush hl.1 hr]
    trivial

theorem rxDecide_ok (r : Rx) : MoveOk s (.rxDecide r)
    (s, if s.sleep && r.triggerState then .trigLook r else .rxCompare r) := by
  have hawake : s.sleep = false →
      (if s.sleep && r.triggerState then Pc.trigLook r else .rxCompare r) = .rxCompare r := by
    intro hs
    rw [hs]
    rfl
  refine MoveOk.quiet rfl rfl rfl rfl False.elim (fun _ => False.elim) ?_ ?_
  · intro hl hr
    rw [hawake hl.1]
    exact hr
  · intro hl hr
    rw [hawake hl.1]
    exact hr

theorem move_ok (h : Timely s pc) (alloc : Bool) : MoveOk s pc (move cfg s pc alloc) := by
  have hpvb : ∀ {v}, pvbOf pc = some v → v = !s.psqEmpty := fun hv => h.pvb _ hv
  have hone : pvbOf pc = some true → s.psqEmpty = false := fun hv => by
    simpa using (hpvb hv).symm
  have hq : queues pc = true → s.sleep = true := h.sleeping
  cases pc with
  | idle => exact MoveOk.free rfl rfl rfl rfl id id id id
  | dataTx tx =>
    exact nested_dataTx.txStep tx alloc (fun ht => hone (ht ▸ rfl)) fun f ht => hq (ht ▸ rfl)
  | mgmtTest frame =>
    simp only [move]
    split
    · split
      · exact MoveOk.free rfl rfl rfl rfl id id id id
      · exact MoveOk.free rfl rfl rfl rfl id id id id
    · exact MoveOk.free rfl rfl rfl rfl id id id id
  | mgmtQueue frame => exact mgmtSleep_ok frame alloc (hq rfl)
  | mgmtMore frame => exact MoveOk.free rfl rfl rfl rfl id id id id
  | mgmtPvb => exact MoveOk.pvb (hpvb rfl) id id
  | pollTake => exact pollTakeFrame_ok
  | pollSet item =>
    cases item with
    | data frame => exact MoveOk.quiet rfl rfl rfl rfl id (fun _ => id) (fun _ => id) fun _ => id
    | mgmt frame => exact MoveOk.quiet rfl rfl rfl rfl id (fun _ => id) (fun _ => id) fun _ => id
  | pollSend frame => exact MoveOk.quiet rfl rfl rfl rfl id (fun _ => id) (fun _ => id) fun _ => id
  | pollTx tx =>
    exact nested_pollTx.txStep tx alloc (fun ht => hone (ht ▸ rfl)) fun f ht => hq (ht ▸ rfl)
  | pollClear => exact MoveOk.quiet rfl rfl rfl rfl id (fun _ => id) (fun _ => id) fun _ => id
  | pollCheck =>
    refine MoveOk.quiet rfl rfl rfl rfl False.elim (fun hstale _ => ?_) (fun _ => False.elim)
      fun _ => False.elim
    rw [if_pos hstale.1]
    trivial
  | pollPvb => exact MoveOk.pvb (hpvb rfl) id id
  | trigLook r => exact MoveOk.free rfl rfl rfl rfl id id id id
  | trigTake r u => exact trigTakeFrame_ok r u
  | trigSet r u item =>
    cases item with
    | data frame => exact MoveOk.quiet rfl rfl rfl rfl id (fun _ => id) (fun _ => id) fun _ => id
    | mgmt frame => exact MoveOk.quiet rfl rfl rfl rfl id (fun _ => id) (fun _ => id) fun _ => id
  | trigSend r u frame =>
    exact MoveOk.quiet rfl rfl rfl rfl id (fun _ => id) (fun _ => id) fun _ => id
  | trigTx r u tx =>
    exact (nested_trigTx r u).txStep tx alloc (fun ht => hone (ht ▸ rfl)) fun f ht => hq (ht ▸ rfl)
  | trigClear r u =>
    exact MoveOk.quiet rfl rfl rfl rfl False.elim (fun _ => clears_trigLoop r)
      (fun _ => False.elim) fun _ => False.elim
  | trigPvb r u => exact MoveOk.pvb (hpvb rfl) False.elim False.elim
  | trigApsd r u => exact MoveOk.free rfl rfl rfl rfl id id id id
  | rxRead psState triggerState => exact MoveOk.free rfl rfl rfl rfl id id id id
  | rxUpdate r =>
    refine rxUpdate_ok r fun hs => h.woken _ ?_
    simp [wakesFrom, hs]
  | rxDecide r => exact rxDecide_ok r
  | rxCompare r => exact rxCompare_ok r
  | flushStart => exact flushTakeMgmt_ok _ id
  | flushSend atStart frame =>
    exact MoveOk.quiet rfl rfl rfl rfl id (fun _ => id) (fun _ => id) fun _ => id
  | flushMgmt atStart => exact flushTakeMgmt_ok _ id
  | flushTx atStart tx =>
    exact (nested_flushTx atStart).txStep tx alloc (fun ht => hone (ht ▸ rfl))
      fun f ht => hq (ht ▸ rfl)
  | flushData atStart => exact flushTakeData_ok _ id False.elim
  | flushApsd => exact MoveOk.quiet rfl rfl rfl rfl id (fun _ => id) (fun _ => id) fun _ => id
  | flushPvb => exact MoveOk.pvb (hpvb rfl) id id

structure Covers (s : Ap) : Prop where
  untold : Covered Untold Announces s
  stale : Covered Stale Clears s
  lateMgmt : Covered LateMgmt FlushesMgmt s
  lateData : Covered LateData FlushesData s

theorem Covers.next {s : Ap} (h : Covers s) {thread : Nat} {alloc : Bool}
    (ht : ∀ pc∈s.threads[thread]?, Timely s.shared pc) :
    Covers (s.next (move cfg) thread alloc) where
  untold := h.untold.next fun pc hp => (move_ok (ht pc hp) alloc).untold
  stale := h.stale.next fun pc hp => (move_ok (ht pc hp) alloc).stale
  lateMgmt := h.lateMgmt.next fun pc hp => (move_ok (ht pc hp) alloc).lateMgmt
  lateData := h.lateData.next fun pc hp => (move_ok (ht pc hp) alloc).lateData

theorem psQueueAging_ne {α : Type} (ageCycle : Nat) {psq : List (PsBuf α)}
    (h : psQueueAging ageCycle psq ≠ []) : psq ≠ [] := by
  rintro rfl
  exact h rfl

/-- What the aging handler does: it only takes frames away, and sends its PVB command under
the lock. -/
structure Aged (s s' : Sta) : Prop where
  sleep : s'.sleep = s.sleep
  data : s'.psqData ≠ [] → s.psqData ≠ []
  mgmt : s'.psqMgmt ≠ [] → s.psqMgmt ≠ []
  cleared : s'.psqEmpty = true → s'.pvb = false
  kept : s'.psqEmpty = false → s'.pvb = s.pvb

theorem ageHandler_aged (s : Sta) : Aged s (ageHandler s) := by
  unfold ageHandler
  dsimp only
  cases hd : psQueueAging psQueueMaxAge s.psqData with
  | cons d ds =>
    have hne : s.psqData ≠ [] :=
      psQueueAging_ne psQueueMaxAge (by rw [hd]; exact List.cons_ne_nil _ _)
    exact ⟨rfl, fun _ => hne, id, by rintro ⟨⟩, fun _ => rfl⟩
  | nil =>
    cases hm : psQueueAging psQueueMaxAge s.psqMgmt with
    | cons m ms =>
      have hne : s.psqMgmt ≠ [] :=
        psQueueAging_ne psQueueMaxAge (by rw [hm]; exact List.cons_ne_nil _ _)
      exact ⟨rfl, absurd rfl, fun _ => hne, by rintro ⟨⟩, fun _ => rfl⟩
    | nil => exact ⟨rfl, absurd rfl, absurd rfl, fun _ => rfl, by rintro ⟨⟩⟩

theorem Aged.psqEmpty {s' : Sta} (h : Aged s s') (he : s'.psqEmpty = false) :
    s.psqEmpty = false := by
  cases hd : s'.psqData with
  | cons d ds => exact psqEmpty_data (h.data (by rw [hd]; exact List.cons_ne_nil _ _))
  | nil =>
    cases hm : s'.psqMgmt with
    | cons m ms => exact psqEmpty_mgmt (h.mgmt (by rw [hm]; exact List.cons_ne_nil _ _))
    | nil => simp [Sta.psqEmpty, hd, hm] at he

theorem Covers.age {s : Ap} (h : Covers s) : Covers ⟨ageHandler s.shared, s.threads⟩ := by
  have ha := ageHandler_aged s.shared
  refine ⟨h.untold.outside ?_, h.stale.outside ?_, h.lateMgmt.outside ?_, h.lateData.outside ?_⟩
  · rintro ⟨he, hp⟩
    exact ⟨ha.psqEmpty he, (ha.kept he).symm.trans hp⟩
  · rintro ⟨he, hp⟩
    cases (ha.cleared he).symm.trans hp
  · rintro ⟨hs, hne⟩
    exact ⟨ha.sleep.symm.trans hs, ha.mgmt hne⟩
  · rintro ⟨hs, hne⟩
    exact ⟨ha.sleep.symm.trans hs, ha.data hne⟩

/-- No step of the run is overtaken. -/
def InTime (s : Ap) : Event → Prop
  | .next thread _ => ∀ pc∈s.threads[thread]?, Timely s.shared pc
  | _ => True

instance (s : Ap) : DecidablePred (InTime s)
  | .next thread _ => inferInstanceAs (Decidable (∀ pc∈s.threads[thread]?, Timely s.shared pc))
  | .start _ => isTrue trivial
  | .age => isTrue trivial

theorem Covers.step {s : Ap} (h : Covers s) {e : Event} (he : InTime s e) :
    Covers (step cfg s e) := by
  cases e with
  | start op =>
    exact ⟨h.untold.spawn _, h.stale.spawn _, h.lateMgmt.spawn _, h.lateData.spawn _⟩
  | next thread alloc => exact h.next he
  | age => exact h.age

/-- An associated station, awake, with nothing queued. -/
def fresh : Ap := ⟨{}, []⟩

theorem covers_fresh : Covers fresh :=
  ⟨by rintro ⟨⟨⟩, _⟩, by rintro ⟨_, ⟨⟩⟩, fun h => absurd rfl h.2, fun h => absurd rfl h.2⟩

/-- No operation is in progress. -/
def AtRest (s : Ap) : Prop := ∀ pc∈s.threads, pc = .idle

instance (s : Ap) : Decidable (AtRest s) := List.decidableBAll _ _

theorem Covers.atRest {s : Ap} (h : Covers s) (hr : AtRest s) :
    s.shared.pvb = !s.shared.psqEmpty ∧
    (s.shared.sleep = false → s.shared.psqData = [] ∧ s.shared.psqMgmt = []) := by
  have hfree : ∀ {Obliged : Pc → Prop}, ¬ Obliged .idle → ∀ pc∈s.threads, ¬ Obliged pc :=
    fun hi pc hp => hr pc hp ▸ hi
  have hu := h.untold.good (hfree id)
  have hs := h.stale.good (hfree id)
  have hm := h.lateMgmt.good (hfree id)
  have hd := h.lateData.good (hfree id)
  refine ⟨?_, fun hsleep => ⟨?_, ?_⟩⟩
  · cases he : s.shared.psqEmpty with
    | true =>
      cases hp : s.shared.pvb with
      | true => exact absurd ⟨he, hp⟩ hs
      | false => rfl
    | false =>
      cases hp : s.shared.pvb with
      | true => rfl
      | false => exact absurd ⟨he, hp⟩ hu
  · by_contra hne
    exact hd ⟨hsleep, hne⟩
  · by_contra hne
    exact hm ⟨hsleep, hne⟩

/-- The traffic indication. In every run in which no step is overtaken, whenever no operation
is in progress the last PVB says whether frames wait, and none wait for a station awake. -/
theorem pvb_matches_queues {es : List Event} (h : AllSteps (step cfg) InTime fresh es)
    (hr : AtRest (run (step cfg) fresh es)) :
    ((run (step cfg) fresh es).shared.pvb = true ↔
      (run (step cfg) fresh es).shared.psqData ≠ [] ∨
      (run (step cfg) fresh es).shared.psqMgmt ≠ []) ∧
    ((run (step cfg) fresh es).shared.sleep = false →
      (run (step cfg) fresh es).shared.psqData = [] ∧
      (run (step cfg) fresh es).shared.psqMgmt = []) := by
  have hc : Covers (run (step cfg) fresh es) :=
    run_invariant_of (I := Covers) (fun _ _ hs he => hs.step he) covers_fresh h
  obtain ⟨hp, hq⟩ := hc.atRest hr
  refine ⟨?_, hq⟩
  rw [hp]
  simp only [Sta.psqEmpty, Bool.not_eq_true', Bool.and_eq_false_iff, List.isEmpty_eq_false_iff]

/-- Steps `n` times. -/
def steps (thread n : Nat) : List Event := List.replicate n (.next thread true)

/-- The station falls asleep and a frame is queued for it. -/
def sleepThenFrame : List Event :=
  .start (.rx true false) :: steps 0 4 ++ .start (.dataTx ⟨1, none⟩) :: steps 1 3

theorem pvb_matches_queues_sleeping :
    (run (step {}) fresh sleepThenFrame).shared.psqData ≠ [] ∧
    (run (step {}) fresh sleepThenFrame).shared.pvb = true := by
  have hin : AllSteps (step {}) InTime fresh sleepThenFrame := by decide
  have hr : AtRest (run (step {}) fresh sleepThenFrame) := by decide
  have h := pvb_matches_queues hin hr
  have hq : (run (step {}) fresh sleepThenFrame).shared.psqData ≠ [] := by decide
  exact ⟨hq, h.1.mpr (Or.inl hq)⟩

/-- A PS-Poll fetches the frame and finds the queues empty; before it clears the PVB the next
frame is queued and announced. -/
def lateClear : List Event :=
  sleepThenFrame ++ .start .pspoll :: steps 2 6 ++ .start (.dataTx ⟨2, none⟩) :: steps 3 3 ++
    steps 2 1

/-- A frame finds the station asleep and is queued after it woke up and was flushed. -/
def lateFrame : List Event :=
  .start (.rx true false) :: steps 0 4 ++ .start (.dataTx ⟨1, none⟩) :: steps 1 1 ++
    .start (.rx false false) :: steps 2 7 ++ steps 1 2

/-- At rest a frame waits that the station was never told about; a frame waits although the
station is awake. -/
theorem pvb_disagrees :
    (AtRest (run (step {}) fresh lateClear) ∧
      (run (step {}) fresh lateClear).shared.pvb = false ∧
      (run (step {}) fresh lateClear).shared.psqData = [⟨⟨2, none⟩, 0⟩]) ∧
    (AtRest (run (step {}) fresh lateFrame) ∧
      (run (step {}) fresh lateFrame).shared.sleep = false ∧
      (run (step {}) fresh lateFrame).shared.psqData = [⟨⟨1, none⟩, 0⟩]) := by
  decide

end Ath6kl.PowerSave
