import Ath6kl.PowerSavePvb
import Mathlib.Data.List.TakeDrop

/-! The U-APSD service period (`txrx.c`): `ath6kl_uapsd_trigger_frame_rx` from its call to its
return, with no other operation in between. -/
namespace Ath6kl.UapsdPeriod
open Lib.Interleave Lib.Machine PowerSave

/-- `ath6kl_data_tx` while `STA_PS_APSD_TRIGGER` is set. -/
def dataTx (s : Sta) (frame : DataFrame) : Sta :=
  { s with sent := s.sent ++ [.data frame (if s.sleep then unicastAwakeFlags s else {})] }

/-- A turn of the loop once it has taken a frame; `n` is `num_frames_to_deliver` behind it. -/
def serve (s : Sta) (isPsqEmpty : Bool) (n : Nat) (item : Item) : Sta :=
  let s := { s with
    apsdTrigger := true
    apsdEosp := s.apsdEosp || isPsqEmpty || n = 0 }
  let s := match item with
    | .mgmt frame => sendMgmt s frame
    | .data frame => dataTx s frame
  { s with apsdTrigger := false, apsdEosp := false }

/-- The loop for `num_frames_to_deliver`, with `is_psq_empty`. -/
def serviceLoop : Nat → Bool → Sta → Sta × Bool
  | 0, isPsqEmpty, s => (s, isPsqEmpty)
  | n+1, isPsqEmpty, s =>
    if isPsqEmpty then (s, isPsqEmpty)
    else match s.psqMgmt, s.psqData with
      | m::ms, _ =>
        let s := { s with psqMgmt := ms }
        serviceLoop n s.psqEmpty (serve s s.psqEmpty n (.mgmt m.frame))
      | [], d::ds =>
        let s := { s with psqData := ds }
        serviceLoop n s.psqEmpty (serve s s.psqEmpty n (.data d.frame))
      | [], [] => (s, true)

/-- The station after the call, and whether `ath6kl_wmi_set_pvb_cmd` sent 0. -/
structure Period where
  sta : Sta
  pvbZero : Bool

def uapsdTriggerFrameRx (cfg : Config) (s : Sta) : Period :=
  let (s', isPsqEmpty) := serviceLoop (maxFramesToDeliver cfg) s.psqEmpty s
  if isPsqEmpty then
    ⟨{ s' with pvb := false, apsdTraffic := (false, s.psqEmpty) }, true⟩
  else ⟨s', false⟩

/-- The station sleeps and none of the flags of a delivery is set. -/
structure Resting (s : Sta) : Prop where
  sleep : s.sleep = true
  polled : s.polled = false
  trigger : s.apsdTrigger = false
  eosp : s.apsdEosp = false

/-- The frames that wait, in the order in which they are to be sent. -/
def waiting (s : Sta) : List Item :=
  s.psqMgmt.map (fun b => Item.mgmt b.frame) ++ s.psqData.map (fun b => Item.data b.frame)

/-- A frame as the station gets it. -/
structure Marked where
  item : Item
  more : Bool
  eosp : Bool
deriving DecidableEq

/-- Only the header of a data frame carries the marks. -/
def marked : Sent → Marked
  | .data frame flags => ⟨.data frame, flags.more, flags.eosp⟩
  | .goProbeResponse frame => ⟨.mgmt frame, false, false⟩
  | .action frame => ⟨.mgmt frame, false, false⟩

def maxSp (cfg : Config) : Nat := cfg.apsdInfo / 16 % 16

/-- How many of `total` frames a service period delivers; 0 stands for all. -/
def quota (cfg : Config) (total : Nat) : Nat :=
  if maxSp cfg = 0 then total else min (maxSp cfg) total

structure Served (cfg : Config) (s : Sta) (p : Period) : Prop where
  frames : ∃ out, p.sta.sent = s.sent ++ out ∧
    out.map marked = ((waiting s).take (quota cfg (waiting s).length)).mapIdx fun i x =>
      ⟨x, decide (i+1 < (waiting s).length), decide (i+1 = quota cfg (waiting s).length)⟩
  left : waiting p.sta = (waiting s).drop (quota cfg (waiting s).length)
  flags : p.sta.apsdTrigger = false ∧ p.sta.apsdEosp = false
  pvb : p.pvbZero = true ↔ waiting p.sta = []

/-- No management frame waits, and a full delivery does not run into 0xFFFF. -/
def Deliverable (cfg : Config) (s : Sta) : Prop :=
  s.psqMgmt = [] ∧ (maxSp cfg ≠ 0 ∨ s.psqData.length ≤ 0xFFFF)

def send (more eosp : Bool) : Item → Sent
  | .data frame => .data frame { more := more, eosp := eosp, triggered := true }
  | .mgmt frame => if frame.probeResp then .goProbeResponse frame else .action frame

def push (s : Sta) (x : Sent) : Sta := { s with sent := s.sent ++ [x] }

/-- What the loop sends of the frames that wait. -/
def sends : Nat → List Item → List Sent
  | 0, _ => []
  | _, [] => []
  | n+1, x::rest => send (!rest.isEmpty) (rest.isEmpty || n = 0) x::sends n rest

/-- The station after `n` turns. -/
def served (n : Nat) (s : Sta) : Sta :=
  { s with
    psqMgmt := s.psqMgmt.drop n
    psqData := s.psqData.drop (n - s.psqMgmt.length)
    sent := s.sent ++ sends n (waiting s) }

section Loop
variable {s : Sta}

theorem psqEmpty_eq (s : Sta) : s.psqEmpty = (waiting s).isEmpty := by
  cases hd : s.psqData <;> cases hm : s.psqMgmt <;> simp [Sta.psqEmpty, waiting, hd, hm]

theorem waiting_served (n : Nat) (s : Sta) : waiting (served n s) = (waiting s).drop n := by
  simp [waiting, served, List.drop_append, List.map_drop]

theorem length_sends (n : Nat) (l : List Item) : (sends n l).length = min n l.length := by
  induction l generalizing n with
  | nil => cases n <;> rfl
  | cons x rest ih =>
    cases n with
    | zero => rw [Nat.zero_min]; rfl
    | succ n => rw [sends, List.length_cons, ih, List.length_cons, Nat.succ_min_succ]

theorem served_zero (s : Sta) : served 0 s = s := by
  simp [served, sends]

theorem served_empty (n : Nat) (h : s.psqEmpty = true) : served n s = s := by
  have hw : waiting s = [] := List.isEmpty_iff.mp ((psqEmpty_eq s).symm.trans h)
  obtain ⟨hd, hm⟩ := Bool.and_eq_true_iff.mp h
  have hd := List.isEmpty_iff.mp hd
  have hm := List.isEmpty_iff.mp hm
  have hs : sends n ([] : List Item) = [] := by cases n <;> rfl
  simp only [served, hw, hs, hm, hd, List.drop_nil, List.append_nil]
  cases s
  simp_all

theorem waiting_mgmt {m : PsBuf MgmtFrame} {ms : List (PsBuf MgmtFrame)} (h : s.psqMgmt = m::ms) :
    waiting s = .mgmt m.frame::waiting { s with psqMgmt := ms } := by
  simp [waiting, h]

theorem waiting_data {d : PsBuf DataFrame} {ds : List (PsBuf DataFrame)} (hm : s.psqMgmt = [])
    (h : s.psqData = d::ds) :
    waiting s = .data d.frame::waiting { s with psqMgmt := [], psqData := ds } := by
  simp [waiting, h, hm]

theorem serve_eq (h : Resting s) (n : Nat) (item : Item) :
    serve s s.psqEmpty n item = push s (send (!s.psqEmpty) (s.psqEmpty || n = 0) item) := by
  obtain ⟨hsleep, hpolled, htrigger, heosp⟩ := h
  cases item with
  | mgmt frame => simp [push, serve, sendMgmt, send, htrigger, heosp]
  | data frame =>
    simp [push, serve, dataTx, send, unicastAwakeFlags, hsleep, hpolled, htrigger, heosp,
      Sta.psqEmpty]

theorem served_push {n : Nat} {x : Item} {t : Sta}
    (ht : { s with psqMgmt := t.psqMgmt, psqData := t.psqData } = t) (hw : waiting s = x::waiting t)
    (hm : t.psqMgmt.drop n = s.psqMgmt.drop (n+1))
    (hd : t.psqData.drop (n - t.psqMgmt.length) = s.psqData.drop (n+1 - s.psqMgmt.length)) :
    served n (push t (send (!t.psqEmpty) (t.psqEmpty || n = 0) x)) = served (n+1) s := by
  have hsent : t.sent = s.sent := (congrArg Sta.sent ht).symm
  calc
    _ = { t with
      psqMgmt := t.psqMgmt.drop n
      psqData := t.psqData.drop (n - t.psqMgmt.length)
      sent := t.sent ++ [send (!t.psqEmpty) (t.psqEmpty || n = 0) x] ++ sends n (waiting t) } := rfl
    _ = { t with
      psqMgmt := s.psqMgmt.drop (n+1)
      psqData := s.psqData.drop (n+1 - s.psqMgmt.length)
      sent := s.sent ++ sends (n+1) (waiting s) } := by
      rw [hm, hd, hw, sends, ← psqEmpty_eq, hsent, List.append_assoc]
      rfl
    _ = served (n+1) s := by
      rw [← ht]
      rfl

theorem serviceLoop_serve {n : Nat} {x : Item} {t : Sta}
    (ih : ∀ s, Resting s → serviceLoop n s.psqEmpty s = (served n s, (served n s).psqEmpty))
    (ht : Resting t) :
    serviceLoop n t.psqEmpty (serve t t.psqEmpty n x) =
      (served n (push t (send (!t.psqEmpty) (t.psqEmpty || n = 0) x)),
        (served n (push t (send (!t.psqEmpty) (t.psqEmpty || n = 0) x))).psqEmpty) := by
  rw [serve_eq ht]
  exact ih (push t _) ⟨ht.sleep, ht.polled, ht.trigger, ht.eosp⟩

theorem serviceLoop_eq (n : Nat) : ∀ s, Resting s →
    serviceLoop n s.psqEmpty s = (served n s, (served n s).psqEmpty) := by
  induction n with
  | zero =>
    intro s _
    rw [served_zero, serviceLoop]
  | succ n ih =>
    intro s h
    by_cases he : s.psqEmpty = true
    · rw [served_empty _ he, serviceLoop, if_pos he]
    rw [serviceLoop, if_neg he]
    cases hm : s.psqMgmt with
    | cons m ms =>
      have hr : Resting { s with psqMgmt := ms } := ⟨h.sleep, h.polled, h.trigger, h.eosp⟩
      have hnext := served_push (n := n) rfl (waiting_mgmt hm) (by rw [hm]; rfl)
        (by rw [hm, List.length_cons, Nat.succ_sub_succ])
      rw [← hnext]
      exact serviceLoop_serve ih hr
    | nil =>
      cases hd : s.psqData with
      | nil => exact absurd (by simp [Sta.psqEmpty, hm, hd]) he
      | cons d ds =>
        have hr : Resting { s with psqMgmt := [], psqData := ds } :=
          ⟨h.sleep, h.polled, h.trigger, h.eosp⟩
        have hnext := served_push (n := n) rfl (waiting_data hm hd) (by simp [hm])
          (by simp [hm, hd])
        rw [← hnext]
        exact serviceLoop_serve ih hr

theorem uapsdTriggerFrameRx_eq (cfg : Config) (h : Resting s) :
    uapsdTriggerFrameRx cfg s =
      if (served (maxFramesToDeliver cfg) s).psqEmpty then
        ⟨{ served (maxFramesToDeliver cfg) s with
            pvb := false
            apsdTraffic := (false, s.psqEmpty) }, true⟩
      else ⟨served (maxFramesToDeliver cfg) s, false⟩ := by
  rw [uapsdTriggerFrameRx, serviceLoop_eq _ s h]

end Loop

theorem marked_sends {l : List Item} (h : ∀ x∈l, ∃ frame, x = .data frame) (n : Nat) :
    (sends n l).map marked = (l.take n).mapIdx fun i x =>
      ⟨x, decide (i+1 < l.length), decide (i+1 = min n l.length)⟩ := by
  induction l generalizing n with
  | nil => cases n <;> rfl
  | cons x rest ih =>
    cases n with
    | zero => rfl
    | succ n =>
      obtain ⟨frame, rfl⟩ := h x List.mem_cons_self
      rw [sends, List.map_cons, List.take_succ_cons, List.mapIdx_cons,
        ih (fun y hy => h y (List.mem_cons_of_mem _ hy)) n]
      congr 1
      · cases rest <;> cases n <;> simp [send, marked]
      · congr 1
        funext i y
        simp

theorem marked_sends_mgmt (n : Nat) {k : Nat} (frame : MgmtFrame) {rest : List Item}
    (hk : k ≤ rest.length+1) :
    (sends (n+1) (.mgmt frame::rest)).map marked ≠
      ((Item.mgmt frame::rest).take k).mapIdx fun i x =>
        ⟨x, decide (i+1 < rest.length+1), decide (i+1 = k)⟩ := by
  intro h
  have hmark : ∀ more eosp,
      marked (send more eosp (.mgmt frame)) = ⟨.mgmt frame, false, false⟩ := by
    intro more eosp
    cases hp : frame.probeResp <;> simp [send, marked, hp]
  rw [sends, List.map_cons, hmark] at h
  cases k with
  | zero => exact nomatch h
  | succ k =>
    rw [List.take_succ_cons, List.mapIdx_cons] at h
    have hhead := (List.cons.inj h).1
    have hmore := of_decide_eq_false (congrArg Marked.more hhead).symm
    have heosp := of_decide_eq_false (congrArg Marked.eosp hhead).symm
    omega

section Call
variable {s : Sta}

theorem call_spec (cfg : Config) (h : Resting s) :
    (uapsdTriggerFrameRx cfg s).sta.sent =
        s.sent ++ sends (maxFramesToDeliver cfg) (waiting s) ∧
      waiting (uapsdTriggerFrameRx cfg s).sta = (waiting s).drop (maxFramesToDeliver cfg) ∧
      ((uapsdTriggerFrameRx cfg s).sta.apsdTrigger = false ∧
        (uapsdTriggerFrameRx cfg s).sta.apsdEosp = false) ∧
      ((uapsdTriggerFrameRx cfg s).pvbZero = true ↔
        waiting (uapsdTriggerFrameRx cfg s).sta = []) := by
  have hw := waiting_served (maxFramesToDeliver cfg) s
  have he := psqEmpty_eq (served (maxFramesToDeliver cfg) s)
  rw [uapsdTriggerFrameRx_eq cfg h]
  by_cases hempty : (served (maxFramesToDeliver cfg) s).psqEmpty = true
  · rw [if_pos hempty]
    refine ⟨rfl, hw, ⟨h.trigger, h.eosp⟩, iff_of_true rfl ?_⟩
    exact List.isEmpty_iff.mp (he.symm.trans hempty)
  · rw [if_neg hempty]
    refine ⟨rfl, hw, ⟨h.trigger, h.eosp⟩, iff_of_false Bool.false_ne_true fun hnil => hempty ?_⟩
    rw [he]
    exact List.isEmpty_iff.mpr hnil

theorem maxFramesToDeliver_pos (cfg : Config) : 0 < maxFramesToDeliver cfg := by
  unfold maxFramesToDeliver
  split_ifs <;> omega

theorem quota_le (cfg : Config) (total : Nat) : quota cfg total ≤ total := by
  unfold quota
  split_ifs
  · exact Nat.le_refl total
  · exact Nat.min_le_right _ _

theorem quota_eq_iff (cfg : Config) (total : Nat) :
    quota cfg total = min (maxFramesToDeliver cfg) total ↔ maxSp cfg ≠ 0 ∨ total ≤ 0xFFFF := by
  unfold quota maxFramesToDeliver maxSp
  split_ifs <;> omega

theorem waiting_of_data (h : s.psqMgmt = []) :
    (∀ x∈waiting s, ∃ frame, x = .data frame) ∧ (waiting s).length = s.psqData.length := by
  simp [waiting, h]

/-- A service period goes as it should if and only if no management frame waits for it and, where
it has no maximum, at most 65535 frames do. -/
theorem service_period_iff (cfg : Config) (h : Resting s) :
    Served cfg s (uapsdTriggerFrameRx cfg s) ↔ Deliverable cfg s := by
  obtain ⟨hsent, hleft, hflags, hpvb⟩ := call_spec cfg h
  constructor
  · rintro ⟨⟨out, hout, hmarks⟩, -, -, -⟩
    rw [List.append_cancel_left (hout.symm.trans hsent)] at hmarks
    have hmgmt : s.psqMgmt = [] := by
      cases hm : s.psqMgmt with
      | nil => rfl
      | cons m ms =>
        obtain ⟨n, hn⟩ := Nat.exists_eq_add_one.mpr (maxFramesToDeliver_pos cfg)
        have hk := quota_le cfg (waiting s).length
        rw [hn] at hmarks
        rw [waiting_mgmt hm] at hmarks hk
        exact absurd hmarks (marked_sends_mgmt n m.frame hk)
    refine ⟨hmgmt, ?_⟩
    have hlen := congrArg List.length hmarks
    rw [List.length_map, length_sends, List.length_mapIdx, List.length_take,
      Nat.min_eq_left (quota_le cfg _)] at hlen
    rw [← (waiting_of_data hmgmt).2]
    exact (quota_eq_iff cfg _).mp hlen.symm
  · rintro ⟨hmgmt, hfull⟩
    obtain ⟨hdata, hlen⟩ := waiting_of_data hmgmt
    rw [← hlen] at hfull
    have hq := (quota_eq_iff cfg _).mpr hfull
    refine ⟨⟨_, hsent, ?_⟩, ?_, hflags, hpvb⟩
    · rw [marked_sends hdata, hq, ← List.take_eq_take_min]
    · rw [hleft, hq, ← List.drop_eq_drop_min]

end Call

section Thread
variable (cfg : Config) (r : Rx)

/-- A frame that `STA_PS_APSD_TRIGGER` lets through. -/
theorem alone_dataTx {s : Sta} (h : s.apsdTrigger = true) (u : Uapsd) (frame : DataFrame) :
    Alone (move cfg) s (.trigTx r u (.test frame)) (dataTx s frame) (.trigClear r u) := by
  cases hs : s.sleep with
  | false =>
    refine .move (fun _ => ?_) (.here _ _)
    simp [move, txStep, resume, dataTx, hs]
  | true =>
    have htest : ∀ x, move cfg s (.trigTx r u (.test frame)) x = (s, .trigTx r u (.awake frame)) :=
      fun x => by simp [move, txStep, resume, hs, h]
    refine .move htest (.move (fun _ => ?_) (.here _ _))
    simp [move, txStep, resume, dataTx, hs]

theorem alone_loop (atStart : Bool) (n : Nat) : ∀ (s : Sta) (isPsqEmpty : Bool), ∃ k,
    Alone (move cfg) s (trigLoop r ⟨isPsqEmpty, atStart, n⟩) (serviceLoop n isPsqEmpty s).1
      (if (serviceLoop n isPsqEmpty s).2 then .trigPvb r ⟨true, atStart, k⟩ else .rxCompare r) := by
  induction n with
  | zero =>
    intro s isPsqEmpty
    cases isPsqEmpty <;> exact ⟨0, .here _ _⟩
  | succ n ih =>
    intro s isPsqEmpty
    cases isPsqEmpty with
    | true => exact ⟨n+1, .here _ _⟩
    | false =>
      have hbusy : trigLoop r ⟨false, atStart, n+1⟩ = .trigTake r ⟨false, atStart, n+1⟩ := rfl
      rw [hbusy, serviceLoop, if_neg Bool.false_ne_true]
      cases hm : s.psqMgmt with
      | cons m ms =>
        obtain ⟨k, hk⟩ := ih (serve { s with psqMgmt := ms }
          ({ s with psqMgmt := ms } : Sta).psqEmpty n (.mgmt m.frame))
          ({ s with psqMgmt := ms } : Sta).psqEmpty
        refine ⟨k, .move (fun _ => by rw [move, trigTakeFrame, hm]) ?_⟩
        exact .move (fun _ => rfl) (.move (fun _ => rfl) (.move (fun _ => rfl) hk))
      | nil =>
        cases hd : s.psqData with
        | nil => exact ⟨n+1, .move (fun _ => by rw [move, trigTakeFrame, hm, hd]; rfl) (.here _ _)⟩
        | cons d ds =>
          obtain ⟨k, hk⟩ := ih (serve { s with psqMgmt := [], psqData := ds }
            ({ s with psqMgmt := [], psqData := ds } : Sta).psqEmpty n (.data d.frame))
            ({ s with psqMgmt := [], psqData := ds } : Sta).psqEmpty
          refine ⟨k, .move (fun _ => by rw [move, trigTakeFrame, hm, hd]) ?_⟩
          exact .move (fun _ => rfl) ((alone_dataTx cfg r rfl _ _).trans (.move (fun _ => rfl) hk))

theorem alone_trigger (s : Sta) :
    Alone (move cfg) s (.trigLook r) (uapsdTriggerFrameRx cfg s).sta (.rxCompare r) := by
  obtain ⟨k, hk⟩ := alone_loop cfg r s.psqEmpty (maxFramesToDeliver cfg) s s.psqEmpty
  refine .move (fun _ => rfl) ?_
  rw [uapsdTriggerFrameRx]
  generalize serviceLoop (maxFramesToDeliver cfg) s.psqEmpty s = loop at hk ⊢
  obtain ⟨s', isPsqEmpty⟩ := loop
  refine hk.trans ?_
  cases isPsqEmpty with
  | false => exact .here _ _
  | true => exact .move (fun _ => rfl) (.move (fun _ => rfl) (.here _ _))

/-- While the other operations wait, the thread of `ath6kl_uapsd_trigger_frame_rx` does what the
call does. -/
theorem trigger_run {s : Ap} {i : Nat} (h : s.threads[i]? = some (.trigLook r)) :
    ∃ n, ∀ allocs : List Bool, allocs.length = n →
      allocs.foldl (fun s alloc => step cfg s (.next i alloc)) s =
        ⟨(uapsdTriggerFrameRx cfg s.shared).sta, s.threads.set i (.rxCompare r)⟩ :=
  (alone_trigger cfg r s.shared).next h

end Thread

section Rest
variable {cfg : Config} {s : Sta} {pc : Pc}

/-- `STA_PS_POLLED` is set, and the threads that will clear it. -/
def Polled (s : Sta) : Prop := s.polled = true

def ClearsPolled : Pc → Prop
  | .pollSend _ | .pollTx _ | .pollClear => True
  | _ => False

/-- A flag of a service period is set, and the threads that will clear it. -/
def Triggered (s : Sta) : Prop := s.apsdTrigger = true ∨ s.apsdEosp = true

def ClearsTriggered : Pc → Prop
  | .trigSend .. | .trigTx .. | .trigClear .. => True
  | _ => False

/-- The steps that write a flag of a delivery. -/
def WritesFlags : Pc → Prop
  | .pollSet _ | .pollClear | .trigSet .. | .trigClear .. => True
  | _ => False

def flags (s : Sta) : Bool × Bool × Bool := (s.polled, s.apsdTrigger, s.apsdEosp)

theorem flags_txStep (tx : Tx) (alloc : Bool) : flags (txStep cfg s alloc tx).1 = flags s := by
  cases tx with
  | test frame =>
    simp only [txStep]
    split_ifs <;> rfl
  | queue frame =>
    simp only [txStep, unicastSleep]
    split <;> rfl
  | awake frame => rfl
  | apsd => rfl
  | pvb => rfl

theorem resume_fst (inside : Tx → Pc) (after : Pc) (x : Sta × Option Tx) :
    (resume inside after x).1 = x.1 := by
  obtain ⟨s, tx⟩ := x
  cases tx <;> rfl

theorem resume_snd {Q : Pc → Prop} {inside : Tx → Pc} {after : Pc} (hin : ∀ tx, Q (inside tx))
    (hafter : Q after) (x : Sta × Option Tx) : Q (resume inside after x).2 := by
  obtain ⟨s, tx⟩ := x
  cases tx with
  | none => exact hafter
  | some tx => exact hin tx

theorem flags_flushTakeData (atStart : Bool) : flags (flushTakeData s atStart).1 = flags s := by
  unfold flushTakeData
  split <;> rfl

theorem flags_flushTakeMgmt (atStart : Bool) : flags (flushTakeMgmt s atStart).1 = flags s := by
  unfold flushTakeMgmt
  split
  · rfl
  · exact flags_flushTakeData atStart

theorem flags_move (h : ¬WritesFlags pc) (alloc : Bool) :
    flags (move cfg s pc alloc).1 = flags s := by
  cases pc with
  | pollSet item => exact absurd trivial h
  | pollClear => exact absurd trivial h
  | trigSet r u item => exact absurd trivial h
  | trigClear r u => exact absurd trivial h
  | dataTx tx => exact (congrArg flags (resume_fst ..)).trans (flags_txStep tx alloc)
  | pollTx tx => exact (congrArg flags (resume_fst ..)).trans (flags_txStep tx alloc)
  | trigTx r u tx => exact (congrArg flags (resume_fst ..)).trans (flags_txStep tx alloc)
  | flushTx atStart tx => exact (congrArg flags (resume_fst ..)).trans (flags_txStep tx alloc)
  | mgmtTest frame =>
    simp only [move]
    split_ifs <;> rfl
  | mgmtQueue frame =>
    simp only [move, mgmtSleep]
    split <;> rfl
  | pollTake =>
    simp only [move, pollTakeFrame]
    split <;> rfl
  | trigTake r u =>
    simp only [move, trigTakeFrame]
    split <;> rfl
  | flushStart => exact flags_flushTakeMgmt _
  | flushMgmt atStart => exact flags_flushTakeMgmt _
  | flushData atStart => exact flags_flushTakeData _
  | _ => rfl

theorem respects_flags {Bad : Sta → Prop} {Obliged : Pc → Prop} {m : Sta × Pc}
    (hbad : ∀ {s t}, flags s = flags t → Bad s → Bad t) (hf : flags m.1 = flags s)
    (hno : ¬Obliged pc) : Respects Bad Obliged s pc m :=
  fun hb => Or.inr ⟨hbad hf hb, hno⟩

theorem move_polled (alloc : Bool) :
    Respects Polled ClearsPolled s pc (move cfg s pc alloc) := by
  have hquiet : ∀ {s t : Sta}, flags s = flags t → Polled s → Polled t := fun hf hp =>
    (congrArg Prod.fst hf).symm.trans hp
  cases pc with
  | pollSet item => exact fun _ => Or.inl (by cases item <;> trivial)
  | pollSend frame => exact fun _ => Or.inl trivial
  | pollTx tx => exact fun _ => Or.inl (resume_snd (fun _ => trivial) trivial _)
  | pollClear => exact fun hb => nomatch hb
  | trigSet r u item => exact fun hb => Or.inr ⟨hb, id⟩
  | trigClear r u => exact fun hb => Or.inr ⟨hb, id⟩
  | _ => exact respects_flags hquiet (flags_move id alloc) id

theorem move_triggered (alloc : Bool) :
    Respects Triggered ClearsTriggered s pc (move cfg s pc alloc) := by
  have hquiet : ∀ {s t : Sta}, flags s = flags t → Triggered s → Triggered t := fun hf ht => by
    have h2 := congrArg Prod.snd hf
    exact ht.imp (congrArg Prod.fst h2).symm.trans (congrArg Prod.snd h2).symm.trans
  cases pc with
  | trigSet r u item => exact fun _ => Or.inl (by cases item <;> trivial)
  | trigSend r u frame => exact fun _ => Or.inl trivial
  | trigTx r u tx => exact fun _ => Or.inl (resume_snd (fun _ => trivial) trivial _)
  | trigClear r u => exact fun hb => hb.elim (fun h => nomatch h) (fun h => nomatch h)
  | pollSet item => exact fun hb => Or.inr ⟨hb, id⟩
  | pollClear => exact fun hb => Or.inr ⟨hb, id⟩
  | _ => exact respects_flags hquiet (flags_move id alloc) id

theorem ageHandler_flags (s : Sta) : flags (ageHandler s) = flags s := by
  unfold ageHandler
  dsimp only
  split_ifs <;> rfl

/-- The flags of a delivery are in the care of the threads that will clear them. -/
def FlagsCovered (s : Ap) : Prop :=
  Covered Polled ClearsPolled s ∧ Covered Triggered ClearsTriggered s

theorem FlagsCovered.step {s : Ap} (h : FlagsCovered s) (e : Event) :
    FlagsCovered (step cfg s e) := by
  cases e with
  | start op => exact ⟨h.1.spawn _, h.2.spawn _⟩
  | next thread alloc =>
    exact ⟨h.1.next fun _ _ => move_polled alloc, h.2.next fun _ _ => move_triggered alloc⟩
  | age =>
    have hf := ageHandler_flags s.shared
    refine ⟨h.1.outside fun hp => ?_, h.2.outside fun ht => ?_⟩
    · exact (congrArg Prod.fst hf).symm.trans hp
    · have h2 := congrArg Prod.snd hf
      exact ht.imp (congrArg Prod.fst h2).symm.trans (congrArg Prod.snd h2).symm.trans

theorem resting_of_atRest {es : List Event} (hr : AtRest (run (step cfg) fresh es))
    (hsleep : (run (step cfg) fresh es).shared.sleep = true) :
    Resting (run (step cfg) fresh es).shared := by
  have h0 : FlagsCovered fresh := by
    refine ⟨fun hb => ?_, fun hb => ?_⟩
    · exact nomatch hb
    · exact hb.elim nofun nofun
  have hc : FlagsCovered (run (step cfg) fresh es) :=
    run_invariant (I := FlagsCovered) (fun _ e h => h.step e) h0 es
  have hp := hc.1.good fun pc hpc => hr pc hpc ▸ id
  have ht := hc.2.good fun pc hpc => hr pc hpc ▸ id
  exact ⟨hsleep, eq_false_of_ne_true hp, eq_false_of_ne_true fun h => ht (Or.inl h),
    eq_false_of_ne_true fun h => ht (Or.inr h)⟩

end Rest

/-- A management frame waits for a station that takes all. -/
def mgmtLast : Sta := { sleep := true, psqMgmt := [⟨{ id := 1 }, 0⟩], pvb := true }

theorem service_period_iff_mgmtLast :
    Resting mgmtLast ∧
      (Served {} mgmtLast (uapsdTriggerFrameRx {} mgmtLast) ↔ Deliverable {} mgmtLast) :=
  ⟨⟨rfl, rfl, rfl, rfl⟩, service_period_iff {} ⟨rfl, rfl, rfl, rfl⟩⟩

/-- The management frame goes out alone and no frame of the period is marked EOSP. -/
theorem service_period_unmarked : ¬∀ s, Resting s → Served {} s (uapsdTriggerFrameRx {} s) := by
  intro h
  obtain ⟨out, hout, hmarks⟩ := (h mgmtLast ⟨rfl, rfl, rfl, rfl⟩).frames
  have hsent : (uapsdTriggerFrameRx {} mgmtLast).sta.sent = [.action { id := 1 }] := by decide
  rw [show out = [.action { id := 1 }] from hout.symm.trans hsent] at hmarks
  revert hmarks
  decide

end Ath6kl.UapsdPeriod
