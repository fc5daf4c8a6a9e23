import Ath6kl.Lib.Interleave
import Ath6kl.Lib.Machine
import Mathlib.Data.Fin.Basic
import Mathlib.Logic.Function.Basic

/-! AP power save for group-addressed frames (`txrx.c`, `main.c`): while a station sleeps they wait
on `psq_mcast` for the end of a DTIM period. A thread takes one step for a section under
`psq_mcast_lock`, for a WMI command, and for an access to a flag. The purge of
`ath6kl_disconnect_event` does not take that lock; that it falls inside such a section is left
out. -/
namespace Ath6kl.McastPs
open Lib.Interleave Lib.Machine

abbrev apMaxNumSta : Nat := 10

/-- The interface. `sleep` is `STA_PS_SLEEP` of each station's `sta_flags`, `pvb` the flag of the
last PVB command for `MCAST_AID`; `sent` is what goes on in `ath6kl_data_tx`, each frame with its
`WMI_DATA_HDR_FLAGS_MORE`. -/
structure Vif where
  sleep : Fin apMaxNumSta → Bool := fun _ => false
  staListIndex : Fin apMaxNumSta → Bool := fun _ => false
  dtimExpired : Bool := false
  psqMcast : List Nat := []
  pvb : Bool := false
  sent : List (Nat × Bool) := []
  freed : List Nat := []

/-- No bit of `sta_list_index` is set. -/
def Vif.noSta (s : Vif) : Prop := ∀ k, s.staListIndex k = false

instance (s : Vif) : Decidable s.noSta :=
  inferInstanceAs (Decidable (∀ k, s.staListIndex k = false))

/-- How far `_powersave_ap_tx_multicast` has come with a frame; `scan` looks at the station of this
number. -/
inductive Tx
  | scan (frame ctr : Nat)
  | test (frame : Nat)
  | queue (frame : Nat)
  | pvb
  | more (frame : Nat)
deriving DecidableEq

/-- What the environment decides: the memory for the queue's entry and for a command, and
`WMI_READY`. -/
structure Env where
  alloc : Bool := true
  cmd : Bool := true
  wmiReady : Bool := true

/-- `ath6kl_wmi_set_pvb_cmd` with `MCAST_AID`. -/
def setPvbCmd (s : Vif) (x : Env) (flag : Bool) : Vif := if x.cmd then { s with pvb := flag } else s

def txStep (s : Vif) (x : Env) : Tx → Vif × Option Tx
  | .scan frame ctr =>
    if h : ctr < apMaxNumSta then
      (s, some (if s.sleep ⟨ctr, h⟩ then .test frame else .scan frame (ctr+1)))
    else ({ s with sent := s.sent ++ [(frame, false)] }, none)
  | .test frame => (s, some (if s.dtimExpired then .more frame else .queue frame))
  | .queue frame =>
    -- the test for an empty queue and the enqueuing, under `psq_mcast_lock`
    if x.alloc then
      ({ s with psqMcast := s.psqMcast ++ [frame] }, if s.psqMcast.isEmpty then some .pvb else none)
    else ({ s with freed := s.freed ++ [frame] }, none)
  | .pvb => (setPvbCmd s x true, none)
  | .more frame => ({ s with sent := s.sent ++ [(frame, !s.psqMcast.isEmpty)] }, none)

/-- Where a thread is: in `ath6kl_data_tx`, in `ath6kl_dtimexpiry_event`, or in
`ath6kl_disconnect_event` with the stations that `ath6kl_remove_sta` still has to remove. -/
inductive Pc
  | idle
  | tx (tx : Tx)
  | dtimFirst
  | dtimEmpty
  | dtimSet
  | dtimTake
  | dtimTx (tx : Tx)
  | dtimClear
  | dtimPvb
  | leave (stas : List (Fin apMaxNumSta))
  | leaveIndex
  | leavePurge
  | leavePvb
deriving DecidableEq

/-- Go on with `ath6kl_data_tx` as `inside`, or return from it to `after`. -/
def resume (inside : Tx → Pc) (after : Pc) : Vif × Option Tx → Vif × Pc
  | (s, some tx) => (s, inside tx)
  | (s, none) => (s, after)

def move (s : Vif) (pc : Pc) (x : Env) : Vif × Pc :=
  match pc with
  | .idle => (s, .idle)
  | .tx tx => resume .tx .idle (txStep s x tx)
  | .dtimFirst => (s, if s.noSta then .idle else .dtimEmpty)
  | .dtimEmpty => (s, if s.psqMcast.isEmpty then .idle else .dtimSet)
  | .dtimSet => ({ s with dtimExpired := true }, .dtimTake)
  | .dtimTake =>
    match s.psqMcast with
    | [] => (s, .dtimClear)
    | frame::psq => ({ s with psqMcast := psq }, .dtimTx (.scan frame 0))
  | .dtimTx tx => resume .dtimTx .dtimTake (txStep s x tx)
  | .dtimClear => ({ s with dtimExpired := false }, .dtimPvb)
  | .dtimPvb => (setPvbCmd s x false, .idle)
  | .leave [] => (s, .leaveIndex)
  | .leave (k::ks) =>
    ({ s with
        sleep := Function.update s.sleep k false
        staListIndex := Function.update s.staListIndex k false }, .leave ks)
  | .leaveIndex => (s, if s.noSta then .leavePurge else .idle)
  | .leavePurge => ({ s with psqMcast := [], freed := s.freed ++ s.psqMcast }, .leavePvb)
  | .leavePvb => (if x.wmiReady then setPvbCmd s x false else s, .idle)

inductive Op
  | dataTx (frame : Nat)
  | dtimExpiry
  | disconnect (stas : List (Fin apMaxNumSta))
deriving DecidableEq

def Op.pc : Op → Pc
  | .dataTx frame => .tx (.scan frame 0)
  | .dtimExpiry => .dtimFirst
  | .disconnect stas => .leave stas

abbrev Ap := Sys Vif Pc

/-- Besides the threads, stations join, and their frames say that they sleep or wake. -/
inductive Event
  | start (op : Op)
  | next (thread : Nat) (x : Env)
  | join (k : Fin apMaxNumSta)
  | power (k : Fin apMaxNumSta) (sleep : Bool)

def step (s : Ap) : Event → Ap
  | .start op => s.spawn op.pc
  | .next thread x => s.next move thread x
  | .join k =>
    ⟨{ s.shared with staListIndex := Function.update s.shared.staListIndex k true }, s.threads⟩
  | .power k sleep => ⟨{ s.shared with sleep := Function.update s.shared.sleep k sleep }, s.threads⟩

def fresh : Ap := ⟨{}, []⟩

/-- Frames wait and the stations are not told to stay awake for them. -/
def Untold (s : Vif) : Prop := s.psqMcast ≠ [] ∧ s.pvb = false

/-- The thread still tells them, or it still sends what waits. -/
def Mends : Pc → Prop
  | .tx .pvb | .dtimSet | .dtimTake | .dtimTx _ => True
  | _ => False

/-- Frames that wait are announced, or a thread has still to do so. -/
def Told (s : Ap) : Prop := Covered Untold Mends s

/-- A thread other than this one mends it. -/
def OtherMends (s : Ap) (i : Nat) : Prop := ∃ j pc, j ≠ i ∧ s.threads[j]? = some pc ∧ Mends pc

/-- The step takes the announcement back, or fails to make it. -/
def Silences (s : Vif) (x : Env) : Pc → Prop
  | .tx .pvb => x.cmd = false ∧ s.pvb = false
  | .dtimPvb => x.cmd = true
  | .leavePvb => x.wmiReady = true ∧ x.cmd = true
  | _ => False

/-- What silences the announcement finds no frame waiting, or another thread at work on it. -/
def InTime (s : Ap) : Event → Prop
  | .next i x => ∀ pc, s.threads[i]? = some pc → Silences s.shared x pc →
      s.shared.psqMcast = [] ∨ OtherMends s i
  | _ => True

section Move
variable {s : Vif} {pc : Pc} {x : Env}

/-- A step in `ath6kl_data_tx` that does not announce leaves the queue as it is, or queues a frame,
and then the first one is to be announced. -/
theorem txStep_untold {tx : Tx} (htx : tx ≠ .pvb) (hbad : Untold (txStep s x tx).1) :
    Untold s ∨ (txStep s x tx).2 = some .pvb := by
  cases tx with
  | scan frame ctr =>
    left
    simp only [txStep] at hbad
    split at hbad <;> exact hbad
  | test frame => exact Or.inl hbad
  | queue frame =>
    simp only [txStep] at hbad ⊢
    split at hbad
    · next ha =>
      rw [if_pos ha]
      cases hq : s.psqMcast with
      | nil => exact Or.inr rfl
      | cons f fs => exact Or.inl ⟨by simp [hq], hbad.2⟩
    · exact Or.inl hbad
  | pvb => exact absurd rfl htx
  | more frame => exact Or.inl hbad

theorem mends_dtimTx (r : Vif × Option Tx) : Mends (resume .dtimTx .dtimTake r).2 := by
  obtain ⟨t, tx⟩ := r
  cases tx <;> trivial

theorem resume_fst (inside : Tx → Pc) (after : Pc) (r : Vif × Option Tx) :
    (resume inside after r).1 = r.1 := by
  obtain ⟨t, tx⟩ := r
  cases tx <;> rfl

theorem move_untold (hbad : Untold (move s pc x).1) :
    Mends (move s pc x).2 ∨ (Untold s ∧ ¬ Mends pc) ∨ (Silences s x pc ∧ s.psqMcast ≠ []) := by
  cases pc with
  | idle => exact Or.inr (Or.inl ⟨hbad, id⟩)
  | tx tx =>
    by_cases htx : tx = .pvb
    · subst htx
      simp only [move, txStep, resume, setPvbCmd] at hbad
      split at hbad
      · cases hbad.2
      · next hc => exact Or.inr (Or.inr ⟨⟨by simpa using hc, hbad.2⟩, hbad.1⟩)
    · rw [move, resume_fst] at hbad
      rcases txStep_untold htx hbad with h | h
      · refine Or.inr (Or.inl ⟨h, ?_⟩)
        cases tx <;> first | exact id | exact absurd rfl htx
      · left
        rw [move]
        generalize txStep s x tx = r at h
        obtain ⟨t, o⟩ := r
        cases h
        trivial
  | dtimFirst => exact Or.inr (Or.inl ⟨hbad, id⟩)
  | dtimEmpty => exact Or.inr (Or.inl ⟨hbad, id⟩)
  | dtimSet => exact Or.inl trivial
  | dtimTake =>
    simp only [move] at hbad ⊢
    cases hq : s.psqMcast with
    | nil =>
      rw [hq] at hbad
      exact absurd hq hbad.1
    | cons f fs => exact Or.inl trivial
  | dtimTx tx => exact Or.inl (mends_dtimTx _)
  | dtimClear => exact Or.inr (Or.inl ⟨hbad, id⟩)
  | dtimPvb =>
    simp only [move, setPvbCmd] at hbad
    split at hbad
    · next hc => exact Or.inr (Or.inr ⟨hc, hbad.1⟩)
    · exact Or.inr (Or.inl ⟨hbad, id⟩)
  | leave stas => cases stas <;> exact Or.inr (Or.inl ⟨hbad, id⟩)
  | leaveIndex => exact Or.inr (Or.inl ⟨hbad, id⟩)
  | leavePurge => exact absurd rfl hbad.1
  | leavePvb =>
    simp only [move, setPvbCmd] at hbad
    split at hbad
    · next hr =>
      split at hbad
      · next hc => exact Or.inr (Or.inr ⟨⟨hr, hc⟩, hbad.1⟩)
      · exact Or.inr (Or.inl ⟨hbad, id⟩)
    · exact Or.inr (Or.inl ⟨hbad, id⟩)

theorem Silences.untold (h : Silences s x pc) (hq : s.psqMcast ≠ []) :
    Untold (move s pc x).1 ∧ ¬ Mends (move s pc x).2 := by
  cases pc with
  | tx tx =>
    cases tx with
    | pvb => simp [move, txStep, resume, setPvbCmd, h.1, Untold, hq, h.2, Mends]
    | _ => exact h.elim
  | dtimPvb =>
    have hc : x.cmd = true := h
    simp [move, setPvbCmd, hc, Untold, hq, Mends]
  | leavePvb => simp [move, setPvbCmd, h.1, h.2, Untold, hq, Mends]
  | _ => exact h.elim

end Move

theorem told_fresh : Told fresh := fun h => absurd rfl h.1

theorem Told.step {s : Ap} (h : Told s) (e : Event) :
    (InTime s e → Told (step s e)) ∧ (Told (step s e) → InTime s e) := by
  cases e with
  | start op => exact ⟨fun _ => h.spawn op.pc, fun _ => trivial⟩
  | join k => exact ⟨fun _ => h.outside id, fun _ => trivial⟩
  | power k sleep => exact ⟨fun _ => h.outside id, fun _ => trivial⟩
  | next i x =>
    cases hp : s.threads[i]? with
    | none =>
      have hs : McastPs.step s (.next i x) = s := by simp [McastPs.step, Sys.next, hp]
      rw [hs]
      exact ⟨fun _ => h, fun _ pc hpc => by cases hp.symm.trans hpc⟩
    | some pc =>
      have hi := (List.getElem?_eq_some_iff.mp hp).1
      simp only [McastPs.step, Told, Sys.next_some move hp, covered_set_iff hi]
      constructor
      · intro ht hbad
        rcases move_untold hbad with hm | ⟨hu, hno⟩ | ⟨hs, hq⟩
        · exact Or.inl hm
        · obtain ⟨q, hq, hm⟩ := h hu
          obtain ⟨j, hj⟩ := List.getElem?_of_mem hq
          refine Or.inr ⟨j, q, ?_, hj, hm⟩
          rintro rfl
          rw [hp] at hj
          exact hno (Option.some.inj hj ▸ hm)
        · exact Or.inr ((ht pc hp hs).resolve_left hq)
      · rintro ht pc' hpc' hs
        cases hp.symm.trans hpc'
        by_cases hq : s.shared.psqMcast = []
        · exact Or.inl hq
        · obtain ⟨hbad, hno⟩ := hs.untold hq
          exact Or.inr ((ht hbad).resolve_left hno)

/-- The thread may yet come to send what waits. -/
def MayMend (pc : Pc) : Prop := Mends pc ∨ pc = .dtimFirst ∨ pc = .dtimEmpty

/-- Frames wait, and nothing in the driver is on its way to them. -/
structure Stranded (s : Ap) : Prop where
  untold : Untold s.shared
  alone : ∀ pc∈s.threads, ¬ MayMend pc

/-- The target, whose bit is clear, reports no DTIM expiry, and some station stays. -/
def NoRescue (s : Ap) : Event → Prop
  | .start op => op ≠ .dtimExpiry
  | .next i _ => s.threads[i]? ≠ some .leavePurge
  | _ => True

/-- Where frames wait already, `ath6kl_data_tx` announces nothing. -/
theorem txStep_waiting {s : Vif} {x : Env} {tx : Tx} (hq : s.psqMcast ≠ []) (hno : tx ≠ .pvb) :
    s.psqMcast <+: (txStep s x tx).1.psqMcast ∧ (txStep s x tx).1.pvb = s.pvb ∧
      (txStep s x tx).2 ≠ some .pvb := by
  cases tx with
  | scan frame ctr =>
    simp only [txStep]
    split
    · refine ⟨List.prefix_refl _, rfl, ?_⟩
      split <;> simp
    · exact ⟨List.prefix_refl _, rfl, by simp⟩
  | test frame =>
    refine ⟨List.prefix_refl _, rfl, ?_⟩
    simp only [txStep]
    split <;> simp
  | queue frame =>
    simp only [txStep]
    split
    · exact ⟨List.prefix_append _ _, rfl, by simp [hq]⟩
    · exact ⟨List.prefix_refl _, rfl, by simp⟩
  | pvb => exact absurd rfl hno
  | more frame => exact ⟨List.prefix_refl _, rfl, by simp [txStep]⟩

theorem move_stranded {s : Vif} {pc : Pc} {x : Env} (hu : Untold s) (hno : ¬ MayMend pc)
    (hpurge : pc ≠ .leavePurge) :
    s.psqMcast <+: (move s pc x).1.psqMcast ∧ (move s pc x).1.pvb = false ∧
      ¬ MayMend (move s pc x).2 := by
  have hidle : ¬ MayMend .idle := by simp [MayMend, Mends]
  cases pc with
  | idle => exact ⟨List.prefix_refl _, hu.2, hno⟩
  | tx tx =>
    have htx : tx ≠ .pvb := by
      rintro rfl
      exact hno (Or.inl trivial)
    obtain ⟨hpre, hpvb, hann⟩ := txStep_waiting (x := x) hu.1 htx
    rw [move, resume_fst]
    refine ⟨hpre, hpvb.trans hu.2, ?_⟩
    generalize txStep s x tx = r at hann
    obtain ⟨t, o⟩ := r
    cases o with
    | none => exact hidle
    | some tx' => cases tx' <;> simp_all [resume, MayMend, Mends]
  | dtimFirst => exact absurd (Or.inr (Or.inl rfl)) hno
  | dtimEmpty => exact absurd (Or.inr (Or.inr rfl)) hno
  | dtimSet => exact absurd (Or.inl trivial) hno
  | dtimTake => exact absurd (Or.inl trivial) hno
  | dtimTx tx => exact absurd (Or.inl trivial) hno
  | dtimClear => exact ⟨List.prefix_refl _, hu.2, by simp [move, MayMend, Mends]⟩
  | dtimPvb =>
    simp only [move, setPvbCmd]
    split
    · exact ⟨List.prefix_refl _, rfl, hidle⟩
    · exact ⟨List.prefix_refl _, hu.2, hidle⟩
  | leave stas =>
    cases stas <;> exact ⟨List.prefix_refl _, hu.2, by simp [move, MayMend, Mends]⟩
  | leaveIndex =>
    refine ⟨List.prefix_refl _, hu.2, ?_⟩
    simp only [move]
    split <;> simp [MayMend, Mends]
  | leavePurge => exact absurd rfl hpurge
  | leavePvb =>
    simp only [move, setPvbCmd]
    split
    · split
      · exact ⟨List.prefix_refl _, rfl, hidle⟩
      · exact ⟨List.prefix_refl _, hu.2, hidle⟩
    · exact ⟨List.prefix_refl _, hu.2, hidle⟩

theorem Stranded.step {s : Ap} (h : Stranded s) (e : Event) (hr : NoRescue s e) :
    Stranded (step s e) ∧ s.shared.psqMcast <+: (step s e).shared.psqMcast := by
  cases e with
  | start op =>
    refine ⟨⟨h.untold, fun pc hpc => ?_⟩, List.prefix_refl _⟩
    rcases List.mem_append.mp hpc with hpc | hpc
    · exact h.alone pc hpc
    · rw [List.mem_singleton.mp hpc]
      cases op with
      | dataTx frame => simp [Op.pc, MayMend, Mends]
      | dtimExpiry => exact absurd rfl hr
      | disconnect stas => simp [Op.pc, MayMend, Mends]
  | join k => exact ⟨⟨h.untold, h.alone⟩, List.prefix_refl _⟩
  | power k sleep => exact ⟨⟨h.untold, h.alone⟩, List.prefix_refl _⟩
  | next i x =>
    cases hp : s.threads[i]? with
    | none =>
      have hs : McastPs.step s (.next i x) = s := by simp [McastPs.step, Sys.next, hp]
      rw [hs]
      exact ⟨h, List.prefix_refl _⟩
    | some pc =>
      have hpurge : pc ≠ .leavePurge := fun he => hr (he ▸ hp)
      obtain ⟨hpre, hpvb, hno⟩ :=
        move_stranded (x := x) h.untold (h.alone pc (List.mem_of_getElem? hp)) hpurge
      simp only [McastPs.step, Sys.next_some move hp]
      refine ⟨⟨⟨fun hnil => h.untold.1 ?_, hpvb⟩, fun q hq => ?_⟩, hpre⟩
      · exact List.prefix_nil.mp (hnil ▸ hpre)
      · rcases List.mem_or_eq_of_mem_set hq with hq | rfl
        · exact h.alone q hq
        · exact hno

/-- In every interleaving the frames that wait are announced, or a thread has still to do so,
exactly as long as no announcement is taken back, or fails, over frames that nobody else attends to;
where one is, they wait until the last station leaves. -/
theorem mcast_told (es : List Event) :
    let s := run step fresh es
    ((∀ u, u <+: es → Told (run step fresh u)) ↔ AllSteps step InTime fresh es) ∧
    (AllSteps step InTime fresh es → (∀ pc∈s.threads, pc = .idle) → s.shared.psqMcast ≠ [] →
      s.shared.pvb = true) ∧
    ∀ fs, Stranded s → AllSteps step NoRescue s fs →
      s.shared.psqMcast <+: (run step fresh (es ++ fs)).shared.psqMcast ∧
        (run step fresh (es ++ fs)).shared.pvb = false := by
  intro s
  refine ⟨prefix_iff_allSteps (fun _ h => h) (fun _ e h => (h.step e).1) (fun _ e h => (h.step e).2)
    told_fresh es, fun hin hrest hq => ?_, fun fs hs hr => ?_⟩
  · have ht : Told s := run_invariant_of (fun _ e h => (h.step e).1) told_fresh hin
    have hgood := Covered.good ht fun pc hpc hm => by
      rw [hrest pc hpc] at hm
      exact hm
    by_contra hpvb
    exact hgood ⟨hq, by simpa using hpvb⟩
  · rw [run_append]
    have hinv := run_invariant_of
      (I := fun t => Stranded t ∧ s.shared.psqMcast <+: t.shared.psqMcast)
      (fun t e ht hn => ⟨(ht.1.step e hn).1, ht.2.trans (ht.1.step e hn).2⟩)
      ⟨hs, List.prefix_refl _⟩ hr
    exact ⟨hinv.2, hinv.1.untold.2⟩

/-- A station sleeps, and a frame waits for it and is announced. -/
def announced : List Event :=
  [.join 0, .power 0 true, .start (.dataTx 1)] ++ List.replicate 4 (.next 0 {})

/-- A frame is queued between the end of the burst and the command that closes it. -/
def betweenBursts : List Event :=
  announced ++ [.start .dtimExpiry] ++ List.replicate 9 (.next 1 {}) ++ [.start (.dataTx 2)] ++
    List.replicate 4 (.next 2 {}) ++ [.next 1 {}]

theorem mcast_told_between :
    (run step fresh announced).shared.pvb = true ∧
    (run step fresh betweenBursts).shared.psqMcast <+:
      (run step fresh (betweenBursts ++ [.start (.dataTx 3)])).shared.psqMcast ∧
    (run step fresh (betweenBursts ++ [.start (.dataTx 3)])).shared.pvb = false := by
  have hquiet : AllSteps step InTime fresh announced := by
    refine ⟨trivial, trivial, trivial, ?_, ?_, ?_, ?_, trivial⟩ <;> rintro _ ⟨⟩ ⟨⟩
    -- the command that announces goes through
    contradiction
  have hstranded : Stranded (run step fresh betweenBursts) := by
    refine ⟨⟨by decide, by decide⟩, fun pc hpc => ?_⟩
    have hidle : ∀ pc∈(run step fresh betweenBursts).threads, pc = .idle := by decide
    rw [hidle pc hpc]
    simp [MayMend, Mends]
  exact ⟨(mcast_told announced).2.1 hquiet (by decide) (by decide),
    (mcast_told betweenBursts).2.2 [.start (.dataTx 3)] hstranded ⟨by simp [NoRescue], trivial⟩⟩

end Ath6kl.McastPs
