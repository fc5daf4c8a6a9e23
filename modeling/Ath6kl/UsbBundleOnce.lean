import Ath6kl.Lib.Custody
import Ath6kl.UsbBundle

/-! Every buffer of an accepted bundle reaches `tx_completion` once and through its own URB, as
long as the queue of a context on the list is empty. -/
namespace Ath6kl.UsbBundle
open UsbPipe Lib.Machine Lib.Custody
open scoped List

/-- The state of one pipe. `accounted`: an accepted URB is submitted, handing over or done.
`completed`: what went to `tx_completion` or waits for it are the buffers of the URBs done,
bundle by bundle. `own`: what an URB is going to hand over are its own buffers. `pooled`: a
context on the list has an empty queue, unless a completion is still emptying it. `copied`: a
message stays in its slot and in the bundle buffer. -/
structure Pipe.Consistent (p : Pipe) : Prop where
  accounted : p.accepted ~ p.submitted ++ (p.handing ++ p.handedOver)
  completed : p.txCompletion ++ p.ioCompQueue = p.handedOver.flatMap Urb.msgs
  own : ∀ u∈p.submitted ++ p.handing, p.compQueue u.ctx = u.msgs
  pooled : ∀ c∈p.pool.urbList, (∀ u∈p.handing, u.ctx ≠ c) → p.compQueue c = []
  copied : ∀ x∈p.copies, x.2 ≤ targetCreditSize ∧ x.1 + x.2 ≤ txBundleBufferSize

/-- A bundle that is not empty and gets a context and an URB is not refused, and its context is
not one whose queue a completion is still emptying. -/
def Pipe.Meets (state : ArState) (p : Pipe) : PipeEvent → Prop
  | .sendBundle b urbOk submitOk => ∀ c pool, p.pool.allocUrb = some (c, pool) → urbOk = true →
    if (state.asleep || !submitOk) = true then b.msgs = []
    else ∀ u∈p.handing, u.ctx = c → u.msgs = [] ∧ b.msgs = []
  | _ => True

/-- Two URBs share a context only if both are empty. -/
def Apart (u v : Urb) : Prop := u.ctx = v.ctx → u.msgs = [] ∧ v.msgs = []

structure Pipe.Sound (p : Pipe) : Prop extends p.Consistent where
  attached : (p.pool.urbList ++ p.submitted.map Urb.ctx).Nodup
  apart : (p.submitted ++ p.handing).Pairwise Apart

/-! The copy loop. -/

theorem fill_compQueue (msgs : List Msg) (f : Fill) :
    (msgs.foldl fillStep f).compQueue = f.compQueue ++ msgs := by
  induction msgs generalizing f with
  | nil => simp
  | cons m msgs ih => simp [ih, fillStep]

theorem fill_copies {msgs : List Msg} (hs : ∀ m∈msgs, m.len ≤ targetCreditSize) (f : Fill) :
    ∀ x∈(msgs.foldl fillStep f).copies, x∈f.copies ∨ x.2 ≤ targetCreditSize ∧
      x.1 + x.2 ≤ f.streamNetdata + msgs.length * targetCreditSize := by
  induction msgs generalizing f with
  | nil => exact fun x hx => Or.inl hx
  | cons m msgs ih =>
    intro x hx
    have hm := hs m List.mem_cons_self
    rw [List.length_cons, Nat.succ_mul]
    rcases ih (fun y hy => hs y (List.mem_cons_of_mem _ hy)) (fillStep f m) x hx with hf | ⟨h1, h2⟩
    · simp only [fillStep] at hf
      rcases List.mem_append.mp hf with hf | hf
      · exact Or.inl hf
      · rw [List.mem_singleton.mp hf]
        exact Or.inr ⟨hm, by simp only; omega⟩
    · refine Or.inr ⟨h1, ?_⟩
      simp only [fillStep] at h2
      omega

theorem fill_bounds (b : Bundle) (q : List Msg) :
    ∀ x∈(fill q b.msgs).copies, x.2 ≤ targetCreditSize ∧ x.1 + x.2 ≤ txBundleBufferSize := by
  intro x hx
  rcases fill_copies b.size _ x hx with hn | ⟨h1, h2⟩
  · cases hn
  · refine ⟨h1, ?_⟩
    have hc := b.count
    simp only [targetCreditSize, htcHostMaxMsgPerBundle, txBundleBufferSize] at *
    omega

/-! The outcomes of one call. -/

/-- The buffers of a bundle on the queue of a context, and their copies. -/
def Pipe.queueOn (p : Pipe) (c : Nat) (b : Bundle) : Pipe :=
  { p.setCompQueue c (p.compQueue c ++ b.msgs) with
    copies := p.copies ++ (fill (p.compQueue c) b.msgs).copies }

def Pipe.urbFor (p : Pipe) (c : Nat) (b : Bundle) : Urb :=
  let len := (fill (p.compQueue c) b.msgs).streamNetlen
  ⟨c, b.msgs, len, len % p.maxPacketSize == 0⟩

def Pipe.submit (p : Pipe) (pool : UrbPool) (u : Urb) : Pipe :=
  { p with pool := pool, submitted := p.submitted ++ [u], accepted := p.accepted ++ [u] }

section SendBundle
variable {p : Pipe} {state : ArState} {b : Bundle} {urbOk submitOk : Bool} {c : Nat}
  {pool : UrbPool}

theorem sendBundle_refused (hp : p.pool.allocUrb = some (c, pool)) (hu : urbOk = true)
    (hr : (state.asleep || !submitOk) = true) :
    (p.sendBundle state b urbOk submitOk).1 = p.queueOn c b := by
  simp only [Pipe.sendBundle, hp, hu, hr, Bool.not_true, Bool.false_eq_true, if_false, if_true,
    Pipe.setCompQueue, Pipe.queueOn, UrbPool.freeUrb_allocUrb hp, fill, fill_compQueue]

theorem sendBundle_accepted (hp : p.pool.allocUrb = some (c, pool)) (hu : urbOk = true)
    (hr : (state.asleep || !submitOk) = false) :
    (p.sendBundle state b urbOk submitOk).1 = (p.queueOn c b).submit pool (p.urbFor c b) := by
  simp only [Pipe.sendBundle, hp, hu, hr, Bool.not_true, Bool.false_eq_true, if_false,
    Pipe.setCompQueue, Pipe.queueOn, Pipe.submit, Pipe.urbFor, fill, fill_compQueue]

theorem sendBundle_none (hp : p.pool.allocUrb = none ∨ urbOk = false) :
    (p.sendBundle state b urbOk submitOk).1 = p := by
  cases ha : p.pool.allocUrb with
  | none => simp only [Pipe.sendBundle, ha]
  | some x =>
    obtain ⟨c, pool⟩ := x
    rcases hp with hp | hu
    · rw [ha] at hp
      cases hp
    · simp only [Pipe.sendBundle, ha, hu, Bool.not_false, if_true, UrbPool.freeUrb_allocUrb ha]

end SendBundle

/-! What each move leaves of a pipe. -/

section Moves
variable {p : Pipe} {state : ArState} {b : Bundle} {c : Nat} {pool : UrbPool}

theorem queueOn_self (p : Pipe) (c : Nat) (b : Bundle) :
    (p.queueOn c b).compQueue c = p.compQueue c ++ b.msgs := if_pos rfl

theorem queueOn_ne (p : Pipe) (b : Bundle) {c d : Nat} (h : d ≠ c) :
    (p.queueOn c b).compQueue d = p.compQueue d := if_neg h

theorem queueOn_nil (hb : b.msgs = []) : p.queueOn c b = p := by
  have hq : (fun d => if d = c then p.compQueue c ++ b.msgs else p.compQueue d) = p.compQueue := by
    funext d
    by_cases hd : d = c <;> simp [hd, hb]
  have hf : p.copies ++ (fill (p.compQueue c) b.msgs).copies = p.copies := by
    simp [hb, fill]
  simp only [Pipe.queueOn, Pipe.setCompQueue, hq, hf]

theorem Apart.symm {u v : Urb} (h : Apart u v) : Apart v u := fun he => (h he.symm).symm

theorem Pipe.Sound.compQueue_nil (h : p.Sound) (hp : p.pool.allocUrb = some (c, pool))
    (hm : ∀ u∈p.handing, u.ctx = c → u.msgs = [] ∧ b.msgs = []) : p.compQueue c = [] := by
  by_cases hh : ∃ u∈p.handing, u.ctx = c
  · obtain ⟨u, hu, rfl⟩ := hh
    rw [h.own u (List.mem_append_right _ hu)]
    exact (hm u hu rfl).1
  · apply h.pooled c
    · rw [UrbPool.allocUrb_list hp]
      exact List.mem_cons_self
    · exact fun u hu he => hh ⟨u, hu, he⟩

theorem Pipe.Sound.submitted_ne (h : p.Sound) (hp : p.pool.allocUrb = some (c, pool)) {u : Urb}
    (hu : u∈p.submitted) : u.ctx ≠ c := by
  have hn := h.attached
  rw [UrbPool.allocUrb_list hp] at hn
  intro he
  apply (List.nodup_cons.mp hn).1
  exact List.mem_append_right _ (he ▸ List.mem_map_of_mem hu)

theorem Pipe.Sound.submit (h : p.Sound) (hp : p.pool.allocUrb = some (c, pool))
    (hm : ∀ u∈p.handing, u.ctx = c → u.msgs = [] ∧ b.msgs = []) :
    ((p.queueOn c b).submit pool (p.urbFor c b)).Sound := by
  have hq : p.compQueue c = [] := h.compQueue_nil hp hm
  have hl := UrbPool.allocUrb_list hp
  have hc : (p.queueOn c b).compQueue c = b.msgs := by rw [queueOn_self, hq, List.nil_append]
  have hn := h.attached
  rw [hl] at hn
  have hown : ∀ u∈p.submitted ++ p.handing, (p.queueOn c b).compQueue u.ctx = u.msgs := by
    intro u hu
    rcases List.mem_append.mp hu with hs | hh
    · rw [queueOn_ne p b (h.submitted_ne hp hs), h.own u hu]
    · by_cases he : u.ctx = c
      · rw [he, hc, (hm u hh he).1, (hm u hh he).2]
      · rw [queueOn_ne p b he, h.own u hu]
  have hperm : p.submitted ++ [p.urbFor c b] ++ p.handing ~
      p.submitted ++ p.handing ++ [p.urbFor c b] := (take_in (List.Perm.refl _) _).symm
  constructor
  · constructor
    · exact take_in h.accounted _
    · exact h.completed
    · intro u hu
      rcases List.mem_append.mp (hperm.mem_iff.mp hu) with hu | hu
      · exact hown u hu
      · rw [List.mem_singleton.mp hu]
        exact hc
    · intro d hd hne
      have hdc : d ≠ c := by
        rintro rfl
        exact (List.nodup_cons.mp hn).1 (List.mem_append_left _ hd)
      have hd' : d∈p.pool.urbList := by
        rw [hl]
        exact List.mem_cons_of_mem _ hd
      exact (queueOn_ne p b hdc).trans (h.pooled d hd' hne)
    · intro x hx
      rcases List.mem_append.mp hx with hx | hx
      · exact h.copied x hx
      · exact fill_bounds b _ x hx
  · change (pool.urbList ++ (p.submitted ++ [p.urbFor c b]).map Urb.ctx).Nodup
    rw [List.map_append, ← List.append_assoc]
    exact (List.perm_append_singleton c _).nodup_iff.mpr hn
  · apply (List.Perm.pairwise_iff Apart.symm hperm).mpr
    rw [List.pairwise_append]
    refine ⟨h.apart, List.pairwise_singleton _ _, ?_⟩
    intro u hu v hv he
    rw [List.mem_singleton.mp hv] at he ⊢
    rcases List.mem_append.mp hu with hs | hh
    · exact absurd he (h.submitted_ne hp hs)
    · exact hm u hh he

theorem Pipe.Sound.urbComplete (h : p.Sound) (i : Nat) : (p.urbComplete i).Sound := by
  rw [Pipe.urbComplete]
  cases hi : p.submitted[i]? with
  | none => exact h
  | some u =>
    have hperm : p.submitted ++ p.handing ~ p.submitted.eraseIdx i ++ (p.handing ++ [u]) := by
      simpa using pass_on hi p.handing []
    constructor
    · constructor
      · exact h.accounted.trans (pass_on hi _ _)
      · exact h.completed
      · exact fun v hv => h.own v (hperm.mem_iff.mpr hv)
      · intro c hc hne
        rcases List.mem_cons.mp hc with rfl | hc
        · exact absurd rfl (hne u (by simp))
        · exact h.pooled c hc fun v hv => hne v (List.mem_append_left _ hv)
      · exact h.copied
    · have ha := ((perm_cons_eraseIdx hi).map Urb.ctx).append_left p.pool.urbList
      exact (ha.trans List.perm_middle).nodup_iff.mp h.attached
    · exact (List.Perm.pairwise_iff Apart.symm hperm).mp h.apart

theorem Pipe.Sound.handOver (h : p.Sound) (i : Nat) : (p.handOver i).Sound := by
  rw [Pipe.handOver]
  cases hi : p.handing[i]? with
  | none => exact h
  | some u =>
    have hu : u∈p.handing := List.mem_of_getElem? hi
    have hq : p.compQueue u.ctx = u.msgs := h.own u (List.mem_append_right _ hu)
    have hperm : p.submitted ++ p.handing ~ u :: (p.submitted ++ p.handing.eraseIdx i) :=
      ((perm_cons_eraseIdx hi).append_left _).trans List.perm_middle
    obtain ⟨hua, hrest⟩ := List.pairwise_cons.mp ((hperm.pairwise_iff Apart.symm).mp h.apart)
    constructor
    · constructor
      · have hp : p.handing ++ p.handedOver ~
            p.handing.eraseIdx i ++ (p.handedOver ++ [u]) := by
          simpa using pass_on hi p.handedOver []
        exact h.accounted.trans (hp.append_left _)
      · change p.txCompletion ++ (p.ioCompQueue ++ p.compQueue u.ctx) =
          (p.handedOver ++ [u]).flatMap Urb.msgs
        simp only [List.flatMap_append, List.flatMap_cons, List.flatMap_nil, List.append_nil, hq,
          ← h.completed, List.append_assoc]
      · intro v hv
        change (if v.ctx = u.ctx then [] else p.compQueue v.ctx) = v.msgs
        split
        · rename_i he
          exact (hua v hv he.symm).2.symm
        · exact h.own v (hperm.mem_iff.mpr (List.mem_cons_of_mem _ hv))
      · intro c hc hne
        change (if c = u.ctx then [] else p.compQueue c) = []
        split
        · rfl
        · rename_i he
          apply h.pooled c hc
          intro v hv
          rcases List.mem_cons.mp ((perm_cons_eraseIdx hi).mem_iff.mp hv) with rfl | hv
          · exact fun hx => he hx.symm
          · exact hne v hv
      · exact h.copied
    · exact h.attached
    · exact hrest

theorem Pipe.Sound.ioCompWork (h : p.Sound) : p.ioCompWork.Sound := by
  rw [Pipe.ioCompWork]
  cases hq : p.ioCompQueue with
  | nil => exact h
  | cons m rest =>
    have hc := h.completed
    rw [hq, List.append_cons] at hc
    exact ⟨⟨h.accounted, hc, h.own, h.pooled, h.copied⟩, h.attached, h.apart⟩

theorem Pipe.Sound.meets (h : p.Sound) {e : PipeEvent} (hc : (p.step state e).Consistent) :
    p.Meets state e := by
  cases e with
  | sendBundle b urbOk submitOk =>
    intro c pool hp hu
    have hmem : c∈p.pool.urbList := by
      rw [UrbPool.allocUrb_list hp]
      exact List.mem_cons_self
    cases hr : (state.asleep || !submitOk) with
    | true =>
      simp only [if_true]
      rw [Pipe.step, sendBundle_refused hp hu hr] at hc
      by_cases hh : ∃ u∈p.handing, u.ctx = c
      · obtain ⟨u, hu, rfl⟩ := hh
        have hown := hc.own u (List.mem_append_right _ hu)
        rw [queueOn_self, h.own u (List.mem_append_right _ hu)] at hown
        exact List.append_right_eq_self.mp hown
      · have hpool := hc.pooled c hmem fun u hu he => hh ⟨u, hu, he⟩
        rw [queueOn_self] at hpool
        exact (List.append_eq_nil_iff.mp hpool).2
    | false =>
      simp only [Bool.false_eq_true, if_false]
      rw [Pipe.step, sendBundle_accepted hp hu hr] at hc
      intro u hu he
      have hnew : (p.queueOn c b).compQueue c = b.msgs :=
        hc.own (p.urbFor c b) (List.mem_append_left _ (List.mem_append_right _ (by simp)))
      have hold : (p.queueOn c b).compQueue u.ctx = u.msgs :=
        hc.own u (List.mem_append_right _ hu)
      have hown := h.own u (List.mem_append_right _ hu)
      rw [he] at hold hown
      rw [queueOn_self, hown] at hnew hold
      have hb : b.msgs = [] := List.append_right_eq_self.mp hold
      rw [hb, List.append_nil] at hnew
      exact ⟨hnew, hb⟩
  | _ => trivial

theorem Pipe.Sound.step (h : p.Sound) {e : PipeEvent} (hm : p.Meets state e) :
    (p.step state e).Sound := by
  cases e with
  | sendBundle b urbOk submitOk =>
    rw [Pipe.step]
    cases hp : p.pool.allocUrb with
    | none =>
      rw [sendBundle_none (Or.inl hp)]
      exact h
    | some x =>
      obtain ⟨c, pool⟩ := x
      cases hu : urbOk with
      | false =>
        rw [sendBundle_none (Or.inr rfl)]
        exact h
      | true =>
        have hb := hm c pool hp hu
        cases hr : (state.asleep || !submitOk) with
        | true =>
          rw [hr, if_pos rfl] at hb
          rw [sendBundle_refused hp rfl hr, queueOn_nil hb]
          exact h
        | false =>
          simp only [hr, Bool.false_eq_true, if_false] at hb
          rw [sendBundle_accepted hp rfl hr]
          exact h.submit hp hb
  | urbComplete i => exact h.urbComplete i
  | handOver i => exact h.handOver i
  | ioCompWork => exact h.ioCompWork

end Moves

/-! The device. -/

def Device.Consistent (d : Device) : Prop := ∀ p∈d.pipes, p.Consistent

def Device.Sound (d : Device) : Prop := ∀ p∈d.pipes, p.Sound

def Meets (d : Device) : Event → Prop
  | .pipe pid e => ∀ p∈d.pipes[pid]?, p.Meets d.state e
  | _ => True

theorem step_sound {d : Device} (h : d.Sound) {e : Event} (hm : Meets d e) : (step d e).Sound := by
  cases e with
  | setState state => exact h
  | setMaxQueueNumber mccEnable =>
    intro q hq
    obtain ⟨p, hp, rfl⟩ := List.mem_map.mp hq
    obtain ⟨⟨ha, hc, ho, hl, hx⟩, hat, hap⟩ := h p hp
    have hlist := p.pool.setMaxQueueNumber_urbList mccEnable
    exact ⟨⟨ha, hc, ho, fun c hm => hl c (hlist ▸ hm), hx⟩, by rw [hlist]; exact hat, hap⟩
  | pipe pid e =>
    intro q hq
    rcases mem_modify hq with hq | ⟨p, hp, rfl⟩
    · exact h q hq
    · exact (h p (List.mem_of_getElem? hp)).step (hm p hp)

theorem step_meets {d : Device} (h : d.Sound) {e : Event} (hc : (step d e).Consistent) :
    Meets d e := by
  cases e with
  | pipe pid e =>
    intro p hp
    exact (h p (List.mem_of_getElem? hp)).meets (hc _ (modify_mem hp))
  | _ => trivial

/-- A device whose pipes have been allocated: for each its number of contexts and its packet
size. -/
def fresh (state : ArState) (pipes : List (Nat × Nat)) : Device where
  state := state
  pipes := pipes.map fun n => .fresh n.1 n.2

theorem fresh_sound (state : ArState) (pipes : List (Nat × Nat)) : (fresh state pipes).Sound := by
  intro p hp
  obtain ⟨n, -, rfl⟩ := List.mem_map.mp hp
  constructor
  · constructor
    · exact List.Perm.refl _
    · rfl
    · exact fun u hu => by cases hu
    · exact fun c _ _ => rfl
    · exact fun x hx => by cases hx
  · change ((UrbPool.init n.1 false).urbList ++ []).Nodup
    rw [List.append_nil]
    exact UrbPool.init_nodup n.1 false
  · exact List.Pairwise.nil

/-- Along a run every buffer of an accepted bundle is completed once and by its own URB, and the
contexts go back empty, exactly when no bundle is refused after it was queued and none is queued
on a context whose completion still goes on. -/
theorem bundles_completed_once (state : ArState) (pipes : List (Nat × Nat)) (es : List Event) :
    (∀ u, u <+: es → (run step (fresh state pipes) u).Consistent) ↔
      AllSteps step Meets (fresh state pipes) es := by
  apply prefix_iff_allSteps (I := Device.Sound)
  · exact fun d h p hp => (h p hp).toConsistent
  · exact fun d e h hm => step_sound h hm
  · exact fun d e h hc => step_meets h hc
  · exact fresh_sound state pipes

/-- A bundle is refused, and the next one on its context completes the buffers of both. And a
bundle that takes a context before its last completion has emptied the queue is completed while
its own URB is under way. -/
theorem bundles_completed_wrongly :
    (¬ (run step (fresh .on [(1, 512)])
      [.pipe 0 (.sendBundle ⟨[⟨0, 100⟩], by decide, by decide⟩ true false)]).Consistent ∧
    (run step (fresh .on [(1, 512)])
      [.pipe 0 (.sendBundle ⟨[⟨0, 100⟩], by decide, by decide⟩ true false),
        .pipe 0 (.sendBundle ⟨[⟨1, 200⟩], by decide, by decide⟩ true true),
        .pipe 0 (.urbComplete 0), .pipe 0 (.handOver 0), .pipe 0 .ioCompWork,
        .pipe 0 .ioCompWork]).pipes.map Pipe.txCompletion = [[⟨0, 100⟩, ⟨1, 200⟩]]) ∧
    (run step (fresh .on [(1, 512)])
      [.pipe 0 (.sendBundle ⟨[⟨0, 100⟩], by decide, by decide⟩ true true),
        .pipe 0 (.urbComplete 0),
        .pipe 0 (.sendBundle ⟨[⟨1, 200⟩], by decide, by decide⟩ true true),
        .pipe 0 (.handOver 0), .pipe 0 .ioCompWork, .pipe 0 .ioCompWork]).pipes.map
        (fun p => (p.txCompletion, p.submitted)) =
      [([⟨0, 100⟩, ⟨1, 200⟩], [⟨0, [⟨1, 200⟩], 1664, false⟩])] := by
  refine ⟨⟨fun h => ?_, by decide⟩, by decide⟩
  have hp := (h _ List.mem_cons_self).pooled 0 (by decide) (by decide)
  revert hp
  decide

end Ath6kl.UsbBundle
