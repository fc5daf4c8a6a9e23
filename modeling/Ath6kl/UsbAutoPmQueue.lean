import Ath6kl.Lib.Custody
import Ath6kl.UsbAutoPm

/-! The queue of parked buffers loses nothing and keeps the order of each pipe, as long as the
bus takes what is drained and an entry can be allocated. -/
namespace Ath6kl.UsbAutoPm
open UsbPipe Lib.Machine Lib.Custody
open scoped List

/-- One pipe with the buffers parked for it. `accounted`: an accepted buffer is parked, or on
the bus, or on its way to `tx_completion`, or there. `once`: a submitted buffer goes to
`tx_completion` once. `ordered`: the buffers go to the bus in the order of the calls.
`contexts`: a context is on the list or belongs to one submitted URB, whose buffer it has. -/
structure Pipe.Consistent (p : Pipe) (parked : List Skb) : Prop where
  accounted : p.accepted ~ parked ++ (p.submitted.map Urb.buf ++ (p.ioCompQueue ++ p.txCompletion))
  once : p.bus ~ p.submitted.map Urb.buf ++ (p.ioCompQueue ++ p.txCompletion)
  ordered : (p.bus ++ parked).Sublist p.accepted
  contexts : p.pool.urbList ++ p.submitted.map Urb.ctx ~ List.range p.pool.urbAlloc
  own : ∀ u∈p.submitted, p.ctxBuf u.ctx = some u.buf

def parked (q : List Entry) (i : Nat) : List Skb :=
  (q.filter fun e => e.pipeId == i).map Entry.skb

structure Device.Consistent (d : Device) : Prop where
  intact : d.oops = false
  pipes : ∀ i, (d.pipes i).Consistent (parked d.usbPmSkbQueue i)

/-- Every submission of the drain that gets a context and an URB succeeds. -/
def DrainsAll : List Entry → List Answer → Device → Prop
  | [], _, _ => True
  | e::rest, as, d =>
    let a := as.headD {}
    let p := d.pipes e.pipeId
    p.pool.allocUrb.isSome → a.urbOk = true → a.submitOk = true ∧
      DrainsAll rest as.tail
        { d.setPipe e.pipeId (p.transmit e.skb a).1 with usbPmSkbQueue := rest }

def Meets (d : Device) : Event → Prop
  | .send _ _ kmallocOk _ => d.state ≠ .preSuspendDeepSleep →
    (d.usbPmSkbQueue ≠ [] ∨ d.state = .wow ∨ d.state = .deepSleep) → kmallocOk = true
  | .wakeupResume as => DrainsAll d.usbPmSkbQueue as d
  | _ => True

/-! One pipe. -/

section Transmit
variable {p : Pipe} {b : Skb} {a : Answer} {l : List Skb}

def Pipe.submit (p : Pipe) (c : Nat) (pool : UrbPool) (b : Skb) : Pipe :=
  { p.setCtxBuf c (some b) with
    pool := pool, bus := p.bus ++ [b]
    submitted := p.submitted ++ [⟨c, b, b.len % p.maxPacketSize == 0⟩] }

theorem transmit_none (h : p.pool.allocUrb = none) : p.transmit b a = (p, .enomem) := by
  simp only [Pipe.transmit, h]

theorem transmit_some {c : Nat} {pool : UrbPool} (h : p.pool.allocUrb = some (c, pool)) :
    p.transmit b a =
      if a.urbOk = false then (p.setCtxBuf c (some b), .enomem)
      else if a.submitOk = false then (p.setCtxBuf c (some b), .einval)
      else (p.submit c pool b, .ok) := by
  have hf := UrbPool.freeUrb_allocUrb h
  cases hu : a.urbOk with
  | false => simp [Pipe.transmit, h, hu, hf, Pipe.setCtxBuf]
  | true =>
    cases hs : a.submitOk with
    | false => simp [Pipe.transmit, h, hu, hs, hf, Pipe.setCtxBuf]
    | true => simp [Pipe.transmit, h, hu, hs, Pipe.submit, Pipe.setCtxBuf]

end Transmit

namespace Pipe.Consistent
variable {p : Pipe} {b : Skb} {l : List Skb} (h : p.Consistent l)
include h

theorem accept (b : Skb) : (p.accept b).Consistent (l ++ [b]) := by
  refine ⟨take_in h.accounted b, h.once, ?_, h.contexts, h.own⟩
  change (p.bus ++ (l ++ [b])).Sublist (p.accepted ++ [b])
  rw [← List.append_assoc]
  exact h.ordered.append_right [b]

theorem ctx_ne {c : Nat} (hc : c∈p.pool.urbList) {u : Urb} (hu : u∈p.submitted) :
    u.ctx ≠ c := by
  rintro rfl
  have hn := h.contexts.nodup_iff.mpr List.nodup_range
  exact List.disjoint_of_nodup_append hn hc (List.mem_map_of_mem hu)

theorem setCtxBuf {c : Nat} (hc : c∈p.pool.urbList) (o : Option Skb) :
    (p.setCtxBuf c o).Consistent l := by
  refine ⟨h.accounted, h.once, h.ordered, h.contexts, ?_⟩
  intro u hu
  exact (if_neg (h.ctx_ne hc hu)).trans (h.own u hu)

end Pipe.Consistent

theorem Pipe.Consistent.submit {p : Pipe} {b : Skb} {l : List Skb} (h : p.Consistent (b::l))
    {c : Nat} {pool : UrbPool} (hp : p.pool.allocUrb = some (c, pool)) :
    (p.submit c pool b).Consistent l := by
  have hl := UrbPool.allocUrb_list hp
  have hc : c∈p.pool.urbList := by
    rw [hl]
    exact List.mem_cons_self
  constructor
  · change p.accepted ~ l ++ ((p.submitted ++ [_]).map Urb.buf ++ (p.ioCompQueue ++ p.txCompletion))
    rw [List.map_append]
    exact h.accounted.trans (pass_on (i := 0) rfl _ _)
  · change p.bus ++ [b] ~ (p.submitted ++ [_]).map Urb.buf ++ (p.ioCompQueue ++ p.txCompletion)
    rw [List.map_append]
    exact take_in h.once b
  · change (p.bus ++ [b] ++ l).Sublist p.accepted
    rw [← List.append_cons]
    exact h.ordered
  · have hctx := h.contexts
    rw [hl] at hctx
    change pool.urbList ++ (p.submitted ++ [_]).map Urb.ctx ~ List.range pool.urbAlloc
    rw [List.map_append, ← List.append_assoc, ← UrbPool.allocUrb_urbAlloc hp]
    exact (List.perm_append_singleton c _).trans hctx
  · intro u hu
    change (if u.ctx = c then some b else p.ctxBuf u.ctx) = some u.buf
    rcases List.mem_append.mp hu with hu | hu
    · rw [if_neg (h.ctx_ne hc hu), h.own u hu]
    · rw [List.mem_singleton.mp hu]
      exact if_pos rfl

theorem Pipe.Consistent.urbComplete {p : Pipe} {l : List Skb} (h : p.Consistent l) (i : Nat) :
    (p.urbComplete i).Consistent l := by
  rw [Pipe.urbComplete]
  cases hi : p.submitted[i]? with
  | none => exact h
  | some u =>
    have hb : p.ctxBuf u.ctx = some u.buf := h.own u (List.mem_of_getElem? hi)
    have hmap : (p.submitted.map Urb.buf)[i]? = some u.buf := by
      rw [List.getElem?_map, hi]
      rfl
    have hmove : p.submitted.map Urb.buf ++ (p.ioCompQueue ++ p.txCompletion) ~
        (p.submitted.eraseIdx i).map Urb.buf ++ (p.ioCompQueue ++ [u.buf] ++ p.txCompletion) := by
      rw [← List.eraseIdx_map]
      exact pass_on hmap _ _
    have hctx : p.pool.urbList ++ p.submitted.map Urb.ctx ~
        u.ctx :: p.pool.urbList ++ (p.submitted.eraseIdx i).map Urb.ctx :=
      (((perm_cons_eraseIdx hi).map Urb.ctx).append_left _).trans List.perm_middle
    simp only [hb]
    constructor
    · exact h.accounted.trans (hmove.append_left l)
    · exact h.once.trans hmove
    · exact h.ordered
    · exact hctx.symm.trans h.contexts
    · intro v hv
      have hn := (hctx.symm.trans h.contexts).nodup_iff.mpr List.nodup_range
      have hne : v.ctx ≠ u.ctx := by
        intro he
        apply (List.nodup_cons.mp hn).1
        exact List.mem_append_right _ (he ▸ List.mem_map_of_mem hv)
      exact (if_neg hne).trans (h.own v (List.mem_of_mem_eraseIdx hv))

theorem Pipe.Consistent.ioCompWork {p : Pipe} {l : List Skb} (h : p.Consistent l) :
    p.ioCompWork.Consistent l := by
  rw [Pipe.ioCompWork]
  cases hq : p.ioCompQueue with
  | nil => exact h
  | cons b rest =>
    have hmove : b::rest ++ p.txCompletion ~ rest ++ (p.txCompletion ++ [b]) := by
      simpa using pass_on (i := 0) (s := b::rest) rfl p.txCompletion []
    have ha := h.accounted
    have ho := h.once
    rw [hq] at ha ho
    refine ⟨?_, ?_, h.ordered, h.contexts, h.own⟩
    · exact ha.trans ((hmove.append_left _).append_left l)
    · exact ho.trans (hmove.append_left _)

theorem Pipe.Consistent.setMaxQueueNumber {p : Pipe} {l : List Skb} (h : p.Consistent l)
    (mccEnable : Bool) :
    { p with pool := p.pool.setMaxQueueNumber mccEnable }.Consistent l := by
  refine ⟨h.accounted, h.once, h.ordered, ?_, h.own⟩
  simp only [UrbPool.setMaxQueueNumber_urbList, UrbPool.setMaxQueueNumber_urbAlloc]
  exact h.contexts

/-! The device. -/

theorem parked_append (q : List Entry) (e : Entry) (i : Nat) :
    parked (q ++ [e]) i = parked q i ++ if e.pipeId = i then [e.skb] else [] := by
  by_cases he : e.pipeId = i <;> simp [parked, he]

theorem parked_cons_self (e : Entry) (q : List Entry) :
    parked (e::q) e.pipeId = e.skb :: parked q e.pipeId := by
  simp [parked]

theorem parked_cons_ne {e : Entry} {i : Nat} (q : List Entry) (h : i ≠ e.pipeId) :
    parked (e::q) i = parked q i := by
  simp [parked, h.symm]

theorem Device.Consistent.setPipe {d : Device} (h : d.Consistent) {i : Nat} {p : Pipe}
    {q : List Entry} (hp : p.Consistent (parked q i))
    (hq : ∀ j, j ≠ i → parked q j = parked d.usbPmSkbQueue j) :
    Device.Consistent { d.setPipe i p with usbPmSkbQueue := q } := by
  refine ⟨h.intact, ?_⟩
  intro j
  by_cases hj : j = i
  · subst hj
    simpa only [Device.setPipe, if_true] using hp
  · simpa only [Device.setPipe, if_neg hj, hq j hj] using h.pipes j

theorem Device.Consistent.setPipe_same {d : Device} (h : d.Consistent) {i : Nat} {p : Pipe}
    (hp : p.Consistent (parked d.usbPmSkbQueue i)) : (d.setPipe i p).Consistent :=
  h.setPipe (q := d.usbPmSkbQueue) hp fun _ _ => rfl

theorem transmit_mem {p : Pipe} {c : Nat} {pool : UrbPool} (hp : p.pool.allocUrb = some (c, pool)) :
    c∈p.pool.urbList := by
  rw [UrbPool.allocUrb_list hp]
  exact List.mem_cons_self

theorem Device.Consistent.park {d : Device} (h : d.Consistent) (i : Nat) (b : Skb) :
    Device.Consistent { d.setPipe i ((d.pipes i).accept b) with
      usbPmSkbQueue := d.usbPmSkbQueue ++ [⟨i, b⟩] } := by
  apply h.setPipe
  · rw [parked_append, if_pos rfl]
    exact (h.pipes i).accept b
  · intro j hj
    rw [parked_append, if_neg hj.symm, List.append_nil]

theorem Device.Consistent.transmit {d : Device} (h : d.Consistent) (hq : d.usbPmSkbQueue = [])
    (i : Nat) (b : Skb) (a : Answer) :
    Device.Consistent (match (d.pipes i).transmit b a with
      | (p, .ok) => (d.setPipe i (p.accept b), Status.ok)
      | (p, status) => (d.setPipe i p, status)).1 := by
  have hi := h.pipes i
  cases hp : (d.pipes i).pool.allocUrb with
  | none =>
    rw [transmit_none hp]
    exact h.setPipe_same hi
  | some x =>
    obtain ⟨c, pool⟩ := x
    rw [transmit_some hp]
    split_ifs
    · exact h.setPipe_same (hi.setCtxBuf (transmit_mem hp) _)
    · exact h.setPipe_same (hi.setCtxBuf (transmit_mem hp) _)
    · apply h.setPipe_same
      have ha := hi.accept b
      rw [hq] at ha ⊢
      exact ha.submit hp

theorem Device.Consistent.send {d : Device} (h : d.Consistent) {i : Nat} {b : Skb}
    {kmallocOk : Bool} {a : Answer} (hm : Meets d (.send i b kmallocOk a)) :
    (d.send i b kmallocOk a).1.Consistent := by
  rw [Device.send]
  split_ifs with hs hq hk
  · exact h
  · rw [hm hs hq] at hk
    cases hk
  · exact h.park i b
  · have hn : d.usbPmSkbQueue = [] := by
      by_contra hne
      exact hq (Or.inl hne)
    exact h.transmit hn i b a

theorem Device.Consistent.unpark {d : Device} (h : d.Consistent) {e : Entry} {rest : List Entry}
    (hq : d.usbPmSkbQueue = e::rest) {c : Nat} {pool : UrbPool}
    (hp : (d.pipes e.pipeId).pool.allocUrb = some (c, pool)) :
    Device.Consistent { d.setPipe e.pipeId ((d.pipes e.pipeId).submit c pool e.skb) with
      usbPmSkbQueue := rest } := by
  apply h.setPipe
  · have hi := h.pipes e.pipeId
    rw [hq, parked_cons_self] at hi
    exact hi.submit hp
  · intro j hj
    rw [hq, parked_cons_ne rest hj]

theorem Device.Consistent.drain {q : List Entry} {as : List Answer} {d : Device}
    (h : d.Consistent) (hq : d.usbPmSkbQueue = q) (hm : DrainsAll q as d) :
    (Device.drain q as d).Consistent := by
  induction q generalizing as d with
  | nil => exact h
  | cons e rest ih =>
    have hi := h.pipes e.pipeId
    rw [Device.drain]
    rw [DrainsAll] at hm
    cases hp : (d.pipes e.pipeId).pool.allocUrb with
    | none =>
      rw [transmit_none hp]
      exact h.setPipe_same hi
    | some x =>
      obtain ⟨c, pool⟩ := x
      rw [transmit_some hp] at hm ⊢
      cases hu : (as.headD {}).urbOk with
      | false => exact h.setPipe_same (hi.setCtxBuf (transmit_mem hp) _)
      | true =>
        obtain ⟨hs, hrest⟩ := hm (by rw [hp]; rfl) hu
        simp only [hu, hs, Bool.true_eq_false, if_false] at hrest ⊢
        exact ih (h.unpark hq hp) rfl hrest

/-- Fewer buffers are in someone's hands than were accepted. -/
def Pipe.Short (p : Pipe) (l : List Skb) : Prop :=
  l.length + (p.submitted.length + (p.ioCompQueue.length + p.txCompletion.length)) <
    p.accepted.length

theorem Pipe.Consistent.not_short {p : Pipe} {l : List Skb} (h : p.Consistent l) : ¬ p.Short l := by
  have hlen := h.accounted.length_eq
  simp only [List.length_append, List.length_map] at hlen
  rw [Pipe.Short]
  omega

def Device.Short (d : Device) (i : Nat) : Prop :=
  (d.pipes i).Short (parked d.usbPmSkbQueue i)

theorem parked_cons_length (e : Entry) (q : List Entry) (i : Nat) :
    (parked q i).length ≤ (parked (e::q) i).length := by
  by_cases hi : i = e.pipeId
  · subst hi
    simp [parked_cons_self]
  · exact Nat.le_of_eq (congrArg List.length (parked_cons_ne q hi).symm)

theorem drain_short {q : List Entry} (as : List Answer) {d : Device} {i : Nat}
    (hq : d.usbPmSkbQueue = q) (h : d.Short i) : (Device.drain q as d).Short i := by
  induction q generalizing as d with
  | nil => exact h
  | cons e rest ih =>
    have hle := parked_cons_length e rest i
    rw [Device.Short, hq, Pipe.Short] at h
    have hstay : ∀ p : Pipe, p.submitted = (d.pipes e.pipeId).submitted →
        p.ioCompQueue = (d.pipes e.pipeId).ioCompQueue →
        p.txCompletion = (d.pipes e.pipeId).txCompletion →
        p.accepted = (d.pipes e.pipeId).accepted →
        Device.Short (d.setPipe e.pipeId p) i ∧
          Device.Short { d.setPipe e.pipeId p with usbPmSkbQueue := rest } i := by
      intro p hs hio htx hacc
      by_cases hi : i = e.pipeId
      · subst hi
        simp only [Device.Short, Pipe.Short, Device.setPipe, if_true, hs, hio, htx, hacc, hq]
        omega
      · simp only [Device.Short, Pipe.Short, Device.setPipe, if_neg hi, hq]
        omega
    rw [Device.drain]
    cases hp : (d.pipes e.pipeId).pool.allocUrb with
    | none =>
      rw [transmit_none hp]
      exact (hstay _ rfl rfl rfl rfl).1
    | some x =>
      obtain ⟨c, pool⟩ := x
      rw [transmit_some hp]
      have hkept := hstay ((d.pipes e.pipeId).setCtxBuf c (some e.skb)) rfl rfl rfl rfl
      split_ifs
      · exact hkept.1
      · exact ih _ rfl hkept.2
      · apply ih _ rfl
        by_cases hi : i = e.pipeId
        · subst hi
          rw [parked_cons_self] at h
          simp only [Device.Short, Pipe.Short, Device.setPipe, if_true, Pipe.submit,
            Pipe.setCtxBuf, List.length_append, List.length_cons, List.length_nil] at h ⊢
          omega
        · rw [parked_cons_ne rest hi] at h
          simpa only [Device.Short, Pipe.Short, Device.setPipe, if_neg hi] using h

theorem Device.Consistent.lost {d : Device} (h : d.Consistent) {e : Entry} {rest : List Entry}
    (hq : d.usbPmSkbQueue = e::rest) (c : Nat) (o : Option Skb) :
    Device.Short { d.setPipe e.pipeId ((d.pipes e.pipeId).setCtxBuf c o) with
      usbPmSkbQueue := rest } e.pipeId := by
  have hlen := (h.pipes e.pipeId).accounted.length_eq
  rw [hq, parked_cons_self] at hlen
  simp only [List.length_append, List.length_map, List.length_cons] at hlen
  simp only [Device.Short, Pipe.Short, Device.setPipe, if_true, Pipe.setCtxBuf]
  omega

theorem Device.Consistent.drainsAll {q : List Entry} {as : List Answer} {d : Device}
    (h : d.Consistent) (hq : d.usbPmSkbQueue = q) (hc : (Device.drain q as d).Consistent) :
    DrainsAll q as d := by
  induction q generalizing as d with
  | nil => trivial
  | cons e rest ih =>
    intro ha hu
    obtain ⟨⟨c, pool⟩, hp⟩ := Option.isSome_iff_exists.mp ha
    rw [Device.drain, transmit_some hp] at hc
    rw [transmit_some hp]
    cases hs : (as.headD {}).submitOk with
    | false =>
      simp only [hu, hs, Bool.true_eq_false, if_false, if_true] at hc
      have hshort := drain_short as.tail rfl (h.lost hq c (some e.skb))
      exact absurd hshort (hc.pipes e.pipeId).not_short
    | true =>
      simp only [hu, hs, Bool.true_eq_false, if_false] at hc ⊢
      exact ⟨trivial, ih (h.unpark hq hp) rfl hc⟩

theorem step_consistent {d : Device} (h : d.Consistent) {e : Event} (hm : Meets d e) :
    (step d e).Consistent := by
  cases e with
  | setState state => exact ⟨h.intact, h.pipes⟩
  | setMaxQueueNumber mccEnable =>
    exact ⟨h.intact, fun i => (h.pipes i).setMaxQueueNumber mccEnable⟩
  | send i b kmallocOk a => exact h.send hm
  | wakeupResume as => exact h.drain rfl hm
  | urbComplete i n => exact h.setPipe_same ((h.pipes i).urbComplete n)
  | ioCompWork i => exact h.setPipe_same (h.pipes i).ioCompWork

theorem step_meets {d : Device} (h : d.Consistent) {e : Event} (hc : (step d e).Consistent) :
    Meets d e := by
  cases e with
  | send i b kmallocOk a =>
    intro hs hq
    cases hk : kmallocOk with
    | true => rfl
    | false =>
      have hi := hc.intact
      simp [step, Device.send, hs, hq, hk] at hi
  | wakeupResume as => exact h.drainsAll rfl hc
  | _ => trivial

/-- A device whose pipes have been allocated, the first one for control. -/
def fresh (state : ArState) (urbCnt maxPacketSize : Nat → Nat) : Device where
  state := state
  pipes i := .fresh (urbCnt i) (maxPacketSize i) (i == 0)

theorem fresh_consistent (state : ArState) (urbCnt maxPacketSize : Nat → Nat) :
    (fresh state urbCnt maxPacketSize).Consistent := by
  refine ⟨rfl, fun i => ⟨List.Perm.refl _, List.Perm.refl _, List.Sublist.refl _, ?_, ?_⟩⟩
  · change (List.range (urbCnt i)).reverse ++ [] ~ List.range (urbCnt i)
    rw [List.append_nil]
    exact List.reverse_perm _
  · exact fun u hu => by cases hu

/-- Along a run no accepted buffer is lost or sent twice or out of order, and the contexts are
accounted for, exactly when every parked buffer gets its queue entry and every submission of a
drain succeeds. -/
theorem parked_buffers_sent_once (state : ArState) (urbCnt maxPacketSize : Nat → Nat)
    (es : List Event) :
    (∀ u, u <+: es → (run step (fresh state urbCnt maxPacketSize) u).Consistent) ↔
      AllSteps step Meets (fresh state urbCnt maxPacketSize) es := by
  apply prefix_iff_allSteps (I := Device.Consistent)
  · exact fun d h => h
  · exact fun d e h hm => step_consistent h hm
  · exact fun d e h hc => step_meets h hc
  · exact fresh_consistent state urbCnt maxPacketSize

/-- A parked buffer is unlinked, and its submission fails; and a buffer cannot be parked. -/
theorem parked_buffers_lost :
    ¬ (run step (fresh .deepSleep (fun _ => 1) fun _ => 512)
      [.send 1 ⟨0, 100⟩ true {}, .setState .on,
        .wakeupResume [{ submitOk := false }]]).Consistent ∧
    ¬ (run step (fresh .wow (fun _ => 1) fun _ => 512)
      [.send 1 ⟨0, 100⟩ false {}]).Consistent := by
  refine ⟨fun h => ?_, fun h => ?_⟩
  · have hlen := (h.pipes 1).accounted.length_eq
    revert hlen
    decide
  · have hi := h.intact
    revert hi
    decide

end Ath6kl.UsbAutoPm
