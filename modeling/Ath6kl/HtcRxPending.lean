import Ath6kl.HtcRxFetch
import Ath6kl.Lib.Machine

/-! `ath6kl_htc_rxmsg_pending_handler` (htc.c). A round is one turn of its loop, in which the
packets that the look-aheads call for are allocated, fetched and processed; the look-aheads found
on the way are those of the next round. -/
namespace Ath6kl.HtcRxPending
open scoped List
open Htc HtcTrailer HtcRxFetch Lib.Machine

/-- The handler at the head of its loop. A list is `none` before `INIT_LIST_HEAD`. -/
structure Handler where
  books : Books := {}
  lookAheads : Nat → LkAhd
  numLookAhead : Nat := 1
  rxPktq : Option (List HtcPacket) := none
  compPktq : Option (List HtcPacket) := none
  nFetched : Nat := 0
  /-- A call of `ath6kl_htc_rx_fetch` has failed. -/
  fetchFailed : Bool := false
  /-- A list has been walked before its `INIT_LIST_HEAD`. -/
  uninitialised : Bool := false
  /-- A loop of a function called does not end, or one takes from an empty list. -/
  hung : Bool := false
  returned : Option Int := none

/-- `lookAheads` is the array on the stack, with `msg_look_ahead` in its first entry. -/
def Handler.start (lookAheads : Nat → LkAhd) : Handler := { lookAheads := lookAheads }

/-- `ath6kl_htc_rx_fetch` has left `f` of the packets of `a`, and
`ath6kl_htc_rx_process_packets` has left `x` of these; the status of the first is lost. -/
def Handler.processed (s : Handler) (a : Alloc) (f : Fetch) (x : Process) : Handler :=
  { s with
    books := x.books
    lookAheads := x.lkAhds
    numLookAhead := x.nLkAhd
    rxPktq := some f.rxPktq
    compPktq := some x.compPktq
    nFetched := s.nFetched + a.queue.length
    fetchFailed := s.fetchFailed || decide (f.status ≠ 0) }

def Handler.leave (r : Round) (s : Handler) (status : Int) : Handler :=
  if status = 0 then { s with returned := some status }
  else
    match s.compPktq with
    | none => { s with uninitialised := true, returned := some status }
    | some q =>
      { s with
        books := s.books.reclaimAll r q
        compPktq := some []
        returned := some status }

/-- One turn of the loop of `ath6kl_htc_rxmsg_pending_handler`. -/
def step (t : Target) (s : Handler) (r : Round) : Handler :=
  if s.returned.isSome || s.hung then s
  else if (s.lookAheads 0).eid ≥ endpointMax then s.leave r enomem
  else
    let a := rxAlloc t r (s.lookAheads 0).eid s.lookAheads s.numLookAhead s.books
    let s := { s with books := a.books, rxPktq := some a.queue, compPktq := some [] }
    if a.status ≠ 0 then s.leave r a.status
    else
      match rxFetch t r a.books a.queue with
      | none => { s with hung := true }
      | some f =>
        match rxProcessPackets r f.compPktq f.books s.lookAheads 0 with
        | none => { s with hung := true }
        | some x =>
          let s := s.processed a f x
          if x.nLkAhd = 0 ∨ x.status ≠ 0 then s.leave r x.status else s

/-- What the handler promises: it walks lists that are initialised only, it does not get stuck,
every packet handed out has ended once, at the endpoint it was handed out for, and after a fetch
that failed it has returned an error. -/
structure Sound (s : Handler) : Prop where
  initialised : s.uninitialised = false
  running : s.hung = false
  once : s.books.ends.map Prod.fst ~ s.books.allocated
  distinct : (s.books.allocated.map Prod.fst).Nodup
  reported : s.fetchFailed = true → ∃ status, status ≠ 0 ∧ s.returned = some status

/-- The bus answers so that the fetch of what the look-aheads and the supply have queued fails, and
every packet fetched before that has its header accepted. -/
def FailsUnseen (t : Target) (s : Handler) (r : Round) : Prop :=
  (s.lookAheads 0).eid<endpointMax ∧ ∃ fetched,
    FailsBehind t r 0 false
      (rxAlloc t r (s.lookAheads 0).eid s.lookAheads s.numLookAhead s.books).queue fetched ∧
    ∀ p∈fetched, ¬Refused r p

/-- The first look-ahead names an endpoint, and no fetch fails unseen. -/
def Ok (t : Target) (s : Handler) (r : Round) : Prop :=
  s.returned = none →
    (s.compPktq = none → (s.lookAheads 0).eid<endpointMax) ∧ ¬FailsUnseen t s r

/-- At the head of the loop no list holds a packet. -/
structure Owned (s : Handler) : Prop where
  running : s.hung = false
  holds : Holds s.books []
  emptied : ∀ q, s.compPktq = some q → q = []

/-- Besides, the lists were initialised and no failure of a fetch has been lost. -/
structure Kept (s : Handler) : Prop extends Owned s where
  initialised : s.uninitialised = false
  reported : s.fetchFailed = true → ∃ status, status ≠ 0 ∧ s.returned = some status

section Handler
variable {t : Target} {s : Handler} {r : Round}

theorem Kept.start (lookAheads : Nat → LkAhd) : Kept (Handler.start lookAheads) :=
  ⟨⟨rfl, ⟨List.Perm.refl _, rfl, by simp⟩, nofun⟩, rfl, nofun⟩

theorem Owned.once (h : Owned s) :
    s.books.ends.map Prod.fst ~ s.books.allocated ∧ (s.books.allocated.map Prod.fst).Nodup := by
  constructor
  · simpa using h.holds.perm.symm
  · rw [h.holds.numbered]
    exact List.nodup_range

theorem Kept.sound (h : Kept s) : Sound s :=
  ⟨h.initialised, h.running, h.once.1, h.once.2, h.reported⟩

theorem Kept.unfailed (h : Kept s) (hlive : s.returned = none) : s.fetchFailed = false := by
  by_contra hfailed
  obtain ⟨status, -, hret⟩ := h.reported (by simpa using hfailed)
  simp [hlive] at hret

@[simp] theorem leave_returned (s : Handler) (r : Round) (status : Int) :
    (s.leave r status).returned = some status := by
  unfold Handler.leave
  split_ifs
  · rfl
  · cases s.compPktq <;> rfl

@[simp] theorem leave_fetchFailed (s : Handler) (r : Round) (status : Int) :
    (s.leave r status).fetchFailed = s.fetchFailed := by
  unfold Handler.leave
  split_ifs
  · rfl
  · cases s.compPktq <;> rfl

theorem leave_initialised {q : List HtcPacket} (hq : s.compPktq = some q) (status : Int) :
    (s.leave r status).uninitialised = s.uninitialised := by
  simp only [Handler.leave, hq]
  split_ifs <;> rfl

/-- The cleanup empties `comp_pktq`. -/
theorem leave_owned {q : List HtcPacket} {status : Int} (hq : s.compPktq = some q)
    (hrun : s.hung = false) (h : Holds s.books (keys q)) (hclean : status = 0 → q = []) :
    Owned (s.leave r status) := by
  unfold Handler.leave
  split_ifs with h0
  · have hnil := hclean h0
    subst hnil
    refine ⟨hrun, h, fun q' hq' => ?_⟩
    have heq : some q' = some [] := hq'.symm.trans hq
    simpa using heq
  · rw [hq]
    rw [← List.append_nil (keys q)] at h
    refine ⟨hrun, h.reclaimAll r, fun q' hq' => ?_⟩
    simpa using hq'.symm

theorem Owned.leave (h : Owned s) (status : Int) : Owned (s.leave r status) := by
  cases hcomp : s.compPktq with
  | none =>
    unfold Handler.leave
    split_ifs
    · exact ⟨h.running, h.holds, h.emptied⟩
    · split
      · exact ⟨h.running, h.holds, h.emptied⟩
      · next q hq => simp [hcomp] at hq
  | some q =>
    have hnil := h.emptied q hcomp
    subst hnil
    exact leave_owned hcomp h.running h.holds fun _ => rfl

theorem step_returned (h : s.returned ≠ none) : step t s r = s := by
  rw [step, if_pos]
  simp [Option.isSome_iff_ne_none.mpr h]

theorem step_invalid (hk : Owned s) (hlive : s.returned = none)
    (hep : endpointMax ≤ (s.lookAheads 0).eid) : step t s r = s.leave r enomem := by
  simp [step, hlive, hk.running, hep]

structure Fetched (t : Target) (s : Handler) (r : Round) (a : Alloc) (f : Fetch) (x : Process) :
    Prop where
  fetch : rxFetch t r a.books a.queue = some f
  good : f.Good
  drained : f.rxPktq = []
  process : rxProcessPackets r f.compPktq f.books s.lookAheads 0 = some x
  holds : Holds x.books (keys x.compPktq)
  clean : x.status = 0 → x.compPktq = []
  refused : x.status ≠ 0 ↔ ∃ p∈f.compPktq, Refused r p
  next : step t s r =
    if x.nLkAhd = 0 ∨ x.status ≠ 0 then (s.processed a f x).leave r x.status
    else s.processed a f x

theorem step_valid (hk : Owned s) (hlive : s.returned = none)
    (hep : (s.lookAheads 0).eid<endpointMax) {a : Alloc}
    (ha : rxAlloc t r (s.lookAheads 0).eid s.lookAheads s.numLookAhead s.books = a) :
    (a.status ≠ 0 ∧ Holds a.books [] ∧ step t s r =
      { s with books := a.books, rxPktq := some a.queue, compPktq := some [] }.leave r a.status) ∨
    (a.status = 0 ∧ ∃ f x, Fetched t s r a f x) := by
  have hlt : ¬endpointMax ≤ (s.lookAheads 0).eid := Nat.not_le.mpr hep
  obtain ⟨halloc, hnone⟩ := rxAlloc_holds (t := t) (r := r) hep s.lookAheads s.numLookAhead
    hk.holds
  rw [ha] at halloc hnone
  by_cases hstatus : a.status = 0
  · obtain ⟨f, hf, hgood, hdrained⟩ := rxFetch_good (t := t) (r := r) halloc
    have hheld := hgood.holds
    rw [hdrained, keys_nil, List.append_nil] at hheld
    obtain ⟨x, hx, hholds, hclean, hrefused⟩ :=
      rxProcessPackets_holds (r := r) s.lookAheads 0 hheld
    refine Or.inr ⟨hstatus, f, x, hf, hgood, hdrained, hx, hholds, hclean, hrefused, ?_⟩
    simp [step, hlive, hk.running, hlt, ha, hstatus, hf, hx, Handler.processed]
  · refine Or.inl ⟨hstatus, ?_, ?_⟩
    · rw [hnone hstatus] at halloc
      exact halloc
    · simp [step, hlive, hk.running, hlt, ha, hstatus]

theorem step_owned (hk : Owned s) : Owned (step t s r) := by
  by_cases hlive : s.returned = none
  swap
  · rw [step_returned hlive]
    exact hk
  by_cases hep : (s.lookAheads 0).eid<endpointMax
  · rcases step_valid (t := t) (r := r) hk hlive hep rfl with
      ⟨hstatus, hholds, hnext⟩ | ⟨-, f, x, hr⟩
    · rw [hnext]
      exact leave_owned rfl hk.running hholds fun h0 => absurd h0 hstatus
    · rw [hr.next]
      split_ifs with hleave
      · exact leave_owned rfl hk.running hr.holds hr.clean
      · have hclean : x.compPktq = [] := hr.clean (not_not.mp (not_or.mp hleave).2)
        have hholds := hr.holds
        rw [hclean] at hholds
        refine ⟨hk.running, hholds, fun q hq => ?_⟩
        have heq : some x.compPktq = some q := hq
        rw [hclean] at heq
        simpa using heq.symm
  · rw [step_invalid hk hlive (Nat.not_lt.mp hep)]
    exact hk.leave enomem

theorem rxmsg_pending_once (t : Target) (lookAheads : Nat → LkAhd) (rs : List Round) :
    (run (step t) (Handler.start lookAheads) rs).books.ends.map Prod.fst ~
        (run (step t) (Handler.start lookAheads) rs).books.allocated ∧
      ((run (step t) (Handler.start lookAheads) rs).books.allocated.map Prod.fst).Nodup :=
  (run_invariant (fun _ _ => step_owned) (Kept.start lookAheads).toOwned rs).once

theorem step_initialised (hk : Kept s)
    (hfirst : s.returned = none → s.compPktq = none → (s.lookAheads 0).eid<endpointMax) :
    (step t s r).uninitialised = false := by
  by_cases hlive : s.returned = none
  swap
  · rw [step_returned hlive]
    exact hk.initialised
  by_cases hep : (s.lookAheads 0).eid<endpointMax
  · rcases step_valid (t := t) (r := r) hk.toOwned hlive hep rfl with
      ⟨-, -, hnext⟩ | ⟨-, f, x, hr⟩
    · rw [hnext, leave_initialised rfl]
      exact hk.initialised
    · rw [hr.next]
      split_ifs
      · rw [leave_initialised rfl]
        exact hk.initialised
      · exact hk.initialised
  · rw [step_invalid hk.toOwned hlive (Nat.not_lt.mp hep)]
    cases hcomp : s.compPktq with
    | none => exact absurd (hfirst hlive hcomp) hep
    | some q =>
      rw [leave_initialised hcomp]
      exact hk.initialised

theorem step_reported (hk : Kept s) (hseen : s.returned = none → ¬FailsUnseen t s r)
    (hfailed : (step t s r).fetchFailed = true) :
    ∃ status, status ≠ 0 ∧ (step t s r).returned = some status := by
  by_cases hlive : s.returned = none
  swap
  · rw [step_returned hlive] at hfailed ⊢
    exact hk.reported hfailed
  have hunfailed := hk.unfailed hlive
  by_cases hep : (s.lookAheads 0).eid<endpointMax
  · rcases step_valid (t := t) (r := r) hk.toOwned hlive hep rfl with
      ⟨-, -, hnext⟩ | ⟨hstatus, f, x, hr⟩
    · simp [hnext, hunfailed] at hfailed
    · have hfail : f.status ≠ 0 := by
        rw [hr.next] at hfailed
        split_ifs at hfailed
        · simpa [Handler.processed, hunfailed] using hfailed
        · simpa [Handler.processed, hunfailed] using hfailed
      -- what was fetched before the failure is marked, so the handler leaves its loop
      have hnone := rxProcessPackets_marked (hr.good.marked (Or.inr hfail)) hr.process
      refine ⟨x.status, ?_, by rw [hr.next, if_pos (Or.inl hnone), leave_returned]⟩
      rw [hr.refused]
      by_contra hno
      obtain ⟨fetched, hcomp, hbehind⟩ := fetchLoop_fails rfl hr.fetch hfail
      rw [hcomp] at hno
      exact hseen hlive ⟨hep, fetched, hbehind, fun p hp hbad => hno ⟨p, hp, hbad⟩⟩
  · simp [step_invalid hk.toOwned hlive (Nat.not_lt.mp hep), hunfailed] at hfailed

theorem step_kept (hk : Kept s) (hok : Ok t s r) : Kept (step t s r) where
  toOwned := step_owned hk.toOwned
  initialised := step_initialised hk fun hlive => (hok hlive).1
  reported := step_reported hk fun hlive => (hok hlive).2

theorem ok_of_sound (hk : Kept s) (h : Sound (step t s r)) : Ok t s r := by
  intro hlive
  constructor
  · intro hcomp
    by_contra hep
    rw [step_invalid hk.toOwned hlive (Nat.not_lt.mp hep)] at h
    have hwalk := h.initialised
    simp [Handler.leave, hcomp, enomem] at hwalk
  · rintro ⟨hep, fetched, hbehind, hseen⟩
    rcases step_valid (t := t) (r := r) hk.toOwned hlive hep rfl with
      ⟨hbad, -, -⟩ | ⟨-, f, x, hr⟩
    · exact hbehind.ne_nil ((rxAlloc_holds hep s.lookAheads s.numLookAhead hk.holds).2 hbad)
    · obtain ⟨f', hf, hfail, hcomp⟩ := hbehind.fetch (Nat.lt_succ_self _) (f := {
        books := (rxAlloc t r (s.lookAheads 0).eid s.lookAheads s.numLookAhead s.books).books
        rxPktq := (rxAlloc t r (s.lookAheads 0).eid s.lookAheads s.numLookAhead s.books).queue })
        rfl rfl rfl
      obtain rfl : f = f' := Option.some.inj (hr.fetch.symm.trans hf)
      have h0 : x.status = 0 := by
        by_contra hne
        obtain ⟨p, hp, hbad⟩ := hr.refused.mp hne
        rw [hcomp] at hp
        exact hseen p hp hbad
      have hnone := rxProcessPackets_marked (hr.good.marked (Or.inr hfail)) hr.process
      have hrep := h.reported
      rw [hr.next, if_pos (Or.inl hnone), h0] at hrep
      simp [Handler.leave, Handler.processed, hfail] at hrep

/-- Whatever the target, the buffer supply and the bus do, the handler keeps its promise as long
as the first look-ahead names an endpoint and no fetch fails unseen, and only so long. -/
theorem rxmsg_pending_iff (t : Target) (lookAheads : Nat → LkAhd) (rs : List Round) :
    (∀ u, u <+: rs → Sound (run (step t) (Handler.start lookAheads) u)) ↔
      AllSteps (step t) (Ok t) (Handler.start lookAheads) rs :=
  prefix_iff_allSteps (I := Kept) (fun _ => Kept.sound) (fun _ _ => step_kept)
    (fun _ _ => ok_of_sound) (Kept.start lookAheads) rs

end Handler

/-- A target with a block size of 4 bytes, all of whose endpoints are connected. -/
def blockTarget : Target where
  blockMask := 3
  msgPerBndlMax := 4
  maxRxBndlSz := 4096
  rxBndlEnable := true
  ctrlEp := 0
  svcId := fun _ => 1
  rxAllocThresh := fun _ => none

/-- Buffers enough, and a bus on which every read fails. -/
def deadBus : Round where
  supply := fun _ => some 2048
  stopping := fun _ => false
  stopped := fun _ => false
  turns := fun _ => { scatReq := true, scatStatus := -5, readStatus := -5 }
  contents := fun _ _ => 0

/-- A look-ahead for endpoint 9 has the cleanup walk a list that nothing has initialised, and
a read that fails is reported as a success. -/
theorem rxmsg_pending_unsound :
    ¬Sound (run (step blockTarget) (Handler.start fun _ => (9, 0, 4, 0)) [deadBus]) ∧
      ¬Sound (run (step blockTarget) (Handler.start fun _ => (1, 0, 4, 0)) [deadBus]) ∧
      (run (step blockTarget) (Handler.start fun _ => (1, 0, 4, 0)) [deadBus]).returned =
        some 0 := by
  have hreturned :
      (run (step blockTarget) (Handler.start fun _ => (1, 0, 4, 0)) [deadBus]).returned =
        some 0 := by decide
  refine ⟨fun h => ?_, fun h => ?_, hreturned⟩
  · have hwalk : (run (step blockTarget) (Handler.start fun _ => (9, 0, 4, 0))
        [deadBus]).uninitialised = true := by decide
    rw [h.initialised] at hwalk
    exact absurd hwalk Bool.false_ne_true
  · obtain ⟨status, hne, hstatus⟩ := h.reported (by decide)
    rw [hreturned] at hstatus
    exact hne (Option.some.inj hstatus).symm

end Ath6kl.HtcRxPending
