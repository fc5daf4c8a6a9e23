import Ath6kl.Lib.Machine
import Mathlib.Tactic.IntervalCases

/-! Which access classes may send bundles (htc.c, ath6kl_htc_tx_bundle): a class that takes a
scatter request switches bundling off for the classes below it when requests are short, and on
again when they are not. The depth that decides is noted by `ath6kl_sdio_scatter_req_get`
(sdio.c) once the request is out of the pool. -/
namespace Ath6kl.HtcTxThrottle
open Lib.Machine

def maxScatterRequests : Nat := 4
def ath6klScatterReqs : Nat := 4

def wmmAcBe : Nat := 0
def wmmAcBk : Nat := 1
def wmmAcVi : Nat := 2
def wmmAcVo : Nat := 3
def wmmNumAc : Nat := 4

/-- `struct hif_scatter_req`. -/
structure ScatReq where
  id : Nat
  scatQDepth : Nat := 0
deriving DecidableEq

/-- `ath6kl_sdio_scatter_req_get`: the request and the pool without it. -/
def scatterReqGet : List ScatReq → Option (ScatReq × List ScatReq)
  | [] => none
  | node::rest => some ({ node with scatQDepth := rest.length }, rest)

/-- `txb_mask`: the classes of lower priority. The bits of best effort and background stand in
the other order than their priorities. -/
def txbMask (ac : Nat) : BitVec 32 := if ac = wmmAcBe then 1 <<< wmmAcBk else (1 <<< ac) - 1

/-- What taking `req` does to `tx_bndl_mask`. -/
def throttle (ac : Nat) (req : ScatReq) (mask : BitVec 32) : BitVec 32 :=
  if ac < wmmNumAc ∧ ac ≠ wmmAcBk then
    if req.scatQDepth < ath6klScatterReqs then mask &&& ~~~txbMask ac else mask ||| txbMask ac
  else mask

/-- The pool, the requests on their way, and the last request taken: by which class, and how many
were on their way then. -/
structure Target where
  scatReq : List ScatReq
  outstanding : List ScatReq := []
  txBndlMask : BitVec 32
  taken : Option (Nat × Nat) := none

/-- A pass of `ath6kl_htc_tx_bundle` for a class, whose list is set up or given up with
`-EAGAIN`; `htc_async_tx_scat_complete`; and the end of the wait in `ath6kl_htc_tx_from_queue`
that gives a class its bit back. -/
inductive Event where
  | pass (ac : Nat) (setUp : Bool)
  | complete (i : Nat)
  | resume (ac : Nat)

def step (t : Target) : Event → Target
  | .pass ac setUp =>
    match scatterReqGet t.scatReq with
    | none => { t with taken := none }
    | some (req, rest) =>
      { scatReq := if setUp then rest else rest ++ [req]
        outstanding := if setUp then t.outstanding ++ [req] else t.outstanding
        txBndlMask := throttle ac req t.txBndlMask
        taken := some (ac, t.outstanding.length) }
  | .complete i =>
    match t.outstanding[i]? with
    | none => { t with taken := none }
    | some req =>
      { t with
        scatReq := t.scatReq ++ [req], outstanding := t.outstanding.eraseIdx i, taken := none }
  | .resume ac => { t with txBndlMask := t.txBndlMask ||| 1 <<< ac, taken := none }

/-- `htc_setup_msg_bndl` with a block-aligned credit size. -/
def setup : Target where
  scatReq := (List.range maxScatterRequests).map fun i => { id := i }
  txBndlMask := (1 <<< wmmNumAc) - 1

/-- Bundling of the lower classes is on once a class finds every request in the pool, and the
highest class is never switched off. -/
structure Reversible (t : Target) : Prop where
  reenabled : ∀ ac, t.taken = some (ac, 0) → ac < wmmNumAc → ac ≠ wmmAcBk →
    t.txBndlMask &&& txbMask ac = txbMask ac
  highest : t.txBndlMask.getLsbD wmmAcVo = true

/-- No class but background takes a request while all are in the pool. -/
def Ok (t : Target) : Event → Prop
  | .pass ac _ => ac < wmmNumAc → ac ≠ wmmAcBk → t.outstanding ≠ []
  | _ => True

structure Inv (t : Target) : Prop where
  count : t.scatReq.length + t.outstanding.length = maxScatterRequests
  highest : t.txBndlMask.getLsbD wmmAcVo = true
  shared : ∀ ac, t.taken = some (ac, 0) → ¬(ac < wmmNumAc ∧ ac ≠ wmmAcBk)

theorem txbMask_ne_zero {ac : Nat} (h : ac < wmmNumAc) (hbk : ac ≠ wmmAcBk) :
    txbMask ac ≠ 0 := by
  have hne : ac ≠ 1 := hbk
  have hlt : ac < 4 := h
  interval_cases ac
  · decide
  · exact absurd rfl hne
  · decide
  · decide

theorem txbMask_highest {ac : Nat} (h : ac < wmmNumAc) :
    (txbMask ac).getLsbD wmmAcVo = false := by
  have hlt : ac < 4 := h
  interval_cases ac <;> decide

theorem throttle_highest {mask : BitVec 32} (h : mask.getLsbD wmmAcVo = true) (ac : Nat)
    (req : ScatReq) : (throttle ac req mask).getLsbD wmmAcVo = true := by
  unfold throttle
  split_ifs with hac hdepth
  · rw [BitVec.getLsbD_and, BitVec.getLsbD_not, h, txbMask_highest hac.1]
    rfl
  · rw [BitVec.getLsbD_or, h]
    rfl
  · exact h

theorem clear_and (mask m : BitVec 32) : mask &&& ~~~m &&& m = 0 := by
  ext i hi
  simp

theorem scatterReqGet_depth {pool rest : List ScatReq} {req : ScatReq}
    (h : scatterReqGet pool = some (req, rest)) :
    req.scatQDepth = rest.length ∧ pool.length = rest.length+1 := by
  cases pool with
  | nil => simp [scatterReqGet] at h
  | cons node tail =>
    simp only [scatterReqGet, Option.some.injEq, Prod.mk.injEq] at h
    obtain ⟨rfl, rfl⟩ := h
    exact ⟨rfl, rfl⟩

theorem throttle_clears {t : Target} (h : Inv t) {req : ScatReq} {rest : List ScatReq}
    (hget : scatterReqGet t.scatReq = some (req, rest)) {ac : Nat} (hac : ac < wmmNumAc)
    (hbk : ac ≠ wmmAcBk) : throttle ac req t.txBndlMask = t.txBndlMask &&& ~~~txbMask ac := by
  obtain ⟨hdepth, hpool⟩ := scatterReqGet_depth hget
  have hcount := h.count
  have hlt : req.scatQDepth < ath6klScatterReqs := by
    have h4 : maxScatterRequests = 4 := rfl
    have h4' : ath6klScatterReqs = 4 := rfl
    omega
  rw [throttle, if_pos ⟨hac, hbk⟩, if_pos hlt]

theorem Inv.reversible {t : Target} (h : Inv t) : Reversible t where
  reenabled := fun ac ht hac hbk => absurd ⟨hac, hbk⟩ (h.shared ac ht)
  highest := h.highest

theorem step_inv {t : Target} {e : Event} (h : Inv t) (hok : Ok t e) : Inv (step t e) := by
  have hnone : ∀ ac, (none : Option (Nat × Nat)) = some (ac, 0) →
      ¬(ac < wmmNumAc ∧ ac ≠ wmmAcBk) := fun _ hn => nomatch hn
  cases e with
  | pass ac setUp =>
    simp only [step]
    cases hget : scatterReqGet t.scatReq with
    | none => exact ⟨h.count, h.highest, hnone⟩
    | some r =>
      obtain ⟨req, rest⟩ := r
      obtain ⟨-, hpool⟩ := scatterReqGet_depth hget
      have hcount := h.count
      refine ⟨?_, throttle_highest h.highest ac req, ?_⟩
      · cases setUp <;> simp <;> omega
      · intro ac' ht hac
        simp only [Option.some.injEq, Prod.mk.injEq] at ht
        obtain ⟨rfl, hlen⟩ := ht
        exact hok hac.1 hac.2 (List.length_eq_zero_iff.mp hlen)
  | complete i =>
    simp only [step]
    cases hi : t.outstanding[i]? with
    | none => exact ⟨h.count, h.highest, hnone⟩
    | some req =>
      have hcount := h.count
      have hlt : i<t.outstanding.length := (List.getElem?_eq_some_iff.mp hi).1
      refine ⟨?_, h.highest, hnone⟩
      simp only [List.length_append, List.length_singleton, List.length_eraseIdx_of_lt hlt]
      omega
  | resume ac =>
    refine ⟨h.count, ?_, hnone⟩
    simp only [step]
    rw [BitVec.getLsbD_or, h.highest]
    rfl

theorem ok_of_reversible {t : Target} {e : Event} (h : Inv t) (hr : Reversible (step t e)) :
    Ok t e := by
  cases e with
  | complete i => trivial
  | resume ac => trivial
  | pass ac setUp =>
    intro hac hbk hnil
    have hcount := h.count
    rw [hnil, List.length_nil, Nat.add_zero] at hcount
    cases hget : scatterReqGet t.scatReq with
    | none =>
      cases hpool : t.scatReq with
      | nil => simp [hpool, maxScatterRequests] at hcount
      | cons node tail => simp [hpool, scatterReqGet] at hget
    | some r =>
      obtain ⟨req, rest⟩ := r
      have hm := throttle_clears h hget hac hbk
      have hset := hr.reenabled ac (by simp [step, hget, hnil]) hac hbk
      simp only [step, hget] at hset
      rw [hm, clear_and] at hset
      exact txbMask_ne_zero hac hbk hset.symm

theorem setup_inv : Inv setup where
  count := rfl
  highest := by decide
  shared := fun _ hn => nomatch hn

/-- The throttle is reversible along a run if and only if no class but background ever takes a
request while all are in the pool, that is, the branch that sets the bits never runs. -/
theorem throttle_reversible_iff (es : List Event) :
    (∀ u, u <+: es → Reversible (run step setup u)) ↔ AllSteps step Ok setup es :=
  prefix_iff_allSteps (I := Inv) (P := Reversible) (C := Ok) (fun _ => Inv.reversible)
    (fun _ _ => step_inv) (fun _ _ => ok_of_reversible) setup_inv es

/-- A video endpoint sends a bundle, it completes, and the endpoint sends another one. -/
theorem throttle_stuck :
    ¬∀ es, Reversible (run step setup es) := by
  intro h
  have hr := (h [.pass wmmAcVi true, .complete 0, .pass wmmAcVi true]).reenabled wmmAcVi
    (by decide) (by decide) (by decide)
  revert hr
  decide

end Ath6kl.HtcTxThrottle
