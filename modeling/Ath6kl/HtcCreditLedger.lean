import Ath6kl.HtcCredit

/-! Conservation of the mailbox credits: every operation is a chain of single-account
rewrites that keep the balance, the caps and the sign of each account. -/
namespace Ath6kl.HtcCredit
open Htc Lib.Ledger Lib.Machine

/-- Every endpoint but `ENDPOINT_0`. -/
def dataEps : Finset Eid := Finset.univ.erase 0

theorem mem_dataEps {e : Eid} : e∈dataEps ↔ e ≠ 0 := by simp [dataEps]

def CreditDist.held (d : CreditDist) : Int := d.credits + d.credToDist + d.outstanding

def HtcTarget.balance (t : HtcTarget) : Int :=
  t.curFreeCredits + total dataEps CreditDist.held t.endpoint

/-- No account of an endpoint is negative. -/
structure CreditDist.Solvent (d : CreditDist) : Prop where
  credits : 0 ≤ d.credits
  credToDist : 0 ≤ d.credToDist
  outstanding : 0 ≤ d.outstanding
  credMin : 0 ≤ d.credMin
  credNorm : 0 ≤ d.credNorm

/-- `ENDPOINT_0` takes no part in the distribution. -/
structure CreditDist.Aside (d : CreditDist) : Prop where
  credits : d.credits = 0
  credAssngd : d.credAssngd = 0
  credMin : d.credMin = 0
  outstanding : d.outstanding = 0

structure Books (tot : Int) (t : HtcTarget) : Prop where
  balance : t.balance = tot
  total : t.totalAvailCredits = tot
  solvent : ∀ e, e ≠ 0 → (t.endpoint e).Solvent
  ep0 : (t.endpoint 0).Aside
  credSz : 0 < t.tgtCredSz

/-- No endpoint holds more credits than are assigned to it. -/
def Capped (t : HtcTarget) (e : Eid) : Prop := (t.endpoint e).credits ≤ (t.endpoint e).credAssngd

/-- The invariant but for the free pool, which the initial deposits may overdraw. -/
structure Funded (tot : Int) (t : HtcTarget) : Prop extends Books tot t where
  capped : ∀ e, e ≠ 0 → Capped t e

structure Inv (tot : Int) (t : HtcTarget) : Prop extends Funded tot t where
  free : 0 ≤ t.curFreeCredits

variable {tot : Int}

@[simp] theorem put_self (t : HtcTarget) (e : Eid) (d : CreditDist) :
    (t.put e d).endpoint e = d := Function.update_self ..

theorem put_other {t : HtcTarget} {e x : Eid} {d : CreditDist} (h : x ≠ e) :
    (t.put e d).endpoint x = t.endpoint x := Function.update_of_ne h ..

/-- The one rewrite all operations are made of: what an account loses the pool gains. -/
theorem Books.put {t : HtcTarget} (h : Books tot t) {e : Eid} (he : e ≠ 0) {d : CreditDist}
    {f : Int} (hd : d.Solvent)
    (hw : d.held + f = (t.endpoint e).held + t.curFreeCredits) :
    Books tot { t.put e d with curFreeCredits := f } where
  balance := by
    have hb := h.balance
    have hu := total_update (w := CreditDist.held) (f := t.endpoint) (a := d) (mem_dataEps.mpr he)
    simp only [HtcTarget.balance, HtcTarget.put] at hb ⊢
    omega
  solvent x hx := by
    by_cases hxe : x = e
    · subst hxe
      rw [show ({ t.put x d with curFreeCredits := f } : HtcTarget).endpoint x = d from
        put_self t x d]
      exact hd
    · rw [show ({ t.put e d with curFreeCredits := f } : HtcTarget).endpoint x = t.endpoint x
        from put_other hxe]
      exact h.solvent x hx
  ep0 := by
    rw [show ({ t.put e d with curFreeCredits := f } : HtcTarget).endpoint 0 = t.endpoint 0
      from put_other he.symm]
    exact h.ep0
  total := h.total
  credSz := h.credSz

theorem Funded.put {t : HtcTarget} (h : Funded tot t) {e : Eid} (he : e ≠ 0)
    {d : CreditDist} {f : Int} (hd : d.Solvent) (hc : d.credits ≤ d.credAssngd)
    (hw : d.held + f = (t.endpoint e).held + t.curFreeCredits) :
    Funded tot { t.put e d with curFreeCredits := f } where
  toBooks := h.toBooks.put he hd hw
  capped x hx := by
    by_cases hxe : x = e
    · subst hxe
      rw [Capped, show ({ t.put x d with curFreeCredits := f } : HtcTarget).endpoint x = d from
        put_self t x d]
      exact hc
    · rw [Capped, show ({ t.put e d with curFreeCredits := f } : HtcTarget).endpoint x =
        t.endpoint x from put_other hxe]
      exact h.capped x hx

theorem Inv.put {t : HtcTarget} (h : Inv tot t) {e : Eid} (he : e ≠ 0) {d : CreditDist}
    {f : Int} (hd : d.Solvent) (hc : d.credits ≤ d.credAssngd) (hf : 0 ≤ f)
    (hw : d.held + f = (t.endpoint e).held + t.curFreeCredits) :
    Inv tot { t.put e d with curFreeCredits := f } :=
  ⟨h.toFunded.put he hd hc hw, hf⟩

/-- The fields the books are kept in. -/
structure CreditDist.SameFunds (d d' : CreditDist) : Prop where
  credits : d'.credits = d.credits
  credAssngd : d'.credAssngd = d.credAssngd
  credToDist : d'.credToDist = d.credToDist
  outstanding : d'.outstanding = d.outstanding
  credMin : d'.credMin = d.credMin
  credNorm : d'.credNorm = d.credNorm

theorem Funded.putSame {t : HtcTarget} (h : Funded tot t) (e : Eid) {d : CreditDist}
    (hd : (t.endpoint e).SameFunds d) : Funded tot (t.put e d) := by
  by_cases he : e = 0
  · subst he
    have ha : d.Aside := ⟨hd.credits.trans h.ep0.credits, hd.credAssngd.trans h.ep0.credAssngd,
      hd.credMin.trans h.ep0.credMin, hd.outstanding.trans h.ep0.outstanding⟩
    have hb := h.balance
    have hu := total_update_outside (w := CreditDist.held) (f := t.endpoint) (a := d)
      (mt mem_dataEps.mp (not_not.mpr rfl))
    refine ⟨⟨?_, h.total, ?_, by rwa [put_self], h.credSz⟩, ?_⟩
    · simp only [HtcTarget.balance, HtcTarget.put] at hb ⊢
      rw [hu]
      exact hb
    · intro x hx
      rw [put_other hx]
      exact h.solvent x hx
    · intro x hx
      rw [Capped, put_other hx]
      exact h.capped x hx
  · have hs := h.solvent e he
    have hc := h.capped e he
    rw [Capped] at hc
    refine h.put he (f := t.curFreeCredits) ⟨?_, ?_, ?_, ?_, ?_⟩ ?_ ?_
    · rw [hd.credits]
      exact hs.credits
    · rw [hd.credToDist]
      exact hs.credToDist
    · rw [hd.outstanding]
      exact hs.outstanding
    · rw [hd.credMin]
      exact hs.credMin
    · rw [hd.credNorm]
      exact hs.credNorm
    · rw [hd.credits, hd.credAssngd]
      exact hc
    · simp only [CreditDist.held, hd.credits, hd.credToDist, hd.outstanding]

theorem Inv.putSame {t : HtcTarget} (h : Inv tot t) (e : Eid) {d : CreditDist}
    (hd : (t.endpoint e).SameFunds d) : Inv tot (t.put e d) :=
  ⟨h.toFunded.putSame e hd, h.free⟩

/-- `ath6kl_credit_reduce` in one rewrite. -/
theorem creditReduce_eq (t : HtcTarget) (e : Eid) (limit : Int) : creditReduce t e limit =
    { t.put e { t.endpoint e with credAssngd := limit
                                  credits := min (t.endpoint e).credits limit } with
      curFreeCredits := t.curFreeCredits +
        ((t.endpoint e).credits - min (t.endpoint e).credits limit) } := by
  unfold creditReduce
  dsimp only
  split
  · rename_i hle
    rw [min_eq_left hle, Int.sub_self, Int.add_zero]
    rfl
  · rename_i hlt
    rw [min_eq_right (by omega), show (t.endpoint e).credits - ((t.endpoint e).credits - limit) =
      limit by omega]

theorem creditReduce_self (t : HtcTarget) (e : Eid) (limit : Int) :
    (creditReduce t e limit).endpoint e = { t.endpoint e with
      credAssngd := limit, credits := min (t.endpoint e).credits limit } := by
  rw [creditReduce_eq]
  exact put_self _ _ _

theorem creditReduce_other {t : HtcTarget} {e x : Eid} {l : Int} (h : x ≠ e) :
    (creditReduce t e l).endpoint x = t.endpoint x := by
  rw [creditReduce_eq]
  exact put_other h

theorem creditReduce_free (t : HtcTarget) (e : Eid) (limit : Int) :
    t.curFreeCredits ≤ (creditReduce t e limit).curFreeCredits := by
  rw [creditReduce_eq]
  show t.curFreeCredits ≤ t.curFreeCredits + _
  omega

theorem Books.reduce {t : HtcTarget} (h : Books tot t) {e : Eid} (he : e ≠ 0) {limit : Int}
    (hl : 0 ≤ limit) : Books tot (creditReduce t e limit) := by
  have hs := h.solvent e he
  rw [creditReduce_eq]
  refine h.put he ⟨?_, hs.credToDist, hs.outstanding, hs.credMin, hs.credNorm⟩ ?_
  · exact le_min hs.credits hl
  · simp only [CreditDist.held]
    omega

theorem Books.reduce_inv {t : HtcTarget} (h : Books tot t) {e : Eid} (he : e ≠ 0) {limit : Int}
    (hl : 0 ≤ limit) (hc : ∀ x, x ≠ 0 → x ≠ e → Capped t x) (hf : 0 ≤ t.curFreeCredits) :
    Inv tot (creditReduce t e limit) where
  toBooks := h.reduce he hl
  capped x hx := by
    by_cases hxe : x = e
    · subst hxe
      rw [Capped, creditReduce_self]
      exact min_le_right _ _
    · rw [Capped, creditReduce_other hxe]
      exact hc x hx hxe
  free := hf.trans (creditReduce_free t e limit)

theorem Inv.reduce {t : HtcTarget} (h : Inv tot t) {e : Eid} (he : e ≠ 0) {limit : Int}
    (hl : 0 ≤ limit) : Inv tot (creditReduce t e limit) :=
  h.toBooks.reduce_inv he hl (fun x hx _ => h.capped x hx) h.free

/-- Reducing when the credits exceed a limit, as the walk of `ath6kl_credit_update` does. -/
theorem Inv.reduceIf {t : HtcTarget} (h : Inv tot t) {e : Eid} (he : e ≠ 0) {limit : Int}
    (hl : 0 ≤ limit) (p : Prop) [Decidable p] :
    Inv tot (if p then creditReduce t e limit else t) := by
  split
  · exact h.reduce he hl
  · exact h

theorem Inv.updateEp {t : HtcTarget} (h : Inv tot t) (e : Eid) : Inv tot (creditUpdateEp t e) := by
  unfold creditUpdateEp
  split
  · exact h
  · rename_i he
    dsimp only
    split
    · -- the returned credits first, then the three limits
      have hs := h.solvent e he
      have hcap := h.capped e he
      rw [Capped] at hcap
      have hb : Books tot (t.put e { t.endpoint e with
          credits := (t.endpoint e).credits + (t.endpoint e).credToDist, credToDist := 0 }) := by
        refine h.toBooks.put he (f := t.curFreeCredits)
          ⟨?_, le_refl _, hs.outstanding, hs.credMin, hs.credNorm⟩ ?_
        · have := hs.credToDist
          have := hs.credits
          show 0 ≤ (t.endpoint e).credits + (t.endpoint e).credToDist
          omega
        · simp only [CreditDist.held]
          omega
      generalize hu : t.put e { t.endpoint e with
          credits := (t.endpoint e).credits + (t.endpoint e).credToDist, credToDist := 0 } = u at hb
      have hcu : ∀ x, x ≠ 0 → x ≠ e → Capped u x := by
        intro x hx hxe
        rw [← hu, Capped, put_other hxe]
        exact h.capped x hx
      have hfu : 0 ≤ u.curFreeCredits := by
        rw [← hu]
        exact h.free
      have ha : 0 ≤ (u.endpoint e).credAssngd := by
        rw [← hu, put_self]
        exact hs.credits.trans hcap
      have h1 : Inv tot (if (u.endpoint e).credits > (u.endpoint e).credAssngd then
          creditReduce u e (u.endpoint e).credAssngd else u) := by
        split
        · exact hb.reduce_inv he ha hcu hfu
        · rename_i hle
          refine ⟨⟨hb, fun x hx => ?_⟩, hfu⟩
          by_cases hxe : x = e
          · subst hxe
            exact not_lt.mp hle
          · exact hcu x hx hxe
      exact ((h1.reduceIf he (h1.solvent e he).credNorm _).reduceIf he (le_refl 0) _)
    · exact h

theorem Inv.update {t : HtcTarget} (h : Inv tot t) : Inv tot (creditUpdate t) := by
  show Inv tot (run creditUpdateEp t t.credDistList)
  exact run_invariant (I := Inv tot) (fun _ e hs => Inv.updateEp hs e) h _

theorem Inv.redistributeEp {t : HtcTarget} (h : Inv tot t) (e : Eid) :
    Inv tot (creditRedistributeEp t e) := by
  unfold creditRedistributeEp
  split
  · exact h
  · rename_i he
    dsimp only
    have ha : Inv tot (if (t.endpoint e).svcId = .wmiDataBk ∨ (t.endpoint e).svcId = .wmiDataBe then
        t.put e { t.endpoint e with active := true } else t) := by
      split
      · exact h.putSame e ⟨rfl, rfl, rfl, rfl, rfl, rfl⟩
      · exact h
    refine ha.reduceIf he ?_ _
    split
    · exact le_refl 0
    · exact (h.solvent e he).credMin

theorem Inv.redistribute {t : HtcTarget} (h : Inv tot t) : Inv tot (creditRedistribute t) := by
  show Inv tot (run creditRedistributeEp t t.credDistList)
  exact run_invariant (I := Inv tot) (fun _ e hs => Inv.redistributeEp hs e) h _

theorem Inv.wmmSchedule {t : HtcTarget} (h : Inv tot t) (change : Bool) :
    Inv tot (wmmScheduleChange t change) := by
  show Inv tot (run (wmmScheduleEp change) t t.credDistList)
  refine run_invariant (I := Inv tot) (fun u e hs => ?_) h _
  unfold wmmScheduleEp
  exact hs.putSame e ⟨rfl, rfl, rfl, rfl, rfl, rfl⟩

theorem Inv.seekWalk {e : Eid} (eps : List Eid) {t : HtcTarget} (h : Inv tot t)
    (hn : t.curFreeCredits < (t.endpoint e).seekCred) :
    Inv tot (seekWalk e eps t) ∧ (HtcCredit.seekWalk e eps t).endpoint e = t.endpoint e := by
  induction eps generalizing t with
  | nil => exact ⟨h, rfl⟩
  | cons cur eps ih =>
    unfold HtcCredit.seekWalk
    split
    · exact ⟨h, rfl⟩
    · rename_i hce
      dsimp only
      by_cases htake : (t.endpoint cur).credAssngd - ((t.endpoint e).seekCred - t.curFreeCredits) ≥
          (t.endpoint cur).credMin
      · have hcur : cur ≠ 0 := by
          rintro rfl
          rw [h.ep0.credAssngd, h.ep0.credMin] at htake
          omega
        have hr := h.reduce hcur ((h.solvent cur hcur).credMin.trans htake)
        have hself := creditReduce_other (t := t) (l := (t.endpoint cur).credAssngd -
          ((t.endpoint e).seekCred - t.curFreeCredits)) (Ne.symm hce)
        simp only [htake, if_true, true_and]
        split
        · exact ⟨hr, hself⟩
        · rename_i hgot
          obtain ⟨hi, hs⟩ := ih hr (not_le.mp hgot)
          exact ⟨hi, hs.trans hself⟩
      · simp only [htake, if_false, false_and]
        split
        · exact ⟨h, rfl⟩
        · exact ih h hn

theorem Inv.deposit {t : HtcTarget} (h : Inv tot t) {e : Eid} (he : e ≠ 0) {credits : Int}
    (h0 : 0 ≤ credits) (hf : credits ≤ t.curFreeCredits) : Inv tot (creditDeposit t e credits) := by
  have hs := h.solvent e he
  have hc := h.capped e he
  rw [Capped] at hc
  refine h.put he ⟨?_, hs.credToDist, hs.outstanding, hs.credMin, hs.credNorm⟩ ?_
    (by omega) ?_
  · exact Int.add_nonneg hs.credits h0
  · exact Int.add_le_add_right hc _
  · simp only [CreditDist.held]
    omega

theorem Inv.seekOut {t : HtcTarget} (h : Inv tot t) {e : Eid} (he : e ≠ 0) {credits : Int}
    (h0 : 0 ≤ credits) (hf : credits ≤ t.curFreeCredits) : Inv tot (seekOut t e credits) := by
  unfold HtcCredit.seekOut
  dsimp only
  split
  · exact (h.deposit he h0 hf).putSame e ⟨rfl, rfl, rfl, rfl, rfl, rfl⟩
  · exact h.putSame e ⟨rfl, rfl, rfl, rfl, rfl, rfl⟩

theorem Inv.creditSeek {t : HtcTarget} (h : Inv tot t) {e : Eid} (he : e ≠ 0)
    (hn : 0 < (t.endpoint e).seekCred) : Inv tot (creditSeek t e) := by
  unfold HtcCredit.creditSeek
  dsimp only
  split
  · exact h.seekOut he (le_refl 0) h.free
  · split
    · exact h.seekOut he (le_refl 0) h.free
    · split
      · exact h.seekOut he (le_refl 0) h.free
      · split
        · exact h.seekOut he (le_min h.free hn.le) (min_le_left _ _)
        · rename_i hlow
          obtain ⟨hw, hself⟩ := h.seekWalk (e := e) t.credDistList.reverse (by omega)
          rw [hself]
          exact hw.seekOut he (le_min hw.free hn.le) (min_le_left _ _)

theorem Inv.seekFor {t : HtcTarget} (h : Inv tot t) {e : Eid} (he : e ≠ 0) {want : Int}
    (hlow : (t.endpoint e).credits < want) : Inv tot (seekFor t e want) := by
  unfold HtcCredit.seekFor
  dsimp only
  have hp : Inv tot (t.put e { t.endpoint e with seekCred := want - (t.endpoint e).credits }) :=
    h.putSame e ⟨rfl, rfl, rfl, rfl, rfl, rfl⟩
  refine Inv.putSame (hp.creditSeek he ?_) e ⟨rfl, rfl, rfl, rfl, rfl, rfl⟩
  rw [put_self]
  show 0 < want - (t.endpoint e).credits
  omega

theorem reqCred_pos {t : HtcTarget} (h : 0 < t.tgtCredSz) (len : Nat) : 1 ≤ reqCred t len := by
  unfold reqCred
  split
  · exact (Nat.one_le_div_iff h).mpr (by omega)
  · exact le_refl 1

theorem Inv.preCheck {t : HtcTarget} (h : Inv tot t) (e : Eid) (len : Nat) :
    Inv tot (htcPreCheckCredits t e len).1 ∧ ((htcPreCheckCredits t e len).2 = true →
      e ≠ 0 ∧ (reqCred t len : Int) ≤ ((htcPreCheckCredits t e len).1.endpoint e).credits) := by
  have hpos := reqCred_pos h.credSz len
  unfold htcPreCheckCredits
  dsimp only
  split
  · rename_i hlow
    split
    · exact ⟨h, by rintro ⟨⟩⟩
    · rename_i he
      exact ⟨h.seekFor he hlow, fun hg => ⟨he, of_decide_eq_true hg⟩⟩
  · rename_i hlow
    refine ⟨h, fun _ => ⟨?_, not_lt.mp hlow⟩⟩
    rintro rfl
    rw [h.ep0.credits] at hlow
    omega

theorem Inv.spend {t : HtcTarget} (h : Inv tot t) {e : Eid} (he : e ≠ 0) {n : Nat}
    (hn : (n:Int) ≤ (t.endpoint e).credits) :
    Inv tot (t.put e { t.endpoint e with credits := (t.endpoint e).credits - n
                                         outstanding := (t.endpoint e).outstanding + n }) := by
  have hs := h.solvent e he
  have hc := h.capped e he
  have ho := hs.outstanding
  rw [Capped] at hc
  refine h.put he (f := t.curFreeCredits)
    ⟨?_, hs.credToDist, ?_, hs.credMin, hs.credNorm⟩ ?_ h.free ?_
  · show 0 ≤ (t.endpoint e).credits - n
    omega
  · show 0 ≤ (t.endpoint e).outstanding + n
    omega
  · show (t.endpoint e).credits - n ≤ (t.endpoint e).credAssngd
    omega
  · simp only [CreditDist.held]
    omega

theorem Inv.send {t : HtcTarget} (h : Inv tot t) (e : Eid) (len : Nat) :
    Inv tot (htcCheckCredits t e len).1 := by
  obtain ⟨hp, hg⟩ := h.preCheck e len
  unfold htcCheckCredits
  generalize htcPreCheckCredits t e len = m at hp hg
  obtain ⟨u, granted⟩ := m
  dsimp only at hp hg ⊢
  split
  · exact hp
  · rename_i hgr
    obtain ⟨he, hreq⟩ := hg (by simpa using hgr)
    have hs := hp.spend he hreq
    split
    · rename_i hlow
      exact hs.seekFor he hlow
    · exact hs

theorem Inv.giveBack {t : HtcTarget} (h : Inv tot t) (e : Eid) {n depth : Nat}
    (hn : (n:Int) ≤ (t.endpoint e).outstanding) :
    Inv tot (t.put e { t.endpoint e with credToDist := (t.endpoint e).credToDist + n
                                         txqDepth := depth
                                         outstanding := (t.endpoint e).outstanding - n }) := by
  by_cases he : e = 0
  · -- `ENDPOINT_0` has nothing outstanding
    subst he
    rw [h.ep0.outstanding] at hn
    have hz : (n:Int) = 0 := by omega
    exact h.putSame 0 ⟨rfl, rfl, by simp [hz], by simp [hz], rfl, rfl⟩
  · have hs := h.solvent e he
    have hd := hs.credToDist
    refine h.put he (f := t.curFreeCredits)
      ⟨hs.credits, ?_, ?_, hs.credMin, hs.credNorm⟩ (h.capped e he) h.free ?_
    · show 0 ≤ (t.endpoint e).credToDist + n
      omega
    · show 0 ≤ (t.endpoint e).outstanding - n
      omega
    · simp only [CreditDist.held]
      omega

theorem Inv.rptEntry {t : HtcTarget} (h : Inv tot t) (depth : Eid → Nat) (r : CreditReport)
    (hr : (r.credits:Int) ≤ (t.endpoint (reportEp r)).outstanding) : Inv tot (credRptEntry depth t r) := by
  unfold credRptEntry
  dsimp only
  split
  · rename_i he
    rw [he, h.ep0.outstanding] at hr
    have hz : (r.credits:Int) = 0 := by omega
    exact h.putSame (reportEp r) ⟨by simp [hz], rfl, rfl, by simp [hz], rfl, rfl⟩
  · exact h.giveBack (reportEp r) hr

/-- What the target is held to: no endpoint gets back more than it has outstanding. -/
def Legal (t : HtcTarget) : Event → Prop
  | .txComp e credUsed failed _ =>
    failed = true → (credUsed:Int) ≤ (t.endpoint e).outstanding
  | .credRpt rpt depth => AllSteps (credRptEntry depth)
      (fun t r => (r.credits:Int) ≤ (t.endpoint (reportEp r)).outstanding) t (knownEntries rpt)
  | _ => True

theorem Inv.step {t : HtcTarget} (h : Inv tot t) (ev : Event) (hl : Legal t ev) :
    Inv tot (step t ev) := by
  cases ev with
  | preCheck e len => exact (h.preCheck e len).1
  | send e len => exact h.send e len
  | txComp e credUsed failed txqDepth =>
    simp only [HtcCredit.step, htcTxCompUpdate]
    split
    · exact h
    · rename_i hfail
      exact (h.giveBack e (hl (by simpa using hfail))).update
  | credRpt rpt depth =>
    have hk : Inv tot ((knownEntries rpt).foldl (credRptEntry depth) t) :=
      run_invariant_of (I := Inv tot) (fun _ r hs hr => hs.rptEntry depth r hr) h hl
    simp only [HtcCredit.step, htcProcCredRpt]
    split
    · exact hk
    · split
      · exact hk.update
      · exact hk
  | activity e active txqDepth =>
    simp only [HtcCredit.step, indicateActivityChange]
    split
    · exact h
    · split
      · exact h
      · have hp : Inv tot (t.put e { t.endpoint e with active := active, txqDepth := txqDepth }) :=
          h.putSame e ⟨rfl, rfl, rfl, rfl, rfl, rfl⟩
        exact hp.redistribute
  | wmmSchedule change => exact h.wmmSchedule change


theorem Funded.deposit {t : HtcTarget} (h : Funded tot t) {e : Eid} (he : e ≠ 0)
    {credits : Int} (h0 : 0 ≤ credits) : Funded tot (creditDeposit t e credits) := by
  have hs := h.solvent e he
  refine h.put he ⟨?_, hs.credToDist, hs.outstanding, hs.credMin, hs.credNorm⟩ ?_ ?_
  · exact Int.add_nonneg hs.credits h0
  · exact Int.add_le_add_right (h.capped e he) _
  · simp only [CreditDist.held]
    omega

theorem Funded.depositActive {t : HtcTarget} (h : Funded tot t) {e : Eid} (he : e ≠ 0)
    {credits : Int} (h0 : 0 ≤ credits) : Funded tot ((creditDeposit t e credits).put e
      { (creditDeposit t e credits).endpoint e with active := true }) :=
  (h.deposit he h0).putSame e ⟨rfl, rfl, rfl, rfl, rfl, rfl⟩

theorem Funded.initDeposit {t : HtcTarget} (h : Funded tot t) (totCredits : Int) (e : Eid) :
    Funded tot (creditInitDeposit totCredits t e) := by
  unfold creditInitDeposit
  split
  · exact h
  · rename_i he
    have hs := h.solvent e he
    have hm : Funded tot (t.put e { t.endpoint e with credMin := (t.endpoint e).credPerMsg }) :=
      h.put he (f := t.curFreeCredits)
        ⟨hs.credits, hs.credToDist, hs.outstanding, Int.natCast_nonneg _, hs.credNorm⟩
        (h.capped e he) rfl
    have hmin := (hm.solvent e he).credMin
    dsimp only
    generalize t.put e { t.endpoint e with credMin := (t.endpoint e).credPerMsg } = u at hm hmin ⊢
    split <;> split
    · exact (hm.depositActive he hmin).depositActive he hmin
    · exact hm.depositActive he hmin
    · exact hm.depositActive he hmin
    · exact hm

theorem Funded.initNorm {t : HtcTarget} (h : Funded tot t) (e : Eid) :
    Funded tot (creditInitNorm t e) := by
  unfold creditInitNorm
  split
  · exact h
  · rename_i he
    have hs := h.solvent e he
    have hnorm : ∀ norm : Int, 0 ≤ norm →
        Funded tot (t.put e { t.endpoint e with credNorm := norm }) := fun norm hn =>
      h.put he (f := t.curFreeCredits)
        ⟨hs.credits, hs.credToDist, hs.outstanding, hs.credMin, hn⟩ (h.capped e he) rfl
    dsimp only
    split
    · exact hnorm _ (Int.natCast_nonneg _)
    · exact hnorm _ (le_max_of_le_right (Int.natCast_nonneg _))

theorem connected_funded (svcId : Eid → SvcId) (credPerMsg : Eid → Nat) (eps : List Eid)
    {tgtCredSz : Nat} (hsz : 0 < tgtCredSz) (totCredits : Int) :
    Funded totCredits { connected svcId credPerMsg eps tgtCredSz with
      curFreeCredits := totCredits, totalAvailCredits := totCredits } where
  balance := by
    have hz : total dataEps CreditDist.held (connected svcId credPerMsg eps tgtCredSz).endpoint
        = 0 := total_eq_zero fun _ _ => rfl
    show totCredits + total dataEps CreditDist.held _ = totCredits
    rw [hz, Int.add_zero]
  total := rfl
  solvent e _ := ⟨le_refl _, le_refl _, le_refl _, le_refl _, le_refl _⟩
  ep0 := ⟨rfl, rfl, rfl, rfl⟩
  credSz := hsz
  capped e _ := le_refl _

/-- `ath6kl_credit_init` opens the books. -/
theorem creditInit_funded (svcId : Eid → SvcId) (credPerMsg : Eid → Nat) (eps : List Eid)
    {tgtCredSz : Nat} (hsz : 0 < tgtCredSz) (totCredits : Int) :
    Funded totCredits (creditInit (connected svcId credPerMsg eps tgtCredSz) totCredits) := by
  have h1 := run_invariant (I := Funded totCredits) (fun _ e hs => hs.initDeposit totCredits e)
    (connected_funded svcId credPerMsg eps hsz totCredits) eps
  exact run_invariant (I := Funded totCredits) (fun _ e hs => hs.initNorm e) h1 _

/-- What credit conservation says of a state. -/
structure Conserved (tot : Int) (t : HtcTarget) : Prop where
  total : t.totalAvailCredits = tot
  balance : t.curFreeCredits +
    ∑ e ∈ dataEps, ((t.endpoint e).credits + (t.endpoint e).credToDist) +
    ∑ e, (t.endpoint e).outstanding = t.totalAvailCredits
  free_nonneg : 0 ≤ t.curFreeCredits
  free_le : t.curFreeCredits ≤ t.totalAvailCredits
  credits : ∀ e, e ≠ 0 → 0 ≤ (t.endpoint e).credits ∧
    (t.endpoint e).credits ≤ (t.endpoint e).credAssngd

theorem Inv.conserved {t : HtcTarget} (h : Inv tot t) : Conserved tot t where
  total := h.total
  balance := by
    have hb := h.balance
    have ho : ∑ e, (t.endpoint e).outstanding = ∑ e ∈ dataEps, (t.endpoint e).outstanding := by
      rw [dataEps, ← Finset.add_sum_erase _ _ (Finset.mem_univ (0:Eid)), h.ep0.outstanding,
        Int.zero_add]
    rw [ho, Int.add_assoc, ← Finset.sum_add_distrib, h.total, ← hb]
    rfl
  free_nonneg := h.free
  free_le := by
    have hb := h.balance
    have hn : 0 ≤ Lib.Ledger.total dataEps CreditDist.held t.endpoint :=
      total_nonneg fun e he => by
        have hs := h.solvent e (mem_dataEps.mp he)
        exact Int.add_nonneg (Int.add_nonneg hs.credits hs.credToDist) hs.outstanding
    rw [h.total, ← hb, HtcTarget.balance]
    omega
  credits e he := ⟨(h.solvent e he).credits, h.capped e he⟩

/-- In every run from `ath6kl_credit_init` whose target returns no credit twice, the
credits are conserved and no endpoint overdraws. -/
theorem htc_credits_conserved (svcId : Eid → SvcId) (credPerMsg : Eid → Nat) (eps : List Eid)
    (tgtCredSz : Nat) (hsz : 0 < tgtCredSz) (totCredits : Int)
    (hdep : 0 ≤ (creditInit (connected svcId credPerMsg eps tgtCredSz) totCredits).curFreeCredits)
    (evs : List Event)
    (hlegal : AllSteps step Legal
      (creditInit (connected svcId credPerMsg eps tgtCredSz) totCredits) evs) :
    Conserved totCredits
      (run step (creditInit (connected svcId credPerMsg eps tgtCredSz) totCredits) evs) :=
  have h0 : Inv totCredits (creditInit (connected svcId credPerMsg eps tgtCredSz) totCredits) :=
    ⟨creditInit_funded svcId credPerMsg eps hsz totCredits, hdep⟩
  (run_invariant_of (I := Inv totCredits) (fun _ ev hs hl => hs.step ev hl) h0 hlegal).conserved

def wmmServices : Eid → SvcId
  | 0 => .rsvdCtrl
  | 1 => .wmiControl
  | 2 => .wmiDataBe
  | 3 => .wmiDataBk
  | 4 => .wmiDataVi
  | 5 => .wmiDataVo
  | _ => .none

theorem htc_credits_conserved_wmm :
    Conserved 16 (run step (creditInit (connected wmmServices (fun _ => 2) [0,1,5,4,2,3] 1664) 16)
      [.send 5 3000, .send 2 1500, .txComp 2 1 true 0, .credRpt [⟨5, 1⟩, ⟨9, 1⟩] (fun _ => 1),
        .activity 2 false 0, .credRpt [⟨5, 1⟩] (fun _ => 0)]) :=
  htc_credits_conserved wmmServices (fun _ => 2) [0,1,5,4,2,3] 1664 (by decide) 16 (by decide) _
    ⟨trivial, trivial, fun _ => by decide, ⟨by decide, trivial⟩, trivial, ⟨by decide, trivial⟩,
      trivial⟩

end Ath6kl.HtcCredit
