import Ath6kl.HtcCreditLedger

/-! What one endpoint can get from the others by `ath6kl_credit_seek`. -/
namespace Ath6kl.HtcCredit
open Htc

/-- The credits that the endpoints of `eps` lose. -/
def taken (t t' : HtcTarget) (eps : List Eid) : Int :=
  (eps.map fun x => (t.endpoint x).credits - (t'.endpoint x).credits).sum

/-- A video endpoint that holds its share gets nothing. -/
def Refused (d : CreditDist) : Prop :=
  d.svcId = .wmiDataVi ∧
    (d.credAllocMax ≠ 0 ∧ d.credAssngd ≥ d.credAllocMax ∨ d.credAssngd ≥ d.credNorm)

theorem seekWalk_append {e : Eid} {eps : List Eid} (h : e∈eps ∨ 0∈eps) (beyond : List Eid)
    (t : HtcTarget) : seekWalk e (eps ++ beyond) t = seekWalk e eps t := by
  induction eps generalizing t with
  | nil => simp at h
  | cons cur eps ih =>
    rw [List.cons_append]
    unfold seekWalk
    by_cases hce : cur = e
    · rw [if_pos hce, if_pos hce]
    · by_cases hc0 : cur = 0
      · simp only [if_pos hc0]
      · have hrest : e∈eps ∨ 0∈eps := by
          refine h.imp (fun h => ?_) fun h => ?_
          · exact (List.mem_cons.mp h).resolve_left (Ne.symm hce)
          · exact (List.mem_cons.mp h).resolve_left (Ne.symm hc0)
        simp only [ih hrest]

theorem seekWalk_snoc {e : Eid} (eps : List Eid) (t : HtcTarget) :
    seekWalk e (eps ++ [e]) t = seekWalk e eps t := by
  induction eps generalizing t with
  | nil => simp [seekWalk]
  | cons cur eps ih =>
    rw [List.cons_append]
    unfold seekWalk
    simp only [ih]

theorem seekWalk_lower {e : Eid} {hi lo : List Eid} (t : HtcTarget) :
    seekWalk e (0 :: (hi ++ e::lo)).reverse t = seekWalk e lo.reverse t := by
  have hsplit : (0 :: (hi ++ e::lo)).reverse = (lo.reverse ++ [e]) ++ (hi.reverse ++ [0]) := by
    simp
  rw [hsplit, seekWalk_append (.inl (by simp)), seekWalk_snoc]

/-- What a walk over `eps` leaves. -/
structure Walked (e : Eid) (eps : List Eid) (t t' : HtcTarget) : Prop where
  other : ∀ x, x∉eps → t'.endpoint x = t.endpoint x
  reduced : ∀ x∈eps, t'.endpoint x = t.endpoint x ∨
    (t.endpoint x).credMin ≤ (t'.endpoint x).credAssngd ∧
    (t'.endpoint x).credMin = (t.endpoint x).credMin
  given : ∀ x, (t'.endpoint x).credits ≤ (t.endpoint x).credits
  free : t'.curFreeCredits = t.curFreeCredits + taken t t' eps
  enough : t'.curFreeCredits ≤ max t.curFreeCredits (t.endpoint e).seekCred

theorem Walked.refl (e : Eid) (eps : List Eid) (t : HtcTarget) : Walked e eps t t where
  other _ _ := rfl
  reduced _ _ := .inl rfl
  given _ := le_rfl
  free := by simp [taken]
  enough := le_max_left _ _

theorem taken_congr {t u t' u' : HtcTarget} {eps : List Eid}
    (h : ∀ x∈eps, t.endpoint x = u.endpoint x) (h' : ∀ x∈eps, t'.endpoint x = u'.endpoint x) :
    taken t t' eps = taken u u' eps := by
  unfold taken
  congr 1
  refine List.map_congr_left fun x hx => ?_
  rw [h x hx, h' x hx]

theorem taken_same {t t' : HtcTarget} {eps : List Eid}
    (h : ∀ x∈eps, t'.endpoint x = t.endpoint x) : taken t t' eps = 0 := by
  rw [taken_congr (fun _ _ => rfl) h]
  simp [taken]

theorem taken_cons (t t' : HtcTarget) (cur : Eid) (eps : List Eid) :
    taken t t' (cur::eps) =
      (t.endpoint cur).credits - (t'.endpoint cur).credits + taken t t' eps := by
  simp [taken]

/-- One turn of the walk: `cur` gives up to `need` credits. -/
theorem Walked.reduce {e cur : Eid} (eps : List Eid) {t : HtcTarget}
    (hcap : Capped t cur) (hnot : cur∉eps)
    (hneed : t.curFreeCredits < (t.endpoint e).seekCred)
    (htake : (t.endpoint cur).credAssngd - ((t.endpoint e).seekCred - t.curFreeCredits) ≥
      (t.endpoint cur).credMin) :
    Walked e (cur::eps) t (creditReduce t cur
      ((t.endpoint cur).credAssngd - ((t.endpoint e).seekCred - t.curFreeCredits))) := by
  unfold Capped at hcap
  generalize hlim : (t.endpoint cur).credAssngd -
    ((t.endpoint e).seekCred - t.curFreeCredits) = limit at htake
  have hself := creditReduce_self t cur limit
  have hother : ∀ x, x ≠ cur → (creditReduce t cur limit).endpoint x = t.endpoint x :=
    fun x hx => creditReduce_other hx
  have hfree : (creditReduce t cur limit).curFreeCredits =
      t.curFreeCredits + ((t.endpoint cur).credits - min (t.endpoint cur).credits limit) := by
    rw [creditReduce_eq]
  refine ⟨fun x hx => hother x fun h => hx (h ▸ List.mem_cons_self), fun x hx => ?_,
    fun x => ?_, ?_, ?_⟩
  · by_cases hxc : x = cur
    · rw [hxc, hself]
      exact .inr ⟨htake, rfl⟩
    · exact .inl (hother x hxc)
  · by_cases hxc : x = cur
    · rw [hxc, hself]
      exact min_le_left _ _
    · rw [hother x hxc]
  · rw [taken_cons, hself, taken_same fun x hx => hother x fun h => hnot (h ▸ hx), hfree]
    dsimp only
    omega
  · rw [hfree]
    omega

theorem Walked.cons {e cur : Eid} {eps : List Eid} {t u v : HtcTarget} (hnot : cur∉eps)
    (h : Walked e (cur::eps) t u) (hfirst : ∀ x∈eps, u.endpoint x = t.endpoint x)
    (k : Walked e eps u v) (he : u.endpoint e = t.endpoint e) : Walked e (cur::eps) t v where
  other x hx := by
    rw [k.other x fun hm => hx (List.mem_cons_of_mem _ hm), h.other x hx]
  reduced x hx := by
    obtain rfl | hx := List.mem_cons.mp hx
    · rw [k.other x hnot]
      exact h.reduced x List.mem_cons_self
    · rw [← hfirst x hx]
      exact k.reduced x hx
  given x := (k.given x).trans (h.given x)
  free := by
    have hhead := taken_same hfirst
    have htail : taken u v eps = taken t v eps := taken_congr hfirst fun _ _ => rfl
    rw [k.free, h.free, taken_cons, taken_cons, k.other cur hnot, hhead, htail]
    omega
  enough := by
    have hu := h.enough
    have hv := k.enough
    rw [he] at hv
    omega

theorem seekWalk_walked {e : Eid} {eps : List Eid} (he : e∉eps) (h0 : 0∉eps) (hnd : eps.Nodup)
    {t : HtcTarget} (hcap : ∀ x∈eps, Capped t x)
    (hneed : t.curFreeCredits < (t.endpoint e).seekCred) :
    Walked e eps t (seekWalk e eps t) := by
  induction eps generalizing t with
  | nil => exact Walked.refl e [] t
  | cons cur eps ih =>
    have hce := List.ne_of_not_mem_cons he
    have hc0 := List.ne_of_not_mem_cons h0
    have he := List.not_mem_of_not_mem_cons he
    have h0 := List.not_mem_of_not_mem_cons h0
    obtain ⟨hnot, hnd⟩ := List.nodup_cons.mp hnd
    have hcap' : ∀ x∈eps, Capped t x := fun x hx => hcap x (List.mem_cons_of_mem cur hx)
    unfold seekWalk
    rw [if_neg (Ne.symm hce)]
    dsimp only
    by_cases htake : (t.endpoint cur).credAssngd - ((t.endpoint e).seekCred - t.curFreeCredits) ≥
        (t.endpoint cur).credMin
    · have hw := Walked.reduce eps (hcap cur List.mem_cons_self) hnot hneed htake
      have hfirst : ∀ x, x ≠ cur → (creditReduce t cur ((t.endpoint cur).credAssngd -
          ((t.endpoint e).seekCred - t.curFreeCredits))).endpoint x = t.endpoint x :=
        fun x hx => creditReduce_other hx
      simp only [htake, if_true, true_and]
      split
      · exact hw
      next hmore =>
        rw [if_neg (Ne.symm hc0)]
        have hse := hfirst e hce
        refine hw.cons hnot (fun x hx => hfirst x fun h => hnot (h ▸ hx)) ?_ hse
        refine ih he h0 hnd (fun x hx => ?_) (not_le.mp hmore)
        unfold Capped
        rw [hfirst x fun h => hnot (h ▸ hx)]
        exact hcap' x hx
    · simp only [htake, if_false, false_and]
      rw [if_neg (Ne.symm hc0)]
      exact (Walked.refl e (cur::eps) t).cons hnot (fun _ _ => rfl)
        (ih he h0 hnd hcap' hneed) rfl

theorem taken_reverse (t t' : HtcTarget) (eps : List Eid) :
    taken t t' eps.reverse = taken t t' eps := by
  simp [taken, List.map_reverse, List.sum_reverse]

section
variable (t : HtcTarget) (e : Eid) (credits : Int)

theorem seekOut_self : (seekOut t e credits).endpoint e =
    { t.endpoint e with
      credits := (t.endpoint e).credits + credits
      credAssngd := (t.endpoint e).credAssngd + credits
      seekCred := 0 } := by
  unfold seekOut
  by_cases h : credits = 0
  · simp [h]
  · simp only [if_pos h, put_self]
    simp [creditDeposit, HtcTarget.put]

theorem seekOut_other {x : Eid} (hx : x ≠ e) :
    (seekOut t e credits).endpoint x = t.endpoint x := by
  unfold seekOut
  by_cases h : credits = 0
  · simp [h, put_other hx]
  · simp only [if_pos h]
    simp [creditDeposit, HtcTarget.put, hx]

theorem seekOut_free : (seekOut t e credits).curFreeCredits = t.curFreeCredits - credits := by
  unfold seekOut
  by_cases h : credits = 0
  · simp [h, HtcTarget.put]
  · simp only [if_pos h]
    rfl

end

/-- What a seek by `e` may do, when `lo` are the endpoints of lower priority. -/
structure Fair (t t' : HtcTarget) (e : Eid) (lo : List Eid) : Prop where
  higher : ∀ x, x ≠ e → x∉lo → t'.endpoint x = t.endpoint x
  minima : ∀ x∈lo, t'.endpoint x ≠ t.endpoint x →
    (t'.endpoint x).credMin ≤ (t'.endpoint x).credAssngd
  given : ∀ x∈lo, (t'.endpoint x).credits ≤ (t.endpoint x).credits
  missing : taken t t' lo ≤ max 0 ((t.endpoint e).seekCred - t.curFreeCredits)
  refused : Refused (t.endpoint e) → taken t t' lo = 0 ∧
    (t'.endpoint e).credits = (t.endpoint e).credits ∧ t'.curFreeCredits = t.curFreeCredits
  granted : ¬Refused (t.endpoint e) →
    (t'.endpoint e).credits = (t.endpoint e).credits +
      min (t.curFreeCredits + taken t t' lo) (t.endpoint e).seekCred ∧
    t'.curFreeCredits = t.curFreeCredits + taken t t' lo -
      min (t.curFreeCredits + taken t t' lo) (t.endpoint e).seekCred
  free : 0 ≤ t.curFreeCredits → 0 ≤ t'.curFreeCredits

section
variable {t w : HtcTarget} {e : Eid} {lo : List Eid}

theorem seekOut_refused (he : e∉lo) (h : Refused (t.endpoint e)) :
    Fair t (seekOut t e 0) e lo := by
  have hother : ∀ x∈lo, (seekOut t e 0).endpoint x = t.endpoint x :=
    fun x hx => seekOut_other t e 0 fun h => he (h ▸ hx)
  have htaken := taken_same hother
  have hfree : (seekOut t e 0).curFreeCredits = t.curFreeCredits := by
    rw [seekOut_free, Int.sub_zero]
  refine ⟨fun x hx _ => seekOut_other t e 0 hx, fun x hx hne => absurd (hother x hx) hne,
    fun x hx => by rw [hother x hx], ?_, fun _ => ⟨htaken, ?_, hfree⟩, fun hn => absurd h hn, ?_⟩
  · rw [htaken]
    exact le_max_left _ _
  · rw [seekOut_self]
    exact Int.add_zero _
  · rw [hfree]
    exact id

theorem seekOut_granted (he : e∉lo) (h : ¬Refused (t.endpoint e)) (hw : Walked e lo t w) :
    Fair t (seekOut w e (min w.curFreeCredits (t.endpoint e).seekCred)) e lo := by
  have hself := hw.other e he
  have hother : ∀ x, x ≠ e → (seekOut w e (min w.curFreeCredits (t.endpoint e).seekCred)).endpoint
      x = w.endpoint x := fun x hx => seekOut_other w e _ hx
  have hlo : ∀ x∈lo, x ≠ e := fun x hx h => he (h ▸ hx)
  have htaken : taken t (seekOut w e (min w.curFreeCredits (t.endpoint e).seekCred)) lo =
      taken t w lo := taken_congr (fun _ _ => rfl) fun x hx => hother x (hlo x hx)
  have hfree := hw.free
  have hmax := hw.enough
  refine ⟨fun x hx hn => ?_, fun x hx hne => ?_, fun x hx => ?_, ?_, fun hr => absurd hr h,
    fun _ => ⟨?_, ?_⟩, fun h0 => ?_⟩
  · rw [hother x hx, hw.other x hn]
  · rw [hother x (hlo x hx)] at hne ⊢
    obtain ⟨hmin, hkeep⟩ := (hw.reduced x hx).resolve_left hne
    rw [hkeep]
    exact hmin
  · rw [hother x (hlo x hx)]
    exact hw.given x
  · rw [htaken]
    omega
  · rw [seekOut_self, hself, htaken, hfree]
  · rw [seekOut_free, htaken, hfree]
  · rw [seekOut_free]
    omega

theorem Walked.reverse (h : Walked e lo.reverse t w) : Walked e lo t w where
  other x hx := h.other x fun hm => hx (List.mem_reverse.mp hm)
  reduced x hx := h.reduced x (List.mem_reverse.mpr hx)
  given := h.given
  free := by rw [h.free, taken_reverse]
  enough := h.enough

theorem creditSeek_fair {hi : List Eid} (hlist : t.credDistList = 0 :: (hi ++ e::lo))
    (hnd : t.credDistList.Nodup) (hcap : ∀ x∈lo, Capped t x)
    (hdata : (t.endpoint e).svcId ≠ .wmiControl) : Fair t (creditSeek t e) e lo := by
  rw [hlist] at hnd
  obtain ⟨hno0, hnd⟩ := List.nodup_cons.mp hnd
  have h0 : (0 : Eid)∉lo := fun h =>
    hno0 (List.mem_append_right hi (List.mem_cons_of_mem e h))
  obtain ⟨he, hndlo⟩ := List.nodup_cons.mp (List.nodup_append.mp hnd).2.1
  unfold creditSeek
  dsimp only
  rw [if_neg hdata]
  by_cases hr : Refused (t.endpoint e)
  · split
    · exact seekOut_refused he hr
    next hmax =>
      rw [if_pos ⟨hr.1, hr.2.resolve_left fun h => hmax ⟨hr.1, h⟩⟩]
      exact seekOut_refused he hr
  · rw [if_neg fun h => hr ⟨h.1, .inl h.2⟩, if_neg fun h => hr ⟨h.1, .inr h.2⟩]
    split
    · exact seekOut_granted he hr (Walked.refl e lo t)
    next hmore =>
      have hw := seekWalk_walked (mt List.mem_reverse.mp he) (mt List.mem_reverse.mp h0)
        (List.nodup_reverse.mpr hndlo) (t := t)
        (fun x hx => hcap x (List.mem_reverse.mp hx)) (by omega)
      rw [hlist, seekWalk_lower, hw.other e (mt List.mem_reverse.mp he)]
      exact seekOut_granted he hr hw.reverse

end

/-- A data endpoint gets what is free and what it can take from lower priorities, unless it is
a video endpoint with its share; the walk never looks behind `ENDPOINT_0`. -/
theorem credit_seek_fair {t : HtcTarget} {e : Eid} {hi lo : List Eid}
    (hlist : t.credDistList = 0 :: (hi ++ e::lo)) (hnd : t.credDistList.Nodup)
    (hcap : ∀ x, Capped t x) (hdata : (t.endpoint e).svcId ≠ .wmiControl) :
    (∀ beyond, seekWalk e (t.credDistList.reverse ++ beyond) t =
      seekWalk e t.credDistList.reverse t) ∧ Fair t (creditSeek t e) e lo := by
  constructor
  · intro beyond
    exact seekWalk_append (.inl (by simp [hlist])) beyond t
  · exact creditSeek_fair hlist hnd (fun x _ => hcap x) hdata

/-- Voice takes from best effort what is not free. -/
def seekTarget (svc : SvcId) : HtcTarget where
  endpoint
    | 4 => { svcId := svc, credPerMsg := 2, credits := 4, credAssngd := 4, credNorm := 4,
             credMin := 2, seekCred := 3 }
    | 2 => { svcId := .wmiDataBe, credPerMsg := 2, credits := 6, credAssngd := 6, credMin := 2 }
    | _ => { svcId := .none, credPerMsg := 2 }
  credDistList := [0, 1, 4, 2]
  tgtCredSz := 1664
  curFreeCredits := 1

theorem credit_seek_fair_voice :
    (∀ beyond, seekWalk 4 ([0, 1, 4, 2].reverse ++ beyond) (seekTarget .wmiDataVo) =
      seekWalk 4 [0, 1, 4, 2].reverse (seekTarget .wmiDataVo)) ∧
    Fair (seekTarget .wmiDataVo) (creditSeek (seekTarget .wmiDataVo) 4) 4 [2] := by
  have hlist : (seekTarget .wmiDataVo).credDistList = 0 :: ([1] ++ 4::[2]) := rfl
  exact credit_seek_fair hlist (by decide) (by unfold Capped; decide) (by decide)

/-- Video with its share gets none of the free credits. -/
theorem credit_seek_video :
    ¬∀ (t : HtcTarget) (e : Eid) (hi lo : List Eid), t.credDistList = 0 :: (hi ++ e::lo) →
      t.credDistList.Nodup →
      (∀ x, 0 ≤ (t.endpoint x).credits ∧ (t.endpoint x).credits ≤ (t.endpoint x).credAssngd) →
      (t.endpoint e).svcId ≠ .wmiControl → 0 < (t.endpoint e).seekCred →
      ((creditSeek t e).endpoint e).credits = (t.endpoint e).credits +
        min (t.curFreeCredits + taken t (creditSeek t e) lo) (t.endpoint e).seekCred := by
  intro h
  have hvideo := h (seekTarget .wmiDataVi) 4 [1] [2] rfl (by decide) (by decide) (by decide)
    (by decide)
  exact absurd hvideo (by decide)

end Ath6kl.HtcCredit
