import Mathlib.Data.List.Basic
import Ath6kl.P2pRc

/-! What `ath6kl_p2p_rc_get` keeps: the averages are written before they are read, so a
recommendation is a function of the rest of the table, and the cache is as good as that
table's channels are current. -/
namespace Ath6kl.P2pRc
open Lib.BestScan Lib.Machine

/-! The table up to its averages. -/

theorem forget_channel (t : RcTable) (i : Nat) :
    (t.forget.record i).channel = (t.record i).channel := by
  simp only [RcTable.record, RcTable.forget, List.getD_eq_getElem?_getD, List.getElem?_map]
  cases t.records[i]? <;> rfl

theorem forget_bestSnr (t : RcTable) (i : Nat) :
    (t.forget.record i).bestSnr = (t.record i).bestSnr := by
  simp only [RcTable.record, RcTable.forget, List.getD_eq_getElem?_getD, List.getElem?_map]
  cases t.records[i]? <;> rfl

theorem forget_forget (t : RcTable) : t.forget.forget = t.forget := by
  simp only [RcTable.forget, List.map_map]
  rfl

section Same
variable {t u : RcTable} (h : t.forget = u.forget)
include h

theorem channel_congr (i : Nat) : (t.record i).channel = (u.record i).channel := by
  rw [← forget_channel t, ← forget_channel u, h]

theorem bestSnr_congr (i : Nat) : (t.record i).bestSnr = (u.record i).bestSnr := by
  rw [← forget_bestSnr t, ← forget_bestSnr u, h]

theorem flags_congr (c : Nat) : t.flags c = u.flags c := by
  have hc := congrArg (fun v : RcTable => v.flags c) h
  exact hc

theorem high_congr : t.high = u.high := by
  have hh := congrArg RcTable.high h
  exact hh

theorem mem_congr {r : ChanRecord} (hr : r∈t.records) :
    ∃ s∈u.records, s.channel = r.channel := by
  have hm := congrArg RcTable.records h
  change t.records.map _ = u.records.map _ at hm
  have hr' := List.mem_map_of_mem (f := fun r : ChanRecord => { r with averSnr := 0 }) hr
  rw [hm] at hr'
  obtain ⟨s, hs, he⟩ := List.mem_map.mp hr'
  exact ⟨s, hs, by simpa using congrArg ChanRecord.channel he⟩

theorem isUserChannel_congr (freq : Nat) : isUserChannel t freq = isUserChannel u freq := by
  have hu := congrArg (fun v : RcTable => isUserChannel v freq) h
  exact hu

theorem averOf_congr (freq i : Nat) : averOf t freq i = averOf u freq i := by
  simp only [averOf, averageSnr, channel_congr h, bestSnr_congr h]

theorem skips2g_congr (w : Want2g) (freq c : Nat) : w.skips t freq c = w.skips u freq c := by
  simp only [Want2g.skips, isUserChannel_congr h, flags_congr h]

theorem skips5g_congr (w : Want5g) (freq c i : Nat) :
    w.skips t freq c i = w.skips u freq c i := by
  simp only [Want5g.skips, isUserChannel_congr h, flags_congr h, bestSnr_congr h]

end Same

theorem forget_setAver (t : RcTable) (i v : Nat) : (t.setAver i v).forget = t.forget := by
  have hr : ((t.setAver i v).records.map fun r => { r with averSnr := 0 }) =
      t.records.map fun r => { r with averSnr := 0 } := by
    apply List.ext_getElem?
    intro j
    simp only [RcTable.setAver, List.getElem?_map, List.getElem?_modify]
    cases t.records[j]? with
    | none => rfl
    | some r => by_cases hj : i = j <;> simp [hj]
  simp only [RcTable.forget, hr]
  rfl

theorem setAver_ne (t : RcTable) {i j : Nat} (v : Nat) (h : i ≠ j) :
    (t.setAver i v).record j = t.record j := by
  simp only [RcTable.record, RcTable.setAver, List.getD_eq_getElem?_getD, List.getElem?_modify]
  cases t.records[j]? <;> simp [h]

theorem setAver_self {t : RcTable} {i c : Nat} (v : Nat) (h : (t.record i).channel = some c) :
    ((t.setAver i v).record i).averSnr = v := by
  simp only [RcTable.record, RcTable.setAver, List.getD_eq_getElem?_getD, List.getElem?_modify]
    at h ⊢
  cases hr : t.records[i]? with
  | none => rw [hr] at h; cases h
  | some r => simp

/-! The recommendation as a function of the table. -/

section Pure
variable (W : Wiphy)

def eligible2g (w : Want2g) (t : RcTable) (i : Nat) : Bool :=
  match (t.record i).channel with
  | none => false
  | some c => !w.skips t (W.freq c) c

def averAt (t : RcTable) (i : Nat) : Nat :=
  match (t.record i).channel with
  | none => 0
  | some c => averOf t (W.freq c) i

def best2g (w : Want2g) (t : RcTable) : Option Nat :=
  best (fun x b => decide (averAt W t b < averAt W t x + t.high))
    ((List.range max2gChanRecord).filter (eligible2g W w t))

def overallOf (t : RcTable) (g2 g5 : Option Nat) : Option Nat :=
  match g2, g5 with
  | some a, some b =>
    if (t.record b).bestSnr + t.snrCompensation < averAt W t a then some a else some b
  | some a, none => some a
  | none, some b => some b
  | none, none => none

def recommend (t : RcTable) : RcType → Option Nat
  | .all2G => best2g W ⟨false, false, false, false⟩ t
  | .all5G => get5gChan W ⟨false, false, false⟩ t
  | .overall => overallOf W t (best2g W ⟨false, false, false, false⟩ t)
      (get5gChan W ⟨false, false, false⟩ t)
  | .social => best2g W ⟨true, false, false, false⟩ t
  | .p2p2G => best2g W ⟨false, true, false, false⟩ t
  | .p2p5G => get5gChan W ⟨true, true, false⟩ t
  | .allP2p => overallOf W t (best2g W ⟨false, true, false, false⟩ t)
      (get5gChan W ⟨true, true, false⟩ t)
  | .noDfs5G => get5gChan W ⟨false, true, false⟩ t
  | .overallNoDfs => overallOf W t (best2g W ⟨false, false, false, false⟩ t)
      (get5gChan W ⟨false, true, false⟩ t)
  | .noLte2G => best2g W ⟨false, false, false, true⟩ t
  | .overallNoLte => overallOf W t (best2g W ⟨false, false, false, true⟩ t)
      (get5gChan W ⟨false, false, false⟩ t)
  | .overallNoLteDfs => overallOf W t (best2g W ⟨false, false, false, true⟩ t)
      (get5gChan W ⟨false, true, false⟩ t)
  | .userChan => overallOf W t (best2g W ⟨false, false, true, false⟩ t)
      (get5gChan W ⟨false, false, true⟩ t)

variable {W}

theorem eligible2g_congr {t u : RcTable} (h : t.forget = u.forget) (w : Want2g) (i : Nat) :
    eligible2g W w t i = eligible2g W w u i := by
  simp only [eligible2g, channel_congr h, skips2g_congr h]

theorem averAt_congr {t u : RcTable} (h : t.forget = u.forget) (i : Nat) :
    averAt W t i = averAt W u i := by
  simp only [averAt, channel_congr h, averOf_congr h]

theorem best2g_congr {t u : RcTable} (h : t.forget = u.forget) (w : Want2g) :
    best2g W w t = best2g W w u := by
  have he : eligible2g W w t = eligible2g W w u := funext (eligible2g_congr h w)
  simp only [best2g, he, averAt_congr h, high_congr h]

theorem get5gChan_congr {t u : RcTable} (h : t.forget = u.forget) (w : Want5g) :
    get5gChan W w t = get5gChan W w u := by
  have hs : get5gStep W w t = get5gStep W w u := by
    funext o i
    simp only [get5gStep, channel_congr h, skips5g_congr h, bestSnr_congr h, high_congr h]
  rw [get5gChan, get5gChan, hs]

theorem overallOf_congr {t u : RcTable} (h : t.forget = u.forget) (g2 g5 : Option Nat) :
    overallOf W t g2 g5 = overallOf W u g2 g5 := by
  have hc := congrArg RcTable.snrCompensation h
  change t.snrCompensation = u.snrCompensation at hc
  simp only [overallOf, bestSnr_congr h, averAt_congr h, hc]

theorem recommend_congr {t u : RcTable} (h : t.forget = u.forget) :
    recommend W t = recommend W u := by
  funext ty
  cases ty <;> simp only [recommend, best2g_congr h, get5gChan_congr h, overallOf_congr h]

theorem best2g_slot {w : Want2g} {t : RcTable} {i : Nat} (h : best2g W w t = some i) :
    i < max2gChanRecord ∧ (t.record i).channel.isSome := by
  obtain ⟨hr, he⟩ := List.mem_filter.mp (best_mem h)
  refine ⟨List.mem_range.mp hr, ?_⟩
  cases hc : (t.record i).channel with
  | none => simp [eligible2g, hc] at he
  | some c => rfl

theorem get5gChan_slot {w : Want5g} {t : RcTable} {i : Nat} (h : get5gChan W w t = some i) :
    (t.record i).channel.isSome := by
  have hstep : ∀ (xs : List Nat) (o : Option Nat),
      (∀ b, o = some b → (t.record b).channel.isSome) →
      ∀ b, xs.foldl (get5gStep W w t) o = some b → (t.record b).channel.isSome := by
    intro xs
    induction xs with
    | nil => exact fun o ho => ho
    | cons x xs ih =>
      intro o ho
      apply ih
      intro b hb
      cases hc : (t.record x).channel with
      | none => simp only [get5gStep, hc] at hb; exact ho b hb
      | some c =>
        simp only [get5gStep, hc] at hb
        split at hb
        · exact ho b hb
        · rcases keep_eq_or _ o x with hx | hx
          · rw [hx] at hb
            cases hb
            simp [hc]
          · rw [hx] at hb
            exact ho b hb
  exact hstep slots5g none (fun b hb => by cases hb) i h

theorem overallOf_slot {t : RcTable} {g2 g5 : Option Nat} {i : Nat}
    (h2 : ∀ a, g2 = some a → (t.record a).channel.isSome)
    (h5 : ∀ b, g5 = some b → (t.record b).channel.isSome)
    (h : overallOf W t g2 g5 = some i) : (t.record i).channel.isSome := by
  cases g2 with
  | none =>
    cases g5 with
    | none => cases h
    | some b => cases h; exact h5 _ rfl
  | some a =>
    cases g5 with
    | none => cases h; exact h2 _ rfl
    | some b =>
      simp only [overallOf] at h
      split at h
      · cases h; exact h2 _ rfl
      · cases h; exact h5 _ rfl

theorem recommend_slot {t : RcTable} {ty : RcType} {i : Nat} (h : recommend W t ty = some i) :
    (t.record i).channel.isSome := by
  cases ty with
  | all2G | social | p2p2G | noLte2G => exact (best2g_slot h).2
  | all5G | p2p5G | noDfs5G => exact get5gChan_slot h
  | overall | allP2p | overallNoDfs | overallNoLte | overallNoLteDfs | userChan =>
    exact overallOf_slot (fun a ha => (best2g_slot ha).2) (fun b hb => get5gChan_slot hb) h

end Pure

/-! The computation against that function. -/

section Compute
variable {W : Wiphy}

/-- The average in the record is the one the loop would compute. -/
def Known (W : Wiphy) (t : RcTable) (i : Nat) : Prop :=
  (t.record i).channel.isSome ∧ (t.record i).averSnr = averAt W t i

theorem Known.setAver {t : RcTable} {i c j : Nat} (hc : (t.record i).channel = some c)
    (h : j = i ∨ Known W t j) : Known W (t.setAver i (averOf t (W.freq c) i)) j := by
  have hf := forget_setAver t i (averOf t (W.freq c) i)
  rw [Known, averAt_congr hf, channel_congr hf]
  by_cases hji : i = j
  · subst hji
    rw [setAver_self _ hc]
    simp [averAt, hc]
  · rw [setAver_ne t _ hji]
    rcases h with rfl | hk
    · exact absurd rfl hji
    · exact hk

theorem get2gStep_skip {w : Want2g} {t : RcTable} {o : Option Nat} {i : Nat}
    (h : eligible2g W w t i = false) : get2gStep W w (t, o) i = (t, o) := by
  cases hc : (t.record i).channel with
  | none => simp only [get2gStep, hc]
  | some c =>
    simp only [eligible2g, hc, Bool.not_eq_false'] at h
    simp [get2gStep, hc, h]

theorem get2gStep_take {w : Want2g} {t : RcTable} (o : Option Nat) {i : Nat}
    (h : eligible2g W w t i = true) : ∃ c, (t.record i).channel = some c ∧
      get2gStep W w (t, o) i = (t.setAver i (averOf t (W.freq c) i),
        keep (fun x b => decide (((t.setAver i (averOf t (W.freq c) i)).record b).averSnr <
          ((t.setAver i (averOf t (W.freq c) i)).record x).averSnr + t.high)) o i) := by
  cases hc : (t.record i).channel with
  | none => simp [eligible2g, hc] at h
  | some c =>
    simp only [eligible2g, hc, Bool.not_eq_true'] at h
    refine ⟨c, rfl, ?_⟩
    simp only [get2gStep, hc, h]
    rfl

theorem get2gStep_forget (w : Want2g) (t : RcTable) (o : Option Nat) (i : Nat) :
    (get2gStep W w (t, o) i).1.forget = t.forget := by
  cases h : eligible2g W w t i with
  | false => rw [get2gStep_skip h]
  | true =>
    obtain ⟨c, -, he⟩ := get2gStep_take o h
    rw [he, forget_setAver]

theorem get2gStep_known (w : Want2g) {t : RcTable} (o : Option Nat) {i j : Nat}
    (h : Known W t j ∨ j = i ∧ eligible2g W w t i = true) :
    Known W (get2gStep W w (t, o) i).1 j := by
  cases hi : eligible2g W w t i with
  | false =>
    rw [get2gStep_skip hi]
    rcases h with hk | ⟨-, hj⟩
    · exact hk
    · rw [hi] at hj
      cases hj
  | true =>
    obtain ⟨c, hc, he⟩ := get2gStep_take o hi
    rw [he]
    exact Known.setAver hc (h.symm.imp And.left id)

theorem get2gStep_pick {w : Want2g} {t u : RcTable} {o : Option Nat} {i : Nat}
    (hu : t.forget = u.forget) (hi : eligible2g W w u i = true)
    (ho : ∀ b, o = some b → Known W t b) :
    (get2gStep W w (t, o) i).2 =
      keep (fun x b => decide (averAt W u b < averAt W u x + u.high)) o i := by
  obtain ⟨c, hc, he⟩ := get2gStep_take o ((eligible2g_congr hu w i).trans hi)
  have hf : (t.setAver i (averOf t (W.freq c) i)).forget = u.forget :=
    (forget_setAver t i _).trans hu
  rw [he]
  apply keep_congr
  intro b hb
  have hx := (Known.setAver (W := W) hc (Or.inl rfl)).2
  have hy := (Known.setAver hc (Or.inr (ho b hb))).2
  simp only [hx, hy, averAt_congr hf, high_congr hu]

theorem get2g_spec (w : Want2g) {t u : RcTable} (h : t.forget = u.forget) :
    (get2gChan W w t).1.forget = u.forget ∧ (get2gChan W w t).2 = best2g W w u ∧
      (∀ i∈List.range max2gChanRecord, eligible2g W w u i = true →
        Known W (get2gChan W w t).1 i) ∧
      ∀ i, Known W t i → Known W (get2gChan W w t).1 i := by
  have he : ∀ s : RcTable, s.forget = u.forget → ∀ x, eligible2g W w s x = eligible2g W w u x :=
    fun s hs x => eligible2g_congr hs w x
  apply memo_scan (I := fun s : RcTable => s.forget = u.forget) (K := Known W)
  · exact fun s o x hs hx => get2gStep_skip ((he s hs x).trans hx)
  · exact fun s o x hs => (get2gStep_forget w s o x).trans hs
  · exact fun s o x hs hx => get2gStep_known w o (Or.inr ⟨rfl, (he s hs x).trans hx⟩)
  · exact fun s o x y _ hy => get2gStep_known w o (Or.inl hy)
  · exact fun s o x hs hx ho => get2gStep_pick hs hx ho
  · exact h
  · exact fun b hb => by cases hb

/-- How far the computation has come: the pointers are `l`, and the averages of all 2 GHz
channels are in their records. -/
structure Stage (W : Wiphy) (t : RcTable) (p : Picks) (l : RcType → Option Nat) : Prop where
  same : p.tab.forget = t.forget
  known : ∀ i, i < max2gChanRecord → (p.tab.record i).channel.isSome → Known W p.tab i
  last : p.last = l

def upd (l : RcType → Option Nat) (ty : RcType) (o : Option Nat) : RcType → Option Nat :=
  fun u => if u = ty then o else l u

namespace Stage
variable {t : RcTable} {p : Picks} {l : RcType → Option Nat}

theorem put (h : Stage W t p l) (ty : RcType) (o : Option Nat) :
    Stage W t (p.put ty o) (upd l ty o) := by
  refine ⟨h.same, h.known, ?_⟩
  rw [Picks.put, h.last]
  rfl

theorem retab (h : Stage W t p l) {tab : RcTable} (hf : tab.forget = t.forget)
    (hk : ∀ i, Known W p.tab i → Known W tab i) : Stage W t { p with tab := tab } l := by
  refine ⟨hf, ?_, h.last⟩
  intro i hi hc
  apply hk i (h.known i hi ?_)
  rw [channel_congr h.same, ← channel_congr hf]
  exact hc

theorem start {tab : RcTable} (hf : tab.forget = t.forget)
    (hk : ∀ i∈List.range max2gChanRecord,
      eligible2g W ⟨false, false, false, false⟩ t i = true → Known W tab i) :
    Stage W t ⟨tab, noPicks⟩ noPicks := by
  refine ⟨hf, ?_, rfl⟩
  intro i hi hc
  change (tab.record i).channel.isSome at hc
  apply hk i (List.mem_range.mpr hi)
  rw [channel_congr hf] at hc
  obtain ⟨c, hc⟩ := Option.isSome_iff_exists.mp hc
  simp [eligible2g, hc, Want2g.skips]

theorem first (t : RcTable) (ty : RcType) : Stage W t
    (Picks.set2g W ⟨t, noPicks⟩ ty ⟨false, false, false, false⟩)
    (upd noPicks ty (best2g W ⟨false, false, false, false⟩ t)) := by
  obtain ⟨hf, hb, hk, -⟩ := get2g_spec (W := W) ⟨false, false, false, false⟩ (Eq.refl t.forget)
  simp only [Picks.set2g, hb]
  exact (start hf hk).put ty _

theorem set2g (h : Stage W t p l) (ty : RcType) (w : Want2g) :
    Stage W t (p.set2g W ty w) (upd l ty (best2g W w t)) := by
  obtain ⟨hf, hb, -, hk⟩ := get2g_spec (W := W) w h.same
  simp only [Picks.set2g, hb]
  exact (h.retab hf hk).put ty _

theorem set5g (h : Stage W t p l) (ty : RcType) (w : Want5g) :
    Stage W t (p.set5g W ty w) (upd l ty (get5gChan W w t)) := by
  rw [Picks.set5g, get5gChan_congr h.same]
  exact h.put ty _

theorem overall (h : Stage W t p l) {ty : RcType} {w : Want2g} {g2 : Option Nat}
    (g5 : Option Nat) (hn : l ty = none) (h2 : g2 = best2g W w t) :
    Stage W t (p.setOverall ty g2 g5) (upd l ty (overallOf W t g2 g5)) := by
  cases hg : g2 with
  | none =>
    cases g5 with
    | some b => exact h.put ty (some b)
    | none =>
      have hl : upd l ty none = l := by
        funext u
        by_cases hu : u = ty <;> simp [upd, hu, hn]
      simp only [Picks.setOverall, overallOf, hl]
      exact h
  | some a =>
    cases g5 with
    | none => exact h.put ty (some a)
    | some b =>
      obtain ⟨ha, hc⟩ := best2g_slot (h2.symm.trans hg)
      rw [← channel_congr h.same] at hc
      have hcomp := congrArg RcTable.snrCompensation h.same
      change p.tab.snrCompensation = t.snrCompensation at hcomp
      simp only [Picks.setOverall, overallOf, bestSnr_congr h.same, hcomp,
        (h.known a ha hc).2, averAt_congr h.same]
      split
      · exact h.put ty (some a)
      · exact h.put ty (some b)

theorem setOverall (h : Stage W t p l) (ty a b : RcType) {w : Want2g} (hn : l ty = none)
    (h2 : l a = best2g W w t) : Stage W t (p.setOverall ty (p.last a) (p.last b))
      (upd l ty (overallOf W t (l a) (l b))) := by
  rw [h.last]
  exact h.overall (l b) hn h2

theorem setUser (h : Stage W t p l) (hn : l .userChan = none) : Stage W t (p.setUser W)
    (upd l .userChan (overallOf W t (best2g W ⟨false, false, true, false⟩ t)
      (get5gChan W ⟨false, false, true⟩ t))) := by
  obtain ⟨hf, hb, -, hk⟩ := get2g_spec (W := W) ⟨false, false, true, false⟩ h.same
  simp only [Picks.setUser, hb, get5gChan_congr hf]
  exact (h.retab hf hk).overall _ hn rfl

end Stage

theorem compute_spec (t : RcTable) :
    Stage W t (Picks.compute W ⟨t, noPicks⟩) (recommend W t) := by
  have h1 := Stage.first (W := W) t .all2G
  have h2 := h1.set5g .all5G ⟨false, false, false⟩
  have h3 := h2.setOverall .overall .all2G .all5G rfl rfl
  have h4 := h3.set2g .social ⟨true, false, false, false⟩
  have h5 := h4.set2g .p2p2G ⟨false, true, false, false⟩
  have h6 := h5.set5g .p2p5G ⟨true, true, false⟩
  have h7 := h6.setOverall .allP2p .p2p2G .p2p5G rfl rfl
  have h8 := h7.set5g .noDfs5G ⟨false, true, false⟩
  have h9 := h8.setOverall .overallNoDfs .all2G .noDfs5G rfl rfl
  have h10 := h9.set2g .noLte2G ⟨false, false, false, true⟩
  have h11 := h10.setOverall .overallNoLte .noLte2G .all5G rfl rfl
  have h12 := h11.setOverall .overallNoLteDfs .noLte2G .noDfs5G rfl rfl
  have h13 := h12.setUser rfl
  refine ⟨h13.same, h13.known, h13.last.trans ?_⟩
  funext ty
  cases ty <;> rfl

theorem freshReport_eq (t : RcTable) :
    freshReport W t = Picks.report W ⟨t, recommend W t⟩ := by
  obtain ⟨hf, -, hl⟩ := compute_spec (W := W) t
  funext ty
  simp only [freshReport, Picks.report, hl, channel_congr hf]

end Compute

/-! The records. -/

section Records
variable {W : Wiphy}

/-- Every channel in a record is enabled. -/
def AllEnabled (flags : List ChanFlags) (rs : List ChanRecord) : Prop :=
  ∀ r∈rs, ∀ c, r.channel = some c → (flags.getD c noFlags).disabled = false

/-- These flags enable a channel of this slot. -/
def Enables (W : Wiphy) (flags : List ChanFlags) (i : Nat) : Prop :=
  ∃ c∈List.range W.channels.length, (flags.getD c noFlags).disabled = false ∧ W.slot c = some i

theorem getD_mem {rs : List ChanRecord} {i c : Nat}
    (h : (rs.getD i nullRecord).channel = some c) : ∃ r∈rs, r.channel = some c := by
  rw [List.getD_eq_getElem?_getD] at h
  cases hr : rs[i]? with
  | none => rw [hr] at h; cases h
  | some r =>
    rw [hr] at h
    exact ⟨r, List.mem_of_getElem? hr, h⟩

theorem slot_lt {c i : Nat} (h : W.slot c = some i) : i < maxChanRecord := by
  simp only [Wiphy.slot] at h
  split at h
  · cases h; omega
  · cases h

theorem fetchRecord_enabled {flags : List ChanFlags} {rs : List ChanRecord}
    (h : AllEnabled flags rs) (c : Nat) : AllEnabled flags (fetchRecord W flags rs c) := by
  rw [fetchRecord]
  split
  · exact h
  · rename_i hc
    cases W.slot c with
    | none => exact h
    | some i =>
      apply forall_modify _ h
      intro r _ d hd
      cases hd
      simpa using hc

theorem fetchRecords_enabled (flags : List ChanFlags) :
    AllEnabled flags (fetchRecords W flags) := by
  have hstep : ∀ (xs : List Nat) (rs : List ChanRecord), AllEnabled flags rs →
      AllEnabled flags (xs.foldl (fetchRecord W flags) rs) := by
    intro xs
    induction xs with
    | nil => exact fun rs h => h
    | cons c xs ih => exact fun rs h => ih _ (fetchRecord_enabled h c)
  apply hstep
  intro r hr c hc
  rw [List.eq_of_mem_replicate hr] at hc
  cases hc

theorem fetchRecord_length (flags : List ChanFlags) (rs : List ChanRecord) (c : Nat) :
    (fetchRecord W flags rs c).length = rs.length := by
  rw [fetchRecord]
  split
  · rfl
  · cases W.slot c with
    | none => rfl
    | some i => exact List.length_modify _ _ _

theorem fetchRecord_isSome {flags : List ChanFlags} {rs : List ChanRecord} {c i : Nat}
    (hl : rs.length = maxChanRecord)
    (h : (rs.getD i nullRecord).channel.isSome ∨
      (flags.getD c noFlags).disabled = false ∧ W.slot c = some i) :
    ((fetchRecord W flags rs c).getD i nullRecord).channel.isSome := by
  rw [fetchRecord]
  split
  · rename_i hc
    rcases h with h | ⟨hd, -⟩
    · exact h
    · rw [hd] at hc
      cases hc
  · cases hs : W.slot c with
    | none =>
      rcases h with h | ⟨-, hn⟩
      · exact h
      · rw [hs] at hn
        cases hn
    | some j =>
      have hj := slot_lt hs
      simp only [List.getD_eq_getElem?_getD, List.getElem?_modify]
      by_cases hji : j = i
      · subst hji
        rw [List.getElem?_eq_getElem (by omega)]
        simp
      · rcases h with h | ⟨-, hi⟩
        · rw [List.getD_eq_getElem?_getD] at h
          simpa [hji] using h
        · rw [hs] at hi
          exact absurd (Option.some.inj hi) hji

theorem fetchRecords_isSome {flags : List ChanFlags} {i : Nat} (h : Enables W flags i) :
    ((fetchRecords W flags).getD i nullRecord).channel.isSome := by
  have hrun : ∀ (xs : List Nat) (rs : List ChanRecord), rs.length = maxChanRecord →
      ((rs.getD i nullRecord).channel.isSome ∨
        ∃ c∈xs, (flags.getD c noFlags).disabled = false ∧ W.slot c = some i) →
      ((xs.foldl (fetchRecord W flags) rs).getD i nullRecord).channel.isSome := by
    intro xs
    induction xs with
    | nil => rintro rs _ (h | ⟨c, hc, -⟩)
             · exact h
             · cases hc
    | cons x xs ih =>
      intro rs hl hr
      apply ih _ ((fetchRecord_length flags rs x).trans hl)
      rcases hr with hr | ⟨c, hc, hen⟩
      · exact Or.inl (fetchRecord_isSome hl (Or.inl hr))
      · rcases List.mem_cons.mp hc with rfl | hm
        · exact Or.inl (fetchRecord_isSome hl (Or.inr hen))
        · exact Or.inr ⟨c, hm, hen⟩
  exact hrun _ _ (List.length_replicate ..) (Or.inr h)

theorem keepSnr_channel (r : ChanRecord) (snr : Nat) : (keepSnr r snr).channel = r.channel := by
  simp only [keepSnr]
  split <;> rfl

theorem modify_channel {f : ChanRecord → ChanRecord} (hf : ∀ r, (f r).channel = r.channel)
    (rs : List ChanRecord) (i j : Nat) :
    ((rs.modify i f).getD j nullRecord).channel = (rs.getD j nullRecord).channel := by
  simp only [List.getD_eq_getElem?_getD, List.getElem?_modify]
  by_cases hij : i = j
  · cases rs[j]? <;> simp [hij, hf]
  · simp [hij]

theorem map_channel {f : ChanRecord → ChanRecord} (hf : ∀ r, (f r).channel = r.channel)
    (rs : List ChanRecord) (j : Nat) :
    ((rs.map f).getD j nullRecord).channel = (rs.getD j nullRecord).channel := by
  simp only [List.getD_eq_getElem?_getD, List.getElem?_map]
  cases rs[j]? with
  | none => rfl
  | some r => exact hf r

end Records

/-! The runs. -/

/-- No dereference through `NULL` so far, and every pointer of the cache leads to a record
with an enabled channel. -/
structure Valid (p : Rc) : Prop where
  intact : p.oops = false
  live : ∀ ty i, p.picks.last ty = some i →
    ∃ c, (p.picks.tab.record i).channel = some c ∧ (p.picks.tab.flags c).disabled = false

/-- `ath6kl_p2p_rc_get` answers from the cache. -/
def Rc.findsDone (p : Rc) (late : Bool) : Prop :=
  p.needUpdated = false ∧ (p.alwaysFresh && late) = false ∧ p.done = true

/-- A query answered from the cache reports what a computation from the current records
would report. -/
def Answers (W : Wiphy) (p : Rc) : Event → Prop
  | .get late => p.findsDone late →
    (p.get W late).2 = .report (freshReport W p.picks.tab)
  | _ => True

/-- A regulatory update enables a channel for every record in the cache; a result for another
channel than the record's does not meet an empty record while the message about it is on; and
a query answered from the cache finds the table the cache was computed from. -/
def Meets (W : Wiphy) (debug : Bool) (p : Rc) : Event → Prop
  | .regUpdate flags => ∀ ty∈RcType.all, ∀ i∈p.picks.last ty, Enables W flags i
  | .bssInfo c _ => p.needUpdated = true → debug = true →
    ∀ i∈W.slot c, (p.picks.tab.record i).channel ≠ none
  | .get late => p.findsDone late → p.picks.tab.forget = p.basis
  | _ => True

instance (W : Wiphy) (flags : List ChanFlags) (i : Nat) : Decidable (Enables W flags i) :=
  inferInstanceAs (Decidable (∃ c∈List.range W.channels.length, _ ∧ _))

instance (p : Rc) (late : Bool) : Decidable (p.findsDone late) :=
  inferInstanceAs (Decidable (_ ∧ _ ∧ _))

instance (W : Wiphy) (debug : Bool) (p : Rc) : ∀ e, Decidable (Meets W debug p e)
  | .regUpdate flags =>
    inferInstanceAs (Decidable (∀ ty∈RcType.all, ∀ i∈p.picks.last ty, Enables W flags i))
  | .bssInfo c _ => inferInstanceAs (Decidable (_ → _ → ∀ i∈W.slot c, _ ≠ none))
  | .get late => inferInstanceAs (Decidable (p.findsDone late → _ = _))
  | .scanStart _ _ _ => isTrue trivial
  | .scanComplete _ => isTrue trivial
  | .config _ _ => isTrue trivial

/-- What keeps the cache valid. Its pointers lead to records with enabled channels, and it is
the recommendation for the table it was computed from. -/
structure Sound (W : Wiphy) (p : Rc) : Prop where
  intact : p.oops = false
  enabled : AllEnabled p.picks.tab.chanFlags p.picks.tab.records
  live : ∀ ty i, p.picks.last ty = some i → (p.picks.tab.record i).channel.isSome
  unfetched : p.fetched = false → ∀ r∈p.picks.tab.records, r.channel = none
  flushed : p.done = false → p.picks.last = noPicks
  kept : p.done = true → p.picks.last = recommend W p.basis

section Runs
variable {W : Wiphy} {debug : Bool} {p : Rc}

theorem Sound.valid (h : Sound W p) : Valid p := by
  refine ⟨h.intact, ?_⟩
  intro ty i hi
  obtain ⟨c, hc⟩ := Option.isSome_iff_exists.mp (h.live ty i hi)
  obtain ⟨r, hr, hrc⟩ := getD_mem hc
  exact ⟨c, hc, h.enabled r hr c hrc⟩

theorem Sound.not_dangling (h : Sound W p) : p.picks.dangling = false := by
  rw [Picks.dangling, List.any_eq_false]
  intro ty _
  cases hi : p.picks.last ty with
  | none => simp
  | some i => simp [Option.isSome_iff_ne_none.mp (h.live ty i hi)]

theorem Sound.flush (h : Sound W p) : Sound W p.flush where
  intact := h.intact
  enabled := h.enabled
  live := fun ty i hi => by cases hi
  unfetched := h.unfetched
  flushed := fun _ => rfl
  kept := fun hd => by cases hd

theorem Sound.setRecords (h : Sound W p) {rs : List ChanRecord}
    (he : AllEnabled p.picks.tab.chanFlags rs)
    (hn : p.fetched = false → ∀ r∈rs, r.channel = none)
    (hc : ∀ i, (rs.getD i nullRecord).channel = (p.picks.tab.record i).channel) :
    Sound W (p.setRecords rs) where
  intact := h.intact
  enabled := he
  live := fun ty i hi => (congrArg Option.isSome (hc i)).trans (h.live ty i hi)
  unfetched := hn
  flushed := h.flushed
  kept := h.kept

theorem Sound.regUpdate (h : Sound W p) (flags : List ChanFlags)
    (hl : ∀ ty i, p.picks.last ty = some i → Enables W flags i) :
    Sound W (p.regUpdate W flags) where
  intact := h.intact
  enabled := fetchRecords_enabled flags
  live := fun ty i hi => fetchRecords_isSome (hl ty i hi)
  unfetched := fun hf => by cases hf
  flushed := h.flushed
  kept := h.kept

theorem Sound.last_none (h : Sound W p) (hf : p.fetched = false) (ty : RcType) :
    p.picks.last ty = none := by
  cases hi : p.picks.last ty with
  | none => rfl
  | some i =>
    obtain ⟨c, hc⟩ := Option.isSome_iff_exists.mp (h.live ty i hi)
    obtain ⟨r, hr, hrc⟩ := getD_mem hc
    rw [h.unfetched hf r hr] at hrc
    cases hrc

theorem Sound.scanStart (h : Sound W p) (l s a : Bool) : Sound W (p.scanStart W l s a) := by
  have hreset : Sound W (p.resetChanRecord W) := by
    have hclear : Sound W (p.setRecords (p.picks.tab.records.map fun r =>
        { r with bestSnr := nullSnr, averSnr := nullSnr })) := by
      apply h.setRecords
      · intro r hr c hc
        obtain ⟨x, hx, rfl⟩ := List.mem_map.mp hr
        exact h.enabled x hx c hc
      · intro hf r hr
        obtain ⟨x, hx, rfl⟩ := List.mem_map.mp hr
        exact h.unfetched hf x hx
      · intro i
        apply map_channel
        exact fun r => rfl
    rw [Rc.resetChanRecord]
    split
    · exact hclear
    · rename_i hf
      apply hclear.regUpdate p.picks.tab.chanFlags
      intro ty i hi
      rw [hclear.last_none (by simpa using hf)] at hi
      cases hi
  rw [Rc.scanStart]
  split
  · exact ⟨hreset.intact, hreset.enabled, hreset.live, hreset.unfetched, hreset.flushed,
      hreset.kept⟩
  · exact h

theorem Sound.bssInfo (h : Sound W p) {c snr : Nat} (hm : Meets W debug p (.bssInfo c snr)) :
    Sound W (p.bssInfo W debug c snr) := by
  rw [Rc.bssInfo]
  split
  · rename_i hu
    rw [Rc.bssUpdate]
    cases hs : W.slot c with
    | none => exact h
    | some i =>
      by_cases hc : (p.picks.tab.record i).channel = some c
      · simp only [hc, ne_eq, not_true_eq_false, if_false]
        apply h.setRecords
        · apply forall_modify _ h.enabled
          exact fun r hr d hd => hr d ((keepSnr_channel r snr).symm.trans hd)
        · intro hf
          apply forall_modify _ (h.unfetched hf)
          exact fun r hr => (keepSnr_channel r snr).trans hr
        · exact fun j => modify_channel (fun r => keepSnr_channel r snr) _ i j
      · have ho : (debug && (p.picks.tab.record i).channel.isNone) = false := by
          cases hd : debug with
          | false => rfl
          | true =>
            have hne := hm hu hd i hs
            cases hr : (p.picks.tab.record i).channel with
            | none => exact absurd hr hne
            | some d => rfl
        simp only [ne_eq, hc, not_false_eq_true, if_true, ho, Bool.or_false]
        exact h
  · exact h

theorem Sound.setUser (h : Sound W p) (type : UserChanType) (list : List Nat) :
    Sound W (p.setUser type list) where
  intact := h.intact
  enabled := h.enabled
  live := fun ty i hi => by cases hi
  unfetched := h.unfetched
  flushed := fun _ => rfl
  kept := fun hd => by cases hd

theorem Sound.computed (h : Sound W p) (hd : p.done = false) : Sound W (p.computed W) := by
  have hp : p.picks = ⟨p.picks.tab, noPicks⟩ := by rw [← h.flushed hd]
  obtain ⟨hf, -, hl⟩ := compute_spec (W := W) p.picks.tab
  rw [← hp] at hf hl
  rw [Rc.computed]
  generalize p.picks.compute W = q at hf hl
  refine ⟨h.intact, ?_, ?_, ?_, fun hn => (by cases hn), fun _ => ?_⟩
  · have hflags := congrArg RcTable.chanFlags hf
    change q.tab.chanFlags = p.picks.tab.chanFlags at hflags
    intro r hr c hc
    obtain ⟨s, hs, he⟩ := mem_congr hf hr
    rw [hflags]
    exact h.enabled s hs c (he.trans hc)
  · intro ty i hi
    rw [hl] at hi
    rw [channel_congr hf]
    exact recommend_slot hi
  · intro hu r hr
    obtain ⟨s, hs, he⟩ := mem_congr hf hr
    exact he.symm.trans (h.unfetched hu s hs)
  · exact hl.trans (recommend_congr (forget_forget p.picks.tab).symm)

theorem Sound.get (h : Sound W p) (late : Bool) : Sound W (p.get W late).1 := by
  have hlook : ∀ q, Sound W q → Sound W { q with oops := q.oops || q.picks.dangling } := by
    intro q hq
    rw [hq.not_dangling, Bool.or_false]
    exact hq
  rw [Rc.get]
  split
  · exact h
  · split
    · exact h
    · cases hd : p.done with
      | true => exact hlook p h
      | false => exact hlook _ (h.computed hd)

theorem Sound.step (h : Sound W p) {e : Event} (hm : Meets W debug p e) :
    Sound W (step W debug p e) := by
  cases e with
  | regUpdate flags => exact h.regUpdate flags fun ty i hi => hm ty (RcType.mem_all ty) i hi
  | scanStart l s a => exact h.scanStart l s a
  | bssInfo c snr => exact h.bssInfo hm
  | scanComplete aborted =>
    have hu : Sound W { p with needUpdated := false } :=
      ⟨h.intact, h.enabled, h.live, h.unfetched, h.flushed, h.kept⟩
    cases aborted with
    | true => exact hu
    | false => exact hu.flush
  | config freq type =>
    simp only [P2pRc.step, Rc.config]
    split_ifs <;> first | exact h | exact h.setUser _ _
  | get late => exact h.get late

theorem Sound.answers (h : Sound W p) {e : Event} (hm : Meets W debug p e) : Answers W p e := by
  cases e with
  | get late =>
    intro hf
    have hb := hm hf
    obtain ⟨hu, ha, hd⟩ := hf
    have hl : p.picks.last = recommend W p.picks.tab :=
      (h.kept hd).trans (recommend_congr (hb ▸ (forget_forget p.picks.tab)))
    have hp : p.picks = ⟨p.picks.tab, recommend W p.picks.tab⟩ := by rw [← hl]
    simp only [Rc.get, hu, ha, hd, if_true, freshReport_eq, Bool.false_eq_true, if_false]
    rw [← hp]
  | _ => trivial

theorem sound_init (W : Wiphy) (flags : List ChanFlags) : Sound W (rcInit flags) := by
  have hnone : ∀ r∈(rcInit flags).picks.tab.records, r.channel = none := by
    intro r hr
    rw [List.eq_of_mem_replicate hr]
    rfl
  constructor
  · rfl
  · intro r hr c hc
    rw [hnone r hr] at hc
    cases hc
  · exact fun ty i hi => by cases hi
  · exact fun _ => hnone
  · exact fun _ => rfl
  · intro _
    funext ty
    cases hi : recommend W (rcInit flags).basis ty with
    | none => rfl
    | some i =>
      have hs := recommend_slot hi
      have hb : (rcInit flags).basis = (rcInit flags).picks.tab.forget := rfl
      rw [hb, forget_channel] at hs
      obtain ⟨c, hc⟩ := Option.isSome_iff_exists.mp hs
      obtain ⟨r, hr, hrc⟩ := getD_mem hc
      rw [hnone r hr] at hrc
      cases hrc

/-- The cache over whole runs: where every step meets its condition, no step reads through
`NULL`, the cached pointers lead to enabled channels, and a query that finds the cache done
reports what a fresh computation would report. -/
theorem rc_cache_stays_valid (W : Wiphy) (debug : Bool) (flags : List ChanFlags)
    (es : List Event) (h : AllSteps (step W debug) (Meets W debug) (rcInit flags) es) :
    (∀ u, u <+: es → Valid (run (step W debug) (rcInit flags) u)) ∧
      AllSteps (step W debug) (Answers W) (rcInit flags) es := by
  constructor
  · rintro u ⟨v, rfl⟩
    have hu := ((allSteps_append _ _ _ u v).mp h).1
    have hs := run_invariant_of (I := Sound W) (fun p e hp hm => hp.step hm)
      (sound_init W flags) hu
    exact hs.valid
  · exact allSteps_of_invariant (fun p e hp hm => hp.step hm)
      (fun p e hp hm => hp.answers hm) (sound_init W flags) h

/-- A scan of channels 1 and 36, a second one after a change of the user's list, and an update
that leaves both channels enabled. -/
theorem rc_cache_stays_valid_two :
    (∀ u, u <+: [Event.regUpdate [], .scanStart true false false, .bssInfo 0 30,
        .scanComplete false, .get false, .get false, .config 2412 .black, .get false,
        .scanStart false true true, .regUpdate [], .bssInfo 1 20, .scanComplete false,
        .get false] →
      Valid (run (step ⟨[⟨.band2G, 2412⟩, ⟨.band5G, 5180⟩]⟩ true) (rcInit []) u)) ∧
    AllSteps (step ⟨[⟨.band2G, 2412⟩, ⟨.band5G, 5180⟩]⟩ true)
      (Answers ⟨[⟨.band2G, 2412⟩, ⟨.band5G, 5180⟩]⟩) (rcInit [])
      [.regUpdate [], .scanStart true false false, .bssInfo 0 30,
        .scanComplete false, .get false, .get false, .config 2412 .black, .get false,
        .scanStart false true true, .regUpdate [], .bssInfo 1 20, .scanComplete false,
        .get false] :=
  rc_cache_stays_valid _ true [] _ (by decide +kernel)

/-- Channel 1 is scanned and recommended, and an update disables it: the next query reads its
frequency through `NULL`. So does the debug message about a result for a disabled channel. And
the channels fetched before the first scan are not reported. -/
theorem rc_cache_invalid :
    ¬ Valid (run (step ⟨[⟨.band2G, 2412⟩]⟩ false) (rcInit [])
      [.regUpdate [], .scanStart true false false, .scanComplete false, .get false,
        .regUpdate [⟨true, false, false, false⟩], .get false]) ∧
    ¬ Valid (run (step ⟨[⟨.band2G, 2412⟩]⟩ true) (rcInit [])
      [.regUpdate [⟨true, false, false, false⟩], .scanStart true false false,
        .bssInfo 0 30]) ∧
    ¬ Answers ⟨[⟨.band2G, 2412⟩]⟩ (run (step ⟨[⟨.band2G, 2412⟩]⟩ false) (rcInit [])
      [.regUpdate []]) (.get false) := by
  refine ⟨fun h => ?_, fun h => ?_, fun h => ?_⟩
  · have hi := h.intact
    revert hi
    decide +kernel
  · have hi := h.intact
    revert hi
    decide +kernel
  · have ha := RcAnswer.report.inj (h (by decide))
    have h2 := congrFun ha .all2G
    revert h2
    decide +kernel

end Runs

end Ath6kl.P2pRc
