import Mathlib.Data.List.Basic
import Mathlib.Data.List.Pairwise
import Ath6kl.P2pRcCache

/-! The channels that `ath6kl_p2p_rc_get` recommends against what its categories promise: the
channel reported satisfies its category and none that does is better. -/
namespace Ath6kl.P2pRc
open Lib.BestScan

/-- `ath6kl_reg_is_p2p_channel`: the first channel of that frequency decides. -/
def regIsP2pChannel (W : Wiphy) (t : RcTable) (freq : Nat) : Bool :=
  let band := if 4000 < freq then Band.band5G else Band.band2G
  isP2pChannel freq &&
    match (List.range W.channels.length).find? fun c =>
        (W.channels.getD c ⟨.band2G, 0⟩ == ⟨band, freq⟩) with
    | none => false
    | some c => !(t.flags c).restricted

section Categories

/-- What a category of `enum p2p_rc_type` asks of a channel of one band. -/
structure Asks where
  social : Bool
  p2p : Bool
  user : Bool
  noLte : Bool
  noDfs : Bool

def asksAll : Asks := ⟨false, false, false, false, false⟩

def RcType.asks2g : RcType → Option Asks
  | .all2G | .overall => some asksAll
  | .social => some { asksAll with social := true }
  | .p2p2G | .allP2p => some { asksAll with p2p := true }
  | .overallNoDfs => some { asksAll with noDfs := true }
  | .noLte2G | .overallNoLte => some { asksAll with noLte := true }
  | .overallNoLteDfs => some { asksAll with noLte := true, noDfs := true }
  | .userChan => some { asksAll with user := true }
  | .all5G | .p2p5G | .noDfs5G => none

/-- LTE is near 2.4 GHz only, and a P2P channel of 5 GHz is one without DFS. -/
def RcType.asks5g : RcType → Option Asks
  | .all5G | .overall | .overallNoLte => some asksAll
  | .p2p5G | .allP2p => some { asksAll with p2p := true, noDfs := true }
  | .noDfs5G | .overallNoDfs | .overallNoLteDfs => some { asksAll with noDfs := true }
  | .userChan => some { asksAll with user := true }
  | .all2G | .social | .p2p2G | .noLte2G => none

/-- The channel of a record is as asked. A channel with radar is for no DFS when an AP was
seen on it. -/
structure Asks.Met (a : Asks) (W : Wiphy) (t : RcTable) (c i : Nat) : Prop where
  social : a.social = true → isSocialChannel (W.freq c) = true
  p2p : a.p2p = true → regIsP2pChannel W t (W.freq c) = true
  user : a.user = true → isUserChannel t (W.freq c) = true
  noLte : a.noLte = true → isLteChannel (W.freq c) = false
  noDfs : a.noDfs = true → (t.flags c).radar = true → (t.record i).bestSnr ≠ nullSnr

/-- The records of a category. -/
def Fits (W : Wiphy) (t : RcTable) (ty : RcType) (i : Nat) : Prop :=
  ∃ c, (t.record i).channel = some c ∧
    ((∃ a, ty.asks2g = some a ∧ i < max2gChanRecord ∧ a.Met W t c i) ∨
      ∃ a, ty.asks5g = some a ∧ i∈slots5g ∧ a.Met W t c i)

/-- The searches of `ath6kl_p2p_rc_get` for a category. -/
def RcType.want2g : RcType → Option Want2g
  | .all2G | .overall | .overallNoDfs => some ⟨false, false, false, false⟩
  | .social => some ⟨true, false, false, false⟩
  | .p2p2G | .allP2p => some ⟨false, true, false, false⟩
  | .noLte2G | .overallNoLte | .overallNoLteDfs => some ⟨false, false, false, true⟩
  | .userChan => some ⟨false, false, true, false⟩
  | .all5G | .p2p5G | .noDfs5G => none

def RcType.want5g : RcType → Option Want5g
  | .all5G | .overall | .overallNoLte => some ⟨false, false, false⟩
  | .p2p5G | .allP2p => some ⟨true, true, false⟩
  | .noDfs5G | .overallNoDfs | .overallNoLteDfs => some ⟨false, true, false⟩
  | .userChan => some ⟨false, false, true⟩
  | .all2G | .social | .p2p2G | .noLte2G => none

def eligible5g (W : Wiphy) (w : Want5g) (t : RcTable) (i : Nat) : Bool :=
  match (t.record i).channel with
  | none => false
  | some c => !w.skips t (W.freq c) c i

def Admits2g (W : Wiphy) (t : RcTable) (ty : RcType) (i : Nat) : Prop :=
  ∃ w, ty.want2g = some w ∧ i < max2gChanRecord ∧ eligible2g W w t i = true

def Admits5g (W : Wiphy) (t : RcTable) (ty : RcType) (i : Nat) : Prop :=
  ∃ w, ty.want5g = some w ∧ i∈slots5g ∧ eligible5g W w t i = true

/-- The records that the filters of a category let through. -/
def Admits (W : Wiphy) (t : RcTable) (ty : RcType) (i : Nat) : Prop :=
  Admits2g W t ty i ∨ Admits5g W t ty i

/-- The average for 2.4 GHz, the best for 5 GHz. -/
def snrOf (W : Wiphy) (t : RcTable) (i : Nat) : Nat :=
  if i < max2gChanRecord then averAt W t i else (t.record i).bestSnr

/-- `i` is recommended rather than `j`: it has the greater SNR, or the same and is in 5 GHz, or
the same and comes first in the band. -/
def YieldsTo (W : Wiphy) (t : RcTable) (j i : Nat) : Prop :=
  snrOf W t j < snrOf W t i ∨ snrOf W t j = snrOf W t i ∧
    (j < max2gChanRecord ∧ max2gChanRecord ≤ i ∨
      (j < max2gChanRecord ↔ i < max2gChanRecord) ∧ i < j)

/-- No AP is preferred for its band and none for its place: `ath6kl_p2p_rc_init` leaves these
two at zero, and nothing sets them. -/
structure Plain (t : RcTable) : Prop where
  compensation : t.snrCompensation = 0
  high : t.highChan = false

def rcTable (records : List ChanRecord) (chanFlags : List ChanFlags) (type : UserChanType)
    (list : List Nat) : RcTable :=
  { records := records, chanFlags := chanFlags, userChanType := type, userChanList := list,
    snrCompensation := 0, highChan := false }

theorem rcTable_plain (records : List ChanRecord) (chanFlags : List ChanFlags)
    (type : UserChanType) (list : List Nat) : Plain (rcTable records chanFlags type list) :=
  ⟨rfl, rfl⟩

/-- The frequency reported for a category and the record picked: the record is of the category,
and none of the category is better. -/
inductive UsableAs (W : Wiphy) (t : RcTable) (ty : RcType) : Option Nat → Option Nat → Prop
  | nothing (hn : ∀ j, ¬Fits W t ty j) : UsableAs W t ty none none
  | channel {i c freq : Nat} (hc : (t.record i).channel = some c) (hf : W.freq c = freq)
      (hfit : Fits W t ty i) (hbest : ∀ j, Fits W t ty j → snrOf W t j ≤ snrOf W t i) :
      UsableAs W t ty (some freq) (some i)

def freshPick (W : Wiphy) (t : RcTable) : RcType → Option Nat :=
  (Picks.compute W ⟨t, noPicks⟩).last

/-- `ath6kl_p2p_rc_get` picks and reports a usable channel, when it has no last result. -/
def Usable (W : Wiphy) (t : RcTable) (ty : RcType) : Prop :=
  UsableAs W t ty (freshReport W t ty) (freshPick W t ty)

end Categories

section Picks
variable {W : Wiphy} {t : RcTable}

theorem mem_slots5g {i : Nat} : i∈slots5g ↔ max2gChanRecord ≤ i ∧ i < maxChanRecord := by
  simp only [slots5g, List.mem_map, List.mem_range, maxChanRecord]
  constructor
  · rintro ⟨k, hk, rfl⟩
    omega
  · rintro ⟨hl, hu⟩
    exact ⟨i-max2gChanRecord, by omega, by omega⟩

theorem slots5g_pairwise : slots5g.Pairwise (· < ·) := by
  simp only [slots5g, List.pairwise_map, Nat.add_lt_add_iff_left]
  exact List.pairwise_lt_range

theorem high_eq (h : Plain t) : t.high = 0 := by
  simp [RcTable.high, h.high]

theorem best2g_leads (h : Plain t) {w : Want2g} {i : Nat} (hi : best2g W w t = some i) :
    i < max2gChanRecord ∧ eligible2g W w t i = true ∧
      ∀ j, j < max2gChanRecord → eligible2g W w t j = true →
        Leads (averAt W t) (· < ·) i j := by
  obtain ⟨hr, he⟩ := List.mem_filter.mp (best_mem hi)
  refine ⟨List.mem_range.mp hr, he, fun j hj hej => ?_⟩
  rw [best2g, high_eq h] at hi
  have hs := List.pairwise_lt_range (n := max2gChanRecord)
  exact leads_best (hs.filter (eligible2g W w t)) hi j
    (List.mem_filter.mpr ⟨List.mem_range.mpr hj, hej⟩)

theorem best2g_none {w : Want2g} (hn : best2g W w t = none) {j : Nat}
    (hj : j < max2gChanRecord) : eligible2g W w t j = false := by
  have he := List.filter_eq_nil_iff.mp (eq_nil_of_best_none hn) j (List.mem_range.mpr hj)
  simpa using he

theorem get5gChan_eq (h : Plain t) (w : Want5g) : get5gChan W w t =
    best (fun x b => decide ((t.record b).bestSnr < (t.record x).bestSnr))
      (slots5g.filter (eligible5g W w t)) := by
  have hstep : get5gStep W w t = fun o i => if eligible5g W w t i = true then
      keep (fun x b => decide ((t.record b).bestSnr < (t.record x).bestSnr)) o i else o := by
    funext o i
    cases hc : (t.record i).channel with
    | none => simp [get5gStep, eligible5g, hc]
    | some c => cases hk : w.skips t (W.freq c) c i <;>
        simp [get5gStep, eligible5g, hc, hk, high_eq h]
  rw [get5gChan, hstep, best, List.foldl_filter]

theorem get5gChan_leads (h : Plain t) {w : Want5g} {i : Nat} (hi : get5gChan W w t = some i) :
    i∈slots5g ∧ eligible5g W w t i = true ∧
      ∀ j∈slots5g, eligible5g W w t j = true →
        j = i ∨ (t.record j).bestSnr < (t.record i).bestSnr ∨
          (t.record j).bestSnr = (t.record i).bestSnr ∧ i < j := by
  rw [get5gChan_eq h] at hi
  obtain ⟨hm, he⟩ := List.mem_filter.mp (best_mem hi)
  refine ⟨hm, he, fun j hj hej => ?_⟩
  exact leads_best (f := fun k => (t.record k).bestSnr) (slots5g_pairwise.filter _) hi j
    (List.mem_filter.mpr ⟨hj, hej⟩)

theorem get5gChan_none (h : Plain t) {w : Want5g} (hn : get5gChan W w t = none) {j : Nat}
    (hj : j∈slots5g) : eligible5g W w t j = false := by
  rw [get5gChan_eq h] at hn
  simpa using List.filter_eq_nil_iff.mp (eq_nil_of_best_none hn) j hj

theorem snrOf_2g {i : Nat} (h : i < max2gChanRecord) : snrOf W t i = averAt W t i := if_pos h

theorem snrOf_5g {i : Nat} (h : i∈slots5g) : snrOf W t i = (t.record i).bestSnr :=
  if_neg (Nat.not_lt.mpr (mem_slots5g.mp h).1)

theorem YieldsTo.asymm {i j : Nat} (h : YieldsTo W t j i) : ¬YieldsTo W t i j := by
  simp only [YieldsTo] at h ⊢
  omega

def pick2g (W : Wiphy) (t : RcTable) (ty : RcType) : Option Nat :=
  ty.want2g.bind fun w => best2g W w t

def pick5g (W : Wiphy) (t : RcTable) (ty : RcType) : Option Nat :=
  ty.want5g.bind fun w => get5gChan W w t

theorem overallOf_none_right (g : Option Nat) : overallOf W t g none = g := by
  cases g <;> rfl

theorem overallOf_none_left (g : Option Nat) : overallOf W t none g = g := by
  cases g <;> rfl

theorem recommend_eq (ty : RcType) :
    recommend W t ty = overallOf W t (pick2g W t ty) (pick5g W t ty) := by
  cases ty <;> simp [recommend, pick2g, pick5g, RcType.want2g, RcType.want5g,
    overallOf_none_left, overallOf_none_right]

theorem pick2g_top (h : Plain t) {ty : RcType} {i : Nat} (hi : pick2g W t ty = some i) :
    Admits2g W t ty i ∧ ∀ j, Admits2g W t ty j → j ≠ i → YieldsTo W t j i := by
  obtain ⟨w, hw, hb⟩ := Option.bind_eq_some_iff.mp hi
  obtain ⟨hlt, he, hl⟩ := best2g_leads h hb
  refine ⟨⟨w, hw, hlt, he⟩, ?_⟩
  rintro j ⟨w', hw', hj, hej⟩ hne
  cases hw.symm.trans hw'
  rcases hl j hj hej with rfl | hk
  · exact absurd rfl hne
  · simp only [YieldsTo, snrOf_2g hlt, snrOf_2g hj]
    omega

theorem pick2g_none {ty : RcType} (hn : pick2g W t ty = none) (j : Nat) :
    ¬Admits2g W t ty j := by
  rintro ⟨w, hw, hj, hej⟩
  rw [pick2g, hw] at hn
  rw [best2g_none hn hj] at hej
  cases hej

theorem pick5g_top (h : Plain t) {ty : RcType} {i : Nat} (hi : pick5g W t ty = some i) :
    Admits5g W t ty i ∧ ∀ j, Admits5g W t ty j → j ≠ i → YieldsTo W t j i := by
  obtain ⟨w, hw, hb⟩ := Option.bind_eq_some_iff.mp hi
  obtain ⟨hm, he, hl⟩ := get5gChan_leads h hb
  refine ⟨⟨w, hw, hm, he⟩, ?_⟩
  rintro j ⟨w', hw', hj, hej⟩ hne
  cases hw.symm.trans hw'
  rcases hl j hj hej with rfl | hk
  · exact absurd rfl hne
  · have hi := (mem_slots5g.mp hm).1
    have hj' := (mem_slots5g.mp hj).1
    simp only [YieldsTo, snrOf_5g hm, snrOf_5g hj]
    omega

theorem pick5g_none (h : Plain t) {ty : RcType} (hn : pick5g W t ty = none) (j : Nat) :
    ¬Admits5g W t ty j := by
  rintro ⟨w, hw, hj, hej⟩
  rw [pick5g, hw] at hn
  rw [get5gChan_none h hn hj] at hej
  cases hej

theorem Admits2g.lt {ty : RcType} {i : Nat} (h : Admits2g W t ty i) : i < max2gChanRecord := by
  obtain ⟨w, -, hi, -⟩ := h
  exact hi

theorem Admits5g.mem {ty : RcType} {i : Nat} (h : Admits5g W t ty i) : i∈slots5g := by
  obtain ⟨w, -, hi, -⟩ := h
  exact hi

theorem YieldsTo.trans {i j k : Nat} (h : YieldsTo W t i j) (h' : YieldsTo W t j k) :
    YieldsTo W t i k := by
  simp only [YieldsTo] at h h' ⊢
  omega

theorem overallOf_top (h : Plain t) {a b i : Nat} (ha : a < max2gChanRecord) (hb : b∈slots5g)
    (hi : overallOf W t (some a) (some b) = some i) :
    i = a ∧ YieldsTo W t b a ∨ i = b ∧ YieldsTo W t a b := by
  have hb' := (mem_slots5g.mp hb).1
  simp only [overallOf, h.compensation, Nat.add_zero] at hi
  simp only [YieldsTo, snrOf_2g ha, snrOf_5g hb]
  split at hi
  · cases hi
    exact Or.inl ⟨rfl, by omega⟩
  · cases hi
    exact Or.inr ⟨rfl, by omega⟩

theorem recommend_top (h : Plain t) {ty : RcType} {i : Nat} (hi : recommend W t ty = some i) :
    Admits W t ty i ∧ ∀ j, Admits W t ty j → j ≠ i → YieldsTo W t j i := by
  rw [recommend_eq] at hi
  cases h2 : pick2g W t ty with
  | none =>
    rw [h2, overallOf_none_left] at hi
    obtain ⟨ha, hy⟩ := pick5g_top h hi
    refine ⟨Or.inr ha, fun j hj => ?_⟩
    exact hy j (hj.resolve_left (pick2g_none h2 j))
  | some a =>
    obtain ⟨ha, hya⟩ := pick2g_top h h2
    cases h5 : pick5g W t ty with
    | none =>
      rw [h2, h5, overallOf_none_right] at hi
      cases hi
      refine ⟨Or.inl ha, fun j hj => ?_⟩
      exact hya j (hj.resolve_right (pick5g_none h h5 j))
    | some b =>
      obtain ⟨hb, hyb⟩ := pick5g_top h h5
      rw [h2, h5] at hi
      rcases overallOf_top h ha.lt hb.mem hi with ⟨rfl, hba⟩ | ⟨rfl, hab⟩
      · refine ⟨Or.inl ha, fun j hj hne => ?_⟩
        rcases hj with hj | hj
        · exact hya j hj hne
        · by_cases he : j = b
          · exact he ▸ hba
          · exact (hyb j hj he).trans hba
      · refine ⟨Or.inr hb, fun j hj hne => ?_⟩
        rcases hj with hj | hj
        · by_cases he : j = a
          · exact he ▸ hab
          · exact (hya j hj he).trans hab
        · exact hyb j hj hne

theorem recommend_none (h : Plain t) {ty : RcType} (hn : recommend W t ty = none) (j : Nat) :
    ¬Admits W t ty j := by
  rw [recommend_eq] at hn
  cases h2 : pick2g W t ty with
  | none =>
    rw [h2, overallOf_none_left] at hn
    exact fun hj => hj.elim (pick2g_none h2 j) (pick5g_none h hn j)
  | some a =>
    cases h5 : pick5g W t ty with
    | none => rw [h2, h5] at hn; cases hn
    | some b =>
      simp only [h2, h5, overallOf] at hn
      split at hn <;> cases hn

end Picks

section Usable
variable {W : Wiphy} {t : RcTable}

theorem isP2pChannel_of_reg {freq : Nat} (h : regIsP2pChannel W t freq = true) :
    isP2pChannel freq = true := by
  simp only [regIsP2pChannel, Bool.and_eq_true] at h
  exact h.1

theorem asks2g_want {ty : RcType} {a : Asks} (h : ty.asks2g = some a) :
    ∃ w, ty.want2g = some w ∧ w.onlyP2pSocial = a.social ∧ w.onlyP2p = a.p2p ∧
      w.userChan = a.user ∧ w.noLte = a.noLte := by
  cases ty <;> cases h <;> exact ⟨_, rfl, rfl, rfl, rfl, rfl⟩

theorem asks5g_want {ty : RcType} {a : Asks} (h : ty.asks5g = some a) :
    ∃ w, ty.want5g = some w ∧ w.onlyP2p = a.p2p ∧ w.noDfs = a.noDfs ∧ w.userChan = a.user := by
  cases ty <;> cases h <;> exact ⟨_, rfl, rfl, rfl, rfl⟩

theorem and_not_eq_false {a b : Bool} (h : a = true → b = true) : (a && !b) = false := by
  cases a with
  | false => rfl
  | true => rw [h rfl]; rfl

theorem Asks.Met.eligible2g {a : Asks} {w : Want2g} {c i : Nat} (h : a.Met W t c i)
    (hc : (t.record i).channel = some c) (hs : w.onlyP2pSocial = a.social)
    (hp : w.onlyP2p = a.p2p) (hu : w.userChan = a.user) (hl : w.noLte = a.noLte) :
    eligible2g W w t i = true := by
  simp only [P2pRc.eligible2g, hc, Want2g.skips, hs, hp, hu, hl, Bool.not_eq_true',
    Bool.or_eq_false_iff]
  refine ⟨⟨⟨and_not_eq_false h.user, and_not_eq_false h.social⟩, ?_⟩, ?_⟩
  · apply and_not_eq_false
    intro hr
    exact isP2pChannel_of_reg (h.p2p (Bool.and_eq_true_iff.mp hr).1)
  · cases ha : a.noLte with
    | false => rfl
    | true => exact h.noLte ha

theorem Asks.Met.eligible5g {a : Asks} {w : Want5g} {c i : Nat} (h : a.Met W t c i)
    (hc : (t.record i).channel = some c) (hp : w.onlyP2p = a.p2p) (hd : w.noDfs = a.noDfs)
    (hu : w.userChan = a.user) : eligible5g W w t i = true := by
  simp only [P2pRc.eligible5g, hc, Want5g.skips, hp, hd, hu, Bool.not_eq_true',
    Bool.or_eq_false_iff]
  refine ⟨⟨and_not_eq_false h.user, ?_⟩, ?_⟩
  · apply and_not_eq_false
    intro hr
    exact isP2pChannel_of_reg (h.p2p (Bool.and_eq_true_iff.mp hr).1)
  · cases ha : a.noDfs && (t.flags c).radar with
    | false => rfl
    | true =>
      obtain ⟨hn, hr⟩ := Bool.and_eq_true_iff.mp ha
      simpa using h.noDfs hn hr

theorem Fits.admits {ty : RcType} {i : Nat} (h : Fits W t ty i) : Admits W t ty i := by
  obtain ⟨c, hc, ⟨a, ha, hi, hm⟩ | ⟨a, ha, hi, hm⟩⟩ := h
  · obtain ⟨w, hw, hs, hp, hu, hl⟩ := asks2g_want ha
    exact Or.inl ⟨w, hw, hi, hm.eligible2g hc hs hp hu hl⟩
  · obtain ⟨w, hw, hp, hd, hu⟩ := asks5g_want ha
    exact Or.inr ⟨w, hw, hi, hm.eligible5g hc hp hd hu⟩

theorem Admits.channel {ty : RcType} {i : Nat} (h : Admits W t ty i) :
    ∃ c, (t.record i).channel = some c := by
  cases hc : (t.record i).channel with
  | some c => exact ⟨c, rfl⟩
  | none =>
    rcases h with ⟨w, -, -, he⟩ | ⟨w, -, -, he⟩
    · simp [eligible2g, hc] at he
    · simp [eligible5g, hc] at he

theorem Admits.snr_le {ty : RcType} {i : Nat}
    (htop : ∀ j, Admits W t ty j → j ≠ i → YieldsTo W t j i) {j : Nat} (hj : Fits W t ty j) :
    snrOf W t j ≤ snrOf W t i := by
  by_cases he : j = i
  · exact he ▸ Nat.le_refl _
  · have hy := htop j hj.admits he
    simp only [YieldsTo] at hy
    omega

theorem freshPick_eq (t : RcTable) : freshPick W t = recommend W t := (compute_spec t).last

theorem usable_eq (ty : RcType) : Usable W t ty =
    UsableAs W t ty (Picks.report W ⟨t, recommend W t⟩ ty) (recommend W t ty) := by
  rw [Usable, freshReport_eq, freshPick_eq]

theorem usable_none {ty : RcType} (hi : recommend W t ty = none) :
    Usable W t ty ↔ ∀ j, ¬Fits W t ty j := by
  have hr : Picks.report W ⟨t, recommend W t⟩ ty = none := by simp only [Picks.report, hi]
  rw [usable_eq, hi, hr]
  constructor
  · rintro ⟨hn⟩
    exact hn
  · exact UsableAs.nothing

theorem usable_some {ty : RcType} {i c : Nat} (hi : recommend W t ty = some i)
    (hc : (t.record i).channel = some c) :
    Usable W t ty ↔ Fits W t ty i ∧ ∀ j, Fits W t ty j → snrOf W t j ≤ snrOf W t i := by
  have hr : Picks.report W ⟨t, recommend W t⟩ ty = some (W.freq c) := by
    simp only [Picks.report, hi, hc, Option.map_some]
  rw [usable_eq, hi, hr]
  constructor
  · intro h
    cases h with
    | channel hc hf hfit hbest => exact ⟨hfit, hbest⟩
  · rintro ⟨hfit, hbest⟩
    exact UsableAs.channel hc rfl hfit hbest

theorem usable_iff (h : Plain t) (ty : RcType) : Usable W t ty ↔
    ∀ j, Admits W t ty j → ¬Fits W t ty j → ∃ i, Admits W t ty i ∧ YieldsTo W t j i := by
  cases hi : recommend W t ty with
  | none =>
    have hn := recommend_none h hi
    rw [usable_none hi]
    exact iff_of_true (fun j hj => hn j hj.admits) fun j hj => absurd hj (hn j)
  | some i =>
    obtain ⟨ha, htop⟩ := recommend_top h hi
    obtain ⟨c, hc⟩ := ha.channel
    rw [usable_some hi hc, ← top_iff (fun x y hy => YieldsTo.asymm hy) ha htop]
    exact ⟨And.left, fun hf => ⟨hf, fun j hj => Admits.snr_le htop hj⟩⟩

theorem freshReport_some {ty : RcType} {freq : Nat} (hf : freshReport W t ty = some freq) :
    ∃ i c, recommend W t ty = some i ∧ (t.record i).channel = some c ∧ W.freq c = freq := by
  rw [freshReport_eq] at hf
  cases hi : recommend W t ty with
  | none => simp [Picks.report, hi] at hf
  | some i =>
    obtain ⟨c, hc⟩ := Option.isSome_iff_exists.mp (recommend_slot hi)
    simp only [Picks.report, hi, hc, Option.map_some, Option.some.injEq] at hf
    exact ⟨i, c, rfl, hc, hf⟩

theorem Usable.p2p {ty : RcType} {freq : Nat} (h : Usable W t ty)
    (hf : freshReport W t ty = some freq) (hty : ty = .p2p2G ∨ ty = .p2p5G ∨ ty = .allP2p) :
    regIsP2pChannel W t freq = true := by
  obtain ⟨i, c, hi, hc, he⟩ := freshReport_some hf
  obtain ⟨⟨c', hc', hm⟩, -⟩ := (usable_some hi hc).mp h
  cases hc.symm.trans hc'
  rw [← he]
  rcases hm with ⟨a, ha, -, hm⟩ | ⟨a, ha, -, hm⟩
  all_goals
    apply hm.p2p
    rcases hty with rfl | rfl | rfl <;> cases ha <;> rfl

theorem Usable.noDfs {ty : RcType} {i c : Nat} (h : Usable W t ty)
    (hi : recommend W t ty = some i) (hc : (t.record i).channel = some c)
    (hty : ty = .noDfs5G ∨ ty = .overallNoDfs ∨ ty = .overallNoLteDfs)
    (hr : (t.flags c).radar = true) : (t.record i).bestSnr ≠ nullSnr := by
  obtain ⟨⟨c', hc', hm⟩, -⟩ := (usable_some hi hc).mp h
  cases hc.symm.trans hc'
  rcases hm with ⟨a, ha, -, hm⟩ | ⟨a, ha, -, hm⟩
  all_goals
    refine hm.noDfs ?_ hr
    rcases hty with rfl | rfl | rfl <;> cases ha <;> rfl

/-- For every channel table, its flags and SNRs and the user's list, what is reported is usable
just when each channel that a filter lets through although it is none of the category yields to
another one let through. -/
theorem recommended_usable_iff (W : Wiphy) (records : List ChanRecord)
    (chanFlags : List ChanFlags) (type : UserChanType) (list : List Nat) :
    (∀ ty, Usable W (rcTable records chanFlags type list) ty) ↔
      ∀ ty j, Admits W (rcTable records chanFlags type list) ty j →
        ¬Fits W (rcTable records chanFlags type list) ty j →
        ∃ i, Admits W (rcTable records chanFlags type list) ty i ∧
          YieldsTo W (rcTable records chanFlags type list) j i :=
  forall_congr' fun ty => usable_iff (rcTable_plain records chanFlags type list) ty

/-- Channel 100 is recommended for P2P although it is no P2P channel, channel 36 although no one
may start to send there, and channel 1 for no DFS although it has radar. -/
theorem recommended_unusable :
    ¬Usable ⟨[⟨.band5G, 5500⟩]⟩
      (rcTable (fetchRecords ⟨[⟨.band5G, 5500⟩]⟩ [noFlags]) [noFlags] .black []) .p2p5G ∧
    ¬Usable ⟨[⟨.band5G, 5180⟩]⟩
      (rcTable (fetchRecords ⟨[⟨.band5G, 5180⟩]⟩ [⟨false, true, true, false⟩])
        [⟨false, true, true, false⟩] .black []) .allP2p ∧
    ¬Usable ⟨[⟨.band2G, 2412⟩]⟩
      (rcTable (fetchRecords ⟨[⟨.band2G, 2412⟩]⟩ [⟨false, false, false, true⟩])
        [⟨false, false, false, true⟩] .black []) .overallNoDfs := by
  refine ⟨fun h => ?_, fun h => ?_, fun h => ?_⟩
  · have hp := h.p2p (show _ = some 5500 by decide +kernel) (by decide)
    revert hp
    decide +kernel
  · have hp := h.p2p (show _ = some 5180 by decide +kernel) (by decide)
    revert hp
    decide +kernel
  · exact h.noDfs (i := 0) (c := 0) (by decide +kernel) (by decide +kernel) (by decide)
      (by decide) (by decide +kernel)

end Usable

end Ath6kl.P2pRc
