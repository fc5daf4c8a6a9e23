import Mathlib.Algebra.Ring.Nat
import Mathlib.Tactic.SplitIfs
import Ath6kl.Lib.Range
import Ath6kl.P2pRc

/-! The regulatory rules of the target's country (reg.c): each channel of the wiphy takes flags
and power from the rule that its 20 MHz band lies in, `ath6kl_reg_apply_regulatory`. -/
namespace Ath6kl.RegRules
open Lib.Range

section Model

/-- The regulatory flags of `enum ieee80211_channel_flags`. -/
structure ChanFlags where
  disabled : Bool
  passiveScan : Bool
  noIbss : Bool
  radar : Bool
  noHt40Plus : Bool
  noHt40Minus : Bool
deriving DecidableEq

def noFlags : ChanFlags := ⟨false, false, false, false, false, false⟩

def disabledFlags : ChanFlags := { noFlags with disabled := true }

/-- `struct ieee80211_channel`; the centre, in MHz, has a band of 20 MHz about it. -/
structure Channel where
  centerFreq : Nat
  flags : ChanFlags
  origFlags : ChanFlags
  maxAntennaGain : Nat
  maxPower : Nat
  lower : 10 ≤ centerFreq
  upper : centerFreq < 2^16
deriving DecidableEq

/-- `struct ieee80211_reg_rule`, in kHz. -/
structure RegRule where
  freqRange : Segment
  maxBandwidthKhz : Nat
  maxAntennaGain : Nat
  maxEirp : Nat
  passiveScan : Bool
  noIbss : Bool
  dfs : Bool
  u32 : freqRange.hi < 2^32
deriving DecidableEq

/-- The channels of each band that the wiphy has. -/
structure Wiphy where
  bands : List (Option (List Channel))
deriving DecidableEq

def mhzToKhz (freq : Nat) : Nat := freq*1000

def desiredBwKhz : Nat := 20000

/-- The difference of two `u32`. -/
def u32Sub (a b : Nat) : Nat := (a+2^32-b)%2^32

/-- `abs` of a difference of two `u32`, at most 2 GHz. -/
def closeTo (centerFreq freq : Nat) : Bool :=
  decide ((Int.bmod ((centerFreq : Int)-freq) (2^32)).natAbs ≤ 2000000)

inductive Errno where
  | erange
  | einval
deriving DecidableEq

/-- A rule that was found, and whether it starts or ends where the band does. -/
structure RegInfo where
  regRule : RegRule
  isFreqStart : Bool
  isFreqEnd : Bool
deriving DecidableEq

/-- The loop of `__reg_freq_reg_info_regd`, with `band_rule_found`. -/
def freqRegInfo (centerFreq : Nat) (bandRuleFound : Bool) : List RegRule → Except Errno RegInfo
  | [] => .error (if bandRuleFound then .einval else .erange)
  | rr::rules =>
    let fr := rr.freqRange
    let bandRuleFound := bandRuleFound || closeTo centerFreq fr.lo || closeTo centerFreq fr.hi
    let startFreqKhz := u32Sub centerFreq (desiredBwKhz/2)
    let endFreqKhz := centerFreq+desiredBwKhz/2
    let bwFits := decide (fr.lo ≤ startFreqKhz) && decide (endFreqKhz ≤ fr.hi)
    if bandRuleFound && decide (mhzToKhz 4000 < fr.lo) && bwFits &&
        u32Sub centerFreq fr.lo % mhzToKhz 20 == 0 then
      .error .erange
    else if bandRuleFound && bwFits then
      .ok ⟨rr, decide (mhzToKhz 4000 < centerFreq) && startFreqKhz == fr.lo,
        decide (mhzToKhz 4000 < centerFreq) && endFreqKhz == fr.hi⟩
    else freqRegInfo centerFreq bandRuleFound rules

def regFreqRegInfoRegd (centerFreq : Nat) (regd : List RegRule) : Except Errno RegInfo :=
  freqRegInfo (mhzToKhz centerFreq) false regd

/-- The flags of a channel for the rule found. -/
def infoFlags (info : RegInfo) : ChanFlags :=
  let narrow := decide (info.regRule.maxBandwidthKhz < mhzToKhz 40)
  { disabled := false
    passiveScan := info.regRule.passiveScan
    noIbss := info.regRule.noIbss
    radar := info.regRule.dfs
    noHt40Plus := narrow || info.isFreqEnd
    noHt40Minus := narrow || info.isFreqStart }

def regHandleChannel (regd : List RegRule) (chan : Channel) : Channel :=
  match regFreqRegInfoRegd chan.centerFreq regd with
  | .error _ => { chan with flags := disabledFlags, origFlags := disabledFlags }
  | .ok info =>
    { chan with
      flags := infoFlags info
      origFlags := infoFlags info
      maxAntennaGain := info.regRule.maxAntennaGain/100
      maxPower := info.regRule.maxEirp/100 }

/-- `ath6kl_reg_apply_regulatory` on one channel; `p2pInPasvChan` is the flag
`ATH6KL_REG_FALGS_P2P_IN_PASV_CHAN`. -/
def applyChannel (p2pInPasvChan : Bool) (regd : List RegRule) (chan : Channel) : Channel :=
  let chan := regHandleChannel regd chan
  if p2pInPasvChan && !chan.flags.radar && P2pRc.isP2pChannel chan.centerFreq then
    { chan with flags := { chan.flags with passiveScan := false, noIbss := false } }
  else chan

def Wiphy.mapChannels (f : Channel → Channel) (w : Wiphy) : Wiphy :=
  ⟨w.bands.map (Option.map (List.map f))⟩

def applyRegulatory (p2pInPasvChan : Bool) (regd : List RegRule) (wiphy : Wiphy) : Wiphy :=
  wiphy.mapChannels (applyChannel p2pInPasvChan regd)

end Model

section Rules

def Disjoint (regd : List RegRule) : Prop :=
  regd.Pairwise fun r s => r.freqRange.Apart s.freqRange

instance (regd : List RegRule) : Decidable (Disjoint regd) :=
  inferInstanceAs (Decidable (List.Pairwise _ _))

/-- The 20 MHz band about a frequency lies in the rule. -/
def Inside (rr : RegRule) (freq : Nat) : Prop :=
  rr.freqRange.Holds (mhzToKhz freq-10000) (mhzToKhz freq+10000)

instance (rr : RegRule) (freq : Nat) : Decidable (Inside rr freq) :=
  inferInstanceAs (Decidable (Segment.Holds _ _ _))

/-- The rule is found for a band that lies in it: in 5 GHz the band is none that lies half
way between two others of the rule, and the rule starts or ends within 2 GHz. -/
structure Covers (rr : RegRule) (freq : Nat) : Prop where
  inside : Inside rr freq
  aligned : mhzToKhz 4000 < rr.freqRange.lo →
    (mhzToKhz freq-rr.freqRange.lo)%mhzToKhz 20 ≠ 0
  close : mhzToKhz freq-rr.freqRange.lo ≤ 2000000 ∨ rr.freqRange.hi-mhzToKhz freq ≤ 2000000

instance (rr : RegRule) (freq : Nat) : Decidable (Covers rr freq) :=
  decidable_of_iff (Inside rr freq ∧ (mhzToKhz 4000 < rr.freqRange.lo →
      (mhzToKhz freq-rr.freqRange.lo)%mhzToKhz 20 ≠ 0) ∧
      (mhzToKhz freq-rr.freqRange.lo ≤ 2000000 ∨ rr.freqRange.hi-mhzToKhz freq ≤ 2000000))
    ⟨fun ⟨h1, h2, h3⟩ => ⟨h1, h2, h3⟩, fun ⟨h1, h2, h3⟩ => ⟨h1, h2, h3⟩⟩

/-- P2P makes nothing of a passive channel that has no radar. -/
def Relaxed (p2pInPasvChan : Bool) (rr : RegRule) (freq : Nat) : Prop :=
  p2pInPasvChan = true ∧ rr.dfs = false ∧ P2pRc.isP2pChannel freq = true

structure AppliedAs (p2pInPasvChan : Bool) (rr : RegRule) (chan : Channel) : Prop where
  enabled : chan.flags.disabled = false
  maxPower : chan.maxPower = rr.maxEirp/100
  maxAntennaGain : chan.maxAntennaGain = rr.maxAntennaGain/100
  radar : chan.flags.radar = rr.dfs
  passiveScan : chan.flags.passiveScan = true ↔
    rr.passiveScan = true ∧ ¬Relaxed p2pInPasvChan rr chan.centerFreq
  noIbss : chan.flags.noIbss = true ↔
    rr.noIbss = true ∧ ¬Relaxed p2pInPasvChan rr chan.centerFreq

end Rules

section Search
variable {freq : Nat} {rr : RegRule} {rules : List RegRule}

theorem closeTo_iff {x : Nat} (hf : freq < 2^16) (hx : x < 2^32) :
    closeTo (mhzToKhz freq) x = true ↔ mhzToKhz freq ≤ x+2000000 ∧ x ≤ mhzToKhz freq+2000000 ∨
      mhzToKhz freq+(2^32-x) ≤ 2000000 := by
  rw [closeTo, decide_eq_true_iff]
  simp only [mhzToKhz, Int.bmod]
  split_ifs <;> omega

theorem u32Sub_of_le {a b : Nat} (h : b ≤ a) (ha : a < 2^32) : u32Sub a b = a-b := by
  rw [u32Sub, Nat.mod_eq_sub_mod (by omega), Nat.mod_eq_of_lt (by omega)]
  omega

theorem startFreqKhz_eq (h10 : 10 ≤ freq) (hf : freq < 2^16) :
    u32Sub (mhzToKhz freq) (desiredBwKhz/2) = mhzToKhz freq-10000 :=
  u32Sub_of_le (by simp only [mhzToKhz, desiredBwKhz]; omega) (by simp only [mhzToKhz]; omega)

/-- The test that a rule is found: the band lies in it. -/
theorem bwFits_eq (h10 : 10 ≤ freq) (hf : freq < 2^16) :
    (decide (rr.freqRange.lo ≤ u32Sub (mhzToKhz freq) (desiredBwKhz/2)) &&
      decide (mhzToKhz freq+desiredBwKhz/2 ≤ rr.freqRange.hi)) = decide (Inside rr freq) := by
  rw [startFreqKhz_eq h10 hf]
  exact (Bool.decide_and _ _).symm

theorem close_of_apart {s : RegRule} (hf : freq < 2^16) (hin : Inside rr freq)
    (hap : rr.freqRange.Apart s.freqRange)
    (hs : closeTo (mhzToKhz freq) s.freqRange.lo = true ∨
      closeTo (mhzToKhz freq) s.freqRange.hi = true) :
    mhzToKhz freq-rr.freqRange.lo ≤ 2000000 ∨ rr.freqRange.hi-mhzToKhz freq ≤ 2000000 := by
  have hhi := s.u32
  have hord := s.freqRange.ordered
  rw [closeTo_iff hf (by omega), closeTo_iff hf hhi] at hs
  obtain ⟨hlo, hup⟩ := hin
  simp only [Segment.Apart] at hap
  omega

theorem close_iff (hf : freq < 2^16) (h10 : 10 ≤ freq) (hin : Inside rr freq) :
    (closeTo (mhzToKhz freq) rr.freqRange.lo = true ∨
      closeTo (mhzToKhz freq) rr.freqRange.hi = true) ↔
      (mhzToKhz freq-rr.freqRange.lo ≤ 2000000 ∨ rr.freqRange.hi-mhzToKhz freq ≤ 2000000) := by
  have hhi := rr.u32
  have hord := rr.freqRange.ordered
  obtain ⟨hlo, hup⟩ := hin
  rw [closeTo_iff hf (by omega), closeTo_iff hf hhi]
  simp only [mhzToKhz] at *
  omega

/-- What is found when the band lies in a rule. -/
def infoOf (rr : RegRule) (freq : Nat) : RegInfo :=
  ⟨rr, decide (mhzToKhz 4000 < mhzToKhz freq) && mhzToKhz freq-10000 == rr.freqRange.lo,
    decide (mhzToKhz 4000 < mhzToKhz freq) && mhzToKhz freq+10000 == rr.freqRange.hi⟩

theorem infoOf_eq (h10 : 10 ≤ freq) (hf : freq < 2^16) : infoOf rr freq =
    ⟨rr, decide (mhzToKhz 4000 < mhzToKhz freq) &&
        u32Sub (mhzToKhz freq) (desiredBwKhz/2) == rr.freqRange.lo,
      decide (mhzToKhz 4000 < mhzToKhz freq) &&
        mhzToKhz freq+desiredBwKhz/2 == rr.freqRange.hi⟩ := by
  rw [startFreqKhz_eq h10 hf]
  rfl

theorem freqRegInfo_cons (h10 : 10 ≤ freq) (hf : freq < 2^16) (found : Bool) :
    freqRegInfo (mhzToKhz freq) found (rr::rules) =
      let found := found || closeTo (mhzToKhz freq) rr.freqRange.lo ||
        closeTo (mhzToKhz freq) rr.freqRange.hi
      if found = true ∧ Inside rr freq then
        if mhzToKhz 4000 < rr.freqRange.lo ∧
            (mhzToKhz freq-rr.freqRange.lo)%mhzToKhz 20 = 0 then .error .erange
        else .ok (infoOf rr freq)
      else freqRegInfo (mhzToKhz freq) found rules := by
  rw [freqRegInfo]
  dsimp only
  rw [bwFits_eq h10 hf, ← infoOf_eq h10 hf]
  generalize (found || closeTo (mhzToKhz freq) rr.freqRange.lo ||
    closeTo (mhzToKhz freq) rr.freqRange.hi) = near
  by_cases hin : Inside rr freq
  · have hlo := hin.1
    have hsub : u32Sub (mhzToKhz freq) rr.freqRange.lo = mhzToKhz freq-rr.freqRange.lo :=
      u32Sub_of_le (by omega) (by simp only [mhzToKhz]; omega)
    rw [hsub]
    cases near <;> simp [hin]
  · simp [hin]

theorem freqRegInfo_outside (h10 : 10 ≤ freq) (hf : freq < 2^16)
    (h : ∀ rr∈rules, ¬Inside rr freq) (found : Bool) :
    ∃ e, freqRegInfo (mhzToKhz freq) found rules = .error e := by
  induction rules generalizing found with
  | nil => exact ⟨_, rfl⟩
  | cons rr rules ih =>
    have hrr : ¬Inside rr freq := h rr List.mem_cons_self
    rw [freqRegInfo_cons h10 hf]
    simp only [hrr, and_false, if_false]
    exact ih (fun s hs => h s (List.mem_cons_of_mem rr hs)) _

/-- A band that lies in a rule finds this rule, or is refused: the rules before it neither
match nor bring a search within reach that this rule does not. -/
theorem freqRegInfo_inside (h10 : 10 ≤ freq) (hf : freq < 2^16) (hd : Disjoint rules)
    (hm : rr∈rules) (hin : Inside rr freq) {found : Bool}
    (hfound : found = true →
      mhzToKhz freq-rr.freqRange.lo ≤ 2000000 ∨ rr.freqRange.hi-mhzToKhz freq ≤ 2000000) :
    (Covers rr freq → freqRegInfo (mhzToKhz freq) found rules = .ok (infoOf rr freq)) ∧
      (¬Covers rr freq → ∃ e, freqRegInfo (mhzToKhz freq) found rules = .error e) := by
  induction rules generalizing found with
  | nil => cases hm
  | cons s rules ih =>
    obtain ⟨hs, hrest⟩ := List.pairwise_cons.mp hd
    rw [freqRegInfo_cons h10 hf]
    rcases List.mem_cons.mp hm with rfl | hm'
    · have hclose : (found || closeTo (mhzToKhz freq) rr.freqRange.lo ||
          closeTo (mhzToKhz freq) rr.freqRange.hi) = true ↔
          (mhzToKhz freq-rr.freqRange.lo ≤ 2000000 ∨ rr.freqRange.hi-mhzToKhz freq ≤ 2000000) := by
        rw [← close_iff hf h10 hin, Bool.or_assoc, Bool.or_eq_true, Bool.or_eq_true,
          or_iff_right_iff_imp, close_iff hf h10 hin]
        exact hfound
      simp only [hclose]
      constructor
      · intro hc
        rw [if_pos ⟨hc.close, hin⟩, if_neg fun hz => hc.aligned hz.1 hz.2]
      · intro hc
        split_ifs with h1 h2
        · exact ⟨_, rfl⟩
        · exact absurd ⟨hin, fun hl hz => h2 ⟨hl, hz⟩, h1.1⟩ hc
        · exact freqRegInfo_outside h10 hf (fun s hsm hsin =>
            hin.not_apart hsin (by simp only [mhzToKhz]; omega) (hs s hsm)) _
    · have hap := hs rr hm'
      have hout : ¬Inside s freq := by
        intro hsin
        exact hsin.not_apart hin (by simp only [mhzToKhz]; omega) hap
      simp only [hout, and_false, if_false]
      refine ih hrest hm' ?_
      intro hor
      simp only [Bool.or_eq_true, or_assoc] at hor
      rcases hor with hor | hor
      · exact hfound hor
      · exact close_of_apart hf hin hap.symm hor

end Search

section Apply
variable {regd : List RegRule} {chan : Channel} {rr : RegRule}

theorem regInfo_of_covers (hd : Disjoint regd) (hm : rr∈regd)
    (h : Covers rr chan.centerFreq) :
    regFreqRegInfoRegd chan.centerFreq regd = .ok (infoOf rr chan.centerFreq) :=
  (freqRegInfo_inside chan.lower chan.upper hd hm h.inside fun hn => by cases hn).1 h

theorem regInfo_of_not_covers (hd : Disjoint regd)
    (h : ∀ rr∈regd, ¬Covers rr chan.centerFreq) :
    ∃ e, regFreqRegInfoRegd chan.centerFreq regd = .error e := by
  by_cases hin : ∃ rr∈regd, Inside rr chan.centerFreq
  · obtain ⟨rr, hm, hin⟩ := hin
    exact (freqRegInfo_inside chan.lower chan.upper hd hm hin fun hn => by cases hn).2 (h rr hm)
  · exact freqRegInfo_outside chan.lower chan.upper
      (fun rr hm hrr => hin ⟨rr, hm, hrr⟩) false

theorem handled_of_covers (hd : Disjoint regd) (hm : rr∈regd)
    (h : Covers rr chan.centerFreq) : regHandleChannel regd chan =
      { chan with
        flags := infoFlags (infoOf rr chan.centerFreq)
        origFlags := infoFlags (infoOf rr chan.centerFreq)
        maxAntennaGain := rr.maxAntennaGain/100
        maxPower := rr.maxEirp/100 } := by
  rw [regHandleChannel, regInfo_of_covers hd hm h]
  rfl

theorem handled_of_not_covers (hd : Disjoint regd)
    (h : ∀ rr∈regd, ¬Covers rr chan.centerFreq) : regHandleChannel regd chan =
      { chan with flags := disabledFlags, origFlags := disabledFlags } := by
  obtain ⟨e, he⟩ := regInfo_of_not_covers hd h
  rw [regHandleChannel, he]

theorem applyChannel_centerFreq (p2pInPasvChan : Bool) (regd : List RegRule) (chan : Channel) :
    (applyChannel p2pInPasvChan regd chan).centerFreq = chan.centerFreq := by
  have hh : (regHandleChannel regd chan).centerFreq = chan.centerFreq := by
    rw [regHandleChannel]
    split <;> rfl
  rw [applyChannel]
  dsimp only
  split
  · exact hh
  · exact hh

theorem applyChannel_enabled_iff (p2pInPasvChan : Bool) (hd : Disjoint regd) :
    (applyChannel p2pInPasvChan regd chan).flags.disabled = false ↔
      ∃ rr∈regd, Covers rr chan.centerFreq := by
  have hsame : (applyChannel p2pInPasvChan regd chan).flags.disabled =
      (regHandleChannel regd chan).flags.disabled := by
    rw [applyChannel]
    dsimp only
    split <;> rfl
  rw [hsame]
  by_cases h : ∃ rr∈regd, Covers rr chan.centerFreq
  · obtain ⟨rr, hm, hc⟩ := h
    rw [handled_of_covers hd hm hc]
    exact iff_of_true rfl ⟨rr, hm, hc⟩
  · rw [handled_of_not_covers hd fun rr hm hc => h ⟨rr, hm, hc⟩]
    exact iff_of_false (by simp [disabledFlags]) h

theorem applyChannel_applied (p2pInPasvChan : Bool) (hd : Disjoint regd) (hm : rr∈regd)
    (h : Covers rr chan.centerFreq) :
    AppliedAs p2pInPasvChan rr (applyChannel p2pInPasvChan regd chan) := by
  rw [applyChannel, handled_of_covers hd hm h]
  dsimp only
  split
  · rename_i hrel
    have hrel : Relaxed p2pInPasvChan rr chan.centerFreq := by
      simpa [Relaxed, infoFlags, infoOf, and_assoc] using hrel
    exact ⟨rfl, rfl, rfl, rfl, by simp [hrel], by simp [hrel]⟩
  · rename_i hrel
    have hrel : ¬Relaxed p2pInPasvChan rr chan.centerFreq := by
      simpa [Relaxed, infoFlags, infoOf, and_assoc] using hrel
    exact ⟨rfl, rfl, rfl, rfl, by simp [hrel, infoFlags, infoOf],
      by simp [hrel, infoFlags, infoOf]⟩

theorem applyChannel_perm (p2pInPasvChan : Bool) (hd : Disjoint regd) {regd' : List RegRule}
    (hp : regd'.Perm regd) (chan : Channel) :
    applyChannel p2pInPasvChan regd' chan = applyChannel p2pInPasvChan regd chan := by
  have hd' : Disjoint regd' := hd.perm hp.symm fun h => h.symm
  have hh : regHandleChannel regd' chan = regHandleChannel regd chan := by
    by_cases h : ∃ rr∈regd, Covers rr chan.centerFreq
    · obtain ⟨rr, hm, hc⟩ := h
      rw [handled_of_covers hd hm hc, handled_of_covers hd' (hp.mem_iff.mpr hm) hc]
    · rw [handled_of_not_covers hd fun rr hm hc => h ⟨rr, hm, hc⟩,
        handled_of_not_covers hd' fun rr hm hc => h ⟨rr, hp.mem_iff.mp hm, hc⟩]
  rw [applyChannel, applyChannel, hh]

/-- After `ath6kl_reg_apply_regulatory` each channel is as its rule says: what becomes of it
depends on no other channel and not on the order of the rules, it is enabled just when a rule
covers it, and then it has the power and the flags of that rule. -/
theorem regulatory_applied (p2pInPasvChan : Bool) (regd : List RegRule) (hd : Disjoint regd) :
    ∃ outcome : Channel → Channel,
      (∀ regd', regd'.Perm regd → ∀ wiphy,
        applyRegulatory p2pInPasvChan regd' wiphy = wiphy.mapChannels outcome) ∧
      ∀ chan, (outcome chan).centerFreq = chan.centerFreq ∧
        ((outcome chan).flags.disabled = false ↔ ∃ rr∈regd, Covers rr chan.centerFreq) ∧
        ∀ rr∈regd, Covers rr chan.centerFreq → AppliedAs p2pInPasvChan rr (outcome chan) := by
  refine ⟨applyChannel p2pInPasvChan regd, ?_, ?_⟩
  · intro regd' hp wiphy
    have hf : applyChannel p2pInPasvChan regd' = applyChannel p2pInPasvChan regd :=
      funext (applyChannel_perm p2pInPasvChan hd hp)
    rw [applyRegulatory, hf]
  · intro chan
    exact ⟨applyChannel_centerFreq p2pInPasvChan regd chan,
      applyChannel_enabled_iff p2pInPasvChan hd,
      fun rr hm hc => applyChannel_applied p2pInPasvChan hd hm hc⟩

/-- A rule of so many MHz, without flags. -/
def ruleOf (lo hi : Nat) (h : lo ≤ hi ∧ hi ≤ 4000000) : RegRule :=
  { freqRange := ⟨mhzToKhz lo, mhzToKhz hi, by simp only [mhzToKhz]; omega⟩
    maxBandwidthKhz := mhzToKhz 40, maxAntennaGain := 300, maxEirp := 2000
    passiveScan := false, noIbss := false, dfs := false
    u32 := by simp only [mhzToKhz]; omega }

def channelOf (freq : Nat) (h : 10 ≤ freq ∧ freq < 2^16) : Channel :=
  { centerFreq := freq, flags := noFlags, origFlags := noFlags, maxAntennaGain := 0,
    maxPower := 0, lower := h.1, upper := h.2 }

/-- Channels 36 to 48 and 149 to 165, with P2P on passive channels. -/
theorem regulatory_applied_two : ∃ outcome : Channel → Channel,
    (∀ regd', regd'.Perm [ruleOf 5170 5250 (by decide), ruleOf 5735 5835 (by decide)] →
      ∀ wiphy, applyRegulatory true regd' wiphy = wiphy.mapChannels outcome) ∧
    ∀ chan, (outcome chan).centerFreq = chan.centerFreq ∧
      ((outcome chan).flags.disabled = false ↔
        ∃ rr∈[ruleOf 5170 5250 (by decide), ruleOf 5735 5835 (by decide)],
          Covers rr chan.centerFreq) ∧
      ∀ rr∈[ruleOf 5170 5250 (by decide), ruleOf 5735 5835 (by decide)],
        Covers rr chan.centerFreq → AppliedAs true rr (outcome chan) :=
  regulatory_applied true [ruleOf 5170 5250 (by decide), ruleOf 5735 5835 (by decide)]
    (by decide)

/-- Channel 38 lies inside the rule of channels 36 to 48 and is disabled, and so is channel 36
inside a rule that starts and ends far from it. -/
theorem inside_but_disabled :
    Disjoint [ruleOf 5170 5250 (by decide)] ∧ Inside (ruleOf 5170 5250 (by decide)) 5190 ∧
    (applyChannel false [ruleOf 5170 5250 (by decide)]
      (channelOf 5190 (by decide))).flags.disabled = true ∧
    Disjoint [ruleOf 2402 7402 (by decide)] ∧ Inside (ruleOf 2402 7402 (by decide)) 5180 ∧
    (applyChannel false [ruleOf 2402 7402 (by decide)]
      (channelOf 5180 (by decide))).flags.disabled = true := by
  decide

end Apply

end Ath6kl.RegRules
