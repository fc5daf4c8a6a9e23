import Mathlib.Data.List.Forall2
import Mathlib.Data.List.Induction
import Ath6kl.Lib.Sweep
import Ath6kl.RegRules

/-! The HT40 flags of the channels (reg.c): after the regulatory rules are applied,
`ath6kl_reg_chan_flags_update` goes over the channels of each band and pairs them, in place. -/
namespace Ath6kl.RegHt40
open Lib.Range Lib.Sweep Ath6kl.RegRules

section Model

def isHt40NotAllowed : Option Channel → Bool
  | none => true
  | some chan =>
    [2467, 2472, 2484, 5825, 5845].contains chan.centerFreq || chan.flags.disabled ||
      (chan.flags.noHt40Plus && chan.flags.noHt40Minus)

def channelAt (sband : List Channel) (freq : Int) : Option Channel :=
  sband.foldl (fun found c => if (c.centerFreq : Int) = freq then some c else found) none

def startFreq (freq : Nat) : Nat := if 5745 ≤ freq then 5745 else 5180

/-- A channel of 5 GHz may be HT40+ only, or HT40- only. -/
def ht40PlusOnly (freq : Nat) : Bool := ((freq : Int)-startFreq freq).tmod 40 == 0

def ChanFlags.setNoHt40 (f : ChanFlags) (plus minus : Bool) : ChanFlags :=
  { f with noHt40Plus := plus, noHt40Minus := minus }

/-- The flags that `_reg_process_chan` gives a channel. -/
def processFlags (sband : List Channel) (channel : Channel) : ChanFlags :=
  let flags := channel.flags
  if isHt40NotAllowed (some channel) then ChanFlags.setNoHt40 flags true true
  else
    let channelBefore := channelAt sband ((channel.centerFreq : Int)-20)
    let channelAfter := channelAt sband ((channel.centerFreq : Int)+20)
    let minus := flags.noHt40Minus || isHt40NotAllowed channelBefore
    let plus := flags.noHt40Plus || isHt40NotAllowed channelAfter
    if channel.centerFreq < 4000 then ChanFlags.setNoHt40 flags plus minus
    else if ht40PlusOnly channel.centerFreq then ChanFlags.setNoHt40 flags plus true
    else ChanFlags.setNoHt40 flags true minus

/-- `_reg_process_chan`. -/
def processChan (sband : List Channel) (channel : Channel) : Channel :=
  { channel with flags := processFlags sband channel }

def chanFlagsUpdateBand (sband : List Channel) : List Channel := sweep processChan sband

/-- `ath6kl_reg_chan_flags_update`. -/
def chanFlagsUpdate (wiphy : Wiphy) : Wiphy :=
  ⟨wiphy.bands.map (Option.map chanFlagsUpdateBand)⟩

end Model

section Pairing
variable {T : List Channel}

def allowed (c : Channel) : Bool := !isHt40NotAllowed (some c)

/-- A channel of that frequency allows HT40, as the rules left it. -/
def okAt (T : List Channel) (freq : Int) : Bool :=
  T.any fun c => (c.centerFreq : Int) == freq && allowed c

/-- The flags of a channel when all are settled: a function of the table as the rules left it. -/
def settledFlags (T : List Channel) (c : Channel) : ChanFlags :=
  let flags := c.flags
  if allowed c then
    let minus := flags.noHt40Minus || !okAt T ((c.centerFreq : Int)-20)
    let plus := flags.noHt40Plus || !okAt T ((c.centerFreq : Int)+20)
    if c.centerFreq < 4000 then ChanFlags.setNoHt40 flags plus minus
    else if ht40PlusOnly c.centerFreq then ChanFlags.setNoHt40 flags plus true
    else ChanFlags.setNoHt40 flags true minus
  else ChanFlags.setNoHt40 flags true true

def settled (T : List Channel) (c : Channel) : Channel := { c with flags := settledFlags T c }

/-- On the raster of the 20 MHz channels, where HT40+ and HT40- take turns. -/
def OnRaster (freq : Nat) : Prop := ((freq : Int)-startFreq freq)%20 = 0

/-- What the rules leave in a band: equal frequencies have equal flags, the hints for HT40 are for
5 GHz, a hint that ends a rule meets one that starts a rule, and 5 GHz is on the raster. -/
structure Tuned (T : List Channel) : Prop where
  uniform : ∀ c∈T, ∀ d∈T, c.centerFreq = d.centerFreq → c.flags = d.flags
  low : ∀ c∈T, allowed c = true → c.centerFreq ≤ 4000 →
    c.flags.noHt40Plus = false ∧ c.flags.noHt40Minus = false
  hints : ∀ c∈T, ∀ d∈T, allowed c = true → allowed d = true →
    d.centerFreq = c.centerFreq+20 → 4000 < c.centerFreq →
    c.flags.noHt40Plus = d.flags.noHt40Minus
  raster : ∀ c∈T, allowed c = true → 4000 ≤ c.centerFreq → OnRaster c.centerFreq

theorem plusOnly_iff (f : Nat) :
    ht40PlusOnly f = true ↔ ((f : Int)-startFreq f)%40 = 0 := by
  rw [ht40PlusOnly, beq_iff_eq, ← Int.dvd_iff_tmod_eq_zero, Int.dvd_iff_emod_eq_zero]

theorem plusOnly_turns {f : Nat} (h : OnRaster f) (h' : OnRaster (f+20)) :
    ht40PlusOnly (f+20) = true ↔ ht40PlusOnly f = false := by
  rw [← Bool.not_eq_true, plusOnly_iff, plusOnly_iff]
  simp only [OnRaster, startFreq] at *
  push_cast at *
  split_ifs at * <;> omega

theorem raster_start {f : Nat} (hf : f < 4000) (hd : 4000 ≤ f+20) (h : OnRaster (f+20)) :
    f+20 = 4000 := by
  simp only [OnRaster, startFreq] at h
  push_cast at h
  split_ifs at h <;> omega

theorem plusOnly_start : ht40PlusOnly 4000 = false := by decide

theorem okAt_iff {freq : Int} :
    okAt T freq = true ↔ ∃ c∈T, (c.centerFreq : Int) = freq ∧ allowed c = true := by
  simp [okAt]

theorem okAt_of_mem {c : Channel} (hc : c∈T) (ha : allowed c = true) {freq : Int}
    (hf : (c.centerFreq : Int) = freq) : okAt T freq = true :=
  okAt_iff.mpr ⟨c, hc, hf, ha⟩

theorem settled_allowed_lt {c : Channel} (ha : allowed c = true) (hf : c.centerFreq < 4000) :
    (settled T c).flags = ChanFlags.setNoHt40 c.flags
      (c.flags.noHt40Plus || !okAt T ((c.centerFreq : Int)+20))
      (c.flags.noHt40Minus || !okAt T ((c.centerFreq : Int)-20)) := by
  simp only [settled, settledFlags, ha, if_true, hf]

theorem settled_allowed_plus {c : Channel} (ha : allowed c = true) (hf : 4000 ≤ c.centerFreq)
    (hp : ht40PlusOnly c.centerFreq = true) :
    (settled T c).flags = ChanFlags.setNoHt40 c.flags
      (c.flags.noHt40Plus || !okAt T ((c.centerFreq : Int)+20)) true := by
  simp only [settled, settledFlags, ha, if_true, Nat.not_lt.mpr hf, if_false, hp]

theorem settled_allowed_minus {c : Channel} (ha : allowed c = true) (hf : 4000 ≤ c.centerFreq)
    (hp : ht40PlusOnly c.centerFreq = false) :
    (settled T c).flags = ChanFlags.setNoHt40 c.flags true
      (c.flags.noHt40Minus || !okAt T ((c.centerFreq : Int)-20)) := by
  simp only [settled, settledFlags, ha, if_true, Nat.not_lt.mpr hf, if_false, hp,
    Bool.false_eq_true]

theorem settled_not_allowed {c : Channel} (ha : allowed c = false) :
    (settled T c).flags = ChanFlags.setNoHt40 c.flags true true := by
  simp only [settled, settledFlags, ha, Bool.false_eq_true, if_false]

theorem allowed_of_flags {c d : Channel} (hf : c.centerFreq = d.centerFreq)
    (h : c.flags = d.flags) : allowed c = allowed d := by
  simp only [allowed, isHt40NotAllowed, hf, h]

theorem settled_disabled (c : Channel) :
    (settled T c).flags.disabled = c.flags.disabled := by
  simp only [settled, settledFlags]
  split_ifs <;> rfl

theorem settled_allowed {c : Channel} (ha : allowed c = true)
    (hs : (settled T c).flags.noHt40Plus = false ∨ (settled T c).flags.noHt40Minus = false) :
    allowed (settled T c) = true := by
  have hfreq : (settled T c).centerFreq = c.centerFreq := rfl
  simp only [allowed, isHt40NotAllowed, Bool.not_eq_true', Bool.or_eq_false_iff,
    Bool.and_eq_false_iff] at ha ⊢
  rw [hfreq, settled_disabled]
  exact ⟨ha.1, hs⟩

theorem not_allowed_settled {c : Channel} (ha : allowed c = false) :
    allowed (settled T c) = false := by
  have hfl := settled_not_allowed (T := T) ha
  simp [allowed, isHt40NotAllowed, hfl, ChanFlags.setNoHt40]

theorem settled_plus_iff {c : Channel} : (settled T c).flags.noHt40Plus = false ↔
    allowed c = true ∧ c.flags.noHt40Plus = false ∧
      (c.centerFreq < 4000 ∨ ht40PlusOnly c.centerFreq = true) ∧
      okAt T ((c.centerFreq : Int)+20) = true := by
  cases ha : allowed c with
  | false => simp [settled_not_allowed ha, ChanFlags.setNoHt40]
  | true =>
    by_cases hlow : c.centerFreq < 4000
    · simp [settled_allowed_lt ha hlow, ChanFlags.setNoHt40, hlow]
    · have hge : 4000 ≤ c.centerFreq := Nat.le_of_not_lt hlow
      cases hp : ht40PlusOnly c.centerFreq with
      | true => simp [settled_allowed_plus ha hge hp, ChanFlags.setNoHt40]
      | false => simp [settled_allowed_minus ha hge hp, ChanFlags.setNoHt40, hlow]

theorem settled_minus_iff {c : Channel} : (settled T c).flags.noHt40Minus = false ↔
    allowed c = true ∧ c.flags.noHt40Minus = false ∧
      (c.centerFreq < 4000 ∨ ht40PlusOnly c.centerFreq = false) ∧
      okAt T ((c.centerFreq : Int)-20) = true := by
  cases ha : allowed c with
  | false => simp [settled_not_allowed ha, ChanFlags.setNoHt40]
  | true =>
    by_cases hlow : c.centerFreq < 4000
    · simp [settled_allowed_lt ha hlow, ChanFlags.setNoHt40, hlow]
    · have hge : 4000 ≤ c.centerFreq := Nat.le_of_not_lt hlow
      cases hp : ht40PlusOnly c.centerFreq with
      | true => simp [settled_allowed_plus ha hge hp, ChanFlags.setNoHt40, hlow]
      | false => simp [settled_allowed_minus ha hge hp, ChanFlags.setNoHt40]

section Neighbours
variable (ht : Tuned T) {c d : Channel} (hc : c∈T) (hd : d∈T) (hac : allowed c = true)
  (had : allowed d = true) (hf : d.centerFreq = c.centerFreq+20)
include ht hc hd hac had hf

theorem hinted_alike (hside : c.centerFreq < 4000 ∨ ht40PlusOnly c.centerFreq = true) :
    c.flags.noHt40Plus = d.flags.noHt40Minus := by
  by_cases hlow : 4000 < c.centerFreq
  · exact ht.hints c hc d hd hac had hf hlow
  · have hcl := ht.low c hc hac (by omega)
    by_cases hdl : d.centerFreq ≤ 4000
    · rw [hcl.1, (ht.low d hd had hdl).2]
    · exfalso
      have hne : c.centerFreq ≠ 4000 := by
        intro h4
        simp [h4, plusOnly_start] at hside
      have hdr := ht.raster d hd had (by omega)
      simp only [OnRaster, startFreq] at hdr
      split_ifs at hdr <;> omega

theorem sides_alike : (c.centerFreq < 4000 ∨ ht40PlusOnly c.centerFreq = true) ↔
    (d.centerFreq < 4000 ∨ ht40PlusOnly d.centerFreq = false) := by
  by_cases hc4 : c.centerFreq < 4000
  · by_cases hd4 : d.centerFreq < 4000
    · exact iff_of_true (Or.inl hc4) (Or.inl hd4)
    · have hdr := ht.raster d hd had (by omega)
      have h4 : d.centerFreq = 4000 := by
        rw [hf] at hdr ⊢
        exact raster_start hc4 (by omega) hdr
      rw [h4]
      exact iff_of_true (Or.inl hc4) (Or.inr plusOnly_start)
  · have hcr := ht.raster c hc hac (by omega)
    have hdr := ht.raster d hd had (by omega)
    rw [hf] at hdr
    have hturn := plusOnly_turns hcr hdr
    rw [← hf] at hturn
    have hd4 : ¬d.centerFreq < 4000 := by omega
    rw [or_iff_right hc4, or_iff_right hd4, ← Bool.not_eq_true, hturn]
    simp

theorem settled_pair :
    (settled T c).flags.noHt40Plus = false ↔ (settled T d).flags.noHt40Minus = false := by
  have hup : okAt T ((c.centerFreq : Int)+20) = true := okAt_of_mem hd had (by omega)
  have hdown : okAt T ((d.centerFreq : Int)-20) = true := okAt_of_mem hc hac (by omega)
  have hsides := sides_alike ht hc hd hac had hf
  rw [settled_plus_iff, settled_minus_iff, hac, had, hup, hdown, ← hsides]
  by_cases hside : c.centerFreq < 4000 ∨ ht40PlusOnly c.centerFreq = true
  · rw [hinted_alike ht hc hd hac had hf hside]
  · simp only [hside, false_and, and_false]

end Neighbours

section Consult
variable (ht : Tuned T) {c x : Channel} (hc : c∈T) (hx : x∈T) (ha : allowed c = true)
include ht hc hx ha

theorem settled_before (hf : x.centerFreq+20 = c.centerFreq)
    (hlook : c.flags.noHt40Minus = false)
    (hside : c.centerFreq < 4000 ∨ ht40PlusOnly c.centerFreq = false) :
    allowed (settled T x) = allowed x := by
  cases hax : allowed x with
  | false => exact not_allowed_settled hax
  | true =>
    apply settled_allowed hax
    left
    rw [settled_pair ht hx hc hax ha hf.symm, settled_minus_iff]
    exact ⟨ha, hlook, hside, okAt_of_mem hx hax (by omega)⟩

theorem settled_after (hf : x.centerFreq = c.centerFreq+20)
    (hlook : c.flags.noHt40Plus = false)
    (hside : c.centerFreq < 4000 ∨ ht40PlusOnly c.centerFreq = true) :
    allowed (settled T x) = allowed x := by
  cases hax : allowed x with
  | false => exact not_allowed_settled hax
  | true =>
    apply settled_allowed hax
    right
    rw [← settled_pair ht hc hx ha hax hf, settled_plus_iff]
    exact ⟨ha, hlook, hside, okAt_of_mem hx hax (by omega)⟩

end Consult

theorem channelAt_spec (s : List Channel) (freq : Int) :
    (channelAt s freq = none ∧ ∀ c∈s, (c.centerFreq : Int) ≠ freq) ∨
      ∃ c∈s, (c.centerFreq : Int) = freq ∧ channelAt s freq = some c := by
  induction s using List.reverseRecOn with
  | nil => exact Or.inl ⟨rfl, fun c hc => by cases hc⟩
  | append_singleton s c ih =>
    have hlast : channelAt (s ++ [c]) freq =
        if (c.centerFreq : Int) = freq then some c else channelAt s freq := by
      simp only [channelAt, List.foldl_append, List.foldl_cons, List.foldl_nil]
    rw [hlast]
    by_cases hc : (c.centerFreq : Int) = freq
    · right
      exact ⟨c, by simp, hc, by simp [hc]⟩
    · rw [if_neg hc]
      rcases ih with ⟨hn, hall⟩ | ⟨d, hd, hf, hs⟩
      · left
        refine ⟨hn, fun d hd => ?_⟩
        rcases List.mem_append.mp hd with hd | hd
        · exact hall d hd
        · rw [List.mem_singleton.mp hd]
          exact hc
      · exact Or.inr ⟨d, List.mem_append_left _ hd, hf, hs⟩

section Process
variable (ht : Tuned T) {s : List Channel} (hs : Between (settled T) T s)
include ht hs

theorem notAllowed_channelAt {freq : Int}
    (hsame : ∀ x∈T, (x.centerFreq : Int) = freq → allowed (settled T x) = allowed x) :
    isHt40NotAllowed (channelAt s freq) = !okAt T freq := by
  rcases channelAt_spec s freq with ⟨hn, hall⟩ | ⟨y, hy, hf, hsome⟩
  · rw [hn]
    have hno : okAt T freq = false := by
      rw [← Bool.not_eq_true, okAt_iff]
      rintro ⟨x, hx, hfx, -⟩
      rcases hs.mem_of_mem hx with hm | hm
      · exact hall x hm hfx
      · exact hall (settled T x) hm hfx
    rw [hno]
    rfl
  · obtain ⟨x, hx, hyx⟩ := hs.mem hy
    have hfx : (x.centerFreq : Int) = freq := by
      rcases hyx with rfl | rfl <;> exact hf
    have hay : allowed y = allowed x := by
      rcases hyx with rfl | rfl
      · rfl
      · exact hsame x hx hfx
    have hok : okAt T freq = allowed x := by
      rw [Bool.eq_iff_iff, okAt_iff]
      constructor
      · rintro ⟨z, hz, hfz, haz⟩
        have hzx : z.centerFreq = x.centerFreq := by omega
        rw [← allowed_of_flags hzx (ht.uniform z hz x hx hzx)]
        exact haz
      · exact fun hax => ⟨x, hx, hfx, hax⟩
    rw [hsome, hok, ← hay, allowed, Bool.not_not]

theorem minus_eq {c : Channel} (hc : c∈T) (ha : allowed c = true)
    (hside : c.centerFreq < 4000 ∨ ht40PlusOnly c.centerFreq = false) :
    (c.flags.noHt40Minus || isHt40NotAllowed (channelAt s ((c.centerFreq : Int)-20))) =
      (c.flags.noHt40Minus || !okAt T ((c.centerFreq : Int)-20)) := by
  cases hm : c.flags.noHt40Minus with
  | true => rfl
  | false =>
    rw [notAllowed_channelAt ht hs]
    intro x hx hf
    exact settled_before ht hc hx ha (by omega) hm hside

theorem plus_eq {c : Channel} (hc : c∈T) (ha : allowed c = true)
    (hside : c.centerFreq < 4000 ∨ ht40PlusOnly c.centerFreq = true) :
    (c.flags.noHt40Plus || isHt40NotAllowed (channelAt s ((c.centerFreq : Int)+20))) =
      (c.flags.noHt40Plus || !okAt T ((c.centerFreq : Int)+20)) := by
  cases hm : c.flags.noHt40Plus with
  | true => rfl
  | false =>
    rw [notAllowed_channelAt ht hs]
    intro x hx hf
    exact settled_after ht hc hx ha (by omega) hm hside

theorem processChan_eq {c : Channel} (hc : c∈T) : processChan s c = settled T c := by
  have hfl : processFlags s c = settledFlags T c := by
    cases ha : allowed c with
    | false =>
      have hn : isHt40NotAllowed (some c) = true := by simpa [allowed] using ha
      simp only [processFlags, settledFlags, ha, hn, if_true, Bool.false_eq_true, if_false]
    | true =>
      have hn : isHt40NotAllowed (some c) = false := by simpa [allowed] using ha
      simp only [processFlags, settledFlags, ha, hn, if_true, Bool.false_eq_true, if_false]
      by_cases hlow : c.centerFreq < 4000
      · rw [if_pos hlow, if_pos hlow, plus_eq ht hs hc ha (.inl hlow),
          minus_eq ht hs hc ha (.inl hlow)]
      · rw [if_neg hlow, if_neg hlow]
        cases hp : ht40PlusOnly c.centerFreq with
        | true => simp only [if_true, plus_eq ht hs hc ha (.inr hp)]
        | false => simp only [Bool.false_eq_true, if_false, minus_eq ht hs hc ha (.inr hp)]
  rw [processChan, hfl]
  rfl

end Process

theorem chanFlagsUpdateBand_eq (ht : Tuned T) : chanFlagsUpdateBand T = T.map (settled T) :=
  sweep_eq_map fun _ hs _ hx _ => processChan_eq ht hs hx

section Again
variable {c : Channel}

theorem setNoHt40_self (f : ChanFlags) {plus minus : Bool} (hp : f.noHt40Plus = plus)
    (hm : f.noHt40Minus = minus) : ChanFlags.setNoHt40 f plus minus = f := by
  subst hp hm
  rfl

theorem plus_again (ht : Tuned T) (hc : c∈T) :
    ((settled T c).flags.noHt40Plus ||
      isHt40NotAllowed (channelAt (T.map (settled T)) ((c.centerFreq : Int)+20))) =
      (settled T c).flags.noHt40Plus := by
  cases hp : (settled T c).flags.noHt40Plus with
  | true => rfl
  | false =>
    obtain ⟨ha, hlook, hside, hok⟩ := settled_plus_iff.mp hp
    rw [Bool.false_or, notAllowed_channelAt ht (map_between _ _), hok]
    · rfl
    · intro x hx hf
      exact settled_after ht hc hx ha (by omega) hlook hside

theorem minus_again (ht : Tuned T) (hc : c∈T) :
    ((settled T c).flags.noHt40Minus ||
      isHt40NotAllowed (channelAt (T.map (settled T)) ((c.centerFreq : Int)-20))) =
      (settled T c).flags.noHt40Minus := by
  cases hp : (settled T c).flags.noHt40Minus with
  | true => rfl
  | false =>
    obtain ⟨ha, hlook, hside, hok⟩ := settled_minus_iff.mp hp
    rw [Bool.false_or, notAllowed_channelAt ht (map_between _ _), hok]
    · rfl
    · intro x hx hf
      exact settled_before ht hc hx ha (by omega) hlook hside

theorem processChan_again (ht : Tuned T) (hc : c∈T) :
    processChan (T.map (settled T)) (settled T c) = settled T c := by
  have hfreq : (settled T c).centerFreq = c.centerFreq := rfl
  have hfl : processFlags (T.map (settled T)) (settled T c) = (settled T c).flags := by
    cases ha : allowed (settled T c) with
    | false =>
      have hn : isHt40NotAllowed (some (settled T c)) = true := by simpa [allowed] using ha
      rw [processFlags]
      simp only [hn, if_true]
      apply setNoHt40_self
      · rw [← Bool.not_eq_false]
        intro hp
        rw [settled_allowed (settled_plus_iff.mp hp).1 (.inl hp)] at ha
        cases ha
      · rw [← Bool.not_eq_false]
        intro hm
        rw [settled_allowed (settled_minus_iff.mp hm).1 (.inr hm)] at ha
        cases ha
    | true =>
      have hn : isHt40NotAllowed (some (settled T c)) = false := by simpa [allowed] using ha
      rw [processFlags]
      simp only [hn, hfreq, Bool.false_eq_true, if_false, plus_again ht hc, minus_again ht hc]
      split_ifs with hlow hp
      · exact setNoHt40_self _ rfl rfl
      · apply setNoHt40_self _ rfl
        rw [← Bool.not_eq_false]
        intro hm
        have hside := (settled_minus_iff.mp hm).2.2.1
        simp [hlow, hp] at hside
      · apply setNoHt40_self _ ?_ rfl
        rw [← Bool.not_eq_false]
        intro hm
        have hside := (settled_plus_iff.mp hm).2.2.1
        simp [hlow, hp] at hside
  rw [processChan, hfl]

theorem chanFlagsUpdateBand_again (ht : Tuned T) :
    chanFlagsUpdateBand (T.map (settled T)) = T.map (settled T) := by
  apply sweep_eq_self
  intro y hy
  obtain ⟨c, hc, rfl⟩ := List.mem_map.mp hy
  exact processChan_again ht hc

end Again

theorem settled_oneSide {c : Channel} (hge : 4000 ≤ c.centerFreq) :
    (settled T c).flags.noHt40Plus = true ∨ (settled T c).flags.noHt40Minus = true := by
  simp only [← Bool.not_eq_false, ← not_and_or]
  rintro ⟨hp, hm⟩
  have hplus := (settled_plus_iff.mp hp).2.2.1.resolve_left (by omega)
  have hminus := (settled_minus_iff.mp hm).2.2.1.resolve_left (by omega)
  rw [hplus] at hminus
  cases hminus

theorem settled_symmetric (ht : Tuned T) {c d : Channel} (hc : c∈T) (hd : d∈T)
    (hf : d.centerFreq = c.centerFreq+20) :
    (settled T c).flags.noHt40Plus = false ↔ (settled T d).flags.noHt40Minus = false := by
  have hother : ∀ x∈T, ∀ freq : Int, okAt T freq = true → (x.centerFreq : Int) = freq →
      allowed x = true := by
    intro x hx freq hok hfx
    obtain ⟨y, hy, hfy, hay⟩ := okAt_iff.mp hok
    have hxy : x.centerFreq = y.centerFreq := by omega
    rw [allowed_of_flags hxy (ht.uniform x hx y hy hxy)]
    exact hay
  constructor
  · intro hp
    obtain ⟨hac, -, -, hok⟩ := settled_plus_iff.mp hp
    exact (settled_pair ht hc hd hac (hother d hd _ hok (by omega)) hf).mp hp
  · intro hm
    obtain ⟨had, -, -, hok⟩ := settled_minus_iff.mp hm
    exact (settled_pair ht hc hd (hother c hc _ hok (by omega)) had hf).mpr hm

theorem settled_perm {T' : List Channel} (hp : T'.Perm T) (c : Channel) :
    settled T' c = settled T c := by
  have hok : okAt T' = okAt T := by
    funext freq
    rw [Bool.eq_iff_iff, okAt_iff, okAt_iff]
    simp only [hp.mem_iff]
  simp only [settled, settledFlags, hok]

theorem Tuned.perm {T' : List Channel} (ht : Tuned T) (hp : T'.Perm T) : Tuned T' := by
  constructor
  · intro c hc d hd
    exact ht.uniform c (hp.mem_iff.mp hc) d (hp.mem_iff.mp hd)
  · intro c hc
    exact ht.low c (hp.mem_iff.mp hc)
  · intro c hc d hd
    exact ht.hints c (hp.mem_iff.mp hc) d (hp.mem_iff.mp hd)
  · intro c hc
    exact ht.raster c (hp.mem_iff.mp hc)

end Pairing

section Ruled
variable {p2pInPasvChan : Bool} {regd : List RegRule}

/-- A rule that allows 40 MHz covers the frequency. -/
def Wide (regd : List RegRule) (freq : Nat) : Prop :=
  ∃ rr∈regd, Covers rr freq ∧ mhzToKhz 40 ≤ rr.maxBandwidthKhz

theorem applyChannel_flags (p2pInPasvChan : Bool) (hd : Disjoint regd) {c : Channel} {rr : RegRule} (hm : rr∈regd)
    (h : Covers rr c.centerFreq) :
    (applyChannel p2pInPasvChan regd c).flags.noHt40Plus =
        (infoFlags (infoOf rr c.centerFreq)).noHt40Plus ∧
      (applyChannel p2pInPasvChan regd c).flags.noHt40Minus =
        (infoFlags (infoOf rr c.centerFreq)).noHt40Minus := by
  rw [applyChannel, handled_of_covers hd hm h]
  dsimp only
  split
  · exact ⟨rfl, rfl⟩
  · exact ⟨rfl, rfl⟩

theorem wide_of_allowed (hd : Disjoint regd) {c : Channel}
    (ha : allowed (applyChannel p2pInPasvChan regd c) = true) :
    ∃ rr∈regd, Covers rr c.centerFreq ∧ mhzToKhz 40 ≤ rr.maxBandwidthKhz ∧
      (applyChannel p2pInPasvChan regd c).flags.noHt40Plus =
        (infoOf rr c.centerFreq).isFreqEnd ∧
      (applyChannel p2pInPasvChan regd c).flags.noHt40Minus =
        (infoOf rr c.centerFreq).isFreqStart := by
  simp only [allowed, isHt40NotAllowed, Bool.not_eq_true', Bool.or_eq_false_iff,
    Bool.and_eq_false_iff] at ha
  obtain ⟨⟨-, hen⟩, hside⟩ := ha
  obtain ⟨rr, hm, hc⟩ := (applyChannel_enabled_iff p2pInPasvChan hd).mp hen
  obtain ⟨hp, hmi⟩ := applyChannel_flags p2pInPasvChan hd hm hc
  have hinfo : (infoOf rr c.centerFreq).regRule = rr := rfl
  have hwide : ¬rr.maxBandwidthKhz < mhzToKhz 40 := by
    intro hn
    rw [hp, hmi] at hside
    simp [infoFlags, hinfo, hn] at hside
  refine ⟨rr, hm, hc, by omega, ?_, ?_⟩
  · rw [hp]
    simp [infoFlags, hinfo, hwide]
  · rw [hmi]
    simp [infoFlags, hinfo, hwide]

theorem applyChannel_flags_eq (c : Channel) :
    (applyChannel p2pInPasvChan regd c).flags =
      let flags := (regHandleChannel regd c).flags
      if p2pInPasvChan && !flags.radar && P2pRc.isP2pChannel (regHandleChannel regd c).centerFreq
      then { flags with passiveScan := false, noIbss := false } else flags := by
  rw [applyChannel]
  dsimp only
  split
  · rfl
  · rfl

theorem applyChannel_flags_congr {c d : Channel} (hf : c.centerFreq = d.centerFreq) :
    (applyChannel p2pInPasvChan regd c).flags = (applyChannel p2pInPasvChan regd d).flags := by
  have hh : (regHandleChannel regd c).flags = (regHandleChannel regd d).flags ∧
      (regHandleChannel regd c).centerFreq = (regHandleChannel regd d).centerFreq := by
    have hfind : regFreqRegInfoRegd c.centerFreq regd = regFreqRegInfoRegd d.centerFreq regd := by
      rw [hf]
    rw [regHandleChannel, regHandleChannel, hfind]
    cases regFreqRegInfoRegd d.centerFreq regd with
    | error e => exact ⟨rfl, hf⟩
    | ok info => exact ⟨rfl, hf⟩
  rw [applyChannel_flags_eq, applyChannel_flags_eq, hh.1, hh.2]

theorem ends_iff_starts (hd : Disjoint regd) {r s : RegRule} (hr : r∈regd) (hs : s∈regd)
    {freq : Nat} (hrc : Covers r freq) (hsd : Covers s (freq+20))
    (hlow : 4000 < freq) : (infoOf r freq).isFreqEnd = (infoOf s (freq+20)).isFreqStart := by
  have hr' := hrc.inside
  have hs' := hsd.inside
  have hmid : mhzToKhz (freq+20)-10000 = mhzToKhz freq+10000 := by
    simp only [mhzToKhz]
    omega
  have hm : mhzToKhz 4000 < mhzToKhz freq ∧ mhzToKhz 4000 < mhzToKhz (freq+20) := by
    simp only [mhzToKhz]
    omega
  rw [Inside, hmid] at hs'
  simp only [infoOf, hm, decide_true, Bool.true_and, hmid]
  rcases eq_or_touch hd hr hs (by omega) (by omega) hr' hs' with rfl | ⟨hhi, hlo⟩
  · have h1 := hr'.1
    have h2 := hs'.2
    have hne : mhzToKhz freq+10000 ≠ r.freqRange.hi ∧
        mhzToKhz freq+10000 ≠ r.freqRange.lo := by
      omega
    rw [beq_eq_false_iff_ne.mpr hne.1, beq_eq_false_iff_ne.mpr hne.2]
  · rw [hhi, hlo]

/-- The channels that a rule lets have 40 MHz in 5 GHz are on the raster. -/
def RuledOnRaster (regd : List RegRule) (sband : List Channel) : Prop :=
  ∀ c∈sband, 4000 ≤ c.centerFreq → Wide regd c.centerFreq → OnRaster c.centerFreq

theorem applied_tuned (hd : Disjoint regd) {sband : List Channel}
    (hr : RuledOnRaster regd sband) : Tuned (sband.map (applyChannel p2pInPasvChan regd)) := by
  constructor
  · intro y hy z hz hf
    obtain ⟨c, -, rfl⟩ := List.mem_map.mp hy
    obtain ⟨d, -, rfl⟩ := List.mem_map.mp hz
    rw [applyChannel_centerFreq, applyChannel_centerFreq] at hf
    exact applyChannel_flags_congr hf
  · intro y hy ha hle
    obtain ⟨c, -, rfl⟩ := List.mem_map.mp hy
    obtain ⟨rr, -, -, -, hp, hm⟩ := wide_of_allowed hd ha
    rw [applyChannel_centerFreq] at hle
    have hle : ¬mhzToKhz 4000 < mhzToKhz c.centerFreq := by
      simp only [mhzToKhz]
      omega
    rw [hp, hm]
    simp [infoOf, hle]
  · intro y hy z hz hay haz hf hlow
    obtain ⟨c, -, rfl⟩ := List.mem_map.mp hy
    obtain ⟨d, -, rfl⟩ := List.mem_map.mp hz
    rw [applyChannel_centerFreq] at hf hlow
    rw [applyChannel_centerFreq] at hf
    obtain ⟨r, hr, hrc, -, hp, -⟩ := wide_of_allowed hd hay
    obtain ⟨s, hs, hsd, -, -, hm⟩ := wide_of_allowed hd haz
    rw [hf] at hsd hm
    rw [hp, hm]
    exact ends_iff_starts hd hr hs hrc hsd hlow
  · intro y hy ha hge
    obtain ⟨c, hc, rfl⟩ := List.mem_map.mp hy
    obtain ⟨rr, hm, hcov, hwide, -⟩ := wide_of_allowed hd ha
    rw [applyChannel_centerFreq] at hge ⊢
    exact hr c hc hge ⟨rr, hm, hcov, hwide⟩

/-- The HT40 flags of a band agree with each other and with the rules. -/
structure Ht40Coherent (regd : List RegRule) (sband : List Channel) : Prop where
  symmetric : ∀ c∈sband, ∀ d∈sband, d.centerFreq = c.centerFreq+20 →
    (c.flags.noHt40Plus = false ↔ d.flags.noHt40Minus = false)
  above : ∀ c∈sband, c.flags.noHt40Plus = false → ∃ d∈sband,
    d.centerFreq = c.centerFreq+20 ∧ d.flags.disabled = false ∧ Wide regd d.centerFreq
  oneSide : ∀ c∈sband, 4000 ≤ c.centerFreq →
    c.flags.noHt40Plus = true ∨ c.flags.noHt40Minus = true

theorem applied_above (hd : Disjoint regd) {sband T : List Channel}
    (hT : T = sband.map (applyChannel p2pInPasvChan regd)) {c : Channel}
    (hp : (settled T c).flags.noHt40Plus = false) : ∃ d∈T.map (settled T),
      d.centerFreq = c.centerFreq+20 ∧ d.flags.disabled = false ∧ Wide regd d.centerFreq := by
  obtain ⟨-, -, -, hok⟩ := settled_plus_iff.mp hp
  obtain ⟨d, hdm, hdf, had⟩ := okAt_iff.mp hok
  refine ⟨settled T d, List.mem_map_of_mem hdm, ?_, ?_, ?_⟩
  · exact Int.ofNat.inj hdf
  · rw [settled_disabled]
    simp only [allowed, isHt40NotAllowed, Bool.not_eq_true', Bool.or_eq_false_iff] at had
    exact had.1.2
  · rw [hT] at hdm
    obtain ⟨x, -, rfl⟩ := List.mem_map.mp hdm
    obtain ⟨rr, hm, hcov, hwide, -⟩ := wide_of_allowed hd had
    have hfreq : (settled T (applyChannel p2pInPasvChan regd x)).centerFreq = x.centerFreq :=
      applyChannel_centerFreq p2pInPasvChan regd x
    rw [hfreq]
    exact ⟨rr, hm, hcov, hwide⟩

theorem applied_coherent (hd : Disjoint regd) {sband T : List Channel}
    (hr : RuledOnRaster regd sband)
    (hT : T = sband.map (applyChannel p2pInPasvChan regd)) :
    Ht40Coherent regd (T.map (settled T)) := by
  have ht : Tuned T := hT ▸ applied_tuned hd hr
  constructor
  · intro y hy z hz hf
    obtain ⟨c, hc, rfl⟩ := List.mem_map.mp hy
    obtain ⟨d, hd', rfl⟩ := List.mem_map.mp hz
    exact settled_symmetric ht hc hd' hf
  · intro y hy hp
    obtain ⟨c, -, rfl⟩ := List.mem_map.mp hy
    exact applied_above (c := c) hd hT hp
  · intro y hy hge
    obtain ⟨c, -, rfl⟩ := List.mem_map.mp hy
    exact settled_oneSide hge

/-- What the update makes of a channel of the band. -/
def outcome (p2pInPasvChan : Bool) (regd : List RegRule) (sband : List Channel) (c : Channel) :
    Channel :=
  settled (sband.map (applyChannel p2pInPasvChan regd)) (applyChannel p2pInPasvChan regd c)

theorem updated_band (p2pInPasvChan : Bool) (hd : Disjoint regd) {sband : List Channel}
    (hr : RuledOnRaster regd sband) {sband' : List Channel} (hp : sband'.Perm sband) :
    chanFlagsUpdateBand (sband'.map (applyChannel p2pInPasvChan regd)) =
      sband'.map (outcome p2pInPasvChan regd sband) := by
  have hperm := hp.map (applyChannel p2pInPasvChan regd)
  rw [chanFlagsUpdateBand_eq ((applied_tuned hd hr).perm hperm), List.map_map]
  apply List.map_congr_left
  intro c _
  exact settled_perm hperm _

theorem updated_band_again (hd : Disjoint regd) {sband : List Channel}
    (hr : RuledOnRaster regd sband) :
    chanFlagsUpdateBand
        (chanFlagsUpdateBand (sband.map (applyChannel p2pInPasvChan regd))) =
      chanFlagsUpdateBand (sband.map (applyChannel p2pInPasvChan regd)) := by
  have ht : Tuned (sband.map (applyChannel p2pInPasvChan regd)) := applied_tuned hd hr
  rw [chanFlagsUpdateBand_eq ht, chanFlagsUpdateBand_again ht]

theorem updated_band_coherent (hd : Disjoint regd) {sband : List Channel}
    (hr : RuledOnRaster regd sband) : Ht40Coherent regd
      (chanFlagsUpdateBand (sband.map (applyChannel p2pInPasvChan regd))) := by
  rw [chanFlagsUpdateBand_eq (applied_tuned hd hr)]
  exact applied_coherent hd hr rfl

theorem updated_bands (wiphy : Wiphy) :
    (chanFlagsUpdate (applyRegulatory p2pInPasvChan regd wiphy)).bands =
      wiphy.bands.map (Option.map fun sband =>
        chanFlagsUpdateBand (sband.map (applyChannel p2pInPasvChan regd))) := by
  simp only [chanFlagsUpdate, applyRegulatory, Wiphy.mapChannels, List.map_map,
    Option.map_comp_map]
  rfl

/-- The same channels in each band, in whatever order. -/
def Reordered (w w' : Wiphy) : Prop := List.Forall₂ (Option.Rel List.Perm) w'.bands w.bands

def bandOutcome (p2pInPasvChan : Bool) (regd : List RegRule) (wiphy : Wiphy) (band : Nat)
    (c : Channel) : Channel :=
  match wiphy.bands[band]? with
  | some (some sband) => outcome p2pInPasvChan regd sband c
  | _ => c

theorem updated_reordered (hd : Disjoint regd) {wiphy wiphy' : Wiphy}
    (hr : ∀ sband, some sband∈wiphy.bands → RuledOnRaster regd sband)
    (hw : Reordered wiphy wiphy') :
    (chanFlagsUpdate (applyRegulatory p2pInPasvChan regd wiphy')).bands =
      wiphy'.bands.mapIdx fun band =>
        Option.map (List.map (bandOutcome p2pInPasvChan regd wiphy band)) := by
  rw [updated_bands]
  apply List.ext_getElem?
  intro band
  rw [List.getElem?_map, List.getElem?_mapIdx]
  by_cases hlt : band < wiphy'.bands.length
  · have hlt' : band < wiphy.bands.length := hw.length_eq ▸ hlt
    have hrel := hw.get hlt hlt'
    rw [List.get_eq_getElem, List.get_eq_getElem] at hrel
    have hat := List.getElem?_eq_getElem hlt'
    rw [List.getElem?_eq_getElem hlt]
    cases hb' : wiphy'.bands[band] with
    | none => rfl
    | some sband' =>
      rw [hb'] at hrel
      cases hb : wiphy.bands[band] with
      | none => rw [hb] at hrel; cases hrel
      | some sband =>
        rw [hb] at hrel hat
        cases hrel with
        | some hp =>
          have hsb := updated_band p2pInPasvChan hd
            (hr sband (List.mem_of_getElem? hat)) hp
          simp only [Option.map_some, hsb]
          congr 3
          funext c
          rw [bandOutcome, hat]
  · rw [List.getElem?_eq_none (by omega)]
    rfl

/-- After the regulatory rules and `ath6kl_reg_chan_flags_update` the HT40 flags agree with each
other, to update them again changes nothing, and what becomes of a channel does not depend on
the order of the channels. -/
theorem ht40_coherent (p2pInPasvChan : Bool) (regd : List RegRule) (hd : Disjoint regd)
    (wiphy : Wiphy) (hr : ∀ sband, some sband∈wiphy.bands → RuledOnRaster regd sband) :
    let updated := chanFlagsUpdate (applyRegulatory p2pInPasvChan regd wiphy)
    (∀ sband, some sband∈updated.bands → Ht40Coherent regd sband) ∧
      chanFlagsUpdate updated = updated ∧
      ∃ result : Nat → Channel → Channel, ∀ wiphy', Reordered wiphy wiphy' →
        (chanFlagsUpdate (applyRegulatory p2pInPasvChan regd wiphy')).bands =
          wiphy'.bands.mapIdx fun band => Option.map (List.map (result band)) := by
  dsimp only
  refine ⟨?_, ?_, bandOutcome p2pInPasvChan regd wiphy,
    fun wiphy' hw => updated_reordered hd hr hw⟩
  · intro sband' hs
    rw [updated_bands] at hs
    obtain ⟨b, hb, hs⟩ := List.mem_map.mp hs
    obtain ⟨sband, rfl, rfl⟩ := Option.map_eq_some_iff.mp hs
    exact updated_band_coherent hd (hr sband hb)
  · rw [chanFlagsUpdate, updated_bands]
    simp only [chanFlagsUpdate, applyRegulatory, Wiphy.mapChannels, List.map_map]
    congr 1
    apply List.map_congr_left
    intro b hb
    cases b with
    | none => rfl
    | some sband =>
      simp only [Function.comp_apply, Option.map_some]
      rw [updated_band_again hd (hr sband hb)]

/-- Channels 36 and 40 in one rule, 44 and 48 in another. -/
theorem ht40_coherent_two :
    let wiphy : Wiphy := ⟨[none, some [channelOf 5200 (by decide), channelOf 5180 (by decide),
      channelOf 5220 (by decide), channelOf 5240 (by decide)]]⟩
    let regd := [ruleOf 5170 5210 (by decide), ruleOf 5210 5250 (by decide)]
    let updated := chanFlagsUpdate (applyRegulatory false regd wiphy)
    (∀ sband, some sband∈updated.bands → Ht40Coherent regd sband) ∧
      chanFlagsUpdate updated = updated ∧
      ∃ result : Nat → Channel → Channel, ∀ wiphy', Reordered wiphy wiphy' →
        (chanFlagsUpdate (applyRegulatory false regd wiphy')).bands =
          wiphy'.bands.mapIdx fun band => Option.map (List.map (result band)) :=
  ht40_coherent false [ruleOf 5170 5210 (by decide), ruleOf 5210 5250 (by decide)] (by decide) _
    (by
      intro sband hs
      simp only [List.mem_cons, List.not_mem_nil, or_false, reduceCtorEq, false_or,
        Option.some.injEq] at hs
      subst hs
      simp [RuledOnRaster, OnRaster, startFreq, channelOf])

/-- Channels 34 and 38 in one rule: the flags depend on which of them comes first, and to update
them again changes them. -/
theorem ht40_incoherent :
    let regd := [ruleOf 5160 5240 (by decide)]
    let low := channelOf 5170 (by decide)
    let high := channelOf 5190 (by decide)
    let apply := List.map (applyChannel false regd)
    Disjoint regd ∧
      (chanFlagsUpdateBand (apply [high, low])).map (fun c => c.flags.noHt40Minus) =
        [false, true] ∧
      (chanFlagsUpdateBand (apply [low, high])).map (fun c => c.flags.noHt40Minus) =
        [true, true] ∧
      (chanFlagsUpdateBand (apply [high, low])).map (fun c => c.flags.noHt40Plus) =
        [true, true] ∧
      chanFlagsUpdateBand (chanFlagsUpdateBand (apply [high, low])) ≠
        chanFlagsUpdateBand (apply [high, low]) := by
  decide

end Ruled

end Ath6kl.RegHt40
