import Mathlib.Tactic.SplitIfs
import Ath6kl.P2pRcUsable

/-! The channel of an AP (ap.c, `ath6kl_ap_rc_*`): the user fixes a frequency or asks for the
recommended channel of a category, and the choice is made when the AP starts. -/
namespace Ath6kl.ApRc
open Lib.Machine Ath6kl.P2pRc

section Choice

inductive ApRcMode where
  | disable | fixed | all2G | pop2G | all5G | overall | noLte2G | noDfs5G | overallNoLte
  | overallNoDfs | overallNoLteDfs
deriving DecidableEq

def ApRcMode.all : List ApRcMode :=
  [.disable, .fixed, .all2G, .pop2G, .all5G, .overall, .noLte2G, .noDfs5G, .overallNoLte,
    .overallNoDfs, .overallNoLteDfs]

/-- The field of the report that a mode reads. -/
def ApRcMode.rcType : ApRcMode → Option RcType
  | .disable | .fixed => none
  | .all2G => some .all2G
  | .pop2G => some .social
  | .all5G => some .all5G
  | .overall => some .overall
  | .noLte2G => some .noLte2G
  | .noDfs5G => some .noDfs5G
  | .overallNoLte => some .overallNoLte
  | .overallNoDfs => some .overallNoDfs
  | .overallNoLteDfs => some .overallNoLteDfs

structure ApRcInfo where
  mode : ApRcMode
  chan : Nat
  chanFixed : Nat
deriving DecidableEq

inductive ChanType where
  | none | ht20 | ht40plus | ht40minus
deriving DecidableEq

inductive IfType where
  | ap | p2pGo | station | p2pClient
deriving DecidableEq

/-- `rcInfoCtx` says whether there is a context for recommended channels, `rc` is that context
with the flags of the wiphy's channels. -/
structure State where
  rcInfoCtx : Bool
  rc : Rc
  apRc : ApRcInfo

/-- `ath6kl_ap_rc_init`, after `ath6kl_p2p_rc_init`. -/
def init (rcInfoCtx : Bool) (flags : List ChanFlags) : State :=
  { rcInfoCtx := rcInfoCtx, rc := rcInit flags, apRc := ⟨.disable, 0, 0⟩ }

/-- `ieee80211_get_channel`. -/
def getChannel (W : Wiphy) (freq : Int) : Option Nat :=
  (List.range W.channels.length).find? fun c => (W.freq c : Int) == freq

def State.flags (s : State) (c : Nat) : ChanFlags := s.rc.picks.tab.flags c

/-- `ath6kl_ap_rc_config`; false: -EINVAL. -/
def apRcConfig (W : Wiphy) (s : State) (modeOrFreq : Int) : State × Bool :=
  if modeOrFreq = 4 ∨ modeOrFreq = 5 ∨ modeOrFreq = 8 then (s, false)
  else if 0 ≤ modeOrFreq then
    if modeOrFreq ≤ 10 then
      ({ s with apRc := ⟨ApRcMode.all.getD modeOrFreq.toNat .disable, 0, 0⟩ }, true)
    else
      match getChannel W modeOrFreq with
      | none => (s, false)
      | some c =>
        if (s.flags c).disabled then (s, false)
        else ({ s with apRc := ⟨.fixed, 0, modeOrFreq.toNat⟩ }, true)
  else (s, false)

/-- The channel chosen from a report; a field that was not written is zero. -/
def chooseChan (apRc : ApRcInfo) (report : RcType → Option Nat) (chanConfig : Nat) : Nat :=
  match apRc.mode.rcType with
  | some ty => (report ty).getD 0
  | none => if apRc.mode = .fixed then apRc.chanFixed else chanConfig

/-- The call of `ath6kl_ap_rc_get`: what the interface is, whether the last update of the
recommended channels is over five minutes old, and the configured channel. -/
structure Query where
  nextChanType : ChanType
  iftype : IfType
  late : Bool
  chanConfig : Nat

/-- `ath6kl_ap_rc_get`; no channel: it reads a frequency through `NULL`. -/
def apRcGet (W : Wiphy) (s : State) (q : Query) : State × Option Nat :=
  if q.nextChanType = .none ∧ q.iftype ≠ .p2pGo then
    let failed := { s with apRc := { s.apRc with chan := 0 } }
    if s.apRc.mode = .disable ∨ s.rcInfoCtx = false then (failed, some q.chanConfig)
    else
      match s.rc.get W q.late with
      | (rc, .report freqs) =>
        if rc.picks.dangling then ({ s with rc := rc }, none)
        else
          let chan := chooseChan s.apRc freqs q.chanConfig
          ({ s with rc := rc, apRc := { s.apRc with chan := chan } }, some chan)
      | _ => (failed, some q.chanConfig)
  else (s, some q.chanConfig)

inductive Event where
  | rc (e : P2pRc.Event)
  | config (modeOrFreq : Int)
  | get (q : Query)

def step (W : Wiphy) (debug : Bool) (s : State) : Event → State
  | .rc e => { s with rc := P2pRc.step W debug s.rc e }
  | .config modeOrFreq => (apRcConfig W s modeOrFreq).1
  | .get q => (apRcGet W s q).1

end Choice

section Property
variable (W : Wiphy)

/-- A channel of that frequency is enabled in the wiphy. -/
def EnabledFreq (s : State) (freq : Nat) : Prop :=
  ∃ c∈List.range W.channels.length, W.freq c = freq ∧ (s.flags c).disabled = false

instance (s : State) (freq : Nat) : Decidable (EnabledFreq W s freq) :=
  inferInstanceAs (Decidable (∃ c∈List.range W.channels.length, _ ∧ _))

/-- A choice that is right: the configured channel or an enabled one. -/
def Right (s : State) (chanConfig chan : Nat) : Prop :=
  chan = chanConfig ∨ EnabledFreq W s chan

instance (s : State) (chanConfig chan : Nat) : Decidable (Right W s chanConfig chan) :=
  inferInstanceAs (Decidable (_ ∨ _))

def Yields (s : State) : Event → Prop
  | .get q => ∃ chan, (apRcGet W s q).2 = some chan ∧ Right W s q.chanConfig chan
  | _ => True

/-- `ath6kl_p2p_rc_get` is asked and reports. -/
def Reports (s : State) (q : Query) : Prop :=
  q.nextChanType = .none ∧ q.iftype ≠ .p2pGo ∧ s.apRc.mode ≠ .disable ∧ s.rcInfoCtx = true ∧
    s.rc.needUpdated = false ∧ (s.rc.alwaysFresh && q.late) = false

/-- A last result leads only to records that have a channel. -/
def Live (s : State) : Prop :=
  s.rc.done = true → ∀ ty∈RcType.all, ∀ i∈s.rc.picks.last ty,
    (s.rc.picks.tab.record i).channel ≠ none

/-- There is a channel for a category: a last result, or one that its filter lets through. -/
def Offers (s : State) (ty : RcType) : Prop :=
  if s.rc.done = true then s.rc.picks.last ty ≠ none else ∃ i, Admits W s.rc.picks.tab ty i

/-- When a report is used, last results lead to channels, a fixed frequency is still enabled and
a category has a channel, unless the frequency or zero happens to be right. -/
def Meets (s : State) : Event → Prop
  | .get q => Reports s q → Live s ∧
      match s.apRc.mode.rcType with
      | some ty => Offers W s ty ∨ Right W s q.chanConfig 0
      | none => Right W s q.chanConfig s.apRc.chanFixed
  | _ => True

end Property

section Records
variable {W : Wiphy}

/-- Every record's channel is one of the wiphy and enabled. -/
def InForce (W : Wiphy) (flags : List ChanFlags) (rs : List ChanRecord) : Prop :=
  ∀ r∈rs, ∀ c, r.channel = some c →
    c∈List.range W.channels.length ∧ (flags.getD c noFlags).disabled = false

theorem fetchRecord_inForce {flags : List ChanFlags} {rs : List ChanRecord}
    (h : InForce W flags rs) {c : Nat} (hc : c∈List.range W.channels.length) :
    InForce W flags (fetchRecord W flags rs c) := by
  rw [fetchRecord]
  split
  · exact h
  · rename_i hd
    cases W.slot c with
    | none => exact h
    | some i =>
      apply forall_modify _ h
      intro r _ d he
      cases he
      exact ⟨hc, by simpa using hd⟩

theorem fetchRecords_inForce (flags : List ChanFlags) :
    InForce W flags (fetchRecords W flags) := by
  have hstep : ∀ (xs : List Nat) (rs : List ChanRecord),
      (∀ c∈xs, c∈List.range W.channels.length) → InForce W flags rs →
      InForce W flags (xs.foldl (fetchRecord W flags) rs) := by
    intro xs
    induction xs with
    | nil => exact fun rs _ h => h
    | cons c xs ih =>
      intro rs hm h
      apply ih _ fun x hx => hm x (List.mem_cons_of_mem c hx)
      exact fetchRecord_inForce h (hm c List.mem_cons_self)
  apply hstep _ _ fun c hc => hc
  intro r hr c hc
  rw [List.eq_of_mem_replicate hr] at hc
  cases hc

theorem InForce.map {flags : List ChanFlags} {rs : List ChanRecord} (h : InForce W flags rs)
    {f : ChanRecord → ChanRecord} (hf : ∀ r, (f r).channel = r.channel) :
    InForce W flags (rs.map f) := by
  intro r hr c hc
  obtain ⟨x, hx, rfl⟩ := List.mem_map.mp hr
  exact h x hx c ((hf x).symm.trans hc)

theorem InForce.modify {flags : List ChanFlags} {rs : List ChanRecord} (h : InForce W flags rs)
    {f : ChanRecord → ChanRecord} (hf : ∀ r, (f r).channel = r.channel) (i : Nat) :
    InForce W flags (rs.modify i f) := by
  apply forall_modify _ h
  exact fun r hr d hd => hr d ((hf r).symm.trans hd)

/-- What no event takes from the context of the recommended channels. -/
structure Kept (W : Wiphy) (p : Rc) : Prop where
  inForce : InForce W p.picks.tab.chanFlags p.picks.tab.records
  flushed : p.done = false → p.picks.last = noPicks
  plain : Plain p.picks.tab

section Steps
variable {p : Rc}

theorem kept_init (W : Wiphy) (flags : List ChanFlags) : Kept W (rcInit flags) := by
  refine ⟨fun r hr c hc => ?_, fun _ => rfl, ⟨rfl, rfl⟩⟩
  rw [List.eq_of_mem_replicate hr] at hc
  cases hc

theorem Kept.flush (h : Kept W p) : Kept W p.flush :=
  ⟨h.inForce, fun _ => rfl, ⟨h.plain.compensation, h.plain.high⟩⟩

theorem Kept.setRecords (h : Kept W p) {rs : List ChanRecord}
    (hr : InForce W p.picks.tab.chanFlags rs) : Kept W (p.setRecords rs) :=
  ⟨hr, h.flushed, ⟨h.plain.compensation, h.plain.high⟩⟩

theorem Kept.regUpdate (h : Kept W p) (flags : List ChanFlags) :
    Kept W (p.regUpdate W flags) :=
  ⟨fetchRecords_inForce flags, h.flushed, ⟨h.plain.compensation, h.plain.high⟩⟩

theorem Kept.scanStart (h : Kept W p) (l s a : Bool) : Kept W (p.scanStart W l s a) := by
  have hreset : Kept W (p.resetChanRecord W) := by
    have hclear := h.setRecords (h.inForce.map
      (f := fun r => { r with bestSnr := nullSnr, averSnr := nullSnr }) fun r => rfl)
    rw [Rc.resetChanRecord]
    split
    · exact hclear
    · exact hclear.regUpdate p.picks.tab.chanFlags
  rw [Rc.scanStart]
  split
  · exact ⟨hreset.inForce, hreset.flushed, hreset.plain⟩
  · exact h

theorem Kept.bssInfo (h : Kept W p) (debug : Bool) (c snr : Nat) :
    Kept W (p.bssInfo W debug c snr) := by
  rw [Rc.bssInfo]
  split
  · rw [Rc.bssUpdate]
    cases W.slot c with
    | none => exact h
    | some i =>
      dsimp only
      split
      · exact ⟨h.inForce, h.flushed, h.plain⟩
      · exact h.setRecords (h.inForce.modify (fun r => keepSnr_channel r snr) i)
  · exact h

theorem Kept.setUser (h : Kept W p) (type : UserChanType) (list : List Nat) :
    Kept W (p.setUser type list) :=
  ⟨h.inForce, fun _ => rfl, ⟨h.plain.compensation, h.plain.high⟩⟩

theorem Kept.picks_eq (h : Kept W p) (hd : p.done = false) :
    p.picks = ⟨p.picks.tab, noPicks⟩ := by
  rw [← h.flushed hd]

theorem forget_plain {t u : RcTable} (hf : t.forget = u.forget) (h : Plain u) : Plain t :=
  ⟨(congrArg RcTable.snrCompensation hf).trans h.compensation,
    (congrArg RcTable.highChan hf).trans h.high⟩

theorem forget_inForce {t u : RcTable} (hf : t.forget = u.forget)
    (h : InForce W u.chanFlags u.records) : InForce W t.chanFlags t.records := by
  have hflags := congrArg RcTable.chanFlags hf
  change t.chanFlags = u.chanFlags at hflags
  intro r hr c hc
  obtain ⟨s, hs, he⟩ := mem_congr hf hr
  rw [hflags]
  exact h s hs c (he.trans hc)

theorem Kept.computed (h : Kept W p) (hd : p.done = false) : Kept W (p.computed W) := by
  have hf := (compute_spec (W := W) p.picks.tab).same
  rw [← h.picks_eq hd] at hf
  exact ⟨forget_inForce hf h.inForce, fun hn => (by cases hn), forget_plain hf h.plain⟩

theorem Kept.get (h : Kept W p) (late : Bool) : Kept W (p.get W late).1 := by
  have hlook : ∀ q, Kept W q → Kept W { q with oops := q.oops || q.picks.dangling } :=
    fun q hq => ⟨hq.inForce, hq.flushed, hq.plain⟩
  rw [Rc.get]
  split
  · exact h
  · split
    · exact h
    · cases hd : p.done with
      | true => exact hlook p h
      | false => exact hlook _ (h.computed hd)

theorem Kept.step (h : Kept W p) (debug : Bool) (e : P2pRc.Event) :
    Kept W (P2pRc.step W debug p e) := by
  cases e with
  | regUpdate flags => exact h.regUpdate flags
  | scanStart l s a => exact h.scanStart l s a
  | bssInfo c snr => exact h.bssInfo debug c snr
  | scanComplete aborted =>
    have hu : Kept W { p with needUpdated := false } := ⟨h.inForce, h.flushed, h.plain⟩
    cases aborted with
    | true => exact hu
    | false => exact hu.flush
  | config freq type =>
    simp only [P2pRc.step, Rc.config]
    split_ifs <;> first | exact h | exact h.setUser _ _
  | get late => exact h.get late

end Steps

end Records

section Queries
variable {W : Wiphy} {s : State} {q : Query}

def asked (W : Wiphy) (p : Rc) : Rc := if p.done then p else p.computed W

theorem apRcGet_of_not_reports (h : ¬Reports s q) : (apRcGet W s q).2 = some q.chanConfig := by
  rw [apRcGet]
  split
  · rename_i hq
    dsimp only
    split
    · rfl
    · rename_i hm
      rw [not_or] at hm
      have hc : s.rcInfoCtx = true := by simpa using hm.2
      by_cases hu : s.rc.needUpdated = true
      · simp only [Rc.get, hu, if_true]
      · have hu : s.rc.needUpdated = false := by simpa using hu
        by_cases hl : (s.rc.alwaysFresh && q.late) = true
        · simp [Rc.get, hu, hl]
        · exact absurd ⟨hq.1, hq.2, hm.1, hc, hu, by simpa using hl⟩ h
  · rfl

theorem apRcGet_of_reports (h : Reports s q) : (apRcGet W s q).2 =
    if (asked W s.rc).picks.dangling then none
    else some (chooseChan s.apRc ((asked W s.rc).picks.report W) q.chanConfig) := by
  obtain ⟨ht, hi, hm, hc, hu, hl⟩ := h
  have hget : s.rc.get W q.late =
      ({ asked W s.rc with oops := (asked W s.rc).oops || (asked W s.rc).picks.dangling },
        .report ((asked W s.rc).picks.report W)) := by
    simp only [Rc.get, hu, hl, Bool.false_eq_true, if_false, asked]
  rw [apRcGet, if_pos ⟨ht, hi⟩]
  simp only [hm, hc, Bool.true_eq_false, or_self, if_false, hget]
  split <;> rfl

theorem Kept.asked (h : Kept W s.rc) : Kept W (asked W s.rc) := by
  rw [ApRc.asked]
  split
  · exact h
  · rename_i hd
    exact h.computed (by simpa using hd)

theorem asked_forget (h : Kept W s.rc) :
    (asked W s.rc).picks.tab.forget = s.rc.picks.tab.forget := by
  rw [asked]
  split
  · rfl
  · rename_i hd
    have hf := (compute_spec (W := W) s.rc.picks.tab).same
    rw [← h.picks_eq (by simpa using hd)] at hf
    exact hf

theorem computed_last (h : Kept W s.rc) (hd : s.rc.done = false) :
    (s.rc.computed W).picks.last = recommend W s.rc.picks.tab := by
  have hl := (compute_spec (W := W) s.rc.picks.tab).last
  rw [← h.picks_eq hd] at hl
  exact hl

theorem dangling_eq_false_iff (p : Picks) : p.dangling = false ↔
    ∀ ty∈RcType.all, ∀ i∈p.last ty, (p.tab.record i).channel ≠ none := by
  simp only [Picks.dangling, List.any_eq_false]
  constructor
  · intro h ty hty i hi hn
    have ht := h ty hty
    rw [hi] at ht
    simp [hn] at ht
  · intro h ty hty
    cases hi : p.last ty with
    | none => simp
    | some i =>
      have hn := h ty hty i hi
      simpa using hn

theorem asked_dangling (h : Kept W s.rc) : (asked W s.rc).picks.dangling = false ↔ Live s := by
  cases hd : s.rc.done with
  | true =>
    simp only [asked, hd, if_true, dangling_eq_false_iff, Live, true_imp_iff]
  | false =>
    have hf := asked_forget h
    simp only [asked, hd, Bool.false_eq_true, if_false] at hf
    simp only [asked, hd, Bool.false_eq_true, if_false, dangling_eq_false_iff, Live,
      false_imp_iff, iff_true, computed_last h hd]
    intro ty _ i hi
    rw [channel_congr hf]
    exact Option.isSome_iff_ne_none.mp (recommend_slot hi)

theorem recommend_ne_none_iff {t : RcTable} (h : Plain t) (ty : RcType) :
    recommend W t ty ≠ none ↔ ∃ i, Admits W t ty i := by
  cases hr : recommend W t ty with
  | none =>
    have hn := recommend_none h hr
    exact iff_of_false (by simp) fun ⟨i, hi⟩ => hn i hi
  | some i => exact iff_of_true (by simp) ⟨i, (recommend_top h hr).1⟩

theorem asked_last (h : Kept W s.rc) (ty : RcType) :
    (asked W s.rc).picks.last ty ≠ none ↔ Offers W s ty := by
  cases hd : s.rc.done with
  | true => simp only [asked, hd, if_true, Offers]
  | false =>
    simp only [asked, hd, Bool.false_eq_true, if_false, Offers, computed_last h hd]
    exact recommend_ne_none_iff h.plain ty

theorem report_enabled (h : Kept W s.rc) {ty : RcType} {i : Nat}
    (hi : (asked W s.rc).picks.last ty = some i)
    (hd : (asked W s.rc).picks.dangling = false) :
    ∃ freq, (asked W s.rc).picks.report W ty = some freq ∧ EnabledFreq W s freq := by
  have hn := (dangling_eq_false_iff _).mp hd ty (RcType.mem_all ty) i hi
  obtain ⟨c, hc⟩ := Option.ne_none_iff_exists'.mp hn
  refine ⟨W.freq c, by simp only [Picks.report, hi, hc, Option.map_some], c, ?_⟩
  obtain ⟨r, hr, hrc⟩ := getD_mem hc
  obtain ⟨hm, hdis⟩ := h.asked.inForce r hr c hrc
  refine ⟨hm, rfl, ?_⟩
  rw [State.flags, ← flags_congr (asked_forget h)]
  exact hdis

theorem chosen_iff (h : Kept W s.rc) (hm : s.apRc.mode ≠ .disable)
    (hd : (asked W s.rc).picks.dangling = false) (q : Query) :
    Right W s q.chanConfig
        (chooseChan s.apRc ((asked W s.rc).picks.report W) q.chanConfig) ↔
      match s.apRc.mode.rcType with
      | some ty => Offers W s ty ∨ Right W s q.chanConfig 0
      | none => Right W s q.chanConfig s.apRc.chanFixed := by
  cases hty : s.apRc.mode.rcType with
  | none =>
    have hf : s.apRc.mode = .fixed := by
      cases hmode : s.apRc.mode <;> simp_all [ApRcMode.rcType]
    simp only [chooseChan, hf, ApRcMode.rcType, if_true]
  | some ty =>
    simp only [chooseChan, hty, ← asked_last h]
    cases hi : (asked W s.rc).picks.last ty with
    | none =>
      have hr : (asked W s.rc).picks.report W ty = none := by simp only [Picks.report, hi]
      simp [hr]
    | some i =>
      obtain ⟨freq, hr, he⟩ := report_enabled h hi hd
      simp [hr, Right, he]

theorem yields_iff (h : Kept W s.rc) (e : Event) : Yields W s e ↔ Meets W s e := by
  cases e with
  | rc e => exact Iff.rfl
  | config m => exact Iff.rfl
  | get q =>
    by_cases hr : Reports s q
    · simp only [Yields, Meets, hr, true_imp_iff, ← asked_dangling h, apRcGet_of_reports hr]
      cases hd : (asked W s.rc).picks.dangling with
      | true => simp
      | false => simp [chosen_iff h hr.2.2.1 hd]
    · simp [Yields, Meets, hr, apRcGet_of_not_reports hr, Right]

end Queries

section Runs
variable {W : Wiphy} {s : State}

theorem apRcConfig_rc (W : Wiphy) (s : State) (m : Int) : (apRcConfig W s m).1.rc = s.rc := by
  rw [apRcConfig]
  split
  · rfl
  · split
    · split
      · rfl
      · cases getChannel W m with
        | none => rfl
        | some c => dsimp only; split <;> rfl
    · rfl

theorem apRcGet_rc (W : Wiphy) (s : State) (q : Query) :
    (apRcGet W s q).1.rc = s.rc ∨ (apRcGet W s q).1.rc = (s.rc.get W q.late).1 := by
  rw [apRcGet]
  split
  · dsimp only
    split
    · exact Or.inl rfl
    · cases hg : s.rc.get W q.late with
      | mk p a =>
        cases a with
        | report freqs => dsimp only; split <;> exact Or.inr rfl
        | inProgress => exact Or.inl rfl
        | again => exact Or.inl rfl
  · exact Or.inl rfl

theorem step_kept (debug : Bool) (e : Event) (h : Kept W s.rc) :
    Kept W (step W debug s e).rc := by
  cases e with
  | rc e => exact h.step debug e
  | config m =>
    rw [step, apRcConfig_rc]
    exact h
  | get q =>
    rcases apRcGet_rc W s q with hq | hq
    · rw [step, hq]
      exact h
    · rw [step, hq]
      exact h.get q.late

/-- In every run, whatever is configured and however the regulatory rules change, each call of
`ath6kl_ap_rc_get` yields a channel just when it meets its condition. -/
theorem ap_rc_yields_iff (W : Wiphy) (debug rcInfoCtx : Bool) (flags : List ChanFlags)
    (es : List Event) :
    AllSteps (step W debug) (Yields W) (init rcInfoCtx flags) es ↔
      AllSteps (step W debug) (Meets W) (init rcInfoCtx flags) es :=
  allSteps_iff_allSteps (I := fun s => Kept W s.rc)
    (fun _ e hs _ => step_kept debug e hs) (fun _ e hs => yields_iff hs e)
    (kept_init W flags) es

theorem not_yields_of {q : Query} {chan : Nat} (h : (apRcGet W s q).2 = some chan)
    (hr : ¬Right W s q.chanConfig chan) : ¬Yields W s (.get q) := by
  rintro ⟨c, hc, hright⟩
  cases h.symm.trans hc
  exact hr hright

def twoBands : Wiphy := ⟨[⟨.band2G, 2412⟩, ⟨.band5G, 5180⟩]⟩

/-- Channel 36 is fixed and then disabled; no 5 GHz channel is enabled when the best one is asked
for; the mode for a fixed channel is set without one; and nothing was scanned yet. -/
theorem ap_rc_yields_none :
    ¬AllSteps (step twoBands false) (Yields twoBands) (init true [noFlags, noFlags])
      [.config 5180, .rc (.regUpdate [noFlags, ⟨true, false, false, false⟩]),
        .get ⟨.none, .ap, false, 2412⟩] ∧
    ¬AllSteps (step twoBands false) (Yields twoBands) (init true [noFlags, noFlags])
      [.rc (.regUpdate [noFlags, ⟨true, false, false, false⟩]),
        .rc (.scanStart true false false), .rc (.scanComplete false), .config 7,
        .get ⟨.none, .ap, false, 2412⟩] ∧
    ¬AllSteps (step twoBands false) (Yields twoBands) (init true [noFlags, noFlags])
      [.config 1, .get ⟨.none, .ap, false, 2412⟩] ∧
    ¬AllSteps (step twoBands false) (Yields twoBands) (init true [noFlags, noFlags])
      [.config 2, .get ⟨.none, .ap, false, 2412⟩] := by
  refine ⟨fun h => ?_, fun h => ?_, fun h => ?_, fun h => ?_⟩
  · exact not_yields_of (show _ = some 5180 by decide +kernel) (by decide +kernel) h.2.2.1
  · exact not_yields_of (show _ = some 0 by decide +kernel) (by decide +kernel) h.2.2.2.2.1
  · exact not_yields_of (show _ = some 0 by decide +kernel) (by decide +kernel) h.2.1
  · exact not_yields_of (show _ = some 0 by decide +kernel) (by decide +kernel) h.2.1

end Runs

end Ath6kl.ApRc
