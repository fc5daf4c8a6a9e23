import Ath6kl.WmmStream
import Ath6kl.Lib.Bitmap
import Mathlib.Data.Finset.Lattice.Fold
import Mathlib.Order.Lattice.Nat
import Mathlib.Data.Fintype.Basic

/-! The books of the WMM streams agree in every run, unless an implicitly created stream finds
no buffer for its command: then its class exists and is never activated. -/
namespace Ath6kl.WmmStream
open Lib.Machine Lib.Bitmap Function
variable {s : Wmm} {ac : Ac} {p : CreatePstream} {env : Env}

def activeSet (active : Ac → Bool) : Finset Ac := Finset.univ.filter fun ac => active ac = true

theorem mem_activeSet {active : Ac → Bool} : ac∈activeSet active ↔ active ac = true := by
  simp [activeSet]

theorem activeSet_insert (active : Ac → Bool) (ac : Ac) :
    activeSet (update active ac true) = insert ac (activeSet active) := by
  ext i
  rw [Finset.mem_insert, mem_activeSet, mem_activeSet]
  by_cases hi : i = ac
  · simp [hi]
  · simp [hi]

theorem activeSet_erase (active : Ac → Bool) (ac : Ac) :
    activeSet (update active ac false) = (activeSet active).erase ac := by
  ext i
  rw [Finset.mem_erase, mem_activeSet, mem_activeSet]
  by_cases hi : i = ac
  · simp [hi]
  · simp [hi]

theorem highestActive_eq (active : Ac → Bool) (pri : Ac → Nat) (acs : List Ac) (hiac : Nat) :
    highestActive active pri acs hiac =
      max hiac ((acs.toFinset.filter fun ac => active ac = true).sup pri) := by
  induction acs generalizing hiac with
  | nil => simp [highestActive]
  | cons i acs ih =>
    have hfold : highestActive active pri (i::acs) hiac = highestActive active pri acs
        (if active i ∧ hiac < pri i then pri i else hiac) := rfl
    rw [hfold, ih, List.toFinset_cons, Finset.filter_insert]
    by_cases ha : active i = true
    · simp only [ha, true_and, if_true, Finset.sup_insert]
      split <;> omega
    · simp [ha]

theorem highestActive_all (active : Ac → Bool) (pri : Ac → Nat) :
    highestActive active pri (List.finRange wmmNumAc) 0 = (activeSet active).sup pri := by
  rw [highestActive_eq, List.toFinset_finRange, Nat.zero_max, activeSet]

theorem countP_all (active : Ac → Bool) :
    ((List.finRange wmmNumAc).countP fun i => active i) = (activeSet active).card := by
  rw [List.countP_eq_length_filter, activeSet, ← List.toFinset_finRange, ← List.toFinset_filter,
    List.toFinset_card_of_nodup ((List.nodup_finRange wmmNumAc).filter _)]

/-- The two numbers that summarise the active classes. -/
structure Tally (s : Wmm) : Prop where
  num : s.acStreamActiveNum = (activeSet s.acStreamActive).card
  hiac : s.hiacStreamActivePri = (activeSet s.acStreamActive).sup s.acStreamPriMap

theorem sup_erase {S : Finset Ac} {pri : Ac → Nat} (h : S.sup pri ≠ pri ac) :
    (S.erase ac).sup pri = S.sup pri := by
  by_cases hac : ac∈S
  · have hins : S.sup pri = max (pri ac) ((S.erase ac).sup pri) := by
      rw [← Finset.sup_insert, Finset.insert_erase hac]
    omega
  · rw [Finset.erase_eq_of_notMem hac]

theorem Tally.indicate (h : Tally s) (ac : Ac) (active : Bool) :
    Tally (indicateTxActivity s ac active) where
  num := countP_all _
  hiac := by
    have hh := h.hiac
    cases active with
    | true =>
      simp only [indicateTxActivity, if_true, activeSet_insert, Finset.sup_insert]
      split <;> omega
    | false =>
      simp only [indicateTxActivity, Bool.false_eq_true, if_false, highestActive_all]
      split
      next => rfl
      next hne =>
        rw [activeSet_erase, sup_erase (hh ▸ hne)]
        exact hh

structure Books (s : Wmm) : Prop where
  pipes : Tracks s.fatPipeExist s.acStreamActive
  streams : ∀ ac, s.streamExistForAc ac ≠ 0 → s.acStreamActive ac = true
  tally : Tally s

theorem Books.indicateOn (h : Books s) (ac : Ac) :
    Books ((indicateTxActivity s ac true).setFatPipe ac) where
  pipes := h.pipes.set (by decide)
  streams i hi := by
    by_cases hia : i = ac
    · simp [Wmm.setFatPipe, indicateTxActivity, hia]
    · simpa [Wmm.setFatPipe, indicateTxActivity, hia] using h.streams i hi
  tally := by
    have ht := h.tally.indicate ac true
    exact ⟨ht.num, ht.hiac⟩

theorem Books.indicateOff (h : Books s) (hac : s.streamExistForAc ac = 0) :
    Books ((indicateTxActivity s ac false).clearFatPipe ac) where
  pipes := h.pipes.clear (by decide)
  streams i hi := by
    by_cases hia : i = ac
    · exact absurd hac (hia ▸ hi)
    · simpa [Wmm.clearFatPipe, indicateTxActivity, hia] using h.streams i hi
  tally := by
    have ht := h.tally.indicate ac false
    exact ⟨ht.num, ht.hiac⟩

theorem Books.clearStreams (h : Books s) (ac : Ac) (mask : BitVec 16) :
    Books (s.clearStreams ac mask) where
  pipes := h.pipes
  streams i hi := by
    by_cases hia : i = ac
    · subst hia
      apply h.streams i
      intro h0
      apply hi
      simp [Wmm.clearStreams, h0]
    · apply h.streams i
      simpa [Wmm.clearStreams, hia] using hi
  tally := ⟨h.tally.num, h.tally.hiac⟩

theorem Books.streamsGone (h : Books s) (ac : Ac) : Books (streamsGone s ac) := by
  unfold WmmStream.streamsGone
  split
  next hac => exact h.indicateOff hac
  next => exact h

theorem Books.delete (h : Books s) (trafficClass tsid : UInt8) :
    Books (deletePstreamCmd s trafficClass tsid env).1 := by
  unfold deletePstreamCmd
  split
  next => exact h
  next ac _ =>
    split
    next => exact h
    next =>
      dsimp only
      split
      next => exact h
      next => exact (h.clearStreams ac _).streamsGone ac

theorem setFatPipe_of_active (h : Books s) (hac : s.acStreamActive ac = true) :
    Books (s.setFatPipe ac) where
  pipes := by
    have hset := h.pipes.set (i := ac) (by decide)
    rwa [← hac, update_eq_self] at hset
  streams := h.streams
  tally := ⟨h.tally.num, h.tally.hiac⟩

theorem Books.addStream (h : Books s) (hac : s.acStreamActive ac = true) (tsid : UInt8) :
    Books (s.addStream ac tsid) where
  pipes := h.pipes
  streams i hi := by
    by_cases hia : i = ac
    · rw [hia]
      exact hac
    · apply h.streams i
      simpa [Wmm.addStream, hia] using hi
  tally := ⟨h.tally.num, h.tally.hiac⟩

theorem Books.create (h : Books s) (p : CreatePstream) (env : Env) :
    Books (createPstreamCmd s p env).1 := by
  unfold createPstreamCmd
  split
  next => exact h
  next ac _ =>
    split
    next => exact h
    next =>
      dsimp only
      cases hact : s.acStreamActive ac with
      | true =>
        simp only [if_true]
        split
        next => exact setFatPipe_of_active h hact
        next => exact setFatPipe_of_active (h.addStream hact p.tsid) hact
      | false =>
        have hon := h.indicateOn ac
        simp only [Bool.false_eq_true, if_false]
        split
        next => exact hon
        next => exact hon.addStream (update_self ..) p.tsid

theorem Books.pstreamTimeout (h : Books s) (ac : Ac) : Books (pstreamTimeoutEvent s ac) := by
  have hcleared : Books { s with streamExistForAc := update s.streamExistForAc ac 0 } := by
    have hall := h.clearStreams ac (BitVec.allOnes 16)
    simpa [Wmm.clearStreams] using hall
  exact hcleared.indicateOff (update_self ..)

theorem Books.cac (h : Books s) (e : CacEvent) {w : Wmm} (hw : cacEvent s e env = some w) :
    Books w := by
  unfold cacEvent at hw
  split at hw
  next =>
    cases hw
    exact h.delete e.ac e.tsid
  next =>
    obtain ⟨ac, -, rfl⟩ := Option.map_eq_some_iff.mp hw
    split
    next index _ => exact h.delete e.ac (UInt8.ofNat index)
    next => exact h
  next =>
    obtain ⟨ac, -, rfl⟩ := Option.map_eq_some_iff.mp hw
    exact (h.clearStreams ac _).streamsGone ac
  next =>
    cases hw
    exact h

/-- The loop of `ath6kl_wmi_relinquish_implicit_pstream_credits` works on a copy of the bitmap. -/
theorem Books.relinquishAc {r : Wmm × BitVec 8}
    (h : Books { r.1 with fatPipeExist := r.2 }) (i : Ac) :
    Books { (WmmStream.relinquishAc r i).1 with
      fatPipeExist := (WmmStream.relinquishAc r i).2 } := by
  unfold WmmStream.relinquishAc
  split
  next hi => exact h.indicateOff hi.2
  next => exact h

theorem Books.relinquishLoop {r : Wmm × BitVec 8}
    (h : Books { r.1 with fatPipeExist := r.2 }) (acs : List Ac) :
    Books { (acs.foldl WmmStream.relinquishAc r).1 with
      fatPipeExist := (acs.foldl WmmStream.relinquishAc r).2 } := by
  induction acs generalizing r with
  | nil => exact h
  | cons i acs ih => exact ih (h.relinquishAc i)

theorem Books.relinquish (h : Books s) : Books (relinquishImplicitPstreamCredits s) :=
  relinquishLoop (r := (s, s.fatPipeExist)) h (List.finRange wmmNumAc)

def implicitAc (s : Wmm) (skb : EthFrame.Skb) (layer2Pri : Nat) (wmmEnabled pae : Bool) : Ac :=
  upToAc (implicitUp s (implicitUsrPri skb layer2Pri wmmEnabled pae))

theorem implicitPstream_check (up : Fin 8) : (implicitPstream up).check = some (upToAc up) := by
  revert up
  decide

theorem setFatPipe_idem (s : Wmm) (ac : Ac) : (s.setFatPipe ac).setFatPipe ac = s.setFatPipe ac := by
  simp [Wmm.setFatPipe, BitVec.or_assoc]

theorem createPstreamCmd_setFatPipe (up : Fin 8) (ha : env.alloc = true) :
    (createPstreamCmd (s.setFatPipe (upToAc up)) (implicitPstream up) env).1 =
    (createPstreamCmd s (implicitPstream up) env).1 := by
  have htsid : (implicitPstream up).tsid = wmiImplicitPstream := rfl
  simp only [createPstreamCmd, implicitPstream_check, ha, Bool.not_true, Bool.false_eq_true,
    if_false, htsid, if_true, setFatPipe_idem]
  rfl

/-- A frame whose class has no stream yet finds a buffer, and the events of the target name one of
the four classes. -/
def Meets (s : Driver) : Event → Prop
  | .implicitCreate skb layer2Pri wmmEnabled pae env =>
    s.wmm.fatPipe (implicitAc s.wmm skb layer2Pri wmmEnabled pae) = false → env.alloc = true
  | .pstreamTimeout trafficClass => trafficClass.toNat < wmmNumAc
  | .cac e _ => match e.indication with
    | .noResp | .delete => e.ac.toNat < wmmNumAc
    | _ => True
  | _ => True

/-- After every operation the four accounts of each class agree. -/
structure Consistent (s : Driver) : Prop where
  pipes : ∀ ac, s.wmm.fatPipe ac = true ↔ s.wmm.acStreamActive ac = true
  streams : ∀ ac, s.wmm.streamExistForAc ac ≠ 0 → s.wmm.fatPipe ac = true
  num : s.wmm.acStreamActiveNum =
    (Finset.univ.filter fun ac => s.wmm.acStreamActive ac = true).card
  hiac : s.wmm.hiacStreamActivePri =
    (Finset.univ.filter fun ac => s.wmm.acStreamActive ac = true).sup s.wmm.acStreamPriMap
  tame : s.wild = false

theorem consistent_iff {s : Driver} : Consistent s ↔ Books s.wmm ∧ s.wild = false := by
  constructor
  · intro h
    refine ⟨⟨fun ac => ?_, fun ac hac => ?_, h.num, h.hiac⟩, h.tame⟩
    · exact Bool.eq_iff_iff.mpr (h.pipes ac)
    · exact (h.pipes ac).mp (h.streams ac hac)
  · intro ⟨h, hw⟩
    refine ⟨fun ac => ?_, fun ac hac => ?_, h.tally.num, h.tally.hiac, hw⟩
    · exact Bool.eq_iff_iff.mp (h.pipes ac)
    · exact (h.pipes ac).trans (h.streams ac hac)

theorem toAc_isSome {trafficClass : UInt8} :
    (∃ ac, toAc trafficClass = some ac) ↔ trafficClass.toNat < wmmNumAc := by
  unfold toAc
  split
  next h => exact ⟨fun _ => h, fun _ => ⟨_, rfl⟩⟩
  next h => exact ⟨fun ⟨_, hac⟩ => (nomatch hac), fun hlt => absurd hlt h⟩

theorem Books.not_setFatPipe (h : Books s) (hac : s.fatPipe ac = false) :
    ¬ Books (s.setFatPipe ac) := by
  intro k
  have hset := k.pipes ac
  have hact : s.acStreamActive ac = false := (h.pipes ac).symm.trans hac
  rw [Wmm.setFatPipe, getLsbD_set (Nat.lt_trans ac.isLt (by decide))] at hset
  simp [hact] at hset

theorem implicitCreate_books (h : Books s) (skb : EthFrame.Skb) (layer2Pri : Nat)
    (wmmEnabled pae : Bool) (env : Env) :
    Books (implicitCreatePstream s skb layer2Pri wmmEnabled pae env) ↔
    (s.fatPipe (implicitAc s skb layer2Pri wmmEnabled pae) = false → env.alloc = true) := by
  unfold implicitCreatePstream implicitAc
  generalize implicitUp s (implicitUsrPri skb layer2Pri wmmEnabled pae) = up
  dsimp only
  cases hpipe : s.fatPipe (upToAc up) with
  | true => simpa using h
  | false =>
    simp only [Bool.false_eq_true, if_false, forall_const]
    cases ha : env.alloc with
    | true =>
      rw [createPstreamCmd_setFatPipe up ha]
      exact ⟨fun _ => rfl, fun _ => h.create _ _⟩
    | false =>
      have hfail : (createPstreamCmd (s.setFatPipe (upToAc up)) (implicitPstream up) env).1 =
          s.setFatPipe (upToAc up) := by
        simp [createPstreamCmd, implicitPstream_check, ha]
      rw [hfail]
      exact ⟨fun k => absurd k (h.not_setFatPipe hpipe), fun k => nomatch k⟩

theorem step_consistent_iff {s : Driver} (h : Consistent s) (e : Event) :
    Consistent (step s e) ↔ Meets s e := by
  obtain ⟨hb, hw⟩ := consistent_iff.mp h
  rw [consistent_iff]
  cases e with
  | implicitCreate skb layer2Pri wmmEnabled pae env =>
    have hiff := implicitCreate_books hb skb layer2Pri wmmEnabled pae env
    exact ⟨fun k => hiff.mp k.1, fun k => ⟨hiff.mpr k, hw⟩⟩
  | create p env => exact ⟨fun _ => trivial, fun _ => ⟨hb.create p env, hw⟩⟩
  | delete trafficClass tsid env =>
    exact ⟨fun _ => trivial, fun _ => ⟨hb.delete trafficClass tsid, hw⟩⟩
  | relinquish => exact ⟨fun _ => trivial, fun _ => ⟨hb.relinquish, hw⟩⟩
  | pstreamTimeout trafficClass =>
    rw [Meets, ← toAc_isSome]
    cases hac : toAc trafficClass with
    | none => simp [step, hac, Driver.take]
    | some ac =>
      refine ⟨fun _ => ⟨ac, rfl⟩, fun _ => ?_⟩
      simp only [step, hac, Option.map_some, Driver.take]
      exact ⟨hb.pstreamTimeout ac, hw⟩
  | cac e env =>
    have hmeets : Meets s (.cac e env) ↔ ∃ w, cacEvent s.wmm e env = some w := by
      simp only [Meets, cacEvent]
      cases e.indication with
      | admissionResp => simp
      | noResp => simp [← toAc_isSome, Option.map_eq_some_iff]
      | delete => simp [← toAc_isSome, Option.map_eq_some_iff]
      | other => simp
    rw [hmeets]
    cases hc : cacEvent s.wmm e env with
    | none => simp [step, hc, Driver.take]
    | some w =>
      refine ⟨fun _ => ⟨w, rfl⟩, fun _ => ?_⟩
      simp only [step, hc, Driver.take]
      exact ⟨hb.cac e hc, hw⟩

def fresh (acStreamPriMap : Ac → Nat) : Driver where
  wmm := { acStreamPriMap := acStreamPriMap }

theorem fresh_consistent (acStreamPriMap : Ac → Nat) : Consistent (fresh acStreamPriMap) := by
  rw [consistent_iff]
  refine ⟨⟨Tracks.zero, fun ac hac => absurd rfl hac, ?_⟩, rfl⟩
  have hnone : activeSet (fun _ => false) = ∅ := by simp [activeSet]
  refine ⟨?_, ?_⟩
  · simp [fresh, hnone]
  · simp [fresh, hnone]

theorem wmm_streams_consistent (acStreamPriMap : Ac → Nat) (es : List Event) :
    (∀ u, u <+: es → Consistent (run step (fresh acStreamPriMap) u)) ↔
    AllSteps step Meets (fresh acStreamPriMap) es := by
  apply prefix_iff_allSteps (I := Consistent) fun _ hs => hs
  · intro s e hs hm
    exact (step_consistent_iff hs e).mpr hm
  · intro s e hs hp
    exact (step_consistent_iff hs e).mp hp
  · exact fresh_consistent acStreamPriMap

/-- The first frame finds no buffer for the command that creates its stream. -/
theorem wmm_streams_inconsistent :
    ¬ Consistent (run step (fresh fun ac => [1, 0, 2, 3].getD ac 0)
      [.implicitCreate ⟨[], fun _ => 0⟩ 0 true false { alloc := false }]) := by
  intro h
  have hact := (h.pipes ⟨0, by decide⟩).mp (by decide)
  revert hact
  decide

end Ath6kl.WmmStream
