import Ath6kl.Lib.Insertion
import Ath6kl.Lib.Jiffies
import Ath6kl.Lib.Memory

/-! The channels on which a network was seen lately, from the frames that the driver keeps of a scan
(main.c): the scan plan takes them in the order of their frequencies. -/
namespace Ath6kl.BssPostProc
open Lib.Compact Lib.Insertion Lib.Jiffies Lib.Memory

section Model

/-- `WLAN_EID_SSID`, and where `u.beacon.variable` begins. -/
def wlanEidSsid : UInt8 := 0
def beaconVariable : Nat := 24+8+2+2

/-- `struct bss_info_entry`; `mgmt` is the memory from the frame on. -/
structure BssInfoEntry where
  centerFreq : UInt16
  mgmt : Mem
  len : Nat
  shootTime : Nat

/-- `struct bss_post_proc`. -/
structure PostProc where
  bssInfoList : List BssInfoEntry
  agingTime : Int

/-- The list, the number of channels, and whether `BUG_ON` was hit. -/
structure Candidates where
  chanList : Buffer UInt16
  chanNum : Nat := 0
  bug : Bool := false

/-- The first loop of `bss_post_proc_candidate_chan`, with so many entries left: where it stops, and
whether the channel is to be added. -/
def searchSlot (chanList : Buffer UInt16) (chan : UInt16) : Nat → Nat → Nat × Bool
  | 0, i => (i, true)
  | left+1, i =>
    if chan = chanList.entry i then (i, false)
    else if chan < chanList.entry i then (i, true)
    else searchSlot chanList chan left (i+1)

/-- `bss_post_proc_candidate_chan`. -/
def candidateChan (chan : UInt16) (s : Candidates) : Candidates :=
  let (i, add) := searchSlot s.chanList chan s.chanNum 0
  if add then
    let (slot, chanList) :=
      if i = s.chanNum then (s.chanNum, s.chanList)
      else (i, moveUp s.chanList s.chanNum (s.chanNum-i))
    { chanList := chanList.put slot chan
      chanNum := s.chanNum+1
      bug := s.bug || decide (slot ≥ s.chanNum+1) }
  else s

def aged (c : Clock) (jiffies : Nat) (postProc : PostProc) (bssInfo : BssInfoEntry) : Bool :=
  c.timeAfter jiffies (bssInfo.shootTime+postProc.agingTime)

/-- The element behind the fixed fields is that of the SSID. -/
def ssidMatches (ssid : List UInt8) (mgmt : Mem) : Bool :=
  mgmt beaconVariable = wlanEidSsid && (mgmt (beaconVariable+1)).toNat = ssid.length &&
    slice mgmt (beaconVariable+2) ssid.length = ssid

/-- The loop of `ath6kl_bss_post_proc_candidate_bss`, for one entry. -/
def candidateEntry (c : Clock) (jiffies : Nat) (postProc : PostProc) (ssid : List UInt8)
    (s : Candidates) (bssInfo : BssInfoEntry) : Candidates :=
  if aged c jiffies postProc bssInfo then s
  else if bssInfo.len < 24+4+2+2+2+1 then s
  else if ssidMatches ssid bssInfo.mgmt then candidateChan bssInfo.centerFreq s
  else s

/-- `ath6kl_bss_post_proc_candidate_bss`. -/
def candidateBss (c : Clock) (jiffies : Nat) (postProc : Option PostProc) (ssid : List UInt8)
    (chanList : Buffer UInt16) : Candidates :=
  match postProc with
  | none => { chanList := chanList }
  | some postProc =>
    if ssid.length = 0 then { chanList := chanList }
    else postProc.bssInfoList.foldl (candidateEntry c jiffies postProc ssid)
      { chanList := chanList }

end Model

section Channels
variable {chanList : Buffer UInt16} {chan : UInt16}

def Candidates.channels (s : Candidates) : List UInt16 := s.chanList.contents s.chanNum

/-- The channels are in order, and nothing else was written. -/
structure Candidates.Good (s : Candidates) : Prop where
  sorted : s.channels.Pairwise (· < ·)
  top : s.chanList.top ≤ s.chanNum
  bug : s.bug = false

theorem Candidates.mem_channels (s : Candidates) :
    chan∈s.channels ↔ ∃ k, k<s.chanNum ∧ s.chanList.entry k = chan := by
  simp [channels, Buffer.contents]

/-- The search stops behind the lower channels: at the channel itself, before a higher one, or at
the end. -/
structure Found (chanList : Buffer UInt16) (chan : UInt16) (i n : Nat) (r : Nat × Bool) :
    Prop where
  start : i ≤ r.1
  stop : r.1 ≤ n
  below : ∀ k, i ≤ k → k<r.1 → chanList.entry k<chan
  same : r.2 = false → r.1<n ∧ chanList.entry r.1 = chan
  above : r.2 = true → r.1<n → chan<chanList.entry r.1

theorem searchSlot_found (left i : Nat) :
    Found chanList chan i (i+left) (searchSlot chanList chan left i) := by
  induction left generalizing i with
  | zero =>
    refine ⟨Nat.le_refl i, Nat.le_refl i, fun k h h' => ?_, fun h => ?_, fun _ h => ?_⟩
    · exact absurd h (Nat.not_le.mpr h')
    · exact Bool.noConfusion h
    · exact absurd h (Nat.lt_irrefl i)
  | succ left ih =>
    rw [searchSlot]
    split_ifs with heq hlt
    · refine ⟨Nat.le_refl i, by simp, fun k h h' => ?_, fun _ => ⟨by simp, heq.symm⟩, fun h => ?_⟩
      · exact absurd h (Nat.not_le.mpr h')
      · exact Bool.noConfusion h
    · refine ⟨Nat.le_refl i, by simp, fun k h h' => ?_, fun h => ?_, fun _ _ => hlt⟩
      · exact absurd h (Nat.not_le.mpr h')
      · exact Bool.noConfusion h
    · have hfound := ih (i+1)
      have hsum : i+1+left = i+(left+1) := by omega
      rw [hsum] at hfound
      have hi : chanList.entry i<chan :=
        UInt16.lt_of_le_of_ne (UInt16.not_lt.mp hlt) fun h => heq h.symm
      refine ⟨Nat.le_of_succ_le hfound.start, hfound.stop, fun k h h' => ?_, hfound.same,
        hfound.above⟩
      obtain rfl | hk := Nat.eq_or_lt_of_le h
      · exact hi
      · exact hfound.below k hk h'

theorem candidateChan_add {s : Candidates} {i : Nat}
    (h : searchSlot s.chanList chan s.chanNum 0 = (i, true)) : candidateChan chan s =
      { chanList := (moveUp s.chanList s.chanNum (s.chanNum-i)).put i chan
        chanNum := s.chanNum+1
        bug := s.bug || decide (i ≥ s.chanNum+1) } := by
  rw [candidateChan, h]
  dsimp only
  rw [if_pos rfl]
  by_cases hi : i = s.chanNum
  · rw [hi, if_pos rfl, Nat.sub_self]
    rfl
  · rw [if_neg hi]

variable (chan) in
theorem candidateChan_good {s : Candidates} (h : s.Good) :
    (candidateChan chan s).Good ∧
      ∀ f, f∈(candidateChan chan s).channels ↔ f = chan ∨ f∈s.channels := by
  have hfound : Found s.chanList chan 0 s.chanNum (searchSlot s.chanList chan s.chanNum 0) := by
    have hfound : Found s.chanList chan 0 (0+s.chanNum) (searchSlot s.chanList chan s.chanNum 0) :=
      searchSlot_found s.chanNum 0
    rwa [Nat.zero_add] at hfound
  generalize hr : searchSlot s.chanList chan s.chanNum 0 = r at hfound
  obtain ⟨i, add⟩ := r
  obtain ⟨-, hstop, hbelow, hsame, habove⟩ := hfound
  dsimp only at hstop hbelow hsame habove
  cases add with
  | false =>
    have hstays : candidateChan chan s = s := by rw [candidateChan, hr]; rfl
    obtain ⟨hlt, hentry⟩ := hsame rfl
    rw [hstays]
    refine ⟨h, fun f => ⟨.inr, ?_⟩⟩
    rintro (rfl | hf)
    · exact s.mem_channels.mpr ⟨i, hlt, hentry⟩
    · exact hf
  | true =>
    have hchannels : (candidateChan chan s).channels =
        s.channels.take i ++ chan::s.channels.drop i := by
      rw [candidateChan_add hr]
      exact contents_insert hstop chan
    refine ⟨⟨?_, ?_, ?_⟩, fun f => ?_⟩
    · rw [Candidates.channels, candidateChan_add hr]
      exact pairwise_contents_insert UInt16.lt_trans hstop h.sorted
        (fun k hk => hbelow k (Nat.zero_le k) hk) (habove rfl)
    · rw [candidateChan_add hr, Buffer.put_top]
      have htop := moveUp_top (m := s.chanNum-i) h.top
      dsimp only
      omega
    · rw [candidateChan_add hr]
      simp only [h.bug, Bool.false_or, decide_eq_false_iff_not]
      omega
    · rw [hchannels, List.mem_append, List.mem_cons]
      conv_rhs => rw [← List.take_append_drop i s.channels, List.mem_append]
      exact or_left_comm

end Channels

section Network
variable {c : Clock} {jiffies : Nat} {postProc : PostProc} {ssid : List UInt8}

/-- The frame is long enough for the element of this SSID. A network has a name of a byte at
least. -/
structure Whole (ssid : List UInt8) (bssInfo : BssInfoEntry) : Prop where
  named : ssid ≠ []
  len : beaconVariable+2+ssid.length ≤ bssInfo.len

instance (ssid : List UInt8) (bssInfo : BssInfoEntry) : Decidable (Whole ssid bssInfo) :=
  decidable_of_iff (ssid ≠ [] ∧ beaconVariable+2+ssid.length ≤ bssInfo.len)
    ⟨fun h => ⟨h.1, h.2⟩, fun h => ⟨h.1, h.2⟩⟩

/-- An entry that the driver still keeps and takes for the network. -/
structure Taken (c : Clock) (jiffies : Nat) (postProc : PostProc) (ssid : List UInt8)
    (bssInfo : BssInfoEntry) : Prop where
  mem : bssInfo∈postProc.bssInfoList
  fresh : aged c jiffies postProc bssInfo = false
  same : ssidMatches ssid bssInfo.mgmt = true

/-- The channels of the network, by the frames that are long enough. -/
def OnChannel (c : Clock) (jiffies : Nat) (postProc : PostProc) (ssid : List UInt8)
    (f : UInt16) : Prop :=
  ∃ e, Taken c jiffies postProc ssid e ∧ Whole ssid e ∧ e.centerFreq = f

/-- The list is strictly increasing, has the channels of the network, and nothing is written
behind it. -/
structure CandidatesRight (c : Clock) (jiffies : Nat) (postProc : Option PostProc)
    (ssid : List UInt8) (chanList : Buffer UInt16) : Prop where
  good : (candidateBss c jiffies postProc ssid chanList).Good
  exact : ∀ f, f∈(candidateBss c jiffies postProc ssid chanList).channels ↔
    ∃ p, postProc = some p ∧ OnChannel c jiffies p ssid f

/-- A frame that passes the check of its length. -/
def Checked (bssInfo : BssInfoEntry) : Prop := 24+4+2+2+2+1 ≤ bssInfo.len

/-- A frame that ends before the element of the SSID does is taken for one of the network only
where a whole one is too. -/
def CutHarmless (c : Clock) (jiffies : Nat) (postProc : PostProc) (ssid : List UInt8) : Prop :=
  ssid ≠ [] → ∀ e, Taken c jiffies postProc ssid e → Checked e → ¬Whole ssid e →
    OnChannel c jiffies postProc ssid e.centerFreq

/-- What the driver takes for an entry of the network. -/
def Listed (c : Clock) (jiffies : Nat) (postProc : PostProc) (ssid : List UInt8)
    (e : BssInfoEntry) : Prop :=
  aged c jiffies postProc e = false ∧ Checked e ∧ ssidMatches ssid e.mgmt = true

variable (c jiffies postProc ssid) in
theorem candidateEntry_good {s : Candidates} (h : s.Good) (e : BssInfoEntry) :
    (candidateEntry c jiffies postProc ssid s e).Good ∧
      ∀ f, f∈(candidateEntry c jiffies postProc ssid s e).channels ↔
        f∈s.channels ∨ Listed c jiffies postProc ssid e ∧ e.centerFreq = f := by
  rw [candidateEntry]
  split_ifs with haged hshort hsame
  · exact ⟨h, fun f => by simp [Listed, haged]⟩
  · have hcheck : ¬Checked e := Nat.not_le.mpr hshort
    exact ⟨h, fun f => by simp [Listed, hcheck]⟩
  · have hlisted : Listed c jiffies postProc ssid e :=
      ⟨by simpa using haged, Nat.not_lt.mp hshort, hsame⟩
    obtain ⟨hgood, hmem⟩ := candidateChan_good e.centerFreq h
    refine ⟨hgood, fun f => ?_⟩
    rw [hmem]
    constructor
    · rintro (rfl | hf)
      · exact .inr ⟨hlisted, rfl⟩
      · exact .inl hf
    · rintro (hf | ⟨-, rfl⟩)
      · exact .inr hf
      · exact .inl rfl
  · exact ⟨h, fun f => by simp [Listed, hsame]⟩

variable (c jiffies postProc ssid) in
theorem foldl_candidateEntry (entries : List BssInfoEntry) {s : Candidates} (h : s.Good) :
    (entries.foldl (candidateEntry c jiffies postProc ssid) s).Good ∧
      ∀ f, f∈(entries.foldl (candidateEntry c jiffies postProc ssid) s).channels ↔
        f∈s.channels ∨ ∃ e∈entries, Listed c jiffies postProc ssid e ∧ e.centerFreq = f := by
  induction entries generalizing s with
  | nil => exact ⟨h, by simp⟩
  | cons e entries ih =>
    obtain ⟨hgood, hmem⟩ := candidateEntry_good c jiffies postProc ssid h e
    obtain ⟨hgood', hmem'⟩ := ih hgood
    refine ⟨hgood', fun f => ?_⟩
    rw [List.foldl_cons, hmem', hmem, List.exists_mem_cons_iff, or_assoc]

variable (c jiffies) in
theorem candidateBss_good (postProc : Option PostProc) (ssid : List UInt8)
    {chanList : Buffer UInt16} (htop : chanList.top = 0) :
    (candidateBss c jiffies postProc ssid chanList).Good ∧
      ∀ f, f∈(candidateBss c jiffies postProc ssid chanList).channels ↔
        ∃ p, postProc = some p ∧ ssid ≠ [] ∧
          ∃ e∈p.bssInfoList, Listed c jiffies p ssid e ∧ e.centerFreq = f := by
  have hstart : Candidates.Good { chanList := chanList } :=
    ⟨List.Pairwise.nil, Nat.le_of_eq htop, rfl⟩
  have hnone (f : UInt16) : ¬f∈Candidates.channels { chanList := chanList } := List.not_mem_nil
  cases postProc with
  | none => exact ⟨hstart, fun f => by simp [candidateBss, hnone]⟩
  | some p =>
    rw [candidateBss]
    split_ifs with hzero
    · exact ⟨hstart, fun f => by simp [List.length_eq_zero_iff.mp hzero, hnone]⟩
    · have hne : ssid ≠ [] := fun heq => hzero (by rw [heq]; rfl)
      obtain ⟨hgood, hmem⟩ := foldl_candidateEntry c jiffies p ssid p.bssInfoList hstart
      refine ⟨hgood, fun f => ?_⟩
      rw [hmem]
      simp [hnone, hne]

theorem Whole.checked {e : BssInfoEntry} (h : Whole ssid e) : Checked e := by
  have hlen := h.len
  simp only [beaconVariable] at hlen
  unfold Checked
  omega

/-- The list is right exactly if no cut frame adds a channel. -/
theorem candidates_right_iff (c : Clock) (jiffies : Nat) (postProc : Option PostProc)
    (ssid : List UInt8) (f₀ : Nat → UInt16) :
    CandidatesRight c jiffies postProc ssid { entry := f₀, top := 0 } ↔
      ∀ p, postProc = some p → CutHarmless c jiffies p ssid := by
  have htop : Buffer.top { entry := f₀, top := 0 } = 0 := rfl
  obtain ⟨hgood, hmem⟩ := candidateBss_good c jiffies postProc ssid htop
  constructor
  · intro h p hp hne e htaken hcheck hcut
    have hlisted := (hmem e.centerFreq).mpr
      ⟨p, hp, hne, e, htaken.mem, ⟨htaken.fresh, hcheck, htaken.same⟩, rfl⟩
    obtain ⟨p', hp', hon⟩ := (h.exact e.centerFreq).mp hlisted
    obtain rfl := Option.some.inj (hp.symm.trans hp')
    exact hon
  · intro h
    refine ⟨hgood, fun f => ?_⟩
    rw [hmem]
    constructor
    · rintro ⟨p, hp, hne, e, he, ⟨hfresh, hcheck, hsame⟩, rfl⟩
      refine ⟨p, hp, ?_⟩
      by_cases hwhole : Whole ssid e
      · exact ⟨e, ⟨he, hfresh, hsame⟩, hwhole, rfl⟩
      · exact h p hp hne e ⟨he, hfresh, hsame⟩ hcheck hwhole
    · rintro ⟨p, hp, e, htaken, hwhole, rfl⟩
      exact ⟨p, hp, hwhole.named, e, htaken.mem,
        ⟨htaken.fresh, hwhole.checked, htaken.same⟩, rfl⟩

/-- A frame of fixed fields only, with the element of another frame in the memory behind it. -/
def cutFrame : BssInfoEntry where
  centerFreq := 2412
  mgmt := store (fun _ => 0) beaconVariable [0, 1, 97]
  len := 36
  shootTime := 0

theorem cut_not_right : ¬CandidatesRight default 0 (some ⟨[cutFrame], 0⟩) [97]
    { entry := fun _ => 0, top := 0 } := by
  intro h
  have hlisted : 2412∈(candidateBss default 0 (some ⟨[cutFrame], 0⟩) [97]
      { entry := fun _ => 0, top := 0 }).channels := by decide
  obtain ⟨p, hp, e, htaken, hwhole, -⟩ := (h.exact 2412).mp hlisted
  obtain rfl := Option.some.inj hp
  obtain rfl := List.mem_singleton.mp htaken.mem
  exact absurd hwhole.len (by decide)

end Network

end Ath6kl.BssPostProc
