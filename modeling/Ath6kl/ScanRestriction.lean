import Ath6kl.ScanChannels
import Mathlib.Data.List.Dedup

/-! What the target is told to scan: `ath6kl_wmi_startscan_cmd` (wmi.c) with the list of
`_ath6kl_cfg80211_scan`. For the target no channels are all channels. -/
namespace Ath6kl.ScanRestriction
open Lib.Compact Lib.Machine Ath6kl.ScanChannels

section Command

/-- `enum wmi_scan_type`. -/
inductive ScanType
  | longScan
  | shortScan
deriving DecidableEq

/-- `struct wmi_start_scan_cmd`. -/
structure StartScanCmd where
  forceFgScan : Bool
  isLegacy : Bool
  homeDwellTime : Nat
  forceScanIntvl : Nat
  scanType : ScanType
  numCh : Nat
  chList : List Nat

/-- `sizeof(struct wmi_start_scan_cmd)`, which has room for one channel. -/
def startScanCmdSize : Nat := 20

/-- `ath6kl_wmi_get_new_buf`. A negative size comes as a `u32` of nearly 2^32, for which `skb_put`
and `memset` leave the buffer: there is none then. -/
def wmiGetNewBuf (skb : Bool) (size : Int) : Option Nat :=
  if skb = true ∧ 0 ≤ size then some size.toNat else none

/-- The size of the command, which is computed in an `s8`. -/
def startScanSize (numChan : Int) : Int :=
  s8 (startScanCmdSize+(if numChan ≠ 0 then 2*(numChan-1) else 0))

/-- `ath6kl_wmi_startscan_cmd`; none: no command is sent. -/
def wmiStartscanCmd (skb : Bool) (scanType : ScanType) (forceFgscan isLegacy : Bool)
    (homeDwellTime forceScanInterval : Nat) (numChan : Int) (chList : Buffer Nat) :
    Option StartScanCmd :=
  if maxChannels<numChan then none
  else
    (wmiGetNewBuf skb (startScanSize numChan)).map fun _ =>
      { forceFgScan := forceFgscan, isLegacy := isLegacy, homeDwellTime := homeDwellTime,
        forceScanIntvl := forceScanInterval, scanType := scanType,
        numCh := (numChan%256).toNat, chList := chList.contents numChan.toNat }

/-- `ATH6KL_FG_SCAN_INTERVAL`. -/
def fgScanInterval : Nat := 100

/-- The command of `_ath6kl_cfg80211_scan`. -/
def scanCmd (cfg : VifConfig) (band : Scanband) (wiphy : Wiphy) (env : ScanEnv) (wise : Nat)
    (request : List Nat) : Option StartScanCmd :=
  let l := scanList cfg band wiphy env wise request
  l.num.bind fun nChannels =>
    wmiStartscanCmd env.skb .longScan env.connected false 0 fgScanInterval nChannels l.channels

end Command

section Restriction

/-- The channels that a type permits: one only, those of a band, those for P2P, those without radar
detection, or those that are not ignored. -/
def permits (band : Scanband) (wiphy : Wiphy) (freq : Nat) : Bool :=
  match band.type with
  | .all => true
  | .band2g => decide (freq ≤ 2484)
  | .band5g => decide (2484<freq)
  | .chanOnly => decide (freq = band.chan)
  | .p2pchan | .twoP2pchan => regIsP2pChannel wiphy freq == some true
  | .ignoreDfs => regIsDfsChannel wiphy freq == some false
  | .ignoreCh => !scanbandIgnoreCh freq band.ignoreChan

def permitted (band : Scanband) (wiphy : Wiphy) (request : List Nat) : List Nat :=
  request.filter (permits band wiphy)

/-- The target is told nothing that is not permitted, all that is requested and permitted in the
order of the request, and not to scan all channels because nothing is left. -/
structure Honours (band : Scanband) (wiphy : Wiphy) (request : List Nat) (cmd : StartScanCmd) :
    Prop where
  told : cmd.chList.length = cmd.numCh
  within : ∀ f∈cmd.chList, permits band wiphy f = true
  order : (permitted band wiphy request).dedup.Sublist cmd.chList
  notAll : permitted band wiphy request = [] → cmd.numCh ≠ 0

/-- Of a request for a list that can be allocated, the command comes out so. -/
def Restricted (cfg : VifConfig) (wise : Nat) : Event → Prop
  | .scan band wiphy env request =>
    request.length ≤ maxChannels → env.kzalloc = true → env.scheScanTrig = false →
      env.skb = true → ∃ cmd, scanCmd cfg band wiphy env wise request = some cmd ∧
        Honours band wiphy request cmd
  | .apRcUpdate _ _ => True

/-- The scan that is due is of all the P2P channels that are enabled, or ends in a fault. -/
def Full (cfg : VifConfig) (wise : Nat) (band : Scanband) (wiphy : Wiphy) (request : List Nat) :
    Prop :=
  band.type.p2p = true ∧ FullScanDue cfg wise request.length ∧
    (wiphy.band5 = none ∨ fullP2pList wiphy ≠ [])

/-- The size of the command fits when the list has at most 54 channels. -/
def SizeFits (type : ScanbandType) (n : Nat) : Prop :=
  if type = .twoP2pchan then n ≤ 27 ∨ 32<n ∧ n ≤ 54 else n ≤ 54

/-- When a scan is restricted as its type says. -/
structure Restrictable (cfg : VifConfig) (wise : Nat) (band : Scanband) (wiphy : Wiphy)
    (request : List Nat) : Prop where
  requested : request ≠ []
  full : Full cfg wise band wiphy request → wiphy.band5 ≠ none ∧
    (∀ f∈fullP2pList wiphy, permits band wiphy f = true) ∧
    (permitted band wiphy request).dedup.Sublist (fullP2pList wiphy)
  single : band.type = .chanOnly → band.chan<65536
  filtered : ¬Full cfg wise band wiphy request → band.type ≠ .chanOnly →
    Decided band wiphy request ∧ permitted band wiphy request ≠ [] ∧
    SizeFits band.type (permitted band wiphy request).length

def RestrictedWhen (cfg : VifConfig) (wise : Nat) : Event → Prop
  | .scan band wiphy env request =>
    request.length ≤ maxChannels → env.kzalloc = true → env.scheScanTrig = false →
      env.skb = true → Restrictable cfg wise band wiphy request
  | .apRcUpdate _ _ => True

end Restriction

section Told

theorem startScanSize_nonneg_iff {n : Nat} (h : n ≤ 64) : 0 ≤ startScanSize n ↔ n ≤ 54 := by
  by_cases hn : n = 0
  · subst hn
    decide
  · have hint : (n : Int) ≠ 0 := by omega
    simp only [startScanSize, if_pos hint, startScanCmdSize, s8, Int.bmod]
    split_ifs <;> omega

/-- The command for a list: nothing comes out of one that is too long for its size. -/
theorem wmiStartscanCmd_eq {channels : Buffer Nat} {xs : List Nat} (h : channels.Holds xs)
    (hlen : xs.length ≤ maxChannels) (scanType : ScanType) (forceFgscan isLegacy : Bool)
    (homeDwellTime forceScanInterval : Nat) :
    wmiStartscanCmd true scanType forceFgscan isLegacy homeDwellTime forceScanInterval xs.length
        channels =
      if xs.length ≤ 54 then
        some { forceFgScan := forceFgscan, isLegacy := isLegacy, homeDwellTime := homeDwellTime,
               forceScanIntvl := forceScanInterval, scanType := scanType, numCh := xs.length,
               chList := xs }
      else none := by
  have hlen' : xs.length ≤ 64 := hlen
  have hnot : ¬(maxChannels : Int)<xs.length := by
    simp only [maxChannels]
    omega
  have hmod : ((xs.length : Int)%256).toNat = xs.length := by omega
  have hsize := startScanSize_nonneg_iff hlen'
  by_cases h54 : xs.length ≤ 54
  · simp [wmiStartscanCmd, hnot, wmiGetNewBuf, hsize, h54, hmod, h.contents]
  · simp [wmiStartscanCmd, hnot, wmiGetNewBuf, hsize, h54]

/-- A list that was built without a fault. -/
structure Yields (b : Built) (xs : List Nat) : Prop where
  channels : b.channels.Holds xs
  num : b.num = some (xs.length : Int)

theorem yields_returned {r : Buffer Nat × Option Nat} {xs : List Nat} (count : Nat)
    (h : r.1.Holds xs ∧ r.2 = some xs.length) (hlen : xs.length<128) :
    Yields (returned count r) xs :=
  ⟨h.1, by simp [returned, h.2, s8_of_lt hlen]⟩

section Scan
variable {cfg : VifConfig} {band : Scanband} {wiphy : Wiphy} {wise : Nat} {request : List Nat}

/-- What `ath6kl_scanband` makes of a request, whether or not a full list is due. -/
theorem scanband_of_not_full (hwise : wise ≤ wiseFullScanCnt)
    (h : ¬Full cfg wise band wiphy request) :
    ∃ (count : Nat) (channels : Buffer Nat), channels.top = 0 ∧
      scanband cfg band wiphy wise (Buffer.blank 0) request =
        returned count (filtered band wiphy request channels) := by
  by_cases hdue : band.type.p2p = true ∧ FullScanDue cfg wise request.length
  · obtain ⟨list, hlist, hscan⟩ :=
      scanbandP2p_of_due hdue.2 wiphy (Buffer.blank_top 0) (filtered band wiphy request)
    have hempty : ¬wiphy.band5 = none ∧ fullP2pList wiphy = [] := by
      simpa [Full, hdue.1, hdue.2] using h
    refine ⟨0, list, by simp [hlist.top, hempty.2], ?_⟩
    rw [scanband_of_p2p hdue.1, hscan, if_neg hempty.1, if_pos hempty.2]
  · obtain ⟨count, -, hscan⟩ := scanband_of_not_due hwise hdue wiphy (Buffer.blank 0)
    exact ⟨count, Buffer.blank 0, Buffer.blank_top 0, hscan⟩

theorem yields_restricted (hwise : wise ≤ wiseFullScanCnt) (hpos : 0<request.length)
    (hlen : request.length ≤ maxChannels) (h : ¬Full cfg wise band wiphy request)
    (hall : Decided band wiphy request) :
    Yields (scanband cfg band wiphy wise (Buffer.blank 0) request)
      (restricted band wiphy request) := by
  obtain ⟨count, channels, htop, hscan⟩ := scanband_of_not_full hwise h
  have hle := (restricted_length_le band wiphy hpos hlen).2
  have hmax : maxChannels = 64 := rfl
  rw [hscan]
  exact yields_returned count (filtered_spec hlen htop hall) (by omega)

theorem faults_undecided (hwise : wise ≤ wiseFullScanCnt)
    (h : ¬Full cfg wise band wiphy request) (hall : ¬Decided band wiphy request) :
    (scanband cfg band wiphy wise (Buffer.blank 0) request).num = none := by
  obtain ⟨count, channels, htop, hscan⟩ := scanband_of_not_full hwise h
  rw [hscan]
  simp [returned, (filtered_fault htop hall).1]

theorem scanband_of_full (h : Full cfg wise band wiphy request) :
    if wiphy.band5 = none then
      (scanband cfg band wiphy wise (Buffer.blank 0) request).num = none
    else Yields (scanband cfg band wiphy wise (Buffer.blank 0) request) (fullP2pList wiphy) := by
  obtain ⟨hp2p, hdue, hlisted⟩ := h
  obtain ⟨list, hlist, hscan⟩ :=
    scanbandP2p_of_due hdue wiphy (Buffer.blank_top 0) (filtered band wiphy request)
  have hfull : (fullP2pList wiphy).length ≤ 43 := listed_length_le (enabledP2p wiphy) wiphy
  rw [scanband_of_p2p hp2p, hscan]
  by_cases hnone : wiphy.band5 = none
  · simp [hnone, returned]
  · have hsome : fullP2pList wiphy ≠ [] := hlisted.resolve_left hnone
    rw [if_neg hnone, if_neg hnone, if_neg hsome]
    exact yields_returned 0 ⟨hlist, rfl⟩ (by omega)

end Scan

theorem told_iff {cfg : VifConfig} {band : Scanband} {wiphy : Wiphy} {env : ScanEnv} {wise : Nat}
    {request xs : List Nat} (hskb : env.skb = true)
    (h : Yields (scanList cfg band wiphy env wise request).toBuilt xs)
    (hlen : xs.length ≤ maxChannels) :
    (∃ cmd, scanCmd cfg band wiphy env wise request = some cmd ∧
        Honours band wiphy request cmd) ↔
      xs.length ≤ 54 ∧ (∀ f∈xs, permits band wiphy f = true) ∧
        (permitted band wiphy request).dedup.Sublist xs ∧
        (permitted band wiphy request = [] → xs ≠ []) := by
  have hcmd := wmiStartscanCmd_eq h.channels hlen .longScan env.connected false 0 fgScanInterval
  simp only [scanCmd, h.num, Option.bind_some, hskb, hcmd]
  by_cases h54 : xs.length ≤ 54
  · rw [if_pos h54]
    constructor
    · rintro ⟨cmd, hcmd, hon⟩
      cases hcmd
      exact ⟨h54, hon.within, hon.order, fun hnil => by simpa using hon.notAll hnil⟩
    · rintro ⟨-, hwithin, horder, hall⟩
      exact ⟨_, rfl, rfl, hwithin, horder, fun hnil => by simpa using hall hnil⟩
  · simp [h54]

theorem kept_eq_permitted {band : Scanband} (h : band.type ≠ .chanOnly) (wiphy : Wiphy)
    (request : List Nat) : kept (skips band wiphy) request = permitted band wiphy request := by
  refine List.filter_congr fun f _ => ?_
  cases ht : band.type with
  | chanOnly => exact absurd ht h
  | p2pchan | twoP2pchan =>
    cases hreg : regIsP2pChannel wiphy f with
    | none => simp [skips, permits, ht, hreg]
    | some b => cases b <;> simp [skips, permits, ht, hreg]
  | band2g =>
    by_cases hf : f ≤ 2484
    · simp [skips, permits, ht, hf]
    · simp [skips, permits, ht, hf]
      omega
  | band5g =>
    by_cases hf : f ≤ 2484
    · simp [skips, permits, ht, hf]
    · simp [skips, permits, ht, hf]
      omega
  | ignoreCh => cases hi : scanbandIgnoreCh f band.ignoreChan <;> simp [skips, permits, ht, hi]
  | _ => simp [skips, permits, ht]

theorem permits_of_mem {band : Scanband} {wiphy : Wiphy} {request : List Nat} {f : Nat}
    (h : f∈permitted band wiphy request) : permits band wiphy f = true := (List.mem_filter.mp h).2

theorem listing_told_iff {band : Scanband} {wiphy : Wiphy} {request xs : List Nat}
    (hmem : ∀ f∈xs, f∈permitted band wiphy request)
    (hsub : (permitted band wiphy request).Sublist xs) :
    (xs.length ≤ 54 ∧ (∀ f∈xs, permits band wiphy f = true) ∧
        (permitted band wiphy request).dedup.Sublist xs ∧
        (permitted band wiphy request = [] → xs ≠ [])) ↔
      permitted band wiphy request ≠ [] ∧ xs.length ≤ 54 := by
  constructor
  · rintro ⟨hlen, -, -, hall⟩
    refine ⟨fun hnil => hall hnil ?_, hlen⟩
    rw [List.eq_nil_iff_forall_not_mem]
    intro f hf
    have hf' := hmem f hf
    simp [hnil] at hf'
  · rintro ⟨hne, hlen⟩
    exact ⟨hlen, fun f hf => permits_of_mem (hmem f hf), (List.dedup_sublist _).trans hsub,
      fun hnil => absurd hnil hne⟩

theorem doubled_sublist (xs : List Nat) : xs.Sublist (doubled xs) := by
  by_cases hshort : xs.length ≤ maxChannels/2 <;> simp [doubled, hshort]

theorem mem_doubled {xs : List Nat} {f : Nat} : f∈doubled xs ↔ f∈xs := by
  by_cases hshort : xs.length ≤ maxChannels/2 <;> simp [doubled, hshort]

theorem doubled_length_iff (xs : List Nat) :
    (doubled xs).length ≤ 54 ↔ xs.length ≤ 27 ∨ 32<xs.length ∧ xs.length ≤ 54 := by
  have hhalf : maxChannels/2 = 32 := rfl
  by_cases hshort : xs.length ≤ maxChannels/2
  · rw [doubled, if_pos hshort, List.length_append]
    omega
  · rw [doubled, if_neg hshort]
    omega

theorem restricted_told_iff {band : Scanband} (h : band.type ≠ .chanOnly) (wiphy : Wiphy)
    (request : List Nat) :
    ((restricted band wiphy request).length ≤ 54 ∧
        (∀ f∈restricted band wiphy request, permits band wiphy f = true) ∧
        (permitted band wiphy request).dedup.Sublist (restricted band wiphy request) ∧
        (permitted band wiphy request = [] → restricted band wiphy request ≠ [])) ↔
      permitted band wiphy request ≠ [] ∧
        SizeFits band.type (permitted band wiphy request).length := by
  have hkept := kept_eq_permitted h wiphy request
  by_cases htwo : band.type = .twoP2pchan
  · have hrestricted : restricted band wiphy request = doubled (permitted band wiphy request) := by
      simp only [restricted, htwo, hkept]
    rw [hrestricted, listing_told_iff (fun f hf => mem_doubled.mp hf) (doubled_sublist _),
      doubled_length_iff, SizeFits, if_pos htwo]
  · have hrestricted : restricted band wiphy request = permitted band wiphy request := by
      cases ht : band.type <;> simp_all [restricted]
    rw [hrestricted, listing_told_iff (fun f hf => hf) (List.Sublist.refl _), SizeFits,
      if_neg htwo]

theorem single_told_iff {band : Scanband} (h : band.type = .chanOnly) (wiphy : Wiphy)
    (request : List Nat) :
    ((restricted band wiphy request).length ≤ 54 ∧
        (∀ f∈restricted band wiphy request, permits band wiphy f = true) ∧
        (permitted band wiphy request).dedup.Sublist (restricted band wiphy request) ∧
        (permitted band wiphy request = [] → restricted band wiphy request ≠ [])) ↔
      band.chan<65536 := by
  have hrestricted : restricted band wiphy request = [band.chan%65536] := by
    simp only [restricted, h]
  have hpermits : ∀ f, permits band wiphy f = decide (f = band.chan) := by
    intro f
    simp only [permits, h]
  rw [hrestricted]
  constructor
  · rintro ⟨-, hwithin, -⟩
    have hchan : band.chan%65536 = band.chan := by simpa [hpermits] using hwithin
    omega
  · intro hlt
    have hmod : band.chan%65536 = band.chan := Nat.mod_eq_of_lt hlt
    refine ⟨by simp, by simp [hpermits, hmod], ?_, by simp⟩
    have hall : permitted band wiphy request =
        List.replicate (request.count band.chan) band.chan := by
      have hfun : permits band wiphy = fun f => decide (f = band.chan) := funext hpermits
      rw [permitted, hfun]
      exact List.filter_eq band.chan
    rw [hall, hmod]
    by_cases hzero : request.count band.chan = 0
    · simp [hzero]
    · simp [List.replicate_dedup hzero]

section Scan
variable {cfg : VifConfig} {band : Scanband} {wiphy : Wiphy} {env : ScanEnv} {wise : Nat}
  {request : List Nat}

theorem scanList_toBuilt (hpos : 0<request.length) (hlen : request.length ≤ maxChannels)
    (hk : env.kzalloc = true) (htrig : env.scheScanTrig = false) :
    (scanList cfg band wiphy env wise request).toBuilt =
      scanband cfg band wiphy wise (Buffer.blank 0) request := by
  simp [scanList, hpos, hlen, hk, htrig]

theorem not_told_of_fault (h : (scanList cfg band wiphy env wise request).num = none) :
    ¬∃ cmd, scanCmd cfg band wiphy env wise request = some cmd ∧
      Honours band wiphy request cmd := by
  simp [scanCmd, h]

theorem not_told_of_empty (h : request = []) (hskb : env.skb = true) :
    ¬∃ cmd, scanCmd cfg band wiphy env wise request = some cmd ∧
      Honours band wiphy request cmd := by
  have hlist : scanList cfg band wiphy env wise request = noList wise := by simp [scanList, h]
  have hyields : Yields (scanList cfg band wiphy env wise request).toBuilt [] := by
    rw [hlist]
    exact ⟨Buffer.holds_nil rfl, rfl⟩
  rw [told_iff hskb hyields (Nat.zero_le _)]
  simp [h, permitted]

theorem full_told_iff (h : Full cfg wise band wiphy request) (hk : env.kzalloc = true)
    (htrig : env.scheScanTrig = false) (hskb : env.skb = true) :
    (∃ cmd, scanCmd cfg band wiphy env wise request = some cmd ∧
        Honours band wiphy request cmd) ↔
      wiphy.band5 ≠ none ∧ (∀ f∈fullP2pList wiphy, permits band wiphy f = true) ∧
        (permitted band wiphy request).dedup.Sublist (fullP2pList wiphy) := by
  have hthree : request.length = 3 := h.2.1.2.1
  have hbuilt : (scanList cfg band wiphy env wise request).toBuilt =
      scanband cfg band wiphy wise (Buffer.blank 0) request :=
    scanList_toBuilt (by omega) (by rw [hthree]; decide) hk htrig
  have hfull := scanband_of_full h
  rw [← hbuilt] at hfull
  have hlen : (fullP2pList wiphy).length ≤ 43 := listed_length_le (enabledP2p wiphy) wiphy
  by_cases hnone : wiphy.band5 = none
  · rw [if_pos hnone] at hfull
    exact iff_of_false (not_told_of_fault hfull) fun hand => hand.1 hnone
  · rw [if_neg hnone] at hfull
    have hne : fullP2pList wiphy ≠ [] := h.2.2.resolve_left hnone
    rw [told_iff hskb hfull (by simp only [maxChannels]; omega)]
    constructor
    · rintro ⟨-, hwithin, horder, -⟩
      exact ⟨hnone, hwithin, horder⟩
    · rintro ⟨-, hwithin, horder⟩
      exact ⟨by omega, hwithin, horder, fun _ => hne⟩

theorem scan_told_iff (hwise : wise ≤ wiseFullScanCnt) (hlen : request.length ≤ maxChannels)
    (hk : env.kzalloc = true) (htrig : env.scheScanTrig = false) (hskb : env.skb = true) :
    (∃ cmd, scanCmd cfg band wiphy env wise request = some cmd ∧
        Honours band wiphy request cmd) ↔
      Restrictable cfg wise band wiphy request := by
  by_cases hempty : request = []
  · exact iff_of_false (not_told_of_empty hempty hskb) fun h => h.requested hempty
  have hpos : 0<request.length := List.length_pos_of_ne_nil hempty
  have hbuilt : (scanList cfg band wiphy env wise request).toBuilt =
      scanband cfg band wiphy wise (Buffer.blank 0) request := scanList_toBuilt hpos hlen hk htrig
  by_cases hfull : Full cfg wise band wiphy request
  · have hnotSingle : band.type ≠ .chanOnly := by
      intro ht
      have hp2p := hfull.1
      simp [ht, ScanbandType.p2p] at hp2p
    rw [full_told_iff hfull hk htrig hskb]
    exact ⟨fun h => ⟨hempty, fun _ => h, fun ht => absurd ht hnotSingle, fun hn => absurd hfull hn⟩,
      fun h => h.full hfull⟩
  · by_cases hall : Decided band wiphy request
    · have hyields := yields_restricted hwise hpos hlen hfull hall
      rw [← hbuilt] at hyields
      rw [told_iff hskb hyields (restricted_length_le band wiphy hpos hlen).2]
      by_cases hsingle : band.type = .chanOnly
      · rw [single_told_iff hsingle]
        exact ⟨fun h => ⟨hempty, fun hf => absurd hf hfull, fun _ => h,
          fun _ hne => absurd hsingle hne⟩, fun h => h.single hsingle⟩
      · rw [restricted_told_iff hsingle]
        exact ⟨fun h => ⟨hempty, fun hf => absurd hf hfull, fun ht => absurd ht hsingle,
          fun _ _ => ⟨hall, h⟩⟩, fun h => (h.filtered hfull hsingle).2⟩
    · have hsingle : band.type ≠ .chanOnly := by
        intro ht
        exact hall fun f _ => by simp [skips, ht]
      have hfault := faults_undecided hwise hfull hall
      rw [← hbuilt] at hfault
      exact iff_of_false (not_told_of_fault hfault) fun h => hall (h.filtered hfull hsingle).1

end Scan

/-- Over every history of an interface, its scans are restricted as their types say exactly if each
leaves some requested channel, and few enough for the size of the command. -/
theorem scan_restriction_iff (cfg : VifConfig) (es : List Event) :
    AllSteps (step cfg) (Restricted cfg) 0 es ↔ AllSteps (step cfg) (RestrictedWhen cfg) 0 es := by
  have hall : AllSteps (step cfg) (fun _ _ => True) 0 es :=
    allSteps_of_mem (fun _ _ => trivial) 0
  have hiff : ∀ wise e, wise ≤ wiseFullScanCnt →
      (Restricted cfg wise e ↔ RestrictedWhen cfg wise e) := by
    intro wise e hwise
    cases e with
    | apRcUpdate wiphy kzalloc => simp [Restricted, RestrictedWhen]
    | scan band wiphy env request =>
      constructor
      · intro h hlen hk htrig hskb
        exact (scan_told_iff hwise hlen hk htrig hskb).mp (h hlen hk htrig hskb)
      · intro h hlen hk htrig hskb
        exact (scan_told_iff hwise hlen hk htrig hskb).mpr (h hlen hk htrig hskb)
  exact allSteps_congr_of (I := fun wise => wise ≤ wiseFullScanCnt)
    (fun _ e hwise _ => step_le hwise e) (fun wise e hwise _ => hiff wise e hwise)
    (Nat.zero_le _) hall

def station : VifConfig :=
  { p2pWiseScan := false, p2pDedicate := false, fwVifIdx := 0, vifMax := 1 }

/-- Channel 52 needs radar detection, and is the only one that is requested of a type that forbids
it: the target is told to scan all channels. -/
theorem filtered_scan_is_of_all :
    ¬AllSteps (step station) (Restricted station) 0
      [.scan { type := .ignoreDfs } { flags := fun _ => { radar := true } } {} [5260]] := by
  intro h
  obtain ⟨cmd, hcmd, hon⟩ := h.1 (by decide) rfl rfl rfl
  have hzero : (scanCmd station { type := .ignoreDfs } { flags := fun _ => { radar := true } } {} 0
      [5260]).map StartScanCmd.numCh = some 0 := by decide
  rw [hcmd] at hzero
  have hnum : cmd.numCh = 0 := by simpa using hzero
  exact hon.notAll (by decide) hnum

end Told

end Ath6kl.ScanRestriction
