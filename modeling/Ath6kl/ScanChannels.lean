import Ath6kl.Lib.Compact
import Ath6kl.Lib.Machine
import Mathlib.Tactic.SplitIfs

/-! The channel lists of scans: `ath6kl_scanband` and the list of `_ath6kl_cfg80211_scan`
(cfg80211.c), `ath6kl_p2p_build_scan_chan` (p2p.c), and `_ap_rc_build_scan_chan` and the list of
`ath6kl_ap_rc_update` (ap.c). A list is built in a buffer that the caller allocates. -/
namespace Ath6kl.ScanChannels
open Lib.Compact Lib.Machine

/-- `WMI_MAX_CHANNELS`. -/
def maxChannels : Nat := 64

/-- A value put into an `s8`. -/
def s8 (n : Int) : Int := n.bmod 256

section Wiphy

/-- The flags of `struct ieee80211_channel` that are read here. -/
structure ChanFlags where
  disabled : Bool := false
  passiveScan : Bool := false
  noIbss : Bool := false
  radar : Bool := false
deriving DecidableEq

/-- The `wiphy`: the flags of its channels, by center frequency, and whether it has the table of the
5 GHz band, which a target for one band does not get. -/
structure Wiphy where
  flags : Nat → ChanFlags
  fiveGhz : Bool := true

/-- `ath6kl_2ghz_channels`. -/
def channels2ghz : List Nat :=
  [2412, 2417, 2422, 2427, 2432, 2437, 2442, 2447, 2452, 2457, 2462, 2467, 2472, 2484]

/-- `ath6kl_5ghz_a_channels`, which are given by number. -/
def channels5ghz : List Nat :=
  [34, 36, 38, 40, 42, 44, 46, 48, 52, 56, 60, 64, 100, 104, 108, 112, 116, 120, 124, 128, 132, 136,
    140, 144, 149, 153, 157, 161, 165].map fun channel => 5000+5*channel

/-- `wiphy->bands[NL80211_BAND_5GHZ]`. -/
def Wiphy.band5 (wiphy : Wiphy) : Option (List Nat) :=
  if wiphy.fiveGhz then some channels5ghz else none

/-- A row of `ath6kl_p2p_oper_chan`, without its bandwidth. -/
structure OperChan where
  operClass : Nat
  minChanFreq : Nat
  maxChanFreq : Nat
  incFreq : Nat

def p2pOperChan : List OperChan :=
  [⟨81, 2412, 2472, 5⟩, ⟨115, 5180, 5240, 20⟩, ⟨116, 5180, 5220, 20⟩, ⟨117, 5200, 5240, 20⟩,
    ⟨124, 5745, 5805, 20⟩, ⟨125, 5745, 5825, 20⟩, ⟨126, 5745, 5785, 20⟩, ⟨127, 5765, 5805, 20⟩]

def OperChan.freqs (c : OperChan) : List Nat :=
  List.range' c.minChanFreq ((c.maxChanFreq-c.minChanFreq)/c.incFreq+1) c.incFreq

/-- `ath6kl_p2p_is_p2p_channel`. -/
def isP2pChannel (freq : Nat) : Bool := p2pOperChan.any fun c => c.freqs.contains freq

/-- `ath6kl_reg_is_p2p_channel`; none: there is no table to look into. -/
def regIsP2pChannel (wiphy : Wiphy) (freq : Nat) : Option Bool :=
  if isP2pChannel freq then
    let sband := if 4000<freq then wiphy.band5 else some channels2ghz
    sband.map fun sband =>
      if sband.contains freq then
        let flags := wiphy.flags freq
        !(flags.radar || flags.passiveScan || flags.noIbss)
      else false
  else some false

/-- `ath6kl_reg_is_dfs_channel`. -/
def regIsDfsChannel (wiphy : Wiphy) (freq : Nat) : Option Bool :=
  if freq<4000 then some false
  else wiphy.band5.map fun sband => sband.contains freq && (wiphy.flags freq).radar

end Wiphy

section Build

/-- The loops over both tables, which list what `listed` selects; none: there is no second table. -/
def buildScanChan (listed : Nat → Bool) (wiphy : Wiphy) (chanList : Buffer Nat) :
    Buffer Nat × Option Nat :=
  let s := collect listed (chanList, 0) channels2ghz
  match wiphy.band5 with
  | none => (s.1, none)
  | some sband =>
    let s := collect listed s sband
    (s.1, some s.2)

def enabled (wiphy : Wiphy) (freq : Nat) : Bool := !(wiphy.flags freq).disabled

def enabledP2p (wiphy : Wiphy) (freq : Nat) : Bool := enabled wiphy freq && isP2pChannel freq

/-- `_p2p_build_scan_chan`. -/
def fullP2pScanChan (wiphy : Wiphy) : Buffer Nat → Buffer Nat × Option Nat :=
  buildScanChan (enabledP2p wiphy) wiphy

def apRcBuildScanChan (wiphy : Wiphy) (chanList : Buffer Nat) : Buffer Nat × Option Int :=
  let r := buildScanChan (enabled wiphy) wiphy chanList
  (r.1, r.2.map fun n : Nat => s8 n)

/-- What an interface is: `ar->p2p_wise_scan`, `ar->p2p_dedicate`, `vif->fw_vif_idx` and
`ar->vif_max`. -/
structure VifConfig where
  p2pWiseScan : Bool
  p2pDedicate : Bool
  fwVifIdx : Nat
  vifMax : Nat

/-- The interface of the dedicated P2P device, whose scans are counted. -/
def VifConfig.counts (cfg : VifConfig) : Bool :=
  cfg.p2pWiseScan && cfg.p2pDedicate && cfg.fwVifIdx+1 == cfg.vifMax

/-- `_P2P_WISE_FULL_SCAN_CNT`. -/
def wiseFullScanCnt : Nat := 15

/-- A list under construction: `vif->p2p_wise_full_scan` after it, and the number that is returned,
if there is no fault. -/
structure Built where
  wiseFullScan : Nat
  channels : Buffer Nat
  num : Option Int

/-- `ath6kl_p2p_build_scan_chan`. -/
def p2pBuildScanChan (cfg : VifConfig) (wiphy : Wiphy) (wiseFullScan reqChanNum : Nat)
    (chanList : Buffer Nat) : Nat × Buffer Nat × Option Nat :=
  if cfg.counts then
    let count :=
      if 3<reqChanNum then 0 else if reqChanNum = 3 then wiseFullScan+1 else wiseFullScan
    if wiseFullScanCnt<count then (0, fullP2pScanChan wiphy chanList)
    else (count, chanList, some 0)
  else (wiseFullScan, chanList, some 0)

end Build

section Scanband

inductive ScanbandType
  | all
  | band2g
  | band5g
  | chanOnly
  | p2pchan
  | twoP2pchan
  | ignoreDfs
  | ignoreCh
deriving DecidableEq

/-- `vif->scanband_type`, `vif->scanband_chan` (a `u32`) and `vif->scanband_ignore_chan`. -/
structure Scanband where
  type : ScanbandType
  chan : Nat := 0
  ignoreChan : List Nat := []

/-- `_ath6kl_scanband_ignore_ch`. -/
def scanbandIgnoreCh (freq : Nat) : List Nat → Bool
  | [] => false
  | c::cs => if freq = c then true else if c = 0 then false else scanbandIgnoreCh freq cs

/-- Which entries of the request a loop skips; the types without a loop skip none. -/
def skips (band : Scanband) (wiphy : Wiphy) (freq : Nat) : Option Bool :=
  match band.type with
  | .band5g => some (decide (freq ≤ 2484))
  | .band2g => some (decide (2484<freq))
  | .p2pchan | .twoP2pchan => (regIsP2pChannel wiphy freq).map not
  | .ignoreDfs => regIsDfsChannel wiphy freq
  | .ignoreCh => some (scanbandIgnoreCh freq band.ignoreChan)
  | .all | .chanOnly => some false

/-- A filter loop and `num_chan -= skip_chan_num`, with their `u8`s. -/
def filterChan (skip : Nat → Option Bool) (request : List Nat) (channels : Buffer Nat) :
    Buffer Nat × Option Nat :=
  let s := compact 256 skip channels request
  (s.buf, if s.stopped then none else some ((request.length+256-s.skipped)%256))

/-- The list is put behind itself, unless it is long. -/
def twice (r : Buffer Nat × Option Nat) : Buffer Nat × Option Nat :=
  match r.2 with
  | none => r
  | some num =>
    if num ≤ maxChannels/2 then (r.1.store num (r.1.contents num), some ((num*2)%256)) else r

/-- `return num_chan;`, an `s8` from a `u8`. -/
def returned (wiseFullScan : Nat) (r : Buffer Nat × Option Nat) : Built :=
  { wiseFullScan := wiseFullScan, channels := r.1, num := r.2.map fun num : Nat => s8 num }

/-- The two P2P types: all P2P channels when that is due, and else what the filter leaves. -/
def scanbandP2p (cfg : VifConfig) (wiphy : Wiphy) (wiseFullScan : Nat) (channels : Buffer Nat)
    (request : List Nat) (filtered : Buffer Nat → Buffer Nat × Option Nat) : Built :=
  match p2pBuildScanChan cfg wiphy wiseFullScan request.length channels with
  | (wiseFullScan, channels, none) => returned wiseFullScan (channels, none)
  | (wiseFullScan, channels, some num) =>
    if num%256 ≠ 0 then returned wiseFullScan (channels, some (num%256))
    else returned wiseFullScan (filtered channels)

/-- `ath6kl_scanband`; `request`: the center frequencies of its channels. -/
def scanband (cfg : VifConfig) (band : Scanband) (wiphy : Wiphy) (wiseFullScan : Nat)
    (channels : Buffer Nat) (request : List Nat) : Built :=
  let skip := skips band wiphy
  match band.type with
  | .chanOnly => returned wiseFullScan (channels.put 0 (band.chan%65536), some 1)
  | .band5g | .band2g | .ignoreDfs | .ignoreCh =>
    returned wiseFullScan (filterChan skip request channels)
  | .p2pchan =>
    scanbandP2p cfg wiphy wiseFullScan channels request fun channels =>
      filterChan skip request channels
  | .twoP2pchan =>
    scanbandP2p cfg wiphy wiseFullScan channels request fun channels =>
      twice (filterChan skip request channels)
  | .all => returned wiseFullScan (channels.store 0 request, some request.length)

end Scanband

section Lists

/-- What a scan meets: whether its list can be allocated, whether a scheduled scan is triggered,
whether there is a buffer for the command, and the flag `CONNECTED`. -/
structure ScanEnv where
  kzalloc : Bool := true
  scheScanTrig : Bool := false
  skb : Bool := true
  connected : Bool := false

/-- A list, and how many entries were allocated for it. -/
structure Listed extends Built where
  room : Nat

/-- There is no list: the target scans all channels. -/
def noList (wiseFullScan : Nat) : Listed :=
  { wiseFullScan := wiseFullScan, channels := Buffer.blank 0, num := some 0, room := 0 }

/-- The list of `_ath6kl_cfg80211_scan`. -/
def scanList (cfg : VifConfig) (band : Scanband) (wiphy : Wiphy) (env : ScanEnv)
    (wiseFullScan : Nat) (request : List Nat) : Listed :=
  if 0<request.length ∧ request.length ≤ maxChannels ∧ ¬env.scheScanTrig then
    if env.kzalloc then
      { scanband cfg band wiphy wiseFullScan (Buffer.blank 0) request with
        room := request.length*2 }
    else noList wiseFullScan
  else noList wiseFullScan

/-- The list of `ath6kl_ap_rc_update`. -/
def apRcList (wiphy : Wiphy) (kzalloc : Bool) (wiseFullScan : Nat) : Listed :=
  if kzalloc then
    let r := apRcBuildScanChan wiphy (Buffer.blank 0)
    { wiseFullScan := wiseFullScan, channels := r.1, num := r.2, room := maxChannels }
  else noList wiseFullScan

/-- What an interface does with lists. The type, the flags of the channels and the request may be
others each time. -/
inductive Event
  | scan (band : Scanband) (wiphy : Wiphy) (env : ScanEnv) (request : List Nat)
  | apRcUpdate (wiphy : Wiphy) (kzalloc : Bool)

def list (cfg : VifConfig) (wiseFullScan : Nat) : Event → Listed
  | .scan band wiphy env request => scanList cfg band wiphy env wiseFullScan request
  | .apRcUpdate wiphy kzalloc => apRcList wiphy kzalloc wiseFullScan

def step (cfg : VifConfig) (wiseFullScan : Nat) (e : Event) : Nat :=
  (list cfg wiseFullScan e).wiseFullScan

/-- A list stays in its buffer, and the number that is returned is that of its entries. -/
structure Listed.Fits (l : Listed) : Prop where
  room : l.channels.top ≤ l.room
  num : ∀ n, l.num = some n → n = l.channels.top

end Lists

section Tables

def Wiphy.channels (wiphy : Wiphy) : List Nat := channels2ghz ++ wiphy.band5.getD []

/-- The list of all P2P channels that are enabled. -/
def fullP2pList (wiphy : Wiphy) : List Nat := wiphy.channels.filter (enabledP2p wiphy)

theorem channels_length_le (wiphy : Wiphy) : wiphy.channels.length ≤ 43 := by
  by_cases h : wiphy.fiveGhz = true <;>
    simp [Wiphy.channels, Wiphy.band5, h, channels2ghz, channels5ghz]

theorem listed_length_le (listed : Nat → Bool) (wiphy : Wiphy) :
    (wiphy.channels.filter listed).length ≤ 43 :=
  Nat.le_trans (List.length_filter_le listed _) (channels_length_le wiphy)

theorem buildScanChan_spec (listed : Nat → Bool) (wiphy : Wiphy) {chanList : Buffer Nat}
    (h : chanList.top = 0) :
    (buildScanChan listed wiphy chanList).1.Holds (wiphy.channels.filter listed) ∧
      (buildScanChan listed wiphy chanList).2 =
        wiphy.band5.map fun _ => (wiphy.channels.filter listed).length := by
  have hfirst := collect_spec listed (Buffer.holds_nil h) channels2ghz
  cases hb : wiphy.band5 with
  | none => simpa [buildScanChan, Wiphy.channels, hb] using hfirst.1
  | some sband =>
    have hsecond := collect_spec listed hfirst.1 sband
    rw [← hfirst.2] at hsecond
    simpa [buildScanChan, Wiphy.channels, hb] using hsecond

end Tables

section Filters

theorem s8_of_lt {n : Nat} (h : n<128) : s8 n = n := by
  refine Int.bmod_eq_of_le ?_ ?_ <;> omega

theorem filterChan_spec {skip : Nat → Option Bool} {request : List Nat} {channels : Buffer Nat}
    (hlen : request.length ≤ maxChannels) (hbuf : channels.top = 0)
    (hall : ∀ f∈request, skip f ≠ none) :
    (filterChan skip request channels).1.Holds (kept skip request) ∧
      (filterChan skip request channels).2 = some (kept skip request).length := by
  have hlen' : request.length ≤ 64 := hlen
  have hafter := compact_after 256 (by omega) hbuf hall
  have hskipped := hafter.skipped
  refine ⟨hafter.buf, ?_⟩
  simp only [filterChan, hafter.stopped, Bool.false_eq_true, if_false, Option.some.injEq]
  omega

theorem filterChan_none {skip : Nat → Option Bool} {request : List Nat} (channels : Buffer Nat)
    (h : ∃ f∈request, skip f = none) : (filterChan skip request channels).2 = none := by
  have hstop := (compact_stopped_iff 256 skip channels).mpr h
  simp [filterChan, hstop]

/-- What `twice` makes of a list. -/
def doubled (xs : List Nat) : List Nat := if xs.length ≤ maxChannels/2 then xs ++ xs else xs

theorem twice_spec {r : Buffer Nat × Option Nat} {xs : List Nat} (hlen : xs.length ≤ maxChannels)
    (h : r.1.Holds xs ∧ r.2 = some xs.length) :
    (twice r).1.Holds (doubled xs) ∧ (twice r).2 = some (doubled xs).length := by
  have hlen' : xs.length ≤ 64 := hlen
  by_cases hshort : xs.length ≤ maxChannels/2
  · have hstore := h.1.store xs
    have hmod : xs.length*2%256 = xs.length+xs.length := by omega
    simpa [twice, h.2, hshort, doubled, h.1.contents, hmod] using hstore
  · simpa [twice, h.2, hshort, doubled] using h

theorem twice_none {r : Buffer Nat × Option Nat} (h : r.2 = none) : twice r = r := by
  simp [twice, h]

end Filters

section Scanband

/-- What the type leaves of a request when it builds no full list. -/
def restricted (band : Scanband) (wiphy : Wiphy) (request : List Nat) : List Nat :=
  match band.type with
  | .chanOnly => [band.chan%65536]
  | .twoP2pchan => doubled (kept (skips band wiphy) request)
  | _ => kept (skips band wiphy) request

/-- The part of `ath6kl_scanband` that goes through the request. -/
def filtered (band : Scanband) (wiphy : Wiphy) (request : List Nat) (channels : Buffer Nat) :
    Buffer Nat × Option Nat :=
  match band.type with
  | .chanOnly => (channels.put 0 (band.chan%65536), some 1)
  | .all => (channels.store 0 request, some request.length)
  | .twoP2pchan => twice (filterChan (skips band wiphy) request channels)
  | _ => filterChan (skips band wiphy) request channels

def ScanbandType.p2p (type : ScanbandType) : Bool := type == .p2pchan || type == .twoP2pchan

theorem scanband_of_p2p {band : Scanband} (h : band.type.p2p = true) (cfg : VifConfig)
    (wiphy : Wiphy) (wise : Nat) (channels : Buffer Nat) (request : List Nat) :
    scanband cfg band wiphy wise channels request =
      scanbandP2p cfg wiphy wise channels request (filtered band wiphy request) := by
  cases ht : band.type with
  | p2pchan =>
    have hfiltered : filtered band wiphy request =
        fun channels => filterChan (skips band wiphy) request channels := by
      funext channels
      simp [filtered, ht]
    simp [scanband, ht, hfiltered]
  | twoP2pchan =>
    have hfiltered : filtered band wiphy request =
        fun channels => twice (filterChan (skips band wiphy) request channels) := by
      funext channels
      simp [filtered, ht]
    simp [scanband, ht, hfiltered]
  | _ => simp [ScanbandType.p2p, ht] at h

theorem scanband_of_not_p2p {band : Scanband} (h : ¬band.type.p2p = true) (cfg : VifConfig)
    (wiphy : Wiphy) (wise : Nat) (channels : Buffer Nat) (request : List Nat) :
    scanband cfg band wiphy wise channels request =
      returned wise (filtered band wiphy request channels) := by
  cases ht : band.type with
  | p2pchan | twoP2pchan => simp [ScanbandType.p2p, ht] at h
  | _ => simp [scanband, filtered, ht]

/-- Each requested channel can be looked up as the type asks. -/
def Decided (band : Scanband) (wiphy : Wiphy) (request : List Nat) : Prop :=
  ∀ f∈request, skips band wiphy f ≠ none

theorem kept_eq_self {skip : Nat → Option Bool} {request : List Nat}
    (h : ∀ f∈request, skip f = some false) : kept skip request = request := by
  simpa [kept, List.filter_eq_self] using h

theorem filtered_spec {band : Scanband} {wiphy : Wiphy} {request : List Nat}
    {channels : Buffer Nat} (hlen : request.length ≤ maxChannels) (hbuf : channels.top = 0)
    (hall : Decided band wiphy request) :
    (filtered band wiphy request channels).1.Holds (restricted band wiphy request) ∧
      (filtered band wiphy request channels).2 = some (restricted band wiphy request).length := by
  have hnil := Buffer.holds_nil hbuf
  have hfilter := filterChan_spec hlen hbuf hall
  cases ht : band.type with
  | chanOnly =>
    have hput := hnil.put (band.chan%65536)
    simpa [filtered, restricted, ht] using hput
  | all =>
    have hself : kept (skips band wiphy) request = request :=
      kept_eq_self fun f _ => by simp [skips, ht]
    have hstore := hnil.store request
    simpa [filtered, restricted, ht, hself] using hstore
  | twoP2pchan =>
    have hkept := Nat.le_trans (kept_length_le (skips band wiphy) request) hlen
    simpa [filtered, restricted, ht] using twice_spec hkept hfilter
  | _ => simpa [filtered, restricted, ht] using hfilter

theorem filtered_fault {band : Scanband} {wiphy : Wiphy} {request : List Nat}
    {channels : Buffer Nat} (hbuf : channels.top = 0) (h : ¬Decided band wiphy request) :
    (filtered band wiphy request channels).2 = none ∧
      (filtered band wiphy request channels).1.top ≤ request.length := by
  have hex : ∃ f∈request, skips band wiphy f = none := by simpa [Decided] using h
  have hnone := filterChan_none channels hex
  have htop : (filterChan (skips band wiphy) request channels).1.top ≤ request.length :=
    compact_top_le 256 (skips band wiphy) hbuf request
  cases ht : band.type with
  | chanOnly | all => simp [skips, ht] at hex
  | twoP2pchan => simpa [filtered, ht, twice_none hnone] using ⟨hnone, htop⟩
  | _ => simpa [filtered, ht] using ⟨hnone, htop⟩

/-- The sixteenth scan of three channels in a row is due to be a full one. -/
def FullScanDue (cfg : VifConfig) (wise reqChanNum : Nat) : Prop :=
  cfg.counts = true ∧ reqChanNum = 3 ∧ wise = wiseFullScanCnt

instance (cfg : VifConfig) (wise reqChanNum : Nat) : Decidable (FullScanDue cfg wise reqChanNum) :=
  inferInstanceAs (Decidable (_ ∧ _ ∧ _))

theorem p2pBuildScanChan_of_due {cfg : VifConfig} {wise reqChanNum : Nat}
    (h : FullScanDue cfg wise reqChanNum) (wiphy : Wiphy) (chanList : Buffer Nat) :
    p2pBuildScanChan cfg wiphy wise reqChanNum chanList = (0, fullP2pScanChan wiphy chanList) := by
  obtain ⟨hcounts, hnum, hwise⟩ := h
  simp [p2pBuildScanChan, hcounts, hnum, hwise]

theorem p2pBuildScanChan_of_not_due {cfg : VifConfig} {wise reqChanNum : Nat}
    (hwise : wise ≤ wiseFullScanCnt) (h : ¬FullScanDue cfg wise reqChanNum) (wiphy : Wiphy)
    (chanList : Buffer Nat) :
    ∃ count ≤ wiseFullScanCnt,
      p2pBuildScanChan cfg wiphy wise reqChanNum chanList = (count, chanList, some 0) := by
  by_cases hcounts : cfg.counts = true
  · have hcount : (if 3<reqChanNum then 0 else if reqChanNum = 3 then wise+1 else wise) ≤
        wiseFullScanCnt := by
      simp only [FullScanDue, hcounts, true_and] at h
      split_ifs <;> omega
    refine ⟨_, hcount, ?_⟩
    simp [p2pBuildScanChan, hcounts, Nat.not_lt.mpr hcount]
  · exact ⟨wise, hwise, by simp [p2pBuildScanChan, hcounts]⟩

theorem scanbandP2p_of_not_due {cfg : VifConfig} {wise : Nat} {request : List Nat}
    (hwise : wise ≤ wiseFullScanCnt) (h : ¬FullScanDue cfg wise request.length) (wiphy : Wiphy)
    (channels : Buffer Nat) (filtered : Buffer Nat → Buffer Nat × Option Nat) :
    ∃ count ≤ wiseFullScanCnt, scanbandP2p cfg wiphy wise channels request filtered =
      returned count (filtered channels) := by
  obtain ⟨count, hcount, hbuild⟩ := p2pBuildScanChan_of_not_due hwise h wiphy channels
  exact ⟨count, hcount, by simp [scanbandP2p, hbuild]⟩

/-- A due scan: of all P2P channels that are enabled if there are any, and of the request if not. -/
theorem scanbandP2p_of_due {cfg : VifConfig} {wise : Nat} {request : List Nat}
    (h : FullScanDue cfg wise request.length) (wiphy : Wiphy) {channels : Buffer Nat}
    (hbuf : channels.top = 0) (filtered : Buffer Nat → Buffer Nat × Option Nat) :
    ∃ list : Buffer Nat, list.Holds (fullP2pList wiphy) ∧
      scanbandP2p cfg wiphy wise channels request filtered =
        returned 0 (if wiphy.band5 = none then (list, none)
          else if fullP2pList wiphy = [] then filtered list
          else (list, some (fullP2pList wiphy).length)) := by
  have hspec := buildScanChan_spec (enabledP2p wiphy) wiphy hbuf
  have hbuild := p2pBuildScanChan_of_due h wiphy channels
  have hlen : (fullP2pList wiphy).length ≤ 43 := listed_length_le (enabledP2p wiphy) wiphy
  obtain ⟨list, hlist, hpair⟩ : ∃ list : Buffer Nat, list.Holds (fullP2pList wiphy) ∧
      fullP2pScanChan wiphy channels =
        (list, wiphy.band5.map fun _ => (fullP2pList wiphy).length) :=
    ⟨_, hspec.1, Prod.ext rfl hspec.2⟩
  refine ⟨list, hlist, ?_⟩
  rw [hpair] at hbuild
  have hmod : (fullP2pList wiphy).length%256 = (fullP2pList wiphy).length := by omega
  cases hb : wiphy.band5 with
  | none => simp [scanbandP2p, hbuild, hb]
  | some sband =>
    by_cases hnil : fullP2pList wiphy = []
    · simp [scanbandP2p, hbuild, hb, hnil]
    · simp [scanbandP2p, hbuild, hb, hnil, hmod]

end Scanband

section Bounds

/-- The entries are within the room, and an `s8` has their number. -/
structure Counted (room : Nat) (r : Buffer Nat × Option Nat) : Prop where
  room : r.1.top ≤ room
  num : ∀ n, r.2 = some n → n = r.1.top ∧ n<128

theorem counted_of_holds {room : Nat} {r : Buffer Nat × Option Nat} {xs : List Nat}
    (h : r.1.Holds xs ∧ r.2 = some xs.length) (hroom : xs.length ≤ room) (hlen : xs.length<128) :
    Counted room r := by
  constructor
  · simpa [h.1.top] using hroom
  · intro n hn
    have hn' : xs.length = n := by simpa [h.2] using hn
    exact ⟨by rw [h.1.top, hn'], by omega⟩

theorem returned_fits_iff {room : Nat} {r : Buffer Nat × Option Nat} (count : Nat)
    (hnum : ∀ n, r.2 = some n → n = r.1.top ∧ n<128) :
    ({ returned count r with room := room } : Listed).Fits ↔ r.1.top ≤ room := by
  constructor
  · intro h
    exact h.room
  · intro h
    constructor
    · exact h
    · intro m hm
      obtain ⟨n, hn, rfl⟩ := Option.map_eq_some_iff.mp hm
      obtain ⟨htop, hlt⟩ := hnum n hn
      rw [s8_of_lt hlt, htop]
      rfl

theorem restricted_length_le (band : Scanband) (wiphy : Wiphy) {request : List Nat}
    (hpos : 0<request.length) (hlen : request.length ≤ maxChannels) :
    (restricted band wiphy request).length ≤ request.length*2 ∧
      (restricted band wiphy request).length ≤ maxChannels := by
  have hkept := kept_length_le (skips band wiphy) request
  have hmax : maxChannels = 64 := rfl
  cases ht : band.type with
  | chanOnly =>
    simp only [restricted, ht, List.length_singleton]
    omega
  | twoP2pchan =>
    simp only [restricted, ht, doubled]
    split_ifs with hshort
    · rw [List.length_append]
      omega
    · omega
  | _ =>
    simp only [restricted, ht]
    omega

theorem filtered_counted (band : Scanband) (wiphy : Wiphy) {request : List Nat}
    {channels : Buffer Nat} (hpos : 0<request.length) (hlen : request.length ≤ maxChannels)
    (hbuf : channels.top = 0) :
    Counted (request.length*2) (filtered band wiphy request channels) := by
  by_cases hall : Decided band wiphy request
  · have hle := restricted_length_le band wiphy hpos hlen
    have hmax : maxChannels = 64 := rfl
    exact counted_of_holds (filtered_spec hlen hbuf hall) hle.1 (by omega)
  · obtain ⟨hnone, htop⟩ := filtered_fault hbuf hall
    constructor
    · omega
    · simp [hnone]

theorem scanband_of_not_due {cfg : VifConfig} {band : Scanband} {wise : Nat}
    {request : List Nat} (hwise : wise ≤ wiseFullScanCnt)
    (h : ¬(band.type.p2p = true ∧ FullScanDue cfg wise request.length)) (wiphy : Wiphy)
    (channels : Buffer Nat) :
    ∃ count ≤ wiseFullScanCnt, scanband cfg band wiphy wise channels request =
      returned count (filtered band wiphy request channels) := by
  by_cases hp2p : band.type.p2p = true
  · have hdue : ¬FullScanDue cfg wise request.length := fun hd => h ⟨hp2p, hd⟩
    rw [scanband_of_p2p hp2p]
    exact scanbandP2p_of_not_due hwise hdue wiphy channels _
  · exact ⟨wise, hwise, scanband_of_not_p2p hp2p cfg wiphy wise channels request⟩

/-- The scan that is due: its list must have room for all P2P channels that are enabled. -/
def ScanRoom (cfg : VifConfig) (band : Scanband) (wiphy : Wiphy) (env : ScanEnv) (wise : Nat)
    (request : List Nat) : Prop :=
  env.kzalloc = true → env.scheScanTrig = false → band.type.p2p = true →
    FullScanDue cfg wise request.length → (fullP2pList wiphy).length ≤ request.length*2

/-- A list that is built beside no request always has room. -/
def ListRoom (cfg : VifConfig) (wise : Nat) : Event → Prop
  | .scan band wiphy env request => ScanRoom cfg band wiphy env wise request
  | .apRcUpdate _ _ => True

theorem scanband_fits_iff {cfg : VifConfig} {band : Scanband} {wiphy : Wiphy} {wise : Nat}
    {request : List Nat} (hwise : wise ≤ wiseFullScanCnt) (hpos : 0<request.length)
    (hlen : request.length ≤ maxChannels) :
    ({ scanband cfg band wiphy wise (Buffer.blank 0) request with
        room := request.length*2 } : Listed).Fits ↔
      (band.type.p2p = true → FullScanDue cfg wise request.length →
        (fullP2pList wiphy).length ≤ request.length*2) := by
  have hcounted := fun (channels : Buffer Nat) (h : channels.top = 0) =>
    filtered_counted band wiphy hpos hlen h
  by_cases h : band.type.p2p = true ∧ FullScanDue cfg wise request.length
  · obtain ⟨hp2p, hdue⟩ := h
    obtain ⟨list, hlist, hscan⟩ :=
      scanbandP2p_of_due hdue wiphy (Buffer.blank_top 0) (filtered band wiphy request)
    have hfull : (fullP2pList wiphy).length ≤ 43 := listed_length_le (enabledP2p wiphy) wiphy
    rw [scanband_of_p2p hp2p, hscan]
    by_cases hnone : wiphy.band5 = none
    · rw [if_pos hnone, returned_fits_iff 0 (by simp)]
      simp [hlist.top, hp2p, hdue]
    · rw [if_neg hnone]
      by_cases hnil : fullP2pList wiphy = []
      · have hc := hcounted list (by simp [hlist.top, hnil])
        rw [if_pos hnil, returned_fits_iff 0 hc.num]
        simp [hc.room, hnil]
      · have hc : Counted (fullP2pList wiphy).length (list, some (fullP2pList wiphy).length) :=
          counted_of_holds ⟨hlist, rfl⟩ (Nat.le_refl _) (by omega)
        rw [if_neg hnil, returned_fits_iff 0 hc.num]
        simp [hlist.top, hp2p, hdue]
  · obtain ⟨count, -, hscan⟩ := scanband_of_not_due hwise h wiphy (Buffer.blank 0)
    have hc := hcounted (Buffer.blank 0) (Buffer.blank_top 0)
    rw [hscan, returned_fits_iff count hc.num]
    constructor
    · intro _ hp2p hdue
      exact absurd ⟨hp2p, hdue⟩ h
    · intro _
      exact hc.room

theorem noList_fits (wise : Nat) : (noList wise).Fits := by
  constructor <;> simp [noList]

theorem apRcList_fits (wiphy : Wiphy) (kzalloc : Bool) (wise : Nat) :
    (apRcList wiphy kzalloc wise).Fits := by
  by_cases hk : kzalloc = true
  · obtain ⟨hholds, hnum⟩ := buildScanChan_spec (enabled wiphy) wiphy (Buffer.blank_top 0)
    have hle := listed_length_le (enabled wiphy) wiphy
    constructor
    · simp only [apRcList, hk, if_true, apRcBuildScanChan, hholds.top, maxChannels]
      omega
    · intro n hn
      simp only [apRcList, hk, if_true, apRcBuildScanChan, hnum, Option.map_map,
        Option.map_eq_some_iff] at hn
      obtain ⟨sband, -, rfl⟩ := hn
      simp only [apRcList, hk, if_true, apRcBuildScanChan, hholds.top, Function.comp_apply]
      exact s8_of_lt (by omega)
  · simpa [apRcList, hk] using noList_fits wise

theorem list_fits_iff {cfg : VifConfig} {wise : Nat} (hwise : wise ≤ wiseFullScanCnt) (e : Event) :
    (list cfg wise e).Fits ↔ ListRoom cfg wise e := by
  cases e with
  | apRcUpdate wiphy kzalloc =>
    simpa [list, ListRoom] using apRcList_fits wiphy kzalloc wise
  | scan band wiphy env request =>
    simp only [list, ListRoom, scanList]
    by_cases hreq : 0<request.length ∧ request.length ≤ maxChannels ∧ ¬env.scheScanTrig = true
    · rw [if_pos hreq]
      by_cases hk : env.kzalloc = true
      · rw [if_pos hk, scanband_fits_iff hwise hreq.1 hreq.2.1]
        simp [ScanRoom, hk, hreq.2.2]
      · rw [if_neg hk]
        simp [ScanRoom, hk, noList_fits wise]
    · rw [if_neg hreq]
      refine iff_of_true (noList_fits wise) ?_
      intro _ htrig _ hdue
      have hthree := hdue.2.1
      simp [hthree, htrig, maxChannels] at hreq

theorem step_le {cfg : VifConfig} {wise : Nat} (hwise : wise ≤ wiseFullScanCnt) (e : Event) :
    step cfg wise e ≤ wiseFullScanCnt := by
  cases e with
  | apRcUpdate wiphy kzalloc =>
    by_cases hk : kzalloc = true <;> simp [step, list, apRcList, noList, hk, hwise]
  | scan band wiphy env request =>
    simp only [step, list, scanList]
    split_ifs
    · by_cases h : band.type.p2p = true ∧ FullScanDue cfg wise request.length
      · obtain ⟨list, -, hscan⟩ :=
          scanbandP2p_of_due h.2 wiphy (Buffer.blank_top 0) (filtered band wiphy request)
        simp [scanband_of_p2p h.1, hscan, returned]
      · obtain ⟨count, hcount, hscan⟩ :=
          scanband_of_not_due hwise h wiphy (Buffer.blank 0)
        simpa [hscan, returned] using hcount
    · simpa [noList] using hwise
    · simpa [noList] using hwise

/-- Over every history of an interface, its lists fit exactly if each full list that comes due has
room for all the P2P channels that are enabled then. -/
theorem scan_lists_fit_iff (cfg : VifConfig) (es : List Event) :
    AllSteps (step cfg) (fun wise e => (list cfg wise e).Fits) 0 es ↔
      AllSteps (step cfg) (ListRoom cfg) 0 es := by
  have hall : AllSteps (step cfg) (fun _ _ => True) 0 es :=
    allSteps_of_mem (fun _ _ => trivial) 0
  exact allSteps_congr_of (I := fun wise => wise ≤ wiseFullScanCnt)
    (fun _ e hwise _ => step_le hwise e) (fun _ e hwise _ => list_fits_iff hwise e)
    (Nat.zero_le _) hall

/-- A scan of the social channels, each channel of the tables being enabled. -/
def socialScan : Event :=
  .scan { type := .twoP2pchan } { flags := fun _ => {} } {} [2412, 2437, 2462]

def p2pDevice : VifConfig :=
  { p2pWiseScan := true, p2pDedicate := true, fwVifIdx := 2, vifMax := 3 }

/-- The sixteenth scan in a row puts 22 channels into a list of 6. -/
theorem social_scans_overflow :
    ¬AllSteps (step p2pDevice) (fun wise e => (list p2pDevice wise e).Fits) 0
      (List.replicate 15 socialScan ++ [socialScan]) := by
  intro h
  have hlast := ((allSteps_append _ _ _ _ _).mp h).2
  have hcount : run (step p2pDevice) 0 (List.replicate 15 socialScan) = 15 := by decide
  rw [hcount] at hlast
  have hroom := hlast.1.room
  revert hroom
  decide

end Bounds

end Ath6kl.ScanChannels
