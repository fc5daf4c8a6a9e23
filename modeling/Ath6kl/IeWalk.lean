import Ath6kl.Lib.Tlv
import Mathlib.Data.UInt
import Mathlib.Data.List.ReduceOption

/-! The four loops over information elements that do not look where an element ends: in
`ath6kl_wmi_connect_event_rx` (wmi.c), `ath6kl_ap_beacon_info` (ap.c), `ath6kl_p2p_connect_event`
and `_p2p_need_pending_connect` (p2p.c). What is made of their results is left out. -/
namespace Ath6kl.IeWalk
open Lib.Tlv

/-- `WLAN_EID_SUPP_RATES`, `WLAN_EID_HT_CAPABILITY`, `WLAN_EID_EXT_SUPP_RATES`,
`WLAN_EID_HT_OPER`, `WLAN_EID_VENDOR_SPECIFIC`. -/
def eidSuppRates : UInt8 := 1
def eidHtCapability : UInt8 := 45
def eidExtSuppRates : UInt8 := 50
def eidHtOper : UInt8 := 61
def eidVendorSpecific : UInt8 := 221

/-- The sizes of `struct ieee80211_ht_cap` and `struct ieee80211_ht_oper`. -/
def htCapSize : Nat := 26
def htOperSize : Nat := 22

/-- `WMM_OUI_TYPE`, `WMM_PARAM_OUI_SUBTYPE`. -/
def wmmOuiType : UInt8 := 2
def wmmParamOuiSubtype : UInt8 := 1

/-- `struct wmi_connect_event` of `len` bytes, with the memory from `assoc_info` on. -/
structure ConnectEvent where
  len : Nat
  beaconIeLen : UInt8
  assocReqLen : UInt8
  assocRespLen : UInt8
  assocInfo : Memory

namespace ConnectEvent
variable (ev : ConnectEvent)

/-- `sizeof(struct wmi_connect_event)`, the last byte of which is `assoc_info`. -/
def size : Nat := 20

/-- `pie` and `peie`: capability, status and AID precede the elements of the response. -/
def pie : Nat := ev.beaconIeLen.toNat + ev.assocReqLen.toNat + 2*3

def peie : Nat := ev.beaconIeLen.toNat + ev.assocReqLen.toNat + ev.assocRespLen.toNat

/-- How much of `assoc_info` has been delivered. -/
def delivered : Nat := ev.len - (size-1)

end ConnectEvent

section Connect

def wmmTests : List (Nat × (UInt8 → Bool)) :=
  [(1, (· > 3)), (2, (· == 0x00)), (3, (· == 0x50)), (4, (· == 0xf2)), (5, (· == wmmOuiType)),
    (1, (· > 5)), (6, (· == wmmParamOuiSubtype))]

/-- An element of a vendor is tested, and no other. -/
def vendorTest (mem : Memory) (pos : Nat) (tests : List (Nat × (UInt8 → Bool))) :
    Bool × List Nat :=
  if mem pos = eidVendorSpecific then
    let t := test mem pos tests
    (t.1, pos::t.2)
  else (false, [pos])

/-- The state is `is_wmm_enabled`. -/
def connectWalker (mem : Memory) : Walker Bool where
  body pos wmm :=
    let t := vendorTest mem pos wmmTests
    (wmm || t.1, t.2)
  leaves wmm := wmm
  kept _ := []

/-- The loop of `ath6kl_wmi_connect_event_rx`; `ap`: `nw_type` is `AP_NETWORK`. -/
def connectEventRx (ev : ConnectEvent) (ap isWmmEnabled : Bool) : Option (Walked Bool) :=
  if ev.len < ConnectEvent.size then none
  else if ap then none
  else some ((connectWalker ev.assocInfo).walk ev.assocInfo ev.peie ev.pie isWmmEnabled)

end Connect

section Beacon

/-- The pointers that `ath6kl_ap_beacon_info` sets, as the positions of their elements. -/
structure BeaconIes where
  ratesIe : Option Nat := none
  extRatesIe : Option Nat := none
  htCapIe : Option Nat := none
  htOperIe : Option Nat := none

/-- A pointer is set to an element of at least `min` bytes. -/
def keep (mem : Memory) (pos min : Nat) (old : Option Nat) : Option Nat :=
  if min ≤ (mem (pos+1)).toNat then some pos else old

def beaconWalker (mem : Memory) : Walker BeaconIes where
  body pos s :=
    if mem pos = eidSuppRates then
      ({ s with ratesIe := keep mem pos 1 s.ratesIe }, [pos, pos+1])
    else if mem pos = eidExtSuppRates then
      ({ s with extRatesIe := keep mem pos 1 s.extRatesIe }, [pos, pos+1])
    else if mem pos = eidHtCapability then
      ({ s with htCapIe := keep mem pos htCapSize s.htCapIe }, [pos, pos+1])
    else if mem pos = eidHtOper then
      ({ s with htOperIe := keep mem pos htOperSize s.htOperIe }, [pos, pos+1])
    else (s, [pos])
  leaves _ := false
  kept s := [s.ratesIe, s.extRatesIe, s.htCapIe, s.htOperIe].reduceOption

/-- The loop of `ath6kl_ap_beacon_info`: timestamp, interval and capability precede. -/
def apBeaconInfo (beacon : Memory) (beaconLen : UInt8) (ap : Bool) : Option (Walked BeaconIes) :=
  if ap then some ((beaconWalker beacon).walk beacon beaconLen.toNat (8+2+2) {}) else none

end Beacon

section P2p

/-- `ht_cap_ie` and `vendor_spec_ie_intel`. -/
structure IntelGo where
  htCapIe : Option Nat := none
  vendorSpecIeIntel : Bool := false

def intelTests : List (Nat × (UInt8 → Bool)) :=
  [(1, (· > 0)), (1, (· == 0x0b)), (2, (· == 0x00)), (3, (· == 0x17)), (4, (· == 0x35)),
    (5, (· == 0x01))]

def intelWalker (mem : Memory) : Walker IntelGo where
  body pos s :=
    if mem pos = eidHtCapability then
      ({ s with htCapIe := keep mem pos htCapSize s.htCapIe }, [pos, pos+1])
    else
      let t := vendorTest mem pos intelTests
      ({ s with vendorSpecIeIntel := s.vendorSpecIeIntel || t.1 }, t.2)
  leaves _ := false
  kept s := [s.htCapIe].reduceOption

/-- The loop of `ath6kl_p2p_connect_event`; `infra`: `nw_type` is `INFRA_NETWORK`, `war`:
`p2p_war_bad_intel_go`. -/
def p2pConnectEvent (ev : ConnectEvent) (infra war : Bool) : Option (Walked IntelGo) :=
  if infra && war then some ((intelWalker ev.assocInfo).walk ev.assocInfo ev.peie ev.pie {})
  else none

def broadcomTests : List (Nat × (UInt8 → Bool)) :=
  [(1, (· > 0)), (2, (· == 0x00)), (3, (· == 0x10)), (4, (· == 0x18))]

/-- The state is `need_pending`. -/
def broadcomWalker (mem : Memory) : Walker Bool where
  body pos need :=
    let t := vendorTest mem pos broadcomTests
    (need || t.1, t.2)
  leaves _ := false
  kept _ := []

/-- The loop of `_p2p_need_pending_connect` over `len` bytes stored for the BSS; `war`: the
workaround is on and the interface is a client that is connected by WPS. -/
def p2pNeedPendingConnect (war : Bool) (ies : Option (Memory × Nat)) : Option (Walked Bool) :=
  if war then ies.map fun (mem, len) => (broadcomWalker mem).walk mem len 0 false else none

end P2p

theorem ie_walks_end (ev : ConnectEvent) (ap infra war wmm : Bool) (mem : Memory) (len : Nat) :
    (∀ r∈connectEventRx ev ap wmm, r.finished = true) ∧
    (∀ r∈apBeaconInfo ev.assocInfo ev.beaconIeLen ap, r.finished = true) ∧
    (∀ r∈p2pConnectEvent ev infra war, r.finished = true) ∧
    ∀ r∈p2pNeedPendingConnect war (some (mem, len)), r.finished = true := by
  refine ⟨?_, ?_, ?_, ?_⟩
  · by_cases hlen : ev.len < ConnectEvent.size
    · simp [connectEventRx, hlen]
    · cases ap <;> simp [connectEventRx, hlen, Walker.walk_finished]
  · cases ap <;> simp [apBeaconInfo, Walker.walk_finished]
  · cases infra <;> cases war <;> simp [p2pConnectEvent, Walker.walk_finished]
  · cases war <;> simp [p2pNeedPendingConnect, Walker.walk_finished]

/-- What the vendor test of a loop reads: the identifier, and what the tests need. -/
def VendorPeek (mem : Memory) (hi : Nat) (tests : List (Nat × (UInt8 → Bool))) (pos : Nat) : Prop :=
  pos<hi ∧ (mem pos = eidVendorSpecific → Within mem hi pos tests)

theorem vendorTest_reads_iff (mem : Memory) (hi : Nat) (tests : List (Nat × (UInt8 → Bool)))
    (pos : Nat) :
    (∀ r∈(vendorTest mem pos tests).2, r<hi) ↔ VendorPeek mem hi tests pos := by
  by_cases h : mem pos = eidVendorSpecific
  · simp [vendorTest, VendorPeek, h, test_reads_iff]
  · simp [vendorTest, VendorPeek, h]

/-- The identifiers of elements that a loop keeps pointers to, with their least lengths. -/
def beaconKept : List (UInt8 × Nat) :=
  [(eidSuppRates, 1), (eidExtSuppRates, 1), (eidHtCapability, htCapSize), (eidHtOper, htOperSize)]

def intelKept : List (UInt8 × Nat) := [(eidHtCapability, htCapSize)]

def Keeps (mem : Memory) (kept : List (UInt8 × Nat)) (pos : Nat) : Prop :=
  ∃ k∈kept, mem pos = k.1 ∧ k.2 ≤ (mem (pos+1)).toNat

/-- Of an element that the loop may keep a pointer to, the length is read as well. -/
def KeptPeek (mem : Memory) (hi : Nat) (kept : List (UInt8 × Nat)) (pos : Nat) : Prop :=
  pos<hi ∧ (mem pos∈kept.map (·.1) → pos+1<hi)

/-- `ath6kl_wmi_connect_event_rx` leaves at the first WMM parameter element, or at the first of
all when it has seen one before. -/
def LastWmm (mem : Memory) (wmm : Bool) (p : Nat) : Prop :=
  wmm = true ∨ (vendorTest mem p wmmTests).1 = true

section Specs
variable {mem : Memory}

theorem mem_beacon_kept {s : BeaconIes} {q : Nat} :
    q∈(beaconWalker mem).kept s ↔ s.ratesIe = some q ∨ s.extRatesIe = some q ∨
      s.htCapIe = some q ∨ s.htOperIe = some q := by
  simp [beaconWalker, List.reduceOption_mem_iff, eq_comm]

theorem keep_eq_some {K : List (UInt8 × Nat)} {k : UInt8 × Nat} {pos : Nat} (hk : k∈K)
    (hid : mem pos = k.1) (old : Option Nat) (q : Nat) (h : keep mem pos k.2 old = some q) :
    old = some q ∨ q = pos ∧ Keeps mem K pos := by
  by_cases hmin : k.2 ≤ (mem (pos+1)).toNat
  · have hq : pos = q := by simpa [keep, hmin] using h
    exact Or.inr ⟨hq.symm, k, hk, hid, hmin⟩
  · exact Or.inl (by simpa [keep, hmin] using h)

theorem connect_spec (mem : Memory) (hi : Nat) (wmm : Bool) :
    Spec (connectWalker mem) hi (· = wmm) (VendorPeek mem hi wmmTests)
      (LastWmm mem wmm) (fun _ => False) where
  peek p s := vendorTest_reads_iff mem hi wmmTests p
  lt _ h := h.1
  leaves := by
    rintro p s rfl
    simp [connectWalker, LastWmm]
  stays := by
    rintro p s rfl h
    simpa [connectWalker] using fun hp => absurd (Or.inr hp) h
  keeps := by simp
  kept := by simp [connectWalker]

theorem broadcom_spec (mem : Memory) (hi : Nat) :
    Spec (broadcomWalker mem) hi (fun _ => True) (VendorPeek mem hi broadcomTests) (fun _ => False)
      (fun _ => False) where
  peek p s := vendorTest_reads_iff mem hi broadcomTests p
  lt _ h := h.1
  leaves := by simp [broadcomWalker]
  stays := by simp
  keeps := by simp
  kept := by simp [broadcomWalker]

theorem beacon_spec (mem : Memory) (hi : Nat) :
    Spec (beaconWalker mem) hi (fun _ => True) (KeptPeek mem hi beaconKept) (fun _ => False)
      (Keeps mem beaconKept) where
  peek p s := by
    simp only [beaconWalker, KeptPeek, beaconKept]
    split_ifs <;> simp_all
  lt _ h := h.1
  leaves := by simp [beaconWalker]
  stays := by simp
  keeps := by
    rintro p s ⟨k, hk, hid, hmin⟩
    simp only [beaconKept, List.mem_cons, List.not_mem_nil, or_false] at hk
    rw [mem_beacon_kept]
    rcases hk with rfl | rfl | rfl | rfl
    · simp [beaconWalker, hid, keep, hmin]
    · simp [beaconWalker, hid, keep, hmin, eidExtSuppRates, eidSuppRates]
    · simp [beaconWalker, hid, keep, hmin, eidHtCapability, eidExtSuppRates, eidSuppRates]
    · simp [beaconWalker, hid, keep, hmin, eidHtOper, eidHtCapability, eidExtSuppRates,
        eidSuppRates]
  kept := by
    intro p s q hq
    rw [mem_beacon_kept] at hq ⊢
    simp only [beaconWalker] at hq
    split_ifs at hq with hid hid hid hid
    · have hkeep := keep_eq_some (K := beaconKept) (k := (eidSuppRates, 1)) (by simp [beaconKept])
        hid s.ratesIe q
      tauto
    · have hkeep := keep_eq_some (K := beaconKept) (k := (eidExtSuppRates, 1))
        (by simp [beaconKept]) hid s.extRatesIe q
      tauto
    · have hkeep := keep_eq_some (K := beaconKept) (k := (eidHtCapability, htCapSize))
        (by simp [beaconKept]) hid s.htCapIe q
      tauto
    · have hkeep := keep_eq_some (K := beaconKept) (k := (eidHtOper, htOperSize))
        (by simp [beaconKept]) hid s.htOperIe q
      tauto
    · exact Or.inl hq

theorem intel_spec (mem : Memory) (hi : Nat) :
    Spec (intelWalker mem) hi (fun _ => True)
      (fun p => KeptPeek mem hi intelKept p ∧ VendorPeek mem hi intelTests p) (fun _ => False)
      (Keeps mem intelKept) where
  peek p s := by
    by_cases hid : mem p = eidHtCapability
    · simp only [intelWalker, KeptPeek, VendorPeek, intelKept, hid, eidHtCapability,
        eidVendorSpecific]
      simpa using fun h _ => h
    · simp [intelWalker, KeptPeek, intelKept, hid, vendorTest_reads_iff]
      exact fun h => h.1
  lt _ h := h.1.1
  leaves := by simp [intelWalker]
  stays := by simp
  keeps := by
    rintro p s ⟨k, hk, hid, hmin⟩
    obtain rfl : k = (eidHtCapability, htCapSize) := by simpa [intelKept] using hk
    simp [intelWalker, hid, keep, hmin]
  kept := by
    intro p s q hq
    by_cases hid : mem p = eidHtCapability
    · simp only [intelWalker, hid, if_true, List.reduceOption_mem_iff, List.mem_singleton] at hq ⊢
      have hkeep := keep_eq_some (K := intelKept) (k := (eidHtCapability, htCapSize))
        (by simp [intelKept]) hid s.htCapIe q hq.symm
      tauto
    · exact Or.inl (by simpa [intelWalker, hid] using hq)

end Specs

/-- Where the elements of a response end that have been delivered, and those of a beacon. -/
def ConnectEvent.ieEnd (ev : ConnectEvent) : Nat := min ev.peie ev.delivered

def ConnectEvent.beaconEnd (ev : ConnectEvent) : Nat := min ev.beaconIeLen.toNat ev.delivered

/-- Every element that a loop comes to is safe. -/
def ConnectFits (ev : ConnectEvent) (wmm : Bool) : Prop :=
  ∀ p, Comes ev.assocInfo ev.peie (LastWmm ev.assocInfo wmm) ev.pie p →
    Safe ev.assocInfo ev.ieEnd (VendorPeek ev.assocInfo ev.ieEnd wmmTests)
      (LastWmm ev.assocInfo wmm) (fun _ => False) p

def BeaconFits (ev : ConnectEvent) : Prop :=
  ∀ p, Comes ev.assocInfo ev.beaconIeLen.toNat (fun _ => False) (8+2+2) p →
    Safe ev.assocInfo ev.beaconEnd (KeptPeek ev.assocInfo ev.beaconEnd beaconKept)
      (fun _ => False) (Keeps ev.assocInfo beaconKept) p

def IntelFits (ev : ConnectEvent) : Prop :=
  ∀ p, Comes ev.assocInfo ev.peie (fun _ => False) ev.pie p →
    Safe ev.assocInfo ev.ieEnd (fun p => KeptPeek ev.assocInfo ev.ieEnd intelKept p ∧
      VendorPeek ev.assocInfo ev.ieEnd intelTests p) (fun _ => False)
      (Keeps ev.assocInfo intelKept) p

def BroadcomFits (mem : Memory) (len : Nat) : Prop :=
  ∀ p, Comes mem len (fun _ => False) 0 p →
    Safe mem len (VendorPeek mem len broadcomTests) (fun _ => False) (fun _ => False) p

section Whole
variable {mem : Memory} {hi p : Nat}

theorem vendorPeek_wmm_of_whole (h : next mem p ≤ hi) : VendorPeek mem hi wmmTests p := by
  rw [next] at h
  refine ⟨by omega, fun _ => ?_⟩
  simp only [wmmTests, Within, decide_eq_true_eq, gt_iff_lt, UInt8.lt_iff_toNat_lt,
    UInt8.reduceToNat]
  refine ⟨by omega, fun h3 => ⟨by omega, fun _ => ⟨by omega, fun _ => ⟨by omega, fun _ =>
    ⟨by omega, fun _ => ⟨by omega, fun h5 => ⟨by omega, fun _ => trivial⟩⟩⟩⟩⟩⟩⟩

theorem vendorPeek_intel_of_whole (h : next mem p ≤ hi) : VendorPeek mem hi intelTests p := by
  rw [next] at h
  refine ⟨by omega, fun _ => ?_⟩
  simp only [intelTests, Within, beq_iff_eq]
  refine ⟨by omega, fun _ => ⟨by omega, fun hlen => ?_⟩⟩
  have h11 : (mem (p+1)).toNat = 11 := by rw [hlen]; rfl
  exact ⟨by omega, fun _ => ⟨by omega, fun _ => ⟨by omega, fun _ => ⟨by omega, fun _ => trivial⟩⟩⟩⟩

/-- Areas made of whole elements are always read in bounds. -/
theorem fits_of_whole (ev : ConnectEvent) (wmm : Bool)
    (hresp : ∀ p, Comes ev.assocInfo ev.peie (fun _ => False) ev.pie p →
      next ev.assocInfo p ≤ ev.ieEnd)
    (hbeacon : ∀ p, Comes ev.assocInfo ev.beaconIeLen.toNat (fun _ => False) (8+2+2) p →
      next ev.assocInfo p ≤ ev.beaconEnd) :
    ConnectFits ev wmm ∧ BeaconFits ev ∧ IntelFits ev := by
  have hlt : ∀ p, p+1<next ev.assocInfo p := lt_next ev.assocInfo
  refine ⟨fun p hp => ?_, fun p hp => ?_, fun p hp => ?_⟩
  · have hnext := hresp p (hp.mono fun _ => False.elim)
    exact ⟨vendorPeek_wmm_of_whole hnext, fun _ => (hlt p).trans_le hnext, fun h => h.elim⟩
  · have hnext := hbeacon p hp
    have hlen := (hlt p).trans_le hnext
    exact ⟨⟨by omega, fun _ => hlen⟩, fun _ => hlen, fun _ => hnext⟩
  · have hnext := hresp p hp
    have hlen := (hlt p).trans_le hnext
    exact ⟨⟨⟨by omega, fun _ => hlen⟩, vendorPeek_intel_of_whole hnext⟩, fun _ => hlen,
      fun _ => hnext⟩

end Whole

theorem connect_inside_iff (ev : ConnectEvent) (ap wmm : Bool) :
    (∀ r∈connectEventRx ev ap wmm, Inside (connectWalker ev.assocInfo) ev.assocInfo ev.ieEnd r) ↔
      (ConnectEvent.size ≤ ev.len → ap = false → ConnectFits ev wmm) := by
  have hwalk := (connect_spec ev.assocInfo ev.ieEnd wmm).inside_walk_iff ev.assocInfo ev.peie
    ev.pie wmm rfl (by simp [connectWalker])
  by_cases hlen : ev.len < ConnectEvent.size
  · simp [connectEventRx, hlen, Nat.not_le.mpr hlen]
  · cases ap with
    | true => simp [connectEventRx, hlen]
    | false => simpa [connectEventRx, hlen, Nat.not_lt.mp hlen, ConnectFits] using hwalk

theorem beacon_inside_iff (ev : ConnectEvent) (ap : Bool) :
    (∀ r∈apBeaconInfo ev.assocInfo ev.beaconIeLen ap,
        Inside (beaconWalker ev.assocInfo) ev.assocInfo ev.beaconEnd r) ↔
      (ap = true → BeaconFits ev) := by
  have hwalk := (beacon_spec ev.assocInfo ev.beaconEnd).inside_walk_iff ev.assocInfo
    ev.beaconIeLen.toNat (8+2+2) {} trivial (by simp [beaconWalker])
  cases ap with
  | false => simp [apBeaconInfo]
  | true => simpa [apBeaconInfo, BeaconFits] using hwalk

theorem intel_inside_iff (ev : ConnectEvent) (infra war : Bool) :
    (∀ r∈p2pConnectEvent ev infra war, Inside (intelWalker ev.assocInfo) ev.assocInfo ev.ieEnd r) ↔
      (infra = true → war = true → IntelFits ev) := by
  have hwalk := (intel_spec ev.assocInfo ev.ieEnd).inside_walk_iff ev.assocInfo ev.peie
    ev.pie {} trivial (by simp [intelWalker])
  cases infra with
  | false => simp [p2pConnectEvent]
  | true =>
    cases war with
    | false => simp [p2pConnectEvent]
    | true => simpa [p2pConnectEvent, IntelFits] using hwalk

theorem broadcom_inside_iff (war : Bool) (mem : Memory) (len : Nat) :
    (∀ r∈p2pNeedPendingConnect war (some (mem, len)), Inside (broadcomWalker mem) mem len r) ↔
      (war = true → BroadcomFits mem len) := by
  have hwalk := (broadcom_spec mem len).inside_walk_iff mem len 0 false trivial
    (by simp [broadcomWalker])
  cases war with
  | false => simp [p2pNeedPendingConnect]
  | true => simpa [p2pNeedPendingConnect, BroadcomFits] using hwalk

/-- Each of the four loops ends, reads nothing past the elements that were delivered and keeps no
pointer to one that is cut exactly when every element that it comes to is safe. -/
theorem ie_walks_inside_iff (ev : ConnectEvent) (ap infra war wmm : Bool) (mem : Memory)
    (len : Nat) :
    ((∀ r∈connectEventRx ev ap wmm,
        Inside (connectWalker ev.assocInfo) ev.assocInfo ev.ieEnd r) ↔
      (ConnectEvent.size ≤ ev.len → ap = false → ConnectFits ev wmm)) ∧
    ((∀ r∈apBeaconInfo ev.assocInfo ev.beaconIeLen ap,
        Inside (beaconWalker ev.assocInfo) ev.assocInfo ev.beaconEnd r) ↔
      (ap = true → BeaconFits ev)) ∧
    ((∀ r∈p2pConnectEvent ev infra war,
        Inside (intelWalker ev.assocInfo) ev.assocInfo ev.ieEnd r) ↔
      (infra = true → war = true → IntelFits ev)) ∧
    ((∀ r∈p2pNeedPendingConnect war (some (mem, len)),
        Inside (broadcomWalker mem) mem len r) ↔
      (war = true → BroadcomFits mem len)) :=
  ⟨connect_inside_iff ev ap wmm, beacon_inside_iff ev ap, intel_inside_iff ev infra war,
    broadcom_inside_iff war mem len⟩

/-- A response of a single byte: the loop reads a length behind it. -/
theorem connect_event_reads_past_end :
    ¬∀ r∈connectEventRx ⟨26, 0, 0, 7, fun _ => 42⟩ false false,
      Inside (connectWalker fun _ => 42) (fun _ => 42)
        (ConnectEvent.ieEnd ⟨26, 0, 0, 7, fun _ => 42⟩) r := by
  intro h
  have hin := h _ rfl
  exact absurd (hin.reads 7 (by decide)) (by decide)

end Ath6kl.IeWalk
