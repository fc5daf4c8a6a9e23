import Ath6kl.Lib.Accesses
import Ath6kl.Lib.LittleEndian
import Ath6kl.P2pPs
import Ath6kl.WmmStream

/-! Events of the target that have a variable length or the index of a table: NoA information,
discovered peers, neighbours, lists of APs and PMKIDs, the timeout of a stream and admission control
(wmi.c). An event is `len` bytes of memory, in which a handler reads wherever it looks; what an
access outside does is not modelled, only that it is made. -/
namespace Ath6kl.WmiEvents
open Lib.Accesses

/-- The memory from `datap` on. -/
abbrev Memory := Nat → UInt8

def bytes (mem : Memory) (pos n : Nat) : List UInt8 := (List.range n).map fun i => mem (pos+i)

def le16 (mem : Memory) (pos : Nat) : Nat := Lib.LittleEndian.value (bytes mem pos 2)
def le32 (mem : Memory) (pos : Nat) : Nat := Lib.LittleEndian.value (bytes mem pos 4)

/-- `ETH_ALEN`, `WMI_PMKID_LEN`, and `MAX_PMKID_LIST_SIZE`, which is that of `WMI_MAX_PMKID_CACHE`
pairs of both after a count. -/
def ethAlen : Nat := 6
def wmiPmkidLen : Nat := 16
def maxPmkidListSize : Nat := 4+8*(wmiPmkidLen+ethAlen)

def einval : Int := -22
def eio : Int := -5
def eoverflow : Int := -75

/-- The sizes of the fixed parts of the events, and of the records that follow. -/
def noaInfoSize : Nat := 2
def noaDescriptorSize : Nat := 13
def discPeerEventSize : Nat := 2
def discPeerSize : Nat := 10
def neighborReportEventSize : Nat := 1
def neighborInfoSize : Nat := 7
def aplistEventSize : Nat := 10
def apInfoV1Size : Nat := 8
def pmkidListReplySize : Nat := 26
def pstreamTimeoutEventSize : Nat := 4
def cacEventSize : Nat := 66

/-- What the handlers change: the streams, the power save of a P2P-GO with the IEs it sets for
beacons, the PMKIDs with the flag `PMKLIST_GET_PEND`, and what cfg80211 was told. -/
structure Host where
  streams : WmmStream.Driver
  p2pPs : Option P2pPs.PsInfo := none
  beaconIes : Option (List UInt8) := none
  pmkidListBuf : Memory := fun _ => 0
  pmklistGetPend : Bool := false
  candidates : List (Nat × List UInt8 × Bool) := []
  testmodeEvents : List (List UInt8) := []

structure Handled where
  ret : Int
  host : Host
  log : List Access

def refused (h : Host) (log : List Access) : Handled := { ret := einval, host := h, log := log }

section P2p

def noaDescriptor (mem : Memory) (i : Nat) : P2pPs.Descriptor :=
  let pos := noaInfoSize+noaDescriptorSize*i
  { duration := UInt32.ofNat (le32 mem pos), interval := UInt32.ofNat (le32 mem (pos+4)),
    startOrOffset := UInt32.ofNat (le32 mem (pos+8)), countOrType := mem (pos+12) }

/-- `ath6kl_wmi_noa_info_event_rx`. -/
def noaInfoEventRx (h : Host) (mem : Memory) (len : Nat) : Handled :=
  if len<noaInfoSize then refused h []
  else
    let count := (mem 1).toNat
    let numNoa := if P2pPs.maxNoaDescriptors<count then P2pPs.maxNoaDescriptors else count
    match h.p2pPs with
    | none => { ret := eio, host := h, log := [.read 0 noaInfoSize] }
    | some ps =>
      let (ps, ies) := P2pPs.noaInfoEvent ps
        { enable := mem 0, noas := (List.range count).map (noaDescriptor mem) }
      { ret := 0
        host := { h with p2pPs := some ps, beaconIes := ies <|> h.beaconIes }
        log := .read 0 noaInfoSize::
          if mem 0 = 0 ∨ numNoa = 0 then []
          else records noaInfoSize noaDescriptorSize numNoa ++
            slots numNoa P2pPs.maxNoaDescriptors }

/-- `ath6kl_wmi_disc_peer_event_rx`, with `ath6kl_tm_disc_event`; `skb`: there is a buffer for the
event. -/
def discPeerEventRx (h : Host) (skb : Bool) (mem : Memory) (len : Nat) : Handled :=
  if len<discPeerEventSize then refused h []
  else
    let peerNum := (mem 0).toNat
    let peersSize := discPeerSize*peerNum%65536
    let bufLen := discPeerEventSize+peersSize-1
    if skb then
      { ret := 0
        host := { h with testmodeEvents := h.testmodeEvents ++ [bytes mem 0 bufLen] }
        log := [.read 0 1, .read 0 bufLen, .count peerNum ((bufLen-1)/discPeerSize)] }
    else { ret := 0, host := h, log := [.read 0 1] }

end P2p

section Lists

/-- `ath6kl_wmi_neighbor_report_event_rx`; `WMI_PREAUTH_CAPABLE_BSS` is bit 0. -/
def neighborReportEventRx (h : Host) (mem : Memory) (len : Nat) : Handled :=
  if len<neighborReportEventSize then refused h []
  else
    let numNeighbors := (mem 0).toNat
    if len<neighborReportEventSize+numNeighbors*neighborInfoSize then refused h [.read 0 1]
    else
      let candidate (i : Nat) :=
        let pos := neighborReportEventSize+neighborInfoSize*i
        (i, bytes mem pos ethAlen, mem (pos+ethAlen) &&& 1 != 0)
      { ret := 0
        host := { h with candidates := h.candidates ++ (List.range numNeighbors).map candidate }
        log := .read 0 1::records neighborReportEventSize neighborInfoSize numNeighbors }

/-- `ath6kl_wmi_aplist_event_rx`, which only prints. -/
def aplistEventRx (h : Host) (mem : Memory) (len : Nat) : Handled :=
  if len<aplistEventSize then refused h []
  else if mem 0 ≠ 1 then refused h [.read 0 1]
  else
    let numAp := (mem 1).toNat
    if (len : Int)<aplistEventSize+((numAp : Int)-1)*apInfoV1Size then refused h [.read 0 2]
    else { ret := 0, host := h, log := .read 0 2::records 2 apInfoV1Size numAp }

/-- The size of so many PMKIDs, in a `u32`. -/
def expectedLen (numPmkid : Nat) : Nat :=
  (4+numPmkid*(ethAlen+wmiPmkidLen)%2^32)%2^32

/-- `ath6kl_wmi_get_pmkid_list_event_rx`. -/
def getPmkidListEventRx (h : Host) (mem : Memory) (len : Nat) : Handled :=
  let woken := { h with pmklistGetPend := false }
  if len<pmkidListReplySize then refused woken []
  else
    let expected := expectedLen (le32 mem 0)
    if len<expected then refused woken [.read 0 4]
    else if expected ≤ maxPmkidListSize then
      let buf := fun i => if i<expected then mem i else h.pmkidListBuf i
      { ret := 0
        host := { woken with pmkidListBuf := buf }
        log := [.read 0 4, .read 0 expected] ++
          if expected = 0 then []
          else [.slot (expected-1) maxPmkidListSize,
            .count (le32 buf 0) ((expected-4)/(ethAlen+wmiPmkidLen))] }
    else { ret := eoverflow, host := woken, log := [.read 0 4] }

end Lists

section Streams

/-- One entry for each class: of the streams, the endpoints, the active ones and the priorities. -/
def acSlot (trafficClass : UInt8) : Access := .slot trafficClass.toNat WmmStream.wmmNumAc

def tsidSlot (tsid : UInt8) : Access := .slot tsid.toNat 16

/-- `ath6kl_wmi_pstream_timeout_event_rx`. -/
def pstreamTimeoutEventRx (h : Host) (mem : Memory) (len : Nat) : Handled :=
  if len<pstreamTimeoutEventSize then refused h []
  else
    let trafficClass := mem 3
    { ret := 0
      host := { h with streams := WmmStream.step h.streams (.pstreamTimeout trafficClass) }
      log := [.read 3 1, acSlot trafficClass] }

/-- What `ath6kl_wmi_delete_pstream_cmd` accesses. -/
def deletePstreamLog (env : WmmStream.Env) (trafficClass tsid : UInt8) : List Access :=
  match WmmStream.toAc trafficClass with
  | none => []
  | some _ => if env.alloc then [acSlot trafficClass, tsidSlot tsid] else []

/-- What is accessed for the one stream that an event without a response is about. -/
def activeLog (s : WmmStream.Wmm) (env : WmmStream.Env) (trafficClass : UInt8) : List Access :=
  match WmmStream.toAc trafficClass with
  | none => []
  | some ac => match WmmStream.lowestTsid (s.streamExistForAc ac) with
    | none => []
    | some index => deletePstreamLog env trafficClass (UInt8.ofNat index)

/-- `struct wmi_cac_event` with the `tsinfo` of its TSPEC. -/
def cacEvent (mem : Memory) : WmmStream.CacEvent :=
  { ac := mem 0, cacIndication := mem 1, statusCode := mem 2,
    tsinfo := UInt16.ofNat (le16 mem 11) }

/-- `ath6kl_wmi_cac_event_rx`. -/
def cacEventRx (h : Host) (env : WmmStream.Env) (mem : Memory) (len : Nat) : Handled :=
  if len<cacEventSize then refused h []
  else
    let e := cacEvent mem
    { ret := 0
      host := { h with streams := WmmStream.step h.streams (.cac e env) }
      log := .read 0 3::match e.indication with
        | .admissionResp => .read 11 2::deletePstreamLog env e.ac e.tsid
        | .noResp => acSlot e.ac::activeLog h.streams.wmm env e.ac
        | .delete => [.read 11 2, acSlot e.ac, tsidSlot e.tsid]
        | .other => [] }

end Streams

section Events

inductive Event
  | noaInfo
  | discPeer
  | neighborReport
  | aplist
  | getPmkidList
  | pstreamTimeout
  | cac

/-- The handler of an event; `env.alloc`: there is a buffer for what it sends on. -/
def handle (h : Host) (env : WmmStream.Env) (mem : Memory) (len : Nat) : Event → Handled
  | .noaInfo => noaInfoEventRx h mem len
  | .discPeer => discPeerEventRx h env.alloc mem len
  | .neighborReport => neighborReportEventRx h mem len
  | .aplist => aplistEventRx h mem len
  | .getPmkidList => getPmkidListEventRx h mem len
  | .pstreamTimeout => pstreamTimeoutEventRx h mem len
  | .cac => cacEventRx h env mem len

/-- The events that a handler takes as they must be taken. -/
def SafeWhen (h : Host) (env : WmmStream.Env) (mem : Memory) (len : Nat) : Event → Prop
  | .noaInfo => len<noaInfoSize ∨ h.p2pPs = none ∨ mem 0 = 0 ∨
      noaInfoSize+noaDescriptorSize*min (mem 1).toNat P2pPs.maxNoaDescriptors ≤ len
  | .discPeer => len<discPeerEventSize ∨ env.alloc = false ∨ 1+discPeerSize*(mem 0).toNat ≤ len
  | .neighborReport | .aplist => True
  | .getPmkidList => len<pmkidListReplySize ∨ le32 mem 0 ≤ 8 ∨ (4+22*le32 mem 0)%2^32 = 0 ∨
      min len maxPmkidListSize < (4+22*le32 mem 0)%2^32
  | .pstreamTimeout => len<pstreamTimeoutEventSize ∨ (mem 3).toNat<WmmStream.wmmNumAc
  | .cac => len<cacEventSize ∨ (mem 1 ≠ 2 ∧ mem 1 ≠ 3) ∨ (mem 0).toNat<WmmStream.wmmNumAc

end Events

section Safety
variable {h : Host} {env : WmmStream.Env} {mem : Memory} {len : Nat}

theorem safe_refused (h : Host) (len : Nat) : Safe len (refused h []).log := by simp [refused]

theorem safe_cons_read {n : Nat} {log : List Access} (hn : n ≤ len) :
    Safe len (.read 0 n::log) ↔ Safe len log := by
  simp [hn]

theorem noaInfo_safe_iff :
    Safe len (noaInfoEventRx h mem len).log ↔ SafeWhen h env mem len .noaInfo := by
  by_cases hlen : len<noaInfoSize
  · simp [noaInfoEventRx, SafeWhen, hlen, safe_refused]
  have hfixed : noaInfoSize ≤ len := Nat.not_lt.mp hlen
  cases hps : h.p2pPs with
  | none => simp [noaInfoEventRx, SafeWhen, hps, hlen, safe_cons_read hfixed]
  | some ps =>
    have hmin : (if P2pPs.maxNoaDescriptors<(mem 1).toNat then P2pPs.maxNoaDescriptors
        else (mem 1).toNat) = min (mem 1).toNat P2pPs.maxNoaDescriptors := by
      split_ifs <;> omega
    have hlog : (noaInfoEventRx h mem len).log = .read 0 noaInfoSize::
        if mem 0 = 0 ∨ min (mem 1).toNat P2pPs.maxNoaDescriptors = 0 then []
        else records noaInfoSize noaDescriptorSize (min (mem 1).toNat P2pPs.maxNoaDescriptors) ++
          slots (min (mem 1).toNat P2pPs.maxNoaDescriptors) P2pPs.maxNoaDescriptors := by
      simp only [noaInfoEventRx, if_neg hlen, hps, hmin]
    have hslots := Nat.min_le_right (mem 1).toNat P2pPs.maxNoaDescriptors
    rw [hlog, safe_cons_read hfixed]
    by_cases hoff : mem 0 = 0 ∨ min (mem 1).toNat P2pPs.maxNoaDescriptors = 0
    · rw [if_pos hoff]
      refine iff_of_true (safe_nil len) ?_
      rcases hoff with hzero | hzero
      · simp [SafeWhen, hzero]
      · simp [SafeWhen, hzero, hfixed]
    · have hon := not_or.mp hoff
      rw [if_neg hoff, safe_append, safe_records_iff, safe_slots_iff]
      simp only [SafeWhen, hlen, hps, hon.1, hon.2, hslots, reduceCtorEq, false_or, and_true]

theorem discPeer_safe_iff :
    Safe len (discPeerEventRx h env.alloc mem len).log ↔ SafeWhen h env mem len .discPeer := by
  by_cases hlen : len<discPeerEventSize
  · simp [discPeerEventRx, SafeWhen, hlen, safe_refused]
  have hfixed : 2 ≤ len := Nat.not_lt.mp hlen
  have hbyte : 1 ≤ len := by omega
  by_cases halloc : env.alloc = true
  · have hnum : (mem 0).toNat<256 := (mem 0).toNat_lt
    have hsize : discPeerEventSize+discPeerSize*(mem 0).toNat%65536-1 =
        1+discPeerSize*(mem 0).toNat := by
      simp only [discPeerEventSize, discPeerSize]
      omega
    have hcount : discPeerSize*(mem 0).toNat/discPeerSize = (mem 0).toNat :=
      Nat.mul_div_cancel_left _ (by decide)
    simp [discPeerEventRx, SafeWhen, hlen, halloc, hsize, hcount, hbyte]
  · simp [discPeerEventRx, SafeWhen, hlen, halloc, hbyte]

theorem neighborReport_safe : Safe len (neighborReportEventRx h mem len).log := by
  by_cases hlen : len<neighborReportEventSize
  · simp [neighborReportEventRx, hlen, safe_refused]
  have hfixed : 1 ≤ len := Nat.not_lt.mp hlen
  by_cases hrecords : len<neighborReportEventSize+(mem 0).toNat*neighborInfoSize
  · simp [neighborReportEventRx, refused, hlen, hrecords, hfixed]
  · have hfit : neighborReportEventSize+neighborInfoSize*(mem 0).toNat ≤ len := by
      rw [Nat.mul_comm]
      exact Nat.not_lt.mp hrecords
    simp [neighborReportEventRx, hlen, hrecords, hfixed, safe_records_iff, hfit]

theorem aplist_safe : Safe len (aplistEventRx h mem len).log := by
  by_cases hlen : len<aplistEventSize
  · simp [aplistEventRx, hlen, safe_refused]
  have hfixed : 10 ≤ len := Nat.not_lt.mp hlen
  have hone : 1 ≤ len := by omega
  have htwo : 2 ≤ len := by omega
  by_cases hver : mem 0 = 1
  · by_cases hrecords :
        (len : Int)<aplistEventSize+(((mem 1).toNat : Int)-1)*apInfoV1Size
    · simp [aplistEventRx, refused, hlen, hver, hrecords, htwo]
    · have hfit : 2+apInfoV1Size*(mem 1).toNat ≤ len := by
        simp only [aplistEventSize, apInfoV1Size] at hrecords ⊢
        omega
      simp [aplistEventRx, hlen, hver, hrecords, htwo, safe_records_iff, hfit]
  · simp [aplistEventRx, refused, hlen, hver, hone]

theorem pstreamTimeout_safe_iff :
    Safe len (pstreamTimeoutEventRx h mem len).log ↔ SafeWhen h env mem len .pstreamTimeout := by
  by_cases hlen : len<pstreamTimeoutEventSize
  · simp [pstreamTimeoutEventRx, SafeWhen, hlen, safe_refused]
  · have hfixed : 3+1 ≤ len := Nat.not_lt.mp hlen
    simp [pstreamTimeoutEventRx, SafeWhen, hlen, acSlot, hfixed]

section Cac

theorem safe_acSlot_iff {ac : UInt8} : (acSlot ac).Ok len ↔ ac.toNat<WmmStream.wmmNumAc := Iff.rfl

theorem safe_tsidSlot (len : Nat) {tsid : UInt8} (h : tsid.toNat<16) : (tsidSlot tsid).Ok len := h

theorem deletePstreamLog_safe (len : Nat) (env : WmmStream.Env) (ac : UInt8) {tsid : UInt8}
    (h : tsid.toNat<16) : Safe len (deletePstreamLog env ac tsid) := by
  by_cases hac : ac.toNat<WmmStream.wmmNumAc
  · by_cases halloc : env.alloc = true
    · simp [deletePstreamLog, WmmStream.toAc, hac, halloc, safe_acSlot_iff, safe_tsidSlot len h]
    · simp [deletePstreamLog, WmmStream.toAc, hac, halloc]
  · simp [deletePstreamLog, WmmStream.toAc, hac]

theorem tsid_lt (e : WmmStream.CacEvent) : e.tsid.toNat<16 := by
  simp only [WmmStream.CacEvent.tsid, UInt8.toNat_ofNat']
  omega

theorem lowestTsid_lt {activeTsids : BitVec 16} {index : Nat}
    (h : WmmStream.lowestTsid activeTsids = some index) : (UInt8.ofNat index).toNat<16 := by
  have hmem := List.mem_of_find?_eq_some h
  have hlt : index<16 := List.mem_range.mp hmem
  rw [UInt8.toNat_ofNat']
  omega

theorem activeLog_safe (s : WmmStream.Wmm) (env : WmmStream.Env) (ac : UInt8) :
    Safe len (activeLog s env ac) := by
  cases hac : WmmStream.toAc ac with
  | none => simp [activeLog, hac]
  | some i =>
    cases hlow : WmmStream.lowestTsid (s.streamExistForAc i) with
    | none => simp [activeLog, hac, hlow]
    | some index =>
      simpa [activeLog, hac, hlow] using deletePstreamLog_safe len env ac (lowestTsid_lt hlow)

theorem cac_safe_iff :
    Safe len (cacEventRx h env mem len).log ↔ SafeWhen h env mem len .cac := by
  by_cases hlen : len<cacEventSize
  · simp [cacEventRx, SafeWhen, hlen, safe_refused]
  have hfixed : 66 ≤ len := Nat.not_lt.mp hlen
  have hhead : 3 ≤ len := by omega
  have htsinfo : 11+2 ≤ len := by omega
  have hlog : ∀ log, Safe len (.read 0 3::log) ↔ Safe len log := fun _ => safe_cons_read hhead
  by_cases hresp : mem 1 = 1 ∧ mem 2 ≠ 0
  · have hind : (cacEvent mem).indication = .admissionResp := by
      simp [WmmStream.CacEvent.indication, cacEvent, hresp]
    have hdelete := 
      deletePstreamLog_safe len env (cacEvent mem).ac (tsid_lt (cacEvent mem))
    simp only [cacEventRx, if_neg hlen, hind, hlog]
    simp [SafeWhen, hresp.1, hdelete, htsinfo]
  by_cases hno : mem 1 = 3
  · have hind : (cacEvent mem).indication = .noResp := by
      simp [WmmStream.CacEvent.indication, cacEvent, hno]
    have hactive : Safe len (activeLog h.streams.wmm env (mem 0)) :=
      activeLog_safe h.streams.wmm env (mem 0)
    simp only [cacEventRx, if_neg hlen, hind, hlog]
    simp [SafeWhen, hlen, hno, safe_acSlot_iff, hactive, cacEvent]
  by_cases hdel : mem 1 = 2
  · have hind : (cacEvent mem).indication = .delete := by
      simp [WmmStream.CacEvent.indication, cacEvent, hdel]
    have htsid := safe_tsidSlot len (tsid_lt (cacEvent mem))
    simp only [cacEventRx, if_neg hlen, hind, hlog]
    have hac : (cacEvent mem).ac = mem 0 := rfl
    simp [SafeWhen, hlen, hdel, safe_acSlot_iff, htsid, htsinfo, hac]
  · have hind : (cacEvent mem).indication = .other := by
      have hnot : ¬(mem 1 = 1 ∧ mem 2 ≠ 0) := hresp
      simp [WmmStream.CacEvent.indication, cacEvent, hnot, hno, hdel]
    simp only [cacEventRx, if_neg hlen, hind, hlog]
    simp [SafeWhen, hno, hdel]

end Cac

section Pmkid

theorem le32_eq (mem : Memory) (pos : Nat) :
    le32 mem pos = (mem pos).toNat+256*((mem (pos+1)).toNat+256*((mem (pos+2)).toNat+
      256*(mem (pos+3)).toNat)) := by
  simp [le32, bytes, Lib.LittleEndian.value, List.range_succ]

theorem expectedLen_eq (n : Nat) : (4+22*n)%2^32 = expectedLen n := by
  rw [expectedLen, Nat.add_mod_mod, Nat.mul_comm]
  rfl

theorem expectedLen_of_le {n : Nat} (h : n ≤ 8) : expectedLen n = 4+22*n := by
  simp only [expectedLen, ethAlen, wmiPmkidLen]
  omega

theorem even_wrapped (n : Nat) : n*22%4294967296%2 = 0 := by omega

theorem two_of_wrapped {m : Nat} (heven : m%2 = 0) (hpos : 0<(4+m)%4294967296)
    (h : (4+m)%4294967296<4) : (4+m)%4294967296 = 2 := by
  have hparity : (4+m)%4294967296%2 = 0 := by omega
  generalize (4+m)%4294967296 = size at *
  omega

theorem low_of_wrapped {n : Nat} (h : (4+n*22%4294967296)%4294967296 = 2) : 0<n%65536 := by
  have hdvd : 65536 ∣ 4294967296 := ⟨65536, rfl⟩
  have hlow : (4+n*22)%65536 = 2 := by
    rw [Nat.add_mod, ← Nat.mod_mod_of_dvd (n*22) hdvd, ← Nat.add_mod,
      ← Nat.mod_mod_of_dvd _ hdvd, h]
  clear h
  omega

theorem expectedLen_small {n : Nat} (hpos : 0<expectedLen n) (h : expectedLen n<4) :
    expectedLen n = 2 ∧ 0<n%65536 := by
  have htwo : expectedLen n = 2 := two_of_wrapped (even_wrapped n) hpos h
  exact ⟨htwo, low_of_wrapped htwo⟩

theorem le32_copied {mem buf : Memory} {n : Nat} (h : 4 ≤ n) :
    le32 (fun i => if i<n then mem i else buf i) 0 = le32 mem 0 := by
  have h0 : 0<n := by omega
  have h1 : 1<n := by omega
  have h2 : 2<n := by omega
  have h3 : 3<n := by omega
  simp only [le32_eq, Nat.zero_add, h0, h1, h2, h3, if_true]

theorem le32_copied_two (mem buf : Memory) :
    le32 mem 0%65536 ≤ le32 (fun i => if i<2 then mem i else buf i) 0 := by
  have hb := (mem 0).toNat_lt
  have hb' := (mem 1).toNat_lt
  simp only [le32_eq, Nat.zero_add, Nat.reduceLT, if_true]
  omega

theorem count_le_iff {mem : Memory} (buf : Memory) (hpos : 0<expectedLen (le32 mem 0))
    (hmax : expectedLen (le32 mem 0) ≤ maxPmkidListSize) :
    le32 (fun i => if i<expectedLen (le32 mem 0) then mem i else buf i) 0 ≤
        (expectedLen (le32 mem 0)-4)/(ethAlen+wmiPmkidLen) ↔
      le32 mem 0 ≤ 8 := by
  have hpair : ethAlen+wmiPmkidLen = 22 := rfl
  have hmax' : expectedLen (le32 mem 0) ≤ 180 := hmax
  rw [hpair]
  by_cases hcount : le32 mem 0 ≤ 8
  · have hexact := expectedLen_of_le hcount
    rw [le32_copied (by omega), hexact]
    omega
  · by_cases hfour : 4 ≤ expectedLen (le32 mem 0)
    · rw [le32_copied hfour]
      omega
    · obtain ⟨htwo, hlow⟩ := expectedLen_small hpos (Nat.not_le.mp hfour)
      have hle := le32_copied_two mem buf
      rw [htwo]
      omega

theorem getPmkidList_safe_iff :
    Safe len (getPmkidListEventRx h mem len).log ↔ SafeWhen h env mem len .getPmkidList := by
  by_cases hlen : len<pmkidListReplySize
  · simp [getPmkidListEventRx, SafeWhen, hlen, safe_refused]
  have hfour : 4 ≤ len := by
    simp only [pmkidListReplySize] at hlen
    omega
  simp only [SafeWhen, expectedLen_eq, hlen, false_or]
  by_cases hin : expectedLen (le32 mem 0) ≤ len
  · by_cases hmax : expectedLen (le32 mem 0) ≤ maxPmkidListSize
    · have hnot : ¬min len maxPmkidListSize<expectedLen (le32 mem 0) := by omega
      have hin' : ¬len<expectedLen (le32 mem 0) := Nat.not_lt.mpr hin
      by_cases hzero : expectedLen (le32 mem 0) = 0
      · simp [getPmkidListEventRx, hlen, hzero, hfour]
      · have hslot : expectedLen (le32 mem 0)-1 < maxPmkidListSize := by omega
        have hcount := count_le_iff h.pmkidListBuf (Nat.pos_of_ne_zero hzero) hmax
        simp [getPmkidListEventRx, hlen, hin', hin, hmax, hzero, hfour, hslot, hcount]
    · have hlong : min len maxPmkidListSize<expectedLen (le32 mem 0) := by omega
      refine iff_of_true ?_ (.inr (.inr hlong))
      simp [getPmkidListEventRx, hlen, Nat.not_lt.mpr hin, hmax, hfour]
  · have hlong : min len maxPmkidListSize<expectedLen (le32 mem 0) := by omega
    refine iff_of_true ?_ (.inr (.inr hlong))
    simp [getPmkidListEventRx, refused, hlen, Nat.not_le.mp hin, hfour]

end Pmkid

/-- Of an event of any content and length: its handler reads, indexes and counts as it must exactly
if the event is one of these. -/
theorem event_safe_iff (h : Host) (env : WmmStream.Env) (mem : Memory) (len : Nat) (e : Event) :
    Safe len (handle h env mem len e).log ↔ SafeWhen h env mem len e := by
  cases e with
  | noaInfo => exact noaInfo_safe_iff
  | discPeer => exact discPeer_safe_iff
  | neighborReport => exact iff_of_true neighborReport_safe trivial
  | aplist => exact iff_of_true aplist_safe trivial
  | getPmkidList => exact getPmkidList_safe_iff
  | pstreamTimeout => exact pstreamTimeout_safe_iff
  | cac => exact cac_safe_iff

def message (bs : List UInt8) : Memory := fun i => bs.getD i 0

def goHost : Host :=
  { streams := { wmm := { acStreamPriMap := fun ac => ac.val } }, p2pPs := some {} }

/-- A NoA descriptor and a peer that are announced and do not follow; 195225787 PMKIDs, whose size
is 22 in 32 bits; and classes that no table has. -/
theorem short_events_overrun :
    ¬Safe 2 (handle goHost {} (message [1, 1]) 2 .noaInfo).log ∧
    ¬Safe 2 (handle goHost {} (message [1, 0]) 2 .discPeer).log ∧
    ¬Safe 26 (handle goHost {} (message [0xbb, 0xe8, 0xa2, 0x0b]) 26 .getPmkidList).log ∧
    ¬Safe 4 (handle goHost {} (message [0, 0, 0, 4]) 4 .pstreamTimeout).log ∧
    ¬Safe 66 (handle goHost {} (message [4, 2]) 66 .cac).log := by
  decide

end Safety

end Ath6kl.WmiEvents
