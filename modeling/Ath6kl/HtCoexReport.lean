import Ath6kl.HtCoex
import Ath6kl.Lib.Distinct
import Ath6kl.Lib.Element
import Ath6kl.Lib.LittleEndian

/-! The 20/40 coexistence report (htcoex.c): what `ath6kl_htcoex_scan_complete_event` makes of the
frames that were recorded, against the elements of these frames. -/
namespace Ath6kl.HtCoex
open Lib.LittleEndian Lib.Tlv P2pRc
open Scan (ratemaskFull ratemaskHt20)

section Model

/-- `IEEE80211_HT_CAP_40MHZ_INTOLERANT`, `IEEE80211_COEX_IE_20_WIDTH_REQ`, the identifiers of the
two elements of the report, and `WLAN_CATEGORY_PUBLIC` with `WLAN_COEX_ACTION_2040COEX_MGMT`. -/
def htCap40MhzIntolerant : Nat := 0x4000
def coexIe20WidthReq : UInt8 := 0x04
def eidBssCoex2040 : UInt8 := 72
def eidIntolerantChanReport : UInt8 := 73
def categoryPublic : UInt8 := 4
def coexAction2040 : UInt8 := 0

/-- The table `chans` has as many entries. -/
def maxChans : Nat := 14

/-- `htcoex_coex_info`, of `chans` the first `num_chans`. -/
structure CoexInfo where
  intolerant40 : Nat := 0
  chans : List UInt8 := []
deriving DecidableEq

/-- Where `u.beacon.variable` is in a frame: behind the header and the fixed fields. -/
def variableAt : Nat := 24+12

/-- `frame_len - (24 + 12)` as the `u16` that it is passed for. -/
def BssInfo.area (b : BssInfo) : Nat := (((b.frameLen : Int) - variableAt) % 2^16).toNat

def BssInfo.htcap (b : BssInfo) : Walked (Option Nat) :=
  htcoexGetElem eidHtCapability b.rawFrame (some variableAt) b.area

/-- `cap_info` of the element whose bytes begin at `pos`. -/
def capInfo (mem : Memory) (pos : Nat) : Nat := value [mem pos, mem (pos+1)]

def capIntolerant (mem : Memory) (pos : Nat) : Bool := capInfo mem pos &&& htCap40MhzIntolerant != 0

/-- `htcoex_get_coexinfo`, and where in the frame it reads; `none`: `BUG_ON` of the number of
channels. -/
def htcoexGetCoexinfo (b : BssInfo) (info : CoexInfo) : Option CoexInfo × List Nat :=
  let chanId := frequencyToChannel b.channel.centerFreq
  match b.htcap.state with
  | some pos =>
    (some (if capIntolerant b.rawFrame pos then
        { info with intolerant40 := (info.intolerant40+1)%2^32 }
      else info), b.htcap.reads ++ [pos, pos+1])
  | none =>
    (if b.channel.band = .band2G then
      if info.chans.any fun c => (c.toNat : Int) == chanId then some info
      else if maxChans ≤ info.chans.length then none
      else some { info with chans := info.chans ++ [UInt8.ofInt chanId] }
    else some info, b.htcap.reads)

/-- `ath6kl_htcoex_bss_info`; `room`: the record and the frame can be had. -/
def htcoexBssInfo (infra : Bool) (bssid : List UInt8) (room : Bool) (b : BssInfo) (c : Coex) : Coex :=
  if !c.start || !infra || b.bssid == bssid then c
  else if c.bssInfoList.any fun d => d.bssid == b.bssid then c
  else if room then { c with bssInfoList := c.bssInfoList ++ [b] }
  else c

/-- One frame of the loop, with a log of what was read in which frame. -/
def evaluateStep (s : Option CoexInfo × List (BssInfo × Nat)) (b : BssInfo) :
    Option CoexInfo × List (BssInfo × Nat) :=
  match s.1 with
  | none => s
  | some info =>
    let r := htcoexGetCoexinfo b info
    (r.1, s.2 ++ r.2.map fun pos => (b, pos))

def evaluate (frames : List BssInfo) : Option CoexInfo × List (BssInfo × Nat) :=
  frames.foldl evaluateStep (some {}, [])

/-- Who asked for the scan that is complete. -/
inductive ScanReq where
  | user | htcoex
deriving DecidableEq

abbrev Mac := { a : List UInt8 // a.length = 6 }

structure Vif where
  infra : Bool
  scanReq : Option ScanReq
  bssid : Mac
  devAddr : Mac
  bssCh : Nat
  sendActionId : Nat

/-- The action frame of `htcoex_send_action`. -/
def actionFrame (vif : Vif) (info : CoexInfo) : List UInt8 :=
  [0xd0, 0x00] ++ [0, 0] ++ vif.bssid.val ++ vif.devAddr.val ++ vif.bssid.val ++ [0, 0] ++
  [categoryPublic, coexAction2040] ++
  [eidBssCoex2040, 1, if info.intolerant40 ≠ 0 then coexIe20WidthReq else 0] ++
  [eidIntolerantChanReport, UInt8.ofNat (info.chans.length+1), 0] ++ info.chans

/-- `len` of `htcoex_send_action`. -/
def actionLen (info : CoexInfo) : Nat := 24+2+3+3+info.chans.length

/-- `ath6kl_wmi_send_action_cmd`. -/
structure SendAction where
  id : Nat
  freq : Nat
  data : List UInt8
  dataLen : Nat

inductive Bug where
  | numChans | bssCh
deriving DecidableEq

/-- `htcoex_send_action`; `room`: the frame can be had. -/
def htcoexSendAction (vif : Vif) (room : Bool) (info : CoexInfo) : Except Bug (Option SendAction) :=
  if room then
    if vif.bssCh = 0 then .error .bssCh
    else .ok (some ⟨vif.sendActionId, vif.bssCh, actionFrame vif info, actionLen info⟩)
  else .ok none

/-- `htcoex_ht40_rateset`, and the rates that it sets. -/
def htcoexHt40Rateset (enabled : Bool) (c : Coex) : Coex × Option Nat :=
  let ratemask := if enabled then ratemaskFull else ratemaskHt20
  ({ c with currentRatemask := ratemask },
    if c.currentRatemask ≠ ratemask then some ratemask else none)

inductive ScanRet where
  | porc | pass
deriving DecidableEq

/-- What `ath6kl_htcoex_scan_complete_event` leaves and sends. -/
structure Completed where
  ret : ScanRet := .pass
  coex : Coex
  scanReq : Option ScanReq
  sendActionId : Nat
  sent : Option SendAction := none
  rates : Option Nat := none

def adjustRates (info : CoexInfo) (c : Coex) : Coex × Option Nat :=
  if info.intolerant40 ≠ 0 then
    let r := htcoexHt40Rateset false c
    ({ r.1 with tolerant40Cnt := 0 }, r.2)
  else if c.rateRollbackInterval ≠ 0 then
    let c := { c with tolerant40Cnt := c.tolerant40Cnt+1 }
    if c.rateRollbackInterval.toNat<c.tolerant40Cnt.toNat then htcoexHt40Rateset true c else (c, none)
  else (c, none)

/-- The frames are evaluated, whoever asked for the scan. -/
def Evaluates (vif : Vif) (c : Coex) : Bool := c.start && vif.infra && vif.scanReq.isSome

/-- The action frame is sent if there is something to tell. -/
def sendReport (vif : Vif) (room : Bool) (info : CoexInfo) : Except Bug (Option SendAction) :=
  if info.intolerant40 ≠ 0 ∨ info.chans ≠ [] then htcoexSendAction vif room info else .ok none

def complete (vif : Vif) (info : CoexInfo) (c : Coex) (action : Option SendAction) : Completed :=
  let r := adjustRates info c
  let own := vif.scanReq == some .htcoex
  { ret := if own then .porc else .pass
    coex := htcoexFlushBssInfo r.1
    scanReq := if own then none else vif.scanReq
    sendActionId := if action.isSome then (vif.sendActionId+1)%2^32 else vif.sendActionId
    sent := action
    rates := r.2 }

/-- `ath6kl_htcoex_scan_complete_event`, and what it reads of the frames. -/
def htcoexScanCompleteEvent (vif : Vif) (room : Bool) (c : Coex) :
    Except Bug Completed × List (BssInfo × Nat) :=
  if Evaluates vif c then
    let s := evaluate c.bssInfoList
    match s.1 with
    | none => (.error .numChans, s.2)
    | some info => ((sendReport vif room info).map (complete vif info c), s.2)
  else
    (.ok { coex := htcoexFlushBssInfo c, scanReq := vif.scanReq, sendActionId := vif.sendActionId },
      [])

end Model

section Properties

/-- The first HT capability element of a frame, among its whole elements. -/
def BssInfo.htElement (b : BssInfo) : Option Nat :=
  (wholes b.rawFrame b.frameLen variableAt).find? fun p => b.rawFrame p == eidHtCapability

/-- The element is long enough for the field. -/
def HasCapInfo (mem : Memory) (p : Nat) : Prop := 2 ≤ (mem (p+1)).toNat

instance (mem : Memory) (p : Nat) : Decidable (HasCapInfo mem p) :=
  inferInstanceAs (Decidable (_ ≤ _))

/-- The HT capability element of the BSS contains the bit. -/
def BssInfo.intolerant (b : BssInfo) : Bool :=
  b.htElement.any fun p => HasCapInfo b.rawFrame p ∧ capIntolerant b.rawFrame (p+2) = true

/-- A 2.4 GHz BSS without an HT capability element. -/
def BssInfo.legacy2ghz (b : BssInfo) : Bool := (b.channel.band == .band2G) && b.htElement.isNone

/-- Each time it is looked at, the BSS is counted iff it is intolerant. -/
def BssInfo.CountedRight (b : BssInfo) : Prop :=
  ∀ info info', (htcoexGetCoexinfo b info).1 = some info' →
    info'.intolerant40 = if b.intolerant then (info.intolerant40+1)%2^32 else info.intolerant40

def elementsAt : Nat := 24+2

/-- The channels of the first channel report of a frame. -/
def reported (frame : List UInt8) : Option (List UInt8) :=
  ((Lib.Element.split (frame.drop elementsAt)).find? fun x =>
    x.head? == some eidIntolerantChanReport).map (·.drop 3)

/-- The action frame is of the size that is told, its elements fill it, and its channels are those
of the legacy BSSs, each once. -/
structure FrameRight (frames : List BssInfo) (a : SendAction) : Prop where
  size : a.data.length = a.dataLen
  elements : (Lib.Element.split (a.data.drop elementsAt)).flatten = a.data.drop elementsAt
  chans : ∃ chans, reported a.data = some chans ∧ chans.Nodup ∧ ∀ x, x∈chans ↔
    ∃ b∈frames, b.legacy2ghz = true ∧ (x.toNat : Int) = frequencyToChannel b.channel.centerFreq

structure ReportRight (vif : Vif) (room : Bool) (c : Coex) : Prop where
  inside : ∀ e∈(htcoexScanCompleteEvent vif room c).2, e.2<e.1.frameLen
  bug : (htcoexScanCompleteEvent vif room c).1 ≠ .error .numChans
  counted : Evaluates vif c = true → ∀ b∈c.bssInfoList, b.CountedRight
  frame : ∀ done, (htcoexScanCompleteEvent vif room c).1 = .ok done →
    ∀ a∈done.sent, FrameRight c.bssInfoList a

/-- The frame has its fixed fields, and its HT capability element holds the field, or else the two
bytes in its place are in the frame and do not have the bit. -/
def BssInfo.Fits (b : BssInfo) : Prop :=
  variableAt ≤ b.frameLen ∧ ∀ p∈b.htElement, HasCapInfo b.rawFrame p ∨
    p+4 ≤ b.frameLen ∧ capIntolerant b.rawFrame (p+2) = false

end Properties

theorem toHtcoex_adjustRates (info : CoexInfo) (c : Coex) :
    (adjustRates info c).1.toHtcoex = c.toHtcoex.scanned (info.intolerant40 != 0) := by
  rw [adjustRates, Scan.Htcoex.scanned]
  by_cases hint : info.intolerant40 = 0
  · by_cases hroll : c.rateRollbackInterval = 0
    · simp [hint, hroll]
    · simp only [hint, hroll, ne_eq, not_true_eq_false, not_false_eq_true, if_true, if_false,
        bne_self_eq_false, Bool.false_eq_true]
      split_ifs <;> rfl
  · simp [hint, htcoexHt40Rateset, Scan.Htcoex.rateset]

/-- The networks recorded are different, and none of them is the own one. -/
theorem bssInfo_distinct {c : Coex} {bssid : List UInt8}
    (h : (bssid::c.bssInfoList.map (·.bssid)).Nodup) (infra room : Bool) (b : BssInfo) :
    (bssid::(htcoexBssInfo infra bssid room b c).bssInfoList.map (·.bssid)).Nodup := by
  rw [htcoexBssInfo]
  split_ifs with hown hmatch
  · exact h
  · exact h
  · have hne : b.bssid ≠ bssid := by
      intro heq
      simp [heq] at hown
    have hnew : b.bssid∉c.bssInfoList.map (·.bssid) := by
      intro hmem
      obtain ⟨d, hd, heq⟩ := List.mem_map.mp hmem
      exact hmatch (List.any_eq_true.mpr ⟨d, hd, by simpa using heq⟩)
    have hmem : b.bssid∉bssid::c.bssInfoList.map (·.bssid) := by
      simpa [hne] using hnew
    have happend := h.concat hmem
    simpa using happend
  · exact h

section Search
variable (elemId : UInt8) (mem : Memory) (pos len : Nat)

theorem getElem_state : (htcoexGetElem elemId mem (some pos) len).state =
    ((wholes mem (pos+len) pos).find? fun p => mem p == elemId).map (·+2) := by
  by_cases hlen : len = 0
  · simp [htcoexGetElem, hlen, wholes, wholesFrom]
  · simp only [htcoexGetElem, hlen, if_false, Walker.checkedWalk_state]
    exact Walker.visit_seeker _ _ _

theorem getElem_reads : ∀ r∈(htcoexGetElem elemId mem (some pos) len).reads, r<pos+len := by
  by_cases hlen : len = 0
  · simp [htcoexGetElem, hlen]
  · simp only [htcoexGetElem, hlen, if_false]
    have hwhole : ∀ p∈wholes mem (pos+len) pos, p<pos+len := by
      intro p hp
      have hlt := lt_next mem p
      have hle := next_le_of_mem_wholes hp
      omega
    refine ((elemWalker elemId mem).checkedWalk_reads mem (pos+len) pos none).mpr ?_
    refine Walker.visit_seeker_reads _ _ hwhole fun p hp r hr => ?_
    rw [List.mem_singleton.mp hr]
    exact hwhole p (List.mem_of_find?_eq_some hp)

theorem getElem_reads_first (h : 2 ≤ len) :
    pos+1∈(htcoexGetElem elemId mem (some pos) len).reads := by
  have hlen : len ≠ 0 := by omega
  have hp : pos+1<pos+len := by omega
  simp only [htcoexGetElem, hlen, if_false]
  exact Walker.checkedWalk_reads_first _ mem hp none

end Search

section Frame
variable (b : BssInfo)

theorem area_of_long (h : variableAt ≤ b.frameLen) : variableAt+b.area = b.frameLen := by
  have hu := b.u16
  simp only [BssInfo.area, variableAt] at h ⊢
  omega

theorem htcap_state (h : variableAt ≤ b.frameLen) : b.htcap.state = b.htElement.map (·+2) := by
  rw [BssInfo.htcap, getElem_state, area_of_long b h, BssInfo.htElement]

theorem htcap_reads (h : variableAt ≤ b.frameLen) : ∀ r∈b.htcap.reads, r<b.frameLen := by
  have hreads := getElem_reads eidHtCapability b.rawFrame variableAt b.area
  rwa [area_of_long b h] at hreads

theorem htcap_reads_short (h : b.frameLen < variableAt) : ∃ r∈b.htcap.reads, b.frameLen ≤ r := by
  have harea : 2 ≤ b.area := by
    simp only [BssInfo.area, variableAt] at h ⊢
    omega
  have hread : variableAt+1∈b.htcap.reads := getElem_reads_first _ _ _ _ harea
  exact ⟨variableAt+1, hread, Nat.le_succ_of_le (Nat.le_of_lt h)⟩

/-- What `htcoex_get_coexinfo` reads in the frame. -/
def BssInfo.reads : List Nat :=
  b.htcap.reads ++ match b.htcap.state with
    | some pos => [pos, pos+1]
    | none => []

theorem getCoexinfo_some {pos : Nat} (h : b.htcap.state = some pos) (info : CoexInfo) :
    htcoexGetCoexinfo b info =
      (some (if capIntolerant b.rawFrame pos then
          { info with intolerant40 := (info.intolerant40+1)%2^32 }
        else info), b.reads) := by
  simp only [htcoexGetCoexinfo, BssInfo.reads, h]

theorem getCoexinfo_reads (info : CoexInfo) : (htcoexGetCoexinfo b info).2 = b.reads := by
  cases h : b.htcap.state with
  | some pos => rw [getCoexinfo_some b h]
  | none => simp only [htcoexGetCoexinfo, BssInfo.reads, h, List.append_nil]

theorem getCoexinfo_none_count (h : b.htcap.state = none) {info info' : CoexInfo}
    (hinfo : (htcoexGetCoexinfo b info).1 = some info') :
    info'.intolerant40 = info.intolerant40 := by
  simp only [htcoexGetCoexinfo, h] at hinfo
  split_ifs at hinfo <;> cases hinfo <;> rfl

theorem reads_inside_iff : (∀ r∈b.reads, r<b.frameLen) ↔
    variableAt ≤ b.frameLen ∧ ∀ p∈b.htElement, p+4 ≤ b.frameLen := by
  by_cases hlong : variableAt ≤ b.frameLen
  · have hstate := htcap_state b hlong
    have hreads := htcap_reads b hlong
    cases hel : b.htElement with
    | none =>
      have hnone : b.htcap.state = none := by simp [hstate, hel]
      simpa [BssInfo.reads, hnone, hlong] using hreads
    | some p =>
      have hsome : b.htcap.state = some (p+2) := by simp [hstate, hel]
      simp only [BssInfo.reads, hsome, List.forall_mem_append, List.forall_mem_cons]
      constructor
      · rintro ⟨-, -, hlast, -⟩
        refine ⟨hlong, fun q hq => ?_⟩
        obtain rfl : p = q := by simpa using hq
        omega
      · rintro ⟨-, hp⟩
        have hle := hp p rfl
        exact ⟨hreads, by omega, by omega, by simp⟩
  · constructor
    · intro h
      obtain ⟨r, hr, hle⟩ := htcap_reads_short b (by omega)
      have hlt := h r (List.mem_append_left _ hr)
      omega
    · intro h
      exact absurd h.1 hlong

theorem countedRight_iff (hlong : variableAt ≤ b.frameLen) : b.CountedRight ↔
    ∀ p∈b.htElement, HasCapInfo b.rawFrame p ∨ capIntolerant b.rawFrame (p+2) = false := by
  have hstate := htcap_state b hlong
  cases hel : b.htElement with
  | none =>
    have hnone : b.htcap.state = none := by simp [hstate, hel]
    have hint : b.intolerant = false := by simp [BssInfo.intolerant, hel]
    have hcounted : b.CountedRight := by
      intro info info' h
      rw [hint]
      exact getCoexinfo_none_count b hnone h
    simpa using hcounted
  | some p =>
    have hsome : b.htcap.state = some (p+2) := by simp [hstate, hel]
    have hint : b.intolerant =
        (decide (HasCapInfo b.rawFrame p) && capIntolerant b.rawFrame (p+2)) := by
      simp [BssInfo.intolerant, hel]
    simp only [BssInfo.CountedRight, getCoexinfo_some b hsome, hint, Option.mem_def,
      Option.some.injEq, forall_eq']
    by_cases hcap : HasCapInfo b.rawFrame p
    · cases hbit : capIntolerant b.rawFrame (p+2) <;> simp [hcap]
    · cases hbit : capIntolerant b.rawFrame (p+2) with
      | false => simp
      | true =>
        simp only [hcap, decide_false, Bool.false_and, if_true, Bool.false_eq_true, if_false]
        constructor
        · intro h
          exact absurd (h {}) (by decide)
        · rintro (h | h)
          · exact h.elim
          · simp at h

theorem fits_iff : b.Fits ↔ (∀ r∈b.reads, r<b.frameLen) ∧ b.CountedRight := by
  rw [reads_inside_iff]
  by_cases hlong : variableAt ≤ b.frameLen
  · rw [countedRight_iff b hlong, BssInfo.Fits]
    have hwhole : ∀ p∈b.htElement, HasCapInfo b.rawFrame p → p+4 ≤ b.frameLen := by
      intro p hp hcap
      have hnext := next_le_of_mem_wholes (List.mem_of_find?_eq_some hp)
      rw [next] at hnext
      rw [HasCapInfo] at hcap
      omega
    constructor
    · rintro ⟨-, h⟩
      refine ⟨⟨hlong, fun p hp => ?_⟩, fun p hp => (h p hp).imp_right And.right⟩
      rcases h p hp with hcap | hfield
      · exact hwhole p hp hcap
      · exact hfield.1
    · rintro ⟨⟨-, hin⟩, hbit⟩
      exact ⟨hlong, fun p hp => (hbit p hp).imp_right fun hb => ⟨hin p hp, hb⟩⟩
  · constructor
    · intro h
      exact absurd h.1 hlong
    · intro h
      exact absurd h.1.1 hlong

end Frame

section Loop
open Lib.Distinct

def allChans : List UInt8 := (List.range maxChans).map fun i => UInt8.ofNat (i+1)

def BssInfo.chan (b : BssInfo) : UInt8 := UInt8.ofInt (frequencyToChannel b.channel.centerFreq)

/-- A 2.4 GHz BSS in which the search found no element. -/
def BssInfo.unmarked (b : BssInfo) : Prop := b.channel.band = .band2G ∧ b.htcap.state = none

theorem chan_known (b : BssInfo) (h : b.channel.band = .band2G) :
    b.chan∈allChans ∧ (b.chan.toNat : Int) = frequencyToChannel b.channel.centerFreq := by
  have hall : ∀ freq∈channels2ghz, UInt8.ofInt (frequencyToChannel freq)∈allChans ∧
      ((UInt8.ofInt (frequencyToChannel freq)).toNat : Int) = frequencyToChannel freq := by
    decide
  exact hall b.channel.centerFreq (b.known h)

theorem any_chan {b : BssInfo} (h : b.channel.band = .band2G) (xs : List UInt8) :
    (xs.any fun c => (c.toNat : Int) == frequencyToChannel b.channel.centerFreq) = true ↔
      b.chan∈xs := by
  rw [← (chan_known b h).2, List.any_eq_true]
  constructor
  · rintro ⟨c, hc, heq⟩
    have hbyte : c = b.chan := UInt8.toNat_inj.mp (by simpa using heq)
    exact hbyte ▸ hc
  · intro hc
    exact ⟨b.chan, hc, by simp⟩

theorem getCoexinfo_unmarked {b : BssInfo} (h : b.unmarked) (info : CoexInfo) :
    (htcoexGetCoexinfo b info).1 =
      (add maxChans info.chans b.chan).map fun xs => { info with chans := xs } := by
  simp only [htcoexGetCoexinfo, h.1, h.2, if_true, any_chan h.1, add]
  split_ifs <;> rfl

theorem getCoexinfo_marked {b : BssInfo} (h : ¬b.unmarked) (info : CoexInfo) :
    ∃ info', (htcoexGetCoexinfo b info).1 = some info' ∧ info'.chans = info.chans := by
  cases hstate : b.htcap.state with
  | some pos =>
    rw [getCoexinfo_some b hstate]
    refine ⟨_, rfl, ?_⟩
    split_ifs <;> rfl
  | none =>
    have hband : b.channel.band ≠ .band2G := fun hb => h ⟨hb, hstate⟩
    exact ⟨info, by simp only [htcoexGetCoexinfo, hstate, hband, if_false], rfl⟩

/-- After these frames: the channels of those without the element, each once, and what was read. -/
structure Evaluated (fs : List BssInfo) (s : Option CoexInfo × List (BssInfo × Nat)) : Prop where
  info : ∃ info, s.1 = some info ∧ Within allChans info.chans ∧
    ∀ x, x∈info.chans ↔ ∃ b∈fs, b.unmarked ∧ x = b.chan
  log : s.2 = fs.flatMap fun b => b.reads.map fun pos => (b, pos)

theorem evaluated_step {fs : List BssInfo} {s : Option CoexInfo × List (BssInfo × Nat)}
    (h : Evaluated fs s) (b : BssInfo) : Evaluated (fs ++ [b]) (evaluateStep s b) := by
  obtain ⟨info, hs, hwithin, hmem⟩ := h.info
  have hlog : (evaluateStep s b).2 =
      (fs ++ [b]).flatMap fun b => b.reads.map fun pos => (b, pos) := by
    simp [evaluateStep, hs, h.log, getCoexinfo_reads]
  have hstep : (evaluateStep s b).1 = (htcoexGetCoexinfo b info).1 := by
    simp [evaluateStep, hs]
  refine ⟨?_, hlog⟩
  by_cases hb : b.unmarked
  · have hall : allChans.length ≤ maxChans := by decide
    obtain ⟨ys, hadd, hys, hnew⟩ := hwithin.add hall (chan_known b hb.1).1
    refine ⟨{ info with chans := ys }, ?_, hys, fun x => ?_⟩
    · rw [hstep, getCoexinfo_unmarked hb, hadd, Option.map_some]
    · simp [hnew, hmem, or_and_right, exists_or, hb]
  · obtain ⟨info', hinfo', hchans⟩ := getCoexinfo_marked hb info
    refine ⟨info', hstep.trans hinfo', hchans ▸ hwithin, fun x => ?_⟩
    rw [hchans]
    simp [hmem, or_and_right, exists_or, hb]

theorem evaluated (frames : List BssInfo) : Evaluated frames (evaluate frames) := by
  have hrun : ∀ fs s, Evaluated fs s → Evaluated (fs ++ frames) (frames.foldl evaluateStep s) := by
    induction frames with
    | nil => simp
    | cons b frames ih =>
      intro fs s h
      simpa using ih _ _ (evaluated_step h b)
  have hnil : Evaluated [] (some {}, []) := ⟨⟨{}, rfl, within_nil _, by simp⟩, by simp⟩
  exact hrun [] _ hnil

end Loop

section Action
variable (vif : Vif) (info : CoexInfo)

def coexElement : List UInt8 :=
  [eidBssCoex2040, 1, if info.intolerant40 ≠ 0 then coexIe20WidthReq else 0]

def chanReport : List UInt8 :=
  [eidIntolerantChanReport, UInt8.ofNat (info.chans.length+1), 0] ++ info.chans

theorem action_size : (actionFrame vif info).length = actionLen info := by
  simp only [actionFrame, actionLen, List.length_append, List.length_cons, List.length_nil,
    vif.bssid.property, vif.devAddr.property]

theorem action_elements :
    (actionFrame vif info).drop elementsAt = [coexElement info, chanReport info].flatten := by
  have hhead : ([0xd0, 0x00] ++ [0, 0] ++ vif.bssid.val ++ vif.devAddr.val ++ vif.bssid.val ++
      [0, 0] ++ [categoryPublic, coexAction2040]).length = elementsAt := by
    simp [elementsAt, vif.bssid.property, vif.devAddr.property]
  have hframe : actionFrame vif info = ([0xd0, 0x00] ++ [0, 0] ++ vif.bssid.val ++
      vif.devAddr.val ++ vif.bssid.val ++ [0, 0] ++ [categoryPublic, coexAction2040]) ++
      [coexElement info, chanReport info].flatten := by
    simp [actionFrame, coexElement, chanReport]
  rw [hframe, List.drop_left' hhead]

theorem action_items (h : info.chans.length ≤ maxChans) :
    ∀ x∈[coexElement info, chanReport info], Lib.Element.Item x := by
  rw [maxChans] at h
  intro x hx
  rcases List.mem_cons.mp hx with rfl | hx
  · exact ⟨_, _, _, rfl, rfl⟩
  · rw [List.mem_singleton.mp hx]
    refine ⟨_, _, _, rfl, ?_⟩
    have hmod : (info.chans.length+1) % 2^8 = info.chans.length+1 := Nat.mod_eq_of_lt (by omega)
    simpa using hmod.symm

theorem action_reported (h : info.chans.length ≤ maxChans) :
    reported (actionFrame vif info) = some info.chans := by
  rw [reported, action_elements, Lib.Element.split_flatten (action_items info h)]
  simp [coexElement, chanReport, eidBssCoex2040, eidIntolerantChanReport]

end Action

section Report

theorem unmarked_iff {b : BssInfo} (h : b.Fits) : b.unmarked ↔ b.legacy2ghz = true := by
  have hstate := htcap_state b h.1
  rw [BssInfo.unmarked, BssInfo.legacy2ghz, hstate]
  simp

theorem frame_right {frames : List BssInfo} (vif : Vif) {info : CoexInfo}
    (hfits : ∀ b∈frames, b.Fits) (hwithin : Lib.Distinct.Within allChans info.chans)
    (hmem : ∀ x, x∈info.chans ↔ ∃ b∈frames, b.unmarked ∧ x = b.chan) (id freq : Nat) :
    FrameRight frames ⟨id, freq, actionFrame vif info, actionLen info⟩ := by
  have hlen : info.chans.length ≤ maxChans := hwithin.length_le.trans (by decide)
  refine ⟨action_size vif info, ?_, info.chans, action_reported vif info hlen, hwithin.nodup, ?_⟩
  · rw [action_elements, Lib.Element.split_flatten (action_items info hlen)]
  · intro x
    rw [hmem]
    refine exists_congr fun b => and_congr_right fun hb => ?_
    rw [unmarked_iff (hfits b hb)]
    refine and_congr_right fun hlegacy => ?_
    have hband : b.channel.band = .band2G := ((unmarked_iff (hfits b hb)).mpr hlegacy).1
    rw [← (chan_known b hband).2]
    constructor
    · rintro rfl
      rfl
    · intro hx
      exact UInt8.toNat_inj.mp (by exact_mod_cast hx)

theorem sendReport_cases (vif : Vif) (room : Bool) (info : CoexInfo) :
    sendReport vif room info ≠ .error .numChans ∧ ∀ a, sendReport vif room info = .ok (some a) →
      a = ⟨vif.sendActionId, vif.bssCh, actionFrame vif info, actionLen info⟩ := by
  rw [sendReport, htcoexSendAction]
  split_ifs
  · simp
  · simp [eq_comm]
  · simp
  · simp

/-- An evaluation reads what it reads of each frame, does not trip over the number of channels, and
sends nothing but its action frame. -/
structure Report (vif : Vif) (room : Bool) (c : Coex) (info : CoexInfo) : Prop where
  within : Lib.Distinct.Within allChans info.chans
  chans : ∀ x, x∈info.chans ↔ ∃ b∈c.bssInfoList, b.unmarked ∧ x = b.chan
  log : (htcoexScanCompleteEvent vif room c).2 =
    c.bssInfoList.flatMap fun b => b.reads.map fun pos => (b, pos)
  bug : (htcoexScanCompleteEvent vif room c).1 ≠ .error .numChans
  sent : ∀ done, (htcoexScanCompleteEvent vif room c).1 = .ok done → ∀ a∈done.sent,
    a = ⟨vif.sendActionId, vif.bssCh, actionFrame vif info, actionLen info⟩

theorem report_of_evaluates {vif : Vif} {c : Coex} (he : Evaluates vif c = true) (room : Bool) :
    ∃ info, Report vif room c info := by
  obtain ⟨info, hinfo, hwithin, hmem⟩ := (evaluated c.bssInfoList).info
  obtain ⟨hbug, hsent⟩ := sendReport_cases vif room info
  have hscan : htcoexScanCompleteEvent vif room c =
      ((sendReport vif room info).map (complete vif info c), (evaluate c.bssInfoList).2) := by
    simp [htcoexScanCompleteEvent, he, hinfo]
  refine ⟨info, hwithin, hmem, ?_, ?_, ?_⟩
  · rw [hscan]
    exact (evaluated c.bssInfoList).log
  · rw [hscan]
    cases hact : sendReport vif room info with
    | error e => simpa [Except.map, hact] using hbug
    | ok action => simp [Except.map]
  · intro done hdone a ha
    rw [hscan] at hdone
    cases hact : sendReport vif room info with
    | error e => simp [Except.map, hact] at hdone
    | ok action =>
      simp only [Except.map, hact, Except.ok.injEq] at hdone
      have haction : action = some a := by simpa [← hdone, complete] using ha
      exact hsent a (hact.trans (congrArg _ haction))

/-- The report is as it should be exactly when the frames that it is made of fit. -/
theorem report_right_iff (vif : Vif) (room : Bool) (c : Coex) :
    ReportRight vif room c ↔ (Evaluates vif c = true → ∀ b∈c.bssInfoList, b.Fits) := by
  cases he : Evaluates vif c with
  | false =>
    have hscan : htcoexScanCompleteEvent vif room c =
        (.ok { coex := htcoexFlushBssInfo c, scanReq := vif.scanReq,
               sendActionId := vif.sendActionId }, []) := by
      simp [htcoexScanCompleteEvent, he]
    have hright : ReportRight vif room c := by
      refine ⟨by simp [hscan], by simp [hscan], by simp [he], fun done hdone a ha => ?_⟩
      simp only [hscan, Except.ok.injEq] at hdone
      rw [← hdone] at ha
      simp at ha
    simpa using hright
  | true =>
    obtain ⟨info, h⟩ := report_of_evaluates he room
    constructor
    · intro hright _ b hb
      refine (fits_iff b).mpr ⟨fun r hr => ?_, hright.counted he b hb⟩
      have hread : (b, r)∈(htcoexScanCompleteEvent vif room c).2 := by
        rw [h.log]
        exact List.mem_flatMap.mpr ⟨b, hb, List.mem_map_of_mem hr⟩
      exact hright.inside (b, r) hread
    · intro hfits
      refine ⟨fun e hread => ?_, h.bug, fun _ b hb => ((fits_iff b).mp (hfits rfl b hb)).2,
        fun done hdone a ha => ?_⟩
      · rw [h.log] at hread
        obtain ⟨b, hb, hmap⟩ := List.mem_flatMap.mp hread
        obtain ⟨r, hr, rfl⟩ := List.mem_map.mp hmap
        exact ((fits_iff b).mp (hfits rfl b hb)).1 r hr
      · rw [h.sent done hdone a ha]
        exact frame_right vif (hfits rfl) h.within h.chans _ _

def frameOf (ies : List UInt8) (h : variableAt+ies.length < 2^16) : BssInfo :=
  { rawFrame := fun i => if i<variableAt then 0 else ies.getD (i-variableAt) 0
    frameLen := variableAt+ies.length
    bssid := List.replicate 6 0
    channel := ⟨.band2G, 2412⟩
    u16 := h
    known := fun _ => by decide }

def scanVif : Vif :=
  ⟨true, some .htcoex, ⟨List.replicate 6 0, rfl⟩, ⟨List.replicate 6 0, rfl⟩, 2412, 0⟩

def recorded (b : BssInfo) : Coex := { start := true, bssInfoList := [b] }

/-- An HT capability element of length 0 at the end of a frame: its field is read behind the frame.
Before another element, the field is taken from that, and the BSS is counted. -/
theorem short_ht_element_misread :
    ¬ReportRight scanVif true (recorded (frameOf [eidHtCapability, 0] (by decide))) ∧
    ¬ReportRight scanVif true (recorded (frameOf [eidHtCapability, 0, 0, 0x40] (by decide))) := by
  refine ⟨fun h => ?_, fun h => ?_⟩
  · let b := frameOf [eidHtCapability, 0] (by decide)
    have heval : Evaluates scanVif (recorded b) = true := rfl
    obtain ⟨info, hreport⟩ := report_of_evaluates heval true
    have hread : (b, 39)∈(htcoexScanCompleteEvent scanVif true (recorded b)).2 := by
      rw [hreport.log]
      refine List.mem_flatMap.mpr ⟨b, List.mem_singleton_self b, List.mem_map_of_mem ?_⟩
      decide
    exact absurd (h.inside (b, 39) hread) (by decide)
  · have hcount := h.counted rfl _ (List.mem_singleton_self _) {} ⟨1, []⟩ (by decide)
    exact absurd hcount (by decide)

end Report

end Ath6kl.HtCoex
