import Ath6kl.HtcCredit
import Ath6kl.Lib.LittleEndian

/-! The header and the trailer of a frame received over the mailbox (htc.c):
`ath6kl_htc_rx_process_hdr`, `htc_proc_trailer`, `htc_parse_trailer` and `htc_proc_cred_rpt`,
with every access to the buffer, to the look-ahead array and to the endpoint table. Debug output
is left out. -/
namespace Ath6kl.HtcTrailer
open Htc Lib.LittleEndian

/-- `-ENOMEM`, `-EINVAL`. -/
def enomem : Int := -12
def einval : Int := -22

/-- `HTC_RECORD_CREDITS`, `HTC_RECORD_LOOKAHEAD`, `HTC_RECORD_LOOKAHEAD_BUNDLE`. -/
def htcRecordCredits : Nat := 1
def htcRecordLookahead : Nat := 2
def htcRecordLookaheadBundle : Nat := 3

/-- The sizes of `struct htc_record_hdr`, `htc_credit_report`, `htc_lookahead_report` and
`htc_bundle_lkahd_rpt`. -/
def recordHdrSize : Nat := 2
def creditReportSize : Nat := 2
def lookaheadReportSize : Nat := 6
def bundleLkahdRptSize : Nat := 4

def htcHostMaxMsgPerBundle : Nat := 8

/-- `HTC_FLG_RX_TRAILER`, as a bit. -/
def htcFlgRxTrailer : Nat := 1

/-- The memory from `packet->buf` on. -/
abbrev Memory := Nat → UInt8

/-- What the functions touch: the offsets they read, the indices of `target->endpoint`, the
entries of `next_lk_ahds` they write, and the reports whose credits they count. -/
structure Log where
  reads : List Nat := []
  endpoints : List Nat := []
  lkAhds : List (Nat × List UInt8) := []
  reports : List CreditReport := []

def Log.read (g : Log) (offsets : List Nat) : Log := { g with reads := g.reads ++ offsets }

/-- `memcpy` of four bytes into `next_lk_ahds[i]`. -/
def Log.lkAhd (g : Log) (mem : Memory) (i off : Nat) : Log :=
  { g with
    reads := g.reads ++ [off, off+1, off+2, off+3]
    lkAhds := g.lkAhds ++ [(i, [mem off, mem (off+1), mem (off+2), mem (off+3)])] }

/-- The loop of `htc_proc_cred_rpt`, with `n` entries to go from `off`. -/
def procCredRpt (mem : Memory) : Nat → Nat → Log → Log
  | 0, _, g => g
  | n+1, off, g =>
    let eid := (mem off).toNat
    let g := g.read [off]
    if eid ≥ endpointMax then g
    else
      procCredRpt mem n (off+creditReportSize)
        { g.read [off+1] with
          endpoints := g.endpoints ++ [eid]
          reports := g.reports ++ [⟨eid, (mem (off+1)).toNat⟩] }

/-- The loop over the entries of a bundle report, from entry `i` on. -/
def bundleLkAhds (mem : Memory) : Nat → Nat → Nat → Log → Log
  | 0, _, _, g => g
  | n+1, i, off, g => bundleLkAhds mem n (i+1) (off+bundleLkahdRptSize) (g.lkAhd mem i off)

/-- The log, `*n_lk_ahds` and the status. -/
structure Parsed where
  log : Log
  nLkAhds : Nat
  status : Int := 0

/-- `htc_parse_trailer` for a record of type `recId` whose `len` bytes begin at `off`; `wanted`
says that `next_lk_ahds` is not `NULL`. -/
def parseTrailer (mem : Memory) (recId len off : Nat) (wanted : Bool) (g : Log) (nLkAhds : Nat) :
    Parsed :=
  if recId = htcRecordCredits then
    let n := len / creditReportSize
    if n = 0 then ⟨g, nLkAhds, einval⟩ else { log := procCredRpt mem n off g, nLkAhds := nLkAhds }
  else if recId = htcRecordLookahead then
    let n := len / lookaheadReportSize
    if n = 0 then ⟨g, nLkAhds, einval⟩
    else
      let g := g.read [off, off+5]
      if mem off = ~~~mem (off+5) && wanted then { log := g.lkAhd mem 0 (off+1), nLkAhds := 1 }
      else { log := g, nLkAhds := nLkAhds }
  else if recId = htcRecordLookaheadBundle then
    let n := len / bundleLkahdRptSize
    if n = 0 ∨ n > htcHostMaxMsgPerBundle then ⟨g, nLkAhds, einval⟩
    else if wanted then { log := bundleLkAhds mem n 0 off g, nLkAhds := n }
    else { log := g, nLkAhds := nLkAhds }
  else { log := g, nLkAhds := nLkAhds }

/-- The record at `off`, whose length has been read. -/
def procRecord (mem : Memory) (wanted : Bool) (off : Nat) (g : Log) (nLkAhds : Nat) : Parsed :=
  parseTrailer mem (mem off).toNat (mem (off+1)).toNat (off+recordHdrSize) wanted (g.read [off])
    nLkAhds

/-- `htc_proc_trailer` over `len` bytes from `off`; `none` if the fuel runs out. -/
def procTrailer (mem : Memory) (wanted : Bool) : Nat → Nat → Nat → Log → Nat → Option Parsed
  | 0, _, _, _, _ => none
  | fuel+1, off, len, g, nLkAhds =>
    if len = 0 then some { log := g, nLkAhds := nLkAhds }
    else if len < recordHdrSize then some ⟨g, nLkAhds, enomem⟩
    else
      let g := g.read [off+1]
      let recLen := (mem (off+1)).toNat
      if recLen > len - recordHdrSize then some ⟨g, nLkAhds, enomem⟩
      else
        let p := procRecord mem wanted off g nLkAhds
        if p.status ≠ 0 then some p
        else
          procTrailer mem wanted fuel (off+recordHdrSize+recLen) (len-recordHdrSize-recLen) p.log
            p.nLkAhds

/-- `payld_len` of a header. -/
def payldLen (mem : Memory) : Nat := value [mem 2, mem 3]

/-- A packet as `ath6kl_htc_rx_setup` and `htc_wait_for_ctrl_msg` prepare it: the length of one
that is not refreshed is that of the header expected. `exp_hdr` is in the order of its bytes. -/
structure RxPacket where
  endpoint : Nat
  bufLen : Nat
  actLen : Nat
  expHdr : UInt8 × UInt8 × UInt8 × UInt8
  refreshHdr : Bool := false
  ignoreLookahead : Bool := false
  sized : refreshHdr = false → actLen = value [expHdr.2.2.1, expHdr.2.2.2] + htcHdrLength

/-- `act_len`, the offset of `buf`, and what the parsing left. -/
structure Processed where
  actLen : Nat
  buf : Nat := 0
  parsed : Parsed

/-- `ath6kl_htc_rx_process_hdr`; `wanted`: `next_lkahds` and `n_lkahds` are not `NULL`. -/
def processHdr (mem : Memory) (wanted : Bool) (fuel : Nat) (p : RxPacket) : Option Processed :=
  let g : Log := { reads := [2, 3, 0, 1, 2, 3] }
  let payloadLen := payldLen mem
  let lkAhd := (mem 0, mem 1, mem 2, mem 3)
  let expHdr := if p.refreshHdr then lkAhd else p.expHdr
  let actLen := if p.refreshHdr then payloadLen + htcHdrLength else p.actLen
  if p.refreshHdr && decide (actLen > p.bufLen) then
    some { actLen := min actLen p.bufLen, parsed := ⟨g, 0, enomem⟩ }
  else
    let g := if p.refreshHdr then g.read [0] else g
    if p.refreshHdr && p.endpoint != (mem 0).toNat then
      some { actLen := actLen, parsed := ⟨g, 0, enomem⟩ }
    else if lkAhd ≠ expHdr then some { actLen := actLen, parsed := ⟨g, 0, enomem⟩ }
    else
      let g := g.read [1]
      if (mem 1).toNat.testBit htcFlgRxTrailer then
        let g := g.read [4]
        let ctrl := (mem 4).toNat
        if ctrl < recordHdrSize ∨ ctrl > payloadLen then
          some { actLen := actLen, parsed := ⟨g, 0, enomem⟩ }
        else
          (procTrailer mem (wanted && !p.ignoreLookahead) fuel (htcHdrLength + payloadLen - ctrl)
            ctrl g 0).map fun r =>
              if r.status ≠ 0 then { actLen := actLen, parsed := r }
              else { actLen := actLen - ctrl - htcHdrLength, buf := htcHdrLength, parsed := r }
      else
        some
          { actLen := actLen - htcHdrLength, buf := htcHdrLength
            parsed := { log := g, nLkAhds := 0 } }

/-- Every access lies within its object: the first `limit` bytes of the buffer, the endpoint
table, and an array of `HTC_HOST_MAX_MSG_PER_BUNDLE` look-aheads. -/
structure Log.Safe (limit : Nat) (g : Log) : Prop where
  reads : ∀ i∈g.reads, i<limit
  endpoints : ∀ e∈g.endpoints, e<endpointMax
  lkAhds : ∀ w∈g.lkAhds, w.1<htcHostMaxMsgPerBundle

section Safe
variable {limit : Nat} {g : Log}

theorem Log.Safe.read (h : g.Safe limit) {offsets : List Nat} (ho : ∀ i∈offsets, i<limit) :
    (g.read offsets).Safe limit :=
  { h with reads := List.forall_mem_append.mpr ⟨h.reads, ho⟩ }

theorem Log.Safe.lkAhd (h : g.Safe limit) (mem : Memory) {i off : Nat}
    (hi : i<htcHostMaxMsgPerBundle) (hoff : off+3<limit) : (g.lkAhd mem i off).Safe limit where
  reads := by
    refine List.forall_mem_append.mpr ⟨h.reads, ?_⟩
    simp only [List.forall_mem_cons]
    exact ⟨by omega, by omega, by omega, hoff, fun _ hx => (List.not_mem_nil hx).elim⟩
  endpoints := h.endpoints
  lkAhds := List.forall_mem_append.mpr ⟨h.lkAhds, List.forall_mem_singleton.mpr hi⟩

theorem procCredRpt_safe (mem : Memory) {n off : Nat} (hoff : off + creditReportSize*n ≤ limit)
    (h : g.Safe limit) : (procCredRpt mem n off g).Safe limit := by
  induction n generalizing off g with
  | zero => exact h
  | succ n ih =>
    have hsize : creditReportSize = 2 := rfl
    rw [Nat.mul_succ] at hoff
    have h1 : (g.read [off]).Safe limit :=
      h.read (List.forall_mem_singleton.mpr (by omega))
    simp only [procCredRpt]
    split_ifs with he
    · exact h1
    · have h2 : ((g.read [off]).read [off+1]).Safe limit :=
        h1.read (List.forall_mem_singleton.mpr (by omega))
      refine ih (by omega) ⟨h2.reads, ?_, h2.lkAhds⟩
      exact List.forall_mem_append.mpr
        ⟨h2.endpoints, List.forall_mem_singleton.mpr (Nat.lt_of_not_le he)⟩

theorem bundleLkAhds_safe (mem : Memory) {n i off : Nat}
    (hoff : off + bundleLkahdRptSize*n ≤ limit) (hi : i+n ≤ htcHostMaxMsgPerBundle)
    (h : g.Safe limit) : (bundleLkAhds mem n i off g).Safe limit := by
  induction n generalizing i off g with
  | zero => exact h
  | succ n ih =>
    have hsize : bundleLkahdRptSize = 4 := rfl
    rw [Nat.mul_succ] at hoff
    exact ih (by omega) (by omega) (h.lkAhd mem (by omega) (by omega))

theorem parseTrailer_safe (mem : Memory) (recId : Nat) {len off : Nat} (wanted : Bool)
    (hoff : off+len ≤ limit) (h : g.Safe limit) {nLkAhds : Nat}
    (hn : nLkAhds ≤ htcHostMaxMsgPerBundle) :
    (parseTrailer mem recId len off wanted g nLkAhds).log.Safe limit ∧
      (parseTrailer mem recId len off wanted g nLkAhds).nLkAhds ≤ htcHostMaxMsgPerBundle := by
  unfold parseTrailer
  split
  · have hdiv := Nat.mul_div_le len creditReportSize
    dsimp only
    split_ifs
    · exact ⟨h, hn⟩
    · exact ⟨procCredRpt_safe mem (by omega) h, hn⟩
  split
  · dsimp only
    split_ifs with h0 hv
    · exact ⟨h, hn⟩
    all_goals
      have hlen : lookaheadReportSize ≤ len := Nat.le_of_not_lt fun hlt =>
        h0 (Nat.div_eq_of_lt hlt)
      have hsize : lookaheadReportSize = 6 := rfl
      have hr : (g.read [off, off+5]).Safe limit := by
        refine h.read ?_
        simp only [List.forall_mem_cons]
        exact ⟨by omega, by omega, fun _ hx => (List.not_mem_nil hx).elim⟩
    · exact ⟨hr.lkAhd mem (by decide) (by omega), Nat.le_add_left 1 7⟩
    · exact ⟨hr, hn⟩
  split
  · have hdiv := Nat.mul_div_le len bundleLkahdRptSize
    dsimp only
    split_ifs with h0 hw
    · exact ⟨h, hn⟩
    · have hle : len / bundleLkahdRptSize ≤ htcHostMaxMsgPerBundle := by omega
      exact ⟨bundleLkAhds_safe mem (by omega) (by omega) h, hle⟩
    · exact ⟨h, hn⟩
  · exact ⟨h, hn⟩

/-- The loop ends, since each record takes its header at least. The induction is on what is left
of the trailer. -/
theorem procTrailer_safe (mem : Memory) (wanted : Bool) {off len : Nat} (hoff : off+len ≤ limit)
    (h : g.Safe limit) {nLkAhds : Nat} (hn : nLkAhds ≤ htcHostMaxMsgPerBundle) :
    ∃ p, (∀ fuel, len<fuel → procTrailer mem wanted fuel off len g nLkAhds = some p) ∧
      p.log.Safe limit ∧ p.nLkAhds ≤ htcHostMaxMsgPerBundle := by
  induction len using Nat.strong_induction_on generalizing off g nLkAhds with
  | _ len ih =>
    have hsize : recordHdrSize = 2 := rfl
    by_cases h0 : len = 0
    · refine ⟨{ log := g, nLkAhds := nLkAhds }, fun fuel hfuel => ?_, h, hn⟩
      cases fuel with
      | zero => omega
      | succ fuel => rw [procTrailer, if_pos h0]
    by_cases h2 : len<recordHdrSize
    · refine ⟨⟨g, nLkAhds, enomem⟩, fun fuel hfuel => ?_, h, hn⟩
      cases fuel with
      | zero => omega
      | succ fuel => rw [procTrailer, if_neg h0, if_pos h2]
    have hg1 : (g.read [off+1]).Safe limit := h.read (List.forall_mem_singleton.mpr (by omega))
    by_cases hlen : (mem (off+1)).toNat > len-recordHdrSize
    · refine ⟨⟨g.read [off+1], nLkAhds, enomem⟩, fun fuel hfuel => ?_, hg1, hn⟩
      cases fuel with
      | zero => omega
      | succ fuel =>
        rw [procTrailer, if_neg h0, if_neg h2]
        exact if_pos hlen
    have hrec : off+recordHdrSize + (mem (off+1)).toNat ≤ limit := by omega
    have hg2 : ((g.read [off+1]).read [off]).Safe limit :=
      hg1.read (List.forall_mem_singleton.mpr (by omega))
    obtain ⟨hg3, hn3⟩ := parseTrailer_safe mem (mem off).toNat wanted hrec hg2 hn
    have hturn : ∀ fuel, procTrailer mem wanted (fuel+1) off len g nLkAhds =
        if (procRecord mem wanted off (g.read [off+1]) nLkAhds).status ≠ 0 then
          some (procRecord mem wanted off (g.read [off+1]) nLkAhds)
        else
          procTrailer mem wanted fuel (off+recordHdrSize+(mem (off+1)).toNat)
            (len-recordHdrSize-(mem (off+1)).toNat)
            (procRecord mem wanted off (g.read [off+1]) nLkAhds).log
            (procRecord mem wanted off (g.read [off+1]) nLkAhds).nLkAhds := by
      intro fuel
      rw [procTrailer, if_neg h0, if_neg h2]
      exact if_neg hlen
    change (procRecord mem wanted off (g.read [off+1]) nLkAhds).log.Safe limit at hg3
    change (procRecord mem wanted off (g.read [off+1]) nLkAhds).nLkAhds ≤ _ at hn3
    generalize procRecord mem wanted off (g.read [off+1]) nLkAhds = r at hg3 hn3 hturn
    by_cases hstatus : r.status ≠ 0
    · refine ⟨r, fun fuel hfuel => ?_, hg3, hn3⟩
      cases fuel with
      | zero => omega
      | succ fuel => rw [hturn, if_pos hstatus]
    have hrest : off+recordHdrSize + (mem (off+1)).toNat +
        (len-recordHdrSize-(mem (off+1)).toNat) ≤ limit := by omega
    obtain ⟨p, hp, hsafe⟩ := ih (len-recordHdrSize-(mem (off+1)).toNat) (by omega) hrest hg3 hn3
    refine ⟨p, fun fuel hfuel => ?_, hsafe⟩
    cases fuel with
    | zero => omega
    | succ fuel =>
      rw [hturn, if_neg hstatus]
      exact hp fuel (by omega)

end Safe

/-- The length of the trailer that the header announces. -/
def trailerLen (mem : Memory) : Nat :=
  if (mem 1).toNat.testBit htcFlgRxTrailer then (mem 4).toNat else 0

/-- What the handling of a frame promises, whatever its bytes are. -/
structure FrameSafe (mem : Memory) (r : Processed) : Prop where
  log : r.parsed.log.Safe (htcHdrLength + payldLen mem)
  lkAhds : r.parsed.nLkAhds ≤ htcHostMaxMsgPerBundle
  trailer : r.parsed.status = 0 → trailerLen mem ≤ payldLen mem ∧
    r.actLen = payldLen mem - trailerLen mem

theorem FrameSafe.refused {mem : Memory} {g : Log} (h : g.Safe (htcHdrLength + payldLen mem))
    (actLen : Nat) : FrameSafe mem { actLen := actLen, parsed := ⟨g, 0, enomem⟩ } where
  log := h
  lkAhds := Nat.zero_le _
  trailer := fun hs => absurd (show enomem = 0 from hs) (by decide)

theorem RxPacket.actLen_eq (p : RxPacket) (mem : Memory)
    (h : (mem 0, mem 1, mem 2, mem 3) =
      if p.refreshHdr then (mem 0, mem 1, mem 2, mem 3) else p.expHdr) :
    (if p.refreshHdr then payldLen mem + htcHdrLength else p.actLen) =
      payldLen mem + htcHdrLength := by
  cases hr : p.refreshHdr with
  | true => rfl
  | false =>
    rw [hr] at h
    have hexp : p.expHdr = (mem 0, mem 1, mem 2, mem 3) := h.symm
    have hs := p.sized hr
    rw [hexp] at hs
    exact hs

/-- For every content of a buffer that holds the header and `payld_len` bytes more, the handling
of the frame returns, stays within the frame, the look-ahead array and the endpoint table, and on
success leaves the payload without the trailer. -/
theorem rx_process_hdr_safe (mem : Memory) (wanted : Bool) (p : RxPacket) :
    ∃ r, (∀ fuel, (mem 4).toNat<fuel → processHdr mem wanted fuel p = some r) ∧
      FrameSafe mem r := by
  have hhdr : ∀ i<htcHdrLength, i<htcHdrLength + payldLen mem :=
    fun i hi => Nat.lt_add_right _ hi
  have hread : ∀ {g : Log}, g.Safe (htcHdrLength + payldLen mem) → ∀ i<htcHdrLength,
      (g.read [i]).Safe (htcHdrLength + payldLen mem) :=
    fun hg i hi => hg.read (List.forall_mem_singleton.mpr (hhdr i hi))
  have hg0 : ({ reads := [2, 3, 0, 1, 2, 3] } : Log).Safe (htcHdrLength + payldLen mem) := by
    refine ⟨fun i hi => hhdr i ?_, fun _ h => (List.not_mem_nil h).elim,
      fun _ h => (List.not_mem_nil h).elim⟩
    revert i
    decide
  have hact := p.actLen_eq mem
  simp only [processHdr]
  generalize (if p.refreshHdr = true then payldLen mem + htcHdrLength else p.actLen) = actLen
    at hact ⊢
  generalize (if p.refreshHdr = true then (mem 0, mem 1, mem 2, mem 3) else p.expHdr) = expHdr
    at hact ⊢
  have hg1 : (if p.refreshHdr = true then
      ({ reads := [2, 3, 0, 1, 2, 3] } : Log).read [0] else { reads := [2, 3, 0, 1, 2, 3] }).Safe
        (htcHdrLength + payldLen mem) := by
    split_ifs
    · exact hread hg0 0 (by decide)
    · exact hg0
  generalize (if p.refreshHdr = true then
      ({ reads := [2, 3, 0, 1, 2, 3] } : Log).read [0] else { reads := [2, 3, 0, 1, 2, 3] }) = g1
    at hg1 ⊢
  split_ifs with hroom hep hexp htrailer hctrl
  · exact ⟨_, fun _ _ => rfl, FrameSafe.refused hg0 _⟩
  · exact ⟨_, fun _ _ => rfl, FrameSafe.refused hg1 _⟩
  · exact ⟨_, fun _ _ => rfl, FrameSafe.refused hg1 _⟩
  · exact ⟨_, fun _ _ => rfl, FrameSafe.refused (hread (hread hg1 1 (by decide)) 4 (by decide)) _⟩
  · have hg := hread (hread hg1 1 (by decide)) 4 (by decide)
    have hle : (mem 4).toNat ≤ payldLen mem := by omega
    have hoff : htcHdrLength + payldLen mem - (mem 4).toNat + (mem 4).toNat ≤
        htcHdrLength + payldLen mem := by omega
    obtain ⟨r, hr, hsafe, hn⟩ := procTrailer_safe mem (wanted && !p.ignoreLookahead) hoff hg
      (Nat.zero_le _)
    refine ⟨_, fun fuel hfuel => by rw [hr fuel hfuel]; rfl, ?_⟩
    dsimp only
    split_ifs with hstatus
    · exact ⟨hsafe, hn, fun hs => absurd hs hstatus⟩
    · refine ⟨hsafe, hn, fun _ => ?_⟩
      rw [trailerLen, if_pos htrailer]
      refine ⟨hle, ?_⟩
      dsimp only
      rw [hact (not_not.mp hexp)]
      omega
  · refine ⟨_, fun _ _ => rfl, hread hg1 1 (by decide), Nat.zero_le _, fun _ => ?_⟩
    rw [trailerLen, if_neg htrailer]
    refine ⟨Nat.zero_le _, ?_⟩
    dsimp only
    rw [hact (not_not.mp hexp)]
    omega

/-- The entries of a credit report of `n` whole ones from `off` on. -/
def creditReports (mem : Memory) : Nat → Nat → List CreditReport
  | 0, _ => []
  | n+1, off =>
    ⟨(mem off).toNat, (mem (off+1)).toNat⟩::creditReports mem n (off+creditReportSize)

theorem procCredRpt_reports (mem : Memory) (n off : Nat) (g : Log) :
    (procCredRpt mem n off g).reports =
      g.reports ++ HtcCredit.knownEntries (creditReports mem n off) := by
  induction n generalizing off g with
  | zero => simp [procCredRpt, creditReports, HtcCredit.knownEntries]
  | succ n ih =>
    simp only [procCredRpt]
    split_ifs with hep
    · have hout : ¬(mem off).toNat<9 := Nat.not_lt.mpr hep
      simp [creditReports, HtcCredit.knownEntries, hout, Log.read]
    · have hin : (mem off).toNat<9 := Nat.not_le.mp hep
      rw [ih]
      simp [creditReports, HtcCredit.knownEntries, hin, Log.read]

/-! With `next_lk_ahds` and `n_lk_ahds` `NULL`, the number of look-aheads stays as it was. -/

theorem parseTrailer_unwanted (mem : Memory) (recId len off : Nat) (g : Log) (n : Nat) :
    (parseTrailer mem recId len off false g n).nLkAhds = n := by
  simp only [parseTrailer]
  split_ifs <;> simp_all

theorem procTrailer_unwanted (mem : Memory) {fuel off len : Nat} {g : Log} {n : Nat} {p : Parsed}
    (h : procTrailer mem false fuel off len g n = some p) : p.nLkAhds = n := by
  induction fuel generalizing off len g n with
  | zero => simp [procTrailer] at h
  | succ fuel ih =>
    have hrec := parseTrailer_unwanted mem (mem off).toNat (mem (off+1)).toNat
      (off+recordHdrSize) ((g.read [off+1]).read [off]) n
    simp only [procTrailer] at h
    split_ifs at h
    · simp [← Option.some.inj h]
    · simp [← Option.some.inj h]
    · simp [← Option.some.inj h]
    · rw [← Option.some.inj h]
      exact hrec
    · rw [ih h]
      exact hrec

theorem processHdr_ignored (mem : Memory) {wanted : Bool} {fuel : Nat} {p : RxPacket}
    {r : Processed} (hp : p.ignoreLookahead = true)
    (h : processHdr mem wanted fuel p = some r) : r.parsed.nLkAhds = 0 := by
  simp only [processHdr, hp, Bool.not_true, Bool.and_false] at h
  generalize (if p.refreshHdr = true then payldLen mem + htcHdrLength else p.actLen) = actLen at h
  generalize (if p.refreshHdr = true then (mem 0, mem 1, mem 2, mem 3) else p.expHdr) = expHdr
    at h
  generalize (if p.refreshHdr = true then
      ({ reads := [2, 3, 0, 1, 2, 3] } : Log).read [0] else { reads := [2, 3, 0, 1, 2, 3] }) = g
    at h
  split_ifs at h
  · simp [← Option.some.inj h]
  · simp [← Option.some.inj h]
  · simp [← Option.some.inj h]
  · simp [← Option.some.inj h]
  · obtain ⟨q, hq, rfl⟩ := Option.map_eq_some_iff.mp h
    have hn : q.nLkAhds = 0 := procTrailer_unwanted mem hq
    split_ifs
    · exact hn
    · exact hn
  · simp [← Option.some.inj h]

/-! The parsing ends. -/

theorem procTrailer_isSome (mem : Memory) (wanted : Bool) {fuel off len : Nat} (h : len<fuel)
    (g : Log) (n : Nat) : (procTrailer mem wanted fuel off len g n).isSome := by
  induction fuel generalizing off len g n with
  | zero => omega
  | succ fuel ih =>
    have hsize : recordHdrSize = 2 := rfl
    simp only [procTrailer]
    split_ifs
    · rfl
    · rfl
    · rfl
    · rfl
    · exact ih (by omega) _ _

theorem processHdr_isSome (mem : Memory) (wanted : Bool) {fuel : Nat} (h : (mem 4).toNat<fuel)
    (p : RxPacket) : (processHdr mem wanted fuel p).isSome := by
  simp only [processHdr]
  generalize (if p.refreshHdr = true then payldLen mem + htcHdrLength else p.actLen) = actLen
  generalize (if p.refreshHdr = true then (mem 0, mem 1, mem 2, mem 3) else p.expHdr) = expHdr
  split_ifs <;> simp [procTrailer_isSome, h]

end Ath6kl.HtcTrailer
