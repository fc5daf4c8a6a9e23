import Ath6kl.PktLog
import Mathlib.Data.Nat.Bitwise

/-! When the packet log of the firmware is parsed safely: the event is one whole record after the
other, and what each says of its frame fits in it. -/
namespace Ath6kl.PktLogSafe
open PktLog Lib.Accesses Lib.Deframe Lib.Memory

section Frames
variable {size : Nat} {s : Source}

/-- The table is read inside its dimensions, and the copies fit in the event and are from the
record. -/
structure FrameRight (size : Nat) (f : Frame) : Prop where
  row : f.row<rateTbl11.length
  col : f.col<2
  sgi : f.col = 1 ↔ f.src.sgi ≠ 0
  fits : ∀ c∈f.copies, c.dst+c.n.toNat ≤ frameDataSize
  inside : ∀ c∈f.copies, c.n ≠ 0 → c.src+c.n.toNat ≤ size
  nowrap : f.src.qos = true → qosHeaderlen.toNat+qosPadlen.toNat ≤ f.src.bufLen.toNat

/-- No short guard interval, and a frame that fits in the event and in its record, with its QoS
header if it has one. -/
structure FrameFits (size : Nat) (s : Source) : Prop where
  sgi : s.sgi = 0
  plain : s.qos = false → s.bufLen.toNat ≤ 512 ∧
    (s.bufLen.toNat ≠ 0 → s.bufOff+s.bufLen.toNat ≤ size)
  qos : s.qos = true → 28 ≤ s.bufLen.toNat ∧ s.bufLen.toNat ≤ 514 ∧ s.bufOff+26 ≤ size ∧
    (s.bufLen.toNat ≠ 28 → s.bufOff+s.bufLen.toNat ≤ size)

theorem frameOf_row (s : Source) : (frameOf s).row<rateTbl11.length := by
  have hlen : rateTbl11.length = 45 := rfl
  have hmax : max11RateIndex.toNat = 43 := rfl
  have hgt := UInt32.lt_iff_toNat_lt (a := max11RateIndex) (b := s.mcs)
  simp only [frameOf]
  split_ifs with h
  · omega
  · have hle : ¬max11RateIndex.toNat<s.mcs.toNat := fun hlt => h (hgt.mpr hlt)
    omega

theorem frameOf_col (h : s.sgi = 0 ∨ s.sgi = whalRcFlagSgi) :
    (frameOf s).col<2 ∧ ((frameOf s).col = 1 ↔ s.sgi ≠ 0) ↔ s.sgi = 0 := by
  obtain h | h := h
  · simp [frameOf, h]
  · simp [frameOf, h, whalRcFlagSgi]

theorem frameOf_plain (h : s.qos = false) :
    (∀ c∈(frameOf s).copies, c.dst+c.n.toNat ≤ frameDataSize) ∧
        (∀ c∈(frameOf s).copies, c.n ≠ 0 → c.src+c.n.toNat ≤ size) ↔
      s.bufLen.toNat ≤ 512 ∧ (s.bufLen.toNat ≠ 0 → s.bufOff+s.bufLen.toNat ≤ size) := by
  have hzero : s.bufLen ≠ 0 ↔ s.bufLen.toNat ≠ 0 := not_congr UInt32.toNat_inj.symm
  simp only [frameOf, h, Bool.false_eq_true, if_false, List.forall_mem_singleton, hzero,
    Nat.zero_add]
  rfl

theorem frameOf_qos (h : s.qos = true) (hwrap : 28 ≤ s.bufLen.toNat) :
    (∀ c∈(frameOf s).copies, c.dst+c.n.toNat ≤ frameDataSize) ∧
        (∀ c∈(frameOf s).copies, c.n ≠ 0 → c.src+c.n.toNat ≤ size) ↔
      s.bufLen.toNat ≤ 514 ∧ s.bufOff+26 ≤ size ∧
        (s.bufLen.toNat ≠ 28 → s.bufOff+s.bufLen.toNat ≤ size) := by
  have hlt := s.bufLen.toNat_lt
  have hn : (s.bufLen-qosPadlen-qosHeaderlen).toNat = s.bufLen.toNat-28 := by
    simp only [qosPadlen, qosHeaderlen, UInt32.toNat_sub, UInt32.reduceToNat]
    omega
  have hzero : s.bufLen-qosPadlen-qosHeaderlen ≠ 0 ↔ s.bufLen.toNat ≠ 28 := by
    rw [Ne, ← UInt32.toNat_inj, hn]
    show ¬_ = 0 ↔ _
    omega
  have hhdr : qosHeaderlen.toNat = 26 := rfl
  have hpad : qosPadlen.toNat = 2 := rfl
  have hhdr0 : qosHeaderlen ≠ 0 := by decide
  simp only [frameOf, h, if_true, List.forall_mem_cons, List.not_mem_nil, false_imp_iff,
    implies_true, and_true, hn, hzero, hhdr, hpad, hhdr0, ne_eq, not_false_eq_true, true_imp_iff,
    frameDataSize]
  omega

theorem frameRight_iff (h : s.sgi = 0 ∨ s.sgi = whalRcFlagSgi) :
    FrameRight size (frameOf s) ↔ FrameFits size s := by
  have hcol := frameOf_col h
  constructor
  · rintro ⟨-, hlt, hsgi, hfits, hinside, hnowrap⟩
    refine ⟨hcol.mp ⟨hlt, hsgi⟩, fun hq => (frameOf_plain hq).mp ⟨hfits, hinside⟩, fun hq => ?_⟩
    exact ⟨hnowrap hq, (frameOf_qos hq (hnowrap hq)).mp ⟨hfits, hinside⟩⟩
  · rintro ⟨hsgi, hplain, hqos⟩
    obtain ⟨hlt, hcol1⟩ := hcol.mpr hsgi
    cases hq : s.qos with
    | false =>
      obtain ⟨hfits, hinside⟩ := (frameOf_plain hq).mpr (hplain hq)
      exact ⟨frameOf_row s, hlt, hcol1, hfits, hinside,
        fun hq' => Bool.noConfusion (hq.symm.trans hq')⟩
    | true =>
      obtain ⟨hge, hrest⟩ := hqos hq
      obtain ⟨hfits, hinside⟩ := (frameOf_qos hq hge).mpr hrest
      exact ⟨frameOf_row s, hlt, hcol1, hfits, hinside, fun _ => hge⟩

theorem copyReads_safe {len pdata : Nat} {copies : List Copy}
    (h : ∀ c∈copies, c.n ≠ 0 → c.src+c.n.toNat ≤ size) (hle : pdata+size ≤ len) :
    Safe len (copyReads pdata copies) := by
  intro a ha
  obtain ⟨c, hc, rfl⟩ := List.mem_map.mp ha
  obtain ⟨hmem, hne⟩ := List.mem_filter.mp hc
  have hin := h c hmem (by simpa using hne)
  show pdata+c.src+c.n.toNat ≤ len
  omega

end Frames

section Records
variable {env : Env} {mem : Mem} {len pos : Nat} {diag : Diag}

theorem and_sgi (flags : UInt8) : flags &&& whalRcFlagSgi = 0 ∨ flags &&& whalRcFlagSgi =
    whalRcFlagSgi := by
  have hand : (flags &&& whalRcFlagSgi).toNat = (flags.toNat.testBit 3).toNat*8 := by
    rw [UInt8.toNat_and]
    exact Nat.and_two_pow flags.toNat 3
  rw [← UInt8.toNat_inj, ← UInt8.toNat_inj, hand]
  cases flags.toNat.testBit 3 with
  | false => exact .inl rfl
  | true => exact .inr rfl

/-- Whether the handler of frames of a direction goes past its checks. -/
def Handled (env : Env) (pdata : Nat) (diag : Diag) (mask : UInt32) : Prop :=
  enabled env diag mask = true ∧ env.newBuf pdata = true

/-- The fields of a record that is handled are inside the payload, and its frame fits. -/
structure RecordFits (env : Env) (mem : Mem) (len pos : Nat) (diag : Diag) : Prop where
  txstatus : u16At mem (pos+4) = pktlogTypeTxstatus →
    Handled env (pos+pktlogHdrSize) diag macTxFrameEventenable →
      pos+pktlogHdrSize+56 ≤ len ∧
        FrameFits (u16At mem (pos+6)).toNat (txSource mem (pos+pktlogHdrSize) diag)
  txctl : u16At mem (pos+4) = pktlogTypeTxctl → enabled env diag macTxFrameEventenable = true →
    pos+pktlogHdrSize+16 ≤ len
  rx : u16At mem (pos+4) = pktlogTypeRx →
    Handled env (pos+pktlogHdrSize) diag macRxFrameEventenable →
      pos+pktlogHdrSize+rxmcsOff env+36 ≤ len ∧
        FrameFits (u16At mem (pos+6)).toNat (rxSource env mem (pos+pktlogHdrSize))

/-- What is read for a record is inside the payload, and its frame is handled right. -/
def OutRight (len size : Nat) (out : Out) : Prop :=
  Safe len out.log ∧ ∀ f∈out.frame, FrameRight size f

theorem outRight_quiet (len size : Nat) (diag : Diag) : OutRight len size { diag := diag } :=
  ⟨safe_nil len, by simp⟩

theorem ite_handled {α : Type*} (on buf : Bool) (quiet out : α) :
    (if on = false then quiet else if buf = false then quiet else out) =
      if on = true ∧ buf = true then out else quiet := by
  cases on <;> cases buf <;> rfl

variable {pdata size : Nat}

variable (env mem diag) in
theorem txFrame_right_iff (hle : pdata+size ≤ len) :
    OutRight len size (macTxFrameEvent env mem pdata diag) ↔
      (Handled env pdata diag macTxFrameEventenable →
        pdata+56 ≤ len ∧ FrameFits size (txSource mem pdata diag)) := by
  rw [macTxFrameEvent, ite_handled]
  by_cases hhandled : enabled env diag macTxFrameEventenable = true ∧ env.newBuf pdata = true
  · have hframe : FrameRight size (frameOf (txSource mem pdata diag)) ↔
        FrameFits size (txSource mem pdata diag) := frameRight_iff (and_sgi _)
    rw [if_pos hhandled]
    simp only [Handled, hhandled, and_self, true_imp_iff, OutRight, safe_cons, ok_read,
      Option.mem_some, forall_eq', hframe]
    constructor
    · rintro ⟨⟨-, -, -, hlast, -⟩, hfits⟩
      exact ⟨hlast, hfits⟩
    · rintro ⟨hlast, hfits⟩
      have hsafe := copyReads_safe (hframe.mpr hfits).inside hle
      exact ⟨⟨by omega, by omega, by omega, hlast, hsafe⟩, hfits⟩
  · rw [if_neg hhandled]
    exact iff_of_true (outRight_quiet len size diag) fun h => absurd h hhandled

variable (env mem diag) in
theorem rxFrame_right_iff (hle : pdata+size ≤ len) :
    OutRight len size (macRxFrameEvent env mem pdata diag) ↔
      (Handled env pdata diag macRxFrameEventenable →
        pdata+rxmcsOff env+36 ≤ len ∧ FrameFits size (rxSource env mem pdata)) := by
  rw [macRxFrameEvent, ite_handled]
  by_cases hhandled : enabled env diag macRxFrameEventenable = true ∧ env.newBuf pdata = true
  · have hframe : FrameRight size (frameOf (rxSource env mem pdata)) ↔
        FrameFits size (rxSource env mem pdata) := frameRight_iff (and_sgi _)
    rw [if_pos hhandled]
    simp only [Handled, hhandled, and_self, true_imp_iff, OutRight, safe_cons, ok_read,
      Option.mem_some, forall_eq', hframe]
    constructor
    · rintro ⟨⟨-, -, -, -, -, -, -, -, hlast, -⟩, hfits⟩
      exact ⟨hlast, hfits⟩
    · rintro ⟨hlast, hfits⟩
      have hsafe := copyReads_safe (hframe.mpr hfits).inside hle
      exact ⟨⟨by omega, by omega, by omega, by omega, by omega, by omega, by omega, by omega,
        hlast, hsafe⟩, hfits⟩
  · rw [if_neg hhandled]
    exact iff_of_true (outRight_quiet len size diag) fun h => absurd h hhandled

variable (env mem len diag pdata size) in
theorem txctl_right_iff : OutRight len size (macTxctrlEvent env mem pdata diag) ↔
    (enabled env diag macTxFrameEventenable = true → pdata+16 ≤ len) := by
  rw [macTxctrlEvent]
  cases hon : enabled env diag macTxFrameEventenable with
  | false => exact iff_of_true (outRight_quiet len size diag) fun h => Bool.noConfusion h
  | true =>
    simp only [OutRight, Bool.true_eq_false, if_false, safe_cons, ok_read, safe_nil, and_true,
      Option.not_mem_none, false_imp_iff, implies_true, true_imp_iff]
    omega

theorem dispatch_right_iff (hle : pos+recordSize mem pos ≤ len) :
    OutRight len (u16At mem (pos+6)).toNat (dispatch env mem pos diag) ↔
      RecordFits env mem len pos diag := by
  have hbody : pos+pktlogHdrSize+(u16At mem (pos+6)).toNat ≤ len := by
    unfold recordSize at hle
    omega
  have htx := txFrame_right_iff env mem diag hbody
  have hrx := rxFrame_right_iff env mem diag hbody
  have hctl := txctl_right_iff env mem len diag (pos+pktlogHdrSize) (u16At mem (pos+6)).toNat
  rw [dispatch]
  by_cases htype : u16At mem (pos+4) = pktlogTypeTxstatus
  · rw [if_pos htype, htx]
    exact ⟨fun h => ⟨fun _ => h, fun h' => absurd (htype.symm.trans h') (by decide),
      fun h' => absurd (htype.symm.trans h') (by decide)⟩, fun h => h.txstatus htype⟩
  · rw [if_neg htype]
    by_cases htype' : u16At mem (pos+4) = pktlogTypeTxctl
    · rw [if_pos htype', hctl]
      exact ⟨fun h => ⟨fun h' => absurd h' htype, fun _ => h,
        fun h' => absurd (htype'.symm.trans h') (by decide)⟩, fun h => h.txctl htype'⟩
    · rw [if_neg htype']
      by_cases htype'' : u16At mem (pos+4) = pktlogTypeRx
      · rw [if_pos htype'', hrx]
        exact ⟨fun h => ⟨fun h' => absurd h' htype, fun h' => absurd h' htype', fun _ => h⟩,
          fun h => h.rx htype''⟩
      · rw [if_neg htype'']
        exact iff_of_true (outRight_quiet len _ diag) ⟨fun h' => absurd h' htype,
          fun h' => absurd h' htype', fun h' => absurd h' htype''⟩

end Records

section Payload
variable {env : Env} {mem : Mem} {len : UInt32} {pos : Nat} {diag : Diag}

/-- A whole record: it is as long as it tells. -/
def IsRecord (x : List UInt8) : Prop := x.length = recordSize (ofList x) 0

theorem recordSize_ge (mem : Mem) (pos : Nat) : pktlogHdrSize ≤ recordSize mem pos :=
  Nat.le_add_left _ _

theorem recordSize_of_slice {mem' : Mem} {pos' n : Nat} (hn : 8 ≤ n)
    (h : slice mem pos n = slice mem' pos' n) : recordSize mem pos = recordSize mem' pos' := by
  have hslice : slice mem (pos+6) 2 = slice mem' (pos'+6) 2 := by
    rw [← slice_ofList_slice (show 6+2 ≤ n by omega), h, slice_ofList_slice (by omega)]
  rw [recordSize, recordSize, u16At, u16At, hslice]

theorem isRecord_slice (mem : Mem) (pos : Nat) : IsRecord (slice mem pos (recordSize mem pos)) := by
  have hge := recordSize_ge mem pos
  have hhdr : pktlogHdrSize = 12 := rfl
  rw [IsRecord, length_slice]
  refine recordSize_of_slice (n := 8) (Nat.le_refl 8) ?_
  rw [slice_ofList_slice (by omega)]
  rfl

theorem IsRecord.length_ge {x : List UInt8} (h : IsRecord x) : pktlogHdrSize ≤ x.length := by
  rw [h]
  exact recordSize_ge _ _

theorem isRecord_delimiting : SelfDelimiting IsRecord where
  unique := by
    intro x y s t hx hy heq
    have hhdr : pktlogHdrSize = 12 := rfl
    have hsize : recordSize (ofList x) 0 = recordSize (ofList y) 0 := by
      refine recordSize_of_slice (n := 8) (Nat.le_refl 8) ?_
      have hgx := hx.length_ge
      have hgy := hy.length_ge
      rw [← slice_ofList_append x s (by omega), heq, slice_ofList_append y t (by omega)]
    exact List.append_inj_left heq (hx.trans (hsize.trans hy.symm))

theorem IsRecord.ne_nil (x : List UInt8) (h : IsRecord x) : x ≠ [] := by
  rintro rfl
  exact absurd h.length_ge (by decide)

/-- The records of an event from `pos` on, and the state before each, fit. -/
def FitsFrom (env : Env) (mem : Mem) (len : Nat) : List (List UInt8) → Nat → Diag → Prop
  | [], _, _ => True
  | record::records, pos, diag => RecordFits env mem len pos diag ∧
      FitsFrom env mem len records (pos+record.length) (dispatch env mem pos diag).diag

/-- The whole records are dispatched, as far as they go, nothing behind the payload is read, and
each frame is handled right. -/
structure PktlogRight (mem : Mem) (len : UInt32) (r : Rx) : Prop where
  dispatched : Longest IsRecord (slice mem 0 len.toNat) r.dispatched
  inside : Safe len.toNat r.log
  frames : ∀ f∈r.frames, FrameRight f.1 f.2

variable {offset : UInt32} {fuel : Nat} {r : Rx}

theorem sub_pos_iff : len-offset > 0 ↔ offset ≠ len := by
  have h1 := len.toNat_lt
  have h2 := offset.toNat_lt
  have hlt : len-offset > 0 ↔ 0<(len-offset).toNat := UInt32.lt_iff_toNat_lt
  rw [hlt, UInt32.toNat_sub, Ne, ← UInt32.toNat_inj]
  omega

/-- What a round puts in front of what the later ones do. -/
def inFront (env : Env) (mem : Mem) (pos : Nat) (diag : Diag) (rest : Rx) : Rx :=
  let out := dispatch env mem pos diag
  let size := recordSize mem pos
  { dispatched := slice mem pos size::rest.dispatched
    frames := (out.frame.map fun f => (size-pktlogHdrSize, f)).toList ++ rest.frames
    events := out.event.toList ++ rest.events
    log := .read (pos+4) 2::(out.log ++ .read (pos+6) 2::rest.log)
    diag := rest.diag }

theorem pktlogLoop_next (hne : offset ≠ len) : pktlogLoop env mem len (fuel+1) offset pos diag =
    (pktlogLoop env mem len fuel (offset+UInt32.ofNat (recordSize mem pos))
      (pos+recordSize mem pos) (dispatch env mem pos diag).diag).map (inFront env mem pos diag) := by
  rw [pktlogLoop, if_pos (sub_pos_iff.mpr hne)]
  rfl

theorem safe_inFront_iff (rest : Rx) : Safe len.toNat (inFront env mem pos diag rest).log ↔
    pos+8 ≤ len.toNat ∧ Safe len.toNat (dispatch env mem pos diag).log ∧
      Safe len.toNat rest.log := by
  simp only [inFront, safe_cons, safe_append, ok_read]
  constructor
  · rintro ⟨-, hlog, hsize, hrest⟩
    exact ⟨hsize, hlog, hrest⟩
  · rintro ⟨hsize, hlog, hrest⟩
    exact ⟨by omega, hlog, hsize, hrest⟩

theorem frames_inFront_iff (rest : Rx) :
    (∀ f∈(inFront env mem pos diag rest).frames, FrameRight f.1 f.2) ↔
      (∀ f∈(dispatch env mem pos diag).frame, FrameRight (u16At mem (pos+6)).toNat f) ∧
        ∀ f∈rest.frames, FrameRight f.1 f.2 := by
  have hsize : recordSize mem pos-pktlogHdrSize = (u16At mem (pos+6)).toNat :=
    Nat.add_sub_cancel _ _
  simp only [inFront, List.forall_mem_append, hsize]
  cases (dispatch env mem pos diag).frame <;> simp

theorem not_safe_behind (hne : offset ≠ len) (hpos : len.toNat<pos)
    (h : pktlogLoop env mem len fuel offset pos diag = some r) : ¬Safe len.toNat r.log := by
  cases fuel with
  | zero => cases h
  | succ fuel =>
    rw [pktlogLoop_next hne] at h
    obtain ⟨rest, -, rfl⟩ := Option.map_eq_some_iff.mp h
    rw [safe_inFront_iff]
    omega

theorem records_of_right (hoff : offset.toNat = pos) (hpos : pos ≤ len.toNat)
    (h : pktlogLoop env mem len fuel offset pos diag = some r) (hsafe : Safe len.toNat r.log)
    (hframes : ∀ f∈r.frames, FrameRight f.1 f.2) :
    ∃ records : List (List UInt8), (∀ x∈records, IsRecord x) ∧
      records.flatten = slice mem pos (len.toNat-pos) ∧
        FitsFrom env mem len.toNat records pos diag := by
  induction fuel generalizing offset pos diag r with
  | zero => cases h
  | succ fuel ih =>
    by_cases hend : offset = len
    · obtain rfl : pos = len.toNat := by rw [← hoff, hend]
      exact ⟨[], by simp, by simp [slice], trivial⟩
    · have hlt : pos<len.toNat := by
        have hne : offset.toNat ≠ len.toNat := fun heq => hend (UInt32.toNat_inj.mp heq)
        omega
      rw [pktlogLoop_next hend] at h
      obtain ⟨rest, hrest, rfl⟩ := Option.map_eq_some_iff.mp h
      obtain ⟨-, hlog, hsafeRest⟩ := (safe_inFront_iff rest).mp hsafe
      obtain ⟨hframe, hframesRest⟩ := (frames_inFront_iff rest).mp hframes
      have hge := recordSize_ge mem pos
      have hhdr : pktlogHdrSize = 12 := rfl
      have hsize : recordSize mem pos<2^16+12 :=
        Nat.add_lt_add_right (u16At mem (pos+6)).toNat_lt 12
      have h1 := len.toNat_lt
      have hoff' : (offset+UInt32.ofNat (recordSize mem pos)).toNat =
          (pos+recordSize mem pos)%2^32 := by
        rw [UInt32.toNat_add, UInt32.toNat_ofNat', hoff]
        omega
      by_cases hle : pos+recordSize mem pos ≤ len.toNat
      · obtain ⟨records, hrecords, hflat, hfits⟩ := ih (by omega) hle hrest hsafeRest hframesRest
        have hsplit : len.toNat-pos =
          recordSize mem pos+(len.toNat-(pos+recordSize mem pos)) := by omega
        refine ⟨slice mem pos (recordSize mem pos)::records,
          List.forall_mem_cons.mpr ⟨isRecord_slice mem pos, hrecords⟩, ?_, ?_, ?_⟩
        · rw [List.flatten_cons, hflat, hsplit, slice_add]
        · exact (dispatch_right_iff hle).mp ⟨hlog, hframe⟩
        · rw [length_slice]
          exact hfits
      · have hne : offset+UInt32.ofNat (recordSize mem pos) ≠ len := by
          intro heq
          rw [heq] at hoff'
          omega
        exact absurd hsafeRest (not_safe_behind hne (by omega) hrest)

theorem IsRecord.recordSize_eq {x : List UInt8} (h : IsRecord x)
    (hx : slice mem pos x.length = x) : recordSize mem pos = x.length := by
  have hge := h.length_ge
  have hhdr : pktlogHdrSize = 12 := rfl
  have hhead : slice mem pos 8 = slice (ofList x) 0 8 := by
    conv_rhs => rw [← hx]
    rw [slice_ofList_slice (by omega)]
    rfl
  rw [recordSize_of_slice (Nat.le_refl 8) hhead]
  exact h.symm

theorem right_of_records {records : List (List UInt8)} (hoff : offset.toNat = pos)
    (hpos : pos ≤ len.toNat) (hrec : ∀ x∈records, IsRecord x)
    (hflat : records.flatten = slice mem pos (len.toNat-pos))
    (hfits : FitsFrom env mem len.toNat records pos diag) :
    ∃ r, pktlogLoop env mem len (records.length+1) offset pos diag = some r ∧
      r.dispatched = records ∧ Safe len.toNat r.log ∧ ∀ f∈r.frames, FrameRight f.1 f.2 := by
  induction records generalizing offset pos diag with
  | nil =>
    have hlen := congrArg List.length hflat
    rw [length_slice, List.flatten_nil, List.length_nil] at hlen
    have hend : offset = len := UInt32.toNat_inj.mp (by omega)
    rw [pktlogLoop, if_neg (fun h => sub_pos_iff.mp h hend)]
    exact ⟨_, rfl, rfl, safe_nil _, by simp⟩
  | cons x records ih =>
    obtain ⟨hx, hrest⟩ := List.forall_mem_cons.mp hrec
    obtain ⟨hfit, hfits⟩ := hfits
    have hge := hx.length_ge
    have hhdr : pktlogHdrSize = 12 := rfl
    have hlen := congrArg List.length hflat
    rw [length_slice, List.flatten_cons, List.length_append] at hlen
    have hsplit : len.toNat-pos = x.length+(len.toNat-(pos+x.length)) := by omega
    rw [hsplit, slice_add, List.flatten_cons] at hflat
    obtain ⟨hhead, htail⟩ := List.append_inj hflat (by rw [length_slice])
    have hsize := hx.recordSize_eq hhead.symm
    have hlt := len.toNat_lt
    have hne : offset ≠ len := by
      intro heq
      rw [heq] at hoff
      omega
    have hoff' : (offset+UInt32.ofNat x.length).toNat = pos+x.length := by
      rw [UInt32.toNat_add, UInt32.toNat_ofNat', hoff]
      omega
    obtain ⟨rest, hloop, hdispatched, hsafe, hframes⟩ := ih hoff' (by omega) hrest htail hfits
    obtain ⟨hlog, hframe⟩ := (dispatch_right_iff (by omega)).mpr hfit
    rw [List.length_cons, pktlogLoop_next hne, hsize, hloop]
    refine ⟨_, rfl, ?_, (safe_inFront_iff rest).mpr ⟨by omega, hlog, hsafe⟩,
      (frames_inFront_iff rest).mpr ⟨hframe, hframes⟩⟩
    show slice mem pos (recordSize mem pos)::rest.dispatched = x::records
    rw [hsize, ← hhead, hdispatched]

/-- The event is one whole record after the other, and each that is handled fits. -/
def WholeRecords (env : Env) (mem : Mem) (len : UInt32) (diag : Diag) : Prop :=
  ∃ records : List (List UInt8), (∀ x∈records, IsRecord x) ∧
    records.flatten = slice mem 0 len.toNat ∧ FitsFrom env mem len.toNat records 0 diag

theorem wholeRecords_of_right (hrun : pktlogEventRx env mem len fuel (some diag) = some (0, some r))
    (hright : PktlogRight mem len r) : WholeRecords env mem len diag := by
  obtain ⟨r', hloop, heq⟩ := Option.map_eq_some_iff.mp hrun
  obtain rfl : r' = r := by simpa using heq
  exact records_of_right rfl (Nat.zero_le _) hloop hright.inside hright.frames

/-- The packet log is parsed safely, and to its end, exactly if it is whole records that fit. -/
theorem pktlog_right_iff (env : Env) (mem : Mem) (len : UInt32) (diag : Diag) :
    (∃ fuel r, pktlogEventRx env mem len fuel (some diag) = some (0, some r) ∧
      PktlogRight mem len r) ↔ WholeRecords env mem len diag := by
  constructor
  · rintro ⟨fuel, r, hrun, hright⟩
    exact wholeRecords_of_right hrun hright
  · rintro ⟨records, hrec, hflat, hfits⟩
    have hoff : (0 : UInt32).toNat = 0 := rfl
    obtain ⟨r, hloop, hdispatched, hsafe, hframes⟩ := right_of_records hoff (Nat.zero_le _) hrec
      hflat hfits
    have hlongest : Longest IsRecord (slice mem 0 len.toNat) r.dispatched := by
      rw [← hflat, hdispatched]
      exact longest_flatten isRecord_delimiting IsRecord.ne_nil hrec
    exact ⟨records.length+1, r, by rw [pktlogEventRx, hloop]; rfl, hlongest, hsafe, hframes⟩

/-- One record of a transmitted frame of 56 bytes, with the flag of a short guard interval. -/
def sgiEvent : Mem := ofList
  ([0, 0, 0, 0, 1, 0, 56, 0, 0, 0, 0, 0] ++ List.replicate 40 0 ++ [7, 8, 0, 0] ++
    List.replicate 12 0)

/-- A frame sent with a short guard interval is looked up in a column that the table lacks. -/
theorem sgi_not_right : ¬∃ fuel r, pktlogEventRx ⟨4, true, false, fun _ => true⟩ sgiEvent 68 fuel
    (some ⟨0, false, 0, 0, 0⟩) = some (0, some r) ∧ PktlogRight sgiEvent 68 r := by
  rintro ⟨fuel, r, hrun, hright⟩
  obtain ⟨records, -, hflat, hfits⟩ := wholeRecords_of_right hrun hright
  cases records with
  | nil => exact absurd (congrArg List.length hflat) (by decide)
  | cons x records =>
    have hframe := (hfits.1.txstatus (by decide) ⟨rfl, rfl⟩).2
    exact absurd hframe.sgi (by decide)

end Payload

end Ath6kl.PktLogSafe
