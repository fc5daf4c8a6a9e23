import Mathlib.Order.Basic
import Mathlib.Tactic.SplitIfs
import Ath6kl.Bmi

/-! Which transfers of the bootloader messages are exact: the target's memory, or the buffer that
is read into, has the bytes and no others, and the caller's buffer is not left. -/
namespace Ath6kl.Bmi
open Lib.Accesses Lib.Memory

section Messages

@[simp] theorem length_le32 (n : Nat) : (le32 n).length = 4 := rfl

theorem value_le32 {n : Nat} (h : n < 2^32) : Lib.LittleEndian.value (le32 n) = n :=
  Lib.LittleEndian.value_bytes h

theorem take_le32 (n : Nat) (bs : List UInt8) : (le32 n ++ bs).take 4 = le32 n :=
  List.take_left' (length_le32 n)

theorem drop_le32 (n k : Nat) (bs : List UInt8) : (le32 n ++ bs).drop (4+k) = bs.drop k := by
  rw [← length_le32 n, List.drop_length_add_append]

theorem execute_write (t : Device) (addr : UInt32) (payload : List UInt8)
    (h : payload.length < 2^32) :
    execute t (le32 bmiWriteMemory ++ le32 addr.toNat ++ le32 payload.length ++ payload) =
      t.write addr payload := by
  have h4 := drop_le32 bmiWriteMemory 0 (le32 addr.toNat ++ (le32 payload.length ++ payload))
  have h8 := drop_le32 bmiWriteMemory 4 (le32 addr.toNat ++ (le32 payload.length ++ payload))
  have h12 := drop_le32 bmiWriteMemory 8 (le32 addr.toNat ++ (le32 payload.length ++ payload))
  rw [drop_le32 addr.toNat 0] at h8
  rw [drop_le32 addr.toNat 4, drop_le32 payload.length 0] at h12
  simp only [execute, List.append_assoc, take_le32, value_le32 (show bmiWriteMemory < 2^32 by decide),
    if_true]
  rw [h4, h8, h12]
  simp only [List.drop_zero, take_le32, value_le32 addr.toNat_lt, value_le32 h, List.take_length,
    UInt32.ofNat_toNat]

theorem answer_read {t : Device} {addr : UInt32} {n : Nat} (h : n < 2^32) :
    answer t (le32 bmiReadMemory ++ le32 addr.toNat ++ le32 n) = t.read addr n := by
  have h4 := drop_le32 bmiReadMemory 0 (le32 addr.toNat ++ le32 n)
  have h8 := drop_le32 bmiReadMemory 4 (le32 addr.toNat ++ le32 n)
  rw [drop_le32 addr.toNat 0] at h8
  simp only [answer, List.append_assoc]
  rw [h4, h8]
  have hlast : (le32 n).take 4 = le32 n := List.take_of_length_le (Nat.le_refl _)
  simp only [List.drop_zero, take_le32, hlast, value_le32 addr.toNat_lt, value_le32 h,
    UInt32.ofNat_toNat]

theorem lzPayload_data (payload : List UInt8) (h : payload.length < 2^32) :
    lzPayload (le32 bmiLzData ++ le32 payload.length ++ payload) = payload := by
  have h4 := drop_le32 bmiLzData 0 (le32 payload.length ++ payload)
  have h8 := drop_le32 bmiLzData 4 (le32 payload.length ++ payload)
  rw [drop_le32 payload.length 0] at h8
  simp only [lzPayload, List.append_assoc, take_le32, value_le32 (show bmiLzData < 2^32 by decide),
    if_true]
  rw [h4, h8]
  simp only [List.drop_zero, take_le32, value_le32 h, List.take_length]

end Messages

section Write
variable {bmi : BmiInfo} {hif : Nat → Int} {buf : Mem} {len room : Nat}

/-- What is left goes out in pieces of which none has to be filled up, and a word in one piece. -/
structure Smooth (len room lenRemain : Nat) : Prop where
  pieces : lenRemain%room%4 = 0
  word : len = 4 → 4 ≤ room ∧ (lenRemain = 0 ∨ lenRemain = 4)

theorem Smooth.next {lenRemain : Nat} (h : Smooth len room lenRemain) :
    Smooth len room (lenRemain-min lenRemain room) := by
  by_cases hr : lenRemain < room
  · have hz : lenRemain-min lenRemain room = 0 := by omega
    rw [hz]
    exact ⟨by simp, fun hw => ⟨(h.word hw).1, Or.inl rfl⟩⟩
  · have hmin : min lenRemain room = room := by omega
    rw [hmin]
    constructor
    · rw [← Nat.mod_eq_sub_mod (Nat.not_lt.mp hr)]
      exact h.pieces
    · intro hw
      have hword := h.word hw
      omega

theorem Smooth.aligned {lenRemain : Nat} (h : Smooth len room lenRemain) :
    (decide (lenRemain < room) && decide (lenRemain%4 ≠ 0)) = false := by
  have hp := h.pieces
  by_cases hr : lenRemain < room
  · rw [Nat.mod_eq_of_lt hr] at hp
    simp [hp]
  · simp [hr]

theorem writeLoop_step {fuel k lenRemain : Nat} {addr : UInt32} (h0 : lenRemain ≠ 0)
    (h : Smooth len (bmi.maxDataSize-writeHeader) lenRemain) :
    writeLoop bmi hif buf len (fuel+1) k addr lenRemain =
      let n := min lenRemain (bmi.maxDataSize-writeHeader)
      let reads : List Access := [.read (len-lenRemain) n]
      if hif k ≠ 0 then { ret := hif k, reads := reads, fills := [writeHeader+n], buf := buf }
      else
        (writeLoop bmi hif buf len fuel (k+1) (addr+UInt32.ofNat n) (lenRemain-n)).after
          [le32 bmiWriteMemory ++ le32 addr.toNat ++ le32 n ++ slice buf (len-lenRemain) n]
          reads [writeHeader+n] := by
  have hcopied : (if len = 4 then 4 else min lenRemain (bmi.maxDataSize-writeHeader)) =
      min lenRemain (bmi.maxDataSize-writeHeader) := by
    split_ifs with hw
    · have hword := h.word hw
      omega
    · rfl
  have htake : ∀ n, (slice buf (len-lenRemain) n).take n = slice buf (len-lenRemain) n :=
    fun n => List.take_of_length_le (Nat.le_of_eq (length_slice _ _ _))
  rw [writeLoop, if_neg h0]
  simp only [h.aligned, Bool.false_eq_true, if_false, ← min_def_lt, hcopied, htake]

structure Wrote (bmi : BmiInfo) (len : Nat) (addr : UInt32) (bytes : List UInt8) (x : Xfer) :
    Prop where
  finished : x.finished = true
  reads : Safe len x.reads
  fills : ∀ f∈x.fills, f ≤ bmi.maxCmdSize
  wrote : x.ret = 0 → ∀ t, x.sent.foldl execute t = t.write addr bytes

theorem writeLoop_wrote (hcmd : bmi.maxDataSize+writeHeader ≤ bmi.maxCmdSize)
    (hroom : writeHeader < bmi.maxDataSize) (hlen : len < 2^32) {fuel lenRemain : Nat}
    (k : Nat) (addr : UInt32) (hf : lenRemain ≤ fuel) (hl : lenRemain ≤ len)
    (h : Smooth len (bmi.maxDataSize-writeHeader) lenRemain) :
    Wrote bmi len addr (slice buf (len-lenRemain) lenRemain)
      (writeLoop bmi hif buf len fuel k addr lenRemain) := by
  induction fuel generalizing k lenRemain addr with
  | zero =>
    have h0 : lenRemain = 0 := by omega
    subst h0
    exact ⟨rfl, by simp [writeLoop], by simp [writeLoop], fun _ t => rfl⟩
  | succ fuel ih =>
    by_cases h0 : lenRemain = 0
    · subst h0
      rw [writeLoop, if_pos rfl]
      exact ⟨rfl, by simp, by simp, fun _ t => rfl⟩
    · rw [writeLoop_step h0 h]
      have hn : 0 < min lenRemain (bmi.maxDataSize-writeHeader) := by omega
      have hle : min lenRemain (bmi.maxDataSize-writeHeader) ≤ lenRemain := Nat.min_le_left _ _
      have hfill : writeHeader+min lenRemain (bmi.maxDataSize-writeHeader) ≤ bmi.maxCmdSize := by
        omega
      have hnext := h.next
      generalize min lenRemain (bmi.maxDataSize-writeHeader) = n at *
      have hread : Safe len [.read (len-lenRemain) n] := by
        simp only [safe_cons, ok_read, safe_nil, and_true]
        omega
      dsimp only
      split_ifs with hk
      · exact ⟨rfl, hread, by simpa using hfill, fun hr => absurd hr hk⟩
      · have hrest := ih (k+1) (addr+UInt32.ofNat n) (by omega) (by omega) hnext
        have hpos : len-lenRemain+n = len-(lenRemain-n) := by omega
        refine ⟨hrest.finished, ?_, ?_, ?_⟩
        · exact safe_append.mpr ⟨hread, hrest.reads⟩
        · exact List.forall_mem_cons.mpr ⟨hfill, hrest.fills⟩
        · intro hr t
          have hslice := length_slice buf (len-lenRemain) n
          have hexec := execute_write t addr (slice buf (len-lenRemain) n) (by omega)
          rw [hslice] at hexec
          simp only [Xfer.after, List.singleton_append, List.foldl_cons, hexec]
          rw [hrest.wrote hr, ← hpos]
          exact write_slice hle (by omega)

/-- What the loop reads for a piece that is left, in words for four bytes. -/
def pieceRead (len room lenRemain : Nat) : Access :=
  if lenRemain < room ∧ lenRemain%4 ≠ 0 then .read (len-lenRemain) (lenRemain+(4-lenRemain%4))
  else .read (len-lenRemain) (if len = 4 then 4 else min lenRemain room)

theorem writeLoop_reads {fuel k lenRemain : Nat} {addr : UInt32} (h0 : lenRemain ≠ 0)
    (hsafe : Safe len (writeLoop bmi (fun _ => 0) buf len (fuel+1) k addr lenRemain).reads) :
    (pieceRead len (bmi.maxDataSize-writeHeader) lenRemain).Ok len ∧
      (bmi.maxDataSize-writeHeader ≤ lenRemain →
        Safe len (writeLoop bmi (fun _ => 0) buf len fuel (k+1)
          (addr+UInt32.ofNat (bmi.maxDataSize-writeHeader))
          (lenRemain-(bmi.maxDataSize-writeHeader))).reads) := by
  rw [writeLoop, if_neg h0] at hsafe
  dsimp only at hsafe
  rw [if_neg (by simp)] at hsafe
  simp only [Xfer.after, safe_append] at hsafe
  generalize bmi.maxDataSize-writeHeader = room at *
  obtain ⟨hfirst, hrest⟩ := hsafe
  by_cases hr : lenRemain < room
  · refine ⟨?_, fun hle => by omega⟩
    have hmin : min lenRemain room = lenRemain := by omega
    by_cases h4 : lenRemain%4 = 0
    · simpa [pieceRead, hr, h4, hmin] using hfirst
    · simpa [pieceRead, hr, h4] using hfirst
  · have hmin : min lenRemain room = room := by omega
    constructor
    · simpa [pieceRead, hr, hmin] using hfirst
    · intro _
      simpa [hr] using hrest

theorem writeLoop_smooth (hroom : writeHeader < bmi.maxDataSize) {fuel lenRemain : Nat} (k : Nat)
    (addr : UInt32) (hf : lenRemain ≤ fuel) (hl : lenRemain ≤ len)
    (hsafe : Safe len (writeLoop bmi (fun _ => 0) buf len fuel k addr lenRemain).reads) :
    lenRemain%(bmi.maxDataSize-writeHeader)%4 = 0 := by
  induction fuel generalizing k addr lenRemain with
  | zero =>
    have h0 : lenRemain = 0 := by omega
    simp [h0]
  | succ fuel ih =>
    by_cases h0 : lenRemain = 0
    · simp [h0]
    · obtain ⟨hfirst, hrest⟩ := writeLoop_reads h0 hsafe
      by_cases hr : lenRemain < bmi.maxDataSize-writeHeader
      · rw [Nat.mod_eq_of_lt hr]
        by_contra h4
        rw [pieceRead, if_pos ⟨hr, h4⟩, ok_read] at hfirst
        omega
      · have hle := Nat.not_lt.mp hr
        rw [Nat.mod_eq_sub_mod hle]
        exact ih _ _ (by omega) (by omega) (hrest hle)

theorem writeLoop_word (hroom : writeHeader < bmi.maxDataSize)
    (hsafe : Safe 4 (writeLoop bmi (fun _ => 0) buf 4 4 0 addr 4).reads) :
    4 ≤ bmi.maxDataSize-writeHeader := by
  by_contra hlt
  obtain ⟨-, hrest⟩ := writeLoop_reads (by decide) hsafe
  have hnext := hrest (by omega)
  obtain ⟨hsecond, -⟩ := writeLoop_reads (by omega) hnext
  simp only [pieceRead, if_true] at hsecond
  split_ifs at hsecond with hr
  · rw [ok_read] at hsecond
    omega
  · rw [ok_read] at hsecond
    omega

theorem bmiWrite_eq (hdone : bmi.doneSent = false)
    (hcmd : bmi.maxDataSize+writeHeader ≤ bmi.maxCmdSize)
    (hmax : bmi.maxDataSize ≤ alignedBufSize) (addr : UInt32) :
    bmiWrite bmi hif addr buf len =
      (writeLoop bmi hif buf len len 0 addr len).after [] [] [bmi.maxDataSize+writeHeader] := by
  rw [bmiWrite, hdone, if_neg (by simp), if_neg (by omega), if_neg (by omega)]

/-- A write that succeeds leaves the buffer in the target's memory, and nothing else changes but
what fills it up to four bytes. -/
structure WriteExact (bmi : BmiInfo) (addr : UInt32) (buf : Mem) (len : Nat) (x : Xfer) : Prop where
  finished : x.finished = true
  reads : Safe len x.reads
  fills : ∀ f∈x.fills, f ≤ bmi.maxCmdSize
  target : x.ret = 0 → ∀ t i, i < len → x.sent.foldl execute t (addr+UInt32.ofNat i) = buf i
  frame : x.ret = 0 → ∀ t a, (len+3)/4*4 ≤ (a-addr).toNat → x.sent.foldl execute t a = t a

theorem Wrote.exact {addr : UInt32} {x : Xfer} (hlen : len < 2^32)
    (h : Wrote bmi len addr (slice buf 0 len) x) : WriteExact bmi addr buf len x := by
  refine ⟨h.finished, h.reads, h.fills, ?_, ?_⟩
  · intro hr t i hi
    have hoff : (addr+UInt32.ofNat i-addr).toNat = i := by
      have hz := @offset_toNat addr i 0 (by decide)
      rw [show addr+UInt32.ofNat 0 = addr from UInt32.add_zero addr] at hz
      rw [hz]
      omega
    rw [h.wrote hr, Device.write, hoff, slice_getElem?, if_pos hi, Nat.zero_add]
    rfl
  · intro hr t a ha
    rw [h.wrote hr]
    apply write_outside
    rw [length_slice]
    omega

/-- `ath6kl_bmi_write` is exact when no piece has to be filled up to four bytes. -/
theorem bmiWrite_exact_iff (hdone : bmi.doneSent = false)
    (hcmd : bmi.maxDataSize+writeHeader ≤ bmi.maxCmdSize)
    (hroom : writeHeader < bmi.maxDataSize) (hmax : bmi.maxDataSize ≤ alignedBufSize)
    (hlen : len < 2^32) (addr : UInt32) (buf : Mem) :
    (∀ hif, WriteExact bmi addr buf len (bmiWrite bmi hif addr buf len)) ↔
      Smooth len (bmi.maxDataSize-writeHeader) len := by
  constructor
  · intro h
    have hsafe := (h fun _ => 0).reads
    rw [bmiWrite_eq hdone hcmd hmax] at hsafe
    have hsafe : Safe len (writeLoop bmi (fun _ => 0) buf len len 0 addr len).reads := by
      simpa [Xfer.after] using hsafe
    refine ⟨writeLoop_smooth hroom 0 addr (Nat.le_refl _) (Nat.le_refl _) hsafe, ?_⟩
    intro h4
    subst h4
    exact ⟨writeLoop_word hroom hsafe, Or.inr rfl⟩
  · intro h hif
    rw [bmiWrite_eq hdone hcmd hmax]
    have hw : Wrote bmi len addr (slice buf (len-len) len)
        (writeLoop bmi hif buf len len 0 addr len) :=
      writeLoop_wrote hcmd hroom hlen 0 addr (Nat.le_refl len) (Nat.le_refl len) h
    rw [Nat.sub_self] at hw
    apply Wrote.exact hlen
    refine ⟨hw.finished, hw.reads, ?_, hw.wrote⟩
    exact List.forall_mem_cons.mpr ⟨hcmd, hw.fills⟩

end Write

section Read
variable {bmi : BmiInfo} {hif : Nat → Int} {t : Device} {len : Nat}

/-- A read that succeeds leaves the target's bytes in the buffer, and none beside it. -/
structure ReadExact (bmi : BmiInfo) (t : Device) (addr : UInt32) (buf : Mem) (len : Nat)
    (x : Xfer) : Prop where
  finished : x.finished = true
  fills : ∀ f∈x.fills, f ≤ bmi.maxCmdSize
  target : x.ret = 0 → ∀ i, i < len → x.buf i = t (addr+UInt32.ofNat i)
  frame : ∀ i, len ≤ i → x.buf i = buf i

/-- What the loop has to do from some place on. -/
structure Got (bmi : BmiInfo) (t : Device) (addr : UInt32) (buf : Mem) (len lenRemain : Nat)
    (x : Xfer) : Prop where
  finished : x.finished = true
  fills : ∀ f∈x.fills, f ≤ bmi.maxCmdSize
  before : ∀ i, i < len-lenRemain → x.buf i = buf i
  target : x.ret = 0 → ∀ i, i < lenRemain →
    x.buf (len-lenRemain+i) = t (addr+UInt32.ofNat i)
  frame : ∀ i, len ≤ i → x.buf i = buf i

theorem readLoop_got (hcmd : bmi.maxDataSize+writeHeader ≤ bmi.maxCmdSize)
    (hmax : 0 < bmi.maxDataSize) (hlen : len < 2^32) {fuel lenRemain : Nat} (k : Nat)
    (addr : UInt32) (buf : Mem) (hf : lenRemain ≤ fuel) (hl : lenRemain ≤ len) :
    Got bmi t addr buf len lenRemain (readLoop bmi hif t len fuel k addr lenRemain buf) := by
  induction fuel generalizing k lenRemain addr buf with
  | zero =>
    have h0 : lenRemain = 0 := by omega
    subst h0
    exact ⟨rfl, by simp [readLoop], fun _ _ => rfl, fun _ i hi => by omega, fun _ _ => rfl⟩
  | succ fuel ih =>
    by_cases h0 : lenRemain = 0
    · subst h0
      rw [readLoop, if_pos rfl]
      exact ⟨rfl, by simp, fun _ _ => rfl, fun _ i hi => by omega, fun _ _ => rfl⟩
    · rw [readLoop, if_neg h0]
      simp only [← min_def_lt]
      have hn : 0 < min lenRemain bmi.maxDataSize := by omega
      have hle : min lenRemain bmi.maxDataSize ≤ lenRemain := Nat.min_le_left _ _
      have hfill : min lenRemain bmi.maxDataSize ≤ bmi.maxCmdSize := by omega
      generalize min lenRemain bmi.maxDataSize = n at *
      have hmsg : (le32 bmiReadMemory ++ le32 addr.toNat ++ le32 n).length = writeHeader := rfl
      have htake : (t.read addr n).take n = t.read addr n :=
        List.take_of_length_le (Nat.le_of_eq (length_read n))
      simp only [answer_read (show n < 2^32 by omega), htake, hmsg]
      split_ifs with hk hk'
      · refine ⟨rfl, ?_, fun _ _ => rfl, fun hr => absurd hr hk, fun _ _ => rfl⟩
        simp only [List.forall_mem_singleton]
        omega
      · refine ⟨rfl, ?_, fun _ _ => rfl, fun hr => absurd hr hk', fun _ _ => rfl⟩
        exact List.forall_mem_cons.mpr ⟨by omega, by simpa using hfill⟩
      · have hrest := ih (k+2) (addr+UInt32.ofNat n)
          (store buf (len-lenRemain) (t.read addr n)) (show lenRemain-n ≤ fuel by omega) (by omega)
        have hpos : len-(lenRemain-n) = len-lenRemain+n := by omega
        have hlenr := @length_read t addr n
        refine ⟨hrest.finished, ?_, ?_, ?_, ?_⟩
        · refine List.forall_mem_cons.mpr ⟨by omega, List.forall_mem_cons.mpr ⟨hfill, ?_⟩⟩
          exact hrest.fills
        · intro i hi
          exact (hrest.before i (by omega)).trans (store_outside (.inl hi))
        · intro hr i hi
          by_cases hin : i < n
          · refine (hrest.before (len-lenRemain+i) (by omega)).trans (store_inside ?_)
            rw [read_getElem?, if_pos hin]
          · have htail := hrest.target hr (i-n) (by omega)
            have hat : len-lenRemain+n+(i-n) = len-lenRemain+i := by omega
            rw [hpos, hat, UInt32.add_assoc, ← UInt32.ofNat_add, Nat.add_sub_cancel'
              (Nat.not_lt.mp hin)] at htail
            exact htail
        · intro i hi
          exact (hrest.frame i hi).trans (store_outside (.inr (by omega)))

theorem bmiRead_exact (hdone : bmi.doneSent = false)
    (hcmd : bmi.maxDataSize+writeHeader ≤ bmi.maxCmdSize) (hmax : 0 < bmi.maxDataSize)
    (hsize : bmi.maxDataSize ≤ alignedBufSize) (hlen : len < 2^32) (addr : UInt32) (buf : Mem) :
    ReadExact bmi t addr buf len (bmiRead bmi hif t addr buf len) := by
  have hmod : (bmi.maxDataSize+4+4+4)%2^16 = bmi.maxDataSize+writeHeader := by
    simp only [alignedBufSize, writeHeader] at hsize ⊢
    omega
  have hgot : Got bmi t addr buf len len (readLoop bmi hif t len len 0 addr len buf) :=
    readLoop_got hcmd hmax hlen 0 addr buf (Nat.le_refl len) (Nat.le_refl len)
  rw [bmiRead]
  simp only [hmod]
  rw [hdone, if_neg (by simp), if_neg (by omega)]
  refine ⟨hgot.finished, List.forall_mem_cons.mpr ⟨hcmd, hgot.fills⟩, ?_, hgot.frame⟩
  intro hr i hi
  have hat := hgot.target hr i hi
  rw [Nat.sub_self, Nat.zero_add] at hat
  exact hat

end Read

section FastDownload
variable {bmi : BmiInfo} {hif : Nat → Int} {buf : Mem} {len : Nat}

structure SentData (bmi : BmiInfo) (len : Nat) (bytes : List UInt8) (x : Xfer) : Prop where
  finished : x.finished = true
  reads : Safe len x.reads
  fills : ∀ f∈x.fills, f ≤ bmi.maxCmdSize
  payload : x.ret = 0 → x.sent.flatMap lzPayload = bytes

theorem lzDataLoop_sent (hcmd : bmi.maxDataSize+writeHeader ≤ bmi.maxCmdSize)
    (hmax : lzHeader < bmi.maxDataSize) (hlen : len < 2^32) {fuel lenRemain : Nat} (k : Nat)
    (hf : lenRemain ≤ fuel) (hl : lenRemain ≤ len) :
    SentData bmi len (slice buf (len-lenRemain) lenRemain)
      (lzDataLoop bmi hif buf len fuel k lenRemain) := by
  induction fuel generalizing k lenRemain with
  | zero =>
    have h0 : lenRemain = 0 := by omega
    subst h0
    exact ⟨rfl, by simp [lzDataLoop], by simp [lzDataLoop], fun _ => rfl⟩
  | succ fuel ih =>
    by_cases h0 : lenRemain = 0
    · subst h0
      rw [lzDataLoop, if_pos rfl]
      exact ⟨rfl, by simp, by simp, fun _ => rfl⟩
    · rw [lzDataLoop, if_neg h0]
      simp only [← min_def_lt]
      have hn : 0 < min lenRemain (bmi.maxDataSize-lzHeader) := by omega
      have hle : min lenRemain (bmi.maxDataSize-lzHeader) ≤ lenRemain := Nat.min_le_left _ _
      have hfill : lzHeader+min lenRemain (bmi.maxDataSize-lzHeader) ≤ bmi.maxCmdSize := by
        omega
      generalize min lenRemain (bmi.maxDataSize-lzHeader) = n at *
      have hslice := length_slice buf (len-lenRemain) n
      have hmsg : (le32 bmiLzData ++ le32 n ++ slice buf (len-lenRemain) n).length =
          lzHeader+n := by
        rw [List.length_append, hslice]
        rfl
      have hread : Safe len [.read (len-lenRemain) n] := by
        simp only [safe_cons, ok_read, safe_nil, and_true]
        omega
      simp only [hmsg]
      split_ifs with hk
      · exact ⟨rfl, hread, by simpa using hfill, fun hr => absurd hr hk⟩
      · have hrest := ih (k+1) (show lenRemain-n ≤ fuel by omega) (by omega)
        have hpos : len-lenRemain+n = len-(lenRemain-n) := by omega
        have hsum : n+(lenRemain-n) = lenRemain := by omega
        refine ⟨hrest.finished, ?_, ?_, ?_⟩
        · exact safe_append.mpr ⟨hread, hrest.reads⟩
        · exact List.forall_mem_cons.mpr ⟨hfill, hrest.fills⟩
        · intro hr
          have hdata := lzPayload_data (slice buf (len-lenRemain) n) (by omega)
          rw [hslice] at hdata
          simp only [Xfer.after, List.singleton_append, List.flatMap_cons, hdata]
          rw [hrest.payload hr, ← hpos, ← slice_add, hsum]

theorem bmiLzDataSend_sent (hif : Nat → Int) (buf : Mem) (hdone : bmi.doneSent = false)
    (hcmd : bmi.maxDataSize+writeHeader ≤ bmi.maxCmdSize) (hmax : writeHeader < bmi.maxDataSize)
    (hsize : bmi.maxDataSize ≤ alignedBufSize) (hlen : len < 2^32) :
    SentData bmi len (slice buf 0 len) (bmiLzDataSend bmi hif buf len) := by
  have hmod : (bmi.maxDataSize+lzHeader)%2^16 = bmi.maxDataSize+lzHeader := by
    simp only [alignedBufSize, lzHeader] at hsize ⊢
    omega
  have hhdr : lzHeader < writeHeader := by decide
  have hsent : SentData bmi len (slice buf (len-len) len) (lzDataLoop bmi hif buf len len 0 len) :=
    lzDataLoop_sent hcmd (by omega) hlen 0 (Nat.le_refl len) (Nat.le_refl len)
  rw [Nat.sub_self] at hsent
  rw [bmiLzDataSend]
  simp only [hmod]
  rw [hdone, if_neg (by simp), if_neg (by omega)]
  exact ⟨hsent.finished, hsent.reads, List.forall_mem_cons.mpr ⟨by omega, hsent.fills⟩,
    hsent.payload⟩

theorem bmiLzStreamStartSend_sent (hcmd : writeHeader ≤ bmi.maxCmdSize) (addr : UInt32) :
    SentData bmi len [] (bmiLzStreamStartSend bmi hif addr buf) := by
  have hmsg : (le32 bmiLzStreamStart ++ le32 addr.toNat).length = 8 := rfl
  have hhdr : writeHeader = 12 := rfl
  have hdata : lzPayload (le32 bmiLzStreamStart ++ le32 addr.toNat) = [] := by
    rw [lzPayload, take_le32, value_le32 (by decide), if_neg (by decide)]
  rw [bmiLzStreamStartSend]
  simp only [hmsg]
  split_ifs
  · exact ⟨rfl, by simp, by simp, fun _ => rfl⟩
  · exact ⟨rfl, by simp, by simp, fun _ => rfl⟩
  · refine ⟨rfl, by simp, ?_, fun _ => rfl⟩
    intro f hf
    simp at hf
    omega
  · refine ⟨rfl, by simp, ?_, fun _ => by simp [hdata]⟩
    intro f hf
    simp at hf
    omega

/-- What is known of a download, or of a part of one. -/
structure Downloaded (bmi : BmiInfo) (len : Nat) (bytes : List UInt8) (d : Download) : Prop where
  finished : d.finished = true
  reads : Safe len d.reads
  wordReads : Safe 4 d.wordReads
  fills : ∀ f∈d.fills, f ≤ bmi.maxCmdSize
  payload : d.ret = 0 → d.sent.flatMap lzPayload = bytes

theorem SentData.andThen {x : Xfer} {d : Download} {u v : List UInt8}
    (hx : SentData bmi len u x) (hd : Downloaded bmi len v d) :
    Downloaded bmi len (u ++ v) (x.andThen d) := by
  rw [Xfer.andThen]
  split_ifs with hr
  · refine ⟨by simp [hx.finished], by simpa using hx.reads, by simp, ?_, fun h => absurd h hr⟩
    simpa using hx.fills
  · refine ⟨by simp [hx.finished, hd.finished], safe_append.mpr ⟨hx.reads, hd.reads⟩,
      hd.wordReads, List.forall_mem_append.mpr ⟨hx.fills, hd.fills⟩, ?_⟩
    intro h
    rw [List.flatMap_append, hx.payload (not_not.mp hr), hd.payload h]

/-- The last word of an image: its bytes, and zeros. -/
theorem slice_lastWord (buf : Mem) (pos n : Nat) (hn : n ≤ 4) :
    slice (store (fun _ => 0) 0 (slice buf pos n)) 0 4 =
      slice buf pos n ++ List.replicate (4-n) 0 := by
  apply List.ext_getElem?
  intro i
  rw [slice_getElem?, List.getElem?_append, length_slice]
  by_cases hi : i < n
  · rw [if_pos (by omega), if_pos hi, slice_getElem?, if_pos hi]
    congr 1
    exact store_inside (by rw [slice_getElem?, if_pos hi])
  · rw [if_neg hi]
    by_cases hi4 : i < 4
    · have hrep : (List.replicate (4-n) (0 : UInt8))[i-n]? = some 0 :=
        List.getElem?_replicate_of_lt (by omega)
      rw [if_pos hi4, hrep]
      congr 1
      exact store_outside (.inr (by rw [length_slice]; omega))
    · rw [if_neg hi4, List.getElem?_eq_none (by rw [List.length_replicate]; omega)]

theorem SentData.andThenWord {x : Xfer} {d : Download} {u v : List UInt8}
    (hx : SentData bmi 4 u x) (hd : Downloaded bmi len v d) :
    Downloaded bmi len (u ++ v)
      { ({ x with reads := [] } : Xfer).andThen d with wordReads := x.reads } := by
  have hsent : SentData bmi len u { x with reads := [] } :=
    ⟨hx.finished, safe_nil len, hx.fills, hx.payload⟩
  have hthen := hsent.andThen hd
  exact ⟨hthen.finished, hthen.reads, hx.reads, hthen.fills, hthen.payload⟩

theorem Downloaded.copy {d : Download} {u : List UInt8} {pos n : Nat} (hd : Downloaded bmi len u d)
    (h : pos+n ≤ len) : Downloaded bmi len u { d with reads := .read pos n::d.reads } :=
  ⟨hd.finished, safe_cons.mpr ⟨ok_read.mpr h, hd.reads⟩, hd.wordReads, hd.fills, hd.payload⟩

theorem slice_words (buf : Mem) (len : Nat) :
    slice buf 0 len = slice buf 0 (len-len%4) ++ slice buf (len-len%4) (len%4) := by
  have hadd := slice_add buf 0 (len-len%4) (len%4)
  rw [Nat.zero_add, Nat.sub_add_cancel (Nat.mod_le len 4)] at hadd
  exact hadd

theorem bmiFastDownload_downloaded (hif : Nat → Nat → Int) (hdone : bmi.doneSent = false)
    (hcmd : bmi.maxDataSize+writeHeader ≤ bmi.maxCmdSize) (hmax : writeHeader < bmi.maxDataSize)
    (hsize : bmi.maxDataSize ≤ alignedBufSize) (hlen : len < 2^32) (addr : UInt32) :
    Downloaded bmi len (slice buf 0 len ++ List.replicate ((4-len%4)%4) 0)
      (bmiFastDownload bmi hif addr buf len) := by
  have hhdr : writeHeader ≤ bmi.maxCmdSize := by omega
  have hnil : Downloaded bmi len [] {} :=
    ⟨rfl, by simp, by simp, by simp, fun _ => rfl⟩
  have hstart : SentData bmi len [] (bmiLzStreamStartSend bmi (hif 0) addr buf) :=
    bmiLzStreamStartSend_sent hhdr addr
  have hdata : SentData bmi len (slice buf 0 (len-len%4))
      (bmiLzDataSend bmi (hif 1) buf (len-len%4)) := by
    have hd := bmiLzDataSend_sent (hif 1) buf hdone hcmd hmax hsize
      (show len-len%4 < 2^32 by omega)
    exact ⟨hd.finished, hd.reads.mono (Nat.sub_le _ _), hd.fills, hd.payload⟩
  have hstop : Downloaded bmi len [] ((bmiLzStreamStartSend bmi (hif 3) 0 buf).andThen {}) :=
    (bmiLzStreamStartSend_sent hhdr 0).andThen hnil
  rw [bmiFastDownload, slice_words]
  dsimp only
  by_cases h4 : len%4 = 0
  · have hall := hstart.andThen (hdata.andThen hstop)
    have hzero : (4-len%4)%4 = 0 := by omega
    have hempty : slice buf (len-len%4) (len%4) = [] := by
      rw [h4]
      rfl
    rw [if_neg (not_not.mpr h4), if_neg (not_not.mpr h4), List.nil_append, hempty, hzero]
    simpa using hall
  · have hword := bmiLzDataSend_sent (hif 2)
      (store (fun _ => 0) 0 (slice buf (len-len%4) (len%4))) hdone hcmd hmax hsize
      (show 4 < 2^32 by decide)
    rw [slice_lastWord buf (len-len%4) (len%4) (by omega)] at hword
    have hall := hstart.andThen ((hdata.andThen (hword.andThenWord hstop)).copy
      (show len-len%4+len%4 ≤ len by omega))
    have hfill : (4-len%4)%4 = 4-len%4 := by omega
    rw [if_pos h4, if_pos h4, hfill]
    simpa [List.append_assoc] using hall

end FastDownload

section Exact

/-- With `cmd_buf` as `ath6kl_bmi_init` makes it, reads and downloads are exact, and a write is
exactly when its last piece is a multiple of four bytes and a word fits one piece. -/
theorem bmi_exact_iff (maxDataSize : Nat) (hmin : 12 < maxDataSize) (hmax : maxDataSize ≤ 400)
    (addr : UInt32) (buf : Mem) (len : UInt32) :
    let bmi := (bmiInit true maxDataSize).2
    ((∀ hif, WriteExact bmi addr buf len.toNat (bmiWrite bmi hif addr buf len.toNat)) ↔
      len.toNat%(maxDataSize-12)%4 = 0 ∧ (len = 4 → 16 ≤ maxDataSize)) ∧
      (∀ hif t, ReadExact bmi t addr buf len.toNat (bmiRead bmi hif t addr buf len.toNat)) ∧
      ∀ hif, Downloaded bmi len.toNat
        (slice buf 0 len.toNat ++ List.replicate ((4-len.toNat%4)%4) 0)
        (bmiFastDownload bmi hif addr buf len.toNat) := by
  have hinit : (bmiInit true maxDataSize).2 = ⟨false, maxDataSize, maxDataSize+4*3⟩ := by
    rw [bmiInit, if_neg (by omega), if_pos rfl]
  dsimp only
  rw [hinit]
  generalize hb : (⟨false, maxDataSize, maxDataSize+4*3⟩ : BmiInfo) = bmi
  have hdata : bmi.maxDataSize = maxDataSize := by rw [← hb]
  have hdone : bmi.doneSent = false := by rw [← hb]
  have hcmd : bmi.maxDataSize+writeHeader ≤ bmi.maxCmdSize := by rw [← hb]; rfl
  have hroom : writeHeader < bmi.maxDataSize := by rw [hdata]; exact hmin
  have hsize : bmi.maxDataSize ≤ alignedBufSize := by rw [hdata]; exact hmax
  have hlen := len.toNat_lt
  refine ⟨?_, fun hif t => bmiRead_exact hdone hcmd (by omega) hsize hlen addr buf,
    fun hif => bmiFastDownload_downloaded hif hdone hcmd hroom hsize hlen addr⟩
  rw [bmiWrite_exact_iff hdone hcmd hroom hsize hlen, hdata]
  have h4 : len = 4 ↔ len.toNat = 4 := by
    rw [← UInt32.toNat_inj]
    rfl
  constructor
  · intro h
    refine ⟨h.pieces, fun hw => ?_⟩
    have hfits := (h.word (h4.mp hw)).1
    simp only [writeHeader] at hfits
    omega
  · rintro ⟨hp, hw⟩
    refine ⟨hp, fun he => ⟨?_, Or.inr he⟩⟩
    have hfits := hw (h4.mpr he)
    simp only [writeHeader]
    omega

/-- Eight bytes through SDIO. -/
theorem bmi_exact_eight :
    let bmi := (bmiInit true 256).2
    let buf := ofList [1, 2, 3, 4, 5, 6, 7, 8]
    ((∀ hif, WriteExact bmi 0x400 buf (8 : UInt32).toNat
        (bmiWrite bmi hif 0x400 buf (8 : UInt32).toNat)) ↔
      (8 : UInt32).toNat%(256-12)%4 = 0 ∧ ((8 : UInt32) = 4 → 16 ≤ 256)) ∧
      (∀ hif t, ReadExact bmi t 0x400 buf (8 : UInt32).toNat
        (bmiRead bmi hif t 0x400 buf (8 : UInt32).toNat)) ∧
      ∀ hif, Downloaded bmi (8 : UInt32).toNat
        (slice buf 0 (8 : UInt32).toNat ++
          List.replicate ((4-(8 : UInt32).toNat%4)%4) 0)
        (bmiFastDownload bmi hif 0x400 buf (8 : UInt32).toNat) :=
  bmi_exact_iff 256 (by decide) (by decide) 0x400 (ofList [1, 2, 3, 4, 5, 6, 7, 8]) 8

/-- Three bytes after a buffer of five are read, and two bytes of a word after its last one. -/
theorem bmiWrite_overrun :
    ¬WriteExact (bmiInit true 256).2 0x400 (ofList [1, 2, 3, 4, 5]) 5
      (bmiWrite (bmiInit true 256).2 (fun _ => 0) 0x400 (ofList [1, 2, 3, 4, 5]) 5) ∧
    ¬WriteExact (bmiInit true 14).2 0x400 (ofList [1, 2, 3, 4]) 4
      (bmiWrite (bmiInit true 14).2 (fun _ => 0) 0x400 (ofList [1, 2, 3, 4]) 4) := by
  refine ⟨fun h => ?_, fun h => ?_⟩
  · exact absurd h.reads (by decide +kernel)
  · exact absurd h.reads (by decide +kernel)

end Exact

end Ath6kl.Bmi
