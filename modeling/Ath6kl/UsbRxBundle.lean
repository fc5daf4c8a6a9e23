import Ath6kl.Htc
import Ath6kl.Lib.Deframe
import Ath6kl.Lib.LittleEndian

/-! A received bundle over USB (usb.c, `ath6kl_usb_recv_bundle_complete`): one bulk transfer
holds HTC frames one after the other, and the handler copies each into a buffer of its own.
What follows the transfer in the URB buffer is left from earlier ones; the handler may read a
header there. -/
namespace Ath6kl.UsbRxBundle
open Htc Lib.Deframe Lib.LittleEndian

/-- `ATH6KL_MAX_AMSDU_SIZE`. -/
def maxAmsduSize : Nat := 7935

/-- The URB buffer; an offset past the transfer is memory like any other. -/
abbrev Memory := Nat → UInt8

namespace Memory
variable (mem : Memory)

/-- `memcpy` of `len` bytes at `netdata`. -/
def bytes (netdata len : Nat) : List UInt8 := (List.range len).map fun i => mem (netdata+i)

/-- `le16_to_cpu` of `payld_len`. -/
def payldLen (netdata : Nat) : Nat := value [mem (netdata+2), mem (netdata+3)]

end Memory

/-- The inner loop at `netdata` with `netlen` bytes left; `align` is
`ATH6KL_HW_TGT_ALIGN_PADDING`, `alloc` says whether `dev_alloc_skb` gives a buffer for the frame
at an offset. The lengths are `u16`. -/
def recvLoop (align : Bool) (alloc : Nat → Bool) (mem : Memory) :
    Nat → Nat → Nat → List (List UInt8) → Option (List (List UInt8))
  | 0, _, _, _ => none
  | fuel+1, netdata, netlen, ioCompQueue =>
    let eid := (mem netdata).toNat
    if eid ≥ endpointMax then some ioCompQueue
    else
      let payloadLen := mem.payldLen netdata
      let actFrameLen := if align then (htcHdrLength + payloadLen) % 2^16 else 0
      let extraPad :=
        if align then if eid = 0 ∨ eid = 1 then 0 else (mem (netdata+5)).toNat else 0
      if payloadLen > maxAmsduSize then some ioCompQueue
      else
        let frameLen :=
          if align then (actFrameLen + extraPad) % 2^16 else (htcHdrLength + payloadLen) % 2^16
        if netlen ≥ frameLen then
          if !alloc netdata then some ioCompQueue
          else
            let newSkb := mem.bytes netdata (if align then actFrameLen else frameLen)
            if netlen - frameLen = 0 then some (ioCompQueue ++ [newSkb])
            else
              recvLoop align alloc mem fuel (netdata+frameLen) (netlen-frameLen)
                (ioCompQueue ++ [newSkb])
        else some ioCompQueue

/-- `ath6kl_usb_recv_bundle_complete` for an URB with `status`: what `io_comp_queue` holds
behind it. Every error breaks out, `-EOVERFLOW` too. -/
def recvBundleComplete (align : Bool) (alloc : Nat → Bool) (mem : Memory) (fuel : Nat)
    (status : Int) (actualLength : Nat) (ioCompQueue : List (List UInt8)) :
    Option (List (List UInt8)) :=
  if status ≠ 0 then some ioCompQueue
  else if actualLength = 0 then some ioCompQueue
  else recvLoop align alloc mem fuel 0 actualLength ioCompQueue

/-! Frames as lists of bytes. -/

def frameEid (f : List UInt8) : Nat := (f.getD 0 0).toNat

def framePayldLen (f : List UInt8) : Nat := value [f.getD 2 0, f.getD 3 0]

def framePad (align : Bool) (f : List UInt8) : Nat :=
  if align ∧ frameEid f ≠ 0 ∧ frameEid f ≠ 1 then (f.getD 5 0).toNat else 0

structure IsFrame (align : Bool) (f : List UInt8) : Prop where
  eid : frameEid f < endpointMax
  payload : framePayldLen f ≤ maxAmsduSize
  length : f.length = htcHdrLength + framePayldLen f + framePad align f

def frameBody (f : List UInt8) : List UInt8 := f.take (htcHdrLength + framePayldLen f)

theorem IsFrame.of_header (align : Bool) {f g : List UInt8} (h : ∀ i<6, f.getD i 0 = g.getD i 0) :
    frameEid f = frameEid g ∧ framePayldLen f = framePayldLen g ∧
      framePad align f = framePad align g := by
  have heid : frameEid f = frameEid g := by rw [frameEid, frameEid, h 0 (by decide)]
  refine ⟨heid, ?_, ?_⟩
  · rw [framePayldLen, framePayldLen, h 2 (by decide), h 3 (by decide)]
  · rw [framePad, framePad, heid, h 5 (by decide)]

theorem IsFrame.header_le {align : Bool} {f : List UInt8} (h : IsFrame align f) :
    htcHdrLength ≤ f.length := by
  rw [h.length]
  omega

theorem getD_head {x s : List UInt8} (h : x <+: s) {i : Nat} (hi : i<x.length) :
    x.getD i 0 = s.getD i 0 := by
  obtain ⟨t, rfl⟩ := h
  rw [List.getD_eq_getElem?_getD, List.getD_eq_getElem?_getD, List.getElem?_append_left hi]

theorem isFrame_selfDelimiting (align : Bool) : SelfDelimiting (IsFrame align) where
  unique := by
    intro x y s t hx hy he
    have hh : ∀ i<6, x.getD i 0 = y.getD i 0 := by
      intro i hi
      rw [getD_head (List.prefix_append x s) (Nat.lt_of_lt_of_le hi hx.header_le),
        getD_head (List.prefix_append y t) (Nat.lt_of_lt_of_le hi hy.header_le), he]
    obtain ⟨-, hp, hpad⟩ := IsFrame.of_header align hh
    have hlen : x.length = y.length := by rw [hx.length, hy.length, hp, hpad]
    exact List.append_inj_left he hlen

theorem longest_empty (align : Bool) : Longest (IsFrame align) [] [] := by
  refine Longest.nil fun f hf hpre => ?_
  have hle := hf.header_le
  rw [List.prefix_nil.mp hpre] at hle
  exact absurd hle (by decide)

namespace Memory
variable (mem : Memory)

@[simp] theorem length_bytes (netdata len : Nat) : (mem.bytes netdata len).length = len := by
  simp [bytes]

theorem bytes_add (netdata m n : Nat) :
    mem.bytes netdata (m+n) = mem.bytes netdata m ++ mem.bytes (netdata+m) n := by
  rw [bytes, List.range_add, List.map_append, List.map_map]
  simp [bytes, Function.comp_def, Nat.add_assoc]

theorem getD_bytes {netdata len i : Nat} (h : i<len) :
    (mem.bytes netdata len).getD i 0 = mem (netdata+i) := by
  simp [bytes, List.getD, h]

theorem take_bytes {netdata m n : Nat} (h : m≤n) :
    (mem.bytes netdata n).take m = mem.bytes netdata m := by
  obtain ⟨k, rfl⟩ := Nat.exists_eq_add_of_le h
  rw [bytes_add, List.take_left' (mem.length_bytes netdata m)]

theorem bytes_getD (bs : List UInt8) : bytes (fun i => bs.getD i 0) 0 bs.length = bs := by
  refine List.ext_getElem (by simp) fun i _ hi => ?_
  simp [bytes, hi]

/-- The padding that the header at `netdata` announces. -/
def pad (align : Bool) (netdata : Nat) : Nat :=
  framePad align (mem.bytes netdata htcHdrLength)

theorem header_of_prefix (align : Bool) {netdata len : Nat} {f : List UInt8}
    (hlen : htcHdrLength ≤ f.length) (hf : f <+: mem.bytes netdata len) :
    frameEid f = (mem netdata).toNat ∧ framePayldLen f = mem.payldLen netdata ∧
      framePad align f = mem.pad align netdata := by
  have hh : ∀ i<6, f.getD i 0 = (mem.bytes netdata htcHdrLength).getD i 0 := by
    intro i hi
    have hi' : i<f.length := Nat.lt_of_lt_of_le hi hlen
    have hil : i<len := Nat.lt_of_lt_of_le hi' (by simpa using hf.length_le)
    rw [getD_head hf hi', getD_bytes mem hil]
    exact (getD_bytes mem hi).symm
  obtain ⟨he, hp, hpad⟩ := IsFrame.of_header align hh
  exact ⟨he, hp, hpad⟩

theorem pad_eq (align : Bool) (netdata : Nat) :
    mem.pad align netdata =
      if align ∧ (mem netdata).toNat ≠ 0 ∧ (mem netdata).toNat ≠ 1 then
        (mem (netdata+5)).toNat
      else 0 := by
  rw [pad, framePad, frameEid, getD_bytes mem (by decide), getD_bytes mem (by decide)]
  rfl

/-- The length of the frame at `netdata`, padding included. -/
def frameLen (align : Bool) (netdata : Nat) : Nat :=
  htcHdrLength + mem.payldLen netdata + mem.pad align netdata

theorem frameLen_pos (align : Bool) (netdata : Nat) : 0 < mem.frameLen align netdata := by
  have : 0<htcHdrLength := by decide
  rw [frameLen]
  omega

/-- The handler copies a frame that begins at `netdata` and fits. -/
structure Fits (align : Bool) (netdata netlen : Nat) : Prop where
  eid : (mem netdata).toNat < endpointMax
  payload : mem.payldLen netdata ≤ maxAmsduSize
  length : mem.frameLen align netdata ≤ netlen

theorem actFrameLen_eq {netdata : Nat} (hp : mem.payldLen netdata ≤ maxAmsduSize) :
    (htcHdrLength + mem.payldLen netdata) % 2^16 = htcHdrLength + mem.payldLen netdata := by
  apply Nat.mod_eq_of_lt
  have : mem.payldLen netdata ≤ 7935 := hp
  rw [htcHdrLength]
  omega

theorem frameLen_eq (align : Bool) {netdata : Nat} (hp : mem.payldLen netdata ≤ maxAmsduSize) :
    (if align then
        ((if align then (htcHdrLength + mem.payldLen netdata) % 2^16 else 0) +
          if align then
            if (mem netdata).toNat = 0 ∨ (mem netdata).toNat = 1 then 0
            else (mem (netdata+5)).toNat
          else 0) % 2^16
      else (htcHdrLength + mem.payldLen netdata) % 2^16) = mem.frameLen align netdata := by
  have hpad : (mem (netdata+5)).toNat < 256 := (mem (netdata+5)).toNat_lt
  have hlen : mem.payldLen netdata ≤ 7935 := hp
  rw [mem.actFrameLen_eq hp, frameLen, pad_eq]
  cases align with
  | false => simp
  | true =>
    simp only [if_true, true_and, htcHdrLength]
    split_ifs <;> omega

theorem copyLen_eq (align : Bool) {netdata : Nat} (hp : mem.payldLen netdata ≤ maxAmsduSize) :
    (if align then if align then (htcHdrLength + mem.payldLen netdata) % 2^16 else 0
      else mem.frameLen align netdata) = htcHdrLength + mem.payldLen netdata := by
  rw [mem.actFrameLen_eq hp, frameLen, pad_eq]
  cases align <;> simp

theorem recvLoop_fits {align : Bool} {alloc : Nat → Bool} {netdata netlen : Nat}
    (h : mem.Fits align netdata netlen) (fuel : Nat) (q : List (List UInt8)) :
    recvLoop align alloc mem (fuel+1) netdata netlen q =
      if alloc netdata = false then some q
      else if netlen - mem.frameLen align netdata = 0 then
        some (q ++ [mem.bytes netdata (htcHdrLength + mem.payldLen netdata)])
      else
        recvLoop align alloc mem fuel (netdata + mem.frameLen align netdata)
          (netlen - mem.frameLen align netdata)
          (q ++ [mem.bytes netdata (htcHdrLength + mem.payldLen netdata)]) := by
  have hflen := mem.frameLen_eq align h.payload
  have hclen := mem.copyLen_eq align h.payload
  simp only [recvLoop]
  rw [if_neg (Nat.not_le_of_lt h.eid), if_neg (Nat.not_lt_of_le h.payload), hflen,
    if_pos h.length, hclen]
  simp only [Bool.not_eq_true']

theorem recvLoop_stops {align : Bool} (alloc : Nat → Bool) {netdata netlen : Nat}
    (h : ¬mem.Fits align netdata netlen) (fuel : Nat) (q : List (List UInt8)) :
    recvLoop align alloc mem (fuel+1) netdata netlen q = some q := by
  simp only [recvLoop]
  by_cases he : (mem netdata).toNat ≥ endpointMax
  · rw [if_pos he]
  by_cases hp : mem.payldLen netdata > maxAmsduSize
  · rw [if_neg he, if_pos hp]
  have hflen := mem.frameLen_eq align (Nat.le_of_not_lt hp)
  have hlen : ¬netlen ≥ mem.frameLen align netdata :=
    fun hl => h ⟨Nat.lt_of_not_le he, Nat.le_of_not_lt hp, hl⟩
  rw [if_neg he, if_neg hp, hflen, if_neg hlen]

theorem Fits.isFrame {align : Bool} {netdata netlen : Nat} (h : mem.Fits align netdata netlen) :
    IsFrame align (mem.bytes netdata (mem.frameLen align netdata)) ∧
      frameBody (mem.bytes netdata (mem.frameLen align netdata)) =
        mem.bytes netdata (htcHdrLength + mem.payldLen netdata) := by
  have hle : htcHdrLength ≤ mem.frameLen align netdata := by
    rw [frameLen]
    omega
  obtain ⟨he, hp, hpad⟩ := mem.header_of_prefix align
    (Nat.le_trans hle (Nat.le_of_eq (mem.length_bytes netdata _).symm)) (List.prefix_refl _)
  refine ⟨⟨?_, ?_, ?_⟩, ?_⟩
  · rw [he]
    exact h.eid
  · rw [hp]
    exact h.payload
  · rw [hp, hpad, length_bytes, frameLen]
  · rw [frameBody, hp]
    exact mem.take_bytes (by rw [frameLen]; omega)

theorem not_isFrame {align : Bool} {netdata netlen : Nat} (h : ¬mem.Fits align netdata netlen)
    (f : List UInt8) (hf : IsFrame align f) : ¬f <+: mem.bytes netdata netlen := by
  intro hpre
  obtain ⟨he, hp, hpad⟩ := mem.header_of_prefix align hf.header_le hpre
  refine h ⟨?_, ?_, ?_⟩
  · rw [← he]
    exact hf.eid
  · rw [← hp]
    exact hf.payload
  · have hlen : f.length ≤ netlen := by simpa using hpre.length_le
    rw [hf.length, hp, hpad] at hlen
    exact hlen

end Memory

/-- Of frames in a row, from an offset on, those before the first that gets no buffer. -/
def granted (alloc : Nat → Bool) : Nat → List (List UInt8) → List (List UInt8)
  | _, [] => []
  | netdata, f::fs => if alloc netdata then f :: granted alloc (netdata+f.length) fs else []

theorem granted_all {alloc : Nat → Bool} (ha : ∀ n, alloc n = true) (netdata : Nat)
    (fs : List (List UInt8)) : granted alloc netdata fs = fs := by
  induction fs generalizing netdata with
  | nil => rfl
  | cons f fs ih => rw [granted, if_pos (ha netdata), ih]

/-- The loop copies of the longest run of frames at its place what gets a buffer. The induction is on
the fuel, which each frame spends one of and the bytes left bound. -/
theorem recvLoop_longest (align : Bool) (alloc : Nat → Bool) (mem : Memory) {fuel : Nat}
    (netdata netlen : Nat) (hfuel : netlen<fuel) (q : List (List UInt8)) :
    ∃ fs, Longest (IsFrame align) (mem.bytes netdata netlen) fs ∧
      recvLoop align alloc mem fuel netdata netlen q =
        some (q ++ (granted alloc netdata fs).map frameBody) := by
  induction fuel generalizing netdata netlen q with
  | zero => exact absurd hfuel (Nat.not_lt_zero _)
  | succ fuel ih =>
    by_cases h : mem.Fits align netdata netlen
    · obtain ⟨hframe, hbody⟩ := h.isFrame
      have hpos := mem.frameLen_pos align netdata
      obtain ⟨rest, hrest⟩ := Nat.exists_eq_add_of_le h.length
      have hsub : netlen - mem.frameLen align netdata = rest := by omega
      obtain ⟨fs, hfs, hq⟩ := ih (netdata + mem.frameLen align netdata) rest (by omega)
        (q ++ [mem.bytes netdata (htcHdrLength + mem.payldLen netdata)])
      rw [mem.recvLoop_fits h, hsub, hrest, mem.bytes_add]
      refine ⟨mem.bytes netdata (mem.frameLen align netdata)::fs,
        hfs.cons (isFrame_selfDelimiting align) hframe, ?_⟩
      rw [granted, Memory.length_bytes]
      cases ha : alloc netdata with
      | false => simp
      | true =>
        rw [if_neg Bool.true_eq_false.mp, if_pos rfl, List.map_cons, hbody]
        by_cases h0 : rest = 0
        · have hnil : fs = [] := by
            rw [h0] at hfs
            exact hfs.eq (longest_empty align)
          rw [if_pos h0, hnil]
          rfl
        · rw [if_neg h0, hq, List.append_assoc]
          rfl
    · exact ⟨[], Longest.nil (mem.not_isFrame h), by rw [mem.recvLoop_stops alloc h]; simp [granted]⟩

/-- With every allocation granted, the handler appends the bodies of the longest run of complete
frames at the head of the transfer, whatever lies in the buffer past it, and an URB that failed
adds nothing. -/
theorem recv_bundle_longest (align : Bool) {alloc : Nat → Bool} (ha : ∀ n, alloc n = true)
    (transfer : List UInt8) (ioCompQueue : List (List UInt8)) :
    ∃ fs, Longest (IsFrame align) transfer fs ∧
      ∀ mem : Memory, mem.bytes 0 transfer.length = transfer →
        ∀ fuel, transfer.length<fuel → ∀ status,
          recvBundleComplete align alloc mem fuel status transfer.length ioCompQueue =
            some (ioCompQueue ++ if status = 0 then fs.map frameBody else []) := by
  obtain ⟨fs, hfs, -⟩ := recvLoop_longest align alloc (fun i => transfer.getD i 0) 0
    transfer.length (Nat.lt_succ_self _) []
  rw [Memory.bytes_getD] at hfs
  refine ⟨fs, hfs, fun mem hmem fuel hfuel status => ?_⟩
  obtain ⟨fs', hfs', hq⟩ := recvLoop_longest align alloc mem 0 transfer.length hfuel
    ioCompQueue
  rw [granted_all ha] at hq
  rw [hmem] at hfs'
  obtain rfl := hfs.eq hfs'
  unfold recvBundleComplete
  by_cases hs : status = 0
  · rw [if_neg (not_not.mpr hs), if_pos hs]
    split_ifs with h0
    · have hnil : transfer = [] := List.length_eq_zero_iff.mp h0
      rw [hnil] at hfs
      simp [← (longest_empty align).eq hfs]
    · exact hq
  · rw [if_pos hs, if_neg hs, List.append_nil]

/-- A frame with two bytes of padding, one without, and three bytes of a third, before stale
ones. -/
theorem recv_bundle_longest_padded :
    (∀ n, (fun _ => true : Nat → Bool) n = true) ∧
      ∃ fs, Longest (IsFrame true) [2, 0, 1, 0, 0, 2, 77, 0, 0, 1, 0, 0, 0, 0, 3, 0, 9] fs ∧
        ∀ mem : Memory, mem.bytes 0 17 = [2, 0, 1, 0, 0, 2, 77, 0, 0, 1, 0, 0, 0, 0, 3, 0, 9] →
          ∀ fuel, 17<fuel → ∀ status,
            recvBundleComplete true (fun _ => true) mem fuel status 17 [] =
              some ([] ++ if status = 0 then fs.map frameBody else []) :=
  ⟨fun _ => rfl, recv_bundle_longest true (fun _ => rfl)
    [2, 0, 1, 0, 0, 2, 77, 0, 0, 1, 0, 0, 0, 0, 3, 0, 9] []⟩

example : recvBundleComplete true (fun _ => true)
    (fun i => [2, 0, 1, 0, 0, 2, 77, 0, 0, 1, 0, 0, 0, 0, 3, 0, 9, 4, 4].getD i 0) 9 0 17 [] =
      some [[2, 0, 1, 0, 0, 2, 77], [1, 0, 0, 0, 0, 3]] := by
  decide

end Ath6kl.UsbRxBundle
