import Ath6kl.SdioScatter

/-! The bounce buffer and the scatter list of the host have the same effect: a write ends at the
last byte of its window of mailbox 0, a read fills the entries one after the other. -/
namespace Ath6kl.SdioScatter
open SdioAsync

theorem totalLen_cons (e : Nat × UInt32) (l : List (Nat × UInt32)) :
    totalLen (e::l) = e.2.toNat + totalLen l := by
  simp [totalLen]

/-! The length of a request. -/

theorem foldl_len {l : List (Nat × UInt32)} {acc : UInt32}
    (h : acc.toNat + totalLen l < 2^32) :
    (l.foldl (fun len e => len + e.2) acc).toNat = acc.toNat + totalLen l := by
  induction l generalizing acc with
  | nil => simp [totalLen]
  | cons e l ih =>
    rw [totalLen_cons] at h ⊢
    have hacc : (acc + e.2).toNat = acc.toNat + e.2.toNat := by
      rw [UInt32.toNat_add]
      exact Nat.mod_eq_of_lt (by omega)
    rw [List.foldl_cons, ih (by omega), hacc, Nat.add_assoc]

theorem totalLen_blocks {l : List (Nat × UInt32)}
    (h : ∀ e∈l, 0<e.2 ∧ e.2 % hifMboxBlockSize = 0) : totalLen l % 128 = 0 := by
  induction l with
  | nil => rfl
  | cons e l ih =>
    have he : e.2.toNat % 128 = 0 := by
      have hmod := congrArg UInt32.toNat (h e List.mem_cons_self).2
      rwa [UInt32.toNat_mod] at hmod
    have hl := ih fun x hx => h x (List.mem_cons_of_mem e hx)
    rw [totalLen_cons]
    omega

/-! The copies through the bounce buffer. -/

theorem cpScatDmaBuf_copies (fromDma : Bool) (dma off : Nat) (l : List (Nat × UInt32))
    (b : Bounce) : ∀ c∈(cpScatDmaBuf fromDma dma off l b).copies,
      c∈b.copies ∨ c.1+c.2 ≤ off + totalLen l := by
  induction l generalizing off b with
  | nil => exact fun c hc => Or.inl hc
  | cons e l ih =>
    intro c hc
    rw [totalLen_cons]
    rcases ih _ _ c hc with hb | hle
    · rcases List.mem_append.mp hb with hb | hb
      · exact Or.inl hb
      · rw [List.mem_singleton.mp hb]
        exact Or.inr (by dsimp only; omega)
    · exact Or.inr (by omega)

theorem memcpy_ne {h : Heap} {dst c : Nat} (hc : c ≠ dst) (doff src soff len : Nat) :
    h.memcpy dst doff src soff len c = h c := Function.update_of_ne hc ..

theorem cp_to_dma_frame {dma c : Nat} (hc : c ≠ dma) (off : Nat) (l : List (Nat × UInt32))
    (b : Bounce) : (cpScatDmaBuf false dma off l b).heap c = b.heap c := by
  induction l generalizing off b with
  | nil => rfl
  | cons e l ih =>
    rw [cpScatDmaBuf, ih]
    exact memcpy_ne hc ..

theorem cp_to_dma_bytes {dma : Nat} {l : List (Nat × UInt32)} (hl : ∀ e∈l, e.1 ≠ dma)
    (off : Nat) (b : Bounce) :
    (cpScatDmaBuf false dma off l b).heap.bytes dma (off + totalLen l) =
      b.heap.bytes dma off ++ sgBytes b.heap l := by
  induction l generalizing off b with
  | nil => simp [cpScatDmaBuf, totalLen, sgBytes]
  | cons e l ih =>
    have hne : e.1 ≠ dma := hl e List.mem_cons_self
    have hcons : ∀ x∈l, x.1 ≠ dma := fun x hx => hl x (List.mem_cons_of_mem e hx)
    have hsg : sgBytes (b.heap.memcpy dma off e.1 0 e.2.toNat) l = sgBytes b.heap l := by
      refine List.flatMap_congr fun x hx => ?_
      rw [Heap.bytes, memcpy_ne (hcons x hx)]
      rfl
    have hfirst : (b.heap.memcpy dma off e.1 0 e.2.toNat).bytes dma (off + e.2.toNat) =
        b.heap.bytes dma off ++ b.heap.bytes e.1 e.2.toNat := by
      rw [Heap.bytes, List.range_add, List.map_append, List.map_map]
      congr 1
      · refine List.map_congr_left fun i hi => ?_
        have := List.mem_range.mp hi
        simp only [Heap.memcpy, Function.update_self]
        exact if_neg (by omega)
      · refine List.map_congr_left fun i hi => ?_
        have := List.mem_range.mp hi
        simp only [Heap.memcpy, Function.update_self, Function.comp_apply]
        rw [if_pos (by omega)]
        congr 1
        omega
    rw [totalLen_cons, ← Nat.add_assoc, cpScatDmaBuf, ih hcons]
    simp only [Bool.false_eq_true, if_false]
    rw [hfirst, hsg, List.append_assoc]
    rfl

theorem cp_from_dma {dma len : Nat} {rx : Nat → UInt8} {l : List (Nat × UInt32)}
    (hl : ∀ e∈l, e.1 ≠ dma) {off : Nat} (hlen : off + totalLen l ≤ len) {b : Bounce} {h : Heap}
    (hb : ∀ c, c ≠ dma → b.heap c = h c) (hrx : ∀ i<len, b.heap dma i = rx i) :
    ∀ c, c ≠ dma → (cpScatDmaBuf true dma off l b).heap c = sgFill rx len off l h c := by
  induction l generalizing off b h with
  | nil => exact hb
  | cons e l ih =>
    have hne : e.1 ≠ dma := hl e List.mem_cons_self
    rw [totalLen_cons] at hlen
    refine ih (fun x hx => hl x (List.mem_cons_of_mem e hx)) (by omega) ?_ ?_
    · intro c hc
      by_cases hce : c = e.1
      · subst hce
        funext i
        simp only [if_true, Heap.memcpy, Function.update_self]
        by_cases hi : i<e.2.toNat
        · rw [if_pos ⟨Nat.zero_le i, by omega⟩, if_pos ⟨hi, by omega⟩]
          exact hrx (off + (i-0)) (by omega)
        · rw [if_neg (by omega), if_neg (by omega)]
          exact congrFun (hb e.1 hne) i
      · rw [Function.update_of_ne hce]
        simp only [if_true]
        rw [memcpy_ne hce]
        exact hb c hc
    · intro i hi
      simp only [if_true]
      rw [memcpy_ne hne.symm]
      exact hrx i hi

/-! Filling the entries. -/

theorem sgFill_frame {rx : Nat → UInt8} {len : Nat} {c : Nat} {l : List (Nat × UInt32)}
    (hc : ∀ e∈l, e.1 ≠ c) (off : Nat) (h : Heap) : sgFill rx len off l h c = h c := by
  induction l generalizing off h with
  | nil => rfl
  | cons e l ih =>
    rw [sgFill, ih fun x hx => hc x (List.mem_cons_of_mem e hx)]
    exact Function.update_of_ne (hc e List.mem_cons_self).symm ..

theorem sgFill_entry {rx : Nat → UInt8} {len : Nat} {pre post : List (Nat × UInt32)}
    {e : Nat × UInt32} (hd : ((pre ++ e::post).map Prod.fst).Nodup) {off : Nat}
    (hlen : off + totalLen (pre ++ e::post) ≤ len) (h : Heap) :
    sgFill rx len off (pre ++ e::post) h e.1 =
      fun i => if i<e.2.toNat then rx (off + totalLen pre + i) else h e.1 i := by
  induction pre generalizing off h with
  | nil =>
    have hne : ∀ x∈post, x.1 ≠ e.1 := by
      intro x hx he
      exact (List.nodup_cons.mp hd).1 (List.mem_map.mpr ⟨x, hx, he⟩)
    rw [List.nil_append, totalLen_cons] at hlen
    rw [List.nil_append, sgFill, sgFill_frame hne, Function.update_self]
    funext i
    by_cases hi : i<e.2.toNat
    · rw [if_pos ⟨hi, by omega⟩, if_pos hi]
      simp [totalLen]
    · rw [if_neg (by omega), if_neg hi]
  | cons x pre ih =>
    have hx : e.1 ≠ x.1 := by
      intro he
      refine (List.nodup_cons.mp hd).1 (List.mem_map.mpr ⟨e, ?_, he⟩)
      exact List.mem_append_right pre List.mem_cons_self
    rw [List.cons_append, totalLen_cons] at hlen
    rw [List.cons_append, sgFill, ih (List.nodup_cons.mp hd).2 (by omega), totalLen_cons]
    funext i
    rw [Function.update_of_ne hx, Nat.add_assoc off]

/-! The addresses. -/

/-- Base and width of the two windows of mailbox 0. -/
def mbox0Windows : List (Nat × Nat) := [(0x800, 0x800), (0x4000, 12*1024)]

/-- Where a write of `len` bytes begins. -/
def destination (len : UInt32) : UInt32 :=
  if len > hifMboxWidth then hifMbox0ExtBaseAddr + (hifMbox0ExtWidth - len)
  else hifMboxBaseAddr + (hifMboxWidth - len)

theorem destination_toNat {len : UInt32} (hlen : len ≤ hifMbox0ExtWidth) :
    ∃ w∈mbox0Windows, len.toNat ≤ w.2 ∧ (destination len).toNat = w.1+w.2-len.toNat := by
  have hle : len.toNat ≤ 12*1024 := UInt32.le_iff_toNat_le.mp hlen
  unfold destination
  split_ifs with h
  · refine ⟨(0x4000, 12*1024), by decide, hle, ?_⟩
    have hsub : (hifMbox0ExtWidth - len).toNat = 12*1024 - len.toNat :=
      UInt32.toNat_sub_of_le _ _ hlen
    rw [UInt32.toNat_add, hsub]
    change (0x4000 + (12*1024 - len.toNat)) % 2^32 = 0x4000+12*1024-len.toNat
    omega
  · have hle' : len ≤ hifMboxWidth := UInt32.not_lt.mp h
    have hw : len.toNat ≤ 0x800 := UInt32.le_iff_toNat_le.mp hle'
    refine ⟨(0x800, 0x800), by decide, hw, ?_⟩
    have hsub : (hifMboxWidth - len).toNat = 0x800 - len.toNat :=
      UInt32.toNat_sub_of_le _ _ hle'
    rw [UInt32.toNat_add, hsub]
    change (0x800 + (0x800 - len.toNat)) % 2^32 = 0x800+0x800-len.toNat
    omega

theorem destination_lt {len : UInt32} (hlen : len ≤ hifMbox0ExtWidth) :
    (destination len).toNat ≤ 0x7000 := by
  obtain ⟨w, hw, -, hd⟩ := destination_toNat hlen
  rw [hd]
  rcases List.mem_cons.mp hw with rfl | hw
  · omega
  · rw [List.mem_singleton.mp hw]
    omega

theorem fixAddr_eq (r : ScatReq) :
    (address r false).fixAddr = destination r.len := by
  have hw : has hifWrAsyncBlockInc hifWrite = true := by decide
  have hext : hifMbox0ExtBaseAddr ≠ hifMboxBaseAddr := by decide
  simp only [ScatReq.fixAddr, address, Bool.false_eq_true, if_false, hw, if_true, destination]
  by_cases h : r.len > hifMboxWidth
  · simp only [if_pos h, if_neg hext]
  · simp only [if_neg h, if_true]

theorem sdioIo_write (buf : Nat) (len : UInt32) :
    sdioIo hifWrAsyncBlockInc (if len > hifMboxWidth then hifMbox0ExtBaseAddr else hifMboxBaseAddr)
      buf len = .io true false (destination len) buf len := by
  have hw : has hifWrAsyncBlockInc hifWrite = true := by decide
  have hf : has hifWrAsyncBlockInc hifFixedAddress = false := by decide
  simp only [sdioIo, hw, hf, if_true, destination]
  by_cases h : len > hifMboxWidth
  · have hout : ¬(hifMboxBaseAddr ≤ hifMbox0ExtBaseAddr ∧ hifMbox0ExtBaseAddr ≤ hifMboxEndAddr) := by
      decide
    simp only [if_pos h, if_neg hout, if_true]
  · have hin : hifMboxBaseAddr ≤ hifMboxBaseAddr ∧ hifMboxBaseAddr ≤ hifMboxEndAddr := by decide
    have hne : hifMboxBaseAddr + (hifMboxWidth - len) ≠ hifMbox0ExtBaseAddr := by
      intro he
      have hle : len ≤ hifMboxWidth := UInt32.not_lt.mp h
      have hsub : (hifMboxWidth - len).toNat = 0x800 - len.toNat :=
        UInt32.toNat_sub_of_le _ _ hle
      have hn := congrArg UInt32.toNat he
      rw [UInt32.toNat_add, hsub] at hn
      change (0x800 + (0x800 - len.toNat)) % 2^32 = 0x4000 at hn
      omega
    simp only [if_neg h, if_pos hin, if_neg hne]

/-! The transfer of a submitted request. -/

section ScatRw
variable {r : ScatReq}

theorem scatRw_write (hv : r.virtScat = false) :
    (scatRw (address r false)).1 =
      .cmd53 true false (destination r.len &&& 0x1FFFF) (r.len / hifMboxBlockSize &&& 0x1FF)
        r.list := by
  have hw : has hifWrAsyncBlockInc hifWrite = true := by decide
  have hf : has hifWrAsyncBlockInc hifFixedAddress = false := by decide
  rw [← fixAddr_eq]
  simp [scatRw, address, hv, hw, hf]

theorem scatRw_read (hv : r.virtScat = false) :
    (scatRw (address r true)).1 =
      .cmd53 false true (hifMboxBaseAddr &&& 0x1FFFF) (r.len / hifMboxBlockSize &&& 0x1FF)
        r.list := by
  have hw : has hifRdSyncBlockFix hifWrite = false := by decide
  have hf : has hifRdSyncBlockFix hifFixedAddress = true := by decide
  simp [scatRw, address, ScatReq.fixAddr, hv, hw, hf]

theorem scatRw_write_bounce (hv : r.virtScat = true)
    (hlen : wholeBlocks hifWrAsyncBlockInc r.len = r.len) :
    (scatRw (address r false)).1 = .io true false (destination r.len) r.virtDmaBuf r.len := by
  rw [← sdioIo_write]
  simp [scatRw, address, hv, hlen]

theorem scatRw_read_bounce (hv : r.virtScat = true)
    (hlen : wholeBlocks hifRdSyncBlockFix r.len = r.len) :
    (scatRw (address r true)).1 = .io false true hifMboxBaseAddr r.virtDmaBuf r.len := by
  have hw : has hifRdSyncBlockFix hifWrite = false := by decide
  have hf : has hifRdSyncBlockFix hifFixedAddress = true := by decide
  simp [scatRw, address, sdioIo, hv, hw, hf, hlen]

end ScatRw

theorem blockCount {len : UInt32} (hlen : len.toNat ≤ 32*1024) :
    (len / hifMboxBlockSize).toNat < 512 ∧
      (len / hifMboxBlockSize &&& 0x1FF).toNat = len.toNat / 128 := by
  have hdiv : (len / hifMboxBlockSize).toNat = len.toNat / 128 := UInt32.toNat_div ..
  have hlt : len.toNat / 128<512 := by omega
  refine ⟨hdiv ▸ hlt, ?_⟩
  rw [UInt32.toNat_and, hdiv]
  change len.toNat / 128 &&& 2^9-1 = _
  rw [Nat.and_two_pow_sub_one_eq_mod, Nat.mod_eq_of_lt hlt]

theorem argAddr {addr : UInt32} (h : addr.toNat ≤ 0x7000) :
    (addr &&& 0x1FFFF).toNat = addr.toNat := by
  rw [UInt32.toNat_and]
  change addr.toNat &&& 2^17-1 = _
  rw [Nat.and_two_pow_sub_one_eq_mod, Nat.mod_eq_of_lt (by omega)]

theorem wholeBlocks_eq (request : UInt32) {len : UInt32} (h : len.toNat % 128 = 0) :
    wholeBlocks request len = len := by
  have hmod : len % hifMboxBlockSize = 0 := by
    apply UInt32.toNat_inj.mp
    rw [UInt32.toNat_mod]
    exact h
  unfold wholeBlocks
  rw [hmod]
  simp

/-! Requests within the limits of their pool. -/

theorem limits_le (maxSegs setup : Bool) :
    (enableScatterLimits maxSegs setup).maxXferSzperScatreq ≤ 32*1024 := by
  cases maxSegs <;> cases setup <;> decide

theorem limits_virt {maxSegs setup : Bool}
    (h : (enableScatterLimits maxSegs setup).virtScat = true) :
    (enableScatterLimits maxSegs setup).maxXferSzperScatreq =
      ath6klMaxTransferSizePerScatter := by
  cases maxSegs <;> cases setup <;> simp_all [enableScatterLimits]

namespace HtcScatReq
variable {l : Limits} {read : Bool} (q : HtcScatReq l read)

theorem total_le : totalLen q.list ≤ l.maxXferSzperScatreq := by
  refine q.total.trans ?_
  cases read
  · exact Nat.min_le_right ..
  · exact Nat.le_refl _

theorem len_toNat (h : l.maxXferSzperScatreq ≤ 32*1024) (virtScat : Bool) :
    (q.toScatReq virtScat).len.toNat = totalLen q.list := by
  have := q.total_le
  have hz : (0 : UInt32).toNat = 0 := rfl
  rw [toScatReq, foldl_len (by rw [hz]; omega), hz, Nat.zero_add]

theorem list_nil (h : l.maxXferSzperScatreq ≤ 32*1024) {virtScat : Bool}
    (h0 : (q.toScatReq virtScat).len = 0) : q.list = [] := by
  have ht := q.len_toNat h virtScat
  rw [h0] at ht
  cases hq : q.list with
  | nil => rfl
  | cons e rest =>
    have hpos : 0<e.2.toNat :=
      UInt32.lt_iff_toNat_lt.mp (q.blocks e (hq ▸ List.mem_cons_self)).1
    rw [hq, totalLen_cons] at ht
    change 0 = _ at ht
    omega

theorem wholeBlocks_len (h : l.maxXferSzperScatreq ≤ 32*1024) (request : UInt32)
    (virtScat : Bool) :
    wholeBlocks request (q.toScatReq virtScat).len = (q.toScatReq virtScat).len :=
  wholeBlocks_eq request (by rw [q.len_toNat h]; exact totalLen_blocks q.blocks)

theorem blockLen (h : l.maxXferSzperScatreq ≤ 32*1024) :
    ((q.toScatReq false).len / hifMboxBlockSize &&& 0x1FF).toNat * hifMboxBlockSize.toNat =
      totalLen q.list := by
  have hlen := q.len_toNat h false
  have hle := q.total_le
  rw [(blockCount (by omega)).2, hlen]
  have := totalLen_blocks q.blocks
  change totalLen q.list / 128 * 128 = _
  omega

theorem len_le_ext {l : Limits} (q : HtcScatReq l false)
    (h : l.maxXferSzperScatreq ≤ 32*1024) (virtScat : Bool) :
    (q.toScatReq virtScat).len ≤ hifMbox0ExtWidth := by
  have ht : totalLen q.list ≤ l.maxTxBndlSz := q.total
  apply UInt32.le_iff_toNat_le.mpr
  rw [q.len_toNat h]
  exact ht.trans (Nat.min_le_left ..)

end HtcScatReq

section Submit
variable {l : Limits} (perform : Host) (rx : Nat → UInt8) (h : Heap)

theorem submit_sg {r : ScatReq} (hv : r.virtScat = false) (read : Bool) :
    submitScatReq perform rx h r read =
      if r.len = 0 then { heap := h }
      else
        { accesses := (perform rx h (scatRw (address r read)).1).1
          heap := (perform rx h (scatRw (address r read)).1).2 } := by
  cases read <;> simp [submitScatReq, address, hv]

theorem submit_bounce_write {r : ScatReq} (hv : r.virtScat = true) :
    submitScatReq perform rx h r false =
      if r.len = 0 then
        { heap := (cpScatDmaBuf false r.virtDmaBuf 0 r.list ⟨h, []⟩).heap
          copies := (cpScatDmaBuf false r.virtDmaBuf 0 r.list ⟨h, []⟩).copies }
      else
        { accesses := (perform rx (cpScatDmaBuf false r.virtDmaBuf 0 r.list ⟨h, []⟩).heap
            (scatRw (address r false)).1).1
          heap := (perform rx (cpScatDmaBuf false r.virtDmaBuf 0 r.list ⟨h, []⟩).heap
            (scatRw (address r false)).1).2
          copies := (cpScatDmaBuf false r.virtDmaBuf 0 r.list ⟨h, []⟩).copies } := by
  simp [submitScatReq, address, hv]

theorem submit_bounce_read {r : ScatReq} (hv : r.virtScat = true) :
    submitScatReq perform rx h r true =
      if r.len = 0 then { heap := h }
      else
        { accesses := (perform rx h (scatRw (address r true)).1).1
          heap := (cpScatDmaBuf true r.virtDmaBuf 0 r.list
            ⟨(perform rx h (scatRw (address r true)).1).2, []⟩).heap
          copies := (cpScatDmaBuf true r.virtDmaBuf 0 r.list
            ⟨(perform rx h (scatRw (address r true)).1).2, []⟩).copies } := by
  simp [submitScatReq, address, hv]

def writeAccesses (q : HtcScatReq l false) : List (Nat × UInt8) :=
  (addresses false (destination (q.toScatReq false).len).toNat (totalLen q.list)).zip
    (sgBytes h q.list)

variable {perform} (hk : perform.Lawful)
include hk

theorem submit_write (q : HtcScatReq l false) (hl : l.maxXferSzperScatreq ≤ 32*1024) :
    submitScatReq perform rx h (q.toScatReq false) false =
      { accesses := writeAccesses h q, heap := h } := by
  rw [submit_sg perform rx h rfl]
  split_ifs with h0
  · simp [writeAccesses, q.list_nil hl h0, totalLen, addresses]
  · have haddr := argAddr (destination_lt (q.len_le_ext hl false))
    rw [scatRw_write rfl, hk.gathers, haddr, q.blockLen hl]
    rfl

theorem submit_read (q : HtcScatReq l true) (hl : l.maxXferSzperScatreq ≤ 32*1024) :
    submitScatReq perform rx h (q.toScatReq false) true =
      { accesses := (addresses true 0x800 (totalLen q.list)).zip
          ((List.range (totalLen q.list)).map rx)
        heap := sgFill rx (totalLen q.list) 0 q.list h } := by
  rw [submit_sg perform rx h rfl]
  split_ifs with h0
  · simp [q.list_nil hl h0, totalLen, addresses, sgFill]
  · rw [scatRw_read rfl, hk.scatters, q.blockLen hl]
    rfl

theorem submit_write_bounce (q : HtcScatReq l false) (hl : l.maxXferSzperScatreq ≤ 32*1024) :
    (submitScatReq perform rx h (q.toScatReq true) false).accesses = writeAccesses h q ∧
      ∀ c, c ≠ q.virtDmaBuf → (submitScatReq perform rx h (q.toScatReq true) false).heap c = h c := by
  rw [submit_bounce_write perform rx h rfl]
  have hframe := fun c (hc : c ≠ q.virtDmaBuf) => cp_to_dma_frame hc 0 q.list ⟨h, []⟩
  split_ifs with h0
  · refine ⟨?_, hframe⟩
    simp [writeAccesses, q.list_nil hl h0, totalLen, addresses]
  · have hlen := q.len_toNat hl true
    have hrw := scatRw_write_bounce (r := q.toScatReq true) rfl (q.wholeBlocks_len hl _ true)
    have hbytes := cp_to_dma_bytes q.apart 0 ⟨h, []⟩
    rw [Nat.zero_add] at hbytes
    rw [hrw, hk.writes, hlen]
    refine ⟨?_, hframe⟩
    change List.zip _ (Heap.bytes (cpScatDmaBuf false q.virtDmaBuf 0 q.list ⟨h, []⟩).heap
      q.virtDmaBuf _) = _
    rw [hbytes]
    rfl

theorem submit_read_bounce (q : HtcScatReq l true) (hl : l.maxXferSzperScatreq ≤ 32*1024) :
    (submitScatReq perform rx h (q.toScatReq true) true).accesses =
        (addresses true 0x800 (totalLen q.list)).zip ((List.range (totalLen q.list)).map rx) ∧
      ∀ c, c ≠ q.virtDmaBuf → (submitScatReq perform rx h (q.toScatReq true) true).heap c =
        sgFill rx (totalLen q.list) 0 q.list h c := by
  rw [submit_bounce_read perform rx h rfl]
  split_ifs with h0
  · simp [q.list_nil hl h0, totalLen, addresses, sgFill]
  · have hlen := q.len_toNat hl true
    have hrw := scatRw_read_bounce (r := q.toScatReq true) rfl (q.wholeBlocks_len hl _ true)
    rw [hrw, hk.reads, hlen]
    refine ⟨rfl, ?_⟩
    refine cp_from_dma q.apart (by rw [Nat.zero_add]) ?_ ?_
    · intro c hc
      exact Function.update_of_ne hc ..
    · intro i hi
      change Function.update h q.virtDmaBuf _ q.virtDmaBuf i = rx i
      rw [Function.update_self, if_pos hi]

end Submit

/-- The two ways to submit a request agree, on an effect that is what HTC wants of it. -/
structure Agree (perform : Host) {l : Limits} {read : Bool} (q : HtcScatReq l read)
    (rx : Nat → UInt8) (h : Heap) : Prop where
  accesses : (submitScatReq perform rx h (q.toScatReq true) read).accesses =
    (submitScatReq perform rx h (q.toScatReq false) read).accesses
  heap : ∀ c, c ≠ q.virtDmaBuf → (submitScatReq perform rx h (q.toScatReq true) read).heap c =
    (submitScatReq perform rx h (q.toScatReq false) read).heap c
  /-- A write fills one window of mailbox 0 up to its last byte. -/
  written : read = false → (submitScatReq perform rx h (q.toScatReq false) read).heap = h ∧
    ∃ w∈mbox0Windows, totalLen q.list ≤ w.2 ∧
      (submitScatReq perform rx h (q.toScatReq false) read).accesses =
        (addresses false (w.1+w.2-totalLen q.list) (totalLen q.list)).zip (sgBytes h q.list)
  /-- A read takes its bytes from the mailbox and fills the entries with them, in order. -/
  filled : read = true →
    (submitScatReq perform rx h (q.toScatReq false) read).accesses =
        (addresses true 0x800 (totalLen q.list)).zip ((List.range (totalLen q.list)).map rx) ∧
      (∀ pre e post, q.list = pre ++ e::post →
        (submitScatReq perform rx h (q.toScatReq false) read).heap e.1 =
          fun i => if i<e.2.toNat then rx (totalLen pre + i) else h e.1 i) ∧
      ∀ c, (∀ e∈q.list, e.1 ≠ c) → (submitScatReq perform rx h (q.toScatReq false) read).heap c = h c
  bounce : l.virtScat = true → totalLen q.list ≤ ath6klMaxTransferSizePerScatter ∧
    ∀ c∈(submitScatReq perform rx h (q.toScatReq true) read).copies,
      c.1+c.2 ≤ ath6klMaxTransferSizePerScatter
  /-- The width of the window that a write is sent to is subtracted from. -/
  noWrap : read = false → ∀ virtScat,
    (address (q.toScatReq virtScat) read).addr = hifMboxBaseAddr ∧
        (q.toScatReq virtScat).len ≤ hifMboxWidth ∨
      (address (q.toScatReq virtScat) read).addr = hifMbox0ExtBaseAddr ∧
        (q.toScatReq virtScat).len ≤ hifMbox0ExtWidth
  blockCount : ((q.toScatReq false).len / hifMboxBlockSize).toNat < 512

theorem copies_le (perform : Host) {l : Limits} {read : Bool} (q : HtcScatReq l read)
    (rx : Nat → UInt8) (h : Heap) : ∀ c∈(submitScatReq perform rx h (q.toScatReq true) read).copies,
      c.1+c.2 ≤ totalLen q.list := by
  have hcp : ∀ fromDma heap, ∀ c∈(cpScatDmaBuf fromDma q.virtDmaBuf 0 q.list ⟨heap, []⟩).copies,
      c.1+c.2 ≤ totalLen q.list := by
    intro fromDma heap c hc
    rcases cpScatDmaBuf_copies fromDma q.virtDmaBuf 0 q.list ⟨heap, []⟩ c hc with hn | hle
    · exact (List.not_mem_nil hn).elim
    · omega
  cases read with
  | false =>
    rw [submit_bounce_write perform rx h rfl]
    split_ifs
    · exact hcp false h
    · exact hcp false h
  | true =>
    rw [submit_bounce_read perform rx h rfl]
    split_ifs
    · exact fun c hc => (List.not_mem_nil hc).elim
    · exact hcp true _

theorem address_noWrap {l : Limits} (q : HtcScatReq l false)
    (hl : l.maxXferSzperScatreq ≤ 32*1024) (virtScat : Bool) :
    (address (q.toScatReq virtScat) false).addr = hifMboxBaseAddr ∧
        (q.toScatReq virtScat).len ≤ hifMboxWidth ∨
      (address (q.toScatReq virtScat) false).addr = hifMbox0ExtBaseAddr ∧
        (q.toScatReq virtScat).len ≤ hifMbox0ExtWidth := by
  by_cases h : (q.toScatReq virtScat).len > hifMboxWidth
  · exact Or.inr ⟨if_pos h, q.len_le_ext hl virtScat⟩
  · exact Or.inl ⟨if_neg h, UInt32.not_lt.mp h⟩

/-- Whichever pool `ath6kl_sdio_enable_scatter` sets up, a request within the limits of
`htc_setup_msg_bndl` has the same effect with `virt_scat` and without. -/
theorem scatter_agree {perform : Host} (hk : perform.Lawful) (maxSegs setup : Bool) {read : Bool}
    (q : HtcScatReq (enableScatterLimits maxSegs setup) read) (rx : Nat → UInt8) (h : Heap) :
    Agree perform q rx h := by
  have hl := limits_le maxSegs setup
  have htotal := q.total_le
  have hbounce : (enableScatterLimits maxSegs setup).virtScat = true →
      totalLen q.list ≤ ath6klMaxTransferSizePerScatter ∧
      ∀ c∈(submitScatReq perform rx h (q.toScatReq true) read).copies,
        c.1+c.2 ≤ ath6klMaxTransferSizePerScatter := by
    intro hv
    rw [limits_virt hv] at htotal
    exact ⟨htotal, fun c hc => (copies_le perform q rx h c hc).trans htotal⟩
  have hcount := (blockCount (by rw [q.len_toNat hl false]; omega)).1
  cases read with
  | false =>
    obtain ⟨hacc, hheap⟩ := submit_write_bounce rx h hk q hl
    have hw := submit_write rx h hk q hl
    refine ⟨by rw [hacc, hw], fun c hc => by rw [hheap c hc, hw], fun _ => ?_,
      fun hr => absurd hr Bool.false_ne_true, hbounce, fun _ => address_noWrap q hl, hcount⟩
    obtain ⟨w, hmem, hle, hd⟩ := destination_toNat (q.len_le_ext hl false)
    rw [q.len_toNat hl] at hle hd
    rw [hw]
    refine ⟨rfl, w, hmem, hle, ?_⟩
    rw [writeAccesses, hd]
  | true =>
    obtain ⟨hacc, hheap⟩ := submit_read_bounce rx h hk q hl
    have hr := submit_read rx h hk q hl
    refine ⟨by rw [hacc, hr], fun c hc => by rw [hheap c hc, hr],
      fun hf => absurd hf.symm Bool.false_ne_true, fun _ => ?_, hbounce,
      fun hf => absurd hf.symm Bool.false_ne_true, hcount⟩
    rw [hr]
    refine ⟨rfl, fun pre e post hq => ?_, fun c hc => sgFill_frame hc 0 h⟩
    have hd := q.distinct
    change sgFill rx (totalLen q.list) 0 q.list h e.1 = _
    rw [hq] at hd ⊢
    rw [sgFill_entry hd (by rw [Nat.zero_add]) h, Nat.zero_add]

/-- A host that does what is documented and no more. -/
def plainHost : Host
  | _, h, .io true fixed addr buf len =>
    ((addresses fixed addr.toNat len.toNat).zip (h.bytes buf len.toNat), h)
  | rx, h, .io false fixed addr buf len =>
    ((addresses fixed addr.toNat len.toNat).zip ((List.range len.toNat).map rx),
      Function.update h buf fun i => if i < len.toNat then rx i else h buf i)
  | _, h, .cmd53 true fixed addr blocks sg =>
    ((addresses fixed addr.toNat (blocks.toNat * hifMboxBlockSize.toNat)).zip (sgBytes h sg), h)
  | rx, h, .cmd53 false fixed addr blocks sg =>
    ((addresses fixed addr.toNat (blocks.toNat * hifMboxBlockSize.toNat)).zip
        ((List.range (blocks.toNat * hifMboxBlockSize.toNat)).map rx),
      sgFill rx (blocks.toNat * hifMboxBlockSize.toNat) 0 sg h)

theorem plainHost_lawful : plainHost.Lawful where
  writes _ _ _ _ _ _ := rfl
  reads _ _ _ _ _ _ := rfl
  gathers _ _ _ _ _ _ := rfl
  scatters _ _ _ _ _ _ := rfl

def twoEntries : HtcScatReq (enableScatterLimits false true) false where
  list := [(1, 1664), (2, 384)]
  virtDmaBuf := 0
  count := by decide
  blocks := by decide
  total := by decide
  distinct := by decide
  apart := by decide

theorem scatter_agree_two : Agree plainHost twoEntries (fun _ => 0) (fun buf _ => buf.toUInt8) :=
  scatter_agree plainHost_lawful false true twoEntries _ _

end Ath6kl.SdioScatter
