import Ath6kl.EthFrame

/-! Memory safety of `aggr_slice_amsdu`. The announced length of a subframe is compared with
two constants only; it is safe to follow exactly when the subframes chain up inside the
frame. -/
namespace Ath6kl.EthFrame

/-- One turn of the loop of `aggr_slice_amsdu`: where it stands, how much is left, the length
it copies and the padded length it takes off. -/
structure Turn where
  framep : Nat
  amsduLen : Nat
  copied : Option Nat := none
  consumed : Option Nat := none

/-- The turns of `sliceLoop`. -/
def sliceTrace (skb : Skb) : Nat → Nat → Nat → List Turn
  | bufs, framep, amsduLen =>
    if amsduLen > ethHlen then
      let payload8023Len := ntohs (skb.byte (framep+12)) (skb.byte (framep+13))
      if payload8023Len < minMsduSubframePayloadLen ∨
          payload8023Len > maxMsduSubframePayloadLen then [{ framep, amsduLen }]
      else
        let frame8023Len := payload8023Len + ethHlen
        match bufs with
        | 0 => [{ framep, amsduLen }]
        | bufs+1 =>
          if amsduLen = frame8023Len then [{ framep, amsduLen, copied := some frame8023Len }]
          else ⟨framep, amsduLen, some frame8023Len, some (align4 frame8023Len)⟩ ::
            sliceTrace skb bufs (framep + align4 frame8023Len)
              (u16 ((amsduLen:Int) - align4 frame8023Len))
    else []

/-- The header and what is copied lie in the buffer, and no more is copied or taken off than
is left. -/
structure Turn.Safe (skb : Skb) (t : Turn) : Prop where
  header : t.framep+ethHlen ≤ skb.data.length
  inBuffer : ∀ n∈t.copied, t.framep+n ≤ skb.data.length
  inRest : ∀ n∈t.copied, n ≤ t.amsduLen
  noWrap : ∀ n∈t.consumed, n ≤ t.amsduLen

/-- `amsdu_len` when the loop begins. -/
def amsduLen0 (skb : Skb) : Nat := u16 ((skb.data.length:Int) - ethHlen)

structure SliceSafe (bufs : Nat) (skb : Skb) : Prop where
  turns : ∀ t∈sliceTrace skb bufs ethHlen (amsduLen0 skb), t.Safe skb
  ends : (sliceTrace skb bufs ethHlen (amsduLen0 skb)).length ≤ amsduLen0 skb/50+1

/-- The subframes chain up: each one that the loop takes ends with the bytes or, padded to a
word, leaves a chain behind it. -/
def Chained : Nat → Bytes → Prop
  | bufs, bs =>
    if bs.length > ethHlen then
      let payload8023Len := ntohs (bs.getD 12 0) (bs.getD 13 0)
      if payload8023Len < minMsduSubframePayloadLen ∨
          payload8023Len > maxMsduSubframePayloadLen then True
      else match bufs with
        | 0 => True
        | bufs+1 => bs.length = payload8023Len + ethHlen ∨
            (align4 (payload8023Len + ethHlen) ≤ bs.length ∧
              Chained bufs (bs.drop (align4 (payload8023Len + ethHlen))))
    else True

variable {skb : Skb}

theorem sliceTrace_copies (bufs framep amsduLen : Nat) :
    ((sliceTrace skb bufs framep amsduLen).filterMap fun t =>
      t.copied.map fun n => dot32Dix (skb.copy t.framep n)) = sliceLoop skb bufs framep amsduLen := by
  induction bufs generalizing framep amsduLen with
  | zero =>
    unfold sliceTrace sliceLoop
    split
    · dsimp only
      split <;> rfl
    · rfl
  | succ bufs ih =>
    unfold sliceTrace sliceLoop
    split
    · dsimp only
      split
      · rfl
      · split
        · rfl
        · rw [List.filterMap_cons]
          exact congrArg (List.cons _) (ih _ _)
    · rfl

/-- What is left of the frame when the loop stands at `framep`. -/
def restAt (skb : Skb) (framep amsduLen : Nat) : Bytes := (skb.data.drop framep).take amsduLen

section
variable {framep amsduLen : Nat} (hin : framep+amsduLen ≤ skb.data.length)
include hin

theorem restAt_length : (restAt skb framep amsduLen).length = amsduLen := by
  rw [restAt, List.length_take, List.length_drop]
  omega

theorem restAt_byte {i : Nat} (hi : i<amsduLen) :
    (restAt skb framep amsduLen).getD i 0 = skb.byte (framep+i) := by
  have hr : i < (restAt skb framep amsduLen).length := by rw [restAt_length hin]; exact hi
  rw [Skb.byte_eq (show framep+i < skb.data.length by omega), List.getD_eq_getElem _ _ hr]
  simp only [restAt, List.getElem_take, List.getElem_drop]

theorem stop_safe (h14 : ethHlen<amsduLen) : Turn.Safe skb { framep, amsduLen } where
  header := Nat.le_trans (Nat.add_le_add_left (Nat.le_of_lt h14) framep) hin
  inBuffer _ hn := nomatch hn
  inRest _ hn := nomatch hn
  noWrap _ hn := nomatch hn

theorem copy_safe (h14 : ethHlen<amsduLen) {n : Nat} {c : Option Nat} (hn : n ≤ amsduLen)
    (hc : ∀ m∈c, m ≤ amsduLen) : Turn.Safe skb ⟨framep, amsduLen, some n, c⟩ where
  header := Nat.le_trans (Nat.add_le_add_left (Nat.le_of_lt h14) framep) hin
  inBuffer := by
    rintro m ⟨⟩
    exact Nat.le_trans (Nat.add_le_add_left hn framep) hin
  inRest := by
    rintro m ⟨⟩
    exact hn
  noWrap := hc

end

theorem restAt_drop (skb : Skb) (framep amsduLen n : Nat) :
    (restAt skb framep amsduLen).drop n = restAt skb (framep+n) (amsduLen-n) := by
  rw [restAt, restAt, List.drop_take, List.drop_drop]

theorem u16_sub {a b : Nat} (hb : b ≤ a) (ha : a<65536) : u16 ((a:Int)-b) = a-b := by
  unfold u16
  omega

theorem sliceTrace_safe (bufs : Nat) {framep amsduLen : Nat}
    (hin : framep+amsduLen ≤ skb.data.length) (hu : amsduLen<65536) :
    (∀ t∈sliceTrace skb bufs framep amsduLen, t.Safe skb) ↔
      Chained bufs (restAt skb framep amsduLen) := by
  induction bufs generalizing framep amsduLen with
  | zero =>
    unfold sliceTrace Chained
    rw [restAt_length hin]
    by_cases h14 : amsduLen>ethHlen
    · rw [if_pos h14, if_pos h14]
      dsimp only
      split <;> split <;> simp [stop_safe hin h14]
    · simp [h14]
  | succ bufs ih =>
    unfold sliceTrace Chained
    rw [restAt_length hin]
    by_cases h14 : amsduLen>ethHlen
    · have hge : ethHlen = 14 := rfl
      rw [if_pos h14, if_pos h14, restAt_byte hin (by omega), restAt_byte hin (by omega)]
      dsimp only
      generalize hp : ntohs (skb.byte (framep+12)) (skb.byte (framep+13)) = payload
      by_cases hr : payload< minMsduSubframePayloadLen ∨ payload > maxMsduSubframePayloadLen
      · rw [if_pos hr, if_pos hr]
        simp [stop_safe hin h14]
      · rw [if_neg hr, if_neg hr]
        have hpad := align4_ge (payload+ethHlen)
        by_cases hlast : amsduLen = payload+ethHlen
        · rw [if_pos hlast]
          have hsafe := copy_safe hin h14 (n := payload+ethHlen) (c := none) (by omega)
            (fun m hm => nomatch hm)
          simp only [List.mem_singleton, forall_eq, hlast, true_or, iff_true]
          exact hlast ▸ hsafe
        · rw [if_neg hlast, List.forall_mem_cons]
          constructor
          · rintro ⟨ht, hrest⟩
            have hle : align4 (payload+ethHlen) ≤ amsduLen := ht.noWrap _ rfl
            rw [u16_sub hle hu, ih (by omega) (by omega), ← restAt_drop] at hrest
            exact Or.inr ⟨hle, hrest⟩
          · rintro (h | ⟨hle, hrest⟩)
            · exact absurd h hlast
            · rw [u16_sub hle hu, ih (by omega) (by omega), ← restAt_drop]
              refine ⟨copy_safe hin h14 (by omega) ?_, hrest⟩
              rintro n ⟨⟩
              exact hle
    · simp [h14]

theorem sliceTrace_length (bufs : Nat) {framep amsduLen : Nat}
    (hsafe : ∀ t∈sliceTrace skb bufs framep amsduLen, t.Safe skb) (hu : amsduLen<65536) :
    (sliceTrace skb bufs framep amsduLen).length ≤ amsduLen/50+1 := by
  induction bufs generalizing framep amsduLen with
  | zero =>
    unfold sliceTrace
    split
    · dsimp only
      split <;> simp
    · simp
  | succ bufs ih =>
    unfold sliceTrace at hsafe ⊢
    by_cases h14 : amsduLen>ethHlen
    · rw [if_pos h14] at hsafe ⊢
      dsimp only at hsafe ⊢
      generalize ntohs (skb.byte (framep+12)) (skb.byte (framep+13)) = payload at hsafe ⊢
      by_cases hr : payload< minMsduSubframePayloadLen ∨ payload > maxMsduSubframePayloadLen
      · rw [if_pos hr]
        simp
      · rw [if_neg hr] at hsafe ⊢
        by_cases hlast : amsduLen = payload+ethHlen
        · rw [if_pos hlast]
          simp
        · rw [if_neg hlast] at hsafe ⊢
          obtain ⟨ht, hrest⟩ := List.forall_mem_cons.mp hsafe
          have hle : align4 (payload+ethHlen) ≤ amsduLen := ht.noWrap _ rfl
          have h50 : 50 ≤ align4 (payload+ethHlen) := by
            have hpad := align4_ge (payload+ethHlen)
            have hge : ethHlen = 14 := rfl
            have hmin : minMsduSubframePayloadLen = 36 := rfl
            omega
          rw [u16_sub hle hu] at hrest ⊢
          have hlen := ih hrest (by omega)
          rw [List.length_cons]
          omega
    · rw [if_neg h14]
      simp

/-- Slicing an A-MSDU is memory safe and ends in time exactly when its subframes chain up. -/
theorem slice_safe_iff_chained (skb : Skb) (bufs : Nat) (h : ethHlen ≤ skb.data.length) :
    SliceSafe bufs skb ↔ Chained bufs ((skb.data.drop ethHlen).take (amsduLen0 skb)) := by
  have hlt : amsduLen0 skb<65536 := by
    unfold amsduLen0 u16
    omega
  have hin : ethHlen+amsduLen0 skb ≤ skb.data.length := by
    unfold amsduLen0 u16
    omega
  have hsafe := sliceTrace_safe bufs hin hlt
  exact ⟨fun hs => hsafe.mp hs.turns, fun hc =>
    ⟨hsafe.mpr hc, sliceTrace_length bufs (hsafe.mpr hc) hlt⟩⟩

/-- One subframe of 36 bytes that fills its frame. -/
def fullSubframe : Skb := ⟨List.replicate 26 0 ++ [0, 36] ++ List.replicate 36 7, fun _ => 0⟩

theorem slice_safe_full : SliceSafe 1 fullSubframe ↔
    Chained 1 ((fullSubframe.data.drop ethHlen).take (amsduLen0 fullSubframe)) :=
  slice_safe_iff_chained fullSubframe 1 (by simp [fullSubframe, ethHlen])

/-- The same subframe in a frame that ends after its first byte. -/
def cutSubframe : Skb := ⟨List.replicate 26 0 ++ [0, 36] ++ [7], fun _ => 0⟩

/-- All the 50 bytes are copied, 35 of them from behind the frame. -/
theorem slice_reads_beyond : ¬ SliceSafe 1 cutSubframe := by
  intro h
  have hturns := h.turns
  have hlen : amsduLen0 cutSubframe = 15 := by decide
  have hproto : ntohs (cutSubframe.byte (ethHlen+12)) (cutSubframe.byte (ethHlen+13)) = 36 := by decide
  unfold sliceTrace at hturns
  simp only [hlen, hproto] at hturns
  have hcopy := (hturns ⟨14, 15, some 50, some 52⟩ List.mem_cons_self).inBuffer 50 rfl
  simp [cutSubframe] at hcopy

end Ath6kl.EthFrame
