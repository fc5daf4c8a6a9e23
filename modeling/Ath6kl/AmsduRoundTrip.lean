import Ath6kl.AmsduTx
import Ath6kl.Lib.Framing

/-! Packing and slicing of an A-MSDU are inverse: what the transmit side packs, the receive
side takes apart into the same frames. -/
namespace Ath6kl.AmsduRoundTrip
open EthFrame AmsduTx PowerSave Lib.Framing

structure DixFrame where
  bytes : Bytes
  hdr : ethHlen ≤ bytes.length
  type : isEthertype (ntohs (bytes.getD 12 0) (bytes.getD 13 0)) = true

/-- The 802.3 payload of the frame has a length that `aggr_slice_amsdu` takes. -/
def DixFrame.Sized (f : DixFrame) : Prop :=
  minMsduSubframePayloadLen ≤ f.bytes.length - ethHlen + llcSnapHdrLen ∧
  f.bytes.length - ethHlen + llcSnapHdrLen ≤ maxMsduSubframePayloadLen

/-- What `aggr_tx` gets to see of the frame. -/
def DixFrame.pdu (f : DixFrame) : Bytes := dix2Dot3 f.bytes

/-- A PDU in the aggregate, with its padding. -/
def padPdu (pdu : Bytes) : Bytes := pdu ++ List.replicate (align4 pdu.length - pdu.length) 0

theorem ntohs_htons {n : Nat} (h : n < 65536) :
    ntohs (UInt8.ofNat (n/256)) (UInt8.ofNat n) = n := by
  simp only [ntohs, UInt8.toNat_ofNat']
  omega

theorem length_padPdu (pdu : Bytes) : (padPdu pdu).length = align4 pdu.length := by
  have h := align4_ge pdu.length
  simp only [padPdu, List.length_append, List.length_replicate]
  omega

section Frame
variable (f : DixFrame)

def DixFrame.etherType : Bytes := (f.bytes.drop 12).take 2

theorem DixFrame.length_etherType : f.etherType.length = 2 := by
  have h := f.hdr
  simp only [ethHlen] at h
  simp only [etherType, List.length_take, List.length_drop]
  omega

theorem DixFrame.bytes_eq : f.bytes.take 12 ++ (f.etherType ++ f.bytes.drop 14) = f.bytes := by
  have hdrop : f.etherType ++ f.bytes.drop 14 = f.bytes.drop 12 := by
    have h14 : f.bytes.drop 14 = (f.bytes.drop 12).drop 2 := by rw [List.drop_drop]
    rw [etherType, h14, List.take_append_drop]
  rw [hdrop, List.take_append_drop]

theorem DixFrame.pdu_eq : f.pdu = f.bytes.take 12 ++
    (htons (f.bytes.length - ethHlen + llcSnapHdrLen) ++
      ([0xAA, 0xAA, 0x03, 0, 0, 0] ++ (f.etherType ++ f.bytes.drop ethHlen))) := by
  have htype : isEthertype (ntohs (((f.bytes.drop 12).take 2).getD 0 0)
      (((f.bytes.drop 12).take 2).getD 1 0)) = true := by
    have h := f.type
    simpa [List.getD_eq_getElem?_getD, List.getElem?_take, List.getElem?_drop] using h
  simp only [pdu, dix2Dot3, if_pos htype, etherType, List.append_assoc]

theorem DixFrame.length_take : (f.bytes.take 12).length = 12 := by
  have h := f.hdr
  simp only [ethHlen] at h
  rw [List.length_take]
  omega

theorem DixFrame.length_pdu : f.pdu.length = f.bytes.length + 8 := by
  have h := f.hdr
  have ht := f.length_take
  have he := f.length_etherType
  rw [f.pdu_eq]
  simp only [List.length_append, ht, he, htons, List.length_cons, List.length_nil,
    List.length_drop]
  simp only [ethHlen] at h ⊢
  omega

/-- `ath6kl_wmi_dot3_2_dix` undoes `ath6kl_wmi_dix_2_dot3`. -/
theorem DixFrame.dot32Dix_pdu : dot32Dix f.pdu = f.bytes := by
  have ht := f.length_take
  have he := f.length_etherType
  have h12 : f.pdu.take 12 = f.bytes.take 12 := by
    rw [f.pdu_eq]
    exact List.take_left' ht
  have h20 : f.pdu.drop 20 = f.etherType ++ f.bytes.drop 14 := by
    rw [f.pdu_eq, ← List.append_assoc, ← List.append_assoc]
    exact List.drop_left' (by simp [ht, htons])
  have h22 : f.pdu.drop 22 = f.bytes.drop 14 := by
    have h := congrArg (List.drop 2) h20
    rw [List.drop_drop, List.drop_left' he] at h
    exact h
  rw [dot32Dix, h12, h20, h22, List.take_left' he, List.append_assoc]
  exact f.bytes_eq

theorem DixFrame.pdu_len (h : f.Sized) :
    ntohs (f.pdu.getD 12 0) (f.pdu.getD 13 0) + ethHlen = f.pdu.length := by
  have ht := f.length_take
  have hh := f.hdr
  have h12 : f.pdu.getD 12 0 =
      UInt8.ofNat ((f.bytes.length - ethHlen + llcSnapHdrLen) / 256) := by
    rw [f.pdu_eq]
    simp [List.getD_eq_getElem?_getD, ht, htons]
  have h13 : f.pdu.getD 13 0 = UInt8.ofNat (f.bytes.length - ethHlen + llcSnapHdrLen) := by
    rw [f.pdu_eq]
    simp [List.getD_eq_getElem?_getD, List.getElem?_append_right, ht, htons]
  obtain ⟨-, hmax⟩ := h
  simp only [maxMsduSubframePayloadLen] at hmax
  rw [h12, h13, ntohs_htons (by omega), f.length_pdu]
  simp only [ethHlen, llcSnapHdrLen] at hh ⊢
  omega

end Frame

theorem byte_of_drop {skb : Skb} {framep i : Nat} {d r : Bytes}
    (h : skb.data.drop framep = d ++ r) (hi : i < d.length) :
    skb.byte (framep+i) = d.getD i 0 := by
  have hlen := congrArg List.length h
  rw [List.length_drop, List.length_append] at hlen
  have hin : framep+i < skb.data.length := by omega
  have hget : (skb.data.drop framep).getD i 0 = d.getD i 0 := by
    rw [h, List.getD_append _ _ _ _ hi]
  rw [Skb.byte_eq hin, ← hget, List.getD_eq_getElem _ _ (by rw [List.length_drop]; omega),
    List.getElem_drop]

theorem copy_of_drop {skb : Skb} {framep : Nat} {d r : Bytes}
    (h : skb.data.drop framep = d ++ r) (hd : 0 < d.length) :
    skb.copy framep d.length = d := by
  have hlen := congrArg List.length h
  rw [List.length_drop, List.length_append] at hlen
  rw [Skb.copy_eq (by omega), h, List.take_left' rfl]

variable {f : DixFrame} {fs : List DixFrame} {framep bufs : Nat}

section Slice
variable {skb : Skb}

theorem sliceLoop_turn (hs : f.Sized) {r : Bytes} (hd : skb.data.drop framep = f.pdu ++ r)
    {amsduLen : Nat} (ha : f.pdu.length ≤ amsduLen) :
    sliceLoop skb (bufs+1) framep amsduLen = f.bytes ::
      if amsduLen = f.pdu.length then []
      else sliceLoop skb bufs (framep + align4 f.pdu.length)
        (u16 ((amsduLen:Int) - align4 f.pdu.length)) := by
  have hlen := f.length_pdu
  have hhdr : 14 ≤ f.bytes.length := f.hdr
  have hpl := f.pdu_len hs
  have h12 : skb.byte (framep+12) = f.pdu.getD 12 0 := byte_of_drop hd (by omega)
  have h13 : skb.byte (framep+13) = f.pdu.getD 13 0 := byte_of_drop hd (by omega)
  have hcopy : skb.copy framep f.pdu.length = f.pdu := copy_of_drop hd (by omega)
  have hrange : ¬(ntohs (f.pdu.getD 12 0) (f.pdu.getD 13 0) < minMsduSubframePayloadLen ∨
      ntohs (f.pdu.getD 12 0) (f.pdu.getD 13 0) > maxMsduSubframePayloadLen) := by
    obtain ⟨hmin, hmax⟩ := hs
    simp only [ethHlen, llcSnapHdrLen] at hpl hmin hmax
    omega
  have hpos : amsduLen > ethHlen := by
    simp only [ethHlen]
    omega
  rw [sliceLoop, if_pos hpos]
  simp only [h12, h13, if_neg hrange, hpl, hcopy, f.dot32Dix_pdu]

theorem sliceLoop_join (hne : fs ≠ []) (hs : ∀ f∈fs, f.Sized) (hb : fs.length ≤ bufs)
    (hd : skb.data.drop framep = joinPadded padPdu (fs.map DixFrame.pdu))
    (hlt : (joinPadded padPdu (fs.map DixFrame.pdu)).length < 65536) :
    sliceLoop skb bufs framep (joinPadded padPdu (fs.map DixFrame.pdu)).length =
      fs.map DixFrame.bytes := by
  induction fs generalizing framep bufs with
  | nil => exact absurd rfl hne
  | cons f fs ih =>
    obtain ⟨b, rfl⟩ : ∃ b, bufs = b+1 := Nat.exists_eq_add_one.mpr (by simp at hb; omega)
    have hf : f.Sized := hs f List.mem_cons_self
    cases fs with
    | nil =>
      have hd : skb.data.drop framep = f.pdu ++ [] := by simpa using hd
      simp only [List.map_cons, List.map_nil, joinPadded_single]
      rw [sliceLoop_turn hf hd (Nat.le_refl _), if_pos rfl]
    | cons g gs =>
      have hne' : g::gs ≠ [] := List.cons_ne_nil g gs
      have hmap : (g::gs).map DixFrame.pdu ≠ [] := by simp
      have hrest : 0 < (joinPadded padPdu ((g::gs).map DixFrame.pdu)).length := by
        apply joinPadded_pos _ hmap
        intro x hx
        obtain ⟨y, -, rfl⟩ := List.mem_map.mp hx
        have := y.length_pdu
        omega
      rw [List.map_cons, joinPadded_cons padPdu hmap] at hd hlt ⊢
      -- the rest of the buffer, once the padded PDU is passed
      have hnext : skb.data.drop (framep + align4 f.pdu.length) =
          joinPadded padPdu ((g::gs).map DixFrame.pdu) := by
        rw [← List.drop_drop, hd, List.drop_left' (length_padPdu _)]
      rw [padPdu, List.append_assoc] at hd
      have hge := align4_ge f.pdu.length
      rw [List.length_append, length_padPdu] at hlt ⊢
      rw [sliceLoop_turn hf hd (by omega), if_neg (by omega)]
      have hu : u16 (((align4 f.pdu.length +
          (joinPadded padPdu ((g::gs).map DixFrame.pdu)).length : Nat) : Int) -
          align4 f.pdu.length) = (joinPadded padPdu ((g::gs).map DixFrame.pdu)).length := by
        unfold u16
        omega
      rw [hu, ih hne' (fun x hx => hs x (List.mem_cons_of_mem f hx))
        (by simp only [List.length_cons] at hb ⊢; omega) hnext (by omega)]
      rfl

end Slice

/-- What one call of `aggr_tx` gets: the frame, the WMI header flags, what lies beyond the
end of the buffer, the answer of `dev_alloc_skb` and the time. -/
structure Call where
  frame : DixFrame
  flags : WmiDataFlags := {}
  beyond : Nat → UInt8 := fun _ => 0
  alloc : Bool := true
  clk : Clock := {}

/-- The frame as `ath6kl_wmi_dix_2_dot3` and `ath6kl_wmi_data_hdr_add` leave it, with its
user priority set. -/
def Call.skb (ifIdx : UInt8) (tid : Tid) (c : Call) : TxSkb where
  data := wmiDataHdrSetUp tid (wmiDataHdrAdd c.flags ifIdx c.frame.pdu)
  beyond := c.beyond

/-- `aggr_tx` for one frame after the other. -/
def aggrTxAll (sta : Option StaIdx) (ifIdx : UInt8) (tid : Tid) :
    Vif → List Call → Vif × List AggrTx
  | vif, [] => (vif, [])
  | vif, c::cs =>
    let r := aggrTx vif sta (c.skb ifIdx tid) c.alloc c.clk
    let rest := aggrTxAll sta ifIdx tid r.1 cs
    (rest.1, r.2::rest.2)

section Encap
variable (c : Call) (ifIdx : UInt8) (tid : Tid)

theorem Call.data_eq : ∃ hdr : Bytes, hdr.length = wmiDataHdrLen ∧
    (c.skb ifIdx tid).data = hdr ++ c.frame.pdu := by
  simp only [Call.skb, wmiDataHdrSetUp, wmiDataHdrAdd, List.cons_append, List.nil_append,
    List.modify_succ_cons, List.modify_zero_cons]
  exact ⟨[_, _, _, _, _, _], rfl, rfl⟩

theorem Call.drop_data : (c.skb ifIdx tid).data.drop wmiDataHdrLen = c.frame.pdu := by
  obtain ⟨hdr, hlen, hd⟩ := c.data_eq ifIdx tid
  rw [hd, List.drop_left' hlen]

theorem Call.length_data :
    (c.skb ifIdx tid).data.length = c.frame.pdu.length + wmiDataHdrLen := by
  obtain ⟨hdr, hlen, hd⟩ := c.data_eq ifIdx tid
  rw [hd, List.length_append, hlen, Nat.add_comm]

theorem Call.getUp : wmiDataHdrGetUp (c.skb ifIdx tid).data = tid :=
  getUp_setUp tid c.flags ifIdx c.frame.pdu

theorem Call.dest : (c.skb ifIdx tid).copy wmiDataHdrLen 6 = c.frame.bytes.take 6 := by
  obtain ⟨hdr, hlen, hd⟩ := c.data_eq ifIdx tid
  have hpdu := c.frame.length_pdu
  have hhdr : 14 ≤ c.frame.bytes.length := c.frame.hdr
  have hlen' : (c.skb ifIdx tid).data.length = wmiDataHdrLen + c.frame.pdu.length := by
    rw [hd, List.length_append, hlen]
  rw [Skb.copy_eq (by omega), hd, List.drop_left' hlen, c.frame.pdu_eq,
    List.take_append_of_le_length (by rw [c.frame.length_take]; decide), List.take_take]
  rfl

end Encap

/-- The aggregate consists of the frames `fs`. -/
structure Holds (a : Amsdu) (fs : List DixFrame) : Prop where
  hdr : a.hdr.length = wmiDataHdrLen
  body : a.body = (fs.map DixFrame.pdu).flatMap padPdu
  len : a.len = a.body.length
  bound : a.body.length ≤ txAmsduMaxAggrLen + 3

/-- The buffer holds an A-MSDU of the frames `fs` behind a WMI header. -/
structure Carries (skb : TxSkb) (fs : List DixFrame) : Prop where
  data : ∃ hdr ethHdr : Bytes, hdr.length = wmiDataHdrLen ∧ ethHdr.length = ethHlen ∧
    skb.data = hdr ++ (ethHdr ++ joinPadded padPdu (fs.map DixFrame.pdu))
  bound : (joinPadded padPdu (fs.map DixFrame.pdu)).length < 65536

variable {a : Amsdu} {c : Call} {ifIdx : UInt8} {tid : Tid}

theorem holds_start : Holds (.start (c.skb ifIdx tid)) [] where
  hdr := by
    have hlen := c.length_data ifIdx tid
    simp only [Amsdu.start, wmiDataHdrSetAmsdu, List.length_modify, List.length_take, hlen]
    omega
  body := rfl
  len := rfl
  bound := Nat.zero_le _

theorem Holds.append (h : Holds a fs)
    (hfit : a.len + ((c.skb ifIdx tid).data.length - wmiDataHdrLen) ≤ txAmsduMaxAggrLen) :
    Holds (a.append (c.skb ifIdx tid)) (fs ++ [c.frame]) := by
  rw [c.length_data, Nat.add_sub_cancel, h.len] at hfit
  have hbody : (a.append (c.skb ifIdx tid)).body = a.body ++ padPdu c.frame.pdu := by
    simp only [Amsdu.append, c.drop_data]
    rfl
  have hblen : (a.append (c.skb ifIdx tid)).body.length =
      a.body.length + align4 c.frame.pdu.length := by
    rw [hbody, List.length_append, length_padPdu]
  have hbound : (a.append (c.skb ifIdx tid)).body.length ≤ txAmsduMaxAggrLen + 3 := by
    rw [hblen]
    unfold align4
    omega
  refine ⟨h.hdr, ?_, ?_, hbound⟩
  · rw [hbody, h.body]
    simp
  · have hlen : (a.append (c.skb ifIdx tid)).len =
        (a.len + align4 c.frame.pdu.length) % 65536 := by
      simp only [Amsdu.append, c.drop_data]
    rw [hlen, hblen, h.len, Nat.mod_eq_of_lt]
    rw [hblen] at hbound
    exact lt_of_le_of_lt hbound (by decide)

theorem finish_data {ps : List Bytes} {q : Bytes} (h : a.body = (ps ++ [q]).flatMap padPdu)
    (dest source : Mac) : (a.finish q.length dest source).data =
      a.hdr ++ (dest.val ++ source.val ++ htons (joinPadded padPdu (ps ++ [q])).length ++
        joinPadded padPdu (ps ++ [q])) := by
  have hbody : a.body = joinPadded padPdu (ps ++ [q]) ++
      List.replicate (align4 q.length - q.length) 0 := by
    rw [h]
    simp only [joinPadded_snoc, List.flatMap_append, List.flatMap_cons, List.flatMap_nil,
      List.append_nil, List.append_assoc]
    rfl
  have hblen := congrArg List.length hbody
  rw [List.length_append, List.length_replicate] at hblen
  have hlen : (if q.length % 4 ≠ 0 then a.body.length - (4 - q.length % 4)
      else a.body.length) = (joinPadded padPdu (ps ++ [q])).length := by
    unfold align4 at hblen
    split <;> omega
  have htake : a.body.take (joinPadded padPdu (ps ++ [q])).length =
      joinPadded padPdu (ps ++ [q]) := by
    rw [hbody]
    exact List.take_left' rfl
  simp only [Amsdu.finish, hlen, htake]

theorem joinPadded_length_le (ps : List Bytes) :
    (joinPadded padPdu ps).length ≤ (ps.flatMap padPdu).length := by
  rcases List.eq_nil_or_concat ps with rfl | ⟨qs, q, rfl⟩
  · rfl
  · have hge := align4_ge q.length
    rw [List.concat_eq_append, joinPadded_snoc, List.flatMap_append, List.length_append,
      List.length_append, List.flatMap_singleton, length_padPdu]
    omega

theorem Holds.finish (h : Holds a (fs ++ [f])) (dest source : Mac) :
    Carries (a.finish f.pdu.length dest source) (fs ++ [f]) := by
  have hbody : a.body = (fs.map DixFrame.pdu ++ [f.pdu]).flatMap padPdu := by
    rw [h.body, List.map_append, List.map_cons, List.map_nil]
  have hdata := finish_data hbody dest source
  have hmap : (fs ++ [f]).map DixFrame.pdu = fs.map DixFrame.pdu ++ [f.pdu] := by simp
  have hle := joinPadded_length_le (fs.map DixFrame.pdu ++ [f.pdu])
  rw [← hbody] at hle
  rw [← hmap] at hdata hle
  refine ⟨⟨a.hdr, _, h.hdr, ?_, hdata⟩, ?_⟩
  · simp [dest.prop, source.prop, htons, ethHlen]
  · have hbound := h.bound
    have hsmall : txAmsduMaxAggrLen + 3 < 65536 := by decide
    omega

/-- `aggr_slice_amsdu` gets the frames back. -/
theorem Carries.slice {skb : TxSkb} (h : Carries skb fs) (hne : fs ≠ [])
    (hs : ∀ f∈fs, f.Sized) (hb : fs.length ≤ bufs) (beyond : Nat → UInt8) :
    aggrSliceAmsdu bufs ⟨skb.data.drop wmiDataHdrLen, beyond⟩ = fs.map DixFrame.bytes := by
  obtain ⟨⟨hdr, ethHdr, hhdr, heth, hdata⟩, hbound⟩ := h
  have hd : skb.data.drop wmiDataHdrLen =
      ethHdr ++ joinPadded padPdu (fs.map DixFrame.pdu) := by
    rw [hdata, List.drop_left' hhdr]
  have hu : u16 (((ethHdr ++ joinPadded padPdu (fs.map DixFrame.pdu)).length : Int) -
      ethHlen) = (joinPadded padPdu (fs.map DixFrame.pdu)).length := by
    rw [List.length_append, heth]
    unfold u16
    omega
  rw [hd, aggrSliceAmsdu, hu]
  exact sliceLoop_join hne hs hb (List.drop_left' heth) hbound

variable {vif : Vif} {sta : Option StaIdx} {i : StaIdx}

/-- The TID holds the frames `fs`, the last of them with its length noted. -/
def Packed (vif : Vif) (i : StaIdx) (tid : Tid) (fs : List DixFrame) : Prop :=
  match vif.held (i, tid) with
  | none => fs = []
  | some a => Holds a fs ∧ ∃ gs f, fs = gs ++ [f] ∧ a.lastpduLen = f.pdu.length

theorem Packed.joins (h : Packed vif i tid fs) (hj : Joins vif sta (c.skb ifIdx tid) i a) :
    Holds a fs ∧
    a.len + ((c.skb ifIdx tid).data.length - wmiDataHdrLen) ≤ txAmsduMaxAggrLen := by
  have hbase := hj.base
  rw [c.getUp] at hbase
  unfold Packed at h
  cases hbase with
  | inl hb =>
    rw [hb.1] at h
    exact ⟨h.1, hb.2⟩
  | inr hb =>
    rw [hb.1] at h
    have hhalf : txAmsduMaxAggrLen / 2 ≤ txAmsduMaxAggrLen := by decide
    have hzero : a.len = 0 := by rw [hb.2]; rfl
    have hsmall := hj.small
    rw [hb.2, h]
    refine ⟨holds_start, ?_⟩
    rw [← hb.2]
    omega

/-- One call: the frame is packed behind the others, or goes out with them. -/
theorem Packed.step (h : Packed vif i tid fs)
    (hr : (sta <|> vif.findSta (c.frame.bytes.take 6)) = some i) {w : Vif} {o : AggrTx}
    (hw : aggrTx vif sta (c.skb ifIdx tid) c.alloc c.clk = (w, o)) :
    (o = .ok → Same vif w ∧ Packed w i tid (fs ++ [c.frame])) ∧
    ∀ skb, o = .done skb → Carries skb (fs ++ [c.frame]) := by
  have hlen : (c.skb ifIdx tid).data.length - wmiDataHdrLen = c.frame.pdu.length := by
    rw [c.length_data, Nat.add_sub_cancel]
  have hspec := aggrTx_spec vif sta (c.skb ifIdx tid) c.alloc c.clk
  rw [hw] at hspec
  cases hspec with
  | bypass => simp
  | drop _ => simp
  | @ok j a _ hj hs hh =>
    have hij : j = i := by
      have hconn := hj.conn
      rw [c.dest, hr] at hconn
      exact (Option.some.inj hconn).symm
    subst hij
    obtain ⟨ha, hfit⟩ := h.joins hj
    refine ⟨fun _ => ⟨hs, ?_⟩, by simp⟩
    rw [c.getUp] at hh
    have hheld : w.held (j, tid) = some (a.append (c.skb ifIdx tid)) := by
      rw [hh, Function.update_self]
    rw [Packed, hheld]
    refine ⟨ha.append hfit, fs, c.frame, rfl, ?_⟩
    have hlast : (a.append (c.skb ifIdx tid)).lastpduLen = c.frame.pdu.length % 65536 := by
      simp only [Amsdu.append, c.drop_data]
    rw [hlast, Nat.mod_eq_of_lt]
    have hsmall : c.frame.pdu.length ≤ txAmsduMaxAggrLen / 2 := hlen ▸ hj.small
    exact lt_of_le_of_lt hsmall (by decide)
  | @done j a _ dest hj hs hh =>
    have hij : j = i := by
      have hconn := hj.conn
      rw [c.dest, hr] at hconn
      exact (Option.some.inj hconn).symm
    subst hij
    obtain ⟨ha, hfit⟩ := h.joins hj
    refine ⟨by simp, fun skb hskb => ?_⟩
    rw [← AggrTx.done.inj hskb, hlen]
    exact (ha.append hfit).finish dest vif.devAddr

theorem Packed.run {cs : List Call} (h : Packed vif i tid fs) (hne : cs ≠ [])
    (hr : ∀ c∈cs, (sta <|> vif.findSta (c.frame.bytes.take 6)) = some i)
    (hacc : ∀ o∈(aggrTxAll sta ifIdx tid vif cs).2.dropLast, o = .ok) :
    ((aggrTxAll sta ifIdx tid vif cs).2.getLast? = some .ok →
      Same vif (aggrTxAll sta ifIdx tid vif cs).1 ∧
      Packed (aggrTxAll sta ifIdx tid vif cs).1 i tid (fs ++ cs.map Call.frame)) ∧
    ∀ skb, (aggrTxAll sta ifIdx tid vif cs).2.getLast? = some (.done skb) →
      Carries skb (fs ++ cs.map Call.frame) := by
  induction cs generalizing vif fs with
  | nil => exact absurd rfl hne
  | cons c cs ih =>
    cases hw : aggrTx vif sta (c.skb ifIdx tid) c.alloc c.clk with
    | mk w o =>
    have hstep := h.step (hr c List.mem_cons_self) hw
    cases cs with
    | nil =>
      simp only [aggrTxAll, hw, List.getLast?_singleton, Option.some.injEq, List.map_cons,
        List.map_nil]
      exact hstep
    | cons d ds =>
      have hall : aggrTxAll sta ifIdx tid vif (c::d::ds) =
          ((aggrTxAll sta ifIdx tid w (d::ds)).1,
            o::(aggrTxAll sta ifIdx tid w (d::ds)).2) := by
        rw [aggrTxAll, hw]
      have hcons : ∃ p ps, (aggrTxAll sta ifIdx tid w (d::ds)).2 = p::ps := ⟨_, _, rfl⟩
      rw [hall] at hacc ⊢
      obtain ⟨p, ps, hps⟩ := hcons
      have hok : o = .ok := hacc o (by simp [hps])
      obtain ⟨hsame, hpacked⟩ := hstep.1 hok
      have hrest := ih hpacked (List.cons_ne_nil d ds)
        (fun x hx => by rw [hsame.findSta]; exact hr x (List.mem_cons_of_mem c hx))
        (fun x hx => hacc x (by
          rw [hps] at hx ⊢
          simp only [List.dropLast_cons_cons, List.mem_cons]
          exact .inr hx))
      have hlast : (o::(aggrTxAll sta ifIdx tid w (d::ds)).2).getLast? =
          (aggrTxAll sta ifIdx tid w (d::ds)).2.getLast? := by
        rw [hps, List.getLast?_cons_cons]
      rw [hlast]
      rw [List.append_assoc] at hrest
      exact ⟨fun hk => ⟨hsame.trans (hrest.1 hk).1, (hrest.1 hk).2⟩, hrest.2⟩

/-- Packing and slicing are inverse, whichever way the aggregate is completed: `aggr_tx`
finds it full, or `aggr_tx_tid` flushes it. -/
theorem aggr_tx_slice {cs : List Call} (hempty : vif.held (i, tid) = none) (hne : cs ≠ [])
    (hs : ∀ c∈cs, c.frame.Sized)
    (hr : ∀ c∈cs, (sta <|> vif.findSta (c.frame.bytes.take 6)) = some i)
    (hacc : ∀ o∈(aggrTxAll sta ifIdx tid vif cs).2.dropLast, o = .ok) (hb : cs.length ≤ bufs)
    (beyond : Nat → UInt8) :
    (∀ skb, (aggrTxAll sta ifIdx tid vif cs).2.getLast? = some (.done skb) →
      aggrSliceAmsdu bufs ⟨skb.data.drop wmiDataHdrLen, beyond⟩ =
        cs.map fun c => c.frame.bytes) ∧
    ((aggrTxAll sta ifIdx tid vif cs).2.getLast? = some .ok →
      (vif.nwType = .ap → vif.findStaByAid ((vif.sta i).txTid tid).aid ≠ none) →
      ∀ timerStop clk, ∃ skb,
        (aggrTxTake (aggrTxAll sta ifIdx tid vif cs).1 i tid timerStop clk).2 = some skb ∧
        aggrSliceAmsdu bufs ⟨skb.data.drop wmiDataHdrLen, beyond⟩ =
          cs.map fun c => c.frame.bytes) := by
  have hpacked : Packed vif i tid [] := by rw [Packed, hempty]
  have hrun := hpacked.run hne hr hacc
  rw [List.nil_append] at hrun
  have hframes : cs.map Call.frame ≠ [] := by simpa using hne
  have hsized : ∀ f∈cs.map Call.frame, f.Sized := by
    intro f hf
    obtain ⟨c, hc, rfl⟩ := List.mem_map.mp hf
    exact hs c hc
  have hslice : ∀ skb, Carries skb (cs.map Call.frame) →
      aggrSliceAmsdu bufs ⟨skb.data.drop wmiDataHdrLen, beyond⟩ =
        cs.map fun c => c.frame.bytes := by
    intro skb hc
    rw [hc.slice hframes hsized (by rwa [List.length_map]), List.map_map]
    rfl
  refine ⟨fun skb hdone => hslice skb (hrun.2 skb hdone), fun hok haid timerStop clk => ?_⟩
  obtain ⟨hsame, hp⟩ := hrun.1 hok
  have hspec := aggrTxTake_spec (aggrTxAll sta ifIdx tid vif cs).1 i tid timerStop clk
  generalize aggrTxTake (aggrTxAll sta ifIdx tid vif cs).1 i tid timerStop clk = r at hspec
  cases hspec with
  | empty h =>
    rw [Packed, h] at hp
    exact absurd hp hframes
  | lost h _ _ =>
    rw [hsame.nwType, hsame.findStaByAid, hsame.aid] at h
    exact absurd h.2 (haid h.1)
  | @taken _ a dest h _ _ =>
    rw [Packed, h] at hp
    obtain ⟨ha, gs, f, hgs, hlast⟩ := hp
    refine ⟨_, rfl, hslice _ ?_⟩
    rw [hgs] at ha ⊢
    rw [hlast]
    exact ha.finish dest _

/-- A TCP segment of `n` bytes behind the fields that `aggr_tx` looks at. -/
def tcpFrame (n : Nat) : Bytes :=
  [0, 2, 0, 0, 0, 1, 0, 2, 0, 0, 0, 2, 0x08, 0x00, 0x45, 0, 0, 0, 0, 0, 0, 0, 0, 6] ++
    List.replicate n 0

def tcpCall (n : Nat) (h : isEthertype (ntohs ((tcpFrame n).getD 12 0)
    ((tcpFrame n).getD 13 0)) = true) : Call where
  frame := ⟨tcpFrame n, by simp [tcpFrame, ethHlen], h⟩

set_option maxRecDepth 4000 in
theorem aggr_tx_slice_two_segments :
    ∃ skb, (aggrTxTake (aggrTxAll none 0 wmiVoiceUserPriority sessionVif
        [tcpCall 30 rfl, tcpCall 31 rfl]).1 sta0 wmiVoiceUserPriority true {}).2 = some skb ∧
      aggrSliceAmsdu 2 ⟨skb.data.drop wmiDataHdrLen, fun _ => 0⟩ = [tcpFrame 30, tcpFrame 31] := by
  have hsized : ∀ c∈[tcpCall 30 rfl, tcpCall 31 rfl], c.frame.Sized := by
    intro c hc
    simp only [List.mem_cons, List.not_mem_nil, or_false] at hc
    cases hc with
    | inl h => rw [h]; exact ⟨by decide, by decide⟩
    | inr h => rw [h]; exact ⟨by decide, by decide⟩
  have hempty : sessionVif.held (sta0, wmiVoiceUserPriority) = none := rfl
  have hrcv : ∀ c∈[tcpCall 30 rfl, tcpCall 31 rfl],
      (none <|> sessionVif.findSta (c.frame.bytes.take 6)) = some sta0 := fun _ _ => rfl
  have hall : (aggrTxAll none 0 wmiVoiceUserPriority sessionVif
      [tcpCall 30 rfl, tcpCall 31 rfl]).2 = [.ok, .ok] := rfl
  have hacc : ∀ o∈(aggrTxAll none 0 wmiVoiceUserPriority sessionVif
      [tcpCall 30 rfl, tcpCall 31 rfl]).2.dropLast, o = .ok := by
    intro o ho
    rw [hall] at ho
    exact List.mem_singleton.mp ho
  have h := aggr_tx_slice hempty (List.cons_ne_nil _ _) hsized hrcv hacc (Nat.le_refl 2) fun _ => 0
  exact h.2 (by rw [hall]; rfl) (fun hap => NwType.noConfusion hap) true {}

end Ath6kl.AmsduRoundTrip
