import Ath6kl.AmsduRoundTrip
import Ath6kl.RxPath
import Ath6kl.RxReorderOrder

/-! What the network stack gets from one TID of a station: the DIX frames that were sent, each once
and in order, however the target has wrapped them and in whatever order the packets come. -/
namespace Ath6kl.RxPath
open EthFrame RxReorder AmsduRoundTrip Lib.Framing Lib.Machine

/-- How an 802.11 data frame carries a DIX frame: with or without QoS, and its way through the
distribution system. -/
structure Dot11 where
  qos : Bool
  /-- the two bits: not at all, to it, from it -/
  ds : Fin 3
  /-- the address of the access point -/
  bssid : Bytes
  /-- protocol version, type and the other bits of the two bytes of the frame control -/
  fc : Fin 16 × Fin 64
  duration : Bytes
  seqCtl : Bytes
  qosCtl : Bytes
  bssidLen : bssid.length = 6
  durationLen : duration.length = 2
  seqCtlLen : seqCtl.length = 2
  qosCtlLen : qosCtl.length = 4

def Dot11.addrs (x : Dot11) (f : DixFrame) : Bytes :=
  let da := f.bytes.take 6
  let sa := (f.bytes.drop 6).take 6
  match x.ds with
  | 0 => da ++ sa ++ x.bssid
  | 1 => x.bssid ++ sa ++ da
  | 2 => da ++ x.bssid ++ sa

def Dot11.encap (x : Dot11) (f : DixFrame) : Bytes :=
  [UInt8.ofNat ((if x.qos then 128 else 0) + x.fc.1), UInt8.ofNat (x.ds + 4*x.fc.2)] ++
    x.duration ++ x.addrs f ++ x.seqCtl ++ (if x.qos then x.qosCtl else []) ++
    ([0xAA, 0xAA, 0x03, 0, 0, 0] ++ f.etherType ++ f.bytes.drop ethHlen)

/-- What one MPDU carries: a frame as 802.3 or as 802.11, or the frames of an A-MSDU behind its
header. -/
inductive Load
  | dot3 (f : DixFrame)
  | dot11 (x : Dot11) (f : DixFrame)
  | amsdu (hdr : Bytes) (fs : List DixFrame)

def Load.frames : Load → List Bytes
  | .dot3 f => [f.bytes]
  | .dot11 _ f => [f.bytes]
  | .amsdu _ fs => fs.map DixFrame.bytes

def Load.body : Load → Bytes
  | .dot3 f => f.pdu
  | .dot11 x f => x.encap f
  | .amsdu hdr fs => hdr ++ joinPadded padPdu (fs.map DixFrame.pdu)

/-- What is left of the load without the headers. -/
def Load.plain : Load → Bytes
  | .dot3 f => f.bytes
  | .dot11 _ f => f.bytes
  | .amsdu hdr fs => hdr ++ joinPadded padPdu (fs.map DixFrame.pdu)

def Load.isAmsdu : Load → Bool
  | .amsdu _ _ => true
  | _ => false

def Load.isDot11 : Load → Bool
  | .dot11 _ _ => true
  | _ => false

/-- To one receiver, and what `aggr_slice_amsdu` can take apart. -/
def Load.Ok (bufs : Nat) : Load → Prop
  | .dot3 f => isMulticast f.bytes = false
  | .dot11 _ f => isMulticast f.bytes = false
  | .amsdu hdr fs => hdr.length = ethHlen ∧ isMulticast hdr = false ∧ fs ≠ [] ∧
      (∀ f∈fs, f.Sized) ∧ fs.length ≤ bufs

/-- A data packet of the target: the load, behind padding and meta data of the announced version. -/
structure Mpdu where
  load : Load
  seqNo : Fin 4096
  rssi : UInt8 := 0
  /-- message type, and the bit that tells of the power management of a station -/
  info : Fin 4 × Fin 2
  metaVer : Fin 8
  metaData : Bytes := []
  pad : Bytes := []
  /-- the upper half of the byte with the interface index -/
  info3 : Fin 16
  beyond : Nat → UInt8 := fun _ => 0
  bufs : Nat := 0
  alloc : Bool := true

/-- The size of the meta data that the driver takes off. -/
def metaLen (ver : Nat) : Nat := if ver = 1 then 6 else if ver = 2 then 3 else 0

def Mpdu.hdr (m : Mpdu) (ifIdx : Fin 16) (tid : Tid) : Bytes :=
  [m.rssi,
    UInt8.ofNat (m.info.1 + 4*tid + 32*m.info.2 + if m.load.isDot11 then 64 else 0),
    UInt8.ofNat m.seqNo,
    UInt8.ofNat (m.seqNo/256 + (if m.load.isAmsdu then 16 else 0) + 32*m.metaVer),
    UInt8.ofNat (ifIdx + 16*m.info3),
    UInt8.ofNat m.pad.length]

def Mpdu.bytes (m : Mpdu) (ifIdx : Fin 16) (tid : Tid) : Bytes :=
  m.hdr ifIdx tid ++ (m.metaData ++ (m.pad ++ m.load.body))

structure Mpdu.Ok (m : Mpdu) : Prop where
  load : m.load.Ok m.bufs
  metaData : m.metaData.length = metaLen m.metaVer
  pad : m.pad.length<256
  short : wmiDataHdrLen + m.metaData.length + m.load.body.length ≤ wmiMaxAmsduRxDataFrameLength

def Mpdu.packet (m : Mpdu) (ifIdx : Fin 16) (tid : Tid) : Packet where
  skb := ⟨m.bytes ifIdx tid, m.beyond⟩
  bufs := m.bufs
  alloc := m.alloc

section Strip

theorem skbPull_append {a b : Bytes} {beyond : Nat → UInt8} {n : Nat} (h : a.length = n) :
    ∃ f, skbPull ⟨a ++ b, beyond⟩ n = ⟨b, f⟩ := by
  refine ⟨fun i => beyond (i+n), ?_⟩
  rw [skbPull, if_pos (by simp [h]), List.drop_left' h]

theorem skbPull_zero (s : Skb) : skbPull s 0 = s := by
  simp [skbPull]

theorem wmiDataHdr_bytes (m : Mpdu) (ifIdx : Fin 16) (tid : Tid) (hpad : m.pad.length<256) :
    wmiDataHdr ⟨m.bytes ifIdx tid, m.beyond⟩ =
      ⟨m.rssi, tid, m.load.isDot11, m.seqNo, m.load.isAmsdu, m.metaVer, ifIdx, m.pad.length⟩ := by
  have h1 := m.info.1.isLt
  have h2 := m.info.2.isLt
  have ht := tid.isLt
  have hs := m.seqNo.isLt
  have hm := m.metaVer.isLt
  have hi := ifIdx.isLt
  have h3 := m.info3.isLt
  have hb : ∀ k (hk : k<6), Skb.byte ⟨m.bytes ifIdx tid, m.beyond⟩ k =
      (m.hdr ifIdx tid).get ⟨k, hk⟩ := by
    intro k hk
    have hlen : (m.hdr ifIdx tid).length = 6 := rfl
    rw [Skb.byte_eq (by simp only [Mpdu.bytes, List.length_append, hlen]; omega)]
    exact List.getElem_append_left _
  simp only [wmiDataHdr, hb 0 (by decide), hb 1 (by decide), hb 2 (by decide), hb 3 (by decide),
    hb 4 (by decide), hb 5 (by decide), Mpdu.hdr, List.get_eq_getElem, List.getElem_cons_zero,
    List.getElem_cons_succ, UInt8.toNat_ofNat']
  have htid : masked 7 ((m.info.1 + 4*tid + 32*m.info.2 +
      if m.load.isDot11 then 64 else 0) % 2^8 / 4) = tid := by
    refine Fin.ext ?_
    simp only [masked]
    split <;> omega
  have hseq : masked 4095 ((m.seqNo:Nat) % 2^8 + 256*((m.seqNo/256 +
      (if m.load.isAmsdu then 16 else 0) + 32*m.metaVer) % 2^8)) = m.seqNo := by
    refine Fin.ext ?_
    simp only [masked]
    split <;> omega
  rw [htid, hseq]
  congr 1
  · cases m.load.isDot11 with
    | false =>
      simp
      omega
    | true =>
      simp
      omega
  · cases m.load.isAmsdu with
    | false =>
      simp
      omega
    | true =>
      simp
      omega
  · cases m.load.isAmsdu with
    | false =>
      simp
      omega
    | true =>
      simp
      omega
  · omega
  · omega

variable {beyond : Nat → UInt8}

theorem wmiDot32Dix_pdu (f : DixFrame) : (wmiDot32Dix ⟨f.pdu, beyond⟩).data = f.bytes := by
  have hlen := f.length_pdu
  have hhdr : 14 ≤ f.bytes.length := f.hdr
  have hcopy : Skb.copy ⟨f.pdu, beyond⟩ 0 12 = f.pdu.take 12 := by
    rw [Skb.copy_eq (by simp only; omega), List.drop_zero]
  have htype : Skb.copy ⟨f.pdu, beyond⟩ 20 2 = (f.pdu.drop 20).take 2 :=
    Skb.copy_eq (by simp only; omega)
  have hh : (f.pdu.take 12 ++ (f.pdu.drop 20).take 2).length = 14 := by
    simp only [List.length_append, List.length_take, List.length_drop]
    omega
  have hdrop : (f.pdu.drop llcSnapHdrLen).drop 14 = f.pdu.drop 22 := by
    rw [List.drop_drop]
    rfl
  have hd := f.dot32Dix_pdu
  rw [dot32Dix] at hd
  rw [wmiDot32Dix, hcopy, htype, skbPull, if_pos (by simp only [llcSnapHdrLen]; omega), skbWrite]
  dsimp only
  rw [hh, hdrop, hd, List.length_drop, hlen, llcSnapHdrLen, Nat.add_sub_cancel, List.take_length]

theorem wmiDot11HdrRemove_parts {b0 b1 : UInt8} {dur a1 a2 a3 sc q snap type rest : Bytes}
    (hdur : dur.length = 2) (h1 : a1.length = 6) (h2 : a2.length = 6) (h3 : a3.length = 6)
    (hsc : sc.length = 2) (hsnap : snap.length = 6) (htype : type.length = 2)
    (hq : (b0.toNat/16 = 8 ∧ q.length = 4) ∨ (b0.toNat/16 = 0 ∧ q.length = 0)) :
    (wmiDot11HdrRemove ⟨[b0, b1] ++ (dur ++ (a1 ++ (a2 ++ (a3 ++ (sc ++ (q ++
      (snap ++ (type ++ rest)))))))), beyond⟩).data =
    (if b1.toNat % 4 = 0 then a1 ++ a2 else if b1.toNat % 4 = 1 then a3 ++ a2
      else if b1.toNat % 4 = 2 then a1 ++ a3 else List.replicate 12 0) ++ type ++ rest := by
  generalize hs : (⟨[b0, b1] ++ (dur ++ (a1 ++ (a2 ++ (a3 ++ (sc ++ (q ++
    (snap ++ (type ++ rest)))))))), beyond⟩ : Skb) = s
  have hd : s.data = [b0, b1] ++ (dur ++ (a1 ++ (a2 ++ (a3 ++ (sc ++ (q ++
    (snap ++ (type ++ rest)))))))) := by rw [← hs]
  have hb0 : s.byte 0 = b0 := by rw [Skb.byte_eq (by simp [hd])]; simp [hd]
  have hb1 : s.byte 1 = b1 := by rw [Skb.byte_eq (by simp [hd])]; simp [hd]
  have hd4 : s.data.drop 4 = a1 ++ (a2 ++ (a3 ++ (sc ++ (q ++ (snap ++ (type ++ rest)))))) := by
    rw [hd, ← List.append_assoc]
    exact List.drop_left' (by simp [hdur])
  have hd10 : s.data.drop 10 = a2 ++ (a3 ++ (sc ++ (q ++ (snap ++ (type ++ rest))))) := by
    rw [show 10 = 4+6 from rfl, ← List.drop_drop, hd4, List.drop_left' h1]
  have hd16 : s.data.drop 16 = a3 ++ (sc ++ (q ++ (snap ++ (type ++ rest)))) := by
    rw [show 16 = 10+6 from rfl, ← List.drop_drop, hd10, List.drop_left' h2]
  have hd24 : s.data.drop 24 = q ++ (snap ++ (type ++ rest)) := by
    rw [show 24 = 16+(6+2) from rfl, ← List.drop_drop, hd16, ← List.append_assoc]
    exact List.drop_left' (by simp [h3, hsc])
  have hlen : s.data.length = 32 + q.length + rest.length := by
    simp [hd, hdur, h1, h2, h3, hsc, hsnap, htype]
    omega
  have hc1 : s.copy 4 6 = a1 := h1 ▸ copy_of_drop hd4 (by omega)
  have hc2 : s.copy 10 6 = a2 := h2 ▸ copy_of_drop hd10 (by omega)
  have hc3 : s.copy 16 6 = a3 := h3 ▸ copy_of_drop hd16 (by omega)
  -- what is left when the header is pulled
  obtain ⟨t, ht, htd⟩ : ∃ t, (if b0.toNat/16 = 8 then skbPull s dot11QosLen
      else if b0.toNat/16 = 0 then skbPull s dot113addrLen else s) = t ∧
      t.data = snap ++ (type ++ rest) := by
    refine ⟨_, rfl, ?_⟩
    rcases hq with ⟨hq, hl⟩ | ⟨hq, hl⟩
    · rw [if_pos hq, skbPull, if_pos (by simp only [dot11QosLen]; omega)]
      show s.data.drop (24+4) = _
      rw [← List.drop_drop, hd24, List.drop_left' hl]
    · rw [if_neg (by omega), if_pos hq, skbPull, if_pos (by simp only [dot113addrLen]; omega)]
      show s.data.drop 24 = _
      rw [hd24, List.length_eq_zero_iff.mp hl, List.nil_append]
  have hct : t.copy 6 2 = type := by
    refine htype ▸ copy_of_drop (r := rest) ?_ (by omega)
    rw [htd, List.drop_left' hsnap]
  have hp : (skbPull t llcSnapHdrLen).data = rest := by
    rw [skbPull, if_pos (by simp [htd, hsnap, htype, llcSnapHdrLen]; omega)]
    show t.data.drop 8 = rest
    rw [htd, ← List.append_assoc]
    exact List.drop_left' (by simp [hsnap, htype])
  have hfc : (b0.toNat + 256*b1.toNat)/16 % 16 = b0.toNat/16 := by
    have := b0.toNat_lt
    omega
  have hds : (b0.toNat + 256*b1.toNat)/256 % 4 = b1.toNat % 4 := by
    have := b0.toNat_lt
    omega
  rw [wmiDot11HdrRemove, hb0, hb1, hc1, hc2, hc3]
  rw [hfc, hds, ht, hct, skbPush, hp]

theorem wmiDot11HdrRemove_encap (x : Dot11) (f : DixFrame) :
    (wmiDot11HdrRemove ⟨x.encap f, beyond⟩).data = f.bytes := by
  have hh : 14 ≤ f.bytes.length := f.hdr
  have hda : (f.bytes.take 6).length = 6 := by
    rw [List.length_take]
    omega
  have hsa : ((f.bytes.drop 6).take 6).length = 6 := by
    rw [List.length_take, List.length_drop]
    omega
  have htake : f.bytes.take 6 ++ (f.bytes.drop 6).take 6 = f.bytes.take 12 :=
    (List.take_add (i := 6) (j := 6)).symm
  have hds := x.ds.isLt
  have hfc1 := x.fc.1.isLt
  have hfc2 := x.fc.2.isLt
  have hq : ((UInt8.ofNat ((if x.qos then 128 else 0) + x.fc.1)).toNat/16 = 8 ∧
        (if x.qos then x.qosCtl else []).length = 4) ∨
      ((UInt8.ofNat ((if x.qos then 128 else 0) + x.fc.1)).toNat/16 = 0 ∧
        (if x.qos then x.qosCtl else []).length = 0) := by
    cases x.qos with
    | true =>
      refine Or.inl ⟨?_, x.qosCtlLen⟩
      simp only [if_true, UInt8.toNat_ofNat']
      omega
    | false =>
      refine Or.inr ⟨?_, rfl⟩
      simp only [Bool.false_eq_true, if_false, UInt8.toNat_ofNat']
      omega
  have hb1 : (UInt8.ofNat ((x.ds:Nat) + 4*x.fc.2)).toNat % 4 = x.ds := by
    simp only [UInt8.toNat_ofNat']
    omega
  have key := fun (a1 a2 a3 : Bytes) h1 h2 h3 =>
    @wmiDot11HdrRemove_parts beyond _ (UInt8.ofNat ((x.ds:Nat) + 4*x.fc.2)) x.duration a1 a2 a3
      x.seqCtl _ [0xAA, 0xAA, 0x03, 0, 0, 0] f.etherType (f.bytes.drop ethHlen) x.durationLen
      h1 h2 h3 x.seqCtlLen rfl f.length_etherType hq
  rw [hb1] at key
  have hend : f.bytes.take 12 ++ f.etherType ++ f.bytes.drop ethHlen = f.bytes := by
    rw [List.append_assoc]
    exact f.bytes_eq
  simp only [Dot11.encap, Dot11.addrs, List.append_assoc]
  have hcases : ∀ d : Fin 3, d = 0 ∨ d = 1 ∨ d = 2 := by decide
  rcases hcases x.ds with hd | hd | hd
  · rw [hd] at key ⊢
    simp only [List.append_assoc]
    rw [key _ _ _ hda hsa x.bssidLen, if_pos (by decide), htake, hend]
  · rw [hd] at key ⊢
    simp only [List.append_assoc]
    rw [key _ _ _ x.bssidLen hsa hda, if_neg (by decide), if_pos (by decide), htake, hend]
  · rw [hd] at key ⊢
    simp only [List.append_assoc]
    rw [key _ _ _ hda x.bssidLen hsa, if_neg (by decide), if_neg (by decide), if_pos (by decide),
      htake, hend]

theorem length_encap (x : Dot11) (f : DixFrame) : 18+f.bytes.length ≤ (x.encap f).length := by
  have hh : 14 ≤ f.bytes.length := f.hdr
  have he := f.length_etherType
  have hb := x.bssidLen
  have h1 : (f.bytes.take 6).length = 6 := by
    rw [List.length_take]
    omega
  have h2 : ((f.bytes.drop 6).take 6).length = 6 := by
    rw [List.length_take, List.length_drop]
    omega
  have haddrs : (x.addrs f).length = 18 := by
    unfold Dot11.addrs
    dsimp only
    split <;> simp only [List.length_append, h1, h2, hb]
  rw [Dot11.encap]
  simp only [List.length_append, haddrs, he, x.durationLen, x.seqCtlLen, List.length_cons,
    List.length_nil, List.length_drop, ethHlen]
  omega

theorem joinPadded_pdus_pos {fs : List DixFrame} (h : fs ≠ []) :
    22 ≤ (joinPadded padPdu (fs.map DixFrame.pdu)).length := by
  cases fs with
  | nil => exact absurd rfl h
  | cons f fs =>
    have hf : 14 ≤ f.bytes.length := f.hdr
    have hl := f.length_pdu
    cases fs with
    | nil =>
      rw [List.map_cons, List.map_nil, joinPadded_single]
      omega
    | cons g gs =>
      have hge := align4_ge f.pdu.length
      rw [List.map_cons, joinPadded_cons padPdu (by simp), List.length_append, length_padPdu]
      omega

variable {m : Mpdu} {ifIdx : Fin 16} {tid : Tid}

theorem Load.length_body {l : Load} {bufs : Nat} (h : l.Ok bufs) : 22 ≤ l.body.length := by
  cases l with
  | dot3 f =>
    have hf : 14 ≤ f.bytes.length := f.hdr
    have hl := f.length_pdu
    show 22 ≤ f.pdu.length
    omega
  | dot11 x f =>
    have hf : 14 ≤ f.bytes.length := f.hdr
    have hl := length_encap x f
    show 22 ≤ (x.encap f).length
    omega
  | amsdu hdr fs =>
    have hl := joinPadded_pdus_pos h.2.2.1
    show 22 ≤ (hdr ++ _).length
    rw [List.length_append]
    omega

theorem Mpdu.length_bytes (m : Mpdu) (ifIdx : Fin 16) (tid : Tid) : (m.bytes ifIdx tid).length =
    wmiDataHdrLen + (m.metaData.length + (m.pad.length + m.load.body.length)) := by
  simp only [Mpdu.bytes, List.length_append]
  rfl

theorem Mpdu.Ok.badLen (h : m.Ok) : badLen (m.bytes ifIdx tid).length m.pad.length = false := by
  have hb := Load.length_body h.load
  have hs := h.short
  have hmin : minHdrLen = 28 := rfl
  have hhdr : wmiDataHdrLen = 6 := rfl
  rw [m.length_bytes]
  simp only [RxPath.badLen, Bool.or_eq_false_iff, decide_eq_false_iff_not]
  omega

theorem rxStrip_data (h : m.Ok) :
    (rxStrip (wmiDataHdr ⟨m.bytes ifIdx tid, m.beyond⟩) ⟨m.bytes ifIdx tid, m.beyond⟩).data =
      m.load.plain := by
  rw [wmiDataHdr_bytes m ifIdx tid h.pad]
  obtain ⟨f1, h1⟩ : ∃ g, skbPull ⟨m.hdr ifIdx tid ++ (m.metaData ++ (m.pad ++ m.load.body)),
      m.beyond⟩ wmiDataHdrLen = ⟨m.metaData ++ (m.pad ++ m.load.body), g⟩ := skbPull_append rfl
  obtain ⟨f2, h2⟩ : ∃ g, skbPull ⟨m.metaData ++ (m.pad ++ m.load.body), f1⟩ (metaLen m.metaVer) =
      ⟨m.pad ++ m.load.body, g⟩ := skbPull_append h.metaData
  obtain ⟨f3, h3⟩ : ∃ g, skbPull ⟨m.pad ++ m.load.body, f2⟩ m.pad.length =
      ⟨m.load.body, g⟩ := skbPull_append rfl
  have hmeta : (if (m.metaVer:Nat) = 1 then skbPull ⟨m.metaData ++ (m.pad ++ m.load.body), f1⟩ 6
      else if (m.metaVer:Nat) = 2 then skbPull ⟨m.metaData ++ (m.pad ++ m.load.body), f1⟩ 3
      else ⟨m.metaData ++ (m.pad ++ m.load.body), f1⟩) = ⟨m.pad ++ m.load.body, f2⟩ := by
    rw [← h2, metaLen]
    split
    · rfl
    · split
      · rfl
      · rw [skbPull_zero]
  rw [rxStrip, Mpdu.bytes, h1]
  dsimp only
  rw [hmeta, h3]
  cases hl : m.load with
  | dot3 f => exact wmiDot32Dix_pdu f
  | dot11 x f => exact wmiDot11HdrRemove_encap x f
  | amsdu hdr fs => rfl

theorem Load.Ok.unicast {l : Load} {bufs : Nat} (h : l.Ok bufs) : isMulticast l.plain = false := by
  cases l with
  | dot3 f => exact h
  | dot11 x f => exact h
  | amsdu hdr fs =>
    obtain ⟨hlen, hm, -⟩ := h
    cases hdr with
    | nil => cases hlen
    | cons x xs => exact hm

/-- What the reorder buffer is given for the packet. -/
def Mpdu.frm (m : Mpdu) (ifIdx : Fin 16) (tid : Tid) : RecvFrm :=
  ⟨m.seqNo, m.load.isAmsdu,
    rxStrip (wmiDataHdr ⟨m.bytes ifIdx tid, m.beyond⟩) ⟨m.bytes ifIdx tid, m.beyond⟩, m.bufs⟩

theorem Load.Ok.frames {l : Load} {bufs : Nat} {skb : Skb} (h : l.Ok bufs)
    (hd : skb.data = l.plain) (hlen : l.body.length ≤ wmiMaxAmsduRxDataFrameLength) :
    (if l.isAmsdu then aggrSliceAmsdu bufs skb else [skb.data]) = l.frames := by
  cases l with
  | dot3 f => exact congrArg (fun b => [b]) hd
  | dot11 x f => exact congrArg (fun b => [b]) hd
  | amsdu hdr fs =>
    obtain ⟨hhdr, -, hne, hsized, hbufs⟩ := h
    have hmax : wmiMaxAmsduRxDataFrameLength = 3868 := rfl
    simp only [Load.body, List.length_append] at hlen
    simp only [Load.isAmsdu, if_true, aggrSliceAmsdu, hd, Load.plain, List.length_append, hhdr]
    have hu : u16 (((ethHlen + (joinPadded padPdu (fs.map DixFrame.pdu)).length : Nat) : Int) -
        ethHlen) = (joinPadded padPdu (fs.map DixFrame.pdu)).length := by
      unfold u16
      omega
    rw [hu]
    refine sliceLoop_join hne hsized hbufs ?_ (by omega)
    rw [hd]
    exact List.drop_left' hhdr

theorem Mpdu.Ok.frames (h : m.Ok) (id : Nat) :
    ((m.frm ifIdx tid).node id).frames = m.load.frames := by
  have hs := h.short
  exact h.load.frames (rxStrip_data h) (by omega)

end Strip

/-- Everything held or handed over is one of the frames `took`, under its number there. -/
structure Genuine (took : List RecvFrm) (r : Rxtid) : Prop where
  arrived : r.arrived = took.length
  held : ∀ i n, r.holdQ i = some n → ∃ f, took[n.id]? = some f ∧ n = f.node n.id
  logged : ∀ d∈r.log, ∃ f, took[d.id]? = some f ∧ d∈(f.node d.id).deliveries d.unwrapped

section Genuine
variable {took : List RecvFrm} {r : Rxtid}

theorem Genuine.same {s : Rxtid} (h : Genuine took r) (hs : SameQueue r s) : Genuine took s where
  arrived := hs.arrived.trans h.arrived
  held := by rw [hs.holdQ]; exact h.held
  logged := by rw [hs.log]; exact h.logged

theorem logged_append
    (h : ∀ d∈r.log, ∃ f, took[d.id]? = some f ∧ d∈(f.node d.id).deliveries d.unwrapped)
    {f : RecvFrm} {id : Nat} (hf : took[id]? = some f) (u : Nat) :
    ∀ d∈r.log ++ (f.node id).deliveries u,
      ∃ f, took[d.id]? = some f ∧ d∈(f.node d.id).deliveries d.unwrapped := by
  intro d hd
  rcases List.mem_append.mp hd with hd | hd
  · exact h d hd
  · obtain ⟨hu, -, hid⟩ := deliveries_unwrapped hd
    have hid : d.id = id := hid
    exact ⟨f, hid ▸ hf, by rw [hid, hu]; exact hd⟩

theorem Genuine.dequeStep (h : Genuine took r) : Genuine took (dequeStep r) := by
  cases hn : r.holdQ (aggrWinIdx r.seqNext r.holdQSz) with
  | none =>
    rw [dequeStep_none hn]
    exact ⟨h.arrived, h.held, h.logged⟩
  | some n =>
    obtain ⟨f, hf, hnode⟩ := h.held _ n hn
    rw [dequeStep_some hn]
    refine ⟨h.arrived, fun i m hm => ?_, ?_⟩
    · by_cases hi : i = aggrWinIdx r.seqNext r.holdQSz
      · simp [Rxtid.setSeqNext, hi] at hm
      · exact h.held i m (by simpa [Rxtid.setSeqNext, hi] using hm)
    · have hl := logged_append h.logged hf (r.unwrap n.seqNo)
      rw [← hnode] at hl
      simpa only [Rxtid.log, Rxtid.setSeqNext, List.append_assoc] using hl

theorem Genuine.aggrDequeFrms (h : Genuine took r) (seqNo order : Nat) :
    Genuine took (aggrDequeFrms r seqNo order) := by
  have hl := dequeLoop_keeps (P := Genuine took) (fun _ hs => hs.dequeStep)
    (aggrWinIdx (if seqNo ≠ 0 then seqNo else r.seqNext) r.holdQSz) order 4096 h
  exact hl.same ⟨rfl, rfl, rfl, rfl, rfl, rfl, log_deliverQ _, rfl⟩

theorem Genuine.timeout (h : Genuine took r) : Genuine took (aggrTimeout r) := by
  unfold aggrTimeout
  split
  · exact h
  · dsimp only
    have hd := timeoutDeque_keeps (P := Genuine took)
      (fun _ v hs => (hs.aggrDequeFrms v 0).aggrDequeFrms 0 1)
      (fun _ hs => hs.same ⟨rfl, rfl, rfl, rfl, rfl, rfl, rfl, rfl⟩) h
    generalize (if r.timerwaitSeqNum = r.seqNext then timeoutDeque r else r) = s at hd ⊢
    have h0 : Genuine took { s with tidTimerScheduled := false } :=
      hd.same ⟨rfl, rfl, rfl, rfl, rfl, rfl, rfl, rfl⟩
    exact (h0.same (timeoutScan_same _)).same (timeoutRearm_same _).1

theorem Genuine.syncSeqNext (h : Genuine took r) (v : Nat) : Genuine took (r.syncSeqNext v) := by
  unfold Rxtid.syncSeqNext
  split <;> exact ⟨h.arrived, h.held, h.logged⟩

theorem Genuine.grow (h : Genuine took r) (f : RecvFrm) :
    (∀ i n, r.holdQ i = some n → ∃ g, (took ++ [f])[n.id]? = some g ∧ n = g.node n.id) ∧
    ∀ d∈r.log, ∃ g, (took ++ [f])[d.id]? = some g ∧ d∈(g.node d.id).deliveries d.unwrapped := by
  have hget : ∀ {k : Nat} {g : RecvFrm}, took[k]? = some g → (took ++ [f])[k]? = some g := by
    intro k g hk
    obtain ⟨hlt, -⟩ := List.getElem?_eq_some_iff.mp hk
    rw [List.getElem?_append_left hlt, hk]
  constructor
  · intro i n hn
    obtain ⟨g, hg, he⟩ := h.held i n hn
    exact ⟨g, hget hg, he⟩
  · intro d hd
    obtain ⟨g, hg, he⟩ := h.logged d hd
    exact ⟨g, hget hg, he⟩

theorem Genuine.holdFrm (h : Genuine took r) (f : RecvFrm) :
    Genuine (took ++ [f]) (r.holdFrm f) := by
  obtain ⟨hheld, hlog⟩ := h.grow f
  refine ⟨by simp [Rxtid.holdFrm, h.arrived], fun i n hn => ?_, hlog⟩
  rcases holdFrm_cases hn with ⟨-, rfl⟩ | ⟨-, hn⟩
  · refine ⟨f, ?_, rfl⟩
    simp [RecvFrm.node, h.arrived]
  · exact hheld i n hn

/-- A received frame is taken or it is not; nothing else comes in. -/
theorem Genuine.recv (h : Genuine took r) (d : Bool) (f : RecvFrm) :
    Genuine took (aggrProcessRecvFrm d r f).1 ∨
      Genuine (took ++ [f]) (aggrProcessRecvFrm d r f).1 := by
  unfold aggrProcessRecvFrm
  split
  · split
    · right
      obtain ⟨hheld, hlog⟩ := h.grow f
      have hf : (took ++ [f])[r.arrived]? = some f := by
        simp [h.arrived]
      have hl := logged_append hlog hf (r.unwrap f.seqNo)
      refine ⟨by simp [Rxtid.deliverQ, h.arrived], hheld, ?_⟩
      simpa only [Rxtid.log, Rxtid.deliverQ, List.append_assoc, List.append_nil] using hl
    · exact Or.inl h
  · have hm := moveWindow_keeps (P := Genuine took) (fun _ v hs => hs.aggrDequeFrms v 0)
      (fun s v hs => ⟨hs.arrived, hs.held, hs.logged⟩) (h.syncSeqNext f.seqNo) f.seqNo
    generalize RxReorder.moveWindow (r.syncSeqNext f.seqNo) f.seqNo = m at hm
    obtain ⟨s, dropIt⟩ := m
    dsimp only
    split
    · exact Or.inl hm
    · exact Or.inr (((hm.holdFrm f).aggrDequeFrms 0 1).same (recvArmTimer_same _).1)

end Genuine

/-- The stack keeps what it got. -/
def Grown (r s : Rxtid) : Prop := r.delivered <+: s.delivered

section Grown
variable {r s : Rxtid}

theorem aggrDequeFrms_grown (h : Grown r s) (seqNo order : Nat) :
    Grown r (aggrDequeFrms s seqNo order) := by
  have hl := dequeLoop_keeps (P := Grown r)
    (fun t ht => by
      cases hn : t.holdQ (aggrWinIdx t.seqNext t.holdQSz) with
      | none => rw [dequeStep_none hn]; exact ht
      | some n => rw [dequeStep_some hn]; exact ht)
    (aggrWinIdx (if seqNo ≠ 0 then seqNo else s.seqNext) s.holdQSz) order 4096 h
  exact hl.trans (List.prefix_append _ _)

theorem aggrTimeout_grown (h : Grown r s) : Grown r (aggrTimeout s) := by
  unfold aggrTimeout
  split
  · exact h
  · dsimp only
    have hd := timeoutDeque_keeps (P := Grown r)
      (fun _ v hs => aggrDequeFrms_grown (aggrDequeFrms_grown hs v 0) 0 1)
      (fun _ hs => hs) h
    generalize (if s.timerwaitSeqNum = s.seqNext then timeoutDeque s else s) = t at hd ⊢
    have hscan : (timeoutScan { t with tidTimerScheduled := false }).delivered = t.delivered := by
      unfold timeoutScan
      split <;> rfl
    have hrearm : ∀ t : Rxtid, (timeoutRearm t).delivered = t.delivered := by
      intro t
      unfold timeoutRearm
      dsimp only
      split <;> split <;> rfl
    rw [Grown, hrearm, hscan]
    exact hd

theorem aggrProcessRecvFrm_grown (d : Bool) (r : Rxtid) (f : RecvFrm) :
    Grown r (aggrProcessRecvFrm d r f).1 := by
  unfold aggrProcessRecvFrm
  split
  · split
    · exact List.prefix_append _ _
    · exact List.prefix_rfl
  · have hsync : Grown r (r.syncSeqNext f.seqNo) := by
      unfold Rxtid.syncSeqNext
      split <;> exact List.prefix_rfl
    have hm := moveWindow_keeps (P := Grown r) (fun _ v hs => aggrDequeFrms_grown hs v 0)
      (fun _ _ hs => hs) hsync f.seqNo
    generalize RxReorder.moveWindow (r.syncSeqNext f.seqNo) f.seqNo = m at hm
    obtain ⟨s, dropIt⟩ := m
    dsimp only
    split
    · exact hm
    · have ha : ∀ t : Rxtid, (recvArmTimer t).delivered = t.delivered := by
        intro t
        unfold recvArmTimer
        dsimp only
        split <;> split <;> (try split) <;> rfl
      rw [Grown, ha]
      exact aggrDequeFrms_grown (s := s.holdFrm f) hm 0 1

end Grown

/-- What happens on a TID: a packet of the target arrives, or the reorder timer expires. -/
inductive Arrival
  | mpdu (m : Mpdu)
  | timeout

def Arrival.event (ifIdx : Fin 16) (tid : Tid) : Arrival → Event
  | .mpdu m => .rx (m.packet ifIdx tid)
  | .timeout => .reorder apSta tid .timeout

/-- One arrival, and what has been handed over on each TID. -/
def offer (disableRxAggrDrop : Bool) (ifIdx : Fin 16) (s : Vif × List (Tid × Out))
    (e : Tid × Arrival) : Vif × List (Tid × Out) :=
  let res := step disableRxAggrDrop s.1 (e.2.event ifIdx e.1)
  (res.1, s.2 ++ res.2.map fun o => (e.1, o))

/-- A sequence number outside the window and outside the one behind it. -/
def beyondWindows (r : Rxtid) (cur : Nat) : Bool :=
  let st := (r.syncSeqNext cur).seqNext
  let fin := seqMask ((st:Int) + r.holdQSz - 1)
  outside st fin cur && outside fin (seqMask ((fin:Int) + r.holdQSz)) cur

/-- `ATH6KL_CONF_DISABLE_RX_AGGR_DROP` does not keep a packet of the TID that is too old or too far
ahead. -/
def Admitted (disableRxAggrDrop : Bool) (tid : Tid) (s : Vif × List (Tid × Out)) :
    Tid × Arrival → Prop
  | (t, .mpdu m) => disableRxAggrDrop = true → t = tid →
    beyondWindows ((s.1.staList apSta).rxtid tid) m.seqNo = false
  | (_, .timeout) => True

def onTid (tid : Tid) (l : List (Tid × Out)) : List Out :=
  (l.filter fun x => x.1 = tid).map Prod.snd

def mpdus (tid : Tid) : List (Tid × Arrival) → List Mpdu
  | [] => []
  | (t, .mpdu m)::es => if t = tid then m :: mpdus tid es else mpdus tid es
  | (_, .timeout)::es => mpdus tid es

section Offer
variable {v : Vif} {ifIdx : Fin 16} {tid : Tid}

theorem setRxtid_rxtid (v : Vif) (i : StaIdx) (t : Tid) (r : Rxtid) (tid : Tid) :
    ((v.setRxtid i t r).staList i).rxtid tid =
      if tid = t then r else (v.staList i).rxtid tid := by
  simp [Vif.setRxtid, Function.update_apply]

theorem deliverFrames_sta (hap : v.ap = false) (hup : v.up = true) (frame : Bytes) :
    deliverFrames v frame = .toStack frame := by
  simp [deliverFrames, hap, hup]

theorem rx_sta {m : Mpdu} (d : Bool) (hap : v.ap = false) (hup : v.up = true)
    (hidx : v.fwVifIdx = ifIdx) (hm : m.Ok) (tid : Tid) :
    rx d v (m.packet ifIdx tid) =
      let rq := aggrProcessRecvFrm d ((v.staList apSta).rxtid tid) (m.frm ifIdx tid)
      let res := v.reordered apSta tid rq.1
      if rq.2 then res else (res.1, res.2 ++ [deliverFrames v m.load.plain]) := by
  have hhdr := wmiDataHdr_bytes m ifIdx tid hm.pad
  have hdata : (rxStrip (wmiDataHdr ⟨m.bytes ifIdx tid, m.beyond⟩)
      ⟨m.bytes ifIdx tid, m.beyond⟩).data = m.load.plain := rxStrip_data hm
  have huni := hm.load.unicast
  rw [hhdr] at hdata
  simp only [rx, Mpdu.packet, hhdr, hidx, hap, hup, hm.badLen, rxAggrProcess, hdata, huni, Mpdu.frm,
    Bool.false_eq_true, if_false, ne_eq, not_true_eq_false, Bool.not_false, Bool.not_true, if_true,
    true_or]

theorem aggrProcessRecvFrm_queues {r : Rxtid} (ha : r.aggr = true) (d : Bool) (f : RecvFrm) :
    (aggrProcessRecvFrm d r f).2 = true := by
  unfold aggrProcessRecvFrm
  rw [if_neg (by simp [ha])]
  dsimp only
  split <;> rfl

theorem moveWindow_snd (r : Rxtid) (cur : Nat) :
    (RxReorder.moveWindow (r.syncSeqNext cur) cur).2 = beyondWindows r cur := by
  have hsz : (r.syncSeqNext cur).holdQSz = r.holdQSz := by
    unfold Rxtid.syncSeqNext
    split <;> rfl
  simp only [RxReorder.moveWindow, beyondWindows, hsz]
  split
  · rename_i hst
    rw [hst, Bool.true_and]
    split
    · rename_i hfin
      rw [hfin]
      split <;> rfl
    · rename_i hfin
      exact (Bool.eq_false_of_not_eq_true hfin).symm
  · rename_i hst
    rw [Bool.eq_false_of_not_eq_true hst, Bool.false_and]

theorem aggrProcessRecvFrm_drop {d : Bool} {r : Rxtid} {f : RecvFrm}
    (h : d = true → beyondWindows r f.seqNo = false) :
    aggrProcessRecvFrm d r f = aggrProcessRecvFrm false r f := by
  cases d with
  | false => rfl
  | true =>
    have hdrop := (moveWindow_snd r f.seqNo).trans (h rfl)
    unfold aggrProcessRecvFrm
    generalize RxReorder.moveWindow (r.syncSeqNext f.seqNo) f.seqNo = w at hdrop
    obtain ⟨r', dropIt⟩ := w
    dsimp only at hdrop
    simp [hdrop]

theorem onTid_append (tid : Tid) (l : List (Tid × Out)) (t : Tid) (outs : List Out) :
    onTid tid (l ++ outs.map fun o => (t, o)) = onTid tid l ++ if t = tid then outs else [] := by
  rw [onTid, List.filter_append, List.map_append, ← onTid]
  congr 1
  rw [List.filter_map, List.map_map]
  split <;> rename_i h <;> simp [Function.comp_def, h]

/-- A session in use on `tid` of a station's interface that is up: its MPDUs so far are `ms`. -/
structure Fed (ifIdx : Fin 16) (tid : Tid) (seqNo winSz : Nat) (ms : List Mpdu)
    (s : Vif × List (Tid × Out)) : Prop where
  sta : s.1.ap = false
  up : s.1.up = true
  idx : s.1.fwVifIdx = ifIdx
  idle : Idle seqNo (2*winSz) ((s.1.staList apSta).rxtid tid)
  genuine : ∃ kept : List Mpdu, kept.Sublist ms ∧
    Genuine (kept.map fun m => m.frm ifIdx tid) ((s.1.staList apSta).rxtid tid)
  out : onTid tid s.2 = ((s.1.staList apSta).rxtid tid).delivered.map fun d => .toStack d.frame

variable {d : Bool} {seqNo winSz : Nat} {ms : List Mpdu} {s : Vif × List (Tid × Out)}

theorem Fed.moved (h : Fed ifIdx tid seqNo winSz ms s) {r : Rxtid} {ms' : List Mpdu}
    (hi : Idle seqNo (2*winSz) r) (hg : Grown ((s.1.staList apSta).rxtid tid) r)
    (hgen : ∃ kept : List Mpdu, kept.Sublist ms' ∧ Genuine (kept.map fun m => m.frm ifIdx tid) r) :
    Fed ifIdx tid seqNo winSz ms' ((s.1.reordered apSta tid r).1,
      s.2 ++ (s.1.reordered apSta tid r).2.map fun o => (tid, o)) := by
  have hr : ((s.1.reordered apSta tid r).1.staList apSta).rxtid tid = r := by
    rw [Vif.reordered, setRxtid_rxtid, if_pos rfl]
  refine ⟨h.sta, h.up, h.idx, by rw [hr]; exact hi, by rw [hr]; exact hgen, ?_⟩
  obtain ⟨new, hnew⟩ := hg
  dsimp only at hr ⊢
  rw [hr, onTid_append, if_pos rfl, h.out, ← hnew, List.map_append]
  congr 1
  rw [Vif.reordered]
  dsimp only
  rw [← hnew, List.drop_left' rfl]
  exact List.map_congr_left fun d _ => deliverFrames_sta h.sta h.up d.frame

theorem Fed.other (h : Fed ifIdx tid seqNo winSz ms s) {t : Tid} (ht : t ≠ tid) (r : Rxtid)
    (outs : List Out) :
    Fed ifIdx tid seqNo winSz ms (s.1.setRxtid apSta t r, s.2 ++ outs.map fun o => (t, o)) := by
  have hr : ((s.1.setRxtid apSta t r).staList apSta).rxtid tid = (s.1.staList apSta).rxtid tid := by
    rw [setRxtid_rxtid, if_neg ht.symm]
  refine ⟨h.sta, h.up, h.idx, by rw [hr]; exact h.idle, by rw [hr]; exact h.genuine, ?_⟩
  dsimp only
  rw [hr, onTid_append, if_neg ht, List.append_nil, h.out]

theorem Fed.timer (h : Fed ifIdx tid seqNo winSz ms s) (hw : 2*winSz<256) (t : Tid) :
    Fed ifIdx tid seqNo winSz ms (offer d ifIdx s (t, .timeout)) := by
  simp only [offer, Arrival.event, step, handle]
  by_cases ht : t = tid
  · subst ht
    split
    · have hsame : SameQueue ((s.1.staList apSta).rxtid t)
          { (s.1.staList apSta).rxtid t with tidTimer := none } :=
        ⟨rfl, rfl, rfl, rfl, rfl, rfl, rfl, rfl⟩
      have hi := (h.idle.same hsame h.idle.notHung).timeout hw
      have hg : Grown ((s.1.staList apSta).rxtid t)
          (aggrTimeout { (s.1.staList apSta).rxtid t with tidTimer := none }) :=
        aggrTimeout_grown List.prefix_rfl
      obtain ⟨kept, hsub, hgen⟩ := h.genuine
      exact h.moved hi hg ⟨kept, hsub, (hgen.same hsame).timeout⟩
    · exact h.moved h.idle List.prefix_rfl h.genuine
  · exact h.other ht _ _

theorem Fed.mpdu (h : Fed ifIdx tid seqNo winSz ms s) {m : Mpdu} (hm : m.Ok) {t : Tid}
    (hadm : Admitted d tid s (t, .mpdu m)) :
    Fed ifIdx tid seqNo winSz (if t = tid then ms ++ [m] else ms)
      (offer d ifIdx s (t, .mpdu m)) := by
  simp only [offer, Arrival.event, step]
  rw [rx_sta d h.sta h.up h.idx hm t]
  dsimp only
  by_cases ht : t = tid
  · subst ht
    have hdrop : d = true →
        beyondWindows ((s.1.staList apSta).rxtid t) (m.frm ifIdx t).seqNo = false :=
      fun hd => hadm hd rfl
    rw [aggrProcessRecvFrm_drop hdrop, if_pos rfl,
      if_pos (aggrProcessRecvFrm_queues h.idle.aggr _ _)]
    refine h.moved (h.idle.recv _) (aggrProcessRecvFrm_grown _ _ _) ?_
    obtain ⟨kept, hsub, hg⟩ := h.genuine
    rcases hg.recv false (m.frm ifIdx t) with hg | hg
    · exact ⟨kept, hsub.trans (List.sublist_append_left ms [m]), hg⟩
    · exact ⟨kept ++ [m], hsub.append (List.Sublist.refl [m]), by rw [List.map_append]; exact hg⟩
  · rw [if_neg ht]
    split
    · exact h.other ht _ _
    · exact h.other ht _ _

theorem Fed.run (hw : 2*winSz<256) {es : List (Tid × Arrival)}
    (hok : ∀ t m, (t, .mpdu m)∈es → m.Ok) (hadm : AllSteps (offer d ifIdx) (Admitted d tid) s es)
    (h : Fed ifIdx tid seqNo winSz ms s) :
    Fed ifIdx tid seqNo winSz (ms ++ mpdus tid es) (run (offer d ifIdx) s es) := by
  induction es generalizing ms s with
  | nil =>
    rw [mpdus, List.append_nil]
    exact h
  | cons e es ih =>
    have hrest : ∀ t m, (t, .mpdu m)∈es → m.Ok := fun t m hm => hok t m (List.mem_cons_of_mem e hm)
    obtain ⟨t, a⟩ := e
    cases a with
    | timeout => exact ih hrest hadm.2 (h.timer hw t)
    | mpdu m =>
      have hnext := ih hrest hadm.2 (h.mpdu (hok t m List.mem_cons_self) hadm.1)
      rw [run_cons, mpdus]
      by_cases ht : t = tid
      · rw [if_pos ht] at hnext ⊢
        rw [List.append_assoc, List.singleton_append] at hnext
        exact hnext
      · rw [if_neg ht] at hnext ⊢
        exact hnext

theorem Genuine.delivered {kept : List Mpdu} {r : Rxtid}
    (hg : Genuine (kept.map fun m => m.frm ifIdx tid) r) (hok : ∀ m∈kept, m.Ok) {d : Delivery}
    (hd : d∈r.delivered) : ∃ m, kept[d.id]? = some m ∧ d.seqNo = m.seqNo ∧
      m.load.frames[d.sub]? = some d.frame := by
  obtain ⟨f, hf, hdel⟩ := hg.logged d (List.mem_append_left _ hd)
  rw [List.getElem?_map, Option.map_eq_some_iff] at hf
  obtain ⟨m, hm, rfl⟩ := hf
  have hmok := hok m (List.mem_of_getElem? hm)
  refine ⟨m, hm, (deliveries_unwrapped hdel).2.1, ?_⟩
  simp only [HoldQ.deliveries, List.mem_map, hmok.frames] at hdel
  obtain ⟨⟨x, i⟩, hx, he⟩ := hdel
  rw [← he]
  exact List.mem_zipIdx_iff_getElem?.mp hx

end Offer

def ipFrame (x : UInt8) : DixFrame where
  bytes := [2, 0, 0, 0, 0, 1, 4, 0, 0, 0, 0, 2, 8, 0] ++ List.replicate 28 x
  hdr := by simp [ethHlen]
  type := by simp [isEthertype, ntohs]

def twoFrames : Mpdu where
  load := .amsdu ([2, 0, 0, 0, 0, 1, 4, 0, 0, 0, 0, 2] ++ [0, 102]) [ipFrame 1, ipFrame 2]
  seqNo := masked 4095 0
  info := (masked 3 0, masked 1 0)
  metaVer := masked 7 0
  info3 := masked 15 0
  bufs := 2

def oneFrame : Mpdu where
  load := .dot11 ⟨true, masked 2 2, List.replicate 6 9, (masked 15 8, masked 63 0), [0, 0], [0, 0],
    [5, 0, 0, 0], rfl, rfl, rfl, rfl⟩ (ipFrame 3)
  seqNo := masked 4095 4095
  info := (masked 3 0, masked 1 0)
  metaVer := masked 7 0
  pad := [0, 0]
  info3 := masked 15 0

end Ath6kl.RxPath
