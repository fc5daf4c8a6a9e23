import Mathlib.Data.List.Basic
import Mathlib.Data.List.GetD

/-! Ethernet framing of the data path: DIX and 802.3/LLC-SNAP headers, socket
buffers, and the slicing of a received A-MSDU (`txrx.c`, `wmi.c`). -/
namespace Ath6kl.EthFrame

abbrev Bytes := List UInt8

/-- `sizeof(struct ethhdr)`. -/
def ethHlen : Nat := 14
/-- `sizeof(struct ath6kl_llc_snap_hdr)`. -/
def llcSnapHdrLen : Nat := 8
/-- `sizeof(struct wmi_data_hdr)`. -/
def wmiDataHdrLen : Nat := 6

def minMsduSubframePayloadLen : Nat := 36
def maxMsduSubframePayloadLen : Nat := 1508

def u16 (x : Int) : Nat := (x % 65536).toNat

def ntohs (hi lo : UInt8) : Nat := hi.toNat*256 + lo.toNat

def htons (n : Nat) : Bytes := [UInt8.ofNat (n/256), UInt8.ofNat n]

/-- `ALIGN(x, 4)` and `roundup(x, 4)`. -/
def align4 (n : Nat) : Nat := (n+3)/4*4

theorem align4_ge (n : Nat) : n ≤ align4 n := by
  unfold align4
  omega

/-- `is_ethertype`: the type/length field holds a type. -/
def isEthertype (typeOrLen : Nat) : Bool := 0x0600 ≤ typeOrLen

/-- A socket buffer: the `len` bytes at `skb->data`, and what the buffer happens
to hold at and beyond `skb->data + len`. -/
structure Skb where
  data : Bytes
  beyond : Nat → UInt8 := fun _ => 0

def Skb.byte (s : Skb) (i : Nat) : UInt8 := s.data.getD i (s.beyond i)

/-- The bytes a `memcpy` of length `n` from offset `off` finds. -/
def Skb.copy (s : Skb) (off n : Nat) : Bytes := (List.range n).map fun k => s.byte (off+k)

theorem Skb.byte_eq {s : Skb} {i : Nat} (h : i < s.data.length) : s.byte i = s.data[i] :=
  List.getD_eq_getElem _ _ h

theorem Skb.byte_of_lt {d : Bytes} {f g : Nat → UInt8} {i : Nat} (h : i < d.length) :
    Skb.byte ⟨d, f⟩ i = Skb.byte ⟨d, g⟩ i := by
  rw [Skb.byte_eq h, Skb.byte_eq h]

theorem Skb.byte_prefix {d r : Bytes} {f g : Nat → UInt8} {i : Nat} (h : i < d.length) :
    Skb.byte ⟨d ++ r, f⟩ i = Skb.byte ⟨d, g⟩ i := by
  have hr : i < (d ++ r).length := by
    rw [List.length_append]
    omega
  rw [Skb.byte_eq (s := ⟨d, g⟩) h, Skb.byte_eq (s := ⟨d ++ r, f⟩) hr]
  exact List.getElem_append_left h

theorem Skb.copy_of_le {d : Bytes} {f g : Nat → UInt8} {off n : Nat} (h : off + n ≤ d.length) :
    Skb.copy ⟨d, f⟩ off n = Skb.copy ⟨d, g⟩ off n := by
  refine List.map_congr_left fun k hk => Skb.byte_of_lt ?_
  have hlt := List.mem_range.mp hk
  omega

theorem Skb.copy_prefix {d r : Bytes} {f g : Nat → UInt8} {off n : Nat}
    (h : off + n ≤ d.length) : Skb.copy ⟨d ++ r, f⟩ off n = Skb.copy ⟨d, g⟩ off n := by
  refine List.map_congr_left fun k hk => Skb.byte_prefix ?_
  have hlt := List.mem_range.mp hk
  omega

theorem Skb.copy_eq {s : Skb} {off n : Nat} (h : off + n ≤ s.data.length) :
    s.copy off n = (s.data.drop off).take n := by
  refine List.ext_getElem ?_ fun k hk _ => ?_
  · simp only [Skb.copy, List.length_map, List.length_range, List.length_take, List.length_drop]
    omega
  · have hlt : k < n := by simpa [Skb.copy] using hk
    have hb : off + k < s.data.length := by omega
    simp only [Skb.copy, List.getElem_map, List.getElem_range, List.getElem_take,
      List.getElem_drop, Skb.byte_eq hb]

/-- `ath6kl_wmi_dix_2_dot3`: a DIX header becomes an 802.3 length and LLC/SNAP. -/
def dix2Dot3 (skb : Bytes) : Bytes :=
  let type := (skb.drop 12).take 2
  if isEthertype (ntohs (type.getD 0 0) (type.getD 1 0)) then
    let newLen := skb.length - ethHlen + llcSnapHdrLen
    skb.take 12 ++ htons newLen ++ [0xAA, 0xAA, 0x03, 0, 0, 0] ++ type ++ skb.drop ethHlen
  else skb

/-- `ath6kl_wmi_dot3_2_dix`: the LLC type moves into the Ethernet header and the
LLC/SNAP header is pulled. -/
def dot32Dix (skb : Bytes) : Bytes :=
  skb.take 12 ++ (skb.drop 20).take 2 ++ skb.drop 22

/-- The loop of `aggr_slice_amsdu` from offset `framep` with `amsduLen` bytes left.
It recurses on the buffers `aggr_get_free_skb` can still supply: every turn that
does not leave the loop takes one. -/
def sliceLoop (skb : Skb) : Nat → Nat → Nat → List Bytes
  | bufs, framep, amsduLen =>
    if amsduLen > ethHlen then
      let payload8023Len := ntohs (skb.byte (framep+12)) (skb.byte (framep+13))
      if payload8023Len < minMsduSubframePayloadLen ∨
          payload8023Len > maxMsduSubframePayloadLen then []
      else
        let frame8023Len := payload8023Len + ethHlen
        match bufs with
        | 0 => []
        | bufs+1 =>
          dot32Dix (skb.copy framep frame8023Len) ::
            -- the last subframe carries no padding
            if amsduLen = frame8023Len then []
            else sliceLoop skb bufs (framep + align4 frame8023Len)
              (u16 ((amsduLen:Int) - align4 frame8023Len))
    else []

/-- `aggr_slice_amsdu`: what it puts on `rxtid->q` when `bufs` buffers are free. -/
def aggrSliceAmsdu (bufs : Nat) (skb : Skb) : List Bytes :=
  sliceLoop skb bufs ethHlen (u16 ((skb.data.length:Int) - ethHlen))

end Ath6kl.EthFrame
