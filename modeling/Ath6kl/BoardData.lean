import Ath6kl.Lib.Accesses
import Ath6kl.Lib.LittleEndian
import Ath6kl.Lib.Memory
import Ath6kl.Lib.XorSum

/-! The checksum of the board data: the exclusive-or of its 16-bit words is all ones. The driver
replaces the MAC address in the board file (init.c), from a file or from a module parameter, and
the region code in the memory of the target (reg.c). -/
namespace Ath6kl.BoardData
open Lib.Accesses Lib.Memory Lib.XorSum

section Model

def einval : Int := -22
def eopnotsupp : Int := -95

/-- `BDATA_CHECKSUM_OFFSET`, `BDATA_MAC_ADDR_OFFSET`, `ETH_ALEN` and `PREFIX_MAC_LEN`. -/
def bdataChecksumOffset : Nat := 4
def bdataMacAddrOffset : Nat := 8
def ethAlen : Nat := 6
def prefixMacLen : Nat := 3

def hiOptionDisableMacOtp : Nat := 0x40

def le16 (byte : Mem) (pos : Nat) : Nat := (byte pos).toNat+256*(byte (pos+1)).toNat

/-- `p[k]` of a `u16 *p`. -/
def wordAt (byte : Mem) (k : Nat) : Nat := le16 byte (2*k)

/-- A file that was fetched: its length, and the memory from its first byte on. -/
structure File where
  mem : Mem
  len : Nat

/-- The board file, and the flags `hi_option_flag2` of the target. -/
structure Ar where
  fwBoard : Option (List UInt8)
  optionFlag2 : Nat

/-- What a function does: the value it returns, and where it reads the file or writes `macaddr`. -/
structure Replaced where
  ar : Ar
  ret : Int := 0
  log : List Access := []

/-- The checksum is cleared, the MAC address is replaced, and the checksum is computed again. -/
def replaceMac (board : List UInt8) (mac : List UInt8) : List UInt8 :=
  let board := (board.set bdataChecksumOffset 0).set (bdataChecksumOffset+1) 0
  let board := splice board bdataMacAddrOffset mac
  let sum := 2^32-1-xorSum (wordAt (ofList board)) (board.length/2)
  (board.set bdataChecksumOffset (UInt8.ofNat (sum%256))).set (bdataChecksumOffset+1)
    (UInt8.ofNat (sum/256%256))

def defaultMac : List UInt8 := [0x00, 0x03, 0x7f, 0x12, 0x34, 0x56]

/-- `ath6kl_replace_with_softmac_2`. -/
def replaceWithSoftmac2 (ar : Ar) (fwSoftmac2 : Option File) : Replaced :=
  match ar.fwBoard, fwSoftmac2 with
  | some board, some file =>
    let remainMacLen := ethAlen-prefixMacLen
    if file.len < remainMacLen then { ar := ar }
    else
      let pos := file.len-remainMacLen
      let mac := defaultMac.take prefixMacLen ++ slice file.mem pos remainMacLen
      { ar := { ar with fwBoard := some (replaceMac board mac) }, log := [.read pos remainMacLen] }
  | _, _ => { ar := ar }

/-- The target does not take the MAC address from OTP; `bmiRead` is what the read of its flags
returns. -/
def disableMacOtp (bmiRead : Int) (ar : Ar) : Ar :=
  if bmiRead ≠ 0 then ar
  else { ar with optionFlag2 := ar.optionFlag2 ||| hiOptionDisableMacOtp }

/-- `ath6kl_replace_with_softmac`. -/
def replaceWithSoftmac (bmiRead : Int) (ar : Ar) (fwSoftmac : Option File) : Replaced :=
  match ar.fwBoard, fwSoftmac with
  | some board, some file =>
    let mac := slice file.mem 0 ethAlen
    { ar := disableMacOtp bmiRead { ar with fwBoard := some (replaceMac board mac) }
      log := [.read 0 ethAlen] }
  | _, _ => { ar := ar }

def hexDigit (c : UInt8) : Option Nat :=
  if 48 ≤ c ∧ c ≤ 57 then some (c.toNat-48)
  else if 97 ≤ c ∧ c ≤ 102 then some (c.toNat-87)
  else if 65 ≤ c ∧ c ≤ 70 then some (c.toNat-55)
  else none

/-- The digits of a number and what stands after them. -/
def hexDigits : Nat → List UInt8 → Nat × List UInt8
  | value, [] => (value, [])
  | value, c::cs =>
    match hexDigit c with
    | some d => hexDigits (16*value+d) cs
    | none => (value, c::cs)

/-- `kstrtoul` with base 16, of a short string without its null byte: a plus sign and `0x` may
stand before the digits, and a newline after them. -/
def kstrtoul (s : List UInt8) : Option Nat :=
  let s := if s.head? = some 43 then s.tail else s
  let s := match s with
    | 48::x::rest => if x = 120 ∨ x = 88 then rest else s
    | _ => s
  let (value, rest) := hexDigits 0 s
  if rest.length < s.length ∧ (rest = [] ∨ rest = [10]) then some value else none

/-- `temp` at `string + i`, two characters at most. -/
def group (str : List UInt8) (i : Nat) : List UInt8 := (str.drop i).take 2

/-- The loop of `_string_to_mac`: the octets up to a group that is no number, and whether it comes
to the end of the string. -/
def octets (str : List UInt8) : Nat → Nat → List UInt8 × Bool
  | 0, _ => ([], true)
  | fuel+1, i =>
    if i < str.length then
      match kstrtoul (group str i) with
      | none => ([], false)
      | some value =>
        let rest := octets str fuel (i+3)
        (UInt8.ofNat value::rest.1, rest.2)
    else ([], true)

/-- `_string_to_mac`, of a string without its null byte: the octets that it writes, and whether it
succeeds. -/
def stringToMac (str : List UInt8) : List UInt8 × Bool :=
  if str.length < 17 then ([], false) else octets str str.length 0

/-- `macaddr` is an array of `ETH_ALEN` bytes, cleared at first. -/
def macaddrOf (macs : List UInt8) : List UInt8 := slice (ofList macs) 0 ethAlen

/-- `ath6kl_replace_with_module_param`. -/
def replaceWithModuleParam (bmiRead : Int) (ar : Ar) (strMac : Option (List UInt8)) : Replaced :=
  match ar.fwBoard, strMac with
  | some board, some str =>
    let (macs, ok) := stringToMac str
    let log := slots macs.length ethAlen
    if ok = false then { ar := ar, ret := einval, log := log }
    else
      { ar := disableMacOtp bmiRead
          { ar with fwBoard := some (replaceMac board (macaddrOf macs)) }
        ret := bmiRead
        log := log }
  | _, _ => { ar := ar, ret := einval }

/-- `enum` of the target types. -/
inductive TargetType
  | ar6003 | ar6004 | ar6006
deriving DecidableEq

/-- Where the address of the board data stands in a target, for the targets that support it. -/
def boardDataAddr : TargetType → Option UInt32
  | .ar6003 => none
  | .ar6004 => some 0x00400854
  | .ar6006 => some 0x00428854

/-- `NULL_REG_CODE`, `AR6004_BOARD_DATA_OFFSET` and `AR6004_RD_OFFSET`, which are those of AR6006
too, and the size of `buf`. -/
def nullRegCode : Nat := 0xFFFF
def boardDataOffset : Nat := 4
def rdOffset : Nat := 20
def windowSize : Nat := 32

structure RdSet where
  ret : Int
  target : Device
  log : List Access := []

/-- The address in the word that the target has there. -/
def bdAddrOf (t : Device) (addr : UInt32) : UInt32 :=
  UInt32.ofNat (Lib.LittleEndian.value (t.read addr 4))

/-- `ath6kl_reg_set_rdcode`; `bmi` is what the four commands return, of which one that fails has no
effect. -/
def setRdcode (targetType : TargetType) (bmi : Nat → Int) (t : Device) (rdcode : Nat) : RdSet :=
  if rdcode = nullRegCode then { ret := einval, target := t }
  else
    match boardDataAddr targetType with
    | none => { ret := eopnotsupp, target := t }
    | some addr =>
      if bmi 0 ≠ 0 then { ret := bmi 0, target := t }
      else
        let bdAddr := bdAddrOf t addr
        if bmi 1 ≠ 0 then { ret := bmi 1, target := t }
        else
          let buf := ofList (t.read bdAddr windowSize)
          let oSum := le16 buf boardDataOffset
          let oVer := le16 buf (boardDataOffset+2)
          let oRd := le16 buf rdOffset
          let oRdNext := le16 buf (rdOffset+2)
          let log : List Access := [.read boardDataOffset 2, .read (boardDataOffset+2) 2,
            .read rdOffset 2, .read (rdOffset+2) 2]
          let nRd := oRdNext*2^16+rdcode
          if bmi 2 ≠ 0 then { ret := bmi 2, target := t, log := log }
          else
            let t := t.write (bdAddr+UInt32.ofNat rdOffset) (Lib.LittleEndian.bytes 4 nRd)
            let nSum := oVer*2^16+(oSum ^^^ oRd ^^^ rdcode)
            if bmi 3 ≠ 0 then { ret := bmi 3, target := t, log := log }
            else
              let t := t.write (bdAddr+UInt32.ofNat boardDataOffset)
                (Lib.LittleEndian.bytes 4 nSum)
              { ret := 0, target := t, log := log }

end Model

section Words
variable {byte byte' : Mem}

theorem le16_lt (byte : Mem) (pos : Nat) : le16 byte pos < 2^16 := by
  have h1 := (byte pos).toNat_lt
  have h2 := (byte (pos+1)).toNat_lt
  simp only [le16]
  omega

theorem le16_congr {pos : Nat} (h : byte' pos = byte pos) (h' : byte' (pos+1) = byte (pos+1)) :
    le16 byte' pos = le16 byte pos := by
  rw [le16, le16, h, h']

theorem le16_of_bytes {pos n : Nat} (h : byte pos = UInt8.ofNat n)
    (h' : byte (pos+1) = UInt8.ofNat (n/256)) : le16 byte pos = n%2^16 := by
  rw [le16, h, h', UInt8.toNat_ofNat', UInt8.toNat_ofNat']
  omega

/-- The exclusive-or of the first `n` words is all ones. -/
def Balanced (byte : Mem) (n : Nat) : Prop := xorSum (wordAt byte) n = 2^16-1

instance (byte : Mem) (n : Nat) : Decidable (Balanced byte n) :=
  inferInstanceAs (Decidable (_ = _))

end Words

section Replace

/-- The board file has the fields. -/
def HasFields (board : List UInt8) : Prop := bdataMacAddrOffset+ethAlen ≤ board.length

instance (board : List UInt8) : Decidable (HasFields board) :=
  inferInstanceAs (Decidable (_ ≤ _))

/-- A patched board file has its checksum, the MAC address, and is as before elsewhere. -/
structure Patched (board mac board' : List UInt8) : Prop where
  sum : Balanced (ofList board') (board'.length/2)
  length : board'.length = board.length
  mac : ∀ i, i < ethAlen → ofList board' (bdataMacAddrOffset+i) = ofList mac i
  frame : ∀ i, ¬(bdataChecksumOffset ≤ i ∧ i < bdataChecksumOffset+2) →
    ¬(bdataMacAddrOffset ≤ i ∧ i < bdataMacAddrOffset+ethAlen) → board'[i]? = board[i]?

section Fields
variable {board mac : List UInt8} (hb : HasFields board) (hm : mac.length = ethAlen)

/-- The board file with its checksum cleared and the MAC address replaced. -/
def cleared (board mac : List UInt8) : List UInt8 :=
  splice ((board.set bdataChecksumOffset 0).set (bdataChecksumOffset+1) 0) bdataMacAddrOffset mac

include hb hm

theorem mac_fits : bdataMacAddrOffset+mac.length ≤
    ((board.set bdataChecksumOffset 0).set (bdataChecksumOffset+1) 0).length := by
  rw [List.length_set, List.length_set, hm]
  exact hb

theorem length_cleared : (cleared board mac).length = board.length := by
  rw [cleared, length_splice (mac_fits hb hm), List.length_set, List.length_set]

theorem ofList_cleared (i : Nat) : ofList (cleared board mac) i =
    if bdataMacAddrOffset ≤ i ∧ i < bdataMacAddrOffset+ethAlen then
      ofList mac (i-bdataMacAddrOffset)
    else if bdataChecksumOffset ≤ i ∧ i < bdataChecksumOffset+2 then 0 else ofList board i := by
  have h14 : 14 ≤ board.length := hb
  have h4 : bdataChecksumOffset < board.length := by
    simp only [bdataChecksumOffset]
    omega
  have h5 : bdataChecksumOffset+1 < (board.set bdataChecksumOffset 0).length := by
    rw [List.length_set]
    simp only [bdataChecksumOffset]
    omega
  rw [cleared, ofList_splice (mac_fits hb hm), ofList_set h5, ofList_set h4, hm]
  congr 1
  by_cases hi : bdataChecksumOffset ≤ i ∧ i < bdataChecksumOffset+2
  · rw [if_pos hi]
    by_cases h : i = bdataChecksumOffset+1
    · rw [if_pos h]
    · have hlast : i = bdataChecksumOffset := by omega
      rw [if_neg h, if_pos hlast]
  · rw [if_neg hi, if_neg (by omega), if_neg (by omega)]

/-- The checksum as it is computed, complemented in 32 bits. -/
def newSum (board mac : List UInt8) : Nat :=
  2^32-1-xorSum (wordAt (ofList (cleared board mac))) ((cleared board mac).length/2)

theorem ofList_replaceMac (i : Nat) : ofList (replaceMac board mac) i =
    if i = bdataChecksumOffset+1 then UInt8.ofNat (newSum board mac/256%256)
    else if i = bdataChecksumOffset then UInt8.ofNat (newSum board mac%256)
    else ofList (cleared board mac) i := by
  have h14 : 14 ≤ (cleared board mac).length := by
    rw [length_cleared hb hm]
    exact hb
  have h4 : bdataChecksumOffset < (cleared board mac).length := by
    simp only [bdataChecksumOffset]
    omega
  rw [replaceMac, ← cleared, ← newSum, ofList_set, ofList_set h4]
  rw [List.length_set]
  simp only [bdataChecksumOffset]
  omega

theorem length_replaceMac : (replaceMac board mac).length = board.length := by
  rw [replaceMac, ← cleared, List.length_set, List.length_set, length_cleared hb hm]

theorem ofList_replaceMac_of_not {i : Nat}
    (h : ¬(bdataChecksumOffset ≤ i ∧ i < bdataChecksumOffset+2)) :
    ofList (replaceMac board mac) i = ofList (cleared board mac) i := by
  rw [ofList_replaceMac hb hm, if_neg (by omega), if_neg (by omega)]

theorem balanced_replaceMac :
    Balanced (ofList (replaceMac board mac)) ((replaceMac board mac).length/2) := by
  have h14 : 14 ≤ board.length := hb
  have hlt : ∀ k, k < board.length/2 → wordAt (ofList (cleared board mac)) k < 2^16 :=
    fun k _ => le16_lt _ _
  have hsum := xorSum_lt hlt
  have hnew : newSum board mac%2^16 =
      2^16-1-xorSum (wordAt (ofList (cleared board mac))) (board.length/2) := by
    rw [newSum, length_cleared hb hm]
    omega
  have hlow : ofList (replaceMac board mac) 4 = UInt8.ofNat (newSum board mac) := by
    rw [ofList_replaceMac hb hm]
    apply UInt8.toNat_inj.mp
    simp [bdataChecksumOffset]
  have hhigh : ofList (replaceMac board mac) (4+1) = UInt8.ofNat (newSum board mac/256) := by
    rw [ofList_replaceMac hb hm]
    apply UInt8.toNat_inj.mp
    simp [bdataChecksumOffset]
  rw [length_replaceMac hb hm]
  -- the word of the checksum is zero when the sum is taken, and only this word is set then
  apply balanced_complement (i := 2) (by omega) ?_ hlt
  · intro k _ hk
    apply le16_congr
    · apply ofList_replaceMac_of_not hb hm
      simp only [bdataChecksumOffset]
      omega
    · apply ofList_replaceMac_of_not hb hm
      simp only [bdataChecksumOffset]
      omega
  · rw [← hnew]
    exact le16_of_bytes hlow hhigh
  · simp [wordAt, le16, ofList_cleared hb hm, bdataChecksumOffset, bdataMacAddrOffset]

end Fields

theorem replaceMac_patched {board mac : List UInt8} (hb : HasFields board)
    (hm : mac.length = ethAlen) : Patched board mac (replaceMac board mac) := by
  have hlen := length_replaceMac hb hm
  constructor
  · exact balanced_replaceMac hb hm
  · exact hlen
  · intro i hi
    have hfar : ¬(bdataChecksumOffset ≤ bdataMacAddrOffset+i ∧
        bdataMacAddrOffset+i < bdataChecksumOffset+2) := by
      simp only [bdataChecksumOffset, bdataMacAddrOffset]
      omega
    rw [ofList_replaceMac_of_not hb hm hfar, ofList_cleared hb hm, if_pos (by omega)]
    congr 1
    omega
  · intro i h1 h2
    apply getElem?_of_ofList hlen
    rw [ofList_replaceMac_of_not hb hm h1, ofList_cleared hb hm, if_neg h2, if_neg h1]

/-- What is left in the board file when there is a MAC address to put into it, or none. -/
def Keeps (board mac board' : Option (List UInt8)) : Prop :=
  match board, mac with
  | some b, some m => ∃ b', board' = some b' ∧ Patched b m b'
  | _, _ => board' = board

/-- The file of `len` bytes is not left, nor `macaddr`, and the board file keeps its checksum. -/
structure Sound (len : Nat) (ar : Ar) (mac : Option (List UInt8)) (r : Replaced) : Prop where
  accesses : Safe len r.log
  board : Keeps ar.fwBoard mac r.ar.fwBoard

def lenOf (file : Option File) : Nat := (file.map File.len).getD 0

/-- The MAC address of a file with its last three octets, if it has as many. -/
def softmac2Of (file : Option File) : Option (List UInt8) :=
  file.bind fun f =>
    if f.len < ethAlen-prefixMacLen then none
    else some (defaultMac.take prefixMacLen ++
      slice f.mem (f.len-(ethAlen-prefixMacLen)) (ethAlen-prefixMacLen))

def softmacOf (file : Option File) : Option (List UInt8) :=
  file.map fun f => slice f.mem 0 ethAlen

/-- The MAC address that the module parameter is read as. -/
def paramMacOf (strMac : Option (List UInt8)) : Option (List UInt8) :=
  strMac.bind fun str =>
    if (stringToMac str).2 = false then none else some (macaddrOf (stringToMac str).1)

@[simp] theorem disableMacOtp_fwBoard (bmiRead : Int) (ar : Ar) :
    (disableMacOtp bmiRead ar).fwBoard = ar.fwBoard := by
  rw [disableMacOtp]
  split_ifs <;> rfl

section Functions
variable {ar : Ar} (hb : ∀ board, ar.fwBoard = some board → HasFields board)
include hb

theorem softmac2_sound (file : Option File) :
    Sound (lenOf file) ar (softmac2Of file) (replaceWithSoftmac2 ar file) := by
  unfold replaceWithSoftmac2
  cases hbd : ar.fwBoard with
  | none => exact ⟨by simp, by simp [Keeps, hbd]⟩
  | some board =>
    cases file with
    | none => exact ⟨by simp, by simp [Keeps, softmac2Of, hbd]⟩
    | some f =>
      dsimp only
      split_ifs with hlen
      · exact ⟨by simp, by simp [Keeps, softmac2Of, hbd, hlen]⟩
      · constructor
        · simp only [safe_cons, ok_read, safe_nil, and_true, lenOf, Option.map_some,
            Option.getD_some]
          omega
        · simp only [Keeps, hbd, softmac2Of, Option.bind_some, hlen, if_false]
          exact ⟨_, rfl, replaceMac_patched (hb board hbd) (by
            rw [List.length_append, length_slice]
            rfl)⟩

theorem softmac_sound_iff (bmiRead : Int) (file : Option File) :
    Sound (lenOf file) ar (softmacOf file) (replaceWithSoftmac bmiRead ar file) ↔
      ∀ f, ar.fwBoard.isSome → file = some f → ethAlen ≤ f.len := by
  unfold replaceWithSoftmac
  cases hbd : ar.fwBoard with
  | none => exact iff_of_true ⟨by simp, by simp [Keeps, hbd]⟩ (by simp)
  | some board =>
    cases file with
    | none => exact iff_of_true ⟨by simp, by simp [Keeps, softmacOf, hbd]⟩ (by simp)
    | some f =>
      have hp := replaceMac_patched (hb board hbd) (length_slice f.mem 0 ethAlen)
      have hacc : Safe (lenOf (some f)) [.read 0 ethAlen] ↔ ethAlen ≤ f.len := by
        simp [lenOf]
      constructor
      · rintro h g - hg
        rw [← Option.some.inj hg]
        exact hacc.mp h.accesses
      · intro h
        refine ⟨hacc.mpr (h f rfl rfl), ?_⟩
        simp only [Keeps, hbd, softmacOf, Option.map_some, disableMacOtp_fwBoard]
        exact ⟨_, rfl, hp⟩

theorem moduleParam_sound_iff (bmiRead : Int) (strMac : Option (List UInt8)) :
    Sound 0 ar (paramMacOf strMac) (replaceWithModuleParam bmiRead ar strMac) ↔
      ∀ str, ar.fwBoard.isSome → strMac = some str → (stringToMac str).1.length ≤ ethAlen := by
  unfold replaceWithModuleParam
  cases hbd : ar.fwBoard with
  | none => exact iff_of_true ⟨by simp, by simp [Keeps, hbd]⟩ (by simp)
  | some board =>
    cases strMac with
    | none => exact iff_of_true ⟨by simp, by simp [Keeps, paramMacOf, hbd]⟩ (by simp)
    | some str =>
      have hp := replaceMac_patched (hb board hbd)
        (length_slice (ofList (stringToMac str).1) 0 ethAlen)
      have hacc : Safe 0 (slots (stringToMac str).1.length ethAlen) ↔
          (stringToMac str).1.length ≤ ethAlen := safe_slots_iff
      simp only [Option.isSome_some, Option.some.injEq, forall_eq', true_imp_iff, ← hacc]
      split_ifs with hok
      · constructor
        · exact fun h => h.accesses
        · exact fun h => ⟨h, by simp [Keeps, paramMacOf, hbd, hok]⟩
      · constructor
        · exact fun h => h.accesses
        · intro h
          refine ⟨h, ?_⟩
          simp only [Keeps, hbd, paramMacOf, Option.bind_some, hok,
            disableMacOtp_fwBoard]
          exact ⟨_, rfl, hp⟩

end Functions

theorem lt_octets_iff (str : List UInt8) (fuel n i : Nat) (hf : n < fuel) :
    n < (octets str fuel i).1.length ↔
      ∀ j, j ≤ n → i+3*j < str.length ∧ (kstrtoul (group str (i+3*j))).isSome = true := by
  induction fuel generalizing i n with
  | zero => omega
  | succ fuel ih =>
    rw [octets]
    by_cases hi : i < str.length
    · cases hk : kstrtoul (group str i) with
      | none =>
        simp only [hi, if_true, List.length_nil, Nat.not_lt_zero, false_iff, not_forall]
        exact ⟨0, Nat.zero_le n, by simp [hk]⟩
      | some value =>
        simp only [hi, if_true, List.length_cons]
        cases n with
        | zero => simp [hi, hk]
        | succ n =>
          rw [Nat.succ_lt_succ_iff, ih n (i+3) (by omega)]
          constructor
          · intro h j hj
            cases j with
            | zero => simp [hi, hk]
            | succ j =>
              have hnext := h j (by omega)
              rw [show i+3+3*j = i+3*(j+1) by omega] at hnext
              exact hnext
          · intro h j hj
            have hnext := h (j+1) (by omega)
            rw [show i+3*(j+1) = i+3+3*j by omega] at hnext
            exact hnext
    · simp only [hi, if_false, List.length_nil, Nat.not_lt_zero, false_iff, not_forall]
      exact ⟨0, Nat.zero_le n, by simp [hi]⟩

/-- The string has a seventh group, and the first seven are numbers. -/
def SevenGroups (str : List UInt8) : Prop :=
  ∀ j, j ≤ ethAlen → 3*j < str.length ∧ (kstrtoul (group str (3*j))).isSome = true

theorem stringToMac_fits_iff (str : List UInt8) :
    (stringToMac str).1.length ≤ ethAlen ↔ ¬SevenGroups str := by
  rw [stringToMac, SevenGroups]
  by_cases hlen : str.length < 17
  · simp only [hlen, if_true, List.length_nil, Nat.zero_le, true_iff]
    intro h
    have h6 := (h ethAlen (Nat.le_refl _)).1
    simp only [ethAlen] at h6
    omega
  · have hlt := lt_octets_iff str str.length ethAlen 0 (by
      simp only [ethAlen]
      omega)
    simp only [Nat.zero_add] at hlt
    rw [if_neg hlen, ← hlt, Nat.not_lt]

end Replace

section RegionCode

/-- The board data in the memory of a target. -/
def boardAt (t : Device) (bdAddr : UInt32) : Mem := fun i => t (bdAddr+UInt32.ofNat i)

/-- The offset of a place in the board data. -/
def offsetOf (bdAddr a : UInt32) : Nat := (a-bdAddr).toNat

/-- The board data keeps its checksum, and only the checksum and the region code change. -/
structure RdKept (bdAddr : UInt32) (n : Nat) (t t' : Device) : Prop where
  sum : Balanced (boardAt t bdAddr) n → Balanced (boardAt t' bdAddr) n
  frame : ∀ a, ¬(boardDataOffset ≤ offsetOf bdAddr a ∧ offsetOf bdAddr a < boardDataOffset+2) →
    ¬(rdOffset ≤ offsetOf bdAddr a ∧ offsetOf bdAddr a < rdOffset+2) → t' a = t a

section Update
variable {t : Device} {bdAddr : UInt32} {rdcode : Nat}

theorem le16_window {pos : Nat} (h : pos+1 < windowSize) :
    le16 (ofList (t.read bdAddr windowSize)) pos = le16 (boardAt t bdAddr) pos := by
  apply le16_congr
  · rw [ofList, read_getElem?, if_pos (by omega)]
    rfl
  · rw [ofList, read_getElem?, if_pos h]
    rfl

theorem ofNat_le16 (byte : Mem) (pos : Nat) :
    UInt8.ofNat (le16 byte pos) = byte pos ∧ UInt8.ofNat (le16 byte pos/256) = byte (pos+1) := by
  have h1 := (byte pos).toNat_lt
  have h2 := (byte (pos+1)).toNat_lt
  constructor
  · apply UInt8.toNat_inj.mp
    rw [UInt8.toNat_ofNat', le16]
    omega
  · apply UInt8.toNat_inj.mp
    rw [UInt8.toNat_ofNat', le16]
    omega

/-- The target with one word of the board data replaced, and the word after it written back. -/
def withWord (t : Device) (bdAddr : UInt32) (off next v : Nat) : Device :=
  t.write (bdAddr+UInt32.ofNat off) (Lib.LittleEndian.bytes 4 (next*2^16+v))

theorem boardAt_withWord {off next v : Nat} (ho : off+4 < 2^32) (hv : v < 2^16)
    (hnext : next = le16 (boardAt t bdAddr) (off+2)) {i : Nat} (hi : i < 2^32) :
    boardAt (withWord t bdAddr off next v) bdAddr i =
      if i = off then UInt8.ofNat v else if i = off+1 then UInt8.ofNat (v/256)
      else boardAt t bdAddr i := by
  have hlen : (Lib.LittleEndian.bytes 4 (next*2^16+v)).length = 4 := rfl
  have hback := ofNat_le16 (boardAt t bdAddr) (off+2)
  rw [← hnext] at hback
  rw [boardAt, withWord, write_at hi (by omega) (by omega), hlen]
  by_cases hin : off ≤ i ∧ i < off+4
  · rw [if_pos hin]
    obtain ⟨d, hd⟩ : ∃ d, i = off+d := ⟨i-off, by omega⟩
    have hd4 : d < 4 := by omega
    subst hd
    rw [Nat.add_sub_cancel_left]
    simp only [ofList, Lib.LittleEndian.bytes]
    obtain rfl | rfl | rfl | rfl : d = 0 ∨ d = 1 ∨ d = 2 ∨ d = 3 := by omega
    · apply UInt8.toNat_inj.mp
      simp
    · apply UInt8.toNat_inj.mp
      simp
      omega
    · have hq : (next*65536+v)/256/256 = next := by omega
      simp [hq, hback.1]
    · have hq : (next*65536+v)/256/256/256 = next/256 := by omega
      simp [hq, hback.2]
  · rw [if_neg hin, if_neg (by omega), if_neg (by omega)]
    rfl

theorem boardAt_offset (a : UInt32) : boardAt t bdAddr (offsetOf bdAddr a) = t a := by
  rw [boardAt, offsetOf, UInt32.ofNat_toNat]
  congr 1
  rw [UInt32.add_comm, UInt32.sub_add_cancel]

theorem offsetOf_lt (bdAddr a : UInt32) : offsetOf bdAddr a < 2^32 := (a-bdAddr).toNat_lt

end Update

section Sums
variable {t : Device} {bdAddr : UInt32} {rdcode n : Nat}

theorem le16_withWord {off next v : Nat} (ho : off+4 < 2^32) (hv : v < 2^16)
    (hnext : next = le16 (boardAt t bdAddr) (off+2)) :
    le16 (boardAt (withWord t bdAddr off next v) bdAddr) off = v := by
  have hword : le16 (boardAt (withWord t bdAddr off next v) bdAddr) off = v%2^16 := by
    apply le16_of_bytes
    · rw [boardAt_withWord ho hv hnext (by omega), if_pos rfl]
    · rw [boardAt_withWord ho hv hnext (by omega), if_neg (by omega), if_pos rfl]
  rw [hword, Nat.mod_eq_of_lt hv]

theorem le16_withWord_of_ne {off next v pos : Nat} (ho : off+4 < 2^32) (hv : v < 2^16)
    (hnext : next = le16 (boardAt t bdAddr) (off+2)) (hpos : pos+1 < 2^32)
    (h : pos+1 < off ∨ off+1 < pos) :
    le16 (boardAt (withWord t bdAddr off next v) bdAddr) pos = le16 (boardAt t bdAddr) pos := by
  apply le16_congr
  · rw [boardAt_withWord ho hv hnext (by omega), if_neg (by omega), if_neg (by omega)]
  · rw [boardAt_withWord ho hv hnext hpos, if_neg (by omega), if_neg (by omega)]

theorem rdKept_withWords (h11 : 11 ≤ n) (hn : 2*n ≤ 2^32) (hr : rdcode < 2^16) :
    let oSum := le16 (boardAt t bdAddr) boardDataOffset
    let oVer := le16 (boardAt t bdAddr) (boardDataOffset+2)
    let oRd := le16 (boardAt t bdAddr) rdOffset
    let oRdNext := le16 (boardAt t bdAddr) (rdOffset+2)
    let t' := withWord (withWord t bdAddr rdOffset oRdNext rdcode) bdAddr boardDataOffset oVer
      (oSum ^^^ oRd ^^^ rdcode)
    RdKept bdAddr n t t' ∧ le16 (boardAt t' bdAddr) rdOffset = rdcode := by
  dsimp only
  have hord : rdOffset+4 < 2^32 := by decide
  have hosum : boardDataOffset+4 < 2^32 := by decide
  have hv : le16 (boardAt t bdAddr) boardDataOffset ^^^ le16 (boardAt t bdAddr) rdOffset ^^^
      rdcode < 2^16 :=
    Nat.xor_lt_two_pow (Nat.xor_lt_two_pow (le16_lt _ _) (le16_lt _ _)) hr
  have hver : le16 (boardAt t bdAddr) (boardDataOffset+2) =
      le16 (boardAt (withWord t bdAddr rdOffset (le16 (boardAt t bdAddr) (rdOffset+2)) rdcode)
        bdAddr) (boardDataOffset+2) :=
    (le16_withWord_of_ne hord hr rfl (by decide) (by decide)).symm
  generalize ht1 : withWord t bdAddr rdOffset (le16 (boardAt t bdAddr) (rdOffset+2)) rdcode = t1
    at hver
  have hrd1 : le16 (boardAt t1 bdAddr) rdOffset = rdcode := by
    rw [← ht1]
    exact le16_withWord hord hr rfl
  refine ⟨⟨?_, ?_⟩, ?_⟩
  · intro hsum
    rw [Balanced, ← hsum]
    apply xorSum_update (i := 2) (j := 10) (by omega) (by omega) (by decide)
    · intro k hk h2 h10
      simp only [wordAt]
      rw [le16_withWord_of_ne hosum hv hver (by omega) (by simp only [boardDataOffset]; omega),
        ← ht1]
      exact le16_withWord_of_ne hord hr rfl (by omega) (by simp only [rdOffset]; omega)
    · have h2 := le16_withWord hosum hv hver
      have h10 := @le16_withWord_of_ne t1 bdAddr _ _ _ rdOffset hosum hv hver (by decide) (by decide)
      rw [hrd1] at h10
      exact h2.trans (congrArg _ h10.symm)
  · intro a h4 h20
    have ha := offsetOf_lt bdAddr a
    rw [← boardAt_offset (t := withWord t1 _ _ _ _) a, boardAt_withWord hosum hv hver ha,
      if_neg (by omega), if_neg (by omega), ← ht1, boardAt_withWord hord hr rfl ha,
      if_neg (by omega), if_neg (by omega), boardAt_offset]
  · rw [le16_withWord_of_ne hosum hv hver (by decide) (by decide), hrd1]

end Sums

/-- The window is not left; when no command fails the board data keep their checksum, and have
the region code if it was set. -/
structure RdSound (targetType : TargetType) (bmi : Nat → Int) (t : Device) (rdcode : UInt16)
    (r : RdSet) : Prop where
  accesses : Safe windowSize r.log
  unsupported : boardDataAddr targetType = none → r.target = t
  kept : (∀ i, bmi i = 0) → ∀ addr, boardDataAddr targetType = some addr →
    ∀ n, 11 ≤ n → 2*n ≤ 2^32 → RdKept (bdAddrOf t addr) n t r.target
  code : (∀ i, bmi i = 0) → ∀ addr, boardDataAddr targetType = some addr →
    rdcode.toNat ≠ nullRegCode →
      r.ret = 0 ∧ le16 (boardAt r.target (bdAddrOf t addr)) rdOffset = rdcode.toNat

theorem RdKept.refl (bdAddr : UInt32) (n : Nat) (t : Device) : RdKept bdAddr n t t :=
  ⟨fun h => h, fun _ _ _ => rfl⟩

theorem setRdcode_eq {targetType : TargetType} {bmi : Nat → Int} {t : Device} {rdcode : Nat}
    {addr : UInt32} (hbmi : ∀ i, bmi i = 0) (haddr : boardDataAddr targetType = some addr)
    (hne : rdcode ≠ nullRegCode) :
    (setRdcode targetType bmi t rdcode).ret = 0 ∧
      (setRdcode targetType bmi t rdcode).target =
        let bd := bdAddrOf t addr
        withWord (withWord t bd rdOffset (le16 (boardAt t bd) (rdOffset+2)) rdcode) bd
          boardDataOffset (le16 (boardAt t bd) (boardDataOffset+2))
          (le16 (boardAt t bd) boardDataOffset ^^^ le16 (boardAt t bd) rdOffset ^^^ rdcode) := by
  rw [setRdcode, if_neg hne, haddr]
  simp only [hbmi, ne_eq, not_true_eq_false, if_false]
  rw [le16_window (by decide), le16_window (by decide), le16_window (by decide),
    le16_window (by decide)]
  exact ⟨trivial, rfl⟩

theorem setRdcode_accesses (targetType : TargetType) (bmi : Nat → Int) (t : Device)
    (rdcode : Nat) : Safe windowSize (setRdcode targetType bmi t rdcode).log := by
  have hlog : Safe windowSize [.read boardDataOffset 2, .read (boardDataOffset+2) 2,
      .read rdOffset 2, .read (rdOffset+2) 2] := by decide
  rw [setRdcode]
  by_cases hnull : rdcode = nullRegCode
  · simp [hnull]
  · rw [if_neg hnull]
    cases boardDataAddr targetType with
    | none => simp
    | some addr =>
      dsimp only
      split_ifs <;> first | exact hlog | simp

theorem setRdcode_sound (targetType : TargetType) (bmi : Nat → Int) (t : Device)
    (rdcode : UInt16) :
    RdSound targetType bmi t rdcode (setRdcode targetType bmi t rdcode.toNat) := by
  have hr := rdcode.toNat_lt
  constructor
  · exact setRdcode_accesses targetType bmi t rdcode.toNat
  · intro hnone
    rw [setRdcode, hnone]
    split_ifs <;> rfl
  · intro hbmi addr haddr n h11 hn
    by_cases hnull : rdcode.toNat = nullRegCode
    · rw [setRdcode, if_pos hnull]
      exact RdKept.refl _ n t
    · rw [(setRdcode_eq hbmi haddr hnull).2]
      exact (rdKept_withWords h11 hn hr).1
  · intro hbmi addr haddr hne
    obtain ⟨hret, htarget⟩ := setRdcode_eq (t := t) hbmi haddr hne
    rw [htarget]
    exact ⟨hret, (rdKept_withWords (n := 11) (by omega) (by omega) hr).2⟩

end RegionCode

section Checksum

/-- The board data keep their checksum on every path, and nothing outside is touched, exactly when
a softmac file that is put into them has six bytes and a module parameter no seventh group. -/
theorem board_checksum_iff (ar : Ar) (hb : ∀ board, ar.fwBoard = some board → HasFields board) :
    (∀ file, Sound (lenOf file) ar (softmac2Of file) (replaceWithSoftmac2 ar file)) ∧
      (∀ bmiRead file, Sound (lenOf file) ar (softmacOf file)
          (replaceWithSoftmac bmiRead ar file) ↔
        ∀ f, ar.fwBoard.isSome → file = some f → ethAlen ≤ f.len) ∧
      (∀ bmiRead strMac, Sound 0 ar (paramMacOf strMac)
          (replaceWithModuleParam bmiRead ar strMac) ↔
        ∀ str, ar.fwBoard.isSome → strMac = some str → ¬SevenGroups str) ∧
      ∀ targetType bmi t (rdcode : UInt16),
        RdSound targetType bmi t rdcode (setRdcode targetType bmi t rdcode.toNat) := by
  refine ⟨softmac2_sound hb, softmac_sound_iff hb, ?_, setRdcode_sound⟩
  intro bmiRead strMac
  rw [moduleParam_sound_iff hb]
  simp only [stringToMac_fits_iff]

def zeroBoard : Ar := ⟨some (List.replicate 16 0), 0⟩

theorem board_checksum_zero :
    (∀ file, Sound (lenOf file) zeroBoard (softmac2Of file)
        (replaceWithSoftmac2 zeroBoard file)) ∧
      (∀ bmiRead file, Sound (lenOf file) zeroBoard (softmacOf file)
          (replaceWithSoftmac bmiRead zeroBoard file) ↔
        ∀ f, zeroBoard.fwBoard.isSome → file = some f → ethAlen ≤ f.len) ∧
      (∀ bmiRead strMac, Sound 0 zeroBoard (paramMacOf strMac)
          (replaceWithModuleParam bmiRead zeroBoard strMac) ↔
        ∀ str, zeroBoard.fwBoard.isSome → strMac = some str → ¬SevenGroups str) ∧
      ∀ targetType bmi t (rdcode : UInt16),
        RdSound targetType bmi t rdcode (setRdcode targetType bmi t rdcode.toNat) :=
  board_checksum_iff zeroBoard (by
    intro board hboard
    cases hboard
    decide)

/-- A softmac file of two bytes is read past its end. -/
theorem short_softmac_overrun : HasFields (List.replicate 16 0) ∧
    ¬Sound 2 zeroBoard (softmacOf (some ⟨ofList [1, 2], 2⟩))
      (replaceWithSoftmac 0 zeroBoard (some ⟨ofList [1, 2], 2⟩)) := by
  refine ⟨by decide, fun h => ?_⟩
  exact absurd h.accesses (by decide)

end Checksum

end Ath6kl.BoardData
