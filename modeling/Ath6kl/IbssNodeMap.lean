import Ath6kl.DataTx
import Mathlib.Data.List.Perm.Basic

/-! The table of IBSS destinations (`node_map`). `ath6kl_ibss_map_epid` gives a frame its
endpoint and counts it, `ath6kl_tx_clear_node_map` counts it back when the frame completes. -/
namespace Ath6kl.IbssNodeMap
open EthFrame AmsduTx DataTx Lib.Machine

def zeroNode : NodeMapping := ⟨List.replicate 6 0, 0, 0⟩

/-- The loop of `ath6kl_tx_clear_node_map`, with `node_num` as its counter: entries at the end
of the table that no frame uses are given up. -/
def trimNodeMap (nodeMap : Nat → NodeMapping) : Nat → (Nat → NodeMapping) × Nat
  | 0 => (nodeMap, 0)
  | i+1 =>
    if (nodeMap i).txPend ≠ 0 then (nodeMap, i+1)
    else trimNodeMap (Function.update nodeMap i zeroNode) i

/-- `ath6kl_tx_clear_node_map`. -/
def txClearNodeMap (ar : Ar) (nwType : NwType) (ctrlEp eid : Int) (mapNo : Nat) : Ar :=
  if nwType ≠ .adhoc then ar
  else if !ar.ibssPsEnable then ar
  else if eid = ctrlEp then ar
  else match mapNo with
    | 0 => ar
    | n+1 =>
      let node := ar.nodeMap n
      let ar := ar.setNode n { node with txPend := (node.txPend + 255) % 256 }
      if (ar.nodeMap n).txPend ≠ 0 then ar
      else if n+1 ≠ ar.nodeNum then ar
      else
        let r := trimNodeMap ar.nodeMap ar.nodeNum
        { ar with nodeMap := r.1, nodeNum := r.2 }

/-- A frame on its way, with what its cookie keeps of the mapping. -/
structure Mapped where
  dest : Bytes
  epId : Int
  mapNo : Nat
deriving DecidableEq

structure State where
  ar : Ar := { nodeMap := fun _ => zeroNode }
  inFlight : List Mapped := []

/-- A call of `ath6kl_ibss_map_epid`, which finds `txPending` in the endpoints, or the completion
of the `k`-th frame in flight. -/
inductive Event
  | mapEpid (dest : Bytes) (txPending : Int → Nat)
  | txDone (k : Nat) (nwType : NwType) (ibssPsEnable : Bool) (ctrlEp : Int)

def step (s : State) : Event → State
  | .mapEpid dest txPending =>
    let r := ibssMapEpid { s.ar with txPending := txPending } dest
    ⟨r.1, s.inFlight ++ [⟨dest, r.2.1, r.2.2⟩]⟩
  | .txDone k nwType ibssPsEnable ctrlEp =>
    match s.inFlight[k]? with
    | none => s
    | some f =>
      ⟨txClearNodeMap { s.ar with ibssPsEnable := ibssPsEnable } nwType ctrlEp f.epId f.mapNo,
        s.inFlight.eraseIdx k⟩

/-- The entry for `dest`, as `memcmp` finds it. -/
def known (ar : Ar) (dest : Bytes) : Option Nat :=
  (List.range ar.nodeNum).find? fun i => (ar.nodeMap i).macAddr = dest

def idle (ar : Ar) : Option Nat := (List.range ar.nodeNum).find? fun i => (ar.nodeMap i).txPend = 0

/-- A unicast address that is not in the table, and no entry to give to it. -/
def Full (ar : Ar) (dest : Bytes) : Prop :=
  isMulticastEtherAddr (dest.getD 0 0) = false ∧ known ar dest = none ∧ idle ar = none ∧
    maxNodeNum < (ar.nodeNum + 1) % 256

/-- The entry of a `map_no`. -/
def slot : Nat → List Nat
  | 0 => []
  | n+1 => [n]

/-- The table after `tx_pend--` for the entry of a `map_no`. -/
def lessPend (ar : Ar) : Nat → Nat → NodeMapping
  | 0 => ar.nodeMap
  | n+1 => (ar.setNode n { ar.nodeMap n with txPend := ((ar.nodeMap n).txPend + 255) % 256 }).nodeMap

/-- The entries that the loop of `ath6kl_tx_clear_node_map` looks at. -/
def trimAccesses (nodeMap : Nat → NodeMapping) : Nat → List Nat
  | 0 => []
  | i+1 => i :: if (nodeMap i).txPend ≠ 0 then [] else trimAccesses nodeMap i

/-- The indexes into `node_map` that a call uses. -/
def accesses (s : State) : Event → List Nat
  | .mapEpid dest txPending =>
    if isMulticastEtherAddr (dest.getD 0 0) then []
    else match known s.ar dest with
      | some i => List.range (i+1)
      | none => List.range s.ar.nodeNum ++
          slot (ibssMapEpid { s.ar with txPending := txPending } dest).2.2
  | .txDone k nwType ibssPsEnable ctrlEp =>
    match s.inFlight[k]? with
    | none => []
    | some f =>
      if nwType ≠ .adhoc ∨ !ibssPsEnable ∨ f.epId = ctrlEp then []
      else slot f.mapNo ++
        if f.mapNo = s.ar.nodeNum then trimAccesses (lessPend s.ar f.mapNo) s.ar.nodeNum else []

def pending (fs : List Mapped) (i : Nat) : Nat := fs.countP fun f => f.mapNo = i+1

/-- What the table is for, in a state and at the next call. -/
structure Consistent (s : State) : Prop where
  nodeNum : s.ar.nodeNum ≤ maxNodeNum
  inside : ∀ e, ∀ i∈accesses s e, i < maxNodeNum
  distinct : ∀ i < maxNodeNum, ∀ j < maxNodeNum,
    0 < (s.ar.nodeMap i).txPend → 0 < (s.ar.nodeMap j).txPend →
    (s.ar.nodeMap i).macAddr = (s.ar.nodeMap j).macAddr → i = j
  counted : ∀ i < maxNodeNum, (s.ar.nodeMap i).txPend = pending s.inFlight i
  sameEp : ∀ f∈s.inFlight, ∀ g∈s.inFlight, f.dest = g.dest → f.epId = g.epId

/-- The call leaves the table right: there is an entry for the frame, whose counter has room,
and the completion of a mapped frame reaches the counter. -/
def Meets (s : State) : Event → Prop
  | .mapEpid dest _ => ¬Full s.ar dest ∧
      (isMulticastEtherAddr (dest.getD 0 0) = false →
        ∀ i, known s.ar dest = some i → (s.ar.nodeMap i).txPend < 255)
  | .txDone k nwType ibssPsEnable ctrlEp =>
    ∀ f, s.inFlight[k]? = some f → f.mapNo ≠ 0 →
      nwType = .adhoc ∧ ibssPsEnable = true ∧ f.epId ≠ ctrlEp

/-- A frame for a new address gets the entry `n`. -/
def enter (ar : Ar) (n : Nat) (dest : Bytes) : Ar × Int × Nat :=
  let r := ar.freshEpId
  (r.1.setNode n ⟨dest, r.2, ((r.1.nodeMap n).txPend + 1) % 256⟩, r.2, n+1)

/-- What `ath6kl_ibss_map_epid` can do. -/
inductive MapSpec (ar : Ar) (dest : Bytes) : Ar × Int × Nat → Prop
  | group (hm : isMulticastEtherAddr (dest.getD 0 0) = true) : MapSpec ar dest (ar, 2, 0)
  | again {i : Nat} (hm : isMulticastEtherAddr (dest.getD 0 0) = false)
      (hk : known ar dest = some i) :
      MapSpec ar dest
        (ar.setNode i { ar.nodeMap i with txPend := ((ar.nodeMap i).txPend + 1) % 256 },
          (ar.nodeMap i).epId, i+1)
  | reuse {i : Nat} (hm : isMulticastEtherAddr (dest.getD 0 0) = false)
      (hk : known ar dest = none) (hi : idle ar = some i) : MapSpec ar dest (enter ar i dest)
  | grow (hm : isMulticastEtherAddr (dest.getD 0 0) = false) (hk : known ar dest = none)
      (hi : idle ar = none) (hn : (ar.nodeNum + 1) % 256 ≤ maxNodeNum) :
      MapSpec ar dest (enter { ar with nodeNum := (ar.nodeNum + 1) % 256 } ar.nodeNum dest)
  | full (h : Full ar dest) :
      MapSpec ar dest ({ ar with nodeNum := (ar.nodeNum + 1) % 256 }, 255, 0)

theorem ibssMapEpid_spec (ar : Ar) (dest : Bytes) : MapSpec ar dest (ibssMapEpid ar dest) := by
  unfold ibssMapEpid
  cases hm : isMulticastEtherAddr (dest.getD 0 0) with
  | true => exact .group hm
  | false =>
    simp only [Bool.false_eq_true, ↓reduceIte]
    cases hk : known ar dest with
    | some i =>
      have h := hk
      unfold known at h
      rw [h]
      exact .again hm hk
    | none =>
      have h := hk
      unfold known at h
      rw [h]
      cases hi : idle ar with
      | some i =>
        have g := hi
        unfold idle at g
        simp only [g, reduceCtorEq, ↓reduceIte, false_and]
        exact .reuse hm hk hi
      | none =>
        have g := hi
        unfold idle at g
        simp only [g, ↓reduceIte, true_and]
        by_cases hn : (ar.nodeNum + 1) % 256 > maxNodeNum
        · rw [if_pos hn]
          exact .full ⟨hm, hk, hi, hn⟩
        · rw [if_neg hn]
          exact .grow hm hk hi (Nat.not_lt.mp hn)

section
variable {ar : Ar} {dest : Bytes} {i n : Nat}

theorem known_some (h : known ar dest = some i) :
    i < ar.nodeNum ∧ (ar.nodeMap i).macAddr = dest := by
  have hp := List.find?_some h
  exact ⟨List.mem_range.mp (List.mem_of_find?_eq_some h), by simpa using hp⟩

theorem known_none : known ar dest = none ↔ ∀ i < ar.nodeNum, (ar.nodeMap i).macAddr ≠ dest := by
  simp [known]

theorem idle_some (h : idle ar = some i) : i < ar.nodeNum ∧ (ar.nodeMap i).txPend = 0 := by
  have hp := List.find?_some h
  exact ⟨List.mem_range.mp (List.mem_of_find?_eq_some h), by simpa using hp⟩

/-- Choosing an endpoint moves `next_ep_id` and nothing else. -/
theorem freshEpId_fst (ar : Ar) : ∃ ep, ar.freshEpId.1 = { ar with nextEpId := ep } := by
  unfold Ar.freshEpId
  split
  · exact ⟨ar.nextEpId, rfl⟩
  · exact ⟨_, rfl⟩

theorem enter_nodeNum : (enter ar n dest).1.nodeNum = ar.nodeNum := by
  obtain ⟨ep, hep⟩ := freshEpId_fst ar
  simp [enter, Ar.setNode, hep]

theorem enter_nodeMap : (enter ar n dest).1.nodeMap =
    Function.update ar.nodeMap n
      ⟨dest, (enter ar n dest).2.1, ((ar.nodeMap n).txPend + 1) % 256⟩ := by
  obtain ⟨ep, hep⟩ := freshEpId_fst ar
  simp [enter, Ar.setNode, hep]

end

/-- The table and the frames in flight agree. -/
structure Books (nodeMap : Nat → NodeMapping) (nodeNum : Nat) (fs : List Mapped) : Prop where
  size : nodeNum ≤ maxNodeNum
  beyond : ∀ i, nodeNum ≤ i → (nodeMap i).txPend = 0
  distinct : ∀ i < nodeNum, ∀ j < nodeNum,
    (nodeMap i).macAddr = (nodeMap j).macAddr → i = j
  byte : ∀ i, (nodeMap i).txPend < 256
  counted : ∀ i, (nodeMap i).txPend = pending fs i
  entry : ∀ f∈fs, ∀ n, f.mapNo = n+1 → isMulticastEtherAddr (f.dest.getD 0 0) = false ∧
    f.dest = (nodeMap n).macAddr ∧ f.epId = (nodeMap n).epId
  group : ∀ f∈fs, f.mapNo = 0 → isMulticastEtherAddr (f.dest.getD 0 0) = true ∧ f.epId = 2

theorem setPend_macAddr (nodeMap : Nat → NodeMapping) (n c i : Nat) :
    (Function.update nodeMap n { nodeMap n with txPend := c } i).macAddr =
      (nodeMap i).macAddr := by
  by_cases hi : i = n
  · rw [hi, Function.update_self]
  · rw [Function.update_of_ne hi]

theorem setPend_epId (nodeMap : Nat → NodeMapping) (n c i : Nat) :
    (Function.update nodeMap n { nodeMap n with txPend := c } i).epId = (nodeMap i).epId := by
  by_cases hi : i = n
  · rw [hi, Function.update_self]
  · rw [Function.update_of_ne hi]

theorem pending_append (fs : List Mapped) (f : Mapped) (i : Nat) :
    pending (fs ++ [f]) i = pending fs i + if f.mapNo = i+1 then 1 else 0 := by
  simp [pending, List.countP_cons]

theorem pending_eraseIdx {fs : List Mapped} {k : Nat} {f : Mapped} (h : fs[k]? = some f)
    (i : Nat) :
    pending fs i = pending (fs.eraseIdx k) i + if f.mapNo = i+1 then 1 else 0 := by
  obtain ⟨hk, rfl⟩ := List.getElem?_eq_some_iff.mp h
  have hp := (List.getElem_cons_eraseIdx_perm hk).countP_eq fun f => f.mapNo = i+1
  unfold pending
  rw [← hp, List.countP_cons]
  simp

section
variable {nodeMap : Nat → NodeMapping} {nodeNum : Nat} {fs : List Mapped}

theorem Books.busy (h : Books nodeMap nodeNum fs) {f : Mapped} (hf : f∈fs) {n : Nat}
    (hn : f.mapNo = n+1) : 0 < (nodeMap n).txPend := by
  rw [h.counted n]
  exact List.countP_pos_iff.mpr ⟨f, hf, by simpa using hn⟩

theorem Books.slot_lt (h : Books nodeMap nodeNum fs) {f : Mapped} (hf : f∈fs) {n : Nat}
    (hn : f.mapNo = n+1) : n < nodeNum := by
  by_contra hge
  have hzero := h.beyond n (Nat.not_lt.mp hge)
  have hpos := h.busy hf hn
  omega

theorem Books.sameEp (h : Books nodeMap nodeNum fs) {f g : Mapped} (hf : f∈fs) (hg : g∈fs)
    (hd : f.dest = g.dest) : f.epId = g.epId := by
  cases hfm : f.mapNo with
  | zero =>
    obtain ⟨hmc, hfe⟩ := h.group f hf hfm
    cases hgm : g.mapNo with
    | zero => rw [hfe, (h.group g hg hgm).2]
    | succ m =>
      rw [hd, (h.entry g hg m hgm).1] at hmc
      contradiction
  | succ n =>
    obtain ⟨huc, hfd, hfe⟩ := h.entry f hf n hfm
    cases hgm : g.mapNo with
    | zero =>
      rw [hd, (h.group g hg hgm).1] at huc
      contradiction
    | succ m =>
      obtain ⟨-, hgd, hge⟩ := h.entry g hg m hgm
      have hnm : n = m := h.distinct n (h.slot_lt hf hfm) m (h.slot_lt hg hgm)
        (by rw [← hfd, ← hgd, hd])
      rw [hfe, hge, hnm]

theorem Books.group_frame (h : Books nodeMap nodeNum fs) {dest : Bytes}
    (hm : isMulticastEtherAddr (dest.getD 0 0) = true) :
    Books nodeMap nodeNum (fs ++ [⟨dest, 2, 0⟩]) where
  size := h.size
  beyond := h.beyond
  distinct := h.distinct
  byte := h.byte
  counted i := by simp [pending_append, h.counted i]
  entry f hf n hn := by
    obtain hf | rfl : f∈fs ∨ f = ⟨dest, 2, 0⟩ := by simpa using hf
    · exact h.entry f hf n hn
    · cases hn
  group f hf hz := by
    obtain hf | rfl : f∈fs ∨ f = ⟨dest, 2, 0⟩ := by simpa using hf
    · exact h.group f hf hz
    · exact ⟨hm, rfl⟩

/-- Another count for an entry: its address and its endpoint stay. -/
theorem Books.setPend (h : Books nodeMap nodeNum fs) {gs : List Mapped} {n c : Nat}
    (hn : n < nodeNum) (hbyte : c < 256) (hself : c = pending gs n)
    (hother : ∀ i, i ≠ n → pending gs i = pending fs i)
    (hmem : ∀ f∈gs, f∈fs ∨ f = ⟨(nodeMap n).macAddr, (nodeMap n).epId, n+1⟩ ∧
      isMulticastEtherAddr ((nodeMap n).macAddr.getD 0 0) = false) :
    Books (Function.update nodeMap n { nodeMap n with txPend := c }) nodeNum gs where
  size := h.size
  beyond i hi := by
    rw [Function.update_of_ne (by omega)]
    exact h.beyond i hi
  distinct i hi j hj := by
    rw [setPend_macAddr, setPend_macAddr]
    exact h.distinct i hi j hj
  byte i := by
    by_cases hi : i = n
    · rw [hi, Function.update_self]
      exact hbyte
    · rw [Function.update_of_ne hi]
      exact h.byte i
  counted i := by
    by_cases hi : i = n
    · rw [hi, Function.update_self]
      exact hself
    · rw [Function.update_of_ne hi, hother i hi]
      exact h.counted i
  entry f hf m hm := by
    rw [setPend_macAddr, setPend_epId]
    obtain hf | ⟨rfl, huni⟩ := hmem f hf
    · exact h.entry f hf m hm
    · obtain rfl : n = m := Nat.succ_injective hm
      exact ⟨huni, rfl, rfl⟩
  group f hf hz := by
    obtain hf | ⟨rfl, -⟩ := hmem f hf
    · exact h.group f hf hz
    · cases hz

theorem Books.again (h : Books nodeMap nodeNum fs) {i : Nat} (hi : i < nodeNum)
    (hroom : (nodeMap i).txPend < 255)
    (hm : isMulticastEtherAddr ((nodeMap i).macAddr.getD 0 0) = false) :
    Books (Function.update nodeMap i
        { nodeMap i with txPend := ((nodeMap i).txPend + 1) % 256 }) nodeNum
      (fs ++ [⟨(nodeMap i).macAddr, (nodeMap i).epId, i+1⟩]) := by
  refine h.setPend hi (Nat.mod_lt _ (by omega)) ?_ (fun j hj => ?_) fun f hf => ?_
  · rw [pending_append, if_pos rfl, ← h.counted i]
    exact Nat.mod_eq_of_lt (by omega)
  · rw [pending_append, if_neg (by simpa using Ne.symm hj), Nat.add_zero]
  · obtain hf | hf := List.mem_append.mp hf
    · exact Or.inl hf
    · exact Or.inr ⟨List.mem_singleton.mp hf, hm⟩

theorem Books.enter (h : Books nodeMap nodeNum fs) {dest : Bytes} {ep : Int} {n nodeNum' : Nat}
    (hidle : (nodeMap n).txPend = 0) (hn : n < nodeNum') (hle : nodeNum ≤ nodeNum')
    (hmax : nodeNum' ≤ maxNodeNum) (hold : ∀ i < nodeNum', i ≠ n → i < nodeNum)
    (hnew : ∀ i < nodeNum, (nodeMap i).macAddr ≠ dest)
    (hm : isMulticastEtherAddr (dest.getD 0 0) = false) :
    Books (Function.update nodeMap n ⟨dest, ep, ((nodeMap n).txPend + 1) % 256⟩) nodeNum'
      (fs ++ [⟨dest, ep, n+1⟩]) := by
  rw [hidle]
  refine ⟨hmax, ?_, ?_, ?_, ?_, ?_, ?_⟩
  · intro j hj
    rw [Function.update_of_ne (by omega)]
    exact h.beyond j (by omega)
  · intro j hj k hk hmac
    by_cases hjn : j = n <;> by_cases hkn : k = n
    · rw [hjn, hkn]
    · rw [hjn, Function.update_self, Function.update_of_ne hkn] at hmac
      exact absurd hmac.symm (hnew k (hold k hk hkn))
    · rw [hkn, Function.update_self, Function.update_of_ne hjn] at hmac
      exact absurd hmac (hnew j (hold j hj hjn))
    · rw [Function.update_of_ne hjn, Function.update_of_ne hkn] at hmac
      exact h.distinct j (hold j hj hjn) k (hold k hk hkn) hmac
  · intro j
    by_cases hj : j = n
    · simp [hj]
    · rw [Function.update_of_ne hj]
      exact h.byte j
  · intro j
    rw [pending_append, ← h.counted j]
    by_cases hj : j = n
    · simp [hj, hidle]
    · simp [hj, Ne.symm hj]
  · intro f hf m hfm
    obtain hin | rfl := List.mem_append.mp hf |>.imp_right List.mem_singleton.mp
    · have hmn : m ≠ n := by
        rintro rfl
        have hpos := h.busy hin hfm
        omega
      rw [Function.update_of_ne hmn]
      exact h.entry f hin m hfm
    · obtain rfl : n = m := Nat.succ_injective hfm
      rw [Function.update_self]
      exact ⟨hm, rfl, rfl⟩
  · intro f hf hz
    obtain hf | rfl := List.mem_append.mp hf |>.imp_right List.mem_singleton.mp
    · exact h.group f hf hz
    · cases hz

theorem Books.erase_group (h : Books nodeMap nodeNum fs) {k : Nat} {f : Mapped}
    (hf : fs[k]? = some f) (hz : f.mapNo = 0) : Books nodeMap nodeNum (fs.eraseIdx k) where
  size := h.size
  beyond := h.beyond
  distinct := h.distinct
  byte := h.byte
  counted i := by
    have hp := pending_eraseIdx hf i
    rw [hz, if_neg (by omega)] at hp
    rw [h.counted i, hp, Nat.add_zero]
  entry g hg := h.entry g (List.mem_of_mem_eraseIdx hg)
  group g hg := h.group g (List.mem_of_mem_eraseIdx hg)

theorem Books.erase (h : Books nodeMap nodeNum fs) {k n : Nat} {f : Mapped}
    (hf : fs[k]? = some f) (hn : f.mapNo = n+1) :
    Books (Function.update nodeMap n
        { nodeMap n with txPend := ((nodeMap n).txPend + 255) % 256 }) nodeNum
      (fs.eraseIdx k) := by
  have hmem := List.mem_of_getElem? hf
  refine h.setPend (h.slot_lt hmem hn) (Nat.mod_lt _ (by omega)) ?_ (fun j hj => ?_)
    fun g hg => Or.inl (List.mem_of_mem_eraseIdx hg)
  · have hpos := h.busy hmem hn
    have hbyte := h.byte n
    have hcount := h.counted n
    rw [pending_eraseIdx hf n, if_pos hn] at hcount
    omega
  · have hp := pending_eraseIdx hf j
    rw [hn, if_neg (by omega)] at hp
    exact hp.symm

end

/-- What the loop leaves of a table. -/
structure Trimmed (nodeMap : Nat → NodeMapping) (n : Nat) (r : (Nat → NodeMapping) × Nat) :
    Prop where
  le : r.2 ≤ n
  kept : ∀ i < r.2, r.1 i = nodeMap i
  txPend : ∀ i, (r.1 i).txPend = (nodeMap i).txPend
  gone : ∀ i, r.2 ≤ i → i < n → (nodeMap i).txPend = 0

theorem trimNodeMap_trimmed (nodeMap : Nat → NodeMapping) (n : Nat) :
    Trimmed nodeMap n (trimNodeMap nodeMap n) := by
  induction n generalizing nodeMap with
  | zero => exact ⟨le_rfl, fun _ _ => rfl, fun _ => rfl, fun i _ hi => absurd hi (by omega)⟩
  | succ n ih =>
    unfold trimNodeMap
    split
    · exact ⟨le_rfl, fun _ _ => rfl, fun _ => rfl, fun i h hi => absurd hi (by omega)⟩
    next hz =>
      rw [not_not] at hz
      have hpend : ∀ i, (Function.update nodeMap n zeroNode i).txPend = (nodeMap i).txPend :=
        fun i => by
          by_cases hi : i = n
          · rw [hi, Function.update_self, hz]
            rfl
          · rw [Function.update_of_ne hi]
      obtain ⟨hle, hkept, htx, hgone⟩ := ih (Function.update nodeMap n zeroNode)
      refine ⟨Nat.le_succ_of_le hle, ?_, ?_, ?_⟩
      · intro i hi
        rw [hkept i hi, Function.update_of_ne (by omega)]
      · intro i
        rw [htx, hpend]
      · intro i hi hlt
        by_cases hin : i = n
        · rw [hin, hz]
        · rw [← hpend]
          exact hgone i hi (by omega)

theorem Books.trim {nodeMap : Nat → NodeMapping} {nodeNum : Nat} {fs : List Mapped}
    (h : Books nodeMap nodeNum fs) {r : (Nat → NodeMapping) × Nat}
    (ht : Trimmed nodeMap nodeNum r) : Books r.1 r.2 fs where
  size := Nat.le_trans ht.le h.size
  beyond i hi := by
    rw [ht.txPend]
    by_cases hlt : i < nodeNum
    · exact ht.gone i hi hlt
    · exact h.beyond i (Nat.not_lt.mp hlt)
  distinct i hi j hj := by
    rw [ht.kept i hi, ht.kept j hj]
    exact h.distinct i (Nat.lt_of_lt_of_le hi ht.le) j (Nat.lt_of_lt_of_le hj ht.le)
  byte i := by
    rw [ht.txPend]
    exact h.byte i
  counted i := by
    rw [ht.txPend]
    exact h.counted i
  entry f hf n hn := by
    -- an entry in use is not given up
    have hlt : n < r.2 := by
      by_contra hge
      have hzero := ht.gone n (Nat.not_lt.mp hge) (h.slot_lt hf hn)
      have hpos := h.busy hf hn
      omega
    rw [ht.kept n hlt]
    exact h.entry f hf n hn
  group := h.group

/-- The table of a state. -/
def Sound (s : State) : Prop := Books s.ar.nodeMap s.ar.nodeNum s.inFlight

def fresh (ar : Ar) : State := ⟨{ ar with nodeMap := fun _ => zeroNode, nodeNum := 0 }, []⟩

theorem sound_fresh (ar : Ar) : Sound (fresh ar) where
  size := Nat.zero_le _
  beyond _ _ := rfl
  distinct _ hi := absurd hi (Nat.not_lt_zero _)
  byte _ := (by decide : zeroNode.txPend < 256)
  counted _ := rfl
  entry _ hf := by cases hf
  group _ hf := by cases hf

theorem Sound.mapEpid {s : State} (h : Sound s) {dest : Bytes} {txPending : Int → Nat}
    (hc : Meets s (.mapEpid dest txPending)) : Sound (step s (.mapEpid dest txPending)) := by
  have hspec := ibssMapEpid_spec { s.ar with txPending := txPending } dest
  unfold Sound step
  dsimp only
  generalize ibssMapEpid { s.ar with txPending := txPending } dest = r at hspec
  cases hspec with
  | group hm => exact Books.group_frame h hm
  | @again i hm hk =>
    obtain ⟨hi, rfl⟩ := known_some hk
    exact Books.again h hi (hc.2 hm i hk) hm
  | @reuse i hm hk hi =>
    obtain ⟨hlt, hz⟩ := idle_some hi
    rw [enter_nodeMap, enter_nodeNum]
    exact Books.enter h hz hlt le_rfl h.size (fun j hj _ => hj) (known_none.mp hk) hm
  | grow hm hk hi hn =>
    have hsize := h.size
    have hmod : (s.ar.nodeNum + 1) % 256 = s.ar.nodeNum + 1 :=
      Nat.mod_eq_of_lt (by unfold maxNodeNum at hsize; omega)
    rw [enter_nodeMap, enter_nodeNum]
    dsimp only at hn ⊢
    rw [hmod] at hn ⊢
    exact Books.enter h (h.beyond _ le_rfl) (Nat.lt_succ_self _) (Nat.le_succ _) hn
      (fun j hj hne => by omega) (known_none.mp hk) hm
  | full hf => exact absurd hf hc.1

theorem Sound.txDone {s : State} (h : Sound s) {k : Nat} {nwType : NwType}
    {ibssPsEnable : Bool} {ctrlEp : Int} (hc : Meets s (.txDone k nwType ibssPsEnable ctrlEp)) :
    Sound (step s (.txDone k nwType ibssPsEnable ctrlEp)) := by
  unfold Sound step
  dsimp only
  split
  · exact h
  next f hf =>
    dsimp only
    cases hn : f.mapNo with
    | zero =>
      have hsame : ∀ ar : Ar, txClearNodeMap ar nwType ctrlEp f.epId 0 = ar := by
        intro ar
        simp [txClearNodeMap]
      rw [hsame]
      exact Books.erase_group h hf hn
    | succ n =>
      obtain ⟨rfl, rfl, hep⟩ := hc f hf (by omega)
      have hb := Books.erase h hf hn
      unfold txClearNodeMap
      simp only [ne_eq, not_true_eq_false, ↓reduceIte, Bool.not_true, Bool.false_eq_true, hep]
      split
      · exact hb
      · split
        · exact hb
        · exact hb.trim (trimNodeMap_trimmed _ _)

theorem Sound.next {s : State} (h : Sound s) (e : Event) (hc : Meets s e) : Sound (step s e) := by
  cases e with
  | mapEpid dest txPending => exact h.mapEpid hc
  | txDone k nwType ibssPsEnable ctrlEp => exact h.txDone hc

theorem mem_slot {m i : Nat} (h : i∈slot m) : m = i+1 := by
  cases m with
  | zero => cases h
  | succ n => rw [List.mem_singleton.mp h]

theorem trimAccesses_lt {nodeMap : Nat → NodeMapping} {n i : Nat}
    (h : i∈trimAccesses nodeMap n) : i < n := by
  induction n with
  | zero => cases h
  | succ n ih =>
    unfold trimAccesses at h
    obtain rfl | h := List.mem_cons.mp h
    · exact Nat.lt_succ_self i
    · split at h
      · cases h
      · exact Nat.lt_succ_of_lt (ih h)

theorem Sound.inside {s : State} (h : Sound s) (e : Event) {i : Nat} (hi : i∈accesses s e) :
    i < maxNodeNum := by
  have hsize := h.size
  cases e with
  | mapEpid dest txPending =>
    unfold accesses at hi
    dsimp only at hi
    split at hi
    · cases hi
    next huni =>
      split at hi
      next j hj =>
        have := (known_some hj).1
        have := List.mem_range.mp hi
        omega
      next hnone =>
        obtain hi | hi := List.mem_append.mp hi
        · have := List.mem_range.mp hi
          omega
        · have hspec := ibssMapEpid_spec { s.ar with txPending := txPending } dest
          have hno := mem_slot hi
          generalize ibssMapEpid { s.ar with txPending := txPending } dest = r at hspec hno
          cases hspec with
          | group hm => exact absurd hm huni
          | again hm hk => cases hnone.symm.trans hk
          | reuse hm hk hj =>
            have hlt := (idle_some hj).1
            obtain rfl := Nat.succ_injective hno
            exact Nat.lt_of_lt_of_le hlt hsize
          | grow hm hk hj hn =>
            obtain rfl := Nat.succ_injective hno
            unfold maxNodeNum at hn hsize ⊢
            dsimp only at hn ⊢
            omega
          | full hf => cases hno
  | txDone k nwType ibssPsEnable ctrlEp =>
    unfold accesses at hi
    dsimp only at hi
    split at hi
    · cases hi
    next f hf =>
      split at hi
      · cases hi
      · obtain hi | hi := List.mem_append.mp hi
        · exact Nat.lt_of_lt_of_le (h.slot_lt (List.mem_of_getElem? hf) (mem_slot hi)) hsize
        · split at hi
          · exact Nat.lt_of_lt_of_le (trimAccesses_lt hi) hsize
          · cases hi

theorem Sound.consistent {s : State} (h : Sound s) : Consistent s where
  nodeNum := h.size
  inside e _ hi := h.inside e hi
  distinct i _ j _ hi hj hmac := by
    have hlt : ∀ n, 0 < (s.ar.nodeMap n).txPend → n < s.ar.nodeNum := by
      intro n hn
      by_contra hge
      have := h.beyond n (Nat.not_lt.mp hge)
      omega
    exact h.distinct i (hlt i hi) j (hlt j hj) hmac
  counted i _ := h.counted i
  sameEp _ hf _ hg hd := Books.sameEp h hf hg hd

theorem Sound.meets {s : State} (h : Sound s) (e : Event) (hc : Consistent (step s e)) :
    Meets s e := by
  have hsize := h.size
  cases e with
  | mapEpid dest txPending =>
    have hspec := ibssMapEpid_spec { s.ar with txPending := txPending } dest
    have hnum := hc.nodeNum
    have hcount := hc.counted
    unfold step at hnum hcount
    dsimp only at hnum hcount
    generalize ibssMapEpid { s.ar with txPending := txPending } dest = r at hspec hnum hcount
    constructor
    · rintro ⟨huni, hnone, hidle, hfull⟩
      cases hspec with
      | group hm => cases hm.symm.trans huni
      | again hm hk => cases hnone.symm.trans hk
      | reuse hm hk hi => cases hidle.symm.trans hi
      | grow hm hk hi hn => exact absurd hn (Nat.not_le.mpr hfull)
      | full hf => exact absurd hnum (Nat.not_le.mpr hfull)
    · intro huni i hi
      cases hspec with
      | group hm => cases hm.symm.trans huni
      | @again j hm hk =>
        obtain rfl : j = i := Option.some_inj.mp (hk.symm.trans hi)
        have hlt := (known_some hi).1
        have hold := h.counted j
        have hnew := hcount j (Nat.lt_of_lt_of_le hlt hsize)
        rw [pending_append, if_pos rfl] at hnew
        simp only [Ar.setNode, Function.update_self] at hnew
        omega
      | reuse hm hk => cases hi.symm.trans hk
      | grow hm hk => cases hi.symm.trans hk
      | full hf => cases hi.symm.trans hf.2.1
  | txDone k nwType ibssPsEnable ctrlEp =>
    intro f hf hn
    obtain ⟨n, hn⟩ := Nat.exists_eq_succ_of_ne_zero hn
    have hlt := Nat.lt_of_lt_of_le (h.slot_lt (List.mem_of_getElem? hf) hn) hsize
    have hold := h.counted n
    have herase := pending_eraseIdx hf n
    have hnew := hc.counted n hlt
    rw [if_pos hn] at herase
    unfold step at hnew
    simp only [hf] at hnew
    -- a call that ends at once leaves the counter as it was
    have hskip : txClearNodeMap { s.ar with ibssPsEnable := ibssPsEnable } nwType ctrlEp f.epId
        f.mapNo ≠ { s.ar with ibssPsEnable := ibssPsEnable } := by
      intro heq
      rw [heq] at hnew
      dsimp only at hnew
      omega
    refine ⟨?_, ?_, ?_⟩
    · by_contra hnw
      exact hskip (by simp [txClearNodeMap, hnw])
    · by_contra hps
      exact hskip (by simp [txClearNodeMap, hps])
    · intro hep
      exact hskip (by simp [txClearNodeMap, hep])

/-- The table stays right exactly as long as each call meets the condition. -/
theorem node_map_consistent (ar : Ar) (es : List Event) :
    (∀ u, u <+: es → Consistent (run step (fresh ar) u)) ↔ AllSteps step Meets (fresh ar) es :=
  prefix_iff_allSteps (fun _ h => h.consistent) (fun _ e h hc => h.next e hc)
    (fun _ e h hc => h.meets e hc) (sound_fresh ar) es

/-- Sixteen stations are written to before the first frame completes. -/
def sixteenStations : List Event :=
  (List.range 16).map fun i => .mapEpid [0, 0, 0, 0, 0, UInt8.ofNat i] fun _ => 0

theorem node_map_sixteen :
    ¬ ∀ u, u <+: sixteenStations → Consistent (run step (fresh {}) u) := by
  intro h
  have hnum := (h sixteenStations List.prefix_rfl).nodeNum
  exact absurd hnum (by decide)

end Ath6kl.IbssNodeMap
