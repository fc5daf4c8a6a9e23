import Ath6kl.Lib.Bitmap
import Ath6kl.Lib.Distinct
import Ath6kl.Lib.Machine
import Mathlib.Data.List.Range

/-! The table of virtual interfaces (`cfg80211.c`, `init.c`): which firmware index and which address
an interface gets, and what the driver remembers of an ad-hoc one. -/
namespace Ath6kl.InterfaceTable
open Lib.Bitmap Lib.Distinct Lib.Machine

/-- `enum nl80211_iftype`; `other` is any that the driver does not know. -/
inductive IfType
  | station
  | adhoc
  | ap
  | p2pClient
  | p2pGo
  | other
deriving DecidableEq

inductive NwType
  | infra
  | adhoc
  | ap
deriving DecidableEq

def nliftypeToDrvIftype : IfType → Option NwType
  | .station => some .infra
  | .adhoc => some .adhoc
  | .ap => some .ap
  | .p2pClient => some .infra
  | .p2pGo => some .ap
  | .other => none

abbrev Mac := Fin 6 → BitVec 8

/-- `ATH6KL_VIF_MAX` -/
def vifMaxAll : Nat := 8

def targetVifMax : Nat := 4

/-- What the module parameters and the firmware file make of the driver. -/
structure Config where
  p2pConcurrent : Bool := false
  p2pDedicate : Bool := false
  p2pCompat : Bool := false
  p2pConcurrentAp : Bool := false
  vifMax : Nat
  maxNormIface : Nat
  vifMax_le : vifMax ≤ vifMaxAll

def judgeP2pFramework (p2pConfig : BitVec 32) (maxFwVif : Bool) : Config where
  p2pConcurrent := p2pConfig.getLsbD 1 || p2pConfig.getLsbD 2 || p2pConfig.getLsbD 4 ||
    p2pConfig.getLsbD 3
  p2pDedicate := p2pConfig.getLsbD 1 || p2pConfig.getLsbD 3
  p2pCompat := p2pConfig.getLsbD 3
  p2pConcurrentAp := p2pConfig.getLsbD 8
  vifMax :=
    if p2pConfig.getLsbD 1 || p2pConfig.getLsbD 2 || p2pConfig.getLsbD 4 || p2pConfig.getLsbD 3 then
      if maxFwVif then targetVifMax
      else if p2pConfig.getLsbD 1 || p2pConfig.getLsbD 3 then 3 else 2
    else 1
  maxNormIface := if p2pConfig.getLsbD 8 then 2 else 1
  vifMax_le := by
    split_ifs <;> decide

/-- `_judge_vap_framework`: four bits for each interface, up to the first that is disabled. -/
def judgeVapFramework (vapConfig : BitVec 32) : Config where
  vifMax :=
    ((List.range vifMaxAll).takeWhile fun i => (vapConfig >>> (4*i)) &&& 0xf#32 != 0#32).length
  maxNormIface :=
    ((List.range vifMaxAll).takeWhile fun i => (vapConfig >>> (4*i)) &&& 0xf#32 != 0#32).length
  vifMax_le := by
    simpa using (List.takeWhile_sublist _ (l := List.range vifMaxAll)).length_le

/-- The module parameters; `single` is the test mode, which has neither of the first two. `vifMaxIe`
is what a firmware file of the second kind says under `ATH6KL_FW_IE_VIF_MAX`. -/
structure Params where
  p2p : BitVec 32
  vap : BitVec 32
  dsrc : Bool
  single : Bool
  maxFwVif : Bool
  vifMaxIe : Option (BitVec 32)

/-- `ar->p2p` -/
def Params.hasP2p (m : Params) : Bool := m.single = false ∧ m.p2p ≠ 0

/-- The choice that `ath6kl_core_alloc` makes. -/
def Params.framework (m : Params) : Config :=
  if m.hasP2p then judgeP2pFramework m.p2p m.maxFwVif
  else if m.single = false ∧ m.vap ≠ 0 then judgeVapFramework m.vap
  else if m.dsrc then { vifMax := 2, maxNormIface := 2, vifMax_le := by decide }
  else { vifMax := 1, maxNormIface := 1, vifMax_le := by decide }

/-- What `ath6kl_fetch_fw_api2` makes of it. -/
def Params.config (m : Params) : Config :=
  match m.vifMaxIe with
  | none => m.framework
  | some val =>
    { m.framework with
      vifMax := min val.toNat vifMaxAll
      maxNormIface :=
        if 1 < min val.toNat vifMaxAll ∧ m.hasP2p = false then 2 else m.framework.maxNormIface
      vifMax_le := Nat.min_le_right _ _ }

/-- `struct ath6kl_vif`. `addedAs` is history: the type that the interface was added as. -/
structure Vif where
  fwVifIdx : Nat
  nwType : NwType
  nextMode : NwType
  iftype : IfType
  devAddr : Mac
  addedAs : IfType

structure Ar where
  numVif : UInt8 := 0
  availIdxMap : BitVec 8 := 0
  ibssIfActive : Bool := false
  vifList : List Vif := []

def Ar.idxs (s : Ar) : List Nat := s.vifList.map Vif.fwVifIdx

def devAddr (mac : Mac) (idx : Nat) : Mac :=
  if idx ≠ 0 then Function.update mac 0 ((mac 0 ^^^ BitVec.twoPow 8 idx) ||| 2#8) else mac

def interfaceAdd (mac : Mac) (s : Ar) (type : IfType) (fwVifIdx : Nat) (nwType : NwType) : Ar :=
  { s with
    availIdxMap := s.availIdxMap &&& ~~~(BitVec.twoPow 8 fwVifIdx)
    ibssIfActive := if type = .adhoc then true else s.ibssIfActive
    vifList := s.vifList ++ [{
      fwVifIdx := fwVifIdx
      nwType := nwType
      nextMode := nwType
      iftype := type
      devAddr := devAddr mac fwVifIdx
      addedAs := type }] }

/-- `ath6kl_deinit_if_data`, after the interface is off the list. -/
def deinitIfData (s : Ar) (v : Vif) : Ar :=
  { s with
    availIdxMap := s.availIdxMap ||| BitVec.twoPow 8 v.fwVifIdx
    ibssIfActive := if v.nwType = .adhoc then false else s.ibssIfActive
    numVif := s.numVif - 1 }

/-- The indices that the search of `ath6kl_is_valid_iftype` goes through, in its order. -/
def Config.candidates (c : Config) (type : IfType) : List Nat :=
  if c.p2pConcurrent ∧ c.p2pDedicate then
    if c.p2pConcurrentAp ∧ type = .ap then List.range c.maxNormIface
    else if type = .station ∨ type = .ap ∨ type = .adhoc then (List.range' 1 (c.vifMax-1)).reverse
    else if type = .p2pClient ∨ type = .p2pGo then
      (List.range' c.maxNormIface (c.vifMax - c.maxNormIface)).reverse
    else []
  else
    if type = .station ∨ type = .ap ∨ type = .adhoc then List.range c.vifMax
    else if type = .p2pClient ∨ type = .p2pGo then
      List.range' c.maxNormIface (c.vifMax - c.maxNormIface)
    else []

def isValidIftype (c : Config) (s : Ar) (type : IfType) : Option (Nat × NwType) :=
  match nliftypeToDrvIftype type with
  | none => none
  | some nwType =>
    if s.ibssIfActive ∨ (type = .adhoc ∧ s.numVif ≠ 0) then none
    else ((c.candidates type).find? fun i => s.availIdxMap.getLsbD i).map fun i => (i, nwType)

/-- What a request finds: a driver that is ready, the semaphore, memory. -/
structure Env where
  ready : Bool
  sem : Bool
  mem : Bool

def addIface (c : Config) (mac : Mac) (s : Ar) (x : Env) (type : IfType) : Ar :=
  if x.ready = false ∨ x.sem = false then s
  else if s.numVif.toNat = c.vifMax then s
  else
    match isValidIftype c s type with
    | none => s
    | some (idx, nwType) =>
      if x.mem = false then s
      else { interfaceAdd mac s type idx nwType with numVif := s.numVif + 1 }

/-- The interface is named by its place on the list. -/
def delIface (s : Ar) (x : Env) (n : Nat) : Ar :=
  if x.ready = false ∨ x.sem = false then s
  else
    match s.vifList[n]? with
    | none => s
    | some v => deinitIfData { s with vifList := s.vifList.eraseIdx n } v

def changeIface (s : Ar) (sem : Bool) (n : Nat) (type : IfType) : Ar :=
  if sem = false then s
  else
    match nliftypeToDrvIftype type with
    | none => s
    | some mode =>
      { s with vifList := s.vifList.modify n fun v => { v with nextMode := mode, iftype := type } }

/-- `start` is a connect, the joining of an ad-hoc network or the start of an access point, once it
takes the mode over. -/
inductive Event
  | add (x : Env) (type : IfType)
  | del (x : Env) (n : Nat)
  | change (sem : Bool) (n : Nat) (type : IfType)
  | start (n : Nat)

def step (c : Config) (mac : Mac) (s : Ar) : Event → Ar
  | .add x type => addIface c mac s x type
  | .del x n => delIface s x n
  | .change sem n type => changeIface s sem n type
  | .start n => { s with vifList := s.vifList.modify n fun v => { v with nwType := v.nextMode } }

/-- How many indices there are: the first interface has one in any case. -/
def Config.limit (c : Config) : Nat := if c.p2pCompat then 2 else max 1 c.vifMax

/-- The indices that are available before the first interface is there. -/
def Config.initialMap (c : Config) : BitVec 8 :=
  if c.p2pCompat then 0x3#8
  else (List.range c.vifMax).foldl (fun map i => map ||| BitVec.twoPow 8 i) 0

/-- `ath6kl_core_init`: the first interface takes the first index. -/
def boot (c : Config) (mac : Mac) : Ar :=
  interfaceAdd mac { availIdxMap := c.initialMap } .station 0 .infra

variable {c : Config} {mac : Mac} {s : Ar}

theorem Config.limit_pos : 0 < c.limit := by
  rw [Config.limit]
  split <;> omega

theorem Config.limit_le : c.limit ≤ 8 := by
  have h8 : vifMaxAll = 8 := rfl
  have hle := c.vifMax_le
  rw [Config.limit]
  split <;> omega

theorem Config.norm_le_of_mem_candidates {t : IfType} {i : Nat} (h : i∈c.candidates t)
    (ht : t = .p2pClient ∨ t = .p2pGo) : c.maxNormIface ≤ i := by
  rcases ht with rfl | rfl
  all_goals
    simp only [Config.candidates, reduceCtorEq, and_false, or_false, or_true, if_false, if_true]
      at h
    split at h
    · exact (List.mem_range'_1.mp (List.mem_reverse.mp h)).1
    · exact (List.mem_range'_1.mp h).1

theorem getLsbD_devAddr {k : Nat} (hk : k < 8) (i : Nat) :
    (devAddr mac i 0).getLsbD k =
      if i ≠ 0 then ((mac 0).getLsbD k ^^ decide (i = k)) || decide (1 = k)
      else (mac 0).getLsbD k := by
  rw [devAddr]
  split
  · rw [Function.update_self, BitVec.getLsbD_or, BitVec.getLsbD_xor, BitVec.getLsbD_twoPow,
      show (2#8) = BitVec.twoPow 8 1 by decide, BitVec.getLsbD_twoPow]
    by_cases hik : i = k
    · simp [hik, hk]
    · simp [hik]
  · rfl

theorem devAddr_eq_iff {i j : Nat} (hj : j < 8) (hij : i < j) :
    devAddr mac i = devAddr mac j ↔ (mac 0).getLsbD 1 = true ∧ i = 0 ∧ j = 1 := by
  constructor
  · intro h
    have hb : (devAddr mac i 0).getLsbD j = (devAddr mac j 0).getLsbD j := by
      rw [h]
    rw [getLsbD_devAddr hj, getLsbD_devAddr hj] at hb
    have hj0 : j ≠ 0 := by omega
    have hne : i ≠ j := by omega
    by_cases h1 : j = 1
    · subst h1
      have hi : i = 0 := by omega
      subst hi
      simpa using hb
    · have h1' : ¬ 1 = j := fun he => h1 he.symm
      simp [hj0, hne, h1'] at hb
  · rintro ⟨hb, rfl, rfl⟩
    rw [devAddr, if_neg (by simp), devAddr, if_pos (by simp)]
    refine (Function.update_eq_self_iff.mpr ?_).symm
    apply BitVec.eq_of_getLsbD_eq
    intro k hk
    rw [BitVec.getLsbD_or, BitVec.getLsbD_xor, BitVec.getLsbD_twoPow,
      show (2#8) = BitVec.twoPow 8 1 by decide, BitVec.getLsbD_twoPow]
    by_cases hk1 : 1 = k
    · subst hk1
      simp [hb]
    · simp [hk1]

/-- What the driver's books say of the interfaces on its list. -/
structure Inv (c : Config) (mac : Mac) (s : Ar) : Prop where
  nodup : s.idxs.Nodup
  avail : ∀ i < 8, s.availIdxMap.getLsbD i = true ↔ i < c.limit ∧ i∉s.idxs
  below : ∀ i∈s.idxs, i < c.limit
  numVif : (s.numVif.toNat + 1) % 256 = s.vifList.length
  addr : ∀ v∈s.vifList, v.devAddr = devAddr mac v.fwVifIdx
  p2p : ∀ v∈s.vifList, v.addedAs = .p2pClient ∨ v.addedAs = .p2pGo → c.maxNormIface ≤ v.fwVifIdx

theorem Ar.length_idxs (s : Ar) : s.idxs.length = s.vifList.length := List.length_map _

theorem Inv.length_le (h : Inv c mac s) : s.vifList.length ≤ c.limit := by
  have hw : Within (List.range c.limit) s.idxs :=
    ⟨h.nodup, fun i hi => List.mem_range.mpr (h.below i hi)⟩
  have hle := hw.length_le
  rwa [List.length_range, s.length_idxs] at hle

theorem Ar.taken {t : Ar} {v : Vif} (hl : t.vifList = s.vifList ++ [v]) (hn : s.idxs.Nodup)
    (ha : ∀ i < 8, i ≠ v.fwVifIdx → (s.availIdxMap.getLsbD i = true ↔ i < c.limit ∧ i∉s.idxs))
    (hb : ∀ i∈s.idxs, i < c.limit) (hlim : v.fwVifIdx < c.limit) (hfree : v.fwVifIdx∉s.idxs)
    (hm : t.availIdxMap = s.availIdxMap &&& ~~~(BitVec.twoPow 8 v.fwVifIdx)) :
    t.idxs.Nodup ∧ (∀ i < 8, t.availIdxMap.getLsbD i = true ↔ i < c.limit ∧ i∉t.idxs) ∧
      ∀ i∈t.idxs, i < c.limit := by
  have hi : t.idxs = s.idxs ++ [v.fwVifIdx] := by
    simp [Ar.idxs, hl]
  rw [hi]
  refine ⟨?_, fun i hi8 => ?_, fun i him => ?_⟩
  · rw [List.nodup_append_comm]
    exact List.nodup_cons.mpr ⟨hfree, hn⟩
  · rw [hm, getLsbD_clear hi8, Bool.and_eq_true]
    simp only [Bool.not_eq_true', decide_eq_false_iff_not, List.mem_append, List.mem_singleton,
      not_or]
    by_cases hv : i = v.fwVifIdx
    · simp [hv]
    · rw [ha i hi8 hv]
      tauto
  · rcases List.mem_append.mp him with him | him
    · exact hb i him
    · rwa [List.mem_singleton.mp him]

theorem getLsbD_fill (n : Nat) {i : Nat} (hi : i < 8) :
    ((List.range n).foldl (fun map k => map ||| BitVec.twoPow 8 k) 0).getLsbD i =
      decide (i < n) := by
  induction n with
  | zero => simp
  | succ n ih =>
    rw [List.range_succ, List.foldl_append]
    simp only [List.foldl_cons, List.foldl_nil]
    rw [getLsbD_set hi, ih]
    by_cases h : n = i
    · subst h
      simp
    · have hiff : i < n+1 ↔ i < n := by omega
      simp [h, hiff]

theorem Config.getLsbD_initialMap {i : Nat} (hi : i < 8) (h0 : i ≠ 0) :
    c.initialMap.getLsbD i = true ↔ i < c.limit := by
  rw [Config.initialMap, Config.limit]
  split
  · have h3 : ∀ j < 8, (0x3#8).getLsbD j = true ↔ j < 2 := by decide
    exact h3 i hi
  · rw [getLsbD_fill c.vifMax hi, decide_eq_true_iff]
    omega

theorem inv_boot (c : Config) (mac : Mac) : Inv c mac (boot c mac) := by
  have havail : ∀ i < 8, i ≠ 0 →
      (c.initialMap.getLsbD i = true ↔ i < c.limit ∧ i∉([] : List Nat)) :=
    fun i hi h0 => by simpa using Config.getLsbD_initialMap hi h0
  obtain ⟨hn, ha, hb⟩ := Ar.taken (s := { availIdxMap := c.initialMap }) (t := boot c mac) rfl
    List.nodup_nil havail (fun i hi => absurd hi List.not_mem_nil) c.limit_pos List.not_mem_nil rfl
  refine ⟨hn, ha, hb, rfl, fun v hv => ?_, fun v hv hp => ?_⟩
  · rw [List.mem_singleton.mp hv]
  · rw [List.mem_singleton.mp hv] at hp
    rcases hp with hp | hp <;> cases hp

theorem Inv.leave (h : Inv c mac s) {n : Nat} {v : Vif} (hv : s.vifList[n]? = some v) {t : Ar}
    (hl : t.vifList = s.vifList.eraseIdx n)
    (hm : t.availIdxMap = s.availIdxMap ||| BitVec.twoPow 8 v.fwVifIdx)
    (hnum : t.numVif = s.numVif - 1) : Inv c mac t := by
  obtain ⟨hlt, hget⟩ := List.getElem?_eq_some_iff.mp hv
  have hsplit : s.vifList = s.vifList.take n ++ v :: s.vifList.drop (n+1) := by
    rw [← hget, List.getElem_cons_drop, List.take_append_drop]
  have hs : s.idxs = (s.vifList.take n).map Vif.fwVifIdx ++
      v.fwVifIdx :: (s.vifList.drop (n+1)).map Vif.fwVifIdx := by
    rw [Ar.idxs, hsplit, List.map_append, List.map_cons, ← hsplit]
  have ht : t.idxs =
      (s.vifList.take n).map Vif.fwVifIdx ++ (s.vifList.drop (n+1)).map Vif.fwVifIdx := by
    rw [Ar.idxs, hl, List.eraseIdx_eq_take_drop_succ, List.map_append]
  have hperm : s.idxs.Perm (v.fwVifIdx :: t.idxs) := by
    rw [hs, ht]
    exact List.perm_middle
  obtain ⟨hleft, hnd⟩ := List.nodup_cons.mp (hperm.nodup_iff.mp h.nodup)
  have hmem : ∀ i, i∈s.idxs ↔ i = v.fwVifIdx ∨ i∈t.idxs := fun i => by
    rw [hperm.mem_iff, List.mem_cons]
  have hsub : ∀ w∈t.vifList, w∈s.vifList := fun w hw => List.mem_of_mem_eraseIdx (hl ▸ hw)
  have hlim : v.fwVifIdx < c.limit := h.below _ ((hmem _).mpr (Or.inl rfl))
  refine ⟨hnd, fun i hi => ?_, fun i hi => h.below i ((hmem i).mpr (Or.inr hi)), ?_,
    fun w hw => h.addr w (hsub w hw), fun w hw => h.p2p w (hsub w hw)⟩
  · rw [hm, getLsbD_set hi, Bool.or_eq_true, decide_eq_true_iff, h.avail i hi, hmem i]
    by_cases he : i = v.fwVifIdx
    · subst he
      simp [hlim, hleft]
    · have he' : ¬ v.fwVifIdx = i := fun hc => he hc.symm
      simp [he, he']
  · have hlen := h.numVif
    have hle := h.length_le
    have hlim8 := c.limit_le
    have hlt8 := s.numVif.toNat_lt
    have h1 : (1:UInt8).toNat = 1 := rfl
    rw [hnum, UInt8.toNat_sub, hl, List.length_eraseIdx_of_lt hlt]
    omega

/-- What a change of modes leaves alone. -/
structure ModesOnly (f : Vif → Vif) : Prop where
  fwVifIdx : ∀ v, (f v).fwVifIdx = v.fwVifIdx
  devAddr : ∀ v, (f v).devAddr = v.devAddr
  addedAs : ∀ v, (f v).addedAs = v.addedAs

theorem changeIface_modify (s : Ar) (sem : Bool) (n : Nat) (type : IfType) :
    ∃ f, ModesOnly f ∧ changeIface s sem n type = { s with vifList := s.vifList.modify n f } := by
  rw [changeIface]
  have hid : ∃ f, ModesOnly f ∧ s = { s with vifList := s.vifList.modify n f } :=
    ⟨id, ⟨fun _ => rfl, fun _ => rfl, fun _ => rfl⟩, by rw [List.modify_id]⟩
  split
  · exact hid
  · cases nliftypeToDrvIftype type with
    | none => exact hid
    | some mode =>
      exact ⟨fun v => { v with nextMode := mode, iftype := type },
        ⟨fun _ => rfl, fun _ => rfl, fun _ => rfl⟩, rfl⟩

theorem start_modesOnly : ModesOnly fun v => { v with nwType := v.nextMode } :=
  ⟨fun _ => rfl, fun _ => rfl, fun _ => rfl⟩

theorem Inv.modify (h : Inv c mac s) {f : Vif → Vif} (hf : ModesOnly f) (n : Nat) :
    Inv c mac { s with vifList := s.vifList.modify n f } := by
  have hi : Ar.idxs { s with vifList := s.vifList.modify n f } = s.idxs :=
    map_modify hf.fwVifIdx _ n
  refine ⟨hi ▸ h.nodup, ?_, hi ▸ h.below, ?_, ?_, ?_⟩
  · rw [hi]
    exact h.avail
  · rw [List.length_modify]
    exact h.numVif
  · exact forall_modify (fun v hv => by rw [hf.devAddr, hf.fwVifIdx, hv]) h.addr n
  · exact forall_modify (fun v hv => by rw [hf.addedAs, hf.fwVifIdx]; exact hv) h.p2p n

/-- All that a request for an interface can do. -/
inductive Added (c : Config) (mac : Mac) (s : Ar) (x : Env) (type : IfType) : Ar → Prop
  | refused : Added c mac s x type s
  | added (i : Nat) (nwType : NwType) (hx : x.ready = true ∧ x.sem = true ∧ x.mem = true)
      (hfull : s.numVif.toNat ≠ c.vifMax) (hmode : nliftypeToDrvIftype type = some nwType)
      (hibss : s.ibssIfActive = false) (hadhoc : type = .adhoc → s.numVif = 0)
      (hcand : i∈c.candidates type) (hfree : s.availIdxMap.getLsbD i = true) :
      Added c mac s x type { interfaceAdd mac s type i nwType with numVif := s.numVif + 1 }

theorem isValidIftype_eq_some {type : IfType} {i : Nat} {nwType : NwType} :
    isValidIftype c s type = some (i, nwType) ↔
      nliftypeToDrvIftype type = some nwType ∧ s.ibssIfActive = false ∧
        (type = .adhoc → s.numVif = 0) ∧
        (c.candidates type).find? (fun k => s.availIdxMap.getLsbD k) = some i := by
  rw [isValidIftype]
  cases nliftypeToDrvIftype type with
  | none => simp
  | some nw =>
    dsimp only
    split
    · next hno =>
      refine ⟨fun h => (by cases h), fun h => ?_⟩
      rcases hno with hno | hno
      · simp [h.2.1] at hno
      · exact absurd (h.2.2.1 hno.1) hno.2
    · next hno =>
      simp only [not_or, Bool.not_eq_true, not_and, Classical.not_not] at hno
      rw [Option.map_eq_some_iff]
      constructor
      · rintro ⟨k, hk, heq⟩
        cases heq
        exact ⟨rfl, hno.1, hno.2, hk⟩
      · rintro ⟨hnw, -, -, hk⟩
        cases hnw
        exact ⟨i, hk, rfl⟩

theorem added (c : Config) (mac : Mac) (s : Ar) (x : Env) (type : IfType) :
    Added c mac s x type (addIface c mac s x type) := by
  rw [addIface]
  by_cases hx : x.ready = false ∨ x.sem = false
  · rw [if_pos hx]
    exact .refused
  by_cases hfull : s.numVif.toNat = c.vifMax
  · rw [if_neg hx, if_pos hfull]
    exact .refused
  rw [if_neg hx, if_neg hfull]
  cases hv : isValidIftype c s type with
  | none => exact .refused
  | some r =>
    by_cases hmem : x.mem = false
    · simp only [if_pos hmem]
      exact .refused
    · simp only [if_neg hmem]
      obtain ⟨hmode, hibss, hadhoc, hk⟩ := isValidIftype_eq_some.mp hv
      have hbit := List.find?_some hk
      simp only [not_or, Bool.not_eq_false] at hx hmem
      exact .added r.1 r.2 ⟨hx.1, hx.2, hmem⟩ hfull hmode hibss hadhoc
        (List.mem_of_find?_eq_some hk) hbit

theorem Inv.enter (h : Inv c mac s) {x : Env} {type : IfType} {t : Ar}
    (ha : Added c mac s x type t) :
    Inv c mac t := by
  cases ha with
  | refused => exact h
  | added i nwType hx hfull hmode hibss hadhoc hcand hfree =>
    have hi8 : i < 8 := BitVec.lt_of_getLsbD hfree
    obtain ⟨hlim, hnew⟩ := (h.avail i hi8).mp hfree
    obtain ⟨hn, hav, hb⟩ := Ar.taken
      (t := { interfaceAdd mac s type i nwType with numVif := s.numVif + 1 }) rfl h.nodup
      (fun k hk _ => h.avail k hk) h.below hlim hnew rfl
    refine ⟨hn, hav, hb, ?_, ?_, ?_⟩
    · have hlen := h.numVif
      have hle : (s.vifList.length : Nat) + 1 ≤ 8 := by
        have hw : Within (List.range c.limit)
            (Ar.idxs { interfaceAdd mac s type i nwType with numVif := s.numVif + 1 }) :=
          ⟨hn, fun k hk => List.mem_range.mpr (hb k hk)⟩
        have hle := hw.length_le
        have hlim8 := c.limit_le
        rw [List.length_range, Ar.length_idxs] at hle
        simp only [interfaceAdd, List.length_append, List.length_singleton] at hle
        omega
      have h1 : (1:UInt8).toNat = 1 := rfl
      simp only [interfaceAdd, List.length_append, List.length_singleton, UInt8.toNat_add]
      omega
    · intro v hv
      rcases List.mem_append.mp hv with hv | hv
      · exact h.addr v hv
      · rw [List.mem_singleton.mp hv]
    · intro v hv hp
      rcases List.mem_append.mp hv with hv | hv
      · exact h.p2p v hv hp
      · rw [List.mem_singleton.mp hv] at hp ⊢
        exact c.norm_le_of_mem_candidates hcand hp

theorem Inv.step (h : Inv c mac s) (e : Event) : Inv c mac (step c mac s e) := by
  cases e with
  | add x type => exact h.enter (added c mac s x type)
  | del x n =>
    simp only [InterfaceTable.step, delIface]
    split
    · exact h
    · cases hv : s.vifList[n]? with
      | none => exact h
      | some v => exact h.leave hv rfl rfl rfl
  | change sem n type =>
    obtain ⟨f, hf, he⟩ := changeIface_modify s sem n type
    simp only [InterfaceTable.step, he]
    exact h.modify hf n
  | start n => exact h.modify start_modesOnly n

theorem Inv.addresses (h : Inv c mac s) :
    (s.vifList.map Vif.devAddr).Nodup ↔ ¬ ((mac 0).getLsbD 1 = true ∧ 0∈s.idxs ∧ 1∈s.idxs) := by
  have hmap : s.vifList.map Vif.devAddr = s.idxs.map (devAddr mac) := by
    rw [Ar.idxs, List.map_map]
    exact List.map_congr_left h.addr
  have hlt : ∀ i∈s.idxs, i < 8 := fun i hi => Nat.lt_of_lt_of_le (h.below i hi) c.limit_le
  rw [hmap, List.nodup_map_iff_inj_on h.nodup]
  constructor
  · rintro hinj ⟨hb, h0, h1⟩
    have heq : devAddr mac 0 = devAddr mac 1 :=
      (devAddr_eq_iff (by decide) (by decide)).mpr ⟨hb, rfl, rfl⟩
    exact absurd (hinj 0 h0 1 h1 heq) (by decide)
  · intro hno i hi j hj heq
    rcases Nat.lt_trichotomy i j with hij | hij | hij
    · obtain ⟨hb, rfl, rfl⟩ := (devAddr_eq_iff (hlt j hj) hij).mp heq
      exact absurd ⟨hb, hi, hj⟩ hno
    · exact hij
    · obtain ⟨hb, rfl, rfl⟩ := (devAddr_eq_iff (hlt i hi) hij).mp heq.symm
      exact absurd ⟨hb, hj, hi⟩ hno

theorem Config.candidates_other : c.candidates .other = [] := by
  simp [Config.candidates]

/-- What it takes to get an interface. The first one is not in the count. -/
theorem Inv.adds_iff (h : Inv c mac s) (x : Env) (type : IfType) :
    (addIface c mac s x type).vifList.length = s.vifList.length + 1 ↔
      (x.ready = true ∧ x.sem = true ∧ x.mem = true) ∧ s.vifList.length ≠ c.vifMax + 1 ∧
        s.ibssIfActive = false ∧ (type = .adhoc → s.vifList.length = 1) ∧
        ∃ i∈c.candidates type, i < c.limit ∧ i∉s.idxs := by
  have hlen := h.numVif
  have hlt := s.numVif.toNat_lt
  have hone : s.numVif = 0 ↔ s.vifList.length = 1 := by
    rw [← UInt8.toNat_inj]
    have h0 : (0:UInt8).toNat = 0 := rfl
    omega
  have hcount : s.numVif.toNat = c.vifMax ↔ s.vifList.length = c.vifMax + 1 := by
    have hmax : c.vifMax ≤ 8 := c.vifMax_le
    have hle := h.length_le
    have hlim := c.limit_le
    omega
  constructor
  · intro hgrow
    have ha := added c mac s x type
    generalize addIface c mac s x type = t at ha hgrow
    cases ha with
    | refused => omega
    | added i nwType hx hfull hmode hibss hadhoc hcand hfree =>
      have hi8 : i < 8 := BitVec.lt_of_getLsbD hfree
      exact ⟨hx, fun hf => hfull (hcount.mpr hf), hibss, fun ht => hone.mp (hadhoc ht), i, hcand,
        (h.avail i hi8).mp hfree⟩
  · rintro ⟨⟨hr, hs, hm⟩, hfull, hibss, hadhoc, i, hcand, hlim, hfree⟩
    have hbit : s.availIdxMap.getLsbD i = true :=
      (h.avail i (Nat.lt_of_lt_of_le hlim c.limit_le)).mpr ⟨hlim, hfree⟩
    have hmode : ∃ nwType, nliftypeToDrvIftype type = some nwType := by
      cases type with
      | other =>
        rw [Config.candidates_other] at hcand
        cases hcand
      | _ => exact ⟨_, rfl⟩
    obtain ⟨nwType, hmode⟩ := hmode
    have hfind : ((c.candidates type).find? fun k => s.availIdxMap.getLsbD k).isSome := by
      rw [List.find?_isSome]
      exact ⟨i, hcand, hbit⟩
    obtain ⟨k, hk⟩ := Option.isSome_iff_exists.mp hfind
    have hv := isValidIftype_eq_some.mpr ⟨hmode, hibss, fun ht => hone.mpr (hadhoc ht), hk⟩
    rw [addIface, if_neg (by simp [hr, hs]), if_neg (fun hf => hfull (hcount.mp hf)), hv]
    simp [hm, interfaceAdd]

/-- In every run the interfaces have indices of their own, and the map of indices and the count tell
of them; but two of them can have one address. -/
theorem table_sound (m : Params) (mac : Mac) (es : List Event) :
    let c := m.config
    let s := run (step c mac) (boot c mac) es
    s.idxs.Nodup ∧
    (∀ i < 8, s.availIdxMap.getLsbD i = true ↔ i < c.limit ∧ i∉s.idxs) ∧
    (s.numVif.toNat + 1) % 256 = s.vifList.length ∧
    (∀ v∈s.vifList, v.addedAs = .p2pClient ∨ v.addedAs = .p2pGo → c.maxNormIface ≤ v.fwVifIdx) ∧
    ((s.vifList.map Vif.devAddr).Nodup ↔
      ¬ ((mac 0).getLsbD 1 = true ∧ 0∈s.idxs ∧ 1∈s.idxs)) ∧
    ∀ x type, (addIface c mac s x type).vifList.length = s.vifList.length + 1 ↔
      (x.ready = true ∧ x.sem = true ∧ x.mem = true) ∧ s.vifList.length ≠ c.vifMax + 1 ∧
        s.ibssIfActive = false ∧ (type = .adhoc → s.vifList.length = 1) ∧
        ∃ i∈c.candidates type, i < c.limit ∧ i∉s.idxs := by
  intro c s
  have h : Inv c mac s := run_invariant (fun _ e h => h.step e) (inv_boot c mac) es
  exact ⟨h.nodup, h.avail, h.numVif, h.p2p, h.addresses, h.adds_iff⟩

def Ar.types (s : Ar) : List IfType := s.vifList.map Vif.addedAs

/-- The driver knows whether an ad-hoc interface is there. -/
def Ar.Tells (s : Ar) : Prop := s.ibssIfActive = true ↔ .adhoc∈s.types

/-- An interface that was added as ad-hoc leaves as one; another leaves as one only where there is
none. -/
def Told (s : Ar) : Event → Prop
  | .del x n => x.ready = true → x.sem = true → ∀ v, s.vifList[n]? = some v →
      if v.addedAs = .adhoc then v.nwType = .adhoc else v.nwType = .adhoc → .adhoc∉s.types
  | _ => True

/-- The flag is right, and it admits one ad-hoc interface. -/
structure OneIbss (s : Ar) : Prop where
  tells : s.Tells
  once : s.types.count .adhoc ≤ 1

theorem oneIbss_boot (c : Config) (mac : Mac) : OneIbss (boot c mac) := by
  refine ⟨?_, Nat.zero_le 1⟩
  simp [Ar.Tells, Ar.types, boot, interfaceAdd]

theorem OneIbss.enter (h : OneIbss s) {x : Env} {type : IfType} {t : Ar}
    (ha : Added c mac s x type t) : OneIbss t := by
  cases ha with
  | refused => exact h
  | added i nwType hx hfull hmode hibss hadhoc hcand hfree =>
    have hnone : .adhoc∉s.types := fun hm => by
      have hact := h.tells.mpr hm
      simp [hibss] at hact
    have hz : s.types.count .adhoc = 0 := List.count_eq_zero.mpr hnone
    have ht : Ar.types { interfaceAdd mac s type i nwType with numVif := s.numVif + 1 } =
        s.types ++ [type] := by
      simp [Ar.types, interfaceAdd]
    constructor
    · rw [Ar.Tells, ht]
      by_cases hty : type = .adhoc
      · simp [interfaceAdd, hty]
      · have hty' : ¬ IfType.adhoc = type := fun he => hty he.symm
        simp [interfaceAdd, hty, hty', hibss, hnone]
    · rw [ht, List.count_append, hz, Nat.zero_add]
      exact List.count_le_length

theorem OneIbss.modify (h : OneIbss s) {f : Vif → Vif} (hf : ModesOnly f) (n : Nat) :
    OneIbss { s with vifList := s.vifList.modify n f } := by
  have ht : Ar.types { s with vifList := s.vifList.modify n f } = s.types :=
    map_modify hf.addedAs _ n
  refine ⟨?_, ht ▸ h.once⟩
  rw [Ar.Tells, ht]
  exact h.tells

theorem OneIbss.leave (h : OneIbss s) {n : Nat} {v : Vif} (hv : s.vifList[n]? = some v) {t : Ar}
    (hl : t.vifList = s.vifList.eraseIdx n)
    (hi : t.ibssIfActive = if v.nwType = .adhoc then false else s.ibssIfActive) :
    t.types.count .adhoc ≤ 1 ∧
      (t.Tells ↔
        if v.addedAs = .adhoc then v.nwType = .adhoc
        else v.nwType = .adhoc → .adhoc∉s.types) := by
  obtain ⟨hlt, hget⟩ := List.getElem?_eq_some_iff.mp hv
  have hs : s.types = (s.vifList.take n).map Vif.addedAs ++
      v.addedAs :: (s.vifList.drop (n+1)).map Vif.addedAs := by
    rw [← List.map_cons, ← List.map_append, ← hget, List.getElem_cons_drop, List.take_append_drop]
    rfl
  have ht : t.types =
      (s.vifList.take n).map Vif.addedAs ++ (s.vifList.drop (n+1)).map Vif.addedAs := by
    rw [Ar.types, hl, List.eraseIdx_eq_take_drop_succ, List.map_append]
  have hperm : s.types.Perm (v.addedAs :: t.types) := by
    rw [hs, ht]
    exact List.perm_middle
  have hcount := hperm.count_eq .adhoc
  have hmem : .adhoc∈s.types ↔ .adhoc = v.addedAs ∨ .adhoc∈t.types := by
    rw [hperm.mem_iff, List.mem_cons]
  have honce := h.once
  have htells := h.tells
  rw [Ar.Tells] at htells ⊢
  rw [hi]
  by_cases ha : v.addedAs = .adhoc
  · rw [ha, List.count_cons_self] at hcount
    have hz : .adhoc∉t.types := List.count_eq_zero.mp (by omega)
    have hact : s.ibssIfActive = true := htells.mpr (hmem.mpr (Or.inl ha.symm))
    refine ⟨by omega, ?_⟩
    by_cases hn : v.nwType = .adhoc
    · simp [ha, hn, hz]
    · simp [ha, hn, hz, hact]
  · rw [List.count_cons_of_ne (fun he => ha he)] at hcount
    have ha' : ¬ IfType.adhoc = v.addedAs := fun he => ha he.symm
    rw [or_iff_right ha'] at hmem
    refine ⟨by omega, ?_⟩
    by_cases hn : v.nwType = .adhoc
    · simp [ha, hn, hmem]
    · simp [ha, hn, htells, hmem]

theorem OneIbss.step (h : OneIbss s) (e : Event) :
    (Told s e → OneIbss (step c mac s e)) ∧ ((step c mac s e).Tells → Told s e) := by
  cases e with
  | add x type => exact ⟨fun _ => h.enter (added c mac s x type), fun _ => trivial⟩
  | del x n =>
    simp only [InterfaceTable.step, delIface, Told]
    by_cases hx : x.ready = false ∨ x.sem = false
    · rw [if_pos hx]
      refine ⟨fun _ => h, fun _ hr hs => ?_⟩
      simp [hr, hs] at hx
    rw [if_neg hx]
    simp only [not_or, Bool.not_eq_false] at hx
    cases hv : s.vifList[n]? with
    | none => exact ⟨fun _ => h, fun _ _ _ v hv => (by cases hv)⟩
    | some v =>
      obtain ⟨hone, htells⟩ :=
        h.leave hv (t := deinitIfData { s with vifList := s.vifList.eraseIdx n } v) rfl rfl
      constructor
      · intro htold
        exact ⟨htells.mpr (htold hx.1 hx.2 v rfl), hone⟩
      · intro ht _ _ w hw
        cases hw
        exact htells.mp ht
  | change sem n type =>
    obtain ⟨f, hf, he⟩ := changeIface_modify s sem n type
    simp only [InterfaceTable.step, he]
    exact ⟨fun _ => h.modify hf n, fun _ => trivial⟩
  | start n => exact ⟨fun _ => h.modify start_modesOnly n, fun _ => trivial⟩

/-- No interface leaves in ad-hoc mode. -/
def NoneLeaves (s : Ar) : Event → Prop
  | .del x n => x.ready = true → x.sem = true → ∀ v, s.vifList[n]? = some v → v.nwType ≠ .adhoc
  | _ => True

/-- The flag stays set, and a request for an interface changes nothing. -/
def Shut (c : Config) (mac : Mac) (s : Ar) (e : Event) : Prop :=
  (step c mac s e).ibssIfActive = true ∧ ∀ x type, e = .add x type → step c mac s e = s

theorem shut (hs : s.ibssIfActive = true) (e : Event) (hn : NoneLeaves s e) : Shut c mac s e := by
  cases e with
  | add x type =>
    have hsame : step c mac s (.add x type) = s := by
      have ha := added c mac s x type
      simp only [step]
      generalize addIface c mac s x type = t at ha
      cases ha with
      | refused => rfl
      | added i nwType hx hfull hmode hibss hadhoc hcand hfree =>
        rw [hs] at hibss
        cases hibss
    exact ⟨by rw [hsame]; exact hs, fun _ _ _ => hsame⟩
  | del x n =>
    refine ⟨?_, fun _ _ he => (by cases he)⟩
    simp only [step, delIface]
    split
    · exact hs
    · rename_i hx
      simp only [not_or, Bool.not_eq_false] at hx
      cases hv : s.vifList[n]? with
      | none => exact hs
      | some v => simp only [deinitIfData, if_neg (hn hx.1 hx.2 v hv), hs]
  | change sem n type =>
    obtain ⟨f, hf, he⟩ := changeIface_modify s sem n type
    refine ⟨?_, fun _ _ he => (by cases he)⟩
    simp only [step, he]
    exact hs
  | start n => exact ⟨hs, fun _ _ he => (by cases he)⟩

/-- In every run the driver knows of its ad-hoc interface as long as interfaces leave in the mode
they were added in; once it takes one for there that is not, it adds no interface until one leaves
in ad-hoc mode. -/
theorem ibss_told (m : Params) (mac : Mac) (es : List Event) :
    let c := m.config
    ((∀ u, u <+: es → (run (step c mac) (boot c mac) u).Tells) ↔
      AllSteps (step c mac) Told (boot c mac) es) ∧
    ∀ fs, (run (step c mac) (boot c mac) es).ibssIfActive = true →
      AllSteps (step c mac) NoneLeaves (run (step c mac) (boot c mac) es) fs →
      AllSteps (step c mac) (Shut c mac) (run (step c mac) (boot c mac) es) fs := by
  intro c
  constructor
  · exact prefix_iff_allSteps (I := OneIbss) (fun _ h => h.tells) (fun _ e h => (h.step e).1)
      (fun _ e h => (h.step e).2) (oneIbss_boot c mac) es
  · intro fs hact hn
    exact allSteps_of_invariant (I := fun t => t.ibssIfActive = true)
      (fun t e ht hne => (shut ht e hne).1) (fun t e ht hne => shut ht e hne) hact hn

end Ath6kl.InterfaceTable
