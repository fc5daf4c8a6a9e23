import Ath6kl.Lib.Machine
import Mathlib.Data.List.FinRange
import Mathlib.Data.List.Induction
import Mathlib.Data.List.Perm.Subperm
import Mathlib.Logic.Function.Basic

/-! The access-control list of an access point (ap.c, and `_ath6kl_acl_config` of cfg80211.c)
beside the table that the target keeps. The commands reach the target in the order in which they
are sent. -/
namespace Ath6kl.ApAcl
open Lib.Machine

/-- `ATH6KL_AP_ACL_MAX_NUM`, and `AP_ACL_SIZE` of the target. -/
abbrev apAclMaxNum : Nat := 10

abbrev Slot := Fin apAclMaxNum

abbrev Mac := BitVec 48

/-- `enum ap_acl_mode`. -/
inductive AclMode
  | disable
  | allow
  | deny
deriving DecidableEq

/-- `AP_ACL_DISABLE`, `AP_ACL_ALLOW_MAC`, `AP_ACL_DENY_MAC`. -/
def AclMode.policy : AclMode → UInt8
  | .disable => 0x00
  | .allow => 0x01
  | .deny => 0x02

def apAclRetainListMask : UInt8 := 0x80

/-- `struct ap_acl_entry`; `used` is `ATH6KL_AP_ACL_FLAGS_USED`. -/
structure Entry where
  used : Bool := false
  macAddr : Mac := 0

def Entry.listed (e : Entry) : Option Mac := if e.used then some e.macAddr else none

/-- `WMI_AP_ACL_POLICY_CMDID`, and `WMI_AP_ACL_MAC_LIST_CMDID` with its two actions. -/
inductive Cmd
  | policy (policy : UInt8)
  | addMacAddr (index : Slot) (mac : Mac)
  | delMacAddr (index : Slot) (mac : Mac)

abbrev Table := Slot → Option Mac

/-- What the target does: without the retain bit, a policy command empties the table. -/
def Table.apply (t : Table) : Cmd → Table
  | .policy policy => if policy &&& apAclRetainListMask = 0 then fun _ => none else t
  | .addMacAddr i m => Function.update t i (some m)
  | .delMacAddr i _ => Function.update t i none

/-- `struct ap_acl_info` and the target. -/
structure Acl where
  aclMode : AclMode := .disable
  aclList : Slot → Entry := fun _ => {}
  table : Table

namespace Acl
variable (s : Acl)

def send (c : Cmd) : Acl := { s with table := s.table.apply c }

/-- One turn of the loop of `ath6kl_ap_acl_config_policy`. -/
def sendUsed (i : Slot) : Acl :=
  if (s.aclList i).used then s.send (.addMacAddr i (s.aclList i).macAddr) else s

/-- `ath6kl_ap_acl_config_policy`. -/
def configPolicy (mode : AclMode) : Acl :=
  let s := { s with aclMode := mode }.send (.policy mode.policy)
  if s.aclMode ≠ .disable then (List.finRange apAclMaxNum).foldl sendUsed s else s

/-- The loop of `ath6kl_ap_acl_config_mac_list`: the slot of the address, and the first one that
is not used among those before it. -/
def search (l : Slot → Entry) (mac : Mac) : List Slot → Option Slot → Option Slot × Option Slot
  | [], firstNotUsed => (none, firstNotUsed)
  | i::is, firstNotUsed =>
    if (l i).used then
      if (l i).macAddr = mac then (some i, firstNotUsed) else search l mac is firstNotUsed
    else search l mac is (firstNotUsed.or (some i))

/-- The command is sent unless the list is disabled. -/
def sendEnabled (c : Cmd) : Acl := if s.aclMode ≠ .disable then s.send c else s

/-- `ath6kl_ap_acl_config_mac_list` with `removed`. -/
def delMac (mac : Mac) : Acl :=
  match (search s.aclList mac (List.finRange apAclMaxNum) none).1 with
  | none => s
  | some i =>
    { s with
      aclList := Function.update s.aclList i { s.aclList i with used := false } }.sendEnabled
        (.delMacAddr i (s.aclList i).macAddr)

/-- `ath6kl_ap_acl_config_mac_list` without `removed`. -/
def addMac (mac : Mac) : Acl :=
  match search s.aclList mac (List.finRange apAclMaxNum) none with
  | (some _, _) => s
  | (none, none) => s
  | (none, some i) =>
    { s with
      aclList := Function.update s.aclList i { used := true, macAddr := mac } }.sendEnabled
        (.addMacAddr i mac)

def configMacList (mac : Mac) (removed : Bool) : Acl :=
  if removed then s.delMac mac else s.addMac mac

/-- One turn of the loop of `ath6kl_ap_acl_config_mac_list_reset`. -/
def resetSlot (i : Slot) : Acl :=
  if (s.aclList i).used then s.configMacList (s.aclList i).macAddr true else s

/-- `ath6kl_ap_acl_config_mac_list_reset`. -/
def configMacListReset : Acl := (List.finRange apAclMaxNum).foldl resetSlot s

/-- `ath6kl_ap_acl_stop`. -/
def stop : Acl := s.configMacListReset.configPolicy .disable

end Acl

/-- `enum nl80211_acl_policy`, with whatever else the field may hold. -/
inductive NlPolicy
  | acceptUnlessListed
  | denyUnlessListed
  | other

/-- The mode that `_ath6kl_acl_config` turns on. -/
def nlMode (policy : NlPolicy) (macAddrs : List Mac) : AclMode :=
  if macAddrs.isEmpty then .disable
  else
    match policy with
    | .acceptUnlessListed => .allow
    | .denyUnlessListed => .deny
    | .other => .disable

/-- `_ath6kl_acl_config`: addresses beyond `AP_ACL_SIZE` are ignored. -/
def Acl.aclConfig (s : Acl) (policy : NlPolicy) (macAddrs : List Mac) : Acl :=
  let s := (s.configMacListReset.configPolicy .disable).configPolicy (nlMode policy macAddrs)
  (macAddrs.take apAclMaxNum).foldl (fun s mac => s.configMacList mac false) s

inductive Event
  | configPolicy (mode : AclMode)
  | configMacList (mac : Mac) (removed : Bool)
  | reset
  | stop
  | aclConfig (policy : NlPolicy) (macAddrs : List Mac)

def Acl.handle (s : Acl) : Event → Acl
  | .configPolicy mode => s.configPolicy mode
  | .configMacList mac removed => s.configMacList mac removed
  | .reset => s.configMacListReset
  | .stop => s.stop
  | .aclConfig policy macAddrs => s.aclConfig policy macAddrs

/-- The list and what was asked of it: the addresses with an add that found a free slot, and no
remove since. -/
structure State where
  acl : Acl
  asked : Mac → Bool := fun _ => false

def Acl.slotFree (s : Acl) : Bool := (List.finRange apAclMaxNum).any fun i => !(s.aclList i).used

/-- What is asked for after a request. An empty list has room for `AP_ACL_SIZE` addresses. -/
def State.askedAfter (s : State) : Event → Mac → Bool
  | .configPolicy _ => s.asked
  | .configMacList mac true => Function.update s.asked mac false
  | .configMacList mac false => Function.update s.asked mac (s.asked mac || s.acl.slotFree)
  | .reset => fun _ => false
  | .stop => fun _ => false
  | .aclConfig _ macAddrs => fun mac => decide (mac∈macAddrs.take apAclMaxNum)

def step (s : State) (e : Event) : State := ⟨s.acl.handle e, s.askedAfter e⟩

/-- Some slot lists the address. -/
def Acl.Lists (s : Acl) (mac : Mac) : Prop := ∃ i, (s.aclList i).listed = some mac

/-- While the list is enabled the target has what the host has, and no address is listed
twice. -/
structure Mirrored (s : Acl) : Prop where
  mirror : s.aclMode ≠ .disable → ∀ i, s.table i = (s.aclList i).listed
  once : ∀ i j m, (s.aclList i).listed = some m → (s.aclList j).listed = some m → i = j

/-- In addition, the list has what was asked for and nothing else. -/
structure Sound (s : State) : Prop where
  mirrored : Mirrored s.acl
  kept : ∀ mac, s.asked mac = true ↔ s.acl.Lists mac

section Search
variable {l : Slot → Entry} {mac : Mac}

theorem listed_eq_some {e : Entry} {m : Mac} :
    e.listed = some m ↔ e.used = true ∧ e.macAddr = m := by
  by_cases hu : e.used = true <;> simp [Entry.listed, hu]

theorem search_found (is : List Slot) {free : Option Slot} {i : Slot}
    (h : (Acl.search l mac is free).1 = some i) : (l i).listed = some mac := by
  induction is generalizing free with
  | nil => simp [Acl.search] at h
  | cons j is ih =>
    by_cases hu : (l j).used = true
    · by_cases hm : (l j).macAddr = mac
      · have hij : j = i := by simpa [Acl.search, hu, hm] using h
        rw [← hij, listed_eq_some]
        exact ⟨hu, hm⟩
      · exact ih (by simpa [Acl.search, hu, hm] using h)
    · exact ih (by simpa [Acl.search, hu] using h)

theorem search_absent {is : List Slot} {free : Option Slot}
    (h : (Acl.search l mac is free).1 = none) : ∀ i∈is, (l i).listed ≠ some mac := by
  induction is generalizing free with
  | nil => simp
  | cons j is ih =>
    by_cases hu : (l j).used = true
    · by_cases hm : (l j).macAddr = mac
      · simp [Acl.search, hu, hm] at h
      · have hj : (l j).listed ≠ some mac := by simp [Entry.listed, hu, hm]
        exact List.forall_mem_cons.mpr ⟨hj, ih (by simpa [Acl.search, hu, hm] using h)⟩
    · have hj : (l j).listed ≠ some mac := by simp [Entry.listed, hu]
      exact List.forall_mem_cons.mpr ⟨hj, ih (by simpa [Acl.search, hu] using h)⟩

theorem search_free (l : Slot → Entry) (mac : Mac) (is : List Slot) (free : Option Slot)
    (h : (Acl.search l mac is free).1 = none) :
    (Acl.search l mac is free).2 = free.or (is.find? fun i => !(l i).used) := by
  induction is generalizing free with
  | nil => simp [Acl.search]
  | cons j is ih =>
    by_cases hu : (l j).used = true
    · by_cases hm : (l j).macAddr = mac
      · simp [Acl.search, hu, hm] at h
      · have hrest : (Acl.search l mac is free).1 = none := by
          simpa [Acl.search, hu, hm] using h
        simp [Acl.search, hu, hm, ih _ hrest]
    · have hrest : (Acl.search l mac is (free.or (some j))).1 = none := by
        simpa [Acl.search, hu] using h
      have hfree := ih _ hrest
      cases free <;> simpa [Acl.search, hu] using hfree

end Search

theorem search_finRange {l : Slot → Entry} {mac : Mac}
    (h : (Acl.search l mac (List.finRange apAclMaxNum) none).1 = none) (i : Slot) :
    (l i).listed ≠ some mac :=
  search_absent h i (List.mem_finRange i)

section Policy
variable {s : Acl}

theorem foldl_sendUsed (s : Acl) (is : List Slot) :
    is.foldl Acl.sendUsed s = { s with
      table := fun j => if j∈is ∧ (s.aclList j).used then some (s.aclList j).macAddr
        else s.table j } := by
  induction is generalizing s with
  | nil => simp
  | cons i is ih =>
    rw [List.foldl_cons, ih]
    by_cases hu : (s.aclList i).used = true
    · simp only [Acl.sendUsed, hu, if_true, Acl.send, Table.apply]
      congr 1
      funext j
      by_cases hj : j = i
      · subst hj
        simp [hu]
      · simp [hj, Function.update_of_ne]
    · simp only [Acl.sendUsed, hu]
      congr 1
      funext j
      by_cases hj : j = i
      · subst hj
        simp [hu]
      · simp [hj]

theorem policy_empties (mode : AclMode) (t : Table) :
    t.apply (.policy mode.policy) = fun _ => none := by
  cases mode <;> rfl

theorem configPolicy_eq (s : Acl) (mode : AclMode) :
    s.configPolicy mode = { s with
      aclMode := mode
      table := if mode ≠ .disable then fun i => (s.aclList i).listed else fun _ => none } := by
  simp only [Acl.configPolicy, Acl.send, policy_empties]
  by_cases hm : mode = .disable
  · simp [hm]
  · simp only [ne_eq, hm, not_false_eq_true, if_true, foldl_sendUsed]
    congr 1
    funext i
    simp [Entry.listed]

theorem Mirrored.configPolicy (h : Mirrored s) (mode : AclMode) :
    Mirrored (s.configPolicy mode) := by
  rw [configPolicy_eq]
  refine ⟨fun hm i => ?_, h.once⟩
  have hmode : mode ≠ .disable := hm
  simp [hmode]

@[simp] theorem lists_configPolicy (mode : AclMode) (m : Mac) :
    (s.configPolicy mode).Lists m ↔ s.Lists m := by
  rw [configPolicy_eq]
  exact Iff.rfl

end Policy

section MacList
variable {s : Acl} {mac m : Mac} {i : Slot} {e : Entry}

theorem listed_update_of_ne {l : Slot → Entry} {j : Slot} (hj : j ≠ i) :
    (Function.update l i e j).listed = (l j).listed := by
  rw [Function.update_of_ne hj]

theorem aclList_sendEnabled (l : Slot → Entry) (c : Cmd) :
    ({ s with aclList := l }.sendEnabled c).aclList = l := by
  unfold Acl.sendEnabled
  split <;> rfl

theorem Mirrored.update (h : Mirrored s) {c : Cmd}
    (hc : ∀ t : Table, t.apply c = Function.update t i e.listed)
    (hnew : ∀ m, e.listed = some m → ∀ j, j ≠ i → (s.aclList j).listed ≠ some m) :
    Mirrored ({ s with aclList := Function.update s.aclList i e }.sendEnabled c) where
  mirror := by
    by_cases hm : s.aclMode = .disable
    · simp [Acl.sendEnabled, hm]
    · simp only [Acl.sendEnabled, ne_eq, hm, not_false_eq_true, if_true, Acl.send, hc]
      intro _ j
      by_cases hj : j = i
      · subst hj
        simp
      · simp [Function.update_of_ne hj, h.mirror hm j]
  once := by
    rw [aclList_sendEnabled]
    intro j k m hj hk
    by_cases hji : j = i
    · subst hji
      rw [Function.update_self] at hj
      by_contra hne
      rw [listed_update_of_ne (Ne.symm hne)] at hk
      exact hnew m hj k (Ne.symm hne) hk
    · rw [listed_update_of_ne hji] at hj
      by_cases hki : k = i
      · subst hki
        rw [Function.update_self] at hk
        exact absurd hj (hnew m hk j hji)
      · rw [listed_update_of_ne hki] at hk
        exact h.once j k m hj hk

theorem lists_update (c : Cmd) :
    ({ s with aclList := Function.update s.aclList i e }.sendEnabled c).Lists m ↔
      e.listed = some m ∨ ∃ j, j ≠ i ∧ (s.aclList j).listed = some m := by
  unfold Acl.Lists
  rw [aclList_sendEnabled]
  constructor
  · intro h
    obtain ⟨j, hj⟩ := h
    by_cases hji : j = i
    · subst hji
      exact .inl (by simpa using hj)
    · exact .inr ⟨j, hji, by rwa [listed_update_of_ne hji] at hj⟩
  · intro h
    cases h with
    | inl he => exact ⟨i, by simpa using he⟩
    | inr hj =>
      obtain ⟨j, hji, hj⟩ := hj
      exact ⟨j, by rwa [listed_update_of_ne hji]⟩

theorem lists_search : s.Lists mac ↔
    (Acl.search s.aclList mac (List.finRange apAclMaxNum) none).1 ≠ none := by
  constructor
  · intro h
    obtain ⟨i, hi⟩ := h
    intro hnone
    exact search_finRange hnone i hi
  · intro h
    obtain ⟨i, hi⟩ := Option.ne_none_iff_exists'.mp h
    exact ⟨i, search_found _ hi⟩

theorem delMac_spec (h : Mirrored s) (mac : Mac) : Mirrored (s.delMac mac) ∧
    (∀ m, (s.delMac mac).Lists m ↔ s.Lists m ∧ m ≠ mac) ∧
    ∀ i, ((s.delMac mac).aclList i).used = true → (s.delMac mac).aclList i = s.aclList i := by
  simp only [Acl.delMac]
  cases hi : (Acl.search s.aclList mac (List.finRange apAclMaxNum) none).1 with
  | none =>
    have habsent : ¬s.Lists mac := fun hl => lists_search.mp hl hi
    refine ⟨h, fun m => ⟨fun hm => ⟨hm, ?_⟩, fun hm => hm.1⟩, fun _ _ => rfl⟩
    intro he
    exact habsent (he ▸ hm)
  | some i =>
    have hlisted : (s.aclList i).listed = some mac := search_found _ hi
    have hnone : ({ s.aclList i with used := false } : Entry).listed = none := by
      simp [Entry.listed]
    refine ⟨h.update (fun t => by rw [hnone]; rfl) fun m hm => by simp [hnone] at hm, ?_, ?_⟩
    · intro m
      rw [lists_update, hnone]
      constructor
      · intro hm
        obtain hm | ⟨j, hji, hj⟩ := hm
        · cases hm
        · refine ⟨⟨j, hj⟩, fun he => ?_⟩
          exact hji (h.once j i mac (he ▸ hj) hlisted)
      · intro hm
        obtain ⟨⟨j, hj⟩, hne⟩ := hm
        refine .inr ⟨j, fun hji => hne ?_, hj⟩
        rw [hji, hlisted] at hj
        exact (Option.some.inj hj).symm
    · intro j
      rw [aclList_sendEnabled]
      intro hj
      by_cases hji : j = i
      · subst hji
        simp at hj
      · rw [Function.update_of_ne hji]

theorem addMac_spec (h : Mirrored s) (mac : Mac) : Mirrored (s.addMac mac) ∧
    ∀ m, (s.addMac mac).Lists m ↔ s.Lists m ∨ m = mac ∧ s.slotFree = true := by
  have hfree := search_free s.aclList mac (List.finRange apAclMaxNum) none
  have hsame : s.Lists mac ∨ s.slotFree = false →
      ∀ m, s.Lists m ↔ s.Lists m ∨ m = mac ∧ s.slotFree = true := by
    intro hor m
    refine ⟨.inl, fun hm => ?_⟩
    obtain hm | ⟨he, hs⟩ := hm
    · exact hm
    · cases hor with
      | inl hl => exact he ▸ hl
      | inr hn => cases hn.symm.trans hs
  simp only [Acl.addMac]
  rcases hsearch : Acl.search s.aclList mac (List.finRange apAclMaxNum) none with ⟨found, free⟩
  rw [hsearch] at hfree
  cases found with
  | some i =>
    -- the address is listed already
    exact ⟨h, hsame (.inl (lists_search.mpr (by simp [hsearch])))⟩
  | none =>
    have habsent : ∀ i, (s.aclList i).listed ≠ some mac :=
      search_finRange (by rw [hsearch])
    have hfirst : free = (List.finRange apAclMaxNum).find? fun i => !(s.aclList i).used := by
      simpa using hfree rfl
    cases free with
    | none =>
      -- no slot is free
      exact ⟨h, hsame (.inr (by simpa [Acl.slotFree] using hfirst.symm))⟩
    | some i =>
      have hunused : (s.aclList i).used = false := by
        simpa using List.find?_some hfirst.symm
      have hslot : s.slotFree = true :=
        List.any_eq_true.mpr ⟨i, List.mem_finRange i, by simp [hunused]⟩
      have hnew : ({ used := true, macAddr := mac } : Entry).listed = some mac := by
        simp [Entry.listed]
      refine ⟨h.update (fun t => by rw [hnew]; rfl) fun m hm j _ => ?_, fun m => ?_⟩
      · have hmac : mac = m := by simpa [hnew] using hm
        exact hmac ▸ habsent j
      · rw [lists_update, hnew]
        constructor
        · intro hm
          obtain hm | ⟨j, -, hj⟩ := hm
          · exact .inr ⟨(Option.some.inj hm).symm, hslot⟩
          · exact .inl ⟨j, hj⟩
        · intro hm
          obtain ⟨j, hj⟩ | ⟨he, -⟩ := hm
          · refine .inr ⟨j, fun hji => ?_, hj⟩
            subst hji
            simp [Entry.listed, hunused] at hj
          · exact .inl (congrArg some he.symm)

theorem foldl_resetSlot (h : Mirrored s) (is : List Slot) :
    Mirrored (is.foldl Acl.resetSlot s) ∧
    ∀ i, i∈is ∨ (s.aclList i).used = false →
      ((is.foldl Acl.resetSlot s).aclList i).used = false := by
  induction is generalizing s with
  | nil => exact ⟨h, fun i hi => by simpa using hi⟩
  | cons j is ih =>
    obtain ⟨hmir, hlists, hsame⟩ := delMac_spec h (s.aclList j).macAddr
    have hunused : ∀ i, (s.aclList i).used = false →
        ((s.delMac (s.aclList j).macAddr).aclList i).used = false := by
      intro i hi
      by_contra hu
      rw [hsame i (by simpa using hu)] at hu
      exact hu hi
    have hturn : Mirrored (s.resetSlot j) ∧ ((s.resetSlot j).aclList j).used = false ∧
        ∀ i, (s.aclList i).used = false → ((s.resetSlot j).aclList i).used = false := by
      unfold Acl.resetSlot
      by_cases hu : (s.aclList j).used = true
      · rw [if_pos hu]
        refine ⟨hmir, ?_, hunused⟩
        by_contra hstill
        -- a slot that stays in use would list its old address
        have hslot := hsame j (Bool.eq_true_of_not_eq_false hstill)
        have hl : (s.delMac (s.aclList j).macAddr).Lists (s.aclList j).macAddr :=
          ⟨j, by rw [hslot]; exact listed_eq_some.mpr ⟨hu, rfl⟩⟩
        exact ((hlists _).mp hl).2 rfl
      · rw [if_neg hu]
        exact ⟨h, by simpa using hu, fun _ => id⟩
    obtain ⟨hm, hj, hrest⟩ := hturn
    obtain ⟨hm', hall⟩ := ih hm
    refine ⟨hm', fun i hi => hall i ?_⟩
    by_cases hij : i = j
    · exact .inr (hij ▸ hj)
    · cases hi with
      | inl hmem => exact .inl ((List.mem_cons.mp hmem).resolve_left hij)
      | inr hu => exact .inr (hrest i hu)

theorem reset_spec (h : Mirrored s) : Mirrored s.configMacListReset ∧
    ∀ i, (s.configMacListReset.aclList i).used = false := by
  obtain ⟨hm, hall⟩ := foldl_resetSlot h (List.finRange apAclMaxNum)
  exact ⟨hm, fun i => hall i (.inl (List.mem_finRange i))⟩

theorem lists_of_unused (h : ∀ i, (s.aclList i).used = false) (m : Mac) : ¬s.Lists m := by
  intro hl
  obtain ⟨i, hi⟩ := hl
  simp [Entry.listed, h i] at hi

theorem slotFree_of_lt (h : Mirrored s) {ms : List Mac} (hms : ∀ m, s.Lists m → m∈ms)
    (hlen : ms.length < apAclMaxNum) : s.slotFree = true := by
  by_contra hfull
  have hused : ∀ i, (s.aclList i).used = true := by
    simpa [Acl.slotFree] using hfull
  have hlisted : ∀ i, (s.aclList i).listed = some (s.aclList i).macAddr := fun i =>
    listed_eq_some.mpr ⟨hused i, rfl⟩
  have hinj : Function.Injective fun i => (s.aclList i).macAddr := fun i j hij =>
    h.once i j _ (hlisted i) ((hlisted j).trans (congrArg some hij.symm))
  have hnodup : ((List.finRange apAclMaxNum).map fun i => (s.aclList i).macAddr).Nodup :=
    (List.nodup_finRange apAclMaxNum).map hinj
  have hsub : ((List.finRange apAclMaxNum).map fun i => (s.aclList i).macAddr) ⊆ ms := by
    intro m hm
    obtain ⟨i, -, rfl⟩ := List.mem_map.mp hm
    exact hms _ ⟨i, hlisted i⟩
  have hle := (hnodup.subperm hsub).length_le
  rw [List.length_map, List.length_finRange] at hle
  omega

theorem foldl_addMac (h : Mirrored s) (hempty : ∀ m, ¬s.Lists m) (ms : List Mac)
    (hlen : ms.length ≤ apAclMaxNum) :
    Mirrored (ms.foldl Acl.addMac s) ∧ ∀ m, (ms.foldl Acl.addMac s).Lists m ↔ m∈ms := by
  induction ms using List.reverseRecOn with
  | nil => exact ⟨h, fun m => by simpa using hempty m⟩
  | append_singleton ms mac ih =>
    rw [List.length_append, List.length_singleton] at hlen
    obtain ⟨hm, hlists⟩ := ih (by omega)
    obtain ⟨hm', hlists'⟩ := addMac_spec hm mac
    have hfree := slotFree_of_lt hm (fun m => (hlists m).mp) (by omega)
    rw [List.foldl_append]
    refine ⟨hm', fun m => ?_⟩
    rw [List.foldl_cons, List.foldl_nil, hlists', hlists, List.mem_append, List.mem_singleton]
    exact or_congr_right (and_iff_left hfree)

theorem aclConfig_spec (h : Mirrored s) (policy : NlPolicy) (macAddrs : List Mac) :
    Mirrored (s.aclConfig policy macAddrs) ∧
    ∀ m, (s.aclConfig policy macAddrs).Lists m ↔ m∈macAddrs.take apAclMaxNum := by
  obtain ⟨hm, hunused⟩ := reset_spec h
  refine foldl_addMac ((hm.configPolicy .disable).configPolicy (nlMode policy macAddrs)) ?_
    (macAddrs.take apAclMaxNum) (List.length_take_le _ _)
  intro m hl
  exact lists_of_unused hunused m (by simpa using hl)

end MacList

theorem step_sound {s : State} (e : Event) (h : Sound s) : Sound (step s e) := by
  cases e with
  | configPolicy mode =>
    exact ⟨h.mirrored.configPolicy mode, fun m => (h.kept m).trans (lists_configPolicy mode m).symm⟩
  | configMacList mac removed =>
    cases removed with
    | true =>
      obtain ⟨hm, hlists, -⟩ := delMac_spec h.mirrored mac
      refine ⟨hm, fun m => ?_⟩
      by_cases he : m = mac
      · simp [step, State.askedAfter, Acl.handle, Acl.configMacList, hlists, he]
      · simp [step, State.askedAfter, Acl.handle, Acl.configMacList, hlists, he, h.kept]
    | false =>
      obtain ⟨hm, hlists⟩ := addMac_spec h.mirrored mac
      refine ⟨hm, fun m => ?_⟩
      by_cases he : m = mac
      · simp [step, State.askedAfter, Acl.handle, Acl.configMacList, hlists, he, h.kept]
      · simp [step, State.askedAfter, Acl.handle, Acl.configMacList, hlists, he, h.kept]
  | reset =>
    obtain ⟨hm, hunused⟩ := reset_spec h.mirrored
    exact ⟨hm, fun m => iff_of_false Bool.false_ne_true (lists_of_unused hunused m)⟩
  | stop =>
    obtain ⟨hm, hunused⟩ := reset_spec h.mirrored
    refine ⟨hm.configPolicy .disable, fun m => iff_of_false Bool.false_ne_true fun hl => ?_⟩
    exact lists_of_unused hunused m ((lists_configPolicy .disable m).mp hl)
  | aclConfig policy macAddrs =>
    obtain ⟨hm, hlists⟩ := aclConfig_spec h.mirrored policy macAddrs
    exact ⟨hm, fun m => decide_eq_true_iff.trans (hlists m).symm⟩

theorem init_sound (table : Table) : Sound { acl := { table := table } } where
  mirrored := ⟨fun hm => absurd rfl hm, by simp [Entry.listed]⟩
  kept m := iff_of_false Bool.false_ne_true (lists_of_unused (fun _ => rfl) m)

/-- Whatever the table held before and whatever is done to the list, the two tables agree while
the list is enabled, and the list has what was asked for. -/
theorem acl_mirrors (table : Table) (es : List Event) :
    Sound (run step { acl := { table := table } } es) :=
  run_invariant (fun _ e => step_sound e) (init_sound table) es

/-- A denied address after an allowed one was removed: both tables have it in slot 0. -/
theorem acl_mirrors_deny :
    let s := run step { acl := { table := fun _ => none } }
      [.configMacList 5 false, .configPolicy .allow, .configMacList 5 true, .configPolicy .deny,
        .configMacList 6 false]
    s.asked 6 = true ∧ (s.acl.aclList 0).listed = some 6 ∧ s.acl.table 0 = some 6 ∧
      s.acl.Lists 6 :=
  ⟨by decide, by decide, by decide,
    ((acl_mirrors (fun _ => none) [.configMacList 5 false, .configPolicy .allow,
      .configMacList 5 true, .configPolicy .deny, .configMacList 6 false]).kept 6).mp (by decide)⟩

end Ath6kl.ApAcl
