import Ath6kl.Lib.Element
import Ath6kl.P2pPs

/-! The elements that the driver gives to the target to put into its frames:
`ath6kl_wmi_set_appie_cmd` (wmi.c), and the strings that `ath6kl_set_probe_req_ies`,
`ath6kl_set_ap_probe_resp_ies` (cfg80211.c) and `ath6kl_p2p_ps_update_notif` (p2p.c) give it. -/
namespace Ath6kl.AppIe
open Lib.Element

/-- `enum wmi_mgmt_frame_type`, as far as it is used here. -/
inductive MgmtFrmType
  | beacon
  | probeReq
  | probeResp
deriving DecidableEq

/-- `struct wmi_set_appie_cmd`. -/
structure SetAppieCmd where
  mgmtFrmType : MgmtFrmType
  ieLen : UInt8
  ieInfo : List UInt8
deriving DecidableEq

/-- `ath6kl_wmi_set_appie_cmd`, whose length is a `u8`; `skb`: there is a buffer and the command is
sent. -/
def setAppieCmd (skb : Bool) (mgmtFrmType : MgmtFrmType) (ie : List UInt8) : Option SetAppieCmd :=
  if skb then
    let ieLen := UInt8.ofNat ie.length
    some { mgmtFrmType := mgmtFrmType, ieLen := ieLen, ieInfo := ie.take ieLen.toNat }
  else none

/-- A vendor specific element of the Wi-Fi Alliance and of this type. -/
def isWfaIe (type : UInt8) : List UInt8 → Bool
  | id::len::a::b::c::d::_ =>
    id == 0xdd && decide (4 ≤ len) && a == 0x50 && b == 0x6f && c == 0x9a && d == type
  | _ => false

/-- `ath6kl_is_p2p_ie`, `ath6kl_is_wfd_ie`. -/
def isP2pIe : List UInt8 → Bool := isWfaIe 0x09
def isWfdIe : List UInt8 → Bool := isWfaIe 0x0a

/-- The loop that copies the elements that are not removed to `buf`. -/
def filterLoop (removed : List UInt8 → Bool) : Nat → List UInt8 → List UInt8 → List UInt8
  | 0, _, buf => buf
  | fuel+1, id::len::rest, buf =>
    if len.toNat ≤ rest.length then
      let buf :=
        if removed (id::len::rest) then buf else buf ++ id::len::rest.take len.toNat
      filterLoop removed fuel (rest.drop len.toNat) buf
    else buf
  | _+1, _, buf => buf

/-- The filter and the command; `kmalloc`: the copy can be allocated. -/
def setFilteredIes (mgmtFrmType : MgmtFrmType) (removed : List UInt8 → Bool) (kmalloc skb : Bool)
    (ies : List UInt8) : Option SetAppieCmd :=
  if ies = [] then setAppieCmd skb mgmtFrmType []
  else if kmalloc then setAppieCmd skb mgmtFrmType (filterLoop removed ies.length ies [])
  else none

/-- `ath6kl_set_probe_req_ies`; `append`: `ath6kl_p2p_ie_append`. -/
def setProbeReqIes (append : Bool) : Bool → Bool → List UInt8 → Option SetAppieCmd :=
  setFilteredIes .probeReq fun pos => (isP2pIe pos || isWfdIe pos) && !append

/-- `ath6kl_set_ap_probe_resp_ies`. -/
def setApProbeRespIes : Bool → Bool → List UInt8 → Option SetAppieCmd :=
  setFilteredIes .probeResp fun pos => !(!isP2pIe pos && !isWfdIe pos)

/-- The command of `ath6kl_p2p_ps_update_notif`. -/
def updateNotifCmd (kmalloc skb : Bool) (ps : P2pPs.PsInfo) : Option SetAppieCmd :=
  if kmalloc then (P2pPs.updateNotif ps).2.bind (setAppieCmd skb .beacon) else none

/-- A command has the elements of a string that are kept, whole and in their order. -/
structure Complete (keep : List UInt8 → Bool) (ies : List UInt8) (cmd : SetAppieCmd) : Prop where
  ieInfo : cmd.ieInfo = ((split ies).filter keep).flatten
  ieLen : cmd.ieLen.toNat = ((split ies).filter keep).flatten.length

def keepProbeReq (append : Bool) (x : List UInt8) : Bool := append || !(isP2pIe x || isWfdIe x)
def keepProbeResp (x : List UInt8) : Bool := !(isP2pIe x || isWfdIe x)

section Filter

theorem isWfaIe_of_lt {type id len : UInt8} (h : len.toNat<4) (rest : List UInt8) :
    isWfaIe type (id::len::rest) = false := by
  have hlen : ¬4 ≤ len := fun hle => by
    have hle' : 4 ≤ len.toNat := UInt8.le_iff_toNat_le.mp hle
    omega
  match rest with
  | [] | [_] | [_, _] | [_, _, _] => rfl
  | a::b::c::d::_ => simp [isWfaIe, hlen]

theorem isWfaIe_take (type id len : UInt8) (rest : List UInt8) (hw : len.toNat ≤ rest.length) :
    isWfaIe type (id::len::rest) = isWfaIe type (id::len::rest.take len.toNat) := by
  by_cases h : len.toNat<4
  · rw [isWfaIe_of_lt h, isWfaIe_of_lt h]
  · obtain ⟨n, hn⟩ := Nat.exists_eq_add_of_le' (Nat.not_lt.mp h)
    match rest with
    | [] | [_] | [_, _] | [_, _, _] =>
      simp at hw
      omega
    | a::b::c::d::r => simp [isWfaIe, hn]

/-- A test that looks at the element only. -/
def Local (removed : List UInt8 → Bool) : Prop :=
  ∀ id len rest, len.toNat ≤ List.length rest →
    removed (id::len::rest) = removed (id::len::rest.take len.toNat)

theorem filterLoop_eq {removed : List UInt8 → Bool} (hr : Local removed)
    (fuel : Nat) (ies buf : List UInt8) :
    filterLoop removed fuel ies buf =
      buf ++ ((splitFrom fuel ies).filter fun x => !removed x).flatten := by
  induction fuel generalizing ies buf with
  | zero => simp [filterLoop, splitFrom]
  | succ fuel ih =>
    cases ies with
    | nil => simp [filterLoop, splitFrom]
    | cons id tail =>
      cases tail with
      | nil => simp [filterLoop, splitFrom]
      | cons len rest =>
        by_cases hw : len.toNat ≤ rest.length
        · have hrem := hr id len rest hw
          cases hx : removed (id::len::rest) with
          | true => simp [filterLoop, splitFrom, hw, hx, ih, ← hrem]
          | false => simp [filterLoop, splitFrom, hw, hx, ih, ← hrem]
        · simp [filterLoop, splitFrom, hw]

end Filter

section Cmd

theorem setAppieCmd_iff (skb : Bool) (frm : MgmtFrmType) (ie : List UInt8) :
    (∀ cmd∈setAppieCmd skb frm ie, cmd.ieInfo = ie ∧ cmd.ieLen.toNat = ie.length) ↔
      (skb = true → ie.length<256) := by
  cases skb with
  | false => simp [setAppieCmd]
  | true =>
    simp only [setAppieCmd, if_true, Option.mem_some_iff, forall_eq', true_implies]
    constructor
    · rintro ⟨-, hlen⟩
      have hlt := (UInt8.ofNat ie.length).toNat_lt
      omega
    · intro h
      have hlen : (UInt8.ofNat ie.length).toNat = ie.length := UInt8.toNat_ofNat_of_lt' h
      rw [hlen]
      exact ⟨List.take_length, rfl⟩

theorem complete_filter_iff (skb : Bool) (frm : MgmtFrmType) (keep : List UInt8 → Bool)
    (ies : List UInt8) :
    (∀ cmd∈setAppieCmd skb frm ((split ies).filter keep).flatten, Complete keep ies cmd) ↔
      (skb = true → ((split ies).filter keep).flatten.length<256) := by
  rw [← setAppieCmd_iff skb frm]
  constructor
  · intro h cmd hcmd
    exact ⟨(h cmd hcmd).ieInfo, (h cmd hcmd).ieLen⟩
  · intro h cmd hcmd
    exact ⟨(h cmd hcmd).1, (h cmd hcmd).2⟩

theorem filtered_complete_iff {removed : List UInt8 → Bool} (hr : Local removed)
    (frm : MgmtFrmType) (kmalloc skb : Bool) (ies : List UInt8) :
    (∀ cmd∈setFilteredIes frm removed kmalloc skb ies, Complete (fun x => !removed x) ies cmd) ↔
      (kmalloc = true → skb = true →
        ((split ies).filter fun x => !removed x).flatten.length<256) := by
  have hcmd := complete_filter_iff skb frm (fun x => !removed x) ies
  by_cases hne : ies = []
  · subst hne
    simp [split, splitFrom] at hcmd
    simpa [setFilteredIes, split, splitFrom] using hcmd
  · cases kmalloc with
    | false => simp [setFilteredIes, hne]
    | true =>
      have hloop : filterLoop removed ies.length ies [] =
          ((split ies).filter fun x => !removed x).flatten := filterLoop_eq hr _ _ _
      simpa [setFilteredIes, hne, hloop] using hcmd

theorem local_probeReq (append : Bool) :
    Local fun pos => (isP2pIe pos || isWfdIe pos) && !append := by
  intro id len rest hw
  simp only [isP2pIe, isWfdIe, isWfaIe_take _ id len rest hw]

theorem local_probeResp : Local fun pos => !(!isP2pIe pos && !isWfdIe pos) := by
  intro id len rest hw
  simp only [isP2pIe, isWfdIe, isWfaIe_take _ id len rest hw]

theorem keepProbeReq_eq (append : Bool) :
    keepProbeReq append = fun x => !((isP2pIe x || isWfdIe x) && !append) := by
  funext x
  cases append <;> simp [keepProbeReq]

theorem keepProbeResp_eq : keepProbeResp = fun x => !!(!isP2pIe x && !isWfdIe x) := by
  funext x
  simp [keepProbeResp]

theorem complete_all_iff (ies : List UInt8) (cmd : SetAppieCmd) :
    (Complete (fun _ => true) ies cmd ∧ cmd.ieInfo = ies) ↔
      (cmd.ieInfo = ies ∧ cmd.ieLen.toNat = ies.length) ∧ (split ies).flatten = ies := by
  constructor
  · rintro ⟨hc, hie⟩
    have hwhole : (split ies).flatten = ies := by simpa using hc.ieInfo.symm.trans hie
    exact ⟨⟨hie, by simpa [hwhole] using hc.ieLen⟩, hwhole⟩
  · rintro ⟨⟨hie, hlen⟩, hwhole⟩
    exact ⟨⟨by simpa [hwhole] using hie, by simpa [hwhole] using hlen⟩, hie⟩

theorem beacon_complete_iff (skb : Bool) (ies : List UInt8) :
    (∀ cmd∈setAppieCmd skb .beacon ies, Complete (fun _ => true) ies cmd ∧ cmd.ieInfo = ies) ↔
      (skb = true → ies.length<256 ∧ ∃ xs : List (List UInt8), (∀ x∈xs, Item x) ∧
        xs.flatten = ies) := by
  simp only [complete_all_iff, ← flatten_split_iff]
  cases skb with
  | false => simp [setAppieCmd]
  | true =>
    have hcmd := setAppieCmd_iff true .beacon ies
    simp only [setAppieCmd, if_true, Option.mem_some_iff, forall_eq', true_implies] at hcmd ⊢
    rw [hcmd]

end Cmd

/-- The commands for probe requests and responses have every element that is kept, whole and in
order, exactly when these are shorter than 256 bytes together; the one for beacons has all that was
assembled exactly when this is as short, and one whole element after the other. -/
theorem appie_complete_iff (append kmalloc skb : Bool) (ies : List UInt8) (ps : P2pPs.PsInfo) :
    ((∀ cmd∈setProbeReqIes append kmalloc skb ies,
        Complete (keepProbeReq append) ies cmd) ↔
      (kmalloc = true → skb = true →
        ((split ies).filter (keepProbeReq append)).flatten.length<256)) ∧
    ((∀ cmd∈setApProbeRespIes kmalloc skb ies,
        Complete keepProbeResp ies cmd) ↔
      (kmalloc = true → skb = true →
        ((split ies).filter keepProbeResp).flatten.length<256)) ∧
    ((∀ cmd∈updateNotifCmd kmalloc skb ps, ∀ ies∈(P2pPs.updateNotif ps).2,
        Complete (fun _ => true) ies cmd ∧ cmd.ieInfo = ies) ↔
      (kmalloc = true → skb = true → ∀ ies∈(P2pPs.updateNotif ps).2, ies.length<256 ∧
        ∃ xs : List (List UInt8), (∀ x∈xs, Item x) ∧ xs.flatten = ies)) := by
  refine ⟨?_, ?_, ?_⟩
  · rw [keepProbeReq_eq]
    exact filtered_complete_iff (local_probeReq append) .probeReq kmalloc skb ies
  · rw [keepProbeResp_eq]
    exact filtered_complete_iff local_probeResp .probeResp kmalloc skb ies
  · cases kmalloc with
    | false => simp [updateNotifCmd]
    | true =>
      cases hies : (P2pPs.updateNotif ps).2 with
      | none => simp
      | some ies => simpa [updateNotifCmd, hies] using beacon_complete_iff skb ies

/-- Of elements of 256 bytes together none is sent. -/
theorem appie_length_wraps :
    ¬∀ cmd∈setApProbeRespIes true true (List.replicate 128 [5, 0]).flatten,
      Complete keepProbeResp (List.replicate 128 [5, 0]).flatten cmd := by
  intro h
  have hinfo := (h _ rfl).ieInfo
  exact absurd hinfo (by decide +kernel)

end Ath6kl.AppIe
