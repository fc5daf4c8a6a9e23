import Ath6kl.Lib.Accesses
import Ath6kl.Lib.LittleEndian
import Ath6kl.Lib.Memory

/-! How a buffer of the firmware log is broken up into events for the application (debug.c): between
its records, each of which tells its length in its first word. -/
namespace Ath6kl.FwLogFragment
open Lib.Accesses Lib.Memory

section Model

/-- `EVENT_ID_LEN`, `INTF_ID_LEN`, `IW_CUSTOM_MAX`, `MAX_WIRELESS_EVENT_SIZE`, and the event. -/
def eventIdLen : Nat := 2
def intfIdLen : Nat := 1
def iwCustomMax : Nat := 256
def maxWirelessEventSize : Nat := 252
def wmixDbglogEventid : Nat := 0x3008

/-- `ATH6KL_FWGLOG_GET_NUMARGS`. -/
def getNumargs (arg : UInt32) : Nat := ((arg &&& 0xC0000000) >>> 30).toNat

def wordAt (mem : Mem) (pos : Nat) : UInt32 :=
  UInt32.ofNat (Lib.LittleEndian.value (slice mem pos 4))

/-- The loop of `ath6kl_fwlog_fragment` over the words from `datap` on, and what it reads. -/
def fragmentLoop (mem : Mem) (datap length : Nat) (count fraglen : Nat) : Nat × List Access :=
  if count < length then
    let numargs := getNumargs (wordAt mem (datap+4*count))
    let rest := fragmentLoop mem datap length (count+(numargs+1)) (4*count)
    (rest.1, .read (datap+4*count) 4::rest.2)
  else (fraglen, [])
termination_by length-count

/-- `ath6kl_fwlog_fragment`. -/
def fwlogFragment (mem : Mem) (datap len limit : Nat) : Nat × List Access :=
  if len ≤ limit then (len, []) else fragmentLoop mem datap (limit/4) 0 0

inductive Delivery
  | tooLong
  | noMemory
  | sent (buf : List UInt8)
deriving DecidableEq

/-- `ath6kl_send_event_to_app`; `alloc` is whether there is memory. -/
def sendEventToApp (alloc : Bool) (eventId : Nat) (ifid : UInt8) (datap : List UInt8) : Delivery :=
  let size := (datap.length+eventIdLen+intfIdLen)%2^16
  if size > iwCustomMax then .tooLong
  else if alloc = false then .noMemory
  else .sent (Lib.LittleEndian.bytes eventIdLen eventId ++ ifid::datap)

/-- The fragments, what becomes of each, and what is read of the buffer. -/
structure Sent where
  fragments : List (List UInt8) := []
  events : List Delivery := []
  log : List Access := []

/-- The loop of `ath6kl_debug_fwlog_event_send`, for as many rounds. -/
def sendLoop (alloc : UInt32 → Bool) (ifid : UInt8) (buffer : Mem) (length : UInt32) :
    Nat → UInt32 → Option Sent
  | 0, _ => none
  | fuel+1, sent =>
    let (send, log) := fwlogFragment buffer sent.toNat (length-sent).toNat maxWirelessEventSize
    if send = 0 then some { log := log }
    else
      let fragment := slice buffer sent.toNat send
      (sendLoop alloc ifid buffer length fuel (sent+UInt32.ofNat send)).map fun rest =>
        { fragments := fragment::rest.fragments
          events := sendEventToApp (alloc sent) wmixDbglogEventid ifid fragment::rest.events
          log := log ++ .read sent.toNat send::rest.log }

/-- `ath6kl_debug_fwlog_event_send`; `vif` is the index of the first interface. -/
def debugFwlogEventSend (vif : Option UInt8) (alloc : UInt32 → Bool) (buffer : Mem)
    (length : UInt32) (fuel : Nat) : Option Sent :=
  match vif with
  | none => some {}
  | some ifid => sendLoop alloc ifid buffer length fuel 0

end Model

section Records

/-- A record of the log: a word with the number of its arguments, and the arguments. -/
def IsRecord (r : List UInt8) : Prop := r.length = 4*(1+getNumargs (wordAt (ofList r) 0))

/-- The fragments are the records in groups. -/
def CutBetween (records fragments : List (List UInt8)) : Prop :=
  ∃ groups : List (List (List UInt8)),
    groups.flatten = records ∧ fragments = groups.map List.flatten

theorem CutBetween.cons {group records fragments : List (List UInt8)}
    (h : CutBetween records fragments) :
    CutBetween (group ++ records) (group.flatten::fragments) := by
  obtain ⟨groups, rfl, rfl⟩ := h
  exact ⟨group::groups, rfl, rfl⟩

theorem getNumargs_le (arg : UInt32) : getNumargs arg ≤ 3 := by
  have hlt := (arg &&& 0xC0000000).toNat_lt
  have hshift : getNumargs arg = (arg &&& 0xC0000000).toNat/2^30 := by
    simp [getNumargs, Nat.shiftRight_eq_div_pow]
  omega

theorem wordAt_of_slice {mem : Mem} {pos : Nat} {bs : List UInt8} (h4 : 4 ≤ bs.length)
    (h : slice mem pos bs.length = bs) : wordAt mem pos = wordAt (ofList bs) 0 := by
  have hslice : slice (ofList bs) 0 4 = slice mem pos 4 := by
    rw [← h]
    exact slice_ofList_slice (by omega)
  rw [wordAt, wordAt, hslice]

end Records

section Fragment
variable {buffer : Mem} {datap length : Nat}

variable (buffer datap) in
theorem fragmentLoop_bounds {count : Nat} (fraglen : Nat) (h : count<length) :
    4*length ≤ (fragmentLoop buffer datap length count fraglen).1+16 ∧
      (fragmentLoop buffer datap length count fraglen).1+4 ≤ 4*length := by
  induction count, fraglen using fragmentLoop.induct buffer datap length with
  | case1 count fraglen hlt numargs ih =>
    have hnum := getNumargs_le (wordAt buffer (datap+4*count))
    rw [fragmentLoop, if_pos hlt]
    dsimp only
    by_cases hnext : count+(numargs+1)<length
    · exact ih hnext
    · rw [fragmentLoop, if_neg hnext]
      dsimp only
      omega
  | case2 count fraglen hge => exact absurd h hge

theorem fragmentLoop_safe {count fraglen len : Nat} (h : datap+4*length ≤ len) :
    Safe len (fragmentLoop buffer datap length count fraglen).2 := by
  induction count, fraglen using fragmentLoop.induct buffer datap length with
  | case1 count fraglen hlt numargs ih =>
    rw [fragmentLoop, if_pos hlt, safe_cons, ok_read]
    exact ⟨by omega, ih⟩
  | case2 count fraglen hge =>
    rw [fragmentLoop, if_neg hge]
    exact safe_nil len

/-- Over records it stops between two of them. The induction is on the records that are left. -/
theorem fragmentLoop_cut {records : List (List UInt8)} (hrec : ∀ r∈records, IsRecord r)
    {count : Nat} (fraglen : Nat) (h : count<length)
    (hmem : slice buffer (datap+4*count) records.flatten.length = records.flatten)
    (hlen : 4*length ≤ 4*count+records.flatten.length) :
    ∃ group rest, records = group ++ rest ∧
      (fragmentLoop buffer datap length count fraglen).1 = 4*count+group.flatten.length := by
  induction records generalizing count fraglen with
  | nil =>
    simp only [List.flatten_nil, List.length_nil] at hlen
    omega
  | cons r records ih =>
    obtain ⟨hr, hrest⟩ := List.forall_mem_cons.mp hrec
    rw [List.flatten_cons, List.length_append, slice_add] at hmem
    rw [List.flatten_cons, List.length_append] at hlen
    obtain ⟨hhead, htail⟩ := List.append_inj hmem (length_slice _ _ _)
    have hword := wordAt_of_slice (by rw [hr]; omega) hhead
    have hr' : r.length = 4*(getNumargs (wordAt buffer (datap+4*count))+1) := by
      rw [hword, Nat.add_comm]
      exact hr
    rw [fragmentLoop, if_pos h]
    dsimp only
    generalize getNumargs (wordAt buffer (datap+4*count)) = n at hr'
    by_cases hnext : count+(n+1)<length
    · have hpos : datap+4*count+r.length = datap+4*(count+(n+1)) := by omega
      rw [hpos] at htail
      obtain ⟨group, rest, rfl, hgroup⟩ := ih hrest (4*count) hnext htail (by omega)
      refine ⟨r::group, rest, rfl, ?_⟩
      rw [hgroup, List.flatten_cons, List.length_append]
      omega
    · rw [fragmentLoop, if_neg hnext]
      exact ⟨[], r::records, rfl, rfl⟩

end Fragment

section Send
variable {ifid : UInt8} {buffer : Mem} {length sent : Nat}

/-- A fragment is not empty while something is left, and small. -/
structure FragmentFits (len : Nat) (send : Nat) : Prop where
  pos : 0<len → 0<send
  le : send ≤ len
  small : send ≤ maxWirelessEventSize

theorem fwlogFragment_fits (buffer : Mem) (datap len : Nat) :
    FragmentFits len (fwlogFragment buffer datap len maxWirelessEventSize).1 := by
  have hmax : maxWirelessEventSize = 252 := rfl
  rw [fwlogFragment]
  split_ifs with hle
  · exact { pos := id, le := Nat.le_refl len, small := hle }
  · have hstart : 0 < maxWirelessEventSize/4 := by decide
    obtain ⟨hge, hlt⟩ := fragmentLoop_bounds buffer datap 0 hstart
    constructor <;> omega

theorem fwlogFragment_safe (buffer : Mem) (datap len : Nat) :
    Safe (datap+len) (fwlogFragment buffer datap len maxWirelessEventSize).2 := by
  rw [fwlogFragment]
  split_ifs with hle
  · exact safe_nil _
  · exact fragmentLoop_safe (by omega)

theorem fwlogFragment_cut {records : List (List UInt8)} (hrec : ∀ r∈records, IsRecord r)
    {datap : Nat} (hmem : slice buffer datap records.flatten.length = records.flatten) :
    ∃ group rest, records = group ++ rest ∧
      (fwlogFragment buffer datap records.flatten.length maxWirelessEventSize).1 =
        group.flatten.length := by
  rw [fwlogFragment]
  split_ifs with hle
  · exact ⟨records, [], by simp, rfl⟩
  · have hlt : 0 < maxWirelessEventSize/4 := by decide
    obtain ⟨group, rest, hsplit, hsend⟩ := fragmentLoop_cut hrec 0 hlt hmem (by omega)
    exact ⟨group, rest, hsplit, by rw [hsend]; omega⟩

/-- What the application is told of a fragment: all of it, unless there is no memory. -/
def Told (ifid : UInt8) (fragment : List UInt8) (e : Delivery) : Prop :=
  e = .noMemory ∨
    e = .sent (Lib.LittleEndian.bytes eventIdLen wmixDbglogEventid ++ ifid::fragment)

theorem told_of_small {fragment : List UInt8} (h : fragment.length ≤ maxWirelessEventSize)
    (alloc : Bool) : Told ifid fragment (sendEventToApp alloc wmixDbglogEventid ifid fragment) := by
  have hmax : maxWirelessEventSize = 252 := rfl
  have hsize : ¬(fragment.length+eventIdLen+intfIdLen)%2^16 > iwCustomMax := by
    simp only [eventIdLen, intfIdLen, iwCustomMax]
    omega
  rw [sendEventToApp, if_neg hsize]
  split_ifs with halloc
  · exact .inl rfl
  · exact .inr rfl

/-- From `sent` on the buffer is sent whole, in fragments that the application is told of, and cut
between its records if it has any. -/
structure SentRight (ifid : UInt8) (buffer : Mem) (length sent : Nat) (s : Sent) : Prop where
  whole : s.fragments.flatten = slice buffer sent (length-sent)
  small : ∀ f∈s.fragments, 1 ≤ f.length ∧ f.length ≤ maxWirelessEventSize
  told : List.Forall₂ (Told ifid) s.fragments s.events
  inside : Safe length s.log
  cuts : ∀ records : List (List UInt8), (∀ r∈records, IsRecord r) →
    records.flatten = slice buffer sent (length-sent) → CutBetween records s.fragments

theorem nil_of_flatten {records : List (List UInt8)} (hrec : ∀ r∈records, IsRecord r)
    (h : records.flatten = []) : records = [] := by
  cases records with
  | nil => rfl
  | cons r records =>
    have hr : r.length = 4*(1+getNumargs (wordAt (ofList r) 0)) := hrec r List.mem_cons_self
    rw [List.flatten_cons, List.append_eq_nil_iff] at h
    rw [h.1, List.length_nil] at hr
    omega

theorem sentRight_end (log : List Access) (hlog : Safe length log) :
    SentRight ifid buffer length length { log := log } where
  whole := by simp [slice]
  small := by simp
  told := .nil
  inside := hlog
  cuts := by
    intro records hrec hflat
    rw [Nat.sub_self] at hflat
    exact ⟨[], (nil_of_flatten hrec hflat).symm, rfl⟩

theorem SentRight.cons {send : Nat} {s : Sent} (h : SentRight ifid buffer length (sent+send) s)
    (hpos : 0<send) (hle : sent+send ≤ length) (hsmall : send ≤ maxWirelessEventSize)
    (hsend : (fwlogFragment buffer sent (length-sent) maxWirelessEventSize).1 = send)
    {log : List Access} (hlog : Safe length log) {e : Delivery}
    (he : Told ifid (slice buffer sent send) e) :
    SentRight ifid buffer length sent
      { fragments := slice buffer sent send::s.fragments, events := e::s.events,
        log := log ++ .read sent send::s.log } where
  whole := by
    have hsum : length-sent = send+(length-(sent+send)) := by omega
    rw [List.flatten_cons, h.whole, hsum, slice_add]
  small := by
    simp only [List.forall_mem_cons, length_slice]
    exact ⟨⟨hpos, hsmall⟩, h.small⟩
  told := .cons he h.told
  inside := by
    rw [safe_append, safe_cons, ok_read]
    exact ⟨hlog, hle, h.inside⟩
  cuts := by
    intro records hrec hflat
    have hlen : records.flatten.length = length-sent := by rw [hflat, length_slice]
    obtain ⟨group, rest, rfl, hgroup⟩ := fwlogFragment_cut hrec (by rw [hlen, hflat])
    rw [hlen, hsend] at hgroup
    have hsum : length-sent = send+(length-(sent+send)) := by omega
    rw [List.flatten_append, hsum, slice_add] at hflat
    obtain ⟨hhead, htail⟩ := List.append_inj hflat (by rw [← hgroup, length_slice])
    rw [← hhead]
    exact (h.cuts rest (fun r hr => hrec r (List.mem_append_right group hr)) htail).cons

theorem sendLoop_right {alloc : UInt32 → Bool} {length sent : UInt32} {fuel : Nat}
    (hsent : sent ≤ length) (hfuel : length.toNat-sent.toNat<fuel) :
    ∃ s, sendLoop alloc ifid buffer length fuel sent = some s ∧
      SentRight ifid buffer length.toNat sent.toNat s := by
  induction fuel generalizing sent with
  | zero => omega
  | succ fuel ih =>
    have hle : sent.toNat ≤ length.toNat := hsent
    have hsub : (length-sent).toNat = length.toNat-sent.toNat := UInt32.toNat_sub_of_le _ _ hsent
    have hfits := fwlogFragment_fits buffer sent.toNat (length.toNat-sent.toNat)
    have hlog := fwlogFragment_safe buffer sent.toNat (length.toNat-sent.toNat)
    rw [Nat.add_sub_cancel' hle] at hlog
    rw [sendLoop, hsub]
    generalize hr : fwlogFragment buffer sent.toNat (length.toNat-sent.toNat)
      maxWirelessEventSize = r at hfits hlog ⊢
    obtain ⟨send, log⟩ := r
    obtain ⟨hpos, hsend, hsmall⟩ := hfits
    dsimp only at hpos hsend hsmall hlog ⊢
    split_ifs with hzero
    · obtain heq : sent.toNat = length.toNat := by omega
      rw [heq]
      exact ⟨_, rfl, sentRight_end log hlog⟩
    · have hlt := length.toNat_lt
      have hnext : (sent+UInt32.ofNat send).toNat = sent.toNat+send := by
        rw [UInt32.toNat_add, UInt32.toNat_ofNat']
        omega
      have hle' : sent+UInt32.ofNat send ≤ length := by
        rw [UInt32.le_iff_toNat_le, hnext]
        omega
      obtain ⟨s, hs, hright⟩ := ih hle' (by omega)
      rw [hnext] at hright
      rw [hs]
      exact ⟨_, rfl, hright.cons (by omega) (by omega) hsmall (by rw [hr]) hlog
        (told_of_small (by rwa [length_slice]) (alloc sent))⟩

theorem sendLoop_mono {alloc : UInt32 → Bool} {length sent : UInt32} {fuel fuel' : Nat} {s : Sent}
    (h : sendLoop alloc ifid buffer length fuel sent = some s) (hle : fuel ≤ fuel') :
    sendLoop alloc ifid buffer length fuel' sent = some s := by
  induction fuel generalizing fuel' sent s with
  | zero => cases h
  | succ fuel ih =>
    obtain ⟨n, rfl⟩ : ∃ n, fuel' = n+1 := ⟨fuel'-1, by omega⟩
    rw [sendLoop] at h ⊢
    dsimp only at h ⊢
    split_ifs at h ⊢ with hzero
    · exact h
    · obtain ⟨rest, hrest, rfl⟩ := Option.map_eq_some_iff.mp h
      rw [ih hrest (by omega)]
      rfl

/-- For every buffer and every length the loop ends, and what it sends is right. -/
theorem debugFwlogEventSend_right (ifid : UInt8) (alloc : UInt32 → Bool) (buffer : Mem)
    (length : UInt32) : ∃ s, SentRight ifid buffer length.toNat 0 s ∧
      ∀ fuel, length.toNat<fuel →
        debugFwlogEventSend (some ifid) alloc buffer length fuel = some s := by
  have hzero : (0 : UInt32) ≤ length := Nat.zero_le _
  have hfuel : length.toNat-(0 : UInt32).toNat<length.toNat+1 := Nat.lt_succ_of_le (Nat.sub_le _ _)
  obtain ⟨s, hs, hright⟩ := sendLoop_right hzero hfuel
  exact ⟨s, hright, fun fuel hfuel => sendLoop_mono hs hfuel⟩

end Send

end Ath6kl.FwLogFragment
