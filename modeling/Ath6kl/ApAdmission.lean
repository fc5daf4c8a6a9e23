import Ath6kl.Lib.Machine
import Mathlib.Data.List.Perm.Basic

/-! Admission control of an access point (ap.c): the association requests that the firmware
relays wait in `assoc_req_list` until the connect event of their station fetches them, until
their timer expires, or until the list is flushed. Each function takes the lock around what it
does to the list, and is one step here. -/
namespace Ath6kl.ApAdmission
open scoped List
open Lib.Machine

/-- `enum ap_admc_mode`. -/
inductive Mode
  | disable
  | acceptAlways
deriving DecidableEq

/-- `ATH6KL_AP_ADMC_ASSOC_REQ_MAX_LEN`. -/
def assocReqMaxLen : Nat := 1200

/-- `struct ap_admc_assoc_req`: `frame` is the part of `raw_frame` that has been written, the rest
of which is zero. The requests are numbered as they are allocated. -/
structure AssocReq where
  id : Nat
  frame : List UInt8

/-- `sta_mac` points to the `sa` of the frame. -/
def AssocReq.staMac (q : AssocReq) : List UInt8 :=
  (List.range 6).map fun i => q.frame.getD (10+i) 0

/-- `struct ap_admc_info`, with the requests a fetch has handed out, those freed, and the timers
that are pending. -/
structure Admc where
  admcMode : Mode := .acceptAlways
  assocReqList : List AssocReq := []
  assocReqCnt : UInt32 := 0
  next : Nat := 0
  timers : List Nat := []
  fetched : List AssocReq := []
  freed : List Nat := []
  /-- Something that is no request of the list has been treated as one. -/
  wild : Bool := false

namespace Admc
variable (s : Admc)

/-- `list_del`, with the counter. -/
def unlink (id : Nat) : Admc :=
  { s with
    assocReqList := s.assocReqList.eraseP fun q => q.id == id
    assocReqCnt := s.assocReqCnt-1 }

def delTimer (id : Nat) : Admc := { s with timers := s.timers.erase id }

/-- `_ap_amdc_assoc_req_free`. -/
def free (id : Nat) : Admc := { s with freed := s.freed ++ [id] }

/-- `_ap_amdc_assoc_req_add`; `alloc` is the outcome of `kzalloc`. -/
def add (frm : List UInt8) (alloc : Bool) : Admc :=
  if frm.length > assocReqMaxLen then s
  else if alloc then
    { s with
      assocReqList := s.assocReqList ++ [⟨s.next, frm⟩]
      assocReqCnt := s.assocReqCnt+1
      timers := s.timers ++ [s.next]
      next := s.next+1 }
  else s

/-- `_ap_amdc_assoc_req_timeout` of a timer that is pending. -/
def timeout (id : Nat) : Admc :=
  if id∈s.timers then
    if s.assocReqList.any fun q => q.id == id then ((s.delTimer id).unlink id).free id
    else { s with wild := true }
  else s

/-- Where the cursor of a list walk can point: nowhere, to a request, or to the head of the
list. -/
inductive Cursor
  | null
  | request (q : AssocReq)
  | head

/-- `list_for_each_entry_safe` up to the first request of the station. -/
def walk (staMac : List UInt8) : List AssocReq → Cursor
  | [] => .head
  | q::l => if q.staMac = staMac then .request q else walk staMac l

/-- `_ap_amdc_assoc_req_search`: whatever the cursor points to is taken off the list. -/
def search (staMac : List UInt8) : Admc × Cursor :=
  let cursor := if s.assocReqList.isEmpty then .null else walk staMac s.assocReqList
  match cursor with
  | .null => (s, .null)
  | .request q => ((s.delTimer q.id).unlink q.id, .request q)
  -- the timer and the links of a request that is the list head
  | .head => ({ s with assocReqCnt := s.assocReqCnt-1, wild := true }, .head)

/-- What the caller gets: the request inside the event, none, or what a search has found. -/
inductive Answer
  | event
  | none
  | request (q : AssocReq)
  | head

/-- `ath6kl_ap_admc_assoc_req_fetch`. -/
def fetch (staMac : List UInt8) : Admc × Answer :=
  if s.admcMode = .disable then (s, .event)
  else
    match s.search staMac with
    | (s, .null) => (s, .none)
    | (s, .request q) => ({ s with fetched := s.fetched ++ [q] }, .request q)
    | (s, .head) => (s, .head)

/-- `ath6kl_ap_admc_assoc_req_release` of the `i`-th request that is out. -/
def release (i : Nat) : Admc :=
  match s.fetched[i]? with
  | none => s
  | some q => { s.free q.id with fetched := s.fetched.eraseIdx i }

/-- `_ap_amdc_assoc_req_flush`. -/
def flush : Admc :=
  s.assocReqList.foldl (fun s q => ((s.delTimer q.id).unlink q.id).free q.id) s

end Admc

inductive Event
  | add (frm : List UInt8) (alloc : Bool)
  | fetch (staMac : List UInt8)
  | release (i : Nat)
  | timeout (id : Nat)
  | flush

/-- Nothing is said of what follows once memory has been treated as a request. -/
def step (s : Admc) (e : Event) : Admc :=
  if s.wild then s
  else
    match e with
    | .add frm alloc => s.add frm alloc
    | .fetch staMac => (s.fetch staMac).1
    | .release i => s.release i
    | .timeout id => s.timeout id
    | .flush => s.flush

/-- The list is intact, the counter counts it, its requests and no others have their timers
pending, and every request allocated is listed, out, or freed once. -/
structure Sound (s : Admc) : Prop where
  intact : s.wild = false
  count : s.assocReqCnt = UInt32.ofNat s.assocReqList.length
  timers : s.timers = s.assocReqList.map AssocReq.id
  once : List.range s.next ~
    s.assocReqList.map AssocReq.id ++ (s.fetched.map AssocReq.id ++ s.freed)

/-- A fetch hands out the earliest request of the station and takes this one off the list; with
none, it does nothing. -/
def FetchSound (s : Admc) (staMac : List UInt8) : Prop :=
  match s.assocReqList.find? fun q => decide (q.staMac = staMac) with
  | some q => s.fetch staMac =
    ({ s with
        assocReqList := s.assocReqList.eraseP fun q => decide (q.staMac = staMac)
        assocReqCnt := s.assocReqCnt-1
        timers := s.timers.erase q.id
        fetched := s.fetched ++ [q] }, .request q)
  | none => s.fetch staMac = (s, .none)

/-- What a step promises. -/
def Keeps (s : Admc) (e : Event) : Prop :=
  Sound (step s e) ∧ ∀ staMac, e = .fetch staMac → FetchSound s staMac

/-- A fetch finds the list empty or with a request of its station. -/
def Ok (s : Admc) : Event → Prop
  | .fetch staMac => s.assocReqList = [] ∨ ∃ q∈s.assocReqList, q.staMac = staMac
  | _ => True

theorem eraseP_of_find {p : AssocReq → Bool} {l : List AssocReq} {q : AssocReq}
    (hn : (l.map AssocReq.id).Nodup) (h : l.find? p = some q) :
    l.eraseP p = l.eraseP fun x => x.id == q.id := by
  induction l with
  | nil => simp at h
  | cons x l ih =>
    by_cases hx : p x = true
    · have hq : x = q := by simpa [hx] using h
      subst hq
      simp [hx]
    · have hl : l.find? p = some q := by simpa [hx] using h
      have hmem : q.id∈l.map AssocReq.id := List.mem_map_of_mem (List.mem_of_find?_eq_some hl)
      have hne : ¬x.id = q.id := by
        intro he
        exact (List.nodup_cons.mp hn).1 (he ▸ hmem)
      simp [hx, hne, ih (List.nodup_cons.mp hn).2 hl]

theorem walk_of_find {staMac : List UInt8} {l : List AssocReq} {q : AssocReq}
    (h : l.find? (fun q => decide (q.staMac = staMac)) = some q) :
    Admc.walk staMac l = .request q := by
  induction l with
  | nil => simp at h
  | cons x l ih =>
    by_cases hx : x.staMac = staMac
    · have hq : x = q := by simpa [hx] using h
      simp [Admc.walk, hq ▸ hx, hq]
    · simp [Admc.walk, hx, ih (by simpa [hx] using h)]

theorem walk_of_absent {staMac : List UInt8} {l : List AssocReq}
    (h : ∀ q∈l, q.staMac ≠ staMac) : Admc.walk staMac l = .head := by
  induction l with
  | nil => rfl
  | cons x l ih =>
    simp [Admc.walk, h x List.mem_cons_self, ih fun q hq => h q (List.mem_cons_of_mem x hq)]

/-- The books while a function has the requests `held` in hand. -/
structure Booked (s : Admc) (held : List Nat) : Prop where
  mode : s.admcMode = .acceptAlways
  intact : s.wild = false
  count : s.assocReqCnt = UInt32.ofNat s.assocReqList.length
  timers : s.timers = s.assocReqList.map AssocReq.id
  once : List.range s.next ~
    s.assocReqList.map AssocReq.id ++ (held ++ (s.fetched.map AssocReq.id ++ s.freed))

section Books
variable {s : Admc} {held : List Nat} {q : AssocReq}

theorem Booked.start : Booked {} [] := ⟨rfl, rfl, rfl, rfl, List.Perm.refl _⟩

theorem Booked.sound (h : Booked s []) : Sound s := ⟨h.intact, h.count, h.timers, h.once⟩

theorem Booked.nodup (h : Booked s held) : (s.assocReqList.map AssocReq.id).Nodup := by
  have hall := h.once.nodup_iff.mp List.nodup_range
  exact (List.nodup_append.mp hall).1

theorem map_unlink (s : Admc) (id : Nat) :
    (s.unlink id).assocReqList.map AssocReq.id = (s.assocReqList.map AssocReq.id).erase id := by
  rw [List.erase_eq_eraseP', List.eraseP_map]
  rfl

theorem Booked.take (h : Booked s held) (hq : q∈s.assocReqList) :
    Booked ((s.delTimer q.id).unlink q.id) (q.id::held) where
  mode := h.mode
  intact := h.intact
  count := by
    have hlen : (s.assocReqList.eraseP fun x => x.id == q.id).length + 1 =
        s.assocReqList.length := by
      have hpos := List.length_pos_of_mem hq
      rw [List.length_eraseP_of_mem hq (by simp)]
      omega
    have hcnt := h.count
    rw [← hlen, UInt32.ofNat_add] at hcnt
    simp only [Admc.unlink, Admc.delTimer, hcnt]
    exact UInt32.add_sub_cancel _ _
  timers := by
    rw [map_unlink]
    exact congrArg (List.erase · q.id) h.timers
  once := by
    rw [map_unlink]
    have hmem : q.id∈s.assocReqList.map AssocReq.id := List.mem_map_of_mem hq
    calc
      List.range s.next ~ s.assocReqList.map AssocReq.id ++
          (held ++ (s.fetched.map AssocReq.id ++ s.freed)) := h.once
      _ ~ q.id::(s.assocReqList.map AssocReq.id).erase q.id ++
          (held ++ (s.fetched.map AssocReq.id ++ s.freed)) :=
        (List.perm_cons_erase hmem).append_right _
      _ ~ (s.assocReqList.map AssocReq.id).erase q.id ++
          q.id::(held ++ (s.fetched.map AssocReq.id ++ s.freed)) := List.perm_middle.symm

theorem Booked.free {id : Nat} (h : Booked s (id::held)) : Booked (s.free id) held where
  mode := h.mode
  intact := h.intact
  count := h.count
  timers := h.timers
  once := by
    refine h.once.trans (List.Perm.append_left _ ?_)
    have hp : id::(held ++ (s.fetched.map AssocReq.id ++ s.freed)) ~
        held ++ (s.fetched.map AssocReq.id ++ s.freed) ++ [id] :=
      (List.perm_append_singleton _ _).symm
    simpa [Admc.free] using hp

theorem Booked.add (h : Booked s []) (frm : List UInt8) (alloc : Bool) :
    Booked (s.add frm alloc) [] := by
  unfold Admc.add
  split_ifs
  · exact h
  · refine ⟨h.mode, h.intact, ?_, ?_, ?_⟩
    · simp [h.count, UInt32.ofNat_add]
    · simp [h.timers]
    · have hp := h.once.append_right [s.next]
      have hlast : s.fetched.map AssocReq.id ++ s.freed ++ [s.next] ~
          s.next::(s.fetched.map AssocReq.id ++ s.freed) := List.perm_append_singleton _ _
      rw [List.range_succ]
      refine hp.trans ?_
      simpa using hlast.append_left (s.assocReqList.map AssocReq.id)
  · exact h

theorem Booked.timeout (h : Booked s []) (id : Nat) : Booked (s.timeout id) [] := by
  unfold Admc.timeout
  by_cases hid : id∈s.timers
  · rw [h.timers, List.mem_map] at hid
    obtain ⟨q, hq, rfl⟩ := hid
    have hany : (s.assocReqList.any fun x => x.id == q.id) = true :=
      List.any_eq_true.mpr ⟨q, hq, by simp⟩
    have hpend : q.id∈s.timers := by
      rw [h.timers]
      exact List.mem_map_of_mem hq
    rw [if_pos hpend, if_pos hany]
    exact (h.take hq).free
  · rw [if_neg hid]
    exact h

theorem Booked.release (h : Booked s []) (i : Nat) : Booked (s.release i) [] := by
  unfold Admc.release
  cases hi : s.fetched[i]? with
  | none => exact h
  | some q =>
    refine ⟨h.mode, h.intact, h.count, h.timers, h.once.trans (List.Perm.append_left _ ?_)⟩
    obtain ⟨hlt, hget⟩ := List.getElem?_eq_some_iff.mp hi
    have hout : s.fetched ~ q::s.fetched.eraseIdx i := by
      rw [← hget]
      exact (List.getElem_cons_eraseIdx_perm hlt).symm
    calc
      [] ++ (s.fetched.map AssocReq.id ++ s.freed) ~
          (q::s.fetched.eraseIdx i).map AssocReq.id ++ s.freed :=
        (hout.map AssocReq.id).append_right _
      _ ~ (s.fetched.eraseIdx i).map AssocReq.id ++ (s.freed ++ [q.id]) := by
        rw [← List.append_assoc]
        exact (List.perm_append_singleton _ _).symm

theorem Booked.flush (h : Booked s []) : Booked s.flush [] ∧ s.flush.assocReqList = [] := by
  unfold Admc.flush
  generalize hl : s.assocReqList = l
  induction l generalizing s with
  | nil => exact ⟨h, hl⟩
  | cons q l ih =>
    have hq : q∈s.assocReqList := by simp [hl]
    refine ih (h.take hq).free ?_
    simp [Admc.free, Admc.unlink, Admc.delTimer, hl]

theorem Booked.flush_freed (h : Booked s []) (hout : s.flush.fetched = []) :
    List.range s.flush.next ~ s.flush.freed := by
  obtain ⟨hb, hempty⟩ := h.flush
  simpa [hempty, hout] using hb.once

end Books

section Fetch
variable {s : Admc} {staMac : List UInt8} {q : AssocReq}

theorem fetch_found (h : Booked s [])
    (hq : s.assocReqList.find? (fun q => decide (q.staMac = staMac)) = some q) :
    s.fetch staMac = ({ (s.delTimer q.id).unlink q.id with fetched := s.fetched ++ [q] },
      .request q) := by
  have hne : s.assocReqList ≠ [] := List.ne_nil_of_mem (List.mem_of_find?_eq_some hq)
  simp [Admc.fetch, h.mode, Admc.search, hne, walk_of_find hq, Admc.unlink, Admc.delTimer]

theorem fetch_empty (h : Booked s []) (hnil : s.assocReqList = []) :
    s.fetch staMac = (s, .none) := by
  simp [Admc.fetch, h.mode, Admc.search, hnil]

theorem fetch_absent (h : Booked s []) (hne : s.assocReqList ≠ [])
    (habs : ∀ q∈s.assocReqList, q.staMac ≠ staMac) :
    s.fetch staMac = ({ s with assocReqCnt := s.assocReqCnt-1, wild := true }, .head) := by
  simp [Admc.fetch, h.mode, Admc.search, hne, walk_of_absent habs]

theorem Booked.fetch (h : Booked s [])
    (hq : s.assocReqList.find? (fun q => decide (q.staMac = staMac)) = some q) :
    Booked (s.fetch staMac).1 [] := by
  rw [fetch_found h hq]
  have ht := h.take (List.mem_of_find?_eq_some hq)
  refine ⟨ht.mode, ht.intact, ht.count, ht.timers, ht.once.trans (List.Perm.append_left _ ?_)⟩
  have hp : q.id::(s.fetched.map AssocReq.id ++ s.freed) ~
      s.fetched.map AssocReq.id ++ q.id::s.freed := List.perm_middle.symm
  simpa [Admc.unlink, Admc.delTimer] using hp

theorem fetchSound_found (h : Booked s [])
    (hq : s.assocReqList.find? (fun q => decide (q.staMac = staMac)) = some q) :
    FetchSound s staMac := by
  simp only [FetchSound, hq, fetch_found h hq, eraseP_of_find h.nodup hq]
  rfl

theorem ok_fetch_cases (hok : Ok s (.fetch staMac)) : s.assocReqList = [] ∨
    ∃ q, s.assocReqList.find? (fun q => decide (q.staMac = staMac)) = some q := by
  rcases hok with hnil | ⟨q, hq, hm⟩
  · exact Or.inl hnil
  · refine Or.inr (Option.isSome_iff_exists.mp ?_)
    rw [List.find?_isSome]
    exact ⟨q, hq, by simpa using hm⟩

end Fetch

theorem step_booked {s : Admc} {e : Event} (h : Booked s []) (hok : Ok s e) :
    Booked (step s e) [] := by
  simp only [step, h.intact, Bool.false_eq_true, if_false]
  cases e with
  | add frm alloc => exact h.add frm alloc
  | release i => exact h.release i
  | timeout id => exact h.timeout id
  | flush => exact h.flush.1
  | fetch staMac =>
    rcases ok_fetch_cases hok with hnil | ⟨q, hq⟩
    · simpa [fetch_empty h hnil] using h
    · exact h.fetch hq

theorem keeps_iff_ok {s : Admc} {e : Event} (h : Booked s []) : Keeps s e ↔ Ok s e := by
  constructor
  · intro hk
    cases e with
    | fetch staMac =>
      by_cases hnil : s.assocReqList = []
      · exact Or.inl hnil
      · refine Or.inr ?_
        by_contra hno
        have habs : ∀ q∈s.assocReqList, q.staMac ≠ staMac := fun q hq hm => hno ⟨q, hq, hm⟩
        have hwild := hk.1.intact
        simp [step, h.intact, fetch_absent h hnil habs] at hwild
    | _ => trivial
  · intro hok
    refine ⟨(step_booked h hok).sound, ?_⟩
    rintro staMac rfl
    rcases ok_fetch_cases hok with hnil | ⟨q, hq⟩
    · simp [FetchSound, hnil, fetch_empty h hnil]
    · exact fetchSound_found h hq

/-- The requests are kept as they should be exactly as long as every connect event finds the list
empty or with a request of its own station. -/
theorem assoc_req_list_iff (es : List Event) :
    AllSteps step Keeps {} es ↔ AllSteps step Ok {} es :=
  allSteps_iff_allSteps (I := fun s => Booked s []) (fun _ _ => step_booked)
    (fun _ _ => keeps_iff_ok) Booked.start es

/-- A frame of the station with the address `a`. -/
def frameOf (a : UInt8) : List UInt8 := List.replicate 10 0 ++ List.replicate 6 a

/-- One station is waiting when another one connects. -/
theorem assoc_req_head_unlinked :
    ¬AllSteps step Keeps {} [.add (frameOf 1) true, .fetch (List.replicate 6 2)] := by
  rintro ⟨-, ⟨hsound, -⟩, -⟩
  have hwild := hsound.intact
  revert hwild
  decide

end Ath6kl.ApAdmission
