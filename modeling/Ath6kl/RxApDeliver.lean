import Ath6kl.RxDeliver

/-! The receive path of an access point: the frames of one station and TID, past the bridge, as the
network stack gets them. -/
namespace Ath6kl.RxPath
open EthFrame RxReorder Lib.Machine

abbrev Flow := StaIdx × Tid

/-- What `ath6kl_rx` of an access point unwraps from a packet, and whose it is. -/
def unwrapped (v : Vif) (p : Packet) : Option (Flow × RecvFrm) :=
  let h := wmiDataHdr p.skb
  let s := rxStrip h p.skb
  if p.failed ∨ p.ctrlEp ∨ h.ifIdx ≠ v.fwVifIdx then none
  else (findSta v (s.copy 6 6)).map fun i => ((i, h.up), ⟨h.seqNo, h.amsdu, s, p.bufs⟩)

def Out.stack : Out → Option Bytes
  | .toStack frame => some frame
  | _ => none

/-- The frames that an event brings, and the flow its doings belong to. -/
def Event.arrived (v : Vif) : Event → Option (Flow × RecvFrm)
  | .rx p => unwrapped v p
  | _ => none

def Event.flow (v : Vif) : Event → Option Flow
  | .rx p => (unwrapped v p).map Prod.fst
  | .reorder i tid _ => some (i, tid)
  | _ => none

/-- The interface, the frames unwrapped so far and what was handed over, each with its flow. -/
structure Relay where
  vif : Vif
  arrived : List (Flow × RecvFrm) := []
  out : List (Option Flow × Out) := []

def Relay.next (disableRxAggrDrop : Bool) (s : Relay) (e : Event) : Relay :=
  let res := step disableRxAggrDrop s.vif e
  { vif := res.1
    arrived := s.arrived ++ (e.arrived s.vif).toList
    out := s.out ++ res.2.map fun o => (e.flow s.vif, o) }

def framesOf (k : Flow) (l : List (Flow × RecvFrm)) : List RecvFrm :=
  (l.filter fun x => x.1 = k).map Prod.snd

def stackOf (k : Flow) (l : List (Option Flow × Out)) : List Bytes :=
  (l.filter fun x => x.1 = some k).filterMap fun x => x.2.stack

abbrev Vif.rxtid (v : Vif) (k : Flow) : Rxtid := (v.staList k.1).rxtid k.2

/-- The session of the flow stays open, and `ATH6KL_CONF_DISABLE_RX_AGGR_DROP` does not keep a frame
of it that is too old or too far ahead. -/
def Relay.Admits (disableRxAggrDrop : Bool) (k : Flow) (s : Relay) : Event → Prop
  | .rx p => disableRxAggrDrop = true → ∀ f, unwrapped s.vif p = some (k, f) →
    beyondWindows (s.vif.rxtid k) f.seqNo = false
  | .reorder i tid e => (i, tid) = k → e = .timeout
  | _ => True

/-- Of the frames `kept` of a flow the stack gets some, or subframes of them, in sequence and each at
most once. -/
def Ordered (seqNo : Nat) (kept : List RecvFrm) (frames : List Bytes) : Prop :=
  ∃ ds : List Delivery, frames.Sublist (ds.map Delivery.frame) ∧ ds.Pairwise Delivery.Before ∧
    ∀ d∈ds, ∃ f, kept[d.id]? = some f ∧ d.seqNo = f.seqNo ∧
      (seqNo+d.unwrapped) % 4096 = d.seqNo ∧ (f.node d.id).frames[d.sub]? = some d.frame

section Relay
variable {v : Vif} {d : Bool} {k : Flow} {seqNo winSz : Nat} {s : Relay}

theorem setRxtid_same (v : Vif) (k : Flow) (r : Rxtid) :
    (v.setRxtid k.1 k.2 r).rxtid k = r := by
  simp [Vif.setRxtid, Vif.rxtid]

theorem setRxtid_other {k' : Flow} (h : k' ≠ k) (v : Vif) (r : Rxtid) :
    (v.setRxtid k'.1 k'.2 r).rxtid k = v.rxtid k := by
  obtain ⟨i, tid⟩ := k
  obtain ⟨j, t⟩ := k'
  by_cases hi : i = j
  · have ht : tid ≠ t := by
      rintro rfl
      exact h (by rw [hi])
    simp [Vif.setRxtid, Vif.rxtid, hi, ht]
  · simp [Vif.setRxtid, Vif.rxtid, hi]

theorem deliverFrames_stack (v : Vif) (frame : Bytes) :
    (deliverFrames v frame).stack = none ∨ (deliverFrames v frame).stack = some frame := by
  unfold deliverFrames
  split
  · exact Or.inl rfl
  · split
    · left
      split <;> rfl
    · exact Or.inr rfl

theorem deliverFrames_sublist (v : Vif) (ds : List Delivery) :
    ((ds.map fun x => deliverFrames v x.frame).filterMap Out.stack).Sublist
      (ds.map Delivery.frame) := by
  induction ds with
  | nil => exact List.Sublist.refl []
  | cons x ds ih =>
    rw [List.map_cons, List.map_cons]
    rcases deliverFrames_stack v x.frame with h | h
    · rw [List.filterMap_cons_none h]
      exact ih.cons x.frame
    · rw [List.filterMap_cons_some h]
      exact ih.cons_cons x.frame

theorem framesOf_append (k : Flow) (l m : List (Flow × RecvFrm)) :
    framesOf k (l ++ m) = framesOf k l ++ framesOf k m := by
  rw [framesOf, List.filter_append, List.map_append, ← framesOf, ← framesOf]

theorem stackOf_append (k : Flow) (l : List (Option Flow × Out)) (x : Option Flow)
    (outs : List Out) : stackOf k (l ++ outs.map fun o => (x, o)) =
      stackOf k l ++ if x = some k then outs.filterMap Out.stack else [] := by
  rw [stackOf, List.filter_append, List.filterMap_append, ← stackOf]
  congr 1
  rw [List.filter_map]
  split <;> rename_i h <;> simp [Function.comp_def, h, List.filterMap_map]

/-- The frame of a flow goes into its reorder buffer, and up if that does not take it. -/
def Vif.buffered (v : Vif) (disableRxAggrDrop : Bool) (k : Flow) (f : RecvFrm) : Vif × List Out :=
  let rq := aggrProcessRecvFrm disableRxAggrDrop (v.rxtid k) f
  let res := v.reordered k.1 k.2 rq.1
  (res.1, if rq.2 then res.2 else res.2 ++ [deliverFrames v f.frame.data])

theorem rxAggrProcess_ap (d : Bool) (hap : v.ap = true) (i : StaIdx) (h : WmiDataHdr) (skb : Skb)
    (bufs : Nat) :
    rxAggrProcess d v i h skb bufs = v.buffered d (i, h.up) ⟨h.seqNo, h.amsdu, skb, bufs⟩ := by
  rw [rxAggrProcess, if_pos (Or.inr hap)]
  simp only [Vif.buffered, Vif.rxtid]
  split <;> rfl

theorem rxBridge_ap (d : Bool) (hap : v.ap = true) (i : StaIdx) (h : WmiDataHdr) (skb : Skb)
    (bufs : Nat) (alloc : Bool) :
    (∃ outs, rxBridge d v i h skb bufs alloc = (v, outs) ∧ outs.filterMap Out.stack = []) ∨
      ∃ pre, pre.filterMap Out.stack = [] ∧ rxBridge d v i h skb bufs alloc =
        let res := v.buffered d (i, h.up) ⟨h.seqNo, h.amsdu, skb, bufs⟩
        (res.1, pre ++ res.2) := by
  unfold rxBridge
  rw [rxAggrProcess_ap d hap]
  split
  · right
    refine ⟨if alloc then [.toAir skb.data] else [], ?_, rfl⟩
    split <;> rfl
  · split
    · exact Or.inr ⟨[], rfl, rfl⟩
    · split
      · left
        refine ⟨_, rfl, ?_⟩
        split <;> rfl
      · exact Or.inr ⟨[], rfl, rfl⟩

theorem rx_ap (d : Bool) (hap : v.ap = true) (p : Packet) :
    (∃ outs, rx d v p = (v, outs) ∧ outs.filterMap Out.stack = []) ∨
      ∃ k f pre, unwrapped v p = some (k, f) ∧ pre.filterMap Out.stack = [] ∧
        rx d v p = let res := v.buffered d k f
          (res.1, pre ++ res.2) := by
  have hfreed : ([Out.freed]).filterMap Out.stack = [] := rfl
  unfold rx
  dsimp only
  by_cases hfail : p.failed
  · exact Or.inl ⟨_, if_pos hfail, hfreed⟩
  rw [if_neg hfail]
  by_cases hctrl : p.ctrlEp
  · left
    simp only [hctrl, if_true]
    split
    · exact ⟨[], rfl, rfl⟩
    · exact ⟨[.control p.skb], rfl, rfl⟩
  simp only [hctrl, Bool.false_eq_true, if_false]
  by_cases hidx : (wmiDataHdr p.skb).ifIdx ≠ v.fwVifIdx
  · exact Or.inl ⟨[], if_pos hidx, rfl⟩
  rw [if_neg hidx, hap]
  simp only [Bool.not_true, Bool.false_eq_true, if_false]
  cases hsta : findSta v ((rxStrip (wmiDataHdr p.skb) p.skb).copy 6 6) with
  | none => exact Or.inl ⟨_, rfl, hfreed⟩
  | some i =>
    dsimp only
    by_cases hlen : badLen p.skb.data.length (wmiDataHdr p.skb).padBeforeData
    · exact Or.inl ⟨_, if_pos hlen, hfreed⟩
    rw [if_neg hlen]
    by_cases hup : !v.up
    · exact Or.inl ⟨_, if_pos hup, hfreed⟩
    rw [if_neg hup]
    rcases rxBridge_ap d hap i (wmiDataHdr p.skb) (rxStrip (wmiDataHdr p.skb) p.skb) p.bufs p.alloc
      with hout | ⟨pre, hpre, hres⟩
    · exact Or.inl hout
    · right
      refine ⟨_, _, pre, ?_, hpre, hres⟩
      simp [unwrapped, hfail, hctrl, not_not.mp hidx, hsta]

/-- A session in use on the flow of an access point. -/
structure Served (k : Flow) (seqNo winSz : Nat) (s : Relay) : Prop where
  ap : s.vif.ap = true
  idle : Idle seqNo (2*winSz) (s.vif.rxtid k)
  genuine : ∃ kept : List RecvFrm, kept.Sublist (framesOf k s.arrived) ∧
    Genuine kept (s.vif.rxtid k)
  out : (stackOf k s.out).Sublist ((s.vif.rxtid k).delivered.map Delivery.frame)

theorem Served.aside (h : Served k seqNo winSz s) (v : Vif)
    (hr : v.rxtid k = s.vif.rxtid k) (hap : v.ap = true) (new : List (Flow × RecvFrm)) (x : Option Flow)
    (outs : List Out) (hout : x = some k → outs.filterMap Out.stack = []) :
    Served k seqNo winSz ⟨v, s.arrived ++ new, s.out ++ outs.map fun o => (x, o)⟩ := by
  refine ⟨hap, by rw [hr]; exact h.idle, ?_, ?_⟩
  · obtain ⟨kept, hsub, hgen⟩ := h.genuine
    rw [framesOf_append, hr]
    exact ⟨kept, hsub.trans (List.sublist_append_left _ _), hgen⟩
  · rw [stackOf_append, hr]
    split
    · rename_i hx
      rw [hout hx, List.append_nil]
      exact h.out
    · rw [List.append_nil]
      exact h.out

theorem Served.moved (h : Served k seqNo winSz s) {r : Rxtid} {new : List (Flow × RecvFrm)}
    {pre : List Out} (hpre : pre.filterMap Out.stack = []) (hi : Idle seqNo (2*winSz) r)
    (hg : Grown (s.vif.rxtid k) r)
    (hgen : ∃ kept : List RecvFrm, kept.Sublist (framesOf k (s.arrived ++ new)) ∧
      Genuine kept r) :
    Served k seqNo winSz ⟨(s.vif.reordered k.1 k.2 r).1, s.arrived ++ new,
      s.out ++ (pre ++ (s.vif.reordered k.1 k.2 r).2).map fun o => (some k, o)⟩ := by
  have hr : (s.vif.reordered k.1 k.2 r).1.rxtid k = r := setRxtid_same s.vif k r
  refine ⟨h.ap, by rw [hr]; exact hi, by rw [hr]; exact hgen, ?_⟩
  obtain ⟨new, hnew⟩ := hg
  rw [stackOf_append, if_pos rfl, hr, List.filterMap_append, hpre, List.nil_append, ← hnew,
    List.map_append]
  refine h.out.append ?_
  simp only [Vif.reordered, ← hnew]
  rw [show ((s.vif.staList k.1).rxtid k.2) = s.vif.rxtid k from rfl, List.drop_left' rfl]
  exact deliverFrames_sublist s.vif new

theorem Served.rx (h : Served k seqNo winSz s) {p : Packet}
    (hadm : Relay.Admits d k s (.rx p)) : Served k seqNo winSz (Relay.next d s (.rx p)) := by
  simp only [Relay.next, step, Event.arrived, Event.flow]
  rcases rx_ap d h.ap p with ⟨outs, hrx, hout⟩ | ⟨k', f, pre, hunw, hpre, hrx⟩
  · rw [hrx]
    exact h.aside s.vif rfl h.ap _ _ outs fun _ => hout
  · rw [hrx, hunw]
    simp only [Option.map_some, Option.toList_some]
    by_cases hk : k' = k
    · subst hk
      simp only [Vif.buffered]
      rw [aggrProcessRecvFrm_drop fun hd => hadm hd f hunw,
        if_pos (aggrProcessRecvFrm_queues h.idle.aggr _ _)]
      refine h.moved hpre (h.idle.recv _) (aggrProcessRecvFrm_grown _ _ _) ?_
      have hnew : framesOf k' (s.arrived ++ [(k', f)]) = framesOf k' s.arrived ++ [f] := by
        rw [framesOf_append]
        simp [framesOf]
      obtain ⟨kept, hsub, hg⟩ := h.genuine
      rw [hnew]
      rcases hg.recv false f with hg | hg
      · exact ⟨kept, hsub.trans (List.sublist_append_left _ [f]), hg⟩
      · exact ⟨kept ++ [f], hsub.append (List.Sublist.refl [f]), hg⟩
    · exact h.aside _ (setRxtid_other hk _ _) h.ap _ _ _ fun hx => absurd (Option.some.inj hx) hk

theorem Served.reorder (h : Served k seqNo winSz s) (hw : 2*winSz<256) {i : StaIdx} {tid : Tid}
    {e : TidEvent} (hadm : Relay.Admits d k s (.reorder i tid e)) :
    Served k seqNo winSz (Relay.next d s (.reorder i tid e)) := by
  simp only [Relay.next, step, Event.arrived, Event.flow, Option.toList_none]
  by_cases hk : (i, tid) = k
  · rw [hadm hk]
    subst hk
    simp only [handle]
    have hmoved : ∀ {r : Rxtid}, Idle seqNo (2*winSz) r → Grown (s.vif.rxtid (i, tid)) r →
        (∃ kept : List RecvFrm, kept.Sublist (framesOf (i, tid) (s.arrived ++ [])) ∧
          Genuine kept r) → _ := fun hi hg hgen =>
      h.moved (show ([] : List Out).filterMap Out.stack = [] from rfl) hi hg hgen
    obtain ⟨kept, hsub, hgen⟩ := h.genuine
    rw [List.append_nil] at hmoved ⊢
    split
    · have hsame : SameQueue (s.vif.rxtid (i, tid))
          { s.vif.rxtid (i, tid) with tidTimer := none } := ⟨rfl, rfl, rfl, rfl, rfl, rfl, rfl, rfl⟩
      exact hmoved ((h.idle.same hsame h.idle.notHung).timeout hw)
        (aggrTimeout_grown List.prefix_rfl) ⟨kept, hsub, (hgen.same hsame).timeout⟩
    · exact hmoved h.idle List.prefix_rfl ⟨kept, hsub, hgen⟩
  · exact h.aside _ (setRxtid_other hk _ _) h.ap [] _ _ fun hx => absurd (Option.some.inj hx) hk

theorem Served.next (h : Served k seqNo winSz s) (hw : 2*winSz<256) (e : Event)
    (hadm : Relay.Admits d k s e) : Served k seqNo winSz (Relay.next d s e) := by
  cases e with
  | rx p => exact h.rx hadm
  | reorder i tid e => exact h.reorder hw hadm
  | setUp up => exact h.aside { s.vif with up } rfl h.ap [] none [] fun _ => rfl
  | setIntraBss intraBss => exact h.aside { s.vif with intraBss } rfl h.ap [] none [] fun _ => rfl
  | setSta i mac =>
    refine h.aside (step d s.vif (.setSta i mac)).1 ?_ h.ap [] none [] fun _ => rfl
    by_cases hi : k.1 = i
    · simp [step, Vif.rxtid, hi]
    · simp [step, Vif.rxtid, hi]

end Relay

/-- While a session is open for a station and TID of an access point, the stack gets of that flow
what its packets carry, in sequence and each frame at most once: whatever the packets of this and
the other stations hold, whatever the bridge takes out, and however the interface, the bridging, the
addresses of the stations and the other sessions change meanwhile. -/
theorem ap_stack_in_sequence (disableRxAggrDrop : Bool) (v : Vif) (k : Flow) (r : Rxtid)
    (seqNo winSz : Nat) (hap : v.ap = true) (hw : winSz = 2 ∨ winSz = 4 ∨ winSz = 8)
    (hr : v.rxtid k = openSession r seqNo winSz)
    (hopen : (openSession r seqNo winSz).aggr = true)
    (hrun : (openSession r seqNo winSz).hung = false) (es : List Event)
    (hadm : AllSteps (Relay.next disableRxAggrDrop) (Relay.Admits disableRxAggrDrop k)
      ⟨v, [], []⟩ es) :
    let s := run (Relay.next disableRxAggrDrop) ⟨v, [], []⟩ es
    ∃ kept : List RecvFrm, kept.Sublist (framesOf k s.arrived) ∧
      Ordered seqNo kept (stackOf k s.out) := by
  have hf := openSession_fresh hopen
  have h0 : Served k seqNo winSz ⟨v, [], []⟩ := by
    refine ⟨hap, ?_, ⟨[], List.Sublist.refl [], ?_⟩, List.nil_sublist _⟩
    · rw [hr]
      exact hf.idle (sized_of_winSz hw) hopen hrun
    · rw [hr]
      refine ⟨rfl, fun i n hn => ?_, fun d hd => ?_⟩
      · cases (hf.holdQ i).symm.trans hn
      · rw [hf.log] at hd
        cases hd
  have h := run_invariant_of (I := Served k seqNo winSz)
    (fun s e hs hadm => hs.next (by omega) e hadm) h0 hadm
  obtain ⟨kept, hsub, hg⟩ := h.genuine
  have hio := h.idle.inOrder
  refine ⟨kept, hsub, _, h.out, hio.ordered, fun d hd => ?_⟩
  obtain ⟨f, hf, hdel⟩ := hg.logged d (List.mem_append_left _ hd)
  have hseq : d.seqNo = f.seqNo := (deliveries_unwrapped hdel).2.1
  refine ⟨f, hf, hseq, ?_, ?_⟩
  · rw [hio.unwrap d hd, hseq, Nat.mod_eq_of_lt f.seqNo.isLt]
  · simp only [HoldQ.deliveries, List.mem_map] at hdel
    obtain ⟨⟨x, i⟩, hx, he⟩ := hdel
    rw [← he]
    exact List.mem_zipIdx_iff_getElem?.mp hx

def apVif : Vif :=
  ⟨true, true, false, 2, fun _ => ⟨[4, 0, 0, 0, 0, 2], fun _ => openSession {} 4095 2⟩⟩

theorem ap_stack_in_sequence_wrap :
    let s := run (Relay.next false) ⟨apVif, [], []⟩
      [.rx (oneFrame.packet 2 5), .reorder 0 5 .timeout, .setIntraBss true,
        .rx (twoFrames.packet 2 5)]
    ∃ kept : List RecvFrm, kept.Sublist (framesOf (0, 5) s.arrived) ∧
      Ordered 4095 kept (stackOf (0, 5) s.out) := by
  refine ap_stack_in_sequence false apVif (0, 5) {} 4095 2 rfl (Or.inl rfl) rfl rfl rfl _
    ⟨?_, ?_, trivial, ?_, trivial⟩
  · exact fun h => absurd h Bool.false_ne_true
  · exact fun _ => rfl
  · exact fun h => absurd h Bool.false_ne_true

end Ath6kl.RxPath
