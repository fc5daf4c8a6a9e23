import Ath6kl.DataTx
import Mathlib.Data.List.Flatten

/-! Aggregation does not reorder a flow: the MSDUs of one station and TID reach HTC in the
order in which they were submitted, and none passes one that `amsdu_skb` still holds. -/
namespace Ath6kl.DataTx
open EthFrame AmsduTx Lib.Machine
open PowerSave (WmiDataFlags)

/-- A station and a TID; frames for a group have no station. -/
abbrev Flow := Option StaIdx × Tid

def flowOf (m : Msdu) : Flow := (m.rcv, m.tid)

def only (f : Flow) (ms : List Msdu) : List Msdu := ms.filter fun m => flowOf m = f

/-- The MSDUs handed to `ath6kl_htc_tx`, an aggregate counting as its subframes in order. -/
def Driver.handed (s : Driver) : List Msdu := s.htcTx.flatMap fun skb => skb.msdus

/-- The MSDUs in the `amsdu_skb` of a station and TID. -/
def heldMsdus (vif : Vif) (p : StaIdx × Tid) : List Msdu :=
  match vif.held p with
  | none => []
  | some a => a.msdus

/-- The MSDUs of a flow in `amsdu_skb`. -/
def heldBack (vif : Vif) : Flow → List Msdu
  | (some i, t) => heldMsdus vif (i, t)
  | (none, _) => []

/-- The MSDUs in the power save queue of a station. -/
def psqMsdus (vif : Vif) : Flow → List Msdu
  | (some i, _) => (vif.sta i).psqData.flatMap fun b => b.frame.msdus
  | (none, _) => []

/-- What waits for its turn in the driver, in order. -/
def waiting (vif : Vif) (f : Flow) : List Msdu := heldBack vif f ++ psqMsdus vif f

/-- All of a flow that has not been dropped, in the order in which it leaves. -/
def line (s : Driver) (f : Flow) : List Msdu := only f (s.handed ++ waiting s.vif f)

section Only
variable (f : Flow) (ms ns : List Msdu)

@[simp] theorem only_nil : only f [] = [] := rfl

@[simp] theorem only_append : only f (ms ++ ns) = only f ms ++ only f ns := List.filter_append ..

variable {f ms}

theorem only_self (h : ∀ m∈ms, flowOf m = f) : only f ms = ms :=
  List.filter_eq_self.mpr fun m hm => decide_eq_true (h m hm)

theorem only_other {g : Flow} (h : ∀ m∈ms, flowOf m = g) (hg : g ≠ f) : only f ms = [] :=
  List.filter_eq_nil_iff.mpr fun m hm hf => hg (h m hm ▸ of_decide_eq_true hf)

end Only

/-- An aggregate holds MSDUs of its station and TID only. -/
def Labelled (v : Vif) : Prop :=
  ∀ p a, v.held p = some a → ∀ m∈a.msdus, flowOf m = (some p.1, p.2)

/-- What holds of an interface at all times. -/
structure Sound (v : Vif) : Prop where
  amsdu : v.amsduEnabled = true
  enable : v.aggr.enable = true
  seqPkt : v.aggr.seqPkt = true
  -- frames wait either in the aggregates of a station or in its power save queue
  quiet : v.nwType = .ap → ∀ i, (v.sta i).sleep = true ∨ (v.sta i).psqData ≠ [] →
    ∀ t, v.held (i, t) = none
  psq : v.nwType ≠ .ap → ∀ i, (v.sta i).psqData = []
  adhoc : v.nwType = .adhoc → ∀ p, v.held p = none
  label : Labelled v
  psqLabel : ∀ i, ∀ b∈(v.sta i).psqData, receiver v b.frame = some i ∧
    ∀ m∈b.frame.msdus, m.rcv = some i

/-- What holds in addition between two calls. -/
structure AtRest (v : Vif) : Prop where
  awake : v.nwType = .ap → ∀ i, (v.sta i).sleep = false → (v.sta i).psqData = []
  unserved : v.nwType = .ap → ∀ i, (v.sta i).polled = false ∧ (v.sta i).apsdTrigger = false

/-- A step that hands over or drops what waits, and does not touch the stations. -/
structure Moved (s s' : Driver) : Prop where
  same : Same s.vif s'.vif
  held : ∀ p, s'.vif.held p = s.vif.held p ∨ s'.vif.held p = none
  line : ∀ f, List.Sublist (line s' f) (line s f)
  submitted : s'.submitted = s.submitted

theorem Moved.refl (s : Driver) : Moved s s where
  same := Same.refl s.vif
  held _ := .inl rfl
  line _ := List.Sublist.refl _
  submitted := rfl

theorem Moved.trans {s t u : Driver} (h : Moved s t) (k : Moved t u) : Moved s u where
  same := h.same.trans k.same
  held p := by
    cases k.held p with
    | inl hk => rw [hk]; exact h.held p
    | inr hk => exact .inr hk
  line f := (k.line f).trans (h.line f)
  submitted := k.submitted.trans h.submitted

theorem Moved.none {s s' : Driver} (h : Moved s s') {p : StaIdx × Tid}
    (hp : s.vif.held p = none) : s'.vif.held p = none := by
  cases h.held p with
  | inl hk => rw [hk, hp]
  | inr hk => exact hk

theorem receiver_same {v w : Vif} (h : Same v w) (skb : TxSkb) :
    receiver w skb = receiver v skb := by
  simp only [receiver, h.nwType, h.findSta]

theorem psqMsdus_same {v w : Vif} (h : Same v w) (f : Flow) : psqMsdus w f = psqMsdus v f := by
  cases f with
  | mk r t =>
  cases r with
  | none => rfl
  | some i => simp only [psqMsdus, h.psqData]

theorem Labelled.moved {s s' : Driver} (h : Labelled s.vif) (k : Moved s s') :
    Labelled s'.vif := by
  intro p a ha
  cases k.held p with
  | inl hk => exact h p a (hk ▸ ha)
  | inr hk => rw [hk] at ha; cases ha

theorem Sound.moved {s s' : Driver} (h : Sound s.vif) (k : Moved s s') : Sound s'.vif where
  amsdu := k.same.amsduEnabled.trans h.amsdu
  enable := k.same.enable.trans h.enable
  seqPkt := k.same.seqPkt.trans h.seqPkt
  quiet hap i hi t := by
    rw [k.same.nwType] at hap
    rw [k.same.sleep, k.same.psqData] at hi
    exact k.none (h.quiet hap i hi t)
  psq hap i := by
    rw [k.same.nwType] at hap
    rw [k.same.psqData]
    exact h.psq hap i
  adhoc had p := by
    rw [k.same.nwType] at had
    exact k.none (h.adhoc had p)
  label := h.label.moved k
  psqLabel i b hb := by
    rw [k.same.psqData] at hb
    rw [receiver_same k.same]
    exact h.psqLabel i b hb

theorem AtRest.same {v w : Vif} (h : AtRest v) (k : Same v w) : AtRest w where
  awake hap i hi := by
    rw [k.nwType] at hap
    rw [k.sleep] at hi
    rw [k.psqData]
    exact h.awake hap i hi
  unserved hap i := by
    rw [k.nwType] at hap
    rw [k.sta i]
    exact h.unserved hap i

variable {s s' : Driver} {i : StaIdx} {tid : Tid}

theorem handed_htcTx (s : Driver) (ar : Ar) (skb : TxSkb) :
    ({ s with ar := ar, htcTx := s.htcTx ++ [skb] } : Driver).handed = s.handed ++ skb.msdus := by
  simp [Driver.handed]

/-- A frame leaves for HTC or is dropped. -/
structure Sent (s s' : Driver) (ms : List Msdu) : Prop where
  vif : s'.vif = s.vif
  submitted : s'.submitted = s.submitted
  handed : s'.handed = s.handed ∨ s'.handed = s.handed ++ ms

theorem Sent.none (s : Driver) (ar : Ar) (ms : List Msdu) : Sent s { s with ar := ar } ms :=
  ⟨rfl, rfl, .inl rfl⟩

theorem submit_sent (s : Driver) (ar : Ar) (skb : TxSkb) (flow : FlowRet) :
    Sent s (({ s with ar := ar } : Driver).submit skb flow) skb.msdus := by
  cases flow with
  | send => exact ⟨rfl, rfl, .inr (handed_htcTx s ar skb)⟩
  | queue => exact ⟨rfl, rfl, .inl rfl⟩
  | error => exact Sent.none s ar skb.msdus

structure Commanded (s s' : Driver) : Prop where
  vif : s'.vif = s.vif
  htcTx : s'.htcTx = s.htcTx
  flowQ : s'.flowQ = s.flowQ
  submitted : s'.submitted = s.submitted

theorem Commanded.refl (s : Driver) : Commanded s s := ⟨rfl, rfl, rfl, rfl⟩

theorem Commanded.trans {t : Driver} (h : Commanded s t) (k : Commanded t s') :
    Commanded s s' :=
  ⟨k.vif.trans h.vif, k.htcTx.trans h.htcTx, k.flowQ.trans h.flowQ, k.submitted.trans h.submitted⟩

theorem Commanded.moved (h : Commanded s s') : Moved s s' where
  same := h.vif ▸ Same.refl s.vif
  held _ := .inl (by rw [h.vif])
  line f := by
    simp only [line, Driver.handed, h.htcTx, h.vif]
    exact List.Sublist.refl _
  submitted := h.submitted

theorem Commanded.sent {t : Driver} {ms : List Msdu} (h : Commanded s t) (k : Sent t s' ms) :
    Sent s s' ms where
  vif := k.vif.trans h.vif
  submitted := k.submitted.trans h.submitted
  handed := by
    have hh : t.handed = s.handed := by rw [Driver.handed, Driver.handed, h.htcTx]
    rw [← hh]
    exact k.handed

theorem cmdSend_commanded (env : Env) (s : Driver) (cmd : TxCmd) :
    Commanded s (s.cmdSend env cmd) := by
  unfold Driver.cmdSend
  split
  · split
    · exact .refl s
    · exact ⟨rfl, rfl, rfl, rfl⟩
  · exact .refl s

theorem cmdsSend_commanded (s : Driver) (cmds : List TxCmd) (env : Env) :
    Commanded s (s.cmdsSend cmds env) := by
  induction cmds generalizing s with
  | nil => exact .refl s
  | cons cmd cmds ih => exact (cmdSend_commanded env s cmd).trans (ih (s.cmdSend env cmd))

theorem createPstream_commanded (s : Driver) (trafficClass : Nat) (usrPri : Tid) (env : Env) :
    Commanded s (s.createPstream trafficClass usrPri env) := by
  unfold Driver.createPstream
  split
  · exact .refl s
  · have hc := cmdSend_commanded env { s with ar := { s.ar with
      fatPipeExist := Function.update s.ar.fatPipeExist trafficClass true } }
      (.createPstream trafficClass usrPri)
    exact ⟨hc.vif, hc.htcTx, hc.flowQ, hc.submitted⟩

theorem handshakeProtect_commanded (s : Driver) (skb : TxSkb) (env : Env) :
    Commanded s (s.handshakeProtect skb env) := by
  unfold Driver.handshakeProtect
  split
  · have hc := cmdsSend_commanded { s with ar := { s.ar with scanReq := [] } }
      (s.ar.scanReq.map .abortScan) env
    exact ⟨hc.vif, hc.htcTx, hc.flowQ, hc.submitted⟩
  · exact .refl s

theorem heldMsdus_update {v w : Vif} {p : StaIdx × Tid} {x : Option Amsdu}
    (hh : w.held = Function.update v.held p x) {q : StaIdx × Tid} (hq : q ≠ p) :
    heldMsdus w q = heldMsdus v q := by
  simp only [heldMsdus, hh, Function.update_of_ne hq]

theorem waiting_update {v w : Vif} (hs : Same v w) {x : Option Amsdu}
    (hh : w.held = Function.update v.held (i, tid) x) {f : Flow} (hf : f ≠ (some i, tid)) :
    waiting w f = waiting v f := by
  unfold waiting
  rw [psqMsdus_same hs]
  cases f with
  | mk r t =>
  cases r with
  | none => rfl
  | some j =>
    have hq : (j, t) ≠ (i, tid) := fun hq => hf (by
      obtain ⟨rfl, rfl⟩ := Prod.mk.inj hq
      rfl)
    simp only [heldBack, heldMsdus_update hh hq]

theorem heldBack_none {v : Vif} {f : Flow} (h : ∀ j, f.1 = some j → v.held (j, f.2) = none) :
    heldBack v f = [] := by
  cases f with
  | mk r t =>
  cases r with
  | none => rfl
  | some j =>
    have hj : v.held (j, t) = none := h j rfl
    simp only [heldBack, heldMsdus, hj]

theorem heldBack_gone {v w : Vif} (hh : w.held = Function.update v.held (i, tid) none) :
    heldBack w (some i, tid) = [] := by
  simp only [heldBack, heldMsdus, hh, Function.update_self]

theorem Labelled.flow_held (h : Labelled s.vif) {a : Amsdu} (ha : s.vif.held (i, tid) = some a)
    (f : Flow) : only f a.msdus = if f = (some i, tid) then a.msdus else [] := by
  have hl := h (i, tid) a ha
  split
  next hf => rw [hf]; exact only_self hl
  next hf => exact only_other hl (Ne.symm hf)

theorem emptied_moved {w : Vif} (hs : Same s.vif w)
    (hh : w.held = Function.update s.vif.held (i, tid) none) : Moved s { s with vif := w } where
  same := hs
  held p := by
    by_cases hp : p = (i, tid)
    · rw [hp, hh, Function.update_self]
      exact .inr rfl
    · rw [hh, Function.update_of_ne hp]
      exact .inl rfl
  line f := by
    by_cases hf : f = (some i, tid)
    · subst hf
      have hback : heldBack w (some i, tid) = [] := heldBack_gone hh
      simp only [line, waiting, hback, psqMsdus_same hs, List.nil_append, only_append]
      exact (List.Sublist.refl _).append (List.sublist_append_right _ _)
    · simp only [line, waiting_update hs hh hf]
      exact List.Sublist.refl _
  submitted := rfl

/-- What `aggr_tx_tid` does to the flows. -/
theorem aggrTxTid_moved (h : Labelled s.vif) (timerStop : Bool) (clk : Clock) (flow : FlowRet) :
    Moved s (aggrTxTid s i tid timerStop clk flow) ∧
    (aggrTxTid s i tid timerStop clk flow).vif.held (i, tid) = none := by
  have hspec := aggrTxTake_spec s.vif i tid timerStop clk
  unfold aggrTxTid
  generalize aggrTxTake s.vif i tid timerStop clk = r at hspec
  cases hspec with
  | empty hnone => exact ⟨Moved.refl s, hnone⟩
  | @lost w _ hs hh => exact ⟨emptied_moved hs hh, by rw [hh, Function.update_self]⟩
  | @taken w a dest ha hs hh =>
    dsimp only
    have hsent : ∀ t : Driver,
        Sent { s with vif := w } t (a.finish a.lastpduLen dest s.vif.devAddr).msdus →
        Moved s t ∧ t.vif.held (i, tid) = none := fun t ht => by
      have hvif : t.vif = w := ht.vif
      have hheld := (emptied_moved hs hh).held
      refine ⟨⟨hvif ▸ hs, fun p => hvif ▸ hheld p, fun f => ?_, ht.submitted⟩, ?_⟩
      · -- the aggregate goes from behind what was handed over to its end
        have hle : List.Sublist (only f t.handed) (only f s.handed ++ only f a.msdus) := by
          cases ht.handed with
          | inl hk => rw [hk]; exact List.sublist_append_left _ _
          | inr hk => rw [hk, only_append]; exact List.Sublist.refl _
        by_cases hf : f = (some i, tid)
        · subst hf
          have hback : heldBack w (some i, tid) = [] := heldBack_gone hh
          have hbefore : heldBack s.vif (some i, tid) = a.msdus := by
            simp only [heldBack, heldMsdus, ha]
          simp only [line, waiting, hvif, hback, hbefore, psqMsdus_same hs, List.nil_append,
            only_append]
          rw [← List.append_assoc]
          exact hle.append (List.Sublist.refl _)
        · have hmine := h.flow_held ha f
          rw [if_neg hf] at hmine
          rw [hmine, List.append_nil] at hle
          simp only [line, hvif, waiting_update hs hh hf, only_append]
          exact hle.append (List.Sublist.refl _)
      · rw [hvif, hh, Function.update_self]
    split
    · exact hsent _ ⟨rfl, rfl, .inl rfl⟩
    · split
      · exact hsent _ ⟨rfl, rfl, .inl rfl⟩
      · exact hsent _ (submit_sent { s with vif := w } _ _ flow)

theorem mem_flushTids (t : Tid) : t∈flushTids :=
  List.mem_reverse.mpr (List.mem_finRange t)

/-- `aggr_tx_flush` empties all aggregates of the station. -/
theorem aggrTxFlush_moved (h : Labelled s.vif) (env : Env) :
    Moved s (aggrTxFlush s (some i) env) ∧
    ∀ t, (aggrTxFlush s (some i) env).vif.held (i, t) = none := by
  have hfold : ∀ (ts : List Tid) (s : Driver), Labelled s.vif →
      Moved s (ts.foldl (fun s tid => aggrTxTid s i tid true env.clk (env.flushFlow tid)) s) ∧
      ∀ t∈ts, (ts.foldl (fun s tid => aggrTxTid s i tid true env.clk (env.flushFlow tid))
        s).vif.held (i, t) = none := by
    intro ts
    induction ts with
    | nil => exact fun s _ => ⟨Moved.refl s, fun t ht => nomatch ht⟩
    | cons u us ih =>
      intro s hs
      obtain ⟨hm, hn⟩ := aggrTxTid_moved (i := i) hs true env.clk (env.flushFlow u)
      obtain ⟨hm', hn'⟩ := ih _ (hs.moved hm)
      refine ⟨hm.trans hm', fun t ht => ?_⟩
      cases List.mem_cons.mp ht with
      | inl hu => rw [hu]; exact hm'.none hn
      | inr hus => exact hn' t hus
  obtain ⟨hm, hn⟩ := hfold flushTids s h
  exact ⟨hm, fun t => hn t (mem_flushTids t)⟩

theorem dix2Dot3_nil : dix2Dot3 [] = [] := by
  simp [dix2Dot3, isEthertype, ntohs]

theorem dix2Dot3_getD (d : Bytes) (x : UInt8) : (dix2Dot3 d).getD 0 x = d.getD 0 x := by
  cases d with
  | nil => rw [dix2Dot3_nil]
  | cons b bs =>
    unfold dix2Dot3
    dsimp only
    split <;> rfl

section Encap
variable (v : Vif) (flags : WmiDataFlags) (skb : TxSkb) (up : Tid)

/-- The frame with its headers, as `aggr_tx` gets it. -/
def withUp : TxSkb :=
  { encap v flags skb with data := wmiDataHdrSetUp up (encap v flags skb).data }

theorem withUp_byte : (withUp v flags skb up).byte wmiDataHdrLen = skb.byte 0 := by
  have hget : (withUp v flags skb up).data.getD wmiDataHdrLen ((encap v flags skb).beyond 6) =
      (dix2Dot3 skb.data).getD 0 ((encap v flags skb).beyond 6) := by
    simp only [withUp, encap, wmiDataHdrAdd, wmiDataHdrSetUp, wmiDataHdrLen, List.cons_append,
      List.nil_append, List.modify_succ_cons, List.modify_zero_cons]
    rfl
  have hbeyond : skb.data = [] → (encap v flags skb).beyond 6 = skb.beyond 0 := fun hnil => by
    simp only [encap, hnil, dix2Dot3_nil]
    rfl
  have hb : (withUp v flags skb up).byte wmiDataHdrLen =
      (withUp v flags skb up).data.getD wmiDataHdrLen ((encap v flags skb).beyond 6) := rfl
  rw [hb, hget, dix2Dot3_getD, Skb.byte]
  cases hd : skb.data with
  | nil => exact hbeyond hd
  | cons b bs => rfl

theorem withUp_up : wmiDataHdrGetUp (withUp v flags skb up).data = up :=
  getUp_setUp up flags v.fwVifIdx (dix2Dot3 skb.data)

theorem encap_byte {k : Nat} (hk : 6 ≤ k) :
    (encap v flags skb).byte k = (encap v {} skb).byte k := by
  obtain ⟨n, rfl⟩ : ∃ n, k = n + 6 := ⟨k - 6, by omega⟩
  simp only [Skb.byte, encap, wmiDataHdrAdd, List.cons_append, List.nil_append,
    List.getD_cons_succ, List.length_cons]

theorem usrPri_encap (wmm : Bool) :
    usrPri wmm (encap v flags skb) = usrPri wmm (encap v {} skb) := by
  have hcopy : (encap v flags skb).copy (wmiDataHdrLen + ethHlen + 6) 2 =
      (encap v {} skb).copy (wmiDataHdrLen + ethHlen + 6) 2 :=
    List.map_congr_left fun k _ => encap_byte v flags skb (by simp only [wmiDataHdrLen]; omega)
  have hbyte : (encap v flags skb).byte (wmiDataHdrLen + ethHlen + llcSnapHdrLen + 1) =
      (encap v {} skb).byte (wmiDataHdrLen + ethHlen + llcSnapHdrLen + 1) :=
    encap_byte v flags skb (by decide)
  have hpae : (encap v flags skb).pae = (encap v {} skb).pae := rfl
  simp only [usrPri, hcopy, hbyte, hpae]

end Encap

/-- A call takes `ms` over behind all that waits, or loses them. -/
structure Advance (s s' : Driver) (ms : List Msdu) : Prop where
  sound : Sound s'.vif
  rest : AtRest s'.vif
  line : ∀ f, List.Sublist (line s' f) (line s f ++ only f ms)
  submitted : s'.submitted = s.submitted

variable {ms : List Msdu}

theorem Advance.drop (h : Sound s.vif) (k : AtRest s.vif) (ar : Ar) :
    Advance s { s with ar := ar } ms where
  sound := h
  rest := k
  line _ := List.sublist_append_left _ _
  submitted := rfl

theorem Advance.after {t : Driver} (k : Advance t s' ms) (h : Moved s t) : Advance s s' ms where
  sound := k.sound
  rest := k.rest
  line f := (k.line f).trans ((h.line f).append (List.Sublist.refl _))
  submitted := k.submitted.trans h.submitted

theorem Sent.line (h : Sent s s' ms)
    (hclear : ∀ m∈ms, only (flowOf m) (waiting s.vif (flowOf m)) = []) (f : Flow) :
    List.Sublist (line s' f) (line s f ++ only f ms) := by
  unfold DataTx.line
  rw [h.vif]
  cases h.handed with
  | inl hk =>
    rw [hk]
    exact List.sublist_append_left _ _
  | inr hk =>
    rw [hk]
    cases hms : only f ms with
    | nil =>
      simp only [only_append, hms, List.append_nil]
      exact List.Sublist.refl _
    | cons m rest =>
      have hm : m∈only f ms := by rw [hms]; exact List.mem_cons_self
      obtain ⟨hmem, hflow⟩ := List.mem_filter.mp hm
      have hw := hclear m hmem
      rw [of_decide_eq_true hflow] at hw
      simp only [only_append, hms, hw, List.append_nil]
      exact List.Sublist.refl _

theorem Sent.advance (h : Sent s s' ms) (hs : Sound s.vif) (hr : AtRest s.vif)
    (hclear : ∀ m∈ms, only (flowOf m) (waiting s.vif (flowOf m)) = []) : Advance s s' ms where
  sound := h.vif ▸ hs
  rest := h.vif ▸ hr
  line := h.line hclear
  submitted := h.submitted

theorem waiting_clear {v : Vif} {r : Option StaIdx} {t : Tid}
    (h : ∀ i, r = some i → v.held (i, t) = none ∧ (v.sta i).psqData = []) :
    waiting v (r, t) = [] := by
  cases r with
  | none => rfl
  | some i =>
    obtain ⟨hheld, hpsq⟩ := h i rfl
    simp only [waiting, heldBack, heldMsdus, psqMsdus, hheld, hpsq, List.flatMap_nil,
      List.append_nil]

theorem dataTxSend_sent (skb : TxSkb) (ac : Option Nat) (tag : P2pFlowctrl.Tag) (env : Env) :
    Sent s (dataTxSend s skb ac tag env) skb.msdus := by
  unfold dataTxSend
  cases ac with
  | none =>
    dsimp only
    split
    · exact Sent.none s _ _
    · split
      · exact Sent.none s _ _
      · split
        · exact submit_sent s _ skb env.flow
        · exact Sent.none s _ _
  | some ac =>
    dsimp only
    split
    · exact Sent.none s _ _
    · split
      · exact Sent.none s _ _
      · split
        · exact submit_sent s _ skb env.flow
        · exact Sent.none s _ _

/-- Who a frame is for, and the station that `ath6kl_powersave_ap` found. -/
structure Routed (v : Vif) (skb : TxSkb) (conn rcv : Option StaIdx) : Prop where
  station : v.nwType = .ap → conn = rcv
  other : v.nwType ≠ .ap → conn = none ∧ rcv = some sta0
  group : v.nwType = .ap → rcv = none →
    isMulticastEtherAddr (skb.byte wmiDataHdrLen) = true
  empty : ∀ i, rcv = some i → (v.sta i).psqData = []

variable {skb : TxSkb} {conn rcv : Option StaIdx} {env : Env}

theorem Routed.joins {a : Amsdu} (h : Routed s.vif skb conn rcv)
    (hj : Joins s.vif conn skb i a) : rcv = some i := by
  have hconn := hj.conn
  by_cases hap : s.vif.nwType = .ap
  · rw [h.station hap] at hconn
    cases hr : rcv with
    | none =>
      have hgroup := h.group hap hr
      rw [hj.unicast] at hgroup
      cases hgroup
    | some j =>
      rw [hr] at hconn
      exact hconn
  · obtain ⟨hnone, hsta⟩ := h.other hap
    rw [hnone] at hconn
    simp only [Vif.findSta, if_pos hap] at hconn
    rw [hsta]
    exact hconn

theorem Routed.flush (h : Routed s.vif skb conn rcv) (hs : Sound s.vif)
    (hnw : s.vif.nwType = .infra ∨ s.vif.nwType = .ap) (env : Env) :
    Moved s (aggrTxFlush s conn env) ∧
    ∀ i, rcv = some i → ∀ t, (aggrTxFlush s conn env).vif.held (i, t) = none := by
  cases hnw with
  | inl hinf =>
    obtain ⟨hnone, hsta⟩ := h.other (by rw [hinf]; simp)
    have heq : aggrTxFlush s conn env = aggrTxFlush s (some sta0) env := by
      simp only [aggrTxFlush, hnone, hinf, if_true]
    obtain ⟨hm, hn⟩ := aggrTxFlush_moved (i := sta0) hs.label env
    rw [heq]
    refine ⟨hm, fun i hi => ?_⟩
    rw [hsta] at hi
    rw [← Option.some.inj hi]
    exact hn
  | inr hap =>
    have hconn := h.station hap
    cases hr : rcv with
    | none =>
      have heq : aggrTxFlush s conn env = s := by
        simp [aggrTxFlush, hconn, hr, hap]
      rw [heq]
      exact ⟨Moved.refl s, fun i hi => nomatch hi⟩
    | some j =>
      rw [hconn, hr]
      obtain ⟨hm, hn⟩ := aggrTxFlush_moved (i := j) hs.label env
      refine ⟨hm, fun i hi => ?_⟩
      rw [← Option.some.inj hi]
      exact hn

theorem heldMsdus_joins {a : Amsdu} (hj : Joins s.vif conn skb i a) :
    heldMsdus s.vif (i, wmiDataHdrGetUp skb.data) = a.msdus := by
  cases hj.base with
  | inl h => simp only [heldMsdus, h.1]
  | inr h => simp only [heldMsdus, h.1, h.2, Amsdu.start]

theorem Sound.joins_label {a : Amsdu} (h : Sound s.vif) (hj : Joins s.vif conn skb i a) :
    ∀ m∈a.msdus, flowOf m = (some i, wmiDataHdrGetUp skb.data) := by
  cases hj.base with
  | inl hb => exact h.label _ a hb.1
  | inr hb =>
    rw [hb.2]
    exact fun m hm => nomatch hm

theorem joined_advance {a : Amsdu} {w : Vif} (h : Sound s.vif) (k : AtRest s.vif)
    (hnw : s.vif.nwType = .infra ∨ s.vif.nwType = .ap) (hr : Routed s.vif skb conn rcv)
    (hl : ∀ m∈skb.msdus, flowOf m = (rcv, wmiDataHdrGetUp skb.data))
    (hj : Joins s.vif conn skb i a) (hs : Same s.vif w)
    (hh : w.held = Function.update s.vif.held (i, wmiDataHdrGetUp skb.data)
      (some (a.append skb))) : Advance s { s with vif := w } skb.msdus := by
  have hrcv := hr.joins hj
  have hpsq : (s.vif.sta i).psqData = [] := hr.empty i hrcv
  refine ⟨?_, k.same hs, fun f => ?_, rfl⟩
  · exact {
      amsdu := hs.amsduEnabled.trans h.amsdu
      enable := hs.enable.trans h.enable
      seqPkt := hs.seqPkt.trans h.seqPkt
      quiet := fun hap j hwait t => by
        rw [hs.nwType] at hap
        rw [hs.sleep, hs.psqData] at hwait
        by_cases hp : (j, t) = (i, wmiDataHdrGetUp skb.data)
        · -- a station whose frame is aggregated is awake and has nothing queued
          rw [(Prod.mk.inj hp).1, hj.awake hap, hpsq] at hwait
          cases hwait with
          | inl hsl => cases hsl
          | inr hq => exact absurd rfl hq
        · rw [hh, Function.update_of_ne hp]
          exact h.quiet hap j hwait t
      psq := fun hap j => by
        rw [hs.nwType] at hap
        rw [hs.psqData]
        exact h.psq hap j
      adhoc := fun had => by
        rw [hs.nwType] at had
        rw [had] at hnw
        cases hnw with
        | inl hinf => cases hinf
        | inr hap => cases hap
      label := fun p b hb => by
        by_cases hp : p = (i, wmiDataHdrGetUp skb.data)
        · rw [hp, hh, Function.update_self] at hb
          rw [← Option.some.inj hb, hp]
          intro m hm
          cases List.mem_append.mp hm with
          | inl hold => exact h.joins_label hj m hold
          | inr hnew => rw [hl m hnew, hrcv]
        · rw [hh, Function.update_of_ne hp] at hb
          exact h.label p b hb
      psqLabel := fun j b hb => by
        rw [hs.psqData] at hb
        rw [receiver_same hs]
        exact h.psqLabel j b hb }
  · by_cases hf : f = (some i, wmiDataHdrGetUp skb.data)
    · subst hf
      have hafter : heldBack w (some i, wmiDataHdrGetUp skb.data) = a.msdus ++ skb.msdus := by
        simp only [heldBack, heldMsdus, hh, Function.update_self, Amsdu.append]
      have hbefore : heldBack s.vif (some i, wmiDataHdrGetUp skb.data) = a.msdus :=
        heldMsdus_joins hj
      have hq : psqMsdus s.vif (some i, wmiDataHdrGetUp skb.data) = [] := by
        simp only [psqMsdus, hpsq, List.flatMap_nil]
      simp only [line, Driver.handed, waiting, hafter, hbefore, psqMsdus_same hs, hq, only_append,
        List.append_nil, List.append_assoc]
      exact List.Sublist.refl _
    · simp only [line, Driver.handed, waiting_update hs hh hf]
      exact List.sublist_append_left _ _

theorem filled_advance {a : Amsdu} {w : Vif} (h : Sound s.vif) (k : AtRest s.vif)
    (hr : Routed s.vif skb conn rcv)
    (hl : ∀ m∈skb.msdus, flowOf m = (rcv, wmiDataHdrGetUp skb.data))
    (hj : Joins s.vif conn skb i a) (hs : Same s.vif w)
    (hh : w.held = Function.update s.vif.held (i, wmiDataHdrGetUp skb.data) none)
    (ht : Sent { s with vif := w } s' (a.msdus ++ skb.msdus)) : Advance s s' skb.msdus := by
  have hrcv := hr.joins hj
  have hm := emptied_moved hs hh
  have hflow : ∀ m∈a.msdus ++ skb.msdus, flowOf m = (some i, wmiDataHdrGetUp skb.data) := by
    intro m hmem
    cases List.mem_append.mp hmem with
    | inl hold => exact h.joins_label hj m hold
    | inr hnew => rw [hl m hnew, hrcv]
  have hback : heldBack w (some i, wmiDataHdrGetUp skb.data) = [] := heldBack_gone hh
  have hq : psqMsdus w (some i, wmiDataHdrGetUp skb.data) = [] := by
    simp only [psqMsdus, hs.psqData, hr.empty i hrcv, List.flatMap_nil]
  have hwait : waiting w (some i, wmiDataHdrGetUp skb.data) = [] := by
    rw [waiting, hback, hq, List.append_nil]
  have hadv := ht.line fun m hmem => by
    rw [hflow m hmem, hwait, only_nil]
  refine ⟨ht.vif ▸ h.moved hm, ht.vif ▸ k.same hs, fun f => ?_, ht.submitted⟩
  by_cases hf : f = (some i, wmiDataHdrGetUp skb.data)
  · subst hf
    have hbefore : heldBack s.vif (some i, wmiDataHdrGetUp skb.data) = a.msdus :=
      heldMsdus_joins hj
    have hline : line { s with vif := w } (some i, wmiDataHdrGetUp skb.data) ++
        only (some i, wmiDataHdrGetUp skb.data) (a.msdus ++ skb.msdus) =
        line s (some i, wmiDataHdrGetUp skb.data) ++
          only (some i, wmiDataHdrGetUp skb.data) skb.msdus := by
      simp only [line, Driver.handed, waiting, hback, hbefore, ← psqMsdus_same hs, hq,
        only_append, List.append_nil, List.append_assoc]
    exact hline ▸ hadv _
  · have hnone : only f (a.msdus ++ skb.msdus) = [] := only_other hflow (Ne.symm hf)
    have hle := hadv f
    rw [hnone, List.append_nil] at hle
    exact (hle.trans (hm.line f)).trans (List.sublist_append_left _ _)

/-- The A-MSDU section of `ath6kl_data_tx`. -/
theorem dataTxAggr_advance (h : Sound s.vif) (k : AtRest s.vif)
    (hnw : s.vif.nwType = .infra ∨ s.vif.nwType = .ap) (hr : Routed s.vif skb conn rcv)
    (hl : ∀ m∈skb.msdus, flowOf m = (rcv, wmiDataHdrGetUp skb.data)) (ac : Nat)
    (tag : P2pFlowctrl.Tag) : Advance s (dataTxAggr s skb conn ac tag env) skb.msdus := by
  have hspec := aggrTx_spec s.vif conn skb env.amsduAlloc env.clk
  unfold dataTxAggr
  generalize aggrTx s.vif conn skb env.amsduAlloc env.clk = r at hspec
  cases hspec with
  | bypass =>
    -- every bypass comes through the flush
    obtain ⟨hm, hn⟩ := hr.flush h hnw env
    have hsent := dataTxSend_sent (s := aggrTxFlush s conn env) skb (some ac) tag env
    have hadv := hsent.advance (h.moved hm) (k.same hm.same) fun m hmem => by
      rw [hl m hmem, waiting_clear fun i hi => ?_, only_nil]
      exact ⟨hn i hi _, (hm.same.psqData i).trans (hr.empty i hi)⟩
    simp only [h.seqPkt, if_true]
    exact hadv.after hm
  | drop _ => exact Advance.drop h k s.ar
  | ok hj hs hh => exact joined_advance h k hnw hr hl hj hs hh
  | done hj hs hh =>
    exact filled_advance h k hr hl hj hs hh (dataTxSend_sent _ _ _ env)

/-- `ath6kl_data_tx` with aggregation, once the headers are in place. -/
theorem dataTxWmi_advance {flags : WmiDataFlags} (h : Sound s.vif) (k : AtRest s.vif)
    (hr : ∀ up, Routed s.vif (withUp s.vif flags skb up) conn rcv)
    (hl : ∀ m∈skb.msdus, flowOf m = (rcv, usrPri s.vif.wmm (encap s.vif {} skb))) :
    Advance s (dataTxWmi s (encap s.vif flags skb) conn false env) skb.msdus := by
  have hadhoc : s.vif.nwType = .adhoc → ∀ m∈skb.msdus,
      only (flowOf m) (waiting s.vif (flowOf m)) = [] := fun had m hm => by
    rw [hl m hm, waiting_clear fun i hi => ?_, only_nil]
    exact ⟨h.adhoc had _, (hr (usrPri s.vif.wmm skb)).empty i hi⟩
  unfold dataTxWmi
  split
  next hib =>
    exact ((handshakeProtect_commanded s _ env).sent (dataTxSend_sent _ _ _ env)).advance h k
      (hadhoc hib.1)
  next =>
    dsimp only
    have hc := (createPstream_commanded s (PowerSave.upToAc.getD
      (usrPri s.vif.wmm (encap s.vif flags skb)) 0) (usrPri s.vif.wmm (encap s.vif flags skb))
        env).trans (handshakeProtect_commanded _
          { encap s.vif flags skb with
            data := wmiDataHdrSetUp (usrPri s.vif.wmm (encap s.vif flags skb))
              (encap s.vif flags skb).data } env)
    generalize Driver.handshakeProtect (Driver.createPstream s _ _ env) _ env = t at hc
    split
    next hagg =>
      have hrt : Routed t.vif
          (withUp s.vif flags skb (usrPri s.vif.wmm (encap s.vif flags skb))) conn rcv := by
        rw [hc.vif]
        exact hr _
      refine (dataTxAggr_advance (hc.vif ▸ h) (hc.vif ▸ k) hagg.2.2.2 hrt
        (fun m hm => ?_) _ _).after hc.moved
      rw [hl m hm, withUp_up, usrPri_encap s.vif flags]
    next hagg =>
      have had : s.vif.nwType = .adhoc := by
        cases hn : s.vif.nwType with
        | infra => exact absurd ⟨hc.vif ▸ h.amsdu, rfl, hc.vif ▸ h.enable, .inl (hc.vif ▸ hn)⟩ hagg
        | adhoc => rfl
        | ap => exact absurd ⟨hc.vif ▸ h.amsdu, rfl, hc.vif ▸ h.enable, .inr (hc.vif ▸ hn)⟩ hagg
      exact (hc.sent (dataTxSend_sent _ _ _ env)).advance h k (hadhoc had)

section SetSta
variable {v : Vif} {x : Sta}

theorem setSta_self (v : Vif) (i : StaIdx) (x : Sta) : (v.setSta i x).sta i = x :=
  Function.update_self ..

theorem setSta_other {j : StaIdx} (h : j ≠ i) : (v.setSta i x).sta j = v.sta j :=
  Function.update_of_ne h _ _

theorem held_setSta (ht : x.txTid = (v.sta i).txTid) : (v.setSta i x).held = v.held := by
  funext p
  by_cases hp : p.1 = i
  · rw [Vif.held, Vif.held, hp, setSta_self, ht]
  · rw [Vif.held, Vif.held, setSta_other hp]

theorem receiver_setSta (hm : x.mac = (v.sta i).mac) (skb : TxSkb) :
    receiver (v.setSta i x) skb = receiver v skb := by
  have hmac : ∀ j, ((v.setSta i x).sta j).mac = (v.sta j).mac := fun j => by
    by_cases hj : j = i
    · rw [hj, setSta_self, hm]
    · rw [setSta_other hj]
  have hnw : (v.setSta i x).nwType = v.nwType := rfl
  simp only [receiver, Vif.findSta, hmac, hnw]

theorem Sound.setSta (h : Sound v) (hm : x.mac = (v.sta i).mac)
    (ht : x.txTid = (v.sta i).txTid)
    (hquiet : v.nwType = .ap → x.sleep = true ∨ x.psqData ≠ [] → ∀ t, v.held (i, t) = none)
    (hpsq : v.nwType ≠ .ap → x.psqData = [])
    (hlabel : ∀ b∈x.psqData, receiver v b.frame = some i ∧ ∀ m∈b.frame.msdus, m.rcv = some i) :
    Sound (v.setSta i x) where
  amsdu := h.amsdu
  enable := h.enable
  seqPkt := h.seqPkt
  quiet hap j hj t := by
    rw [held_setSta ht]
    by_cases hji : j = i
    · subst hji
      rw [setSta_self] at hj
      exact hquiet hap hj t
    · rw [setSta_other hji] at hj
      exact h.quiet hap j hj t
  psq hap j := by
    by_cases hji : j = i
    · subst hji
      rw [setSta_self]
      exact hpsq hap
    · rw [setSta_other hji]
      exact h.psq hap j
  adhoc had p := by
    rw [held_setSta ht]
    exact h.adhoc had p
  label p a ha := by
    rw [held_setSta ht] at ha
    exact h.label p a ha
  psqLabel j b hb := by
    rw [receiver_setSta hm]
    by_cases hji : j = i
    · subst hji
      rw [setSta_self] at hb
      exact hlabel b hb
    · rw [setSta_other hji] at hb
      exact h.psqLabel j b hb

theorem AtRest.setSta (h : AtRest v)
    (hawake : v.nwType = .ap → x.sleep = false → x.psqData = [])
    (hserved : v.nwType = .ap → x.polled = false ∧ x.apsdTrigger = false) :
    AtRest (v.setSta i x) where
  awake hap j hj := by
    by_cases hji : j = i
    · subst hji
      rw [setSta_self] at hj ⊢
      exact hawake hap hj
    · rw [setSta_other hji] at hj ⊢
      exact h.awake hap j hj
  unserved hap j := by
    by_cases hji : j = i
    · subst hji
      rw [setSta_self]
      exact hserved hap
    · rw [setSta_other hji]
      exact h.unserved hap j

theorem waiting_setSta (ht : x.txTid = (v.sta i).txTid) (f : Flow) :
    waiting (v.setSta i x) f =
      if f.1 = some i then heldBack v f ++ x.psqData.flatMap fun b => b.frame.msdus
      else waiting v f := by
  cases f with
  | mk r t =>
  cases r with
  | none => rfl
  | some j =>
    simp only [waiting, heldBack, heldMsdus, held_setSta ht, psqMsdus, Option.some.injEq]
    by_cases hji : j = i
    · rw [if_pos hji, hji, setSta_self]
    · rw [if_neg hji, setSta_other hji]

theorem waiting_setSta_same (ht : x.txTid = (v.sta i).txTid)
    (hq : x.psqData = (v.sta i).psqData) (f : Flow) :
    waiting (v.setSta i x) f = waiting v f := by
  rw [waiting_setSta ht, hq]
  split
  next hf =>
    cases f with
    | mk r u => cases hf; rfl
  next => rfl

end SetSta

theorem receiver_ap {v : Vif} (hap : v.nwType = .ap) (h : receiver v skb = some i) :
    isMulticastEtherAddr (skb.byte 0) = false ∧ v.findSta (hDest skb) = some i := by
  unfold receiver at h
  split at h
  next => cases h
  next hn =>
    refine ⟨?_, h⟩
    cases hm : isMulticastEtherAddr (skb.byte 0) with
    | false => rfl
    | true => exact absurd ⟨hap, hm⟩ hn

/-- What `ath6kl_powersave_ap` can do. -/
inductive PsSpec (v : Vif) (skb : TxSkb) : Vif × Option (WmiDataFlags × Option StaIdx) → Prop
  | pass {flags : WmiDataFlags} {conn : Option StaIdx}
      (hconn : v.nwType = .ap → conn = receiver v skb) (hother : v.nwType ≠ .ap → conn = none)
      (hserved : v.nwType = .ap → ∀ i, receiver v skb = some i →
        (v.sta i).sleep = false ∨ (v.sta i).polled = true ∨ (v.sta i).apsdTrigger = true)
      (hgroup : v.nwType = .ap → receiver v skb = none →
        isMulticastEtherAddr (skb.byte 0) = true) :
      PsSpec v skb (v, some (flags, conn))
  | gone : PsSpec v skb (v, none)
  | mcast (psq : List (PowerSave.PsBuf TxSkb)) : PsSpec v skb ({ v with psqMcast := psq }, none)
  | queued {i : StaIdx} {psq : List (PowerSave.PsBuf TxSkb)} (hap : v.nwType = .ap)
      (hi : receiver v skb = some i) (hsleep : (v.sta i).sleep = true)
      (hq : psq = (v.sta i).psqData ∨ psq = (v.sta i).psqData ++ [⟨skb, 0⟩]) :
      PsSpec v skb (v.setSta i { v.sta i with psqData := psq }, none)

theorem psQueueEnqueue_getD {α : Type} (depth : Nat) (psq : List (PowerSave.PsBuf α)) (frame : α)
    (alloc : Bool) : (PowerSave.psQueueEnqueue depth psq frame alloc).getD psq = psq ∨
      (PowerSave.psQueueEnqueue depth psq frame alloc).getD psq = psq ++ [⟨frame, 0⟩] := by
  unfold PowerSave.psQueueEnqueue
  split
  · exact .inl rfl
  · split
    · exact .inr rfl
    · exact .inl rfl

theorem powersaveAp_spec (v : Vif) (skb : TxSkb) (alloc : Bool) :
    PsSpec v skb (powersaveAp v skb alloc) := by
  unfold powersaveAp
  split
  next hap =>
    exact .pass (fun h => absurd h hap) (fun _ => rfl) (fun h => absurd h hap)
      (fun h => absurd h hap)
  next hap =>
    have hap : v.nwType = .ap := of_not_not hap
    split
    next hmulti =>
      have hrcv : receiver v skb = none := if_pos ⟨hap, hmulti⟩
      have hpass : ∀ flags, PsSpec v skb (v, some (flags, none)) := fun flags =>
        .pass (fun _ => hrcv.symm) (fun _ => rfl) (fun _ i hi => by rw [hrcv] at hi; cases hi)
          (fun _ _ => hmulti)
      unfold powersaveApTxMulticast
      split
      · split
        · exact .mcast _
        · exact hpass _
      · exact hpass _
    next hmulti =>
      have hrcv : receiver v skb = v.findSta (hDest skb) :=
        if_neg fun hc => hmulti hc.2
      split
      next => exact .gone
      next i hi =>
        rw [hi] at hrcv
        have hpass : ∀ flags, (v.sta i).sleep = false ∨ (v.sta i).polled = true ∨
            (v.sta i).apsdTrigger = true → PsSpec v skb (v, some (flags, some i)) :=
          fun flags hs => .pass (fun _ => hrcv.symm) (fun hn => absurd hap hn)
            (fun _ j hj => by
              rw [hrcv] at hj
              rw [← Option.some.inj hj]
              exact hs)
            (fun _ hn => by rw [hrcv] at hn; cases hn)
        unfold powersaveApTxUnicast
        dsimp only
        split
        next hsleep =>
          split
          next => exact .queued hap hrcv hsleep (psQueueEnqueue_getD _ _ skb alloc)
          next hserved =>
            refine hpass _ (.inr ?_)
            cases hp : (v.sta i).polled with
            | true => exact .inl rfl
            | false =>
              rw [hp] at hserved
              exact .inr (by simpa using hserved)
        next hsleep => exact hpass _ (.inl (Bool.eq_false_of_not_eq_true hsleep))

theorem Headroom.apply_byte {skb' : TxSkb} {r : Headroom} (h : r.apply skb = some skb')
    (hne : 0 < skb.data.length) : skb'.byte 0 = skb.byte 0 ∧ skb'.msdus = skb.msdus := by
  cases r with
  | enough => cases h; exact ⟨rfl, rfl⟩
  | realloc beyond =>
    cases h
    exact ⟨Skb.byte_of_lt hne, rfl⟩
  | failed => cases h

theorem queued_advance {psq : List (PowerSave.PsBuf TxSkb)} (h : Sound s.vif)
    (k : AtRest s.vif) (hap : s.vif.nwType = .ap) (hi : receiver s.vif skb = some i)
    (hsleep : (s.vif.sta i).sleep = true)
    (hq : psq = (s.vif.sta i).psqData ∨ psq = (s.vif.sta i).psqData ++ [⟨skb, 0⟩])
    (hrcv : ∀ m∈skb.msdus, m.rcv = receiver s.vif skb) :
    Advance s { s with vif := s.vif.setSta i { s.vif.sta i with psqData := psq } }
      skb.msdus where
  sound := by
    refine h.setSta rfl rfl (fun _ _ => h.quiet hap i (.inl hsleep)) (fun hn => absurd hap hn) ?_
    intro b hb
    cases hq with
    | inl hold => exact h.psqLabel i b (hold ▸ hb)
    | inr hnew =>
      rw [hnew] at hb
      cases List.mem_append.mp hb with
      | inl hold => exact h.psqLabel i b hold
      | inr hmem =>
        rw [List.mem_singleton.mp hmem]
        exact ⟨hi, fun m hm => (hrcv m hm).trans hi⟩
  rest := by
    refine k.setSta (fun _ hs => ?_) fun _ => k.unserved hap i
    rw [hsleep] at hs
    cases hs
  line f := by
    have hhanded : ∀ v, ({ s with vif := v } : Driver).handed = s.handed := fun _ => rfl
    simp only [line, hhanded, waiting_setSta (x := { s.vif.sta i with psqData := psq }) rfl]
    split
    next hf =>
      have hw : waiting s.vif f = heldBack s.vif f ++
          (s.vif.sta i).psqData.flatMap fun b => b.frame.msdus := by
        cases f with
        | mk r t =>
          rw [show r = some i from hf]
          rfl
      cases hq with
      | inl hold =>
        rw [hold, hw]
        exact List.sublist_append_left _ _
      | inr hnew =>
        rw [hnew, hw]
        simp only [List.flatMap_append, List.flatMap_singleton, only_append, List.append_assoc]
        exact List.Sublist.refl _
    next => exact List.sublist_append_left _ _
  submitted := rfl

theorem Advance.command {t : Driver} {ms : List Msdu} (h : Advance s t ms)
    (hc : Commanded t s') : Advance s s' ms where
  sound := by rw [hc.vif]; exact h.sound
  rest := by rw [hc.vif]; exact h.rest
  line f := (hc.moved.line f).trans (h.line f)
  submitted := hc.submitted.trans h.submitted

/-- `ath6kl_data_tx` for a frame of the stack. -/
theorem dataTx_advance (h : Sound s.vif) (k : AtRest s.vif) (hne : 0 < skb.data.length)
    (hrcv : ∀ m∈skb.msdus, m.rcv = receiver s.vif skb)
    (hl : ∀ skb', env.headroom.apply skb = some skb' → ∀ m∈skb.msdus,
      flowOf m = (receiver s.vif skb, usrPri s.vif.wmm (encap s.vif {} skb'))) :
    Advance s (dataTx s skb false env) skb.msdus := by
  unfold dataTx
  split
  next => exact Advance.drop h k s.ar
  next =>
    have hspec := powersaveAp_spec s.vif skb env.psAlloc
    generalize powersaveAp s.vif skb env.psAlloc = r at hspec
    have hc := cmdsSend_commanded { s with vif := r.1 } (powersaveApCmds s.vif skb env.psAlloc) env
    dsimp only
    generalize Driver.cmdsSend _ (powersaveApCmds s.vif skb env.psAlloc) env = t at hc ⊢
    cases hspec with
    | gone => exact (Advance.drop h k s.ar).command hc
    | mcast psq =>
      have hq : Advance s { s with vif := { s.vif with psqMcast := psq } } skb.msdus :=
        ⟨⟨h.amsdu, h.enable, h.seqPkt, h.quiet, h.psq, h.adhoc, h.label, h.psqLabel⟩,
          ⟨k.awake, k.unserved⟩, fun f => List.sublist_append_left _ _, rfl⟩
      exact hq.command hc
    | queued hap hi hsleep hq => exact (queued_advance h k hap hi hsleep hq hrcv).command hc
    | pass hconn hother hserved hgroup =>
      dsimp only
      split
      next => exact (Advance.drop h k s.ar).command hc
      next =>
        split
        next => exact (Advance.drop h k s.ar).command hc
        next skb' hskb =>
          obtain ⟨hbyte, hmsdus⟩ := Headroom.apply_byte hskb hne
          have hvif : t.vif = s.vif := hc.vif
          rw [← hmsdus]
          rw [← hvif] at h k hconn hserved hgroup hother hl hrcv
          refine (dataTxWmi_advance h k
            (fun up => ⟨hconn, fun hn => ⟨hother hn, ?_⟩, ?_, ?_⟩) ?_).after hc.moved
          · simp only [receiver, Vif.findSta, hn, false_and, if_false, ne_eq, not_false_eq_true,
              if_true]
          · intro hap hr
            rw [withUp_byte, hbyte]
            exact hgroup hap hr
          · intro i hi
            by_cases hap : t.vif.nwType = .ap
            · refine k.awake hap i ?_
              obtain ⟨hp, ht⟩ := k.unserved hap i
              have hs := hserved hap i hi
              rw [hp, ht] at hs
              simpa using hs
            · exact h.psq hap i
          · intro m hm
            rw [hmsdus] at hm
            exact hl skb' hskb m hm

/-- `ath6kl_data_tx` for a frame off the queue of a station that is awake or served. -/
theorem dataTx_served (hap : s.vif.nwType = .ap) (hi : receiver s.vif skb = some i)
    (hs : (s.vif.sta i).sleep = false ∨ (s.vif.sta i).polled = true ∨
      (s.vif.sta i).apsdTrigger = true) : Sent s (dataTx s skb true env) skb.msdus := by
  unfold dataTx
  split
  next => exact Sent.none s s.ar _
  next =>
    obtain ⟨hmulti, hfind⟩ := receiver_ap hap hi
    have hps : ∃ flags, powersaveAp s.vif skb env.psAlloc = (s.vif, some (flags, some i)) := by
      have hn : ¬s.vif.nwType ≠ .ap := not_not.mpr hap
      simp only [powersaveAp, if_neg hn, hmulti, hfind, powersaveApTxUnicast, Bool.false_eq_true,
        if_false]
      cases hsl : (s.vif.sta i).sleep with
      | false => exact ⟨_, rfl⟩
      | true =>
        rw [hsl] at hs
        cases hp : (s.vif.sta i).polled with
        | true => exact ⟨_, rfl⟩
        | false =>
          cases ht : (s.vif.sta i).apsdTrigger with
          | true => exact ⟨_, rfl⟩
          | false =>
            rw [hp, ht] at hs
            simp at hs
    obtain ⟨flags, hps⟩ := hps
    rw [hps]
    dsimp only
    have hc : Commanded s (s.cmdsSend (powersaveApCmds s.vif skb env.psAlloc) env) :=
      cmdsSend_commanded s _ env
    generalize Driver.cmdsSend s (powersaveApCmds s.vif skb env.psAlloc) env = t at hc
    have hnone : Sent s t skb.msdus := hc.sent (Sent.none t t.ar _)
    split
    next => exact hnone
    next =>
      split
      next => exact hnone
      next skb' hskb =>
        have hmsdus : skb'.msdus = skb.msdus := by
          cases hh : env.headroom with
          | enough => rw [hh] at hskb; cases hskb; rfl
          | realloc beyond => rw [hh] at hskb; cases hskb; rfl
          | failed => rw [hh] at hskb; cases hskb
        rw [← hmsdus]
        unfold dataTxWmi
        split
        next hib => rw [hc.vif, hap] at hib; cases hib.1
        next =>
          dsimp only
          split
          next hagg => simp at hagg
          next =>
            exact hc.sent ((createPstream_commanded t _ _ env).sent
              ((handshakeProtect_commanded _ _ env).sent (dataTxSend_sent _ _ _ env)))

def queued (x : Sta) : List TxSkb := x.psqData.map fun b => b.frame

theorem flatMap_queued (x : Sta) : (x.psqData.flatMap fun b => b.frame.msdus) =
    (queued x).flatMap fun skb => skb.msdus := (List.flatMap_map ..).symm

theorem psqData_queued {x y : Sta} (h : (queued x).Sublist (queued y)) (hy : y.psqData = []) :
    x.psqData = [] := by
  have hnil : queued x = [] := by
    have hq : queued y = [] := by rw [queued, hy, List.map_nil]
    rw [hq] at h
    exact List.sublist_nil.mp h
  exact List.map_eq_nil_iff.mp hnil

/-- The station is served from its queue: only its own entry changes. -/
structure Serves (s s' : Driver) (i : StaIdx) (x : Sta) : Prop where
  vif : s'.vif = s.vif.setSta i x
  mac : x.mac = (s.vif.sta i).mac
  txTid : x.txTid = (s.vif.sta i).txTid
  sleep : x.sleep = (s.vif.sta i).sleep
  psq : (queued x).Sublist (queued (s.vif.sta i))
  plain : s.vif.nwType = .ap → x.polled = false ∧ x.apsdTrigger = false
  line : ∀ f, List.Sublist (line s' f) (line s f)
  submitted : s'.submitted = s.submitted

theorem Serves.refl (h : s.vif.nwType = .ap →
    (s.vif.sta i).polled = false ∧ (s.vif.sta i).apsdTrigger = false) :
    Serves s s i (s.vif.sta i) where
  vif := by
    rw [Vif.setSta, Function.update_eq_self]
  mac := rfl
  txTid := rfl
  sleep := rfl
  psq := List.Sublist.refl _
  plain := h
  line _ := List.Sublist.refl _
  submitted := rfl

theorem Serves.sta {x : Sta} (h : Serves s s' i x) : s'.vif.sta i = x := by
  rw [h.vif, setSta_self]

theorem Serves.nwType {x : Sta} (h : Serves s s' i x) : s'.vif.nwType = s.vif.nwType := by
  rw [h.vif]
  rfl

theorem Serves.trans {t : Driver} {x y : Sta} (h : Serves s t i x) (k : Serves t s' i y) :
    Serves s s' i y where
  vif := by
    rw [k.vif, h.vif]
    simp only [Vif.setSta, Function.update_idem]
  mac := by rw [k.mac, h.sta, h.mac]
  txTid := by rw [k.txTid, h.sta, h.txTid]
  sleep := by rw [k.sleep, h.sta, h.sleep]
  psq := by
    have hy := k.psq
    rw [h.sta] at hy
    exact hy.trans h.psq
  plain hap := k.plain (h.nwType.trans hap)
  line f := (k.line f).trans (h.line f)
  submitted := k.submitted.trans h.submitted

theorem Serves.sound {x : Sta} (h : Serves s s' i x) (hs : Sound s.vif) : Sound s'.vif := by
  have hne : x.psqData ≠ [] → (s.vif.sta i).psqData ≠ [] := fun hx hnil =>
    hx (psqData_queued h.psq hnil)
  rw [h.vif]
  refine hs.setSta h.mac h.txTid (fun hap hwait => ?_) (fun hn => ?_) fun b hb => ?_
  · rw [h.sleep] at hwait
    exact hs.quiet hap i (hwait.imp_right hne)
  · by_contra hx
    exact hne hx (hs.psq hn i)
  · obtain ⟨c, hc, hcb⟩ := List.mem_map.mp (h.psq.subset (List.mem_map_of_mem hb))
    exact hcb ▸ hs.psqLabel i c hc

theorem modifySta_serves {f : Sta → Sta} (hmac : (f (s.vif.sta i)).mac = (s.vif.sta i).mac)
    (ht : (f (s.vif.sta i)).txTid = (s.vif.sta i).txTid)
    (hsl : (f (s.vif.sta i)).sleep = (s.vif.sta i).sleep)
    (hq : (queued (f (s.vif.sta i))).Sublist (queued (s.vif.sta i)))
    (hp : s.vif.nwType = .ap →
      (f (s.vif.sta i)).polled = false ∧ (f (s.vif.sta i)).apsdTrigger = false) :
    Serves s (s.modifySta i f) i (f (s.vif.sta i)) where
  vif := rfl
  mac := hmac
  txTid := ht
  sleep := hsl
  psq := hq
  plain := hp
  line g := by
    have hhanded : (s.modifySta i f).handed = s.handed := rfl
    have hvif : (s.modifySta i f).vif = s.vif.setSta i (f (s.vif.sta i)) := rfl
    simp only [DataTx.line, hhanded, hvif, waiting_setSta ht]
    split
    next hf =>
      have hw : waiting s.vif g = heldBack s.vif g ++
          (s.vif.sta i).psqData.flatMap fun b => b.frame.msdus := by
        cases g with
        | mk r t => cases hf; rfl
      simp only [hw, only_append, flatMap_queued]
      refine (List.Sublist.refl _).append ((List.Sublist.refl _).append ?_)
      exact (hq.flatMap _).filter _
    next => exact List.Sublist.refl _
  submitted := rfl

/-- What `psqSendHead` leaves of a station entry. -/
structure Popped (x y : Sta) (bs : List (PowerSave.PsBuf TxSkb)) : Prop where
  mac : y.mac = x.mac
  txTid : y.txTid = x.txTid
  sleep : y.sleep = x.sleep
  psqData : y.psqData = bs

theorem sendHead_serves {t : Driver} {b : PowerSave.PsBuf TxSkb}
    {bs : List (PowerSave.PsBuf TxSkb)} {x y : Sta} (h : Sound s.vif)
    (hap : s.vif.nwType = .ap) (hcons : (s.vif.sta i).psqData = b::bs)
    (hy : Popped (s.vif.sta i) y bs) (hplain : y.polled = false ∧ y.apsdTrigger = false)
    (ht : Sent { s with vif := s.vif.setSta i x } t b.frame.msdus) :
    Serves s { t with vif := t.vif.setSta i y } i y := by
  obtain ⟨-, hlab⟩ := h.psqLabel i b (by rw [hcons]; exact List.mem_cons_self)
  have hvif : t.vif.setSta i y = s.vif.setSta i y := by
    rw [ht.vif]
    simp only [Vif.setSta, Function.update_idem]
  have hhanded : ({ t with vif := s.vif.setSta i y } : Driver).handed = s.handed ∨
      ({ t with vif := s.vif.setSta i y } : Driver).handed = s.handed ++ b.frame.msdus :=
    ht.handed
  refine ⟨hvif, hy.mac, hy.txTid, hy.sleep, ?_, fun _ => hplain, fun f => ?_, ht.submitted⟩
  · have hq : queued (s.vif.sta i) = b.frame :: queued y := by
      rw [queued, queued, hcons, hy.psqData, List.map_cons]
    rw [hq]
    exact List.sublist_cons_self _ _
  · simp only [line, hvif, waiting_setSta hy.txTid, hy.psqData]
    split
    next hf =>
      -- the head of the queue goes straight out: nothing of the station is aggregated
      have hback : heldBack s.vif f = [] := heldBack_none fun j hj => by
        rw [hf] at hj
        rw [← Option.some.inj hj]
        exact h.quiet hap i (.inr (by rw [hcons]; exact List.cons_ne_nil _ _)) f.2
      have hw : waiting s.vif f = b.frame.msdus ++ bs.flatMap fun b => b.frame.msdus := by
        cases f with
        | mk r u =>
          cases hf
          rw [waiting, hback, psqMsdus, hcons]
          rfl
      rw [hback, hw, List.nil_append]
      cases hhanded with
      | inl hk =>
        rw [hk, only_append, only_append, only_append]
        exact (List.Sublist.refl _).append (List.sublist_append_right _ _)
      | inr hk =>
        rw [hk, List.append_assoc]
    next hf =>
      have hnone : only f b.frame.msdus = [] :=
        List.filter_eq_nil_iff.mpr fun m hm hk => hf (by
          rw [← of_decide_eq_true hk]
          exact hlab m hm)
      cases hhanded with
      | inl hk =>
        rw [hk]
      | inr hk =>
        rw [hk, only_append, only_append, only_append, hnone, List.append_nil]

theorem psqSendHead_serves {f g : Sta → Sta} (h : Sound s.vif) (hap : s.vif.nwType = .ap)
    (hplain : (s.vif.sta i).polled = false ∧ (s.vif.sta i).apsdTrigger = false)
    (hf : ∀ x, Popped x (f x) x.psqData) (hg : ∀ x, Popped x (g x) x.psqData)
    (hserve : ∀ x : Sta, x.sleep = (s.vif.sta i).sleep →
      (f x).sleep = false ∨ (f x).polled = true ∨ (f x).apsdTrigger = true)
    (hdone : ∀ x : Sta, x.polled = false ∧ x.apsdTrigger = false →
      (g (f x)).polled = false ∧ (g (f x)).apsdTrigger = false) :
    ∃ x, Serves s (psqSendHead s i f g env) i x ∧
      x.psqData = (s.vif.sta i).psqData.tail := by
  unfold psqSendHead
  split
  next hnil => exact ⟨_, Serves.refl fun _ => hplain, by rw [hnil]; rfl⟩
  next b bs hcons =>
    have hpop : Popped (s.vif.sta i) { s.vif.sta i with psqData := bs } bs :=
      ⟨rfl, rfl, rfl, rfl⟩
    have hserve' := hserve { s.vif.sta i with psqData := bs } rfl
    have hdone' := hdone { s.vif.sta i with psqData := bs } hplain
    simp only [Driver.modifySta]
    generalize ({ s.vif.sta i with psqData := bs } : Sta) = z at hpop hserve' hdone' ⊢
    have hx := hf z
    have hy := hg (f z)
    obtain ⟨hrcv, -⟩ := h.psqLabel i b (by rw [hcons]; exact List.mem_cons_self)
    have hself : ({ s with vif := s.vif.setSta i (f z) } : Driver).vif.sta i = f z :=
      setSta_self s.vif i (f z)
    have hsent : Sent { s with vif := s.vif.setSta i (f z) }
        (dataTx { s with vif := s.vif.setSta i (f z) } b.frame true env) b.frame.msdus := by
      refine dataTx_served (i := i) hap ?_ (by rw [hself]; exact hserve')
      exact (receiver_setSta (v := s.vif) (hx.mac.trans hpop.mac) b.frame).trans hrcv
    have hsta : (dataTx { s with vif := s.vif.setSta i (f z) } b.frame true env).vif.sta i =
        f z := by
      rw [hsent.vif]
      exact hself
    rw [hsta]
    have hall : Popped (s.vif.sta i) (g (f z)) bs :=
      ⟨hy.mac.trans (hx.mac.trans hpop.mac), hy.txTid.trans (hx.txTid.trans hpop.txTid),
        hy.sleep.trans (hx.sleep.trans hpop.sleep),
        hy.psqData.trans (hx.psqData.trans hpop.psqData)⟩
    exact ⟨g (f z), sendHead_serves h hap hcons hall hdone' hsent,
      hall.psqData.trans (by rw [hcons]; rfl)⟩

/-- The loop of `ath6kl_uapsd_trigger_frame_rx`. -/
theorem uapsdTriggerLoop_serves (envs : Nat → Env) (n : Nat) (h : Sound s.vif)
    (hap : s.vif.nwType = .ap)
    (hplain : (s.vif.sta i).polled = false ∧ (s.vif.sta i).apsdTrigger = false) :
    ∃ x, Serves s (uapsdTriggerLoop s i envs n) i x := by
  induction n generalizing s with
  | zero => exact ⟨_, Serves.refl fun _ => hplain⟩
  | succ n ih =>
    have hgo : ∀ t x, Serves s t i x → ∃ y, Serves s (uapsdTriggerLoop t i envs n) i y :=
      fun t x ht => by
        have hp : (t.vif.sta i).polled = false ∧ (t.vif.sta i).apsdTrigger = false := by
          rw [ht.sta]
          exact ht.plain hap
        obtain ⟨y, hy⟩ := ih (ht.sound h) (ht.nwType.trans hap) hp
        exact ⟨y, ht.trans hy⟩
    unfold uapsdTriggerLoop
    split
    next ms _ =>
      exact hgo _ _ (modifySta_serves
        (f := fun sta => { sta with psqMgmt := ms, apsdTrigger := false, apsdEosp := false })
        rfl rfl rfl (List.Sublist.refl _) fun _ => ⟨hplain.1, rfl⟩)
    next =>
      split
      next => exact ⟨_, Serves.refl fun _ => hplain⟩
      next =>
        obtain ⟨x, hx, -⟩ := psqSendHead_serves
          (f := fun sta => { sta with
            apsdTrigger := true
            apsdEosp := sta.apsdEosp || psqEmpty sta || n = 0 })
          (g := fun sta => { sta with apsdTrigger := false, apsdEosp := false })
          h hap hplain (fun _ => ⟨rfl, rfl, rfl, rfl⟩) (fun _ => ⟨rfl, rfl, rfl, rfl⟩)
          (fun _ _ => .inr (.inr rfl)) (fun _ hz => ⟨hz.1, rfl⟩)
        exact hgo _ x hx

theorem psqFlushLoop_serves (envs : Nat → Env) (n : Nat) (h : Sound s.vif)
    (hap : s.vif.nwType = .ap) (hsl : (s.vif.sta i).sleep = false)
    (hplain : (s.vif.sta i).polled = false ∧ (s.vif.sta i).apsdTrigger = false) :
    ∃ x, Serves s (psqFlushLoop s i envs n) i x ∧ x.psqData = (s.vif.sta i).psqData.drop n := by
  induction n generalizing s with
  | zero => exact ⟨_, Serves.refl fun _ => hplain, rfl⟩
  | succ n ih =>
    obtain ⟨x, hx, hq⟩ := psqSendHead_serves (f := id) (g := id) h hap hplain
      (fun _ => ⟨rfl, rfl, rfl, rfl⟩) (fun _ => ⟨rfl, rfl, rfl, rfl⟩)
      (fun _ hz => .inl (hz.trans hsl)) (fun _ hz => hz)
    obtain ⟨y, hy, hqy⟩ := ih (hx.sound h) (hx.nwType.trans hap)
      (by rw [hx.sta, hx.sleep, hsl]) (by rw [hx.sta]; exact hx.plain hap)
    rw [hx.sta, hq] at hqy
    refine ⟨y, hx.trans hy, ?_⟩
    rw [hqy, ← List.drop_one, List.drop_drop, Nat.add_comm]

theorem Serves.advance {x : Sta} (hx : Serves s s' i x) (h : Sound s.vif) (k : AtRest s.vif)
    (hawake : s.vif.nwType = .ap → x.sleep = false → x.psqData = []) : Advance s s' [] where
  sound := hx.sound h
  rest := hx.vif ▸ k.setSta hawake hx.plain
  line f := by
    rw [only_nil, List.append_nil]
    exact hx.line f
  submitted := hx.submitted

theorem Serves.advance_same {x : Sta} (hx : Serves s s' i x) (h : Sound s.vif)
    (k : AtRest s.vif) : Advance s s' [] := by
  refine hx.advance h k fun hap hs => ?_
  rw [hx.sleep] at hs
  exact psqData_queued hx.psq (k.awake hap i hs)

theorem Advance.trans_nil {t : Driver} (h : Advance s t []) (k : Advance t s' []) :
    Advance s s' [] where
  sound := k.sound
  rest := k.rest
  line f := (k.line f).trans ((h.line f).append (List.Sublist.refl _) |>.trans (by
    rw [only_nil, List.append_nil, List.append_nil]))
  submitted := k.submitted.trans h.submitted

theorem asleep_labelled (h : Sound s.vif) (i : StaIdx) :
    Labelled (s.modifySta i fun sta => { sta with sleep := true }).vif := by
  intro p a ha
  have hheld : (s.modifySta i fun sta => { sta with sleep := true }).vif.held = s.vif.held :=
    held_setSta rfl
  rw [hheld] at ha
  exact h.label p a ha

/-- A station falls asleep: its aggregates are flushed. -/
theorem fallAsleep_advance (h : Sound s.vif) (k : AtRest s.vif) (hap : s.vif.nwType = .ap)
    (i : StaIdx) (env : Env) :
    Advance s (aggrTxFlush (s.modifySta i fun sta => { sta with sleep := true }) (some i) env)
      [] := by
  have hheld : (s.modifySta i fun sta => { sta with sleep := true }).vif.held = s.vif.held :=
    held_setSta rfl
  have hlab := asleep_labelled h i
  obtain ⟨hm, hn⟩ := aggrTxFlush_moved (i := i) hlab env
  generalize aggrTxFlush (s.modifySta i fun sta => { sta with sleep := true }) (some i) env = t
    at hm hn ⊢
  have hsame := hm.same
  have hself : (s.modifySta i fun sta => { sta with sleep := true }).vif.sta i =
      { s.vif.sta i with sleep := true } := setSta_self ..
  have hother : ∀ j, j ≠ i →
      (s.modifySta i fun sta => { sta with sleep := true }).vif.sta j = s.vif.sta j :=
    fun j hj => setSta_other hj
  have hrcv : ∀ skb, receiver t.vif skb = receiver s.vif skb := fun skb =>
    (receiver_same hsame skb).trans
      (receiver_setSta (v := s.vif) (x := { s.vif.sta i with sleep := true }) rfl skb)
  have hpsq : ∀ j, (t.vif.sta j).psqData = (s.vif.sta j).psqData := fun j => by
    rw [hsame.psqData]
    by_cases hj : j = i
    · rw [hj, hself]
    · rw [hother j hj]
  have hnone : ∀ p, s.vif.held p = none → t.vif.held p = none := fun p hp => by
    refine hm.none ?_
    rw [hheld]
    exact hp
  have hnw : t.vif.nwType = s.vif.nwType := hsame.nwType
  refine ⟨?_, ?_, fun f => ?_, hm.submitted⟩
  · exact {
      amsdu := hsame.amsduEnabled.trans h.amsdu
      enable := hsame.enable.trans h.enable
      seqPkt := hsame.seqPkt.trans h.seqPkt
      quiet := fun _ j hj u => by
        by_cases hji : j = i
        · rw [hji]
          exact hn u
        · rw [hsame.sleep, hother j hji, hpsq] at hj
          exact hnone _ (h.quiet hap j hj u)
      psq := fun hc => absurd (hnw.trans hap) hc
      adhoc := fun had => by
        rw [hnw, hap] at had
        cases had
      label := hlab.moved hm
      psqLabel := fun j b hb => by
        rw [hpsq] at hb
        rw [hrcv]
        exact h.psqLabel j b hb }
  · refine ⟨fun _ j hj => ?_, fun _ j => ?_⟩
    · rw [hpsq]
      by_cases hji : j = i
      · rw [hsame.sleep, hji, hself] at hj
        cases hj
      · rw [hsame.sleep, hother j hji] at hj
        exact k.awake hap j hj
    · rw [hsame.sta j]
      by_cases hji : j = i
      · rw [hji, hself]
        exact k.unserved hap i
      · rw [hother j hji]
        exact k.unserved hap j
  · rw [only_nil, List.append_nil]
    refine (hm.line f).trans ?_
    have hhanded : (s.modifySta i fun sta => { sta with sleep := true }).handed = s.handed := rfl
    have hw : waiting (s.modifySta i fun sta => { sta with sleep := true }).vif f =
        waiting s.vif f := waiting_setSta_same (x := { s.vif.sta i with sleep := true }) rfl rfl f
    rw [line, hhanded, hw]
    exact List.Sublist.refl _

theorem wakeUp_advance {t : Driver} {x : Sta} (h : Sound s.vif) (k : AtRest s.vif)
    (hap : s.vif.nwType = .ap) (hsleep : (s.vif.sta i).sleep = true)
    (hx : Popped (s.vif.sta i) { x with sleep := true } (s.vif.sta i).psqData)
    (hawake : x.sleep = false) (hplain : x.polled = false ∧ x.apsdTrigger = false)
    (hvif : t.vif = s.vif.setSta i x) (hhanded : t.handed = s.handed)
    (hsub : t.submitted = s.submitted) (envs : Nat → Env) :
    Advance s (psqFlushLoop t i envs (t.vif.sta i).psqData.length) [] := by
  have hmac : x.mac = (s.vif.sta i).mac := hx.mac
  have htid : x.txTid = (s.vif.sta i).txTid := hx.txTid
  have hpsq : x.psqData = (s.vif.sta i).psqData := hx.psqData
  have hsta : t.vif.sta i = x := by rw [hvif, setSta_self]
  have hsound : Sound t.vif := by
    rw [hvif]
    exact h.setSta hmac htid (fun _ _ => h.quiet hap i (.inl hsleep)) (fun hc => absurd hap hc)
      fun b hb => h.psqLabel i b (hpsq ▸ hb)
  have htap : t.vif.nwType = .ap := by rw [hvif]; exact hap
  obtain ⟨y, hy, hempty⟩ := psqFlushLoop_serves envs (t.vif.sta i).psqData.length hsound htap
    (by rw [hsta, hawake]) (by rw [hsta]; exact hplain)
  rw [List.drop_length] at hempty
  refine ⟨hy.sound hsound, ?_, fun f => ?_, hy.submitted.trans hsub⟩
  · have hset : (psqFlushLoop t i envs (t.vif.sta i).psqData.length).vif = s.vif.setSta i y := by
      rw [hy.vif, hvif]
      simp only [Vif.setSta, Function.update_idem]
    rw [hset]
    exact k.setSta (fun _ _ => hempty) fun _ => hy.plain htap
  · rw [only_nil, List.append_nil]
    refine (hy.line f).trans ?_
    have hw : waiting t.vif f = waiting s.vif f := by
      rw [hvif, waiting_setSta_same htid hpsq]
    rw [line, line, hw, hhanded]

/-- `_powersave_ap_rx`. -/
theorem powersaveApRx_advance (h : Sound s.vif) (k : AtRest s.vif) (psState triggerState : Bool)
    (envs : Nat → Env) : Advance s (powersaveApRx s i psState triggerState env envs) [] := by
  unfold powersaveApRx
  split
  next => exact Advance.drop h k s.ar
  next hn =>
    have hap : s.vif.nwType = .ap := of_not_not hn
    have hplain := k.unserved hap i
    have htrig : ∀ t, Advance s t [] → t.vif.nwType = .ap →
        Advance s (if true && triggerState then uapsdTriggerLoop t i envs
          (PowerSave.maxFramesToDeliver ⟨t.vif.wmm, (t.vif.sta i).apsdInfo⟩) else t) [] := by
      intro t ht htap
      split
      next =>
        obtain ⟨x, hx⟩ := uapsdTriggerLoop_serves envs _ ht.sound htap (ht.rest.unserved htap i)
        exact ht.trans_nil (hx.advance_same ht.sound ht.rest)
      next => exact ht
    have hkeep : ∀ b, (s.vif.sta i).sleep = b →
        s.modifySta i (fun sta => { sta with sleep := b }) = s := fun b hb => by
      have hsta : ({ s.vif.sta i with sleep := b } : Sta) = s.vif.sta i := by rw [← hb]
      simp only [Driver.modifySta, hsta, Vif.setSta, Function.update_eq_self]
    cases psState with
    | true =>
      simp only [Bool.not_true, Bool.and_false, Bool.false_eq_true, if_false]
      cases hsl : (s.vif.sta i).sleep with
      | true =>
        simp only [Bool.not_true, Bool.and_false, Bool.false_eq_true, if_false, hkeep true hsl]
        exact htrig s (Advance.drop h k s.ar) hap
      | false =>
        have hfall := fallAsleep_advance h k hap i env
        have hnw : (aggrTxFlush (s.modifySta i fun sta => { sta with sleep := true }) (some i)
            env).vif.nwType = .ap :=
          (aggrTxFlush_moved (asleep_labelled h i) env).1.same.nwType.trans hap
        simp only [Bool.not_false, Bool.and_true, if_true]
        exact htrig _ hfall hnw
    | false =>
      simp only [Bool.false_and, Bool.false_eq_true, if_false, Bool.not_false, Bool.and_true]
      cases hsl : (s.vif.sta i).sleep with
      | false =>
        simp only [Bool.false_eq_true, if_false, hkeep false hsl]
        exact Advance.drop h k s.ar
      | true =>
        simp only [if_true]
        refine wakeUp_advance (x := { s.vif.sta i with sleep := false, psqMgmt := [] }) h k hap hsl
          ⟨rfl, rfl, hsl.symm, rfl⟩ rfl hplain ?_ ?_ ?_ envs
        · simp only [Driver.modifySta, Vif.setSta, Function.update_idem, Function.update_self]
        · rfl
        · rfl

/-- `ath6kl_pspoll_event`. -/
theorem pspollEvent_advance (h : Sound s.vif) (k : AtRest s.vif) :
    Advance s (pspollEvent s i env) [] := by
  unfold pspollEvent
  split
  next ms _ =>
    have hx := modifySta_serves (s := s) (i := i)
      (f := fun sta => { sta with psqMgmt := ms, polled := false })
      rfl rfl rfl (List.Sublist.refl _) fun hap => ⟨rfl, (k.unserved hap i).2⟩
    exact hx.advance_same h k
  next =>
    by_cases hap : s.vif.nwType = .ap
    · have hserved : ∃ x, Serves s (psqSendHead s i (fun sta => { sta with polled := true })
          (fun sta => { sta with polled := false }) env) i x ∧
          x.psqData = (s.vif.sta i).psqData.tail :=
        psqSendHead_serves h hap (k.unserved hap i)
          (fun _ => ⟨rfl, rfl, rfl, rfl⟩) (fun _ => ⟨rfl, rfl, rfl, rfl⟩)
          (fun _ _ => .inr (.inl rfl)) (fun _ hz => ⟨rfl, hz.2⟩)
      obtain ⟨x, hx, -⟩ := hserved
      exact hx.advance_same h k
    · -- only an access point queues frames
      have hq : (s.vif.sta i).psqData = [] := h.psq hap i
      simp only [psqSendHead, hq]
      exact Advance.drop h k s.ar

theorem queued_aging (psq : List (PowerSave.PsBuf TxSkb)) :
    ((PowerSave.psQueueAging PowerSave.psQueueMaxAge psq).map fun b => b.frame).Sublist
      (psq.map fun b => b.frame) := by
  induction psq with
  | nil => exact List.Sublist.refl _
  | cons b bs ih =>
    unfold PowerSave.psQueueAging at ih ⊢
    rw [List.filterMap_cons]
    split
    next => exact ih.cons _
    next c hc =>
      have hframe : c.frame = b.frame := by
        split at hc
        · cases hc
        · cases hc; rfl
      rw [List.map_cons, List.map_cons, hframe]
      exact ih.cons_cons _

theorem psQueueAgeHandler_advance (h : Sound s.vif) (k : AtRest s.vif) :
    Advance s (psQueueAgeHandler s i) [] := by
  have hx := modifySta_serves (s := s) (i := i) (f := fun sta =>
      let psqData := PowerSave.psQueueAging PowerSave.psQueueMaxAge sta.psqData
      { sta with
        psqData := psqData
        psqMgmt := if psqData.isEmpty then
          PowerSave.psQueueAging PowerSave.psQueueMaxAge sta.psqMgmt else sta.psqMgmt })
    rfl rfl rfl (queued_aging (s.vif.sta i).psqData) fun hap => k.unserved hap i
  exact hx.advance_same h k

structure Ordered (s : Driver) : Prop where
  sound : Sound s.vif
  rest : AtRest s.vif
  line : ∀ f, List.Sublist (line s f) (only f s.submitted)
  seqs : s.submitted.map Msdu.seq = List.range s.submitted.length

theorem Ordered.advance (h : Ordered s) (k : Advance s s' []) : Ordered s' where
  sound := k.sound
  rest := k.rest
  line f := by
    have hle := k.line f
    rw [only_nil, List.append_nil] at hle
    rw [k.submitted]
    exact hle.trans (h.line f)
  seqs := by
    rw [k.submitted]
    exact h.seqs

theorem Ordered.startTx (h : Ordered s) (hne : 0 < skb.data.length) :
    Ordered (startTx s skb env) := by
  have hdata : Advance { s with submitted := s.submitted ++ [msduOf s skb env] }
      (dataTx { s with submitted := s.submitted ++ [msduOf s skb env] }
        { skb with msdus := [msduOf s skb env] } false env) [msduOf s skb env] := by
    refine dataTx_advance h.sound h.rest hne
      (fun m hm => ?_) fun skb' hskb m hm => ?_
    · rw [List.mem_singleton.mp hm]
      rfl
    · rw [List.mem_singleton.mp hm]
      cases hh : env.headroom with
      | enough =>
        rw [hh] at hskb
        cases hskb
        simp only [msduOf, hh, Headroom.apply, Option.getD_some]
        rfl
      | realloc beyond =>
        rw [hh] at hskb
        cases hskb
        simp only [msduOf, hh, Headroom.apply, Option.getD_some]
        rfl
      | failed =>
        rw [hh] at hskb
        cases hskb
  have hk : Advance { s with submitted := s.submitted ++ [msduOf s skb env] }
      (DataTx.startTx s skb env) [msduOf s skb env] := hdata
  refine ⟨hk.sound, hk.rest, fun f => ?_, ?_⟩
  · rw [hk.submitted, only_append]
    exact (hk.line f).trans ((h.line f).append (List.Sublist.refl _))
  · rw [hk.submitted, List.map_append, h.seqs, List.length_append, List.length_singleton,
      List.range_succ]
    rfl

/-- The event leaves `tx_amsdu_seq_pkt` set. -/
def KeepsSeqPkt : Event → Prop
  | .aggrTxConfig seqPkt _ _ _ _ => seqPkt = true
  | _ => True

theorem aggrTxTimeout_advance (h : Sound s.vif) (k : AtRest s.vif) (clk : Clock)
    (flow : FlowRet) : Advance s (aggrTxTimeout s i tid clk flow) [] := by
  have hsame : Same s.vif (s.vif.setTid i tid { (s.vif.sta i).txTid tid with timer := false }) :=
    same_setTid s.vif i tid rfl rfl
  have hheld : (s.vif.setTid i tid { (s.vif.sta i).txTid tid with timer := false }).held =
      s.vif.held := by
    rw [held_setTid]
    exact Function.update_eq_self (i, tid) s.vif.held
  unfold aggrTxTimeout
  dsimp only
  generalize s.vif.setTid i tid { (s.vif.sta i).txTid tid with timer := false } = v at hsame hheld ⊢
  have hm : Moved s { s with vif := v } := by
    refine ⟨hsame, fun p => .inl (congrFun hheld p), fun f => ?_, rfl⟩
    have hw : waiting v f = waiting s.vif f := by
      rw [waiting, waiting, psqMsdus_same hsame]
      cases f with
      | mk r t =>
      cases r with
      | none => rfl
      | some j => simp only [heldBack, heldMsdus, hheld]
    have hhanded : ({ s with vif := v } : Driver).handed = s.handed := rfl
    rw [line, line, hw, hhanded]
  have hs : Sound v := h.moved hm
  have hm' : Moved { s with vif := v } (aggrTxTid { s with vif := v } i tid false clk flow) :=
    (aggrTxTid_moved hs.label false clk flow).1
  exact (Advance.drop (hs.moved hm') (k.same (hsame.trans hm'.same)) _).after (hm.trans hm')

theorem Ordered.step (h : Ordered s) (e : Event) (he : KeepsSeqPkt e) : Ordered (step s e) := by
  have hs := h.sound
  have hr := h.rest
  cases e with
  | startTx skb hdr env => exact h.startTx (lt_of_lt_of_le (by decide) hdr)
  | aggrTxTimeout i tid clk flow => exact h.advance (aggrTxTimeout_advance hs hr clk flow)
  | aggrTxConfig seqPkt progressive maxAggrNum maxPduLen timeout =>
    exact ⟨⟨hs.amsdu, hs.enable, he, hs.quiet, hs.psq, hs.adhoc, hs.label, hs.psqLabel⟩,
      ⟨hr.awake, hr.unserved⟩, h.line, h.seqs⟩
  | powersaveApRx i psState triggerState env envs =>
    exact h.advance (powersaveApRx_advance hs hr psState triggerState envs)
  | pspoll i env => exact h.advance (pspollEvent_advance hs hr)
  | psqAge i => exact h.advance (psQueueAgeHandler_advance hs hr)
  | others ar => exact ⟨hs, hr, h.line, h.seqs⟩

/-- Nothing has been submitted, and no station is being served. -/
structure Fresh (s : Driver) : Prop where
  amsdu : s.vif.amsduEnabled = true
  enable : s.vif.aggr.enable = true
  seqPkt : s.vif.aggr.seqPkt = true
  held : ∀ p, s.vif.held p = none
  psq : ∀ i, (s.vif.sta i).psqData = []
  unserved : ∀ i, (s.vif.sta i).polled = false ∧ (s.vif.sta i).apsdTrigger = false
  handed : s.htcTx = []
  submitted : s.submitted = []

theorem Fresh.ordered (h : Fresh s) : Ordered s where
  sound := {
    amsdu := h.amsdu
    enable := h.enable
    seqPkt := h.seqPkt
    quiet := fun _ _ _ _ => h.held _
    psq := fun _ => h.psq
    adhoc := fun _ => h.held
    label := fun p a ha => by rw [h.held] at ha; cases ha
    psqLabel := fun i b hb => by rw [h.psq] at hb; cases hb }
  rest := ⟨fun _ i _ => h.psq i, fun _ => h.unserved⟩
  line f := by
    have hhanded : s.handed = [] := by rw [Driver.handed, h.handed, List.flatMap_nil]
    have hw : waiting s.vif f = [] := waiting_clear fun i _ => ⟨h.held _, h.psq i⟩
    rw [DataTx.line, hhanded, hw]
    exact List.nil_sublist _
  seqs := by rw [h.submitted]; rfl

/-- Aggregation does not reorder a flow: in every run, what was handed over of the MSDUs of a
station and TID, with what `amsdu_skb` holds of them behind it, are submitted ones in the
order in which they were submitted. The submissions are numbered, so none comes twice. -/
theorem data_tx_in_order (h : Fresh s) {es : List Event} (he : ∀ e∈es, KeepsSeqPkt e)
    (f : Flow) :
    List.Sublist (only f (run step s es).handed ++ heldBack (run step s es).vif f)
      (only f (run step s es).submitted) ∧
    (run step s es).submitted.map Msdu.seq = List.range (run step s es).submitted.length := by
  have hrun := run_invariant_of (I := Ordered) (fun s e hs hc => hs.step e hc) h.ordered
    (allSteps_of_mem he s)
  refine ⟨List.Sublist.trans ?_ (hrun.line f), hrun.seqs⟩
  have hheld : only f (heldBack (run step s es).vif f) = heldBack (run step s es).vif f := by
    refine only_self fun m hm => ?_
    cases f with
    | mk r t =>
    cases r with
    | none => cases hm
    | some i =>
      simp only [heldBack, heldMsdus] at hm
      cases ha : (run step s es).vif.held (i, t) with
      | none => rw [ha] at hm; cases hm
      | some a =>
        rw [ha] at hm
        exact hrun.sound.label (i, t) a ha m hm
  rw [line, waiting, only_append, only_append, hheld, ← List.append_assoc]
  exact List.sublist_append_left _ _

def freshDriver : Driver where
  vif := sessionVif
  ar := { cookieData := 8 }

/-- An IP frame of the protocol `proto`. -/
def ipFrame (proto : UInt8) : TxSkb where
  data := [0, 2, 0, 0, 0, 1, 0, 2, 0, 0, 0, 2, 0x08, 0x00, 0x45, 0, 0, 0, 0, 0, 0, 0, 0, proto]

/-- A TCP segment waits in `amsdu_skb` when a UDP datagram bypasses it. -/
theorem data_tx_in_order_bypass :
    List.Sublist
      (only (some sta0, ⟨0, by decide⟩) (run step freshDriver [.startTx (ipFrame 6) (by decide) {},
          .startTx (ipFrame 17) (by decide) {}]).handed ++
        heldBack (run step freshDriver [.startTx (ipFrame 6) (by decide) {},
          .startTx (ipFrame 17) (by decide) {}]).vif (some sta0, ⟨0, by decide⟩))
      (only (some sta0, ⟨0, by decide⟩) (run step freshDriver [.startTx (ipFrame 6) (by decide) {},
        .startTx (ipFrame 17) (by decide) {}]).submitted) := by
  have hfresh : Fresh freshDriver :=
    ⟨rfl, rfl, rfl, fun _ => rfl, fun _ => rfl, fun _ => ⟨rfl, rfl⟩, rfl, rfl⟩
  have hkeep : ∀ e∈[Event.startTx (ipFrame 6) (by decide) {},
      .startTx (ipFrame 17) (by decide) {}], KeepsSeqPkt e := by
    intro e he
    cases he with
    | head => trivial
    | tail _ he =>
      cases he with
      | head => trivial
      | tail _ he => cases he
  exact (data_tx_in_order hfresh hkeep _).1

end Ath6kl.DataTx
