import Ath6kl.AmsduRoundTrip
import Ath6kl.Lib.Machine
import Mathlib.Algebra.Ring.Nat

/-! The transmit aggregates over whole runs: what the configuration may change between two
PDUs never lets an aggregate outgrow its buffer, and the counters, the header and the flush
timer follow what is in it. -/
namespace Ath6kl.AmsduBound
open EthFrame AmsduTx AmsduRoundTrip Lib.Machine Lib.Framing

/-- A frame as `aggr_tx` gets it: a PDU of any length behind the WMI header. -/
structure TxFrame where
  skb : TxSkb
  hdr : wmiDataHdrLen ≤ skb.data.length

def TxFrame.pdu (f : TxFrame) : Bytes := f.skb.data.drop wmiDataHdrLen

inductive AggrEvent
  | config (seqPkt progressive : Bool) (maxAggrNum : UInt8) (maxPduLen timeout : UInt16)
  | tx (sta : Option StaIdx) (f : TxFrame) (alloc : Bool) (clk : Clock)
  /-- `aggr_tx_tid` from `aggr_tx_flush` -/
  | flush (i : StaIdx) (tid : Tid) (clk : Clock)
  /-- the flush timer expires -/
  | timeout (i : StaIdx) (tid : Tid) (clk : Clock)

/-- The interface with a record: the PDUs that joined each aggregate under construction, and
of the completed ones the PDUs and the buffer. -/
structure Aggr where
  vif : Vif
  pdus : StaIdx × Tid → List Bytes := fun _ => []
  out : List (List Bytes × TxSkb) := []

/-- The TID starts anew; what it held went out as `skb`, if at all. -/
def Aggr.complete (s : Aggr) (vif : Vif) (p : StaIdx × Tid) (ps : List Bytes)
    (skb : Option TxSkb) : Aggr where
  vif := vif
  pdus := Function.update s.pdus p []
  out := s.out ++ (skb.map fun skb => (ps, skb)).toList

def Aggr.tx (s : Aggr) (sta : Option StaIdx) (f : TxFrame) (alloc : Bool) (clk : Clock) : Aggr :=
  let r := aggrTx s.vif sta f.skb alloc clk
  match sta <|> s.vif.findSta (f.skb.copy wmiDataHdrLen 6) with
  | none => { s with vif := r.1 }
  | some i =>
    let p := (i, wmiDataHdrGetUp f.skb.data)
    let ps := s.pdus p ++ [f.pdu]
    match r.2 with
    | .ok => { s with vif := r.1, pdus := Function.update s.pdus p ps }
    | .done skb => s.complete r.1 p ps (some skb)
    | _ => { s with vif := r.1 }

def Aggr.take (s : Aggr) (i : StaIdx) (tid : Tid) (timerStop : Bool) (clk : Clock) : Aggr :=
  let r := aggrTxTake s.vif i tid timerStop clk
  s.complete r.1 (i, tid) (s.pdus (i, tid)) r.2

/-- Whether the flush timer of a TID is pending. -/
def timer (vif : Vif) (p : StaIdx × Tid) : Bool := ((vif.sta p.1).txTid p.2).timer

def aggrStep (s : Aggr) : AggrEvent → Aggr
  | .config seqPkt progressive maxAggrNum maxPduLen timeout =>
    { s with vif := { s.vif with
      aggr := aggrTxConfig s.vif.aggr seqPkt progressive maxAggrNum maxPduLen timeout } }
  | .tx sta f alloc clk => s.tx sta f alloc clk
  | .flush i tid clk => s.take i tid true clk
  | .timeout i tid clk =>
    if timer s.vif (i, tid) then
      { s with vif :=
        s.vif.setTid i tid { (s.vif.sta i).txTid tid with timer := false } }.take i tid false clk
    else s

def subframesLen (ps : List Bytes) : Nat := (ps.map fun pdu => align4 pdu.length).sum

def unpaddedLen (ps : List Bytes) : Nat := (joinPadded padPdu ps).length

/-- `h_proto` of the header in front of the subframes. -/
def hProto (skb : TxSkb) : Nat :=
  ntohs (skb.data.getD (wmiDataHdrLen+12) 0) (skb.data.getD (wmiDataHdrLen+13) 0)

/-- An aggregate of the PDUs `ps`. -/
structure Filled (a : Amsdu) (ps : List Bytes) : Prop where
  hdr : a.hdr.length = wmiDataHdrLen
  body : a.body = ps.flatMap padPdu
  fits : subframesLen ps ≤ txAmsduMaxAggrLen
  len : a.len = subframesLen ps
  cnt : a.cnt = ps.length
  few : ps.length<255
  last : ∀ qs q, ps = qs ++ [q] → a.lastpduLen = q.length

structure Complete (ps : List Bytes) (skb : TxSkb) : Prop where
  fits : ethHlen+subframesLen ps ≤ aggrTxMaxAggrSize
  hProto : hProto skb = unpaddedLen ps
  data : skb.data.length = wmiDataHdrLen+ethHlen+unpaddedLen ps

theorem length_flatMap_padPdu (ps : List Bytes) :
    (ps.flatMap padPdu).length = subframesLen ps := by
  induction ps with
  | nil => rfl
  | cons p ps ih =>
    rw [List.flatMap_cons, List.length_append, length_padPdu, ih, subframesLen, subframesLen,
      List.map_cons, List.sum_cons]

theorem subframesLen_snoc (ps : List Bytes) (q : Bytes) :
    subframesLen (ps ++ [q]) = subframesLen ps + align4 q.length := by
  simp [subframesLen]

theorem subframesLen_mod (ps : List Bytes) : subframesLen ps % 4 = 0 := by
  induction ps with
  | nil => rfl
  | cons p ps ih =>
    rw [subframesLen, List.map_cons, List.sum_cons, ← subframesLen, align4]
    omega

variable {a : Amsdu} {ps : List Bytes} {f : TxFrame}

theorem filled_start (f : TxFrame) : Filled (.start f.skb) [] where
  hdr := by
    have h := f.hdr
    simp only [Amsdu.start, wmiDataHdrSetAmsdu, List.length_modify, List.length_take]
    omega
  body := rfl
  fits := Nat.zero_le _
  len := rfl
  cnt := rfl
  few := by decide
  last qs q h := by simp at h

theorem TxFrame.length_pdu (f : TxFrame) : f.pdu.length = f.skb.data.length - wmiDataHdrLen :=
  List.length_drop

/-- The aggregate once the PDU is in. The buffer grows by the padded length, but it is kept
in whole words and so is its limit. -/
structure Grown (a : Amsdu) (ps : List Bytes) (q : Bytes) : Prop where
  hdr : a.hdr.length = wmiDataHdrLen
  body : a.body = (ps ++ [q]).flatMap padPdu
  fits : subframesLen (ps ++ [q]) ≤ txAmsduMaxAggrLen
  len : a.len = subframesLen (ps ++ [q])
  cnt : a.cnt = (ps ++ [q]).length
  last : a.lastpduLen = q.length

theorem Filled.append (h : Filled a ps)
    (hfit : a.len + (f.skb.data.length - wmiDataHdrLen) ≤ txAmsduMaxAggrLen) :
    Grown (a.append f.skb) ps f.pdu := by
  have hmod := subframesLen_mod ps
  have hmax : txAmsduMaxAggrLen = 1500 := rfl
  have hsum := subframesLen_snoc ps f.pdu
  rw [← f.length_pdu, h.len] at hfit
  have hle : subframesLen ps + align4 f.pdu.length ≤ 1500 := by
    unfold align4
    omega
  have hge := align4_ge f.pdu.length
  refine ⟨h.hdr, ?_, by omega, ?_, ?_, ?_⟩
  · rw [List.flatMap_append, ← h.body, List.flatMap_singleton]
    rfl
  · show (a.len + align4 f.pdu.length) % 65536 = _
    rw [h.len, hsum, Nat.mod_eq_of_lt (by omega)]
  · have hfew := h.few
    show (a.cnt+1) % 256 = _
    rw [h.cnt, List.length_append, List.length_singleton, Nat.mod_eq_of_lt (by omega)]
  · show f.pdu.length % 65536 = _
    exact Nat.mod_eq_of_lt (by omega)

theorem Grown.filled {q : Bytes} (h : Grown a ps q) (hc : a.cnt<255) : Filled a (ps ++ [q]) where
  hdr := h.hdr
  body := h.body
  fits := h.fits
  len := h.len
  cnt := h.cnt
  few := h.cnt ▸ hc
  last qs r he := by
    obtain ⟨-, hr⟩ := List.append_inj' he rfl
    rw [h.last, (List.cons.inj hr).1]

theorem complete_finish {q : Bytes} (hhdr : a.hdr.length = wmiDataHdrLen)
    (hbody : a.body = (ps ++ [q]).flatMap padPdu) (hfits : subframesLen (ps ++ [q]) ≤ txAmsduMaxAggrLen)
    (dest source : Mac) : Complete (ps ++ [q]) (a.finish q.length dest source) := by
  have hdata := finish_data hbody dest source
  have hle := joinPadded_length_le (ps ++ [q])
  rw [length_flatMap_padPdu] at hle
  have hmax : txAmsduMaxAggrLen = 1500 := rfl
  generalize hj : joinPadded padPdu (ps ++ [q]) = body at hdata hle
  have hlen : unpaddedLen (ps ++ [q]) = body.length := by rw [unpaddedLen, hj]
  refine ⟨?_, ?_, ?_⟩
  · have h14 : ethHlen = 14 := rfl
    have h1600 : aggrTxMaxAggrSize = 1600 := rfl
    omega
  · have h12 : ∀ k, k<2 → (a.finish q.length dest source).data.getD (wmiDataHdrLen+12+k) 0 =
        (htons body.length).getD k 0 := by
      intro k hk
      have hpre : (a.hdr ++ dest.val ++ source.val).length = wmiDataHdrLen+12 := by
        simp [hhdr, dest.prop, source.prop]
      have hsplit : (a.finish q.length dest source).data =
          (a.hdr ++ dest.val ++ source.val) ++ (htons body.length ++ body) := by
        rw [hdata]
        simp only [List.append_assoc]
      rw [hsplit, List.getD_append_right _ _ _ _ (by omega), hpre, Nat.add_sub_cancel_left]
      exact List.getD_append _ _ _ _ hk
    rw [hProto, hlen, h12 0 (by decide), h12 1 (by decide)]
    exact ntohs_htons (by omega)
  · rw [hdata, hlen]
    simp [hhdr, dest.prop, source.prop, htons, ethHlen]
    omega

section Timer
variable {v w : Vif} {i : StaIdx} {tid : Tid}

/-- The flush timers are pending where something is held. -/
def TimerOk (v : Vif) : Prop := ∀ p, timer v p = (v.held p).isSome

theorem timer_setTid (v : Vif) (i : StaIdx) (t : Tid) (x : TxTid) :
    timer (v.setTid i t x) = Function.update (timer v) (i, t) x.timer := by
  funext p
  by_cases hp : p = (i, t)
  · rw [hp, Function.update_self, timer, setTid_self]
  · rw [Function.update_of_ne hp, timer, setTid_other v i t x hp, timer]

theorem timer_aggrTxProgressive (txTimeout : Bool) (clk : Clock) :
    timer (aggrTxProgressive v i tid txTimeout clk) = timer v := by
  have hset : ∀ p : Progress, timer (v.setTid i tid { (v.sta i).txTid tid with prog := p }) =
      timer v := fun p => by
    rw [timer_setTid]
    exact Function.update_eq_self (i, tid) (timer v)
  unfold aggrTxProgressive
  split
  · rfl
  · dsimp only
    split
    · exact hset _
    · exact hset _

theorem TimerOk.emptied (hv : ∀ p, p ≠ (i, tid) → timer v p = (v.held p).isSome)
    (ht : timer w = Function.update (timer v) (i, tid) false)
    (hh : w.held = Function.update v.held (i, tid) none) : TimerOk w := by
  intro p
  rw [ht, hh]
  by_cases hp : p = (i, tid)
  · rw [hp, Function.update_self, Function.update_self]
    rfl
  · rw [Function.update_of_ne hp, Function.update_of_ne hp, hv p hp]

/-- `aggr_tx_reset_aggr` and the counters, with the timer stopped or already expired. -/
theorem TimerOk.reset {timerStop : Bool} (txTimeout : Bool) (clk : Clock)
    (hv : ∀ p, p ≠ (i, tid) → timer v p = (v.held p).isSome)
    (hs : timerStop = true ∨ timer v (i, tid) = false) :
    TimerOk (v.resetAggr i tid timerStop) ∧
    TimerOk (aggrTxProgressive (v.resetAggr i tid timerStop) i tid txTimeout clk) := by
  have ht : timer (v.resetAggr i tid timerStop) = Function.update (timer v) (i, tid) false := by
    rw [Vif.resetAggr, timer_setTid]
    rcases hs with rfl | hs
    · simp
    · have hs : ((v.sta i).txTid tid).timer = false := hs
      simp [hs]
  refine ⟨TimerOk.emptied hv ht (held_resetAggr timerStop), TimerOk.emptied hv ?_ ?_⟩
  · rw [timer_aggrTxProgressive, ht]
  · rw [held_aggrTxProgressive, held_resetAggr]

theorem aggrTxJoin_timer {a : Amsdu} {skb : TxSkb} {clk : Clock}
    (hv : ∀ p, p ≠ (i, tid) → timer v p = (v.held p).isSome) (hon : timer v (i, tid) = true) :
    TimerOk (aggrTxJoin v i tid a skb clk).1 := by
  unfold aggrTxJoin
  dsimp only
  split
  · exact (TimerOk.reset _ _ hv (.inl rfl)).2
  · intro p
    show timer (v.setTid i tid _) p = ((v.setTid i tid _).held p).isSome
    rw [timer_setTid, held_setTid]
    by_cases hp : p = (i, tid)
    · rw [hp, Function.update_self, Function.update_self]
      exact hon
    · rw [Function.update_of_ne hp, Function.update_of_ne hp, hv p hp]

/-- A frame joins what is held, or a new aggregate that starts its timer. -/
inductive JoinSpec (v : Vif) (sta : Option StaIdx) (skb : TxSkb) (clk : Clock) :
    Vif × AggrTx → Prop
  | refused {o : AggrTx} (h : o = .bypass ∨ o = .drop) : JoinSpec v sta skb clk (v, o)
  | joins {i : StaIdx} {a : Amsdu} (hc : (sta <|> v.findSta (skb.copy wmiDataHdrLen 6)) = some i)
      (h : v.held (i, wmiDataHdrGetUp skb.data) = some a) :
      JoinSpec v sta skb clk (aggrTxJoin v i (wmiDataHdrGetUp skb.data) a skb clk)
  | starts {i : StaIdx} (hc : (sta <|> v.findSta (skb.copy wmiDataHdrLen 6)) = some i) :
      JoinSpec v sta skb clk (aggrTxJoin (v.startTimer i (wmiDataHdrGetUp skb.data)) i
        (wmiDataHdrGetUp skb.data) (.start skb) skb clk)

theorem aggrTxConn_joins {sta : Option StaIdx} {skb : TxSkb} {alloc : Bool} {clk : Clock}
    (hc : (sta <|> v.findSta (skb.copy wmiDataHdrLen 6)) = some i) :
    JoinSpec v sta skb clk (aggrTxConn v i skb alloc clk) := by
  unfold aggrTxConn
  dsimp only
  split
  · exact .refused (.inl rfl)
  · split
    · exact .refused (.inl rfl)
    · split
      · split
        · exact .starts hc
        · exact .refused (.inl rfl)
      · rename_i a ha
        split
        · exact .refused (.inl rfl)
        · exact .joins hc ha

theorem aggrTx_joins (v : Vif) (sta : Option StaIdx) (skb : TxSkb) (alloc : Bool) (clk : Clock) :
    JoinSpec v sta skb clk (aggrTx v sta skb alloc clk) := by
  unfold aggrTx
  split
  · exact .refused (.inl rfl)
  · split
    · exact .refused (.inl rfl)
    · split
      · cases hc : (sta <|> v.findSta (skb.copy wmiDataHdrLen 6)) with
        | none => exact .refused (.inr rfl)
        | some i => exact aggrTxConn_joins hc
      · exact .refused (.inl rfl)

theorem aggrTx_timer (hv : TimerOk v) (sta : Option StaIdx) (skb : TxSkb) (alloc : Bool)
    (clk : Clock) : TimerOk (aggrTx v sta skb alloc clk).1 := by
  have hj := aggrTx_joins v sta skb alloc clk
  generalize aggrTx v sta skb alloc clk = r at hj ⊢
  cases hj with
  | refused _ => exact hv
  | joins _ ha =>
    refine aggrTxJoin_timer (fun p _ => hv p) ((hv _).trans ?_)
    rw [ha]
    rfl
  | starts _ =>
    refine aggrTxJoin_timer (fun p hp => ?_) ?_
    · rw [Vif.startTimer, timer_setTid, held_setTid, Function.update_of_ne hp,
        Function.update_of_ne hp]
      exact hv p
    · rw [Vif.startTimer, timer_setTid, Function.update_self]

end Timer

theorem aggrTxJoin_few {v w : Vif} {i : StaIdx} {tid : Tid} {skb : TxSkb} {clk : Clock}
    (h : aggrTxJoin v i tid a skb clk = (w, .ok)) :
    ∃ b, w.held (i, tid) = some b ∧ b.cnt<255 := by
  unfold aggrTxJoin at h
  dsimp only at h
  split at h
  · cases (Prod.mk.inj h).2
  · rename_i hcnt
    have hmax := v.aggr.num_range.2
    refine ⟨a.append skb, ?_, by omega⟩
    rw [← (Prod.mk.inj h).1, held_setTid, Function.update_self]

theorem aggrTx_few {v w : Vif} {i : StaIdx} {sta : Option StaIdx} {skb : TxSkb} {alloc : Bool}
    {clk : Clock} (hc : (sta <|> v.findSta (skb.copy wmiDataHdrLen 6)) = some i)
    (h : aggrTx v sta skb alloc clk = (w, .ok)) :
    ∃ b, w.held (i, wmiDataHdrGetUp skb.data) = some b ∧ b.cnt<255 := by
  have hj := aggrTx_joins v sta skb alloc clk
  rw [h] at hj
  generalize hr : (w, AggrTx.ok) = r at hj
  cases hj with
  | refused ho => rcases ho with rfl | rfl <;> cases hr
  | joins hc' _ =>
    cases hc.symm.trans hc'
    exact aggrTxJoin_few hr.symm
  | starts hc' =>
    cases hc.symm.trans hc'
    exact aggrTxJoin_few hr.symm

/-- The record of a whole run is right. -/
structure Inv (s : Aggr) : Prop where
  held : ∀ p a, s.vif.held p = some a → Filled a (s.pdus p) ∧ s.pdus p ≠ []
  idle : ∀ p, s.vif.held p = none → s.pdus p = []
  armed : TimerOk s.vif
  out : ∀ o∈s.out, Complete o.1 o.2

variable {s : Aggr} {w : Vif} {p : StaIdx × Tid}

theorem Inv.complete (h : Inv s) {ps : List Bytes} {skb : Option TxSkb}
    (hh : w.held = Function.update s.vif.held p none) (ht : TimerOk w)
    (ho : ∀ b, skb = some b → Complete ps b) : Inv (s.complete w p ps skb) where
  held q a ha := by
    change w.held q = some a at ha
    rw [hh] at ha
    by_cases hq : q = p
    · rw [hq, Function.update_self] at ha
      cases ha
    · rw [Function.update_of_ne hq] at ha
      rw [show (s.complete w p ps skb).pdus q = s.pdus q from Function.update_of_ne hq _ _]
      exact h.held q a ha
  idle q hn := by
    change w.held q = none at hn
    by_cases hq : q = p
    · rw [hq]
      exact Function.update_self ..
    · rw [hh, Function.update_of_ne hq] at hn
      exact (Function.update_of_ne hq _ _).trans (h.idle q hn)
  armed := ht
  out o hm := by
    rcases List.mem_append.mp hm with hm | hm
    · exact h.out o hm
    · cases skb with
      | none => cases hm
      | some b =>
        cases List.mem_singleton.mp hm
        exact ho b rfl

theorem Inv.grown (h : Inv s) {sta : Option StaIdx} {i : StaIdx}
    (hj : Joins s.vif sta f.skb i a) :
    Grown (a.append f.skb) (s.pdus (i, wmiDataHdrGetUp f.skb.data)) f.pdu := by
  rcases hj.base with ⟨ha, hfit⟩ | ⟨hn, rfl⟩
  · exact (h.held _ a ha).1.append hfit
  · rw [h.idle _ hn]
    refine (filled_start f).append ?_
    have hsmall := hj.small
    have hzero : (Amsdu.start f.skb).len = 0 := rfl
    omega

theorem Inv.join (h : Inv s) {q : Bytes} (hg : Grown a (s.pdus p) q) (hc : a.cnt<255)
    (hh : w.held = Function.update s.vif.held p (some a)) (ht : TimerOk w) :
    Inv { s with vif := w, pdus := Function.update s.pdus p (s.pdus p ++ [q]) } where
  held r b hb := by
    change w.held r = some b at hb
    dsimp only
    rw [hh] at hb
    by_cases hr : r = p
    · rw [hr, Function.update_self] at hb ⊢
      cases hb
      exact ⟨hg.filled hc, by simp⟩
    · rw [Function.update_of_ne hr] at hb ⊢
      exact h.held r b hb
  idle r hn := by
    change w.held r = none at hn
    dsimp only
    rw [hh] at hn
    by_cases hr : r = p
    · rw [hr, Function.update_self] at hn
      cases hn
    · rw [Function.update_of_ne hr] at hn ⊢
      exact h.idle r hn
  armed := ht
  out := h.out

theorem Inv.tx (h : Inv s) (sta : Option StaIdx) (f : TxFrame) (alloc : Bool) (clk : Clock) :
    Inv (s.tx sta f alloc clk) := by
  have ht := aggrTx_timer h.armed sta f.skb alloc clk
  have hspec := aggrTx_spec s.vif sta f.skb alloc clk
  unfold Aggr.tx
  generalize hr : aggrTx s.vif sta f.skb alloc clk = r at ht hspec
  cases hspec with
  | bypass => split <;> exact h
  | drop hn =>
    rw [hn]
    exact h
  | ok hj _ hh =>
    obtain ⟨b, hb, hc⟩ := aggrTx_few hj.conn hr
    rw [hh, Function.update_self] at hb
    cases hb
    rw [hj.conn]
    exact h.join (h.grown hj) hc hh ht
  | done hj _ hh =>
    have hg := h.grown hj
    rw [hj.conn]
    refine h.complete hh ht fun b hb => ?_
    cases hb
    rw [← f.length_pdu]
    exact complete_finish hg.hdr hg.body hg.fits _ _

theorem Inv.take {v : Vif} {i : StaIdx} {tid : Tid} (h : Inv s) (hh : v.held = s.vif.held)
    (hv : ∀ q, q ≠ (i, tid) → timer v q = (v.held q).isSome) {timerStop : Bool}
    (hs : timerStop = true ∨ timer v (i, tid) = false) (hidle : v.held (i, tid) = none → TimerOk v)
    (clk : Clock) : Inv ({ s with vif := v }.take i tid timerStop clk) := by
  have ht : TimerOk (aggrTxTake v i tid timerStop clk).1 := by
    obtain ⟨h1, h2⟩ := TimerOk.reset (!timerStop) clk hv hs
    unfold aggrTxTake
    dsimp only
    split
    · rename_i hn
      exact hidle hn
    · split
      · exact h1
      · exact h2
  have hspec := aggrTxTake_spec v i tid timerStop clk
  unfold Aggr.take
  dsimp only
  generalize aggrTxTake v i tid timerStop clk = r at ht hspec
  have hupd : ∀ w : Vif, w.held = Function.update v.held (i, tid) none →
      w.held = Function.update s.vif.held (i, tid) none := fun w hw => by rw [hw, hh]
  cases hspec with
  | empty hn =>
    refine h.complete (hupd v ?_) ht fun b hb => nomatch hb
    rw [← hn, Function.update_eq_self]
  | lost _ _ hw => exact h.complete (hupd _ hw) ht fun b hb => nomatch hb
  | @taken w a dest ha _ hw =>
    refine h.complete (hupd _ hw) ht fun b hb => ?_
    cases hb
    rw [hh] at ha
    obtain ⟨hf, hne⟩ := h.held _ a ha
    obtain ⟨qs, q, hq⟩ := (List.eq_nil_or_concat _).resolve_left hne
    rw [List.concat_eq_append] at hq
    have hbody := hf.body
    have hfits := hf.fits
    change Complete (s.pdus (i, tid)) _
    rw [hq] at hbody hfits ⊢
    rw [hf.last qs q hq]
    exact complete_finish hf.hdr hbody hfits _ _

theorem Inv.step (h : Inv s) (e : AggrEvent) : Inv (aggrStep s e) := by
  cases e with
  | config seqPkt progressive maxAggrNum maxPduLen timeout =>
    exact ⟨h.held, h.idle, h.armed, h.out⟩
  | tx sta f alloc clk => exact h.tx sta f alloc clk
  | flush i tid clk =>
    exact h.take rfl (fun q _ => h.armed q) (.inl rfl) (fun _ => h.armed) clk
  | timeout i tid clk =>
    rw [aggrStep]
    split
    · rename_i hon
      have hh := held_setTid s.vif i tid { (s.vif.sta i).txTid tid with timer := false }
      have ht := timer_setTid s.vif i tid { (s.vif.sta i).txTid tid with timer := false }
      have hsame : (s.vif.setTid i tid { (s.vif.sta i).txTid tid with timer := false }).held =
          s.vif.held := hh.trans (Function.update_eq_self (i, tid) s.vif.held)
      refine h.take hsame (fun q hq => ?_) (.inr ?_) (fun hn => ?_) clk
      · rw [ht, hsame, Function.update_of_ne hq]
        exact h.armed q
      · rw [ht, Function.update_self]
      · -- a pending timer has something to flush
        rw [hsame] at hn
        have hoff := h.armed (i, tid)
        rw [hn, hon] at hoff
        cases hoff
    · exact h

/-- No aggregate, no timer. -/
def Fresh (vif : Vif) : Prop := ∀ p, vif.held p = none ∧ timer vif p = false

/-- Whatever is sent, configured, flushed and timed out: every aggregate stays within its
buffer, its length and count are those of the PDUs in it, a completed one carries the unpadded
total in its header, and the flush timer is pending while something is held. -/
structure Bounded (s : Aggr) : Prop where
  fits : ∀ p, ethHlen+subframesLen (s.pdus p) ≤ aggrTxMaxAggrSize
  written : ∀ p a, s.vif.held p = some a → a.body.length = subframesLen (s.pdus p)
  len : ∀ p a, s.vif.held p = some a → a.len = subframesLen (s.pdus p)
  cnt : ∀ p a, s.vif.held p = some a → a.cnt = (s.pdus p).length
  out : ∀ o∈s.out, Complete o.1 o.2
  timer : ∀ p, timer s.vif p = (s.vif.held p).isSome

theorem Inv.bounded (h : Inv s) : Bounded s where
  fits p := by
    have h14 : ethHlen = 14 := rfl
    have h1600 : aggrTxMaxAggrSize = 1600 := rfl
    cases hp : s.vif.held p with
    | none =>
      rw [h.idle p hp]
      decide
    | some a =>
      have hfits := (h.held p a hp).1.fits
      have hmax : txAmsduMaxAggrLen = 1500 := rfl
      omega
  written p a ha := by rw [(h.held p a ha).1.body, length_flatMap_padPdu]
  len p a ha := (h.held p a ha).1.len
  cnt p a ha := (h.held p a ha).1.cnt
  out := h.out
  timer := h.armed

theorem aggr_tx_bounded (vif : Vif) (h : Fresh vif) (es : List AggrEvent) :
    Bounded (run aggrStep { vif } es) :=
  have h0 : Inv { vif } := {
    held := fun p a ha => by cases (h p).1.symm.trans ha
    idle := fun _ _ => rfl
    armed := fun p => by rw [(h p).1, (h p).2]; rfl
    out := fun _ ho => nomatch ho }
  (run_invariant (fun _ e hs => hs.step e) h0 es).bounded

set_option maxRecDepth 4000 in
def sessionFrame : TxFrame :=
  ⟨(tcpCall 30 rfl).skb 0 0, by rw [Call.length_data]; exact Nat.le_add_left _ _⟩

theorem aggr_tx_bounded_session : Bounded (run aggrStep { vif := sessionVif }
    [.config true true 2 0 0, .tx none sessionFrame true {}, .timeout 0 0 {}]) :=
  aggr_tx_bounded sessionVif (fun _ => ⟨rfl, rfl⟩) _

end Ath6kl.AmsduBound
