import Ath6kl.DataTxOrder
import Ath6kl.IbssNodeMap

/-! What `ath6kl_data_tx` and `aggr_tx_tid` take for a packet, and who has it in the end. Here
`ath6kl_data_tx` comes with `TESTMODE_EPPING`, in two sections: up to the flush, where only
commands take anything, and what it takes for the frame. -/
namespace Ath6kl.DataTxAccount
open EthFrame AmsduTx DataTx IbssNodeMap
open P2pFlowctrl (Tag)
open PowerSave (upToAc)

def wmmNumAc : Nat := 4
/-- Where the endpoint of a frame comes from. `flush` is the station whose aggregates go out
first. -/
inductive Source
  | ibss (dest : Bytes)
  | ac (ac : Nat) (flush : Option StaIdx)

structure Charge where
  eid : Int
  tag : Tag
  mapNo : Nat := 0

/-- The free cookies of both pools and the counters, with `ctrl_ep`. -/
structure Accounts where
  ctrlEp : Int
  cookieData : Nat
  cookieCtrl : Nat
  dataCookieCount : Nat
  txPending : Int → Nat
  totalTxDataPend : Nat
  nodePend : Nat → Nat

def accounts (ar : Ar) : Accounts where
  ctrlEp := ar.ctrlEp
  cookieData := ar.cookieData
  cookieCtrl := ar.cookieCtrl
  dataCookieCount := ar.dataCookieCount
  txPending := ar.txPending
  totalTxDataPend := ar.totalTxDataPend
  nodePend i := (ar.nodeMap i).txPend

/-- `tx_pend` with one more frame under `mapNo`. -/
def chargeNode (nodePend : Nat → Nat) : Nat → Nat → Nat
  | 0 => nodePend
  | n+1 => Function.update nodePend n ((nodePend n + 1) % 256)

/-- The accounts with one more frame on its way. -/
def Accounts.charge (a : Accounts) (c : Charge) : Accounts where
  ctrlEp := a.ctrlEp
  cookieData := if c.tag = .data then a.cookieData - 1 else a.cookieData
  cookieCtrl := if c.tag = .data then a.cookieCtrl else a.cookieCtrl - 1
  dataCookieCount := if c.tag = .data then a.dataCookieCount + 1 else a.dataCookieCount
  txPending := Function.update a.txPending c.eid (a.txPending c.eid + 1)
  totalTxDataPend := a.totalTxDataPend + 1
  nodePend := chargeNode a.nodePend c.mapNo

/-- The accounts with one more command on its way. -/
def Accounts.command (a : Accounts) : Accounts :=
  { a with
    cookieCtrl := a.cookieCtrl - 1
    txPending := Function.update a.txPending a.ctrlEp (a.txPending a.ctrlEp + 1) }

/-- A frame handed to `ath6kl_htc_tx` or, if `queued`, to the flow-control queue; or a command
handed to `ath6kl_htc_tx`. -/
inductive Handed
  | frame (skb : TxSkb) (charge : Charge) (queued : Bool)
  | command (cmd : TxCmd)

def Accounts.take (a : Accounts) : Handed → Accounts
  | .frame _ charge _ => a.charge charge
  | .command _ => a.command

def Handed.buffer (queued : Bool) : Handed → Option TxSkb
  | .frame skb _ q => if q = queued then some skb else none
  | .command _ => none

def Handed.cmd : Handed → Option TxCmd
  | .frame .. => none
  | .command cmd => some cmd

/-- Whatever is taken is taken for a packet that is handed over. -/
def Settled (s s' : Driver) : Prop :=
  ∃ ps : List Handed,
    s'.htcTx = s.htcTx ++ ps.filterMap (Handed.buffer false) ∧
    s'.flowQ = s.flowQ ++ ps.filterMap (Handed.buffer true) ∧
    s'.cmdTx = s.cmdTx ++ ps.filterMap Handed.cmd ∧
    accounts s'.ar = ps.foldl Accounts.take (accounts s.ar)

/-- The endpoint in `aggr_tx_tid`. -/
def aggrEid (ar : Ar) (skb : TxSkb) : Int :=
  ar.ac2epMap (upToAc.getD (wmiDataHdrGetUp skb.data) 0)

/-- The aggregate that `aggr_tx_tid` sends. -/
def tidFrame (vif : Vif) (i : StaIdx) (tid : Tid) : Option TxSkb :=
  (aggrTxTake vif i tid true {}).2

/-- `aggr_tx_tid` comes to the cookie. -/
def due (s : Driver) (i : StaIdx) (tid : Tid) : Bool :=
  match tidFrame s.vif i tid with
  | none => false
  | some skb => !unmapped (aggrEid s.ar skb)

section
variable {s : Driver} {conn : Option StaIdx} {env : Env}

end

section
variable (env : Env) (s : Driver)

end

section
variable {s t u : Driver}

theorem Settled.trans (h : Settled s t) (k : Settled t u) : Settled s u := by
  obtain ⟨ps, hh, hf, hc, ha⟩ := h
  obtain ⟨qs, kh, kf, kc, ka⟩ := k
  refine ⟨ps ++ qs, ?_, ?_, ?_, ?_⟩
  · simp [kh, hh]
  · simp [kf, hf]
  · simp [kc, hc]
  · rw [ka, ha, List.foldl_append]

/-- Nothing but commands is handed over, each with its cookie. -/
structure Prepared (s t : Driver) : Prop where
  settled : Settled s t
  htcTx : t.htcTx = s.htcTx
  flowQ : t.flowQ = s.flowQ

theorem Prepared.trans (h : Prepared s t) (k : Prepared t u) : Prepared s u :=
  ⟨h.settled.trans k.settled, k.htcTx.trans h.htcTx, k.flowQ.trans h.flowQ⟩

/-- Packets that are counted in `total_tx_data_pend` beyond those handed over. -/
def excess (s : Driver) : Int := s.ar.totalTxDataPend - (s.htcTx.length + s.flowQ.length)

theorem totalTxDataPend_foldl (ps : List Handed) (a : Accounts) :
    (ps.foldl Accounts.take a).totalTxDataPend = a.totalTxDataPend +
      ((ps.filterMap (Handed.buffer false)).length +
        (ps.filterMap (Handed.buffer true)).length) := by
  induction ps generalizing a with
  | nil => rfl
  | cons p ps ih =>
    rw [List.foldl_cons, ih]
    cases p with
    | command cmd => rfl
    | frame skb c queued =>
      cases queued <;> simp [Handed.buffer, Accounts.take, Accounts.charge] <;> omega

theorem Settled.excess_eq (h : Settled s t) : excess t = excess s := by
  obtain ⟨ps, hh, hf, -, ha⟩ := h
  have htotal : t.ar.totalTxDataPend = s.ar.totalTxDataPend + _ :=
    (congrArg Accounts.totalTxDataPend ha).trans (totalTxDataPend_foldl ps (accounts s.ar))
  unfold excess
  rw [htotal, hh, hf, List.length_append, List.length_append]
  omega

/-- `ok` decides whether the step settles what it takes; a step that does not leaves a packet
counted that nobody has. -/
structure Outcome (ok : Prop) (s t : Driver) : Prop where
  settled : ok → Settled s t
  lost : ¬ok → excess s < excess t

theorem Outcome.le {ok : Prop} (h : Outcome ok s t) : excess s ≤ excess t := by
  by_cases hok : ok
  · exact le_of_eq (h.settled hok).excess_eq.symm
  · exact le_of_lt (h.lost hok)

theorem Outcome.trans {p q : Prop} (h : Outcome p s t) (k : Outcome q t u) :
    Outcome (p ∧ q) s u where
  settled hok := (h.settled hok.1).trans (k.settled hok.2)
  lost hok := by
    by_cases hp : p
    · exact lt_of_le_of_lt h.le (k.lost fun hq => hok ⟨hp, hq⟩)
    · exact lt_of_lt_of_le (h.lost hp) k.le

theorem Outcome.congr {p q : Prop} (h : Outcome p s t) (hpq : p ↔ q) : Outcome q s t :=
  ⟨fun hq => h.settled (hpq.mpr hq), fun hq => h.lost fun hp => hq (hpq.mp hp)⟩

end

section
variable {ar ar' : Ar} {tag : Tag}

end

@[simp] theorem submit_vif (s : Driver) (skb : TxSkb) (flow : FlowRet) :
    (s.submit skb flow).vif = s.vif := by
  cases flow <;> rfl

/-- The counters that a flush leaves, when `n` aggregates got a cookie. -/
structure Spent (a b : Ar) (n : Nat) : Prop where
  cookieData : b.cookieData = a.cookieData - n
  cookieCtrl : b.cookieCtrl = a.cookieCtrl
  dataCookieCount : b.dataCookieCount = a.dataCookieCount + n
  mcc : b.mcc = a.mcc
  ac2epMap : b.ac2epMap = a.ac2epMap
  ctrlEp : b.ctrlEp = a.ctrlEp

theorem Spent.refl (a : Ar) : Spent a a 0 := ⟨rfl, rfl, rfl, rfl, rfl, rfl⟩

theorem Spent.trans {a b c : Ar} {m n : Nat} (h : Spent a b m) (k : Spent b c n) :
    Spent a c (m+n) where
  cookieData := by rw [k.cookieData, h.cookieData, Nat.sub_sub]
  cookieCtrl := k.cookieCtrl.trans h.cookieCtrl
  dataCookieCount := by rw [k.dataCookieCount, h.dataCookieCount, Nat.add_assoc]
  mcc := k.mcc.trans h.mcc
  ac2epMap := k.ac2epMap.trans h.ac2epMap
  ctrlEp := k.ctrlEp.trans h.ctrlEp

section
variable {s : Driver} {i : StaIdx} {tid : Tid} {timerStop : Bool} {clk : Clock} {flow : FlowRet}

end

section
variable (env : Env) (i : StaIdx)

end

section
variable {s : Driver} {skb : TxSkb} {eid : Option Int} {tag : Tag} {env : Env}

end

section
variable (ar : Ar) (dest : Bytes)

end

theorem Settled.nodePend {s t : Driver} (h : Settled s t) (hh : t.htcTx = s.htcTx)
    (hf : t.flowQ = s.flowQ) : (accounts t.ar).nodePend = (accounts s.ar).nodePend := by
  obtain ⟨ps, kh, kf, -, ka⟩ := h
  have hno := List.self_eq_append_right.mp (hh.symm.trans kh)
  have hyes := List.self_eq_append_right.mp (hf.symm.trans kf)
  rw [ka]
  generalize accounts s.ar = a
  clear ka kh kf
  induction ps generalizing a with
  | nil => rfl
  | cons p ps ih =>
    cases p with
    | command cmd => exact ih hno hyes a.command
    | frame skb c queued =>
      cases queued with
      | false => simp [Handed.buffer] at hno
      | true => simp [Handed.buffer] at hyes

section
variable {mode : Option Testmode} {r s : Driver} {env : Env}

end

end Ath6kl.DataTxAccount
