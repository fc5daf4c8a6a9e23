import Ath6kl.HtcCredit
import Mathlib.Algebra.Ring.Nat
import Mathlib.Tactic.SplitIfs

/-! The credits that each service gets when the target is ready (`htc_pipe.c`). -/
namespace Ath6kl.HtcPipeSetup
open HtcCredit

section Model

def ecomm : Int := -70
def enomem : Int := -12

def maxMessageSize : Nat := 1536
def endpointMax : Nat := 9

/-- `struct htc_pipe_txcredit_alloc`; the count is a `u8`. -/
structure TxcreditAlloc where
  serviceId : SvcId := .none
  creditAlloc : Nat := 0
deriving DecidableEq

/-- What is returned, and the entries of `txcredit_alloc`. -/
structure Assignment where
  ret : Int
  txcreditAlloc : List TxcreditAlloc
deriving DecidableEq

/-- The entries from the second one on, in a table that was clear. -/
def tableOf (entries : List TxcreditAlloc) : List TxcreditAlloc :=
  let clear : TxcreditAlloc := {}
  clear::(entries ++ List.replicate (endpointMax-1-entries.length) clear)

def creditPerMaxmsg (tgtCredSz : Nat) : Nat :=
  if maxMessageSize%tgtCredSz ≠ 0 then maxMessageSize/tgtCredSz+1 else maxMessageSize/tgtCredSz

/-- A quarter, as a `u8`, or one. -/
def quarter (credits : Int) : Nat :=
  let creditAlloc := (credits/4).toNat%2^8
  if creditAlloc = 0 then creditAlloc+1 else creditAlloc

/-- `htc_setup_target_buffer_assignments`, whose `hif_usbaudioclass` is zero. -/
def setupTargetBufferAssignments (tgtCreds tgtCredSz : UInt16) : Assignment :=
  if tgtCredSz.toNat = 0 then { ret := ecomm, txcreditAlloc := tableOf [] }
  else
    let perMaxmsg := creditPerMaxmsg tgtCredSz.toNat
    let credits : Int := tgtCreds.toNat
    let vi : TxcreditAlloc := { serviceId := .wmiDataVi, creditAlloc := quarter credits }
    let credits := credits-vi.creditAlloc
    if credits ≤ 0 then { ret := enomem, txcreditAlloc := tableOf [vi] }
    else
      let vo : TxcreditAlloc := { serviceId := .wmiDataVo, creditAlloc := quarter credits }
      let credits := credits-vo.creditAlloc
      if credits ≤ 0 then { ret := enomem, txcreditAlloc := tableOf [vi, vo] }
      else
        let ctrl : TxcreditAlloc := { serviceId := .wmiControl, creditAlloc := perMaxmsg%2^8 }
        let credits := credits-ctrl.creditAlloc
        if credits ≤ 0 then { ret := enomem, txcreditAlloc := tableOf [vi, vo, ctrl] }
        else
          let bk : TxcreditAlloc := { serviceId := .wmiDataBk, creditAlloc := perMaxmsg%2^8 }
          let credits := credits-bk.creditAlloc
          if credits ≤ 0 then { ret := enomem, txcreditAlloc := tableOf [vi, vo, ctrl, bk] }
          else
            let be : TxcreditAlloc :=
              { serviceId := .wmiDataBe, creditAlloc := credits.toNat%2^8 }
            { ret := 0, txcreditAlloc := tableOf [vi, vo, ctrl, bk, be] }

/-- `htc_get_credit_alloc`. -/
def getCreditAlloc (txcreditAlloc : List TxcreditAlloc) (serviceId : SvcId) : Nat :=
  txcreditAlloc.foldl (fun allocation entry =>
    if entry.serviceId = serviceId then entry.creditAlloc else allocation) 0

end Model

section Shares

def services : List SvcId := [.wmiDataVi, .wmiDataVo, .wmiControl, .wmiDataBk, .wmiDataBe]

/-- The credits of a target are shared out. -/
structure SharesRight (tgtCreds tgtCredSz : UInt16) (a : Assignment) : Prop where
  sum : a.ret = 0 → (services.map (getCreditAlloc a.txcreditAlloc)).sum = tgtCreds.toNat
  pos : a.ret = 0 → ∀ s∈services, getCreditAlloc a.txcreditAlloc s ≠ 0
  message : a.ret = 0 → ∀ s∈[SvcId.wmiControl, SvcId.wmiDataBk],
    maxMessageSize ≤ getCreditAlloc a.txcreditAlloc s*tgtCredSz.toNat
  error : a.ret ≠ 0 → a.ret<0

/-- What is left once two services took a quarter each. -/
def leftOver (tgtCreds : Nat) : Nat :=
  tgtCreds-max 1 (tgtCreds/4)-max 1 ((tgtCreds-max 1 (tgtCreds/4))/4)

/-- The credits run out, or no share outgrows a byte. -/
def Fits (tgtCreds tgtCredSz : Nat) : Prop :=
  tgtCredSz = 0 ∨ leftOver tgtCreds ≤ 2*(creditPerMaxmsg tgtCredSz%2^8) ∨
    7 ≤ tgtCredSz ∧ tgtCreds<2^10 ∧ leftOver tgtCreds<2^8+2*creditPerMaxmsg tgtCredSz

instance (tgtCreds tgtCredSz : Nat) : Decidable (Fits tgtCreds tgtCredSz) :=
  inferInstanceAs (Decidable (_ ∨ _ ∨ _))

/-- The shares of the five services, in the order in which they are taken. -/
structure Taken (vi vo msg be : Nat) (a : Assignment) : Prop where
  table : a.txcreditAlloc = tableOf [⟨.wmiDataVi, vi⟩, ⟨.wmiDataVo, vo⟩, ⟨.wmiControl, msg⟩,
    ⟨.wmiDataBk, msg⟩, ⟨.wmiDataBe, be⟩]

variable {vi vo msg be : Nat} {a : Assignment}

theorem Taken.getCreditAlloc (h : Taken vi vo msg be a) :
    services.map (getCreditAlloc a.txcreditAlloc) = [vi, vo, msg, msg, be] := by
  rw [h.table]
  rfl

theorem Taken.sharesRight_iff {tgtCreds tgtCredSz : UInt16} (h : Taken vi vo msg be a)
    (hret : a.ret = 0) : SharesRight tgtCreds tgtCredSz a ↔
      vi+vo+msg+msg+be = tgtCreds.toNat ∧ vi ≠ 0 ∧ vo ≠ 0 ∧ msg ≠ 0 ∧ be ≠ 0 ∧
        maxMessageSize ≤ msg*tgtCredSz.toNat := by
  have hlist := h.getCreditAlloc
  simp only [services, List.map_cons, List.map_nil, List.cons.injEq, and_true] at hlist
  obtain ⟨hvi, hvo, hctrl, hbk, hbe⟩ := hlist
  have hsum : (services.map (HtcPipeSetup.getCreditAlloc a.txcreditAlloc)).sum =
      vi+vo+msg+msg+be := by
    rw [h.getCreditAlloc]
    simp only [List.sum_cons, List.sum_nil]
    omega
  constructor
  · intro hright
    have hpos := hright.pos hret
    simp only [services, List.forall_mem_cons, hvi, hvo, hctrl, hbk, hbe] at hpos
    have hmessage := hright.message hret .wmiControl List.mem_cons_self
    rw [hctrl] at hmessage
    exact ⟨hsum.symm.trans (hright.sum hret), hpos.1, hpos.2.1, hpos.2.2.1, hpos.2.2.2.2.1,
      hmessage⟩
  · rintro ⟨hall, hvi0, hvo0, hmsg0, hbe0, hmessage⟩
    refine ⟨fun _ => hsum.trans hall, fun _ => ?_, fun _ => ?_, fun hne => absurd hret hne⟩
    · simp only [services, List.forall_mem_cons, hvi, hvo, hctrl, hbk, hbe]
      exact ⟨hvi0, hvo0, hmsg0, hmsg0, hbe0, by simp⟩
    · simp only [List.forall_mem_cons, hctrl, hbk]
      exact ⟨hmessage, hmessage, by simp⟩

section Numbers
variable {sz : Nat} {credits : Int}

theorem creditPerMaxmsg_mul (h : 0<sz) : maxMessageSize ≤ creditPerMaxmsg sz*sz := by
  have hdiv := Nat.div_add_mod maxMessageSize sz
  have hlt := Nat.mod_lt maxMessageSize h
  rw [creditPerMaxmsg]
  split_ifs with hmod
  · rw [Nat.add_mul, Nat.mul_comm]
    omega
  · rw [Nat.mul_comm]
    omega

theorem creditPerMaxmsg_le (h : 7 ≤ sz) : creditPerMaxmsg sz ≤ 220 := by
  have hdiv : maxMessageSize/sz ≤ maxMessageSize/7 := Nat.div_le_div_left h (by decide)
  have h7 : maxMessageSize/7 = 219 := by decide
  rw [creditPerMaxmsg]
  split_ifs <;> omega

theorem creditPerMaxmsg_mod (h : sz<7) : creditPerMaxmsg sz%2^8*sz < maxMessageSize := by
  have hall : ∀ n, n<7 → creditPerMaxmsg n%2^8*n < maxMessageSize := by decide
  exact hall sz h

theorem quarter_bounds (credits : Int) : 1 ≤ quarter credits ∧ quarter credits ≤ 255 := by
  rw [quarter]
  split_ifs <;> omega

theorem quarter_small (h : credits<2^10) :
    (quarter credits : Int) = max 1 (credits/4) := by
  rw [quarter]
  split_ifs <;> omega

theorem quarter_large (h : 2^10 ≤ credits) : 2^10-1 ≤ credits-quarter credits := by
  rw [quarter]
  split_ifs <;> omega

end Numbers

section Assignment
variable (tgtCreds tgtCredSz : UInt16)

def afterVi (tgtCreds : UInt16) : Int := tgtCreds.toNat-quarter tgtCreds.toNat
def afterVo (tgtCreds : UInt16) : Int := afterVi tgtCreds-quarter (afterVi tgtCreds)

theorem setup_cases (hsz : tgtCredSz.toNat ≠ 0) :
    (setupTargetBufferAssignments tgtCreds tgtCredSz).ret = enomem ∧
        afterVo tgtCreds ≤ 2*(creditPerMaxmsg tgtCredSz.toNat%2^8 : Nat) ∨
      (setupTargetBufferAssignments tgtCreds tgtCredSz).ret = 0 ∧
        2*(creditPerMaxmsg tgtCredSz.toNat%2^8 : Nat)<afterVo tgtCreds ∧
        Taken (quarter tgtCreds.toNat) (quarter (afterVi tgtCreds))
          (creditPerMaxmsg tgtCredSz.toNat%2^8)
          ((afterVo tgtCreds-2*(creditPerMaxmsg tgtCredSz.toNat%2^8 : Nat)).toNat%2^8)
          (setupTargetBufferAssignments tgtCreds tgtCredSz) := by
  have hvi := quarter_bounds (tgtCreds.toNat : Int)
  have hvo := quarter_bounds (afterVi tgtCreds)
  have hafter : afterVo tgtCreds = afterVi tgtCreds-quarter (afterVi tgtCreds) := rfl
  rw [setupTargetBufferAssignments, if_neg hsz]
  dsimp only
  rw [show (tgtCreds.toNat : Int)-quarter tgtCreds.toNat = afterVi tgtCreds from rfl, ← hafter]
  generalize creditPerMaxmsg tgtCredSz.toNat%2^8 = m
  split_ifs with h1 h2 h3 h4
  · exact .inl ⟨rfl, by omega⟩
  · exact .inl ⟨rfl, by omega⟩
  · exact .inl ⟨rfl, by omega⟩
  · exact .inl ⟨rfl, by omega⟩
  · have hsum : afterVo tgtCreds-m-m = afterVo tgtCreds-2*m := by omega
    rw [hsum]
    exact .inr ⟨rfl, by omega, ⟨rfl⟩⟩

theorem leftOver_small (h : tgtCreds.toNat<2^10) :
    (leftOver tgtCreds.toNat : Int) = max 0 (afterVo tgtCreds) := by
  have hvi : (quarter tgtCreds.toNat : Int) = max 1 ((tgtCreds.toNat : Int)/4) :=
    quarter_small (by omega)
  have hbounds := quarter_bounds (tgtCreds.toNat : Int)
  have hvo : (quarter (afterVi tgtCreds) : Int) = max 1 (afterVi tgtCreds/4) :=
    quarter_small (by unfold afterVi; omega)
  unfold afterVo
  rw [hvo]
  unfold afterVi
  rw [hvi]
  unfold leftOver
  omega

theorem leftOver_large (h : 2^10 ≤ tgtCreds.toNat) :
    2^9 ≤ leftOver tgtCreds.toNat ∧ 2^9+2^8-1 ≤ afterVo tgtCreds := by
  have hvi : 2^10-1 ≤ afterVi tgtCreds := quarter_large (by omega)
  have hbounds := quarter_bounds (afterVi tgtCreds)
  unfold afterVo leftOver
  omega

variable {tgtCreds tgtCredSz} in
theorem sharesRight_of_error {a : Assignment} (h : a.ret<0) : SharesRight tgtCreds tgtCredSz a := by
  have hne : a.ret ≠ 0 := Int.ne_of_lt h
  exact ⟨fun hret => absurd hret hne, fun hret => absurd hret hne, fun hret => absurd hret hne,
    fun _ => h⟩

theorem leftOver_le_iff {m : Nat} (hm : m<2^8) :
    leftOver tgtCreds.toNat ≤ 2*m ↔ afterVo tgtCreds ≤ 2*(m : Nat) := by
  by_cases hc : tgtCreds.toNat<2^10
  · have heq := leftOver_small tgtCreds hc
    omega
  · have hlarge := leftOver_large tgtCreds (Nat.not_lt.mp hc)
    omega

theorem shares_iff_of_seven (h7 : 7 ≤ tgtCredSz.toNat)
    (hleft : 2*(creditPerMaxmsg tgtCredSz.toNat%2^8 : Nat)<afterVo tgtCreds) :
    quarter tgtCreds.toNat+quarter (afterVi tgtCreds)+creditPerMaxmsg tgtCredSz.toNat%2^8+
          creditPerMaxmsg tgtCredSz.toNat%2^8+
          (afterVo tgtCreds-2*(creditPerMaxmsg tgtCredSz.toNat%2^8 : Nat)).toNat%2^8 =
        tgtCreds.toNat ∧
      quarter tgtCreds.toNat ≠ 0 ∧ quarter (afterVi tgtCreds) ≠ 0 ∧
      creditPerMaxmsg tgtCredSz.toNat%2^8 ≠ 0 ∧
      (afterVo tgtCreds-2*(creditPerMaxmsg tgtCredSz.toNat%2^8 : Nat)).toNat%2^8 ≠ 0 ∧
      maxMessageSize ≤ creditPerMaxmsg tgtCredSz.toNat%2^8*tgtCredSz.toNat ↔
    tgtCreds.toNat<2^10 ∧
      leftOver tgtCreds.toNat<2^8+2*creditPerMaxmsg tgtCredSz.toNat := by
  have hvi := quarter_bounds (tgtCreds.toNat : Int)
  have hvo := quarter_bounds (afterVi tgtCreds)
  have hafter : afterVo tgtCreds =
    tgtCreds.toNat-quarter tgtCreds.toNat-quarter (afterVi tgtCreds) := rfl
  have hle := creditPerMaxmsg_le h7
  have hpos : 0<tgtCredSz.toNat := by omega
  have hmul := creditPerMaxmsg_mul hpos
  have hmod : creditPerMaxmsg tgtCredSz.toNat%2^8 = creditPerMaxmsg tgtCredSz.toNat :=
    Nat.mod_eq_of_lt (by omega)
  have hne : creditPerMaxmsg tgtCredSz.toNat ≠ 0 := by
    intro hzero
    rw [hzero, Nat.zero_mul] at hmul
    exact absurd hmul (by decide)
  rw [hmod] at hleft ⊢
  by_cases hc : tgtCreds.toNat<2^10
  · have heq := leftOver_small tgtCreds hc
    omega
  · have hge := leftOver_large tgtCreds (Nat.not_lt.mp hc)
    omega

/-- The shares are right exactly if none of them outgrows its byte. -/
theorem shares_right_iff :
    SharesRight tgtCreds tgtCredSz (setupTargetBufferAssignments tgtCreds tgtCredSz) ↔
      Fits tgtCreds.toNat tgtCredSz.toNat := by
  by_cases hsz : tgtCredSz.toNat = 0
  · have hret : (setupTargetBufferAssignments tgtCreds tgtCredSz).ret = ecomm := by
      rw [setupTargetBufferAssignments, if_pos hsz]
    exact iff_of_true (sharesRight_of_error (by rw [hret]; decide)) (.inl hsz)
  · have hbyte : creditPerMaxmsg tgtCredSz.toNat%2^8<2^8 := Nat.mod_lt _ (by decide)
    have hfew := leftOver_le_iff tgtCreds hbyte
    obtain ⟨hret, hleft⟩ | ⟨hret, hleft, htaken⟩ := setup_cases tgtCreds tgtCredSz hsz
    · exact iff_of_true (sharesRight_of_error (by rw [hret]; decide)) (.inr (.inl (hfew.mpr hleft)))
    · have hmany : ¬leftOver tgtCreds.toNat ≤ 2*(creditPerMaxmsg tgtCredSz.toNat%2^8) :=
        fun hle => absurd (hfew.mp hle) (Int.not_le.mpr hleft)
      rw [htaken.sharesRight_iff hret, Fits]
      by_cases h7 : 7 ≤ tgtCredSz.toNat
      · rw [shares_iff_of_seven tgtCreds tgtCredSz h7 hleft]
        simp only [hsz, hmany, h7, false_or, true_and]
      · have hlt := creditPerMaxmsg_mod (Nat.not_le.mp h7)
        simp only [hsz, hmany, h7, false_or, false_and, iff_false]
        exact fun h => absurd h.2.2.2.2.2 (Nat.not_le.mpr hlt)

/-- With a thousand credits of 1664 bytes, best effort gets 49 of the 561 that are left. -/
theorem thousand_not_right :
    ¬SharesRight 1000 1664 (setupTargetBufferAssignments 1000 1664) := by
  intro h
  have hsum := h.sum (by decide)
  exact absurd hsum (by decide)

end Assignment

end Shares

end Ath6kl.HtcPipeSetup
