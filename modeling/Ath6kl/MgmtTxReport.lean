import Ath6kl.MgmtTx
import Mathlib.Data.List.Basic
import Mathlib.Data.List.Count
import Mathlib.Data.List.Nodup

/-! Every accepted action frame is either listed or reported. The books are kept for the list
together with the frames a function holds in its hands; the exact events that break them are
named. -/
namespace Ath6kl.MgmtTx
open EthFrame Lib.Machine List
variable {s : Wmi} {L : List Frame} {f : Frame} {v : Nat}

/-- An action frame that was accepted on the interface `v`. -/
def onVif (v : Nat) : Submission := { vif := v, action := true, ret := 0 }

structure Books (s : Wmi) (L : List Frame) : Prop where
  p2p : s.p2p = true
  nodup : (L.map Frame.seq).Nodup
  accepted : ∀ f∈L, s.subs[f.seq]? = some (onVif f.vif)
  unreported : ∀ f∈L, f.seq∉s.reports.map Report.seq
  alive : ∀ f∈L, f.seq∉s.freed
  budget : ∀ f∈L, s.sent.count f.seq + f.retry ≤ wmiTxMgmtRetryMax + 1
  complete : ∀ n v, s.subs[n]? = some (onVif v) → n∉s.reports.map Report.seq →
    n∈L.map Frame.seq
  once : (s.reports.map Report.seq).Nodup
  owner : ∀ r∈s.reports, s.subs[r.seq]? = some (onVif r.ndev)
  sends : ∀ n, s.sent.count n ≤ wmiTxMgmtRetryMax + 1
  past : ∀ n, s.subs.length ≤ n → n∉s.sent ∧ n∉s.freed

theorem Books.perm {L' : List Frame} (h : Books s L) (hp : L ~ L') : Books s L' where
  p2p := h.p2p
  nodup := (hp.map Frame.seq).nodup_iff.mp h.nodup
  accepted f hf := h.accepted f (hp.mem_iff.mpr hf)
  unreported f hf := h.unreported f (hp.mem_iff.mpr hf)
  alive f hf := h.alive f (hp.mem_iff.mpr hf)
  budget f hf := h.budget f (hp.mem_iff.mpr hf)
  complete n v hn ho := (hp.map Frame.seq).mem_iff.mp (h.complete n v hn ho)
  once := h.once
  owner := h.owner
  sends := h.sends
  past := h.past

theorem Books.seq_lt (h : Books s L) (hf : f∈L) : f.seq < s.subs.length :=
  (List.getElem?_eq_some_iff.mp (h.accepted f hf)).1

theorem Books.report_lt {r : Report} (h : Books s L) (hr : r∈s.reports) :
    r.seq < s.subs.length :=
  (List.getElem?_eq_some_iff.mp (h.owner r hr)).1

theorem Books.notMem_map (h : Books s (f::L)) {g : Frame} (hg : g∈L) : g.seq ≠ f.seq := by
  intro he
  have hnot := (nodup_cons.mp h.nodup).1
  rw [← he] at hnot
  exact hnot (mem_map_of_mem hg)

theorem Books.report (h : Books s (f::L)) (ack : Bool) : Books (mgmtTxStatus s f.vif f ack) L where
  p2p := h.p2p
  nodup := (nodup_cons.mp h.nodup).2
  accepted g hg := h.accepted g (mem_cons_of_mem f hg)
  unreported g hg := by
    simp only [mgmtTxStatus, map_append, map_cons, map_nil, mem_append, mem_singleton, not_or]
    exact ⟨h.unreported g (mem_cons_of_mem f hg), h.notMem_map hg⟩
  alive g hg := by
    simp only [mgmtTxStatus, mem_append, mem_singleton, not_or]
    exact ⟨h.alive g (mem_cons_of_mem f hg), h.notMem_map hg⟩
  budget g hg := h.budget g (mem_cons_of_mem f hg)
  complete n v hn ho := by
    simp only [mgmtTxStatus, map_append, map_cons, map_nil, mem_append, mem_singleton,
      not_or] at ho
    have hmem := h.complete n v hn ho.1
    rw [map_cons, mem_cons] at hmem
    exact hmem.resolve_left ho.2
  once := by
    have hopen := h.unreported f mem_cons_self
    simp only [mgmtTxStatus, map_append, map_cons, map_nil]
    exact Nodup.append h.once (nodup_singleton f.seq) (disjoint_singleton.mpr hopen)
  owner r hr := by
    simp only [mgmtTxStatus, mem_append, mem_singleton] at hr
    cases hr with
    | inl hr => exact h.owner r hr
    | inr hr =>
      subst hr
      exact h.accepted f mem_cons_self
  sends := h.sends
  past n hn := by
    have hlt : f.seq < s.subs.length := h.seq_lt mem_cons_self
    refine ⟨(h.past n hn).1, ?_⟩
    simp only [mgmtTxStatus, mem_append, mem_singleton, not_or]
    refine ⟨(h.past n hn).2, fun he => ?_⟩
    have hle : s.subs.length ≤ n := hn
    omega

theorem flush_list (hand : List Frame) (s : Wmi) (v : Nat) :
    (hand.foldl (fun s f => mgmtTxStatus s v f false) s).mgmtTxFrameList =
      s.mgmtTxFrameList := by
  induction hand generalizing s with
  | nil => rfl
  | cons f hand ih => exact ih (mgmtTxStatus s v f false)

theorem Books.flush {hand : List Frame} (h : Books s (hand ++ L)) (hv : ∀ f∈hand, f.vif = v) :
    Books (hand.foldl (fun s f => mgmtTxStatus s v f false) s) L := by
  induction hand generalizing s with
  | nil => exact h
  | cons f hand ih =>
    have hf : f.vif = v := hv f mem_cons_self
    have hone := Books.report (f := f) h false
    rw [hf] at hone
    exact ih hone fun g hg => hv g (mem_cons_of_mem f hg)

theorem count_snoc (l : List Nat) (a n : Nat) :
    (l ++ [a]).count n = l.count n + if a = n then 1 else 0 := by
  by_cases h : a = n
  · simp [h]
  · simp [h]

theorem Books.resend (h : Books s (f::L)) (hr : f.retry ≠ 0) :
    Books { s with sent := s.sent ++ [f.seq] } ({ f with retry := f.retry - 1 }::L) where
  p2p := h.p2p
  nodup := h.nodup
  accepted := by
    intro g hg
    cases hg with
    | head => exact h.accepted f mem_cons_self
    | tail _ hg => exact h.accepted g (mem_cons_of_mem f hg)
  unreported := by
    intro g hg
    cases hg with
    | head => exact h.unreported f mem_cons_self
    | tail _ hg => exact h.unreported g (mem_cons_of_mem f hg)
  alive := by
    intro g hg
    cases hg with
    | head => exact h.alive f mem_cons_self
    | tail _ hg => exact h.alive g (mem_cons_of_mem f hg)
  budget := by
    intro g hg
    cases hg with
    | head =>
      have hb := h.budget f mem_cons_self
      rw [count_snoc, if_pos rfl]
      dsimp only
      omega
    | tail _ hg =>
      have hne := h.notMem_map hg
      rw [count_snoc, if_neg (Ne.symm hne)]
      exact h.budget g (mem_cons_of_mem f hg)
  complete := h.complete
  once := h.once
  owner := h.owner
  sends n := by
    have hb := h.budget f mem_cons_self
    have hs := h.sends n
    rw [count_snoc]
    split
    next he =>
      subst he
      omega
    next => exact hs
  past n hn := by
    have hlt : f.seq < s.subs.length := h.seq_lt mem_cons_self
    simp only [mem_append, mem_singleton, not_or]
    have hle : s.subs.length ≤ n := hn
    exact ⟨⟨(h.past n hn).1, by omega⟩, (h.past n hn).2⟩

theorem Books.submit (h : Books s L) {x : Submission} (hx : ∀ v, x ≠ onVif v) (sent freed : List Nat)
    (hsent : ∀ n, sent.count n ≤ if n = s.subs.length then 1 else 0)
    (hfreed : ∀ n∈freed, n = s.subs.length) :
    Books { s with
      subs := s.subs ++ [x], sent := s.sent ++ sent, freed := s.freed ++ freed } L where
  p2p := h.p2p
  nodup := h.nodup
  accepted f hf := by
    have hlt := h.seq_lt hf
    rw [getElem?_append_left hlt]
    exact h.accepted f hf
  unreported := h.unreported
  alive f hf := by
    have hlt := h.seq_lt hf
    rw [mem_append, not_or]
    refine ⟨h.alive f hf, fun hm => ?_⟩
    have he := hfreed f.seq hm
    omega
  budget f hf := by
    have hlt := h.seq_lt hf
    have hcount := hsent f.seq
    rw [if_neg (by omega)] at hcount
    have hb := h.budget f hf
    rw [count_append]
    omega
  complete n v hn ho := by
    by_cases hlt : n < s.subs.length
    · rw [getElem?_append_left hlt] at hn
      exact h.complete n v hn ho
    · rw [getElem?_append_right (by omega), getElem?_singleton] at hn
      split at hn
      next => exact absurd (Option.some.inj hn) (hx v)
      next => cases hn
  once := h.once
  owner r hr := by
    have hlt := h.report_lt hr
    rw [getElem?_append_left hlt]
    exact h.owner r hr
  sends n := by
    have hcount := hsent n
    rw [count_append]
    split at hcount
    next he =>
      have hzero := count_eq_zero.mpr (h.past n (Nat.le_of_eq he.symm)).1
      rw [hzero, wmiTxMgmtRetryMax]
      omega
    next =>
      have hs := h.sends n
      omega
  past n hn := by
    rw [length_append, length_singleton] at hn
    have hcount := hsent n
    rw [if_neg (by omega)] at hcount
    have hp := h.past n (by omega)
    rw [mem_append, mem_append, not_or, not_or]
    refine ⟨⟨hp.1, count_eq_zero.mp (by omega)⟩, hp.2, fun hm => ?_⟩
    have he := hfreed n hm
    omega

theorem Books.accept (h : Books s L) (hf : f.seq = s.subs.length)
    (hr : f.retry ≤ wmiTxMgmtRetryMax) :
    Books { s with subs := s.subs ++ [onVif f.vif], sent := s.sent ++ [f.seq] } (f::L) where
  p2p := h.p2p
  nodup := by
    rw [map_cons, nodup_cons]
    refine ⟨fun hm => ?_, h.nodup⟩
    obtain ⟨g, hg, he⟩ := mem_map.mp hm
    have hlt := h.seq_lt hg
    omega
  accepted := by
    intro g hg
    cases hg with
    | head => rw [hf, getElem?_append_right (Nat.le_refl _), Nat.sub_self, getElem?_cons_zero]
    | tail _ hg =>
      have hlt := h.seq_lt hg
      rw [getElem?_append_left hlt]
      exact h.accepted g hg
  unreported := by
    intro g hg
    cases hg with
    | head =>
      intro hm
      obtain ⟨r, hr, he⟩ := mem_map.mp hm
      have hlt := h.report_lt hr
      omega
    | tail _ hg => exact h.unreported g hg
  alive := by
    intro g hg
    cases hg with
    | head => exact (h.past f.seq (Nat.le_of_eq hf.symm)).2
    | tail _ hg => exact h.alive g hg
  budget := by
    intro g hg
    cases hg with
    | head =>
      have hzero := count_eq_zero.mpr (h.past f.seq (Nat.le_of_eq hf.symm)).1
      rw [count_snoc, if_pos rfl, hzero]
      omega
    | tail _ hg =>
      have hlt := h.seq_lt hg
      rw [count_snoc, if_neg (by omega)]
      exact h.budget g hg
  complete n v hn ho := by
    rw [map_cons, mem_cons]
    by_cases hlt : n < s.subs.length
    · rw [getElem?_append_left hlt] at hn
      exact .inr (h.complete n v hn ho)
    · rw [getElem?_append_right (by omega), getElem?_singleton] at hn
      split at hn
      next => exact .inl (by omega)
      next => cases hn
  once := h.once
  owner r hr := by
    have hlt := h.report_lt hr
    rw [getElem?_append_left hlt]
    exact h.owner r hr
  sends n := by
    rw [count_snoc]
    split
    next he =>
      have hzero := count_eq_zero.mpr (h.past n (by omega)).1
      rw [hzero, wmiTxMgmtRetryMax]
      omega
    next => exact h.sends n
  past n hn := by
    rw [length_append, length_singleton] at hn
    have hp := h.past n (by omega)
    rw [mem_append, mem_singleton, not_or]
    exact ⟨⟨hp.1, by omega⟩, hp.2⟩

theorem Books.held (h : Books s L) (M : List Frame) :
    Books { s with mgmtTxFrameList := M } L where
  p2p := h.p2p
  nodup := h.nodup
  accepted := h.accepted
  unreported := h.unreported
  alive := h.alive
  budget := h.budget
  complete := h.complete
  once := h.once
  owner := h.owner
  sends := h.sends
  past := h.past

def Accepted (s : Wmi) (n : Nat) : Prop := ∃ v, s.subs[n]? = some (onVif v)

/-- The list holds the accepted action frames without a report, none freed; no frame is reported twice
or on another interface; what was refused is neither listed nor reported; and no frame is sent
more often than the retries allow. -/
structure Consistent (s : Wmi) : Prop where
  listed : ∀ n, n∈s.mgmtTxFrameList.map Frame.seq ↔
    Accepted s n ∧ n∉s.reports.map Report.seq
  nodup : (s.mgmtTxFrameList.map Frame.seq).Nodup
  alive : ∀ f∈s.mgmtTxFrameList, f.seq∉s.freed
  once : (s.reports.map Report.seq).Nodup
  owner : ∀ r∈s.reports, ∃ x, s.subs[r.seq]? = some x ∧ x.vif = r.ndev
  refused : ∀ n x, s.subs[n]? = some x → x.ret ≠ 0 →
    n∉s.mgmtTxFrameList.map Frame.seq ∧ n∉s.reports.map Report.seq
  sends : ∀ n, s.sent.count n ≤ wmiTxMgmtRetryMax + 1

theorem Books.consistent (h : Books s s.mgmtTxFrameList) : Consistent s where
  listed n := by
    constructor
    · intro hn
      obtain ⟨f, hf, he⟩ := mem_map.mp hn
      subst he
      exact ⟨⟨f.vif, h.accepted f hf⟩, h.unreported f hf⟩
    · intro ⟨⟨v, hv⟩, hn⟩
      exact h.complete n v hv hn
  nodup := h.nodup
  alive := h.alive
  once := h.once
  owner r hr := ⟨onVif r.ndev, h.owner r hr, rfl⟩
  refused n x hx hret := by
    have hnot : ∀ v, s.subs[n]? ≠ some (onVif v) := by
      intro v hv
      rw [hx] at hv
      cases hv
      exact hret rfl
    refine ⟨fun hn => ?_, fun hn => ?_⟩
    · obtain ⟨f, hf, he⟩ := mem_map.mp hn
      exact hnot f.vif (he ▸ h.accepted f hf)
    · obtain ⟨r, hr, he⟩ := mem_map.mp hn
      exact hnot r.ndev (he ▸ h.owner r hr)
  sends := h.sends

/-- The submission comes as far as the command, with its frame listed. -/
def Listed (wait : UInt32) (data : Bytes) (env : Env) : Prop :=
  wait = 0 ∧ isAction data = true ∧ env.buf = true ∧ env.frame = true ∧ env.skb = true

/-- The command of a listed frame is not refused, neither at the submission nor at a retry; and a
status that is reported belongs to the interface of the first listed frame with its id. -/
def Meets (s : Wmi) : Event → Prop
  | .sendAction _ _ _ wait data env => Listed wait data env → env.send = 0
  | .txStatus vif id ackStatus env =>
    ∀ f, s.mgmtTxFrameList.find? (fun f => f.idx = id) = some f →
      if ackStatus = 0 ∧ f.retry ≠ 0 ∧ env.skb = true then env.send = 0 else f.vif = vif
  | .channelClosed _ => True

theorem newFrame_retry (s : Wmi) (vif : Nat) (id freq : UInt32) (data : Bytes) :
    (newFrame s vif id freq data).retry ≤ wmiTxMgmtRetryMax := by
  unfold newFrame
  dsimp only
  split
  next => exact Nat.le_refl _
  next => exact Nat.zero_le _

theorem submit_listed (hp : s.p2p = true) (vif : Nat) (id freq wait : UInt32) (data : Bytes)
    (env : Env) (hl : Listed wait data env) :
    submit s vif id freq wait data env = { s with
      mgmtTxFrameList := s.mgmtTxFrameList ++ [newFrame s vif id freq data]
      sent := s.sent ++ [(newFrame s vif id freq data).seq]
      subs := s.subs ++ [{ vif := vif, action := true, ret := env.send }] } := by
  obtain ⟨hw, ha, hb, hf, hk⟩ := hl
  simp [submit, sendActionCmd, hw, hp, ha, hb, hf, hk]

theorem sendActionCmd_unlisted (hp : s.p2p = true) (vif : Nat) (id freq wait : UInt32)
    (data : Bytes) (env : Env) (hl : ¬ Listed wait data env) :
    ∃ ret sent freed, sendActionCmd s vif id freq wait data env =
        ({ s with sent := s.sent ++ sent, freed := s.freed ++ freed }, ret) ∧
      (ret ≠ 0 ∨ isAction data = false) ∧
      (sent = [] ∨ sent = [s.subs.length]) ∧ (freed = [] ∨ freed = [s.subs.length]) := by
  by_cases hw : wait = 0
  · cases ha : isAction data with
    | true =>
      by_cases hb : env.buf = true ∧ env.frame = true
      · have hk : env.skb = false := by
          cases hk : env.skb with
          | false => rfl
          | true => exact absurd ⟨hw, ha, hb.1, hb.2, hk⟩ hl
        refine ⟨enomem, [], [s.subs.length], ?_, .inl (by decide), .inl rfl, .inr rfl⟩
        simp [sendActionCmd, hw, hp, ha, hb.1, hb.2, hk, newFrame]
      · refine ⟨enomem, [], [], ?_, .inl (by decide), .inl rfl, .inl rfl⟩
        cases hbuf : env.buf with
        | false =>
          rw [sendActionCmd, if_neg (not_not_intro hw), if_pos ⟨hp, ha⟩]
          simp [hbuf]
        | true =>
          have hframe : env.frame = false := by
            cases hframe : env.frame with
            | false => rfl
            | true => exact absurd ⟨hbuf, hframe⟩ hb
          rw [sendActionCmd, if_neg (not_not_intro hw), if_pos ⟨hp, ha⟩]
          simp [hframe]
    | false =>
      cases hk : env.skb with
      | false =>
        refine ⟨enomem, [], [], ?_, .inr rfl, .inl rfl, .inl rfl⟩
        simp [sendActionCmd, hw, ha, hk]
      | true =>
        refine ⟨env.send, [s.subs.length], [], ?_, .inr rfl, .inr rfl, .inl rfl⟩
        simp [sendActionCmd, hw, ha, hk]
  · refine ⟨einval, [], [], ?_, .inl (by decide), .inl rfl, .inl rfl⟩
    simp [sendActionCmd, hw]

theorem submit_unlisted (h : Books s L) (vif : Nat) (id freq wait : UInt32) (data : Bytes)
    (env : Env) (hl : ¬ Listed wait data env) :
    Books (submit s vif id freq wait data env) L ∧
    (submit s vif id freq wait data env).mgmtTxFrameList = s.mgmtTxFrameList := by
  obtain ⟨ret, sent, freed, hcmd, hret, hsent, hfreed⟩ :=
    sendActionCmd_unlisted h.p2p vif id freq wait data env hl
  have hx : ∀ v, ({ vif := vif, action := isAction data, ret := ret } : Submission) ≠ onVif v := by
    intro v he
    cases hret with
    | inl hret => exact hret (congrArg Submission.ret he)
    | inr ha =>
      have ht : isAction data = true := congrArg Submission.action he
      rw [ht] at ha
      cases ha
  have hb := h.submit hx sent freed ?_ ?_
  · rw [submit, hcmd]
    exact ⟨hb, rfl⟩
  · intro n
    cases hsent with
    | inl h0 => simp [h0]
    | inr h1 =>
      rw [h1, count_singleton]
      by_cases hn : n = s.subs.length
      · simp [hn]
      · simp [hn, Ne.symm hn]
  · intro n hn
    cases hfreed with
    | inl h0 => simp [h0] at hn
    | inr h1 => simpa [h1] using hn

theorem found_perm {list : List Frame} {id : UInt32} {f : Frame}
    (h : list.find? (fun f => f.idx = id) = some f) :
    list ~ f::list.eraseP fun f => f.idx = id := by
  obtain ⟨hid, before, after, hlist, hnot⟩ := find?_eq_some_iff_append.mp h
  have herase : list.eraseP (fun f => f.idx = id) = before ++ after := by
    rw [hlist, eraseP_append_right _ (by simpa using hnot), eraseP_cons_of_pos (by simpa using hid)]
  rw [herase, hlist]
  exact perm_middle

theorem txStatus_none {vif : Nat} {id : UInt32} {ack : UInt8} {env : Env}
    (hf : s.mgmtTxFrameList.find? (fun f => f.idx = id) = none) :
    txStatusEvent s vif id ack env = s := by
  rw [txStatusEvent, hf]

theorem txStatus_some {vif : Nat} {id : UInt32} {ack : UInt8} {env : Env}
    (hf : s.mgmtTxFrameList.find? (fun f => f.idx = id) = some f) :
    let t := { s with mgmtTxFrameList := s.mgmtTxFrameList.eraseP fun f => f.idx = id }
    let u := { t with
      mgmtTxFrameList := t.mgmtTxFrameList ++ [{ f with retry := f.retry - 1 }]
      sent := t.sent ++ [f.seq] }
    txStatusEvent s vif id ack env =
      if ack = 0 ∧ f.retry ≠ 0 ∧ env.skb = true then
        if env.send = 0 then u else mgmtTxStatus u vif f (ack != 0)
      else mgmtTxStatus t vif f (ack != 0) := by
  dsimp only
  rw [txStatusEvent, hf]
  by_cases hr : ack = 0 ∧ f.retry ≠ 0
  · cases hk : env.skb with
    | false => simp [hr, hk, resendActionCmd, enomem]
    | true => simp [hr, hk, resendActionCmd]
  · have hn : ¬ (ack = 0 ∧ f.retry ≠ 0 ∧ env.skb = true) := fun hc => hr ⟨hc.1, hc.2.1⟩
    simp only [if_neg hr, if_neg hn]

theorem txStatus_books (h : Books s s.mgmtTxFrameList) {vif : Nat} {id : UInt32} {ack : UInt8}
    {env : Env} (hm : Meets s (.txStatus vif id ack env)) :
    Books (txStatusEvent s vif id ack env) (txStatusEvent s vif id ack env).mgmtTxFrameList := by
  cases hf : s.mgmtTxFrameList.find? (fun f => f.idx = id) with
  | none =>
    rw [txStatus_none hf]
    exact h
  | some f =>
    have hmeets := hm f hf
    have hhand := (h.perm (found_perm hf)).held (s.mgmtTxFrameList.eraseP fun f => f.idx = id)
    rw [txStatus_some hf]
    split at hmeets
    next hc =>
      rw [if_pos hc, if_pos hmeets]
      have hagain := (hhand.resend hc.2.1).held
        (s.mgmtTxFrameList.eraseP (fun f => f.idx = id) ++ [{ f with retry := f.retry - 1 }])
      exact hagain.perm (perm_append_singleton _ _).symm
    next hc =>
      rw [if_neg hc, ← hmeets]
      exact hhand.report _

theorem txStatus_meets (h : Books s s.mgmtTxFrameList) {vif : Nat} {id : UInt32} {ack : UInt8}
    {env : Env} (hc : Consistent (txStatusEvent s vif id ack env)) :
    Meets s (.txStatus vif id ack env) := by
  intro f hf
  rw [txStatus_some hf] at hc
  have hmem : f∈s.mgmtTxFrameList := mem_of_find?_eq_some hf
  split
  next hcond =>
    rw [if_pos hcond] at hc
    by_cases hsend : env.send = 0
    · exact hsend
    · rw [if_neg hsend] at hc
      have halive := hc.alive { f with retry := f.retry - 1 } (by simp [mgmtTxStatus])
      exact absurd (by simp [mgmtTxStatus]) halive
  next hcond =>
    rw [if_neg hcond] at hc
    obtain ⟨x, hx, hv⟩ := hc.owner
      { seq := f.seq, ndev := vif, cookie := f.idx, data := f.data, ack := ack != 0 }
      (by simp [mgmtTxStatus])
    have hacc : s.subs[f.seq]? = some x := hx
    rw [h.accepted f hmem] at hacc
    cases hacc
    exact hv

theorem submit_books (h : Books s s.mgmtTxFrameList) {vif : Nat} {id freq wait : UInt32}
    {data : Bytes} {env : Env} (hm : Meets s (.sendAction vif id freq wait data env)) :
    Books (submit s vif id freq wait data env)
      (submit s vif id freq wait data env).mgmtTxFrameList := by
  by_cases hl : Listed wait data env
  · rw [submit_listed h.p2p vif id freq wait data env hl, hm hl]
    have hacc := h.accept (f := newFrame s vif id freq data) rfl (newFrame_retry s vif id freq data)
    have hheld := hacc.held (s.mgmtTxFrameList ++ [newFrame s vif id freq data])
    exact hheld.perm (perm_append_singleton _ _).symm
  · obtain ⟨hb, hlist⟩ := submit_unlisted h vif id freq wait data env hl
    rw [hlist]
    exact hb

theorem submit_meets (h : Books s s.mgmtTxFrameList) {vif : Nat} {id freq wait : UInt32}
    {data : Bytes} {env : Env} (hc : Consistent (submit s vif id freq wait data env)) :
    Meets s (.sendAction vif id freq wait data env) := by
  intro hl
  rw [submit_listed h.p2p vif id freq wait data env hl] at hc
  by_cases hsend : env.send = 0
  · exact hsend
  · have hnot := (hc.refused s.subs.length { vif := vif, action := true, ret := env.send }
      (by simp) hsend).1
    exact absurd (by simp [newFrame]) hnot

theorem flushFrames_books (h : Books s s.mgmtTxFrameList) (vif : Nat) :
    Books (flushFrames s vif) (flushFrames s vif).mgmtTxFrameList := by
  have hperm : s.mgmtTxFrameList ~ (s.mgmtTxFrameList.filter fun f => f.vif = vif) ++
      s.mgmtTxFrameList.filter fun f => f.vif ≠ vif := by
    have hfilter := filter_append_perm (fun f : Frame => decide (f.vif = vif)) s.mgmtTxFrameList
    simpa using hfilter.symm
  have hhand := (h.perm hperm).held (s.mgmtTxFrameList.filter fun f => f.vif ≠ vif)
  have hflush := hhand.flush (v := vif) fun f hf => by simpa using (mem_filter.mp hf).2
  rw [flushFrames, flush_list]
  exact hflush

theorem Books.not_dangling (h : Books s s.mgmtTxFrameList) : s.dangling = false := by
  rw [Wmi.dangling, any_eq_false]
  intro f hf
  simpa using h.alive f hf

theorem step_books (h : Books s s.mgmtTxFrameList) {e : Event} (hm : Meets s e) :
    Books (step s e) (step s e).mgmtTxFrameList := by
  simp only [step, h.not_dangling, Bool.false_eq_true, if_false]
  cases e with
  | sendAction vif id freq wait data env => exact submit_books h hm
  | txStatus vif id ackStatus env => exact txStatus_books h hm
  | channelClosed vif => exact flushFrames_books h vif

theorem step_meets (h : Books s s.mgmtTxFrameList) {e : Event} (hc : Consistent (step s e)) :
    Meets s e := by
  simp only [step, h.not_dangling, Bool.false_eq_true, if_false] at hc
  cases e with
  | sendAction vif id freq wait data env => exact submit_meets h hc
  | txStatus vif id ackStatus env => exact txStatus_meets h hc
  | channelClosed vif => trivial

/-- Nothing was submitted yet, with p2p enabled. -/
def fresh (p2pFrameRetry : Bool) : Wmi where
  p2p := true
  p2pFrameRetry := p2pFrameRetry

theorem fresh_books (p2pFrameRetry : Bool) : Books (fresh p2pFrameRetry) [] where
  p2p := rfl
  nodup := nodup_nil
  accepted := nofun
  unreported := nofun
  alive := nofun
  budget := nofun
  complete := nofun
  once := nodup_nil
  owner := nofun
  sends _ := Nat.zero_le _
  past _ _ := ⟨not_mem_nil, not_mem_nil⟩

theorem mgmt_tx_reported (p2pFrameRetry : Bool) (es : List Event) :
    (∀ u, u <+: es → Consistent (run step (fresh p2pFrameRetry) u)) ↔
    AllSteps step Meets (fresh p2pFrameRetry) es := by
  apply prefix_iff_allSteps (I := fun s : Wmi => Books s s.mgmtTxFrameList)
    fun _ hs => hs.consistent
  · intro s e hs hm
    exact step_books hs hm
  · intro s e hs hc
    exact step_meets hs hc
  · exact fresh_books p2pFrameRetry

/-- Two interfaces number their frames alike, and the second status comes first. -/
theorem mgmt_tx_misreported :
    ¬ Consistent (run step (fresh false)
      [.sendAction 0 1 2412 0 [0xd0] {}, .sendAction 1 1 2412 0 [0xd0] {},
        .txStatus 1 1 1 {}]) := by
  intro h
  obtain ⟨x, hx, hv⟩ := h.owner
    { seq := 0, ndev := 1, cookie := 1, data := [0xd0], ack := true } (by decide)
  have hsub : some { vif := 0, action := true, ret := 0 } = some x := hx
  cases hsub
  cases hv

end Ath6kl.MgmtTx
