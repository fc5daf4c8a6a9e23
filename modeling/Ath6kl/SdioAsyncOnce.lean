import Ath6kl.Lib.Custody
import Ath6kl.SdioAsync

/-! Every accepted bus request is executed with its own arguments or cancelled, and completed
once, in the order of acceptance, as long as no plain write draws a bus request that
`ath6kl_sdio_cleanup_scatter` has freed. -/
namespace Ath6kl.SdioAsync
open Lib.Machine Lib.Custody
open scoped List
open Sdio (ScatArgs Alloc nextOf)
variable {s s' : Sdio} {b : ReqIdx} {id : ScatId}

/-- The bus request in the hands of the worker. -/
def Worker.req : Worker → List ReqIdx
  | .exec b _ => [b]
  | .ran b _ _ => [b]
  | _ => []

def Worker.next : Worker → Option ReqIdx
  | .exec _ next => next
  | .ran _ _ next => next
  | .freed _ _ next => next
  | .back next => next
  | _ => none

def tokenOf (s : Sdio) (b : ReqIdx) : Token :=
  match (s.busReq b).scatReq with
  | none => .packet (s.busReq b).packet
  | some id => .scatter id

def itemOf (s : Sdio) (b : ReqIdx) : Option Item :=
  match (s.busReq b).scatReq with
  | none => some (.write (s.busReq b).address (s.busReq b).buffer (s.busReq b).length
      (s.busReq b).request (s.busReq b).packet)
  | some id => (s.scat id).map (.scatter id)

def waiting (s : Sdio) : List ReqIdx :=
  match s.worker with
  | .exec b _ => b::s.wrAsyncq
  | _ => s.wrAsyncq

def unreported (s : Sdio) : List Token :=
  match s.worker with
  | .ran b _ _ => [tokenOf s b]
  | .freed packet _ _ => [.packet packet]
  | _ => []

def reqsOf (s : Sdio) (ids : List ScatId) : List ReqIdx :=
  ids.filterMap fun id => (s.scat id).map ScatReq.busrequest

/-- Executed with its own arguments, or cancelled. -/
def Ran (i : Item) (x : Option Transfer) : Prop := x = some i.transfer ∨ x = none

/-- The accepted requests: those gone have been executed or cancelled and each completion has
been called once, but for the one under way; those left wait in their order. -/
structure Split (s : Sdio) (gone left : List Item) : Prop where
  accepted : s.accepted = gone ++ left
  executed : List.Forall₂ Ran gone s.executed
  completed : s.completed.map Prod.fst ++ unreported s = gone.map Item.token
  queued : (waiting s).map (itemOf s) = left.map some

/-- A live scatter request and its bus request point to each other. -/
def Live (s : Sdio) (id : ScatId) : Prop :=
  ∃ r, s.scat id = some r ∧ (s.busReq r.busrequest).scatReq = some id

/-- `served`: the worker is on the queue or will be started. `places`: a bus request is free,
queued, in the hands of the worker, or that of one live scatter request. `drawn`: no plain
write got a bus request that refers to a scatter request. -/
structure Consistent (s : Sdio) : Prop where
  inOrder : ∃ gone left, Split s gone left
  served : s.wrAsyncq ≠ [] → s.workQueued = true ∨ s.worker.next ≠ none
  places : s.busReqFreeq ++ s.wrAsyncq ++ s.worker.req ++ reqsOf s (s.scatReq ++ s.held) ~
    List.finRange 64
  live : ∀ id∈s.scatReq ++ s.held, Live s id
  drawn : ∀ x∈s.drawn, x = none

/-- No plain write draws a bus request that `ath6kl_sdio_cleanup_scatter` was the last to
free. -/
def Meets (s : Sdio) : Event → Prop
  | .writeAsync _ _ _ _ _ => ∀ b, s.busReqFreeq.head? = some b → s.cleanupFreed b = false
  | _ => True

structure Books (s : Sdio) : Prop where
  inOrder : ∃ gone left, Split s gone left
  served : s.wrAsyncq ≠ [] → s.workQueued = true ∨ s.worker.next ≠ none
  next : ∀ n, s.worker.next = some n → s.wrAsyncq.head? = some n
  drawn : ∀ x∈s.drawn, x = none
  sound : s.worker ≠ .fault

/-- Where the bus requests are. `back`: a scatter request on its way has not been freed. -/
structure Places (s : Sdio) : Prop where
  places : s.busReqFreeq ++ s.wrAsyncq ++ s.worker.req ++ reqsOf s (s.scatReq ++ s.held) ~
    List.finRange 64
  live : ∀ id∈s.scatReq ++ s.held, Live s id
  nodup : (s.scatReq ++ s.held).Nodup
  back : ∀ b∈s.wrAsyncq ++ s.worker.req, ∀ id, (s.busReq b).scatReq = some id →
    ∃ r, s.scat id = some r ∧ r.busrequest = b ∧ has r.req hifAsynchronous = true
  free : ∀ b∈s.busReqFreeq, ((s.busReq b).scatReq ≠ none ↔ s.cleanupFreed b = true)
  fresh : ∀ id, s.fresh ≤ id → s.scat id = none

structure Sound (s : Sdio) : Prop extends Books s, Places s

theorem Sound.consistent (h : Sound s) : Consistent s :=
  ⟨h.inOrder, h.served, h.places, h.live, h.drawn⟩

/-! What leaves the queue alone. -/

theorem itemOf_congr (hb : s'.busReq b = s.busReq b)
    (hs : ∀ id, (s.busReq b).scatReq = some id → s'.scat id = s.scat id) :
    itemOf s' b = itemOf s b := by
  cases hid : (s.busReq b).scatReq with
  | none => simp only [itemOf, hb, hid]
  | some id => simp only [itemOf, hb, hid, hs id hid]

/-- The queue, the worker and what they refer to stay as they are. -/
structure SameWork (s s' : Sdio) : Prop where
  wrAsyncq : s'.wrAsyncq = s.wrAsyncq
  workQueued : s'.workQueued = s.workQueued
  worker : s'.worker = s.worker
  accepted : s'.accepted = s.accepted
  executed : s'.executed = s.executed
  completed : s'.completed = s.completed
  drawn : s'.drawn = s.drawn
  busReq : ∀ b∈s.wrAsyncq ++ s.worker.req, s'.busReq b = s.busReq b
  scat : ∀ b∈s.wrAsyncq ++ s.worker.req, ∀ id, (s.busReq b).scatReq = some id →
    s'.scat id = s.scat id

theorem mem_waiting (h : b∈waiting s) : b∈s.wrAsyncq ++ s.worker.req := by
  unfold waiting at h
  split at h
  · next hw =>
    rw [hw]
    simpa [Worker.req, or_comm] using h
  · exact List.mem_append_left _ h

theorem SameWork.waiting (h : SameWork s s') : waiting s' = waiting s := by
  unfold SdioAsync.waiting
  rw [h.worker, h.wrAsyncq]

theorem SameWork.itemOf (h : SameWork s s') (hb : b∈s.wrAsyncq ++ s.worker.req) :
    itemOf s' b = itemOf s b := itemOf_congr (h.busReq b hb) (h.scat b hb)

theorem SameWork.unreported (h : SameWork s s') : unreported s' = unreported s := by
  unfold SdioAsync.unreported
  rw [h.worker]
  split
  · next b _ _ hw =>
    have hb : b∈s.wrAsyncq ++ s.worker.req := by simp [hw, Worker.req]
    unfold tokenOf
    rw [h.busReq b hb]
  · rfl
  · rfl

theorem Books.same (h : Books s) (k : SameWork s s') : Books s' where
  inOrder := by
    obtain ⟨gone, left, hs⟩ := h.inOrder
    refine ⟨gone, left, k.accepted.trans hs.accepted, ?_, ?_, ?_⟩
    · rw [k.executed]
      exact hs.executed
    · rw [k.completed, k.unreported]
      exact hs.completed
    · rw [k.waiting, ← hs.queued]
      exact List.map_congr_left fun b hb => k.itemOf (mem_waiting hb)
  served := by
    rw [k.wrAsyncq, k.workQueued, k.worker]
    exact h.served
  next := by
    rw [k.wrAsyncq, k.worker]
    exact h.next
  drawn := by
    rw [k.drawn]
    exact h.drawn
  sound := by
    rw [k.worker]
    exact h.sound

/-! One bus request is in one place. -/

theorem mem_reqsOf {ids : List ScatId} {r : ScatReq} (hid : id∈ids) (hr : s.scat id = some r) :
    r.busrequest∈reqsOf s ids :=
  List.mem_filterMap.mpr ⟨id, hid, by rw [hr, Option.map_some]⟩

theorem reqsOf_perm {ids us : List ScatId} (hp : ids ~ id::us) (hr : s.scat id = some r) :
    reqsOf s ids ~ r.busrequest :: reqsOf s us := by
  have h := hp.filterMap fun x => (s.scat x).map ScatReq.busrequest
  rw [List.filterMap_cons, hr, Option.map_some] at h
  exact h

theorem Places.moved (h : Places s)
    (hc : ∀ a, s'.busReqFreeq.count a + s'.wrAsyncq.count a + s'.worker.req.count a +
        (reqsOf s' (s'.scatReq ++ s'.held)).count a =
      s.busReqFreeq.count a + s.wrAsyncq.count a + s.worker.req.count a +
        (reqsOf s (s.scatReq ++ s.held)).count a) :
    s'.busReqFreeq ++ s'.wrAsyncq ++ s'.worker.req ++ reqsOf s' (s'.scatReq ++ s'.held) ~
      List.finRange 64 := by
  refine (List.perm_iff_count.mpr fun a => ?_).trans h.places
  simp only [List.count_append]
  exact hc a

theorem reqsOf_congr {ids : List ScatId} (h : ∀ id∈ids, s'.scat id = s.scat id) :
    reqsOf s' ids = reqsOf s ids :=
  List.filterMap_congr fun id hid => by rw [h id hid]

theorem Places.all_nodup (h : Places s) :
    (s.busReqFreeq ++ s.wrAsyncq ++ s.worker.req ++ reqsOf s (s.scatReq ++ s.held)).Nodup :=
  h.places.nodup_iff.mpr (List.nodup_finRange 64)

theorem Places.not_pooled (h : Places s) (hb : b∈s.wrAsyncq ++ s.worker.req)
    (hid : (s.busReq b).scatReq = some id) : id∉s.scatReq ++ s.held := by
  intro hmem
  obtain ⟨r, hr, hrb, -⟩ := h.back b hb id hid
  have hd := (List.nodup_append.mp h.all_nodup).2.2
  refine hd b ?_ b (hrb ▸ mem_reqsOf hmem hr) rfl
  rw [List.append_assoc]
  exact List.mem_append_right _ hb

theorem Places.free_apart (h : Places s) (hb : b∈s.busReqFreeq) :
    b∉s.wrAsyncq ++ s.worker.req ∧ b∉reqsOf s (s.scatReq ++ s.held) := by
  have hn := h.all_nodup
  rw [List.append_assoc s.busReqFreeq, List.append_assoc] at hn
  have hd := (List.nodup_append.mp hn).2.2 b hb
  exact ⟨fun hx => hd b (List.mem_append_left _ hx) rfl,
    fun hx => hd b (List.mem_append_right _ hx) rfl⟩

/-! Acceptance. -/

theorem Books.accept (h : Books s) {i : Item} (hw : s'.worker = s.worker)
    (hq : s'.wrAsyncq = s.wrAsyncq ++ [b]) (hk : s'.workQueued = true)
    (ha : s'.accepted = s.accepted ++ [i]) (he : s'.executed = s.executed)
    (hc : s'.completed = s.completed) (hd : ∀ x∈s'.drawn, x = none)
    (hold : ∀ c∈s.wrAsyncq ++ s.worker.req, itemOf s' c = itemOf s c ∧ tokenOf s' c = tokenOf s c)
    (hnew : itemOf s' b = some i) : Books s' where
  inOrder := by
    obtain ⟨gone, left, hs⟩ := h.inOrder
    have hwait : waiting s' = waiting s ++ [b] := by
      unfold waiting
      rw [hw, hq]
      split <;> simp
    have hunrep : unreported s' = unreported s := by
      unfold unreported
      rw [hw]
      split
      · next c _ _ hran => rw [(hold c (by simp [hran, Worker.req])).2]
      · rfl
      · rfl
    refine ⟨gone, left ++ [i], ?_, ?_, ?_, ?_⟩
    · rw [ha, hs.accepted, List.append_assoc]
    · rw [he]
      exact hs.executed
    · rw [hc, hunrep]
      exact hs.completed
    · rw [hwait, List.map_append, List.map_append, ← hs.queued, List.map_singleton,
        List.map_singleton, hnew]
      congr 1
      exact List.map_congr_left fun c hc => (hold c (mem_waiting hc)).1
  served _ := Or.inl hk
  next n hn := by
    rw [hw] at hn
    rw [hq, List.head?_append, h.next n hn]
    rfl
  drawn := hd
  sound := hw ▸ h.sound

theorem tokenOf_congr (hb : s'.busReq b = s.busReq b) : tokenOf s' b = tokenOf s b := by
  unfold tokenOf
  rw [hb]

theorem Sound.writeAsync (h : Sound s) {address length request : UInt32} {buffer packet : Nat}
    (hm : ∀ b, s.busReqFreeq.head? = some b → s.cleanupFreed b = false) :
    Sound (s.writeAsync address buffer length request packet) := by
  unfold Sdio.writeAsync Sdio.allocBusreq
  cases hf : s.busReqFreeq with
  | nil => exact h
  | cons b rest =>
    have hb : b∈s.busReqFreeq := by simp [hf]
    have hclean : (s.busReq b).scatReq = none := by
      by_contra hne
      have hc := (h.free b hb).mp hne
      rw [hm b (by simp [hf])] at hc
      cases hc
    obtain ⟨hway, hbound⟩ := h.free_apart hb
    have hother : ∀ c, c ≠ b → Function.update s.busReq b { s.busReq b with
        address := address, buffer := buffer, length := length, request := request
        packet := packet } c = s.busReq c := fun c hc => Function.update_of_ne hc _ _
    have hself : ∀ c, (Function.update s.busReq b { s.busReq b with
        address := address, buffer := buffer, length := length, request := request
        packet := packet } c).scatReq = (s.busReq c).scatReq := by
      intro c
      by_cases hc : c = b
      · rw [hc, Function.update_self]
      · rw [hother c hc]
    refine ⟨h.accept (b := b) (i := .write address buffer length request packet) rfl rfl rfl rfl
      rfl rfl ?_ ?_ ?_, ?_, ?_, ?_, ?_, ?_, ?_⟩
    · intro x hx
      rcases List.mem_append.mp hx with hx | hx
      · exact h.drawn x hx
      · rw [List.mem_singleton.mp hx]
        exact hclean
    · intro c hc
      have hcb : c ≠ b := fun he => hway (he ▸ hc)
      exact ⟨itemOf_congr (hother c hcb) fun _ _ => rfl, tokenOf_congr (hother c hcb)⟩
    · simp only [itemOf, Sdio.setBusReq, Function.update_self, hclean]
    · refine h.moved fun a => ?_
      rw [hf]
      simp only [Sdio.setBusReq, List.count_append, List.count_cons, List.count_nil, reqsOf]
      omega
    · intro id hid
      obtain ⟨r, hr, hrid⟩ := h.live id hid
      exact ⟨r, hr, (hself _).trans hrid⟩
    · exact h.nodup
    · intro c hc id hid
      have hid' : (s.busReq c).scatReq = some id := (hself c).symm.trans hid
      have hc' : c∈s.wrAsyncq ++ s.worker.req ∨ c = b := by
        simp only [Sdio.setBusReq, List.mem_append, List.mem_singleton] at hc ⊢
        tauto
      rcases hc' with hc' | rfl
      · exact h.back c hc' id hid'
      · rw [hclean] at hid'
        cases hid'
    · intro c hc
      have hfree := h.free c (by rw [hf]; exact List.mem_cons_of_mem _ hc)
      rw [← hself c] at hfree
      exact hfree
    · exact h.fresh

/-! Writing into a scatter request that stays with its bus request. -/

section SetScat
variable {r r' : ScatReq}

theorem reqsOf_setScat (hr : s.scat id = some r) (hb : r'.busrequest = r.busrequest)
    (ids : List ScatId) : reqsOf (s.setScat id (some r')) ids = reqsOf s ids := by
  refine List.filterMap_congr fun x _ => ?_
  by_cases hx : x = id
  · rw [hx, s.setScat_self, hr, Option.map_some, Option.map_some, hb]
  · rw [s.setScat_ne hx]

theorem Live.setScat {x : ScatId} (h : Live s x) (hr : s.scat id = some r)
    (hb : r'.busrequest = r.busrequest) : Live (s.setScat id (some r')) x := by
  obtain ⟨q, hq, hqx⟩ := h
  by_cases hx : x = id
  · subst hx
    cases hr.symm.trans hq
    exact ⟨r', s.setScat_self .., by rw [hb]; exact hqx⟩
  · exact ⟨q, (s.setScat_ne hx _).trans hq, hqx⟩

theorem Places.setScat_fresh (h : Places s) (hr : s.scat id = some r) {x : ScatId}
    (hx : s.fresh ≤ x) : (s.setScat id (some r')).scat x = none := by
  have hne : x ≠ id := by
    rintro rfl
    rw [h.fresh x hx] at hr
    cases hr
  rw [s.setScat_ne hne]
  exact h.fresh x hx

end SetScat

theorem Sound.asyncRwScatter (h : Sound s) (i : Nat) (a : ScatArgs) :
    Sound (s.asyncRwScatter i a) := by
  unfold Sdio.asyncRwScatter
  cases hi : s.held[i]? with
  | none => exact h
  | some id =>
    have hmem : id∈s.scatReq ++ s.held :=
      List.mem_append_right _ (List.mem_of_getElem? hi)
    obtain ⟨r, hr, hrid⟩ := h.live id hmem
    simp only [hr]
    generalize hr' : ({ r with addr := a.addr, req := a.req, len := a.len, list := a.list } :
      ScatReq) = r'
    have hbus : r'.busrequest = r.busrequest := by rw [← hr']
    have hasync : has r'.req hifAsynchronous = true := by
      rw [← hr']
      exact a.async
    -- nothing on its way refers to this request
    have haway : ∀ c∈s.wrAsyncq ++ s.worker.req, ∀ x, (s.busReq c).scatReq = some x → x ≠ id := by
      rintro c hc x hx rfl
      exact h.not_pooled hc hx hmem
    have hscat : ∀ c∈s.wrAsyncq ++ s.worker.req, ∀ x, (s.busReq c).scatReq = some x →
        (s.setScat id (some r')).scat x = s.scat x :=
      fun c hc x hx => s.setScat_ne (haway c hc x hx) _
    have hreqs := reqsOf_setScat hr hbus
    have hlive : ∀ x∈s.scatReq ++ s.held, Live (s.setScat id (some r')) x :=
      fun x hx => (h.live x hx).setScat hr hbus
    have hfresh : ∀ x, s.fresh ≤ x → (s.setScat id (some r')).scat x = none :=
      fun x hx => h.setScat_fresh hr hx
    have hback : ∀ c∈s.wrAsyncq ++ s.worker.req, ∀ x, (s.busReq c).scatReq = some x →
        ∃ q, (s.setScat id (some r')).scat x = some q ∧ q.busrequest = c ∧
          has q.req hifAsynchronous = true := by
      intro c hc x hx
      rw [hscat c hc x hx]
      exact h.back c hc x hx
    split
    · -- -EINVAL: the caller keeps the request
      refine ⟨h.toBooks.same ⟨rfl, rfl, rfl, rfl, rfl, rfl, rfl, fun _ _ => rfl, hscat⟩, ?_, hlive,
        h.nodup, hback, h.free, hfresh⟩
      exact (hreqs _).symm ▸ h.places
    · have hids : s.scatReq ++ s.held ~ id :: (s.scatReq ++ s.held.eraseIdx i) :=
        ((perm_cons_eraseIdx hi).append_left s.scatReq).trans List.perm_middle
      have hsub : ∀ x∈s.scatReq ++ s.held.eraseIdx i, x∈s.scatReq ++ s.held := fun x hx =>
        ((List.eraseIdx_sublist _ _).append_left _).subset hx
      refine ⟨h.accept (b := r.busrequest) (i := .scatter id r') rfl rfl rfl rfl rfl rfl
        h.drawn (fun c hc => ⟨itemOf_congr rfl (hscat c hc), rfl⟩) ?_, ?_,
        fun x hx => hlive x (hsub x hx), ?_, ?_, h.free, hfresh⟩
      · have hself := s.setScat_self id (some r')
        simp only [itemOf, hself, show ((s.setScat id (some r')).busReq r.busrequest).scatReq =
          some id from hrid, Option.map_some]
      · refine h.moved fun c => ?_
        have hc := (reqsOf_perm hids hr).count_eq c
        have heq := hreqs (s.scatReq ++ s.held.eraseIdx i)
        rw [List.count_cons] at hc
        simp only [reqsOf, Sdio.setScat, List.count_append, List.count_cons, List.count_nil] at heq hc ⊢
        rw [heq]
        omega
      · exact (List.nodup_cons.mp (hids.nodup_iff.mp h.nodup)).2
      · intro c hc x hx
        have hc' : c∈s.wrAsyncq ++ s.worker.req ∨ c = r.busrequest := by
          simp only [Sdio.setScat, List.mem_append, List.mem_singleton] at hc ⊢
          tauto
        rcases hc' with hc' | rfl
        · exact hback c hc' x hx
        · cases hrid.symm.trans hx
          exact ⟨r', s.setScat_self .., hbus, hasync⟩

/-! A bus request changes hands. -/

/-- The fields that say what bus and scatter requests refer to. -/
structure SameLinks (s s' : Sdio) : Prop where
  busReq : s'.busReq = s.busReq
  scat : s'.scat = s.scat
  fresh : s'.fresh = s.fresh

theorem SameLinks.reqsOf (k : SameLinks s s') (ids : List ScatId) : reqsOf s' ids = reqsOf s ids :=
  reqsOf_congr fun id _ => by rw [k.scat]

theorem SameLinks.live (k : SameLinks s s') (h : Live s id) : Live s' id := by
  unfold Live
  rw [k.scat, k.busReq]
  exact h

theorem Places.move (h : Places s) (k : SameLinks s s') (hf : s'.busReqFreeq = s.busReqFreeq)
    (hc : s'.cleanupFreed = s.cleanupFreed)
    (hw : s'.wrAsyncq ++ s'.worker.req ~ s.wrAsyncq ++ s.worker.req)
    (hp : s'.scatReq ++ s'.held ~ s.scatReq ++ s.held) : Places s' where
  places := by
    refine List.Perm.trans ?_ h.places
    rw [hf, k.reqsOf, List.append_assoc s.busReqFreeq s'.wrAsyncq,
      List.append_assoc s.busReqFreeq s.wrAsyncq]
    exact (hw.append_left _).append (hp.filterMap _)
  live x hx := k.live (h.live x (hp.mem_iff.mp hx))
  nodup := hp.nodup_iff.mpr h.nodup
  back c hc' x hx := by
    rw [k.busReq] at hx
    rw [k.scat]
    exact h.back c (hw.mem_iff.mp hc') x hx
  free c hcf := by
    rw [k.busReq, hc]
    exact h.free c (hf ▸ hcf)
  fresh x hx := by
    rw [k.scat]
    exact h.fresh x (k.fresh ▸ hx)

theorem Places.toFree (h : Places s) (k : SameLinks s s') (hb : (s.busReq b).scatReq = none)
    (hf : s'.busReqFreeq = s.busReqFreeq ++ [b])
    (hc : s'.cleanupFreed = Function.update s.cleanupFreed b false)
    (hw : s.wrAsyncq ++ s.worker.req ~ b :: (s'.wrAsyncq ++ s'.worker.req))
    (hp : s'.scatReq ++ s'.held = s.scatReq ++ s.held) : Places s' where
  places := by
    refine h.moved fun a => ?_
    have ha := hw.count_eq a
    rw [hf, hp, k.reqsOf]
    simp only [List.count_append, List.count_cons, List.count_nil] at ha ⊢
    omega
  live x hx := k.live (h.live x (hp ▸ hx))
  nodup := hp ▸ h.nodup
  back c hc' x hx := by
    rw [k.busReq] at hx
    rw [k.scat]
    exact h.back c (hw.mem_iff.mpr (List.mem_cons_of_mem _ hc')) x hx
  free c hcf := by
    rw [k.busReq, hc]
    by_cases hcb : c = b
    · rw [hcb, Function.update_self, hb]
      simp
    · rw [Function.update_of_ne hcb]
      rw [hf] at hcf
      refine h.free c ?_
      simpa [hcb] using hcf
  fresh x hx := by
    rw [k.scat]
    exact h.fresh x (k.fresh ▸ hx)

theorem Places.toPool (h : Places s) (k : SameLinks s s') (hb : (s.busReq b).scatReq = some id)
    (hf : s'.busReqFreeq = s.busReqFreeq) (hc : s'.cleanupFreed = s.cleanupFreed)
    (hw : s.wrAsyncq ++ s.worker.req ~ b :: (s'.wrAsyncq ++ s'.worker.req))
    (hp : s'.scatReq ++ s'.held ~ id :: (s.scatReq ++ s.held)) : Places s' := by
  have hbw : b∈s.wrAsyncq ++ s.worker.req := hw.mem_iff.mpr List.mem_cons_self
  obtain ⟨r, hr, hrb, -⟩ := h.back b hbw id hb
  refine ⟨?_, fun x hx => ?_, ?_, fun c hc' x hx => ?_, fun c hcf => ?_, fun x hx => ?_⟩
  · refine h.moved fun a => ?_
    have hq := hw.count_eq a
    have hids := (reqsOf_perm hp hr).count_eq a
    rw [hrb, List.count_cons] at hids
    rw [hf, k.reqsOf, hids]
    simp only [List.count_append, List.count_cons] at hq ⊢
    omega
  · rcases List.mem_cons.mp (hp.mem_iff.mp hx) with rfl | hx
    · exact k.live ⟨r, hr, by rw [hrb]; exact hb⟩
    · exact k.live (h.live x hx)
  · exact hp.nodup_iff.mpr (List.nodup_cons.mpr ⟨h.not_pooled hbw hb, h.nodup⟩)
  · rw [k.busReq] at hx
    rw [k.scat]
    exact h.back c (hw.mem_iff.mpr (List.mem_cons_of_mem _ hc')) x hx
  · rw [k.busReq, hc]
    exact h.free c (hf ▸ hcf)
  · rw [k.scat]
    exact h.fresh x (k.fresh ▸ hx)

/-! The pool. -/

theorem Sound.reorder (h : Sound s) {pool held : List ScatId}
    (hp : pool ++ held ~ s.scatReq ++ s.held) : Sound { s with scatReq := pool, held := held } :=
  ⟨h.toBooks.same ⟨rfl, rfl, rfl, rfl, rfl, rfl, rfl, fun _ _ => rfl, fun _ _ _ _ => rfl⟩,
    h.toPlaces.move ⟨rfl, rfl, rfl⟩ rfl rfl (List.Perm.refl _) hp⟩

theorem scatterReqAdd_ids (s : Sdio) (id : ScatId) (keep : Bool) :
    (s.scatterReqAdd id keep).scatReq ++ (s.scatterReqAdd id keep).held ~
      id :: (s.scatReq ++ s.held) := by
  unfold Sdio.scatterReqAdd
  cases keep with
  | true =>
    simp only [if_true]
    rw [← List.append_assoc]
    exact List.perm_append_singleton id _
  | false =>
    simp only [Bool.false_eq_true, if_false]
    rw [← List.append_cons]
    exact List.perm_middle

theorem Sound.scatterReqGet (h : Sound s) : Sound s.scatterReqGet := by
  unfold Sdio.scatterReqGet
  cases hp : s.scatReq with
  | nil => exact h
  | cons id rest =>
    refine h.reorder ?_
    rw [hp, ← List.append_assoc]
    exact List.perm_append_singleton id (rest ++ s.held)

theorem Sound.putBack (h : Sound s) (i : Nat) : Sound (s.putBack i) := by
  unfold Sdio.putBack
  cases hi : s.held[i]? with
  | none => exact h
  | some id =>
    refine h.reorder ((scatterReqAdd_ids { s with held := s.held.eraseIdx i } id false).trans ?_)
    exact List.perm_middle.symm.trans ((perm_cons_eraseIdx hi).symm.append_left _)

/-! The worker. -/

/-- Between two entries: the worker leaves, or unlinks the entry `tmp_req` kept for it. -/
theorem Sound.take (h : Sound s) (queued : Bool) (hreq : s.worker.req = [])
    (hun : unreported s = []) (hwait : waiting s = s.wrAsyncq) {pos : Option ReqIdx}
    (hpos : ∀ b, pos = some b → s.wrAsyncq.head? = some b)
    (hend : pos = none → s.wrAsyncq ≠ [] → queued = true) :
    Sound ({ s with workQueued := queued }.take pos) := by
  obtain ⟨gone, left, hs⟩ := h.inOrder
  cases pos with
  | none =>
    refine ⟨⟨⟨gone, left, hs.accepted, hs.executed, ?_, ?_⟩, fun hq => Or.inl (hend rfl hq),
      (fun _ hn => nomatch hn), h.drawn, nofun⟩, ?_⟩
    · have hc := hs.completed
      rw [hun] at hc
      exact hc
    · have hq := hs.queued
      rw [hwait] at hq
      exact hq
    · refine h.toPlaces.move ⟨rfl, rfl, rfl⟩ rfl rfl ?_ (List.Perm.refl _)
      rw [hreq]
      exact List.Perm.refl _
  | some b =>
    have hb := hpos b rfl
    cases hq : s.wrAsyncq with
    | nil =>
      rw [hq] at hb
      cases hb
    | cons c q =>
      rw [hq] at hb
      cases hb
      have herase : (b::q).erase b = q := List.erase_cons_head b q
      have hnext : nextOf (b::q) b = q.head? := by simp [nextOf]
      unfold Sdio.take
      simp only [herase, hnext]
      refine ⟨⟨⟨gone, left, hs.accepted, hs.executed, ?_, ?_⟩, fun hne => Or.inr ?_,
        fun n hn => hn, h.drawn, nofun⟩, ?_⟩
      · have hc := hs.completed
        rw [hun] at hc
        exact hc
      · have hleft := hs.queued
        rw [hwait, hq] at hleft
        exact hleft
      · cases q with
        | nil => exact absurd rfl hne
        | cons d q => exact Option.some_ne_none d
      · refine h.toPlaces.move ⟨rfl, rfl, rfl⟩ rfl rfl ?_ (List.Perm.refl _)
        rw [hreq, hq, List.append_nil]
        exact List.perm_append_singleton b q

theorem Split.head {gone left : List Item} (h : Split s gone left) {next : Option ReqIdx}
    (hw : s.worker = .exec b next) : ∃ i left', left = i::left' ∧ itemOf s b = some i ∧
      s.wrAsyncq.map (itemOf s) = left'.map some := by
  have hq := h.queued
  unfold waiting at hq
  rw [hw] at hq
  cases left with
  | nil => cases hq
  | cons i left' =>
    obtain ⟨hi, hrest⟩ := List.cons.inj hq
    exact ⟨i, left', rfl, hi, hrest⟩

theorem Books.exec (h : Books s) {next : Option ReqIdx} {status : Int} {x : Transfer}
    (hw : s.worker = .exec b next) (hw' : s'.worker = .ran b status next)
    (hq : s'.wrAsyncq = s.wrAsyncq) (hk : s'.workQueued = s.workQueued)
    (ha : s'.accepted = s.accepted) (he : s'.executed = s.executed ++ [some x])
    (hc : s'.completed = s.completed) (hd : s'.drawn = s.drawn)
    (hx : ∀ i, itemOf s b = some i → x = i.transfer)
    (ht : ∀ i, itemOf s b = some i → tokenOf s' b = i.token)
    (hold : ∀ c∈s.wrAsyncq, itemOf s' c = itemOf s c) : Books s' where
  inOrder := by
    obtain ⟨gone, left, hs⟩ := h.inOrder
    obtain ⟨i, left', rfl, hi, hrest⟩ := hs.head hw
    refine ⟨gone ++ [i], left', ?_, ?_, ?_, ?_⟩
    · rw [ha, hs.accepted]
      exact List.append_cons gone i left'
    · rw [he]
      exact List.rel_append hs.executed (.cons (Or.inl (by rw [hx i hi])) .nil)
    · have hdone := hs.completed
      unfold unreported at hdone ⊢
      rw [hw, List.append_nil] at hdone
      rw [hw', hc, hdone, List.map_append]
      simp only [ht i hi, List.map_singleton]
    · unfold waiting
      rw [hw', hq, ← hrest]
      exact List.map_congr_left hold
  served := by
    have hserved := h.served
    rw [hw] at hserved
    rw [hq, hk, hw']
    exact hserved
  next := by
    have hn := h.next
    rw [hw] at hn
    rw [hq, hw']
    exact hn
  drawn := by
    rw [hd]
    exact h.drawn
  sound := by
    rw [hw']
    nofun

theorem Sound.exec (h : Sound s) {next : Option ReqIdx} (hw : s.worker = .exec b next)
    (status : Int) : Sound (s.exec b next status) := by
  unfold Sdio.exec
  dsimp only
  have hbw : b∈s.wrAsyncq ++ s.worker.req := by simp [hw, Worker.req]
  cases hid : (s.busReq b).scatReq with
  | none =>
    have hi : itemOf s b = some (.write (s.busReq b).address (s.busReq b).buffer
        (s.busReq b).length (s.busReq b).request (s.busReq b).packet) := by
      simp only [itemOf, hid]
    refine ⟨h.toBooks.exec hw rfl rfl rfl rfl rfl rfl rfl (fun i hi' => ?_) (fun i hi' => ?_)
      (fun c _ => rfl), h.toPlaces.move ⟨rfl, rfl, rfl⟩ rfl rfl ?_ (List.Perm.refl _)⟩
    · cases hi.symm.trans hi'
      rfl
    · cases hi.symm.trans hi'
      simp only [tokenOf, hid, Item.token]
    · rw [hw]
      exact List.Perm.refl _
  | some id =>
    obtain ⟨r, hr, hrb, hasync⟩ := h.back b hbw id hid
    have hi : itemOf s b = some (.scatter id r) := by simp only [itemOf, hid, hr, Option.map_some]
    have hkeep : (scatRw r).2.busrequest = r.busrequest ∧ (scatRw r).2.req = r.req := by
      unfold scatRw
      split <;> exact ⟨rfl, rfl⟩
    have hreqs := reqsOf_setScat hr hkeep.1
    -- no other bus request refers to this scatter request
    have hne : ∀ c∈s.wrAsyncq, ∀ x, (s.busReq c).scatReq = some x → x ≠ id := by
      rintro c hc x hx rfl
      obtain ⟨q, hq, hqc, -⟩ := h.back c (List.mem_append_left _ hc) x hx
      cases hr.symm.trans hq
      have hd := h.all_nodup
      have hcb := (List.nodup_append.mp (List.nodup_append.mp hd).1).2.2
      refine hcb c (List.mem_append_right _ hc) b ?_ (hqc.symm.trans hrb)
      simp [hw, Worker.req]
    simp only [hr]
    refine ⟨h.toBooks.exec hw rfl rfl rfl rfl rfl rfl rfl (fun i hi' => ?_) (fun i hi' => ?_)
      (fun c hc => itemOf_congr rfl fun x hx => s.setScat_ne (hne c hc x hx) _), ?_, ?_, ?_, ?_, ?_,
      ?_⟩
    · cases hi.symm.trans hi'
      rfl
    · cases hi.symm.trans hi'
      simp only [tokenOf, Sdio.setScat, hid, Item.token]
    · have hp := h.places
      rw [← hreqs, hw] at hp
      exact hp
    · exact fun x hx => (h.live x hx).setScat hr hkeep.1
    · exact h.nodup
    · intro c hc x hx
      by_cases hxid : x = id
      · subst hxid
        have hcb : c = b := by
          by_contra hcb
          have hcq : c∈s.wrAsyncq := by simpa [Sdio.setScat, Worker.req, hcb] using hc
          exact hne c hcq x hx rfl
        subst hcb
        exact ⟨_, s.setScat_self .., hkeep.1.trans hrb, by rw [hkeep.2]; exact hasync⟩
      · obtain ⟨q, hq⟩ := h.back c (by rw [hw]; exact hc) x hx
        exact ⟨q, (s.setScat_ne hxid _).trans hq.1, hq.2⟩
    · exact h.free
    · exact fun x hx => h.setScat_fresh hr hx

theorem Books.report (h : Books s) (hq : s'.wrAsyncq = s.wrAsyncq)
    (hk : s'.workQueued = s.workQueued) (ha : s'.accepted = s.accepted)
    (he : s'.executed = s.executed) (hd : s'.drawn = s.drawn)
    (hn : s'.worker.next = s.worker.next) (hf : s'.worker ≠ .fault)
    (hc : s'.completed.map Prod.fst ++ unreported s' = s.completed.map Prod.fst ++ unreported s)
    (hw : waiting s = s.wrAsyncq) (hw' : waiting s' = s'.wrAsyncq)
    (hold : ∀ c∈s.wrAsyncq, itemOf s' c = itemOf s c) : Books s' where
  inOrder := by
    obtain ⟨gone, left, hs⟩ := h.inOrder
    refine ⟨gone, left, ha.trans hs.accepted, ?_, hc.trans hs.completed, ?_⟩
    · rw [he]
      exact hs.executed
    · rw [hw', hq, ← hs.queued, hw]
      exact List.map_congr_left hold
  served := by
    rw [hq, hk, hn]
    exact h.served
  next := by
    rw [hq, hn]
    exact h.next
  drawn := by
    rw [hd]
    exact h.drawn
  sound := hf

theorem Sound.release (h : Sound s) {next : Option ReqIdx} {status : Int}
    (hw : s.worker = .ran b status next) (keep : Bool) :
    Sound (s.release b next status keep) := by
  have hbw : b∈s.wrAsyncq ++ s.worker.req := by simp [hw, Worker.req]
  have hwait : waiting s = s.wrAsyncq := by simp [waiting, hw]
  have hleave : s.wrAsyncq ++ s.worker.req ~ b :: (s.wrAsyncq ++ []) := by
    rw [hw, List.append_nil]
    exact List.perm_append_singleton b s.wrAsyncq
  unfold Sdio.release
  cases hid : (s.busReq b).scatReq with
  | none =>
    refine ⟨h.report rfl rfl rfl rfl rfl (by rw [hw]; rfl) nofun ?_ hwait rfl fun _ _ => rfl,
      h.toPlaces.toFree ⟨rfl, rfl, rfl⟩ hid rfl rfl hleave rfl⟩
    simp only [unreported, hw, tokenOf, hid, Sdio.freeBusReq]
  | some id =>
    obtain ⟨r, hr, hrb, hasync⟩ := h.back b hbw id hid
    simp only [hr, hasync, if_true]
    have hdone : (s.completed ++ [(Token.scatter id, status)]).map Prod.fst ++ [] =
        s.completed.map Prod.fst ++ unreported s := by
      simp [unreported, hw, tokenOf, hid]
    exact ⟨h.report rfl rfl rfl rfl rfl (by rw [hw]; rfl) nofun hdone hwait rfl fun _ _ => rfl,
      h.toPlaces.toPool ⟨rfl, rfl, rfl⟩ hid rfl rfl hleave (scatterReqAdd_ids s id keep)⟩

theorem Sound.freed (h : Sound s) {packet : Nat} {status : Int} {next : Option ReqIdx}
    (hw : s.worker = .freed packet status next) :
    Sound { s with completed := s.completed ++ [(.packet packet, status)], worker := .back next } := by
  refine ⟨h.report rfl rfl rfl rfl rfl (by rw [hw]; rfl) nofun ?_ (by simp [waiting, hw]) rfl
    fun _ _ => rfl, h.toPlaces.move ⟨rfl, rfl, rfl⟩ rfl rfl ?_ (List.Perm.refl _)⟩
  · simp [unreported, hw]
  · rw [hw]
    exact List.Perm.refl _

theorem Sound.work (h : Sound s) (status : Int) (keep : Bool) : Sound (s.work status keep) := by
  unfold Sdio.work
  split
  · next hw =>
    split
    · refine h.take false (by rw [hw]; rfl) (by simp [unreported, hw]) (by simp [waiting, hw])
        (fun b hb => hb) fun hq hne => ?_
      exact absurd (List.head?_eq_none_iff.mp hq) hne
    · exact h
  · next b next hw => exact h.exec hw status
  · next b status next hw => exact h.release hw keep
  · next packet status next hw => exact h.freed hw
  · next next hw =>
    refine h.take s.workQueued (by rw [hw]; rfl) (by simp [unreported, hw])
      (by simp [waiting, hw]) ?_ ?_
    · intro b hb
      exact h.next b (by rw [hw]; exact hb)
    · rintro rfl hq
      refine (h.served hq).resolve_right ?_
      rw [hw]
      exact fun hne => hne rfl
  · exact h

/-! The stop. -/

/-- The state in the loop of `ath6kl_sdio_stop` with `q` left of the queue. -/
def stopView (s : Sdio) (q : List ReqIdx) : Sdio := { s with wrAsyncq := q, workQueued := true }

theorem Books.cancel (h : Books s) {q : List ReqIdx} (hw : s.worker = .idle)
    (hq : s.wrAsyncq = b::q) (hq' : s'.wrAsyncq = q) (hw' : s'.worker = .idle)
    (hk : s'.workQueued = true) (ha : s'.accepted = s.accepted)
    (he : s'.executed = s.executed ++ [none])
    (hc : s'.completed = s.completed ++ [(tokenOf s b, ecanceled)]) (hd : s'.drawn = s.drawn)
    (hold : ∀ c∈q, itemOf s' c = itemOf s c)
    (ht : ∀ i, itemOf s b = some i → tokenOf s b = i.token) : Books s' where
  inOrder := by
    obtain ⟨gone, left, hs⟩ := h.inOrder
    have hleft := hs.queued
    have hdone := hs.completed
    unfold waiting at hleft
    unfold unreported at hdone
    rw [hw] at hleft hdone
    rw [List.append_nil] at hdone
    dsimp only at hleft
    rw [hq] at hleft
    cases left with
    | nil => cases hleft
    | cons i left =>
      obtain ⟨hi, hrest⟩ := List.cons.inj hleft
      refine ⟨gone ++ [i], left, ?_, ?_, ?_, ?_⟩
      · rw [ha, hs.accepted]
        exact List.append_cons gone i left
      · rw [he]
        exact List.rel_append hs.executed (.cons (Or.inr rfl) .nil)
      · unfold unreported
        rw [hw', hc, List.map_append, hdone, List.map_append, List.append_nil]
        simp only [List.map_singleton, ht i hi]
      · unfold waiting
        rw [hw', hq', ← hrest]
        exact List.map_congr_left hold
  served _ := Or.inl hk
  next n hn := by
    rw [hw'] at hn
    cases hn
  drawn := by
    rw [hd]
    exact h.drawn
  sound := by
    rw [hw']
    nofun

theorem tokenOf_item {i : Item} (h : itemOf s b = some i) : tokenOf s b = i.token := by
  cases hid : (s.busReq b).scatReq with
  | none =>
    simp only [itemOf, hid] at h
    cases h
    simp only [tokenOf, hid, Item.token]
  | some id =>
    simp only [itemOf, hid] at h
    obtain ⟨r, -, rfl⟩ := Option.map_eq_some_iff.mp h
    simp only [tokenOf, hid, Item.token]

theorem Sound.stopOne {q : List ReqIdx} (keep : ScatId → Bool)
    (h : Sound (stopView s (b::q))) (hw : s.worker = .idle) : Sound (stopView (Sdio.stopOne keep s b) q) ∧
      (Sdio.stopOne keep s b).worker = .idle ∧
      (Sdio.stopOne keep s b).wrAsyncq = s.wrAsyncq := by
  have hleave : (stopView s (b::q)).wrAsyncq ++ (stopView s (b::q)).worker.req ~
      b :: (q ++ s.worker.req) := List.Perm.refl _
  unfold Sdio.stopOne
  cases hid : (s.busReq b).scatReq with
  | none =>
    have htok : tokenOf (stopView s (b::q)) b = .packet (s.busReq b).packet := by
      simp only [tokenOf, stopView, hid]
    refine ⟨⟨h.cancel hw rfl rfl hw rfl rfl rfl ?_ rfl (fun _ _ => rfl)
      fun i => tokenOf_item, h.toPlaces.toFree ⟨rfl, rfl, rfl⟩ hid rfl rfl hleave rfl⟩, hw, rfl⟩
    rw [htok]
    rfl
  | some id =>
    obtain ⟨r, hr, -, -⟩ := h.back b (by simp [stopView]) id hid
    have hr' : s.scat id = some r := hr
    have htok : tokenOf (stopView s (b::q)) b = .scatter id := by
      simp only [tokenOf, stopView, hid]
    simp only [hr']
    refine ⟨⟨h.cancel hw rfl rfl hw rfl rfl rfl ?_ rfl (fun _ _ => rfl)
      fun i => tokenOf_item, h.toPlaces.toPool ⟨rfl, rfl, rfl⟩ hid rfl rfl hleave
      (scatterReqAdd_ids s id (keep id))⟩, hw, rfl⟩
    rw [htok]
    rfl

theorem Sound.stopAll {q : List ReqIdx} {keep : ScatId → Bool} (h : Sound (stopView s q))
    (hw : s.worker = .idle) (hq : s.wrAsyncq = []) : Sound (q.foldl (Sdio.stopOne keep) s) := by
  induction q generalizing s with
  | nil =>
    rw [List.foldl_nil]
    have hwait : waiting s = waiting (stopView s []) := by
      simp only [waiting, stopView, hw, hq]
    obtain ⟨gone, left, hs⟩ := h.inOrder
    refine ⟨⟨⟨gone, left, hs.accepted, hs.executed, hs.completed, ?_⟩, fun hne => absurd hq hne,
      fun n hn => ?_, h.drawn, h.sound⟩, h.toPlaces.move ⟨rfl, rfl, rfl⟩ rfl rfl ?_
      (List.Perm.refl _)⟩
    · rw [hwait]
      exact hs.queued
    · rw [hw] at hn
      cases hn
    · rw [hq]
      exact List.Perm.refl _
  | cons b q ih =>
    obtain ⟨hs, hw', hq'⟩ := h.stopOne keep hw
    exact ih hs hw' (hq'.trans hq)

theorem Sound.stop (h : Sound s) (keep : ScatId → Bool) : Sound (s.stop keep) := by
  unfold Sdio.stop
  split
  · next hw =>
    refine Sound.stopAll ?_ hw rfl
    obtain ⟨gone, left, hs⟩ := h.inOrder
    refine ⟨⟨⟨gone, left, hs.accepted, hs.executed, hs.completed, hs.queued⟩, fun _ => Or.inl rfl, h.next, h.drawn, h.sound⟩,
      h.toPlaces.move ⟨rfl, rfl, rfl⟩ rfl rfl (List.Perm.refl _) (List.Perm.refl _)⟩
  · exact h

/-! Setting the pool up and tearing it down. -/

/-- A new scatter request `r` in the pool, with the bus request at the head of the free list. -/
def bindScat (s : Sdio) (b : ReqIdx) (rest : List ReqIdx) (r : ScatReq) : Sdio :=
  { s with
    busReqFreeq := rest
    busReq := Function.update s.busReq b { s.busReq b with scatReq := some s.fresh }
    scat := Function.update s.scat s.fresh (some r)
    scatReq := s.scatReq ++ [s.fresh]
    fresh := s.fresh+1 }

theorem allocPrepOne_some {virtScat : Bool} {a : Alloc}
    (h : s.allocPrepOne virtScat a = some s') :
    ∃ b rest r, s.busReqFreeq = b::rest ∧ r.busrequest = b ∧ s' = bindScat s b rest r := by
  unfold Sdio.allocPrepOne at h
  split at h
  · cases h
  cases hbuf : a.buf with
  | none =>
    rw [hbuf] at h
    cases h
  | some buf =>
    unfold Sdio.allocBusreq at h
    cases hf : s.busReqFreeq with
    | nil => simp [hbuf, hf] at h
    | cons b rest =>
      simp only [hbuf, hf, Option.some.injEq] at h
      exact ⟨b, rest, _, rfl, rfl, h.symm⟩

theorem Places.fresh_apart (h : Places s) : s.fresh∉s.scatReq ++ s.held ∧
    ∀ c∈s.wrAsyncq ++ s.worker.req, ∀ x, (s.busReq c).scatReq = some x → x ≠ s.fresh := by
  have hnone := h.fresh s.fresh le_rfl
  constructor
  · intro hmem
    obtain ⟨r, hr, -⟩ := h.live _ hmem
    cases hr.symm.trans hnone
  · rintro c hc x hx rfl
    obtain ⟨r, hr, -⟩ := h.back c hc _ hx
    cases hr.symm.trans hnone

theorem Sound.bindScat (h : Sound s) {rest : List ReqIdx} {r : ScatReq}
    (hf : s.busReqFreeq = b::rest) (hb : r.busrequest = b) : Sound (bindScat s b rest r) := by
  obtain ⟨hway, hbound⟩ := h.free_apart (b := b) (by simp [hf])
  obtain ⟨hpool, hfly⟩ := h.fresh_apart
  have hbus : ∀ c, c ≠ b → (SdioAsync.bindScat s b rest r).busReq c = s.busReq c :=
    fun c hc => Function.update_of_ne hc ..
  have hself : ((SdioAsync.bindScat s b rest r).busReq b).scatReq = some s.fresh := by
    simp only [SdioAsync.bindScat, Function.update_self]
  have hnew : (SdioAsync.bindScat s b rest r).scat s.fresh = some r := Function.update_self ..
  have hold : ∀ x, x ≠ s.fresh → (SdioAsync.bindScat s b rest r).scat x = s.scat x :=
    fun x hx => Function.update_of_ne hx ..
  have hne : ∀ x∈s.scatReq ++ s.held, x ≠ s.fresh := fun x hx he => hpool (he ▸ hx)
  have hids : (SdioAsync.bindScat s b rest r).scatReq ++ s.held ~
      s.fresh :: (s.scatReq ++ s.held) := by
    unfold SdioAsync.bindScat
    rw [← List.append_cons]
    exact List.perm_middle
  refine ⟨h.toBooks.same ⟨rfl, rfl, rfl, rfl, rfl, rfl, rfl, fun c hc => hbus c ?_,
    fun c hc x hx => hold x (hfly c hc x hx)⟩, ?_, fun x hx => ?_, ?_, fun c hc x hx => ?_,
    fun c hc => ?_, fun x hx => ?_⟩
  · rintro rfl
    exact hway hc
  · refine h.moved fun a => ?_
    have ha := (reqsOf_perm hids hnew).count_eq a
    rw [hb, List.count_cons, reqsOf_congr (s := s) fun x hx => hold x (hne x hx)] at ha
    rw [hf, show (SdioAsync.bindScat s b rest r).held = s.held from rfl, ha]
    simp only [SdioAsync.bindScat, List.count_cons]
    omega
  · rcases List.mem_cons.mp (hids.mem_iff.mp hx) with rfl | hx
    · exact ⟨r, hnew, by rw [hb]; exact hself⟩
    · obtain ⟨q, hq, hqx⟩ := h.live x hx
      refine ⟨q, (hold x (hne x hx)).trans hq, ?_⟩
      have hqb : q.busrequest ≠ b := fun he => hbound (he ▸ mem_reqsOf hx hq)
      rw [hbus _ hqb]
      exact hqx
  · exact hids.nodup_iff.mpr (List.nodup_cons.mpr ⟨hpool, h.nodup⟩)
  · have hcb : c ≠ b := by
      rintro rfl
      exact hway hc
    rw [hbus c hcb] at hx
    rw [hold x (hfly c hc x hx)]
    exact h.back c hc x hx
  · have hcf : c∈s.busReqFreeq := by
      rw [hf]
      exact List.mem_cons_of_mem _ hc
    have hcb : c ≠ b := by
      rintro rfl
      have hn := h.all_nodup
      rw [hf] at hn
      simp only [List.cons_append, List.nodup_cons, List.mem_append, not_or] at hn
      exact hn.1.1.1.1 hc
    rw [hbus c hcb]
    exact h.free c hcf
  · have hx' : s.fresh+1 ≤ x := hx
    rw [hold x (Nat.ne_of_gt hx')]
    exact h.fresh x (Nat.le_of_succ_le hx')

theorem Sound.allocPrepScatReq (virtScat : Bool) (alloc : Nat → Alloc) (n : Nat) (h : Sound s) :
    Sound (Sdio.allocPrepScatReq virtScat alloc n s).1 := by
  induction n generalizing s with
  | zero => exact h
  | succ n ih =>
    unfold Sdio.allocPrepScatReq
    cases ha : s.allocPrepOne virtScat (alloc n) with
    | none => exact h
    | some s' =>
      obtain ⟨b, rest, r, hf, hb, rfl⟩ := allocPrepOne_some ha
      exact ih (h.bindScat hf hb)

/-- The state in the loop of `ath6kl_sdio_cleanup_scatter` with `q` left of the pool. -/
def poolView (s : Sdio) (q : List ScatId) : Sdio := { s with scatReq := q }

theorem Sound.cleanupOne {q : List ScatId} (h : Sound (poolView s (id::q))) :
    Sound (poolView (Sdio.cleanupOne s id) q) ∧
      (Sdio.cleanupOne s id).scatReq = s.scatReq := by
  obtain ⟨r, hr, hrid⟩ := h.live id (by simp [poolView])
  have hr' : s.scat id = some r := hr
  have hrid' : (s.busReq r.busrequest).scatReq = some id := hrid
  unfold Sdio.cleanupOne
  simp only [hr']
  refine ⟨?_, rfl⟩
  have hout : r.busrequest∉s.busReqFreeq :=
    fun hf => (h.free_apart hf).2 (mem_reqsOf (by simp [poolView]) hr)
  have hfly : ∀ c∈s.wrAsyncq ++ s.worker.req, ∀ x, (s.busReq c).scatReq = some x → x ≠ id := by
    rintro c hc x hx rfl
    exact h.not_pooled (b := c) hc hx (by simp [poolView])
  have hnd : (id :: (q ++ s.held)).Nodup := h.nodup
  have hne : ∀ x∈q ++ s.held, x ≠ id := by
    rintro x hx rfl
    exact (List.nodup_cons.mp hnd).1 hx
  have hold : ∀ x, x ≠ id → Function.update s.scat id none x = s.scat x :=
    fun x hx => Function.update_of_ne hx ..
  refine ⟨h.toBooks.same ⟨rfl, rfl, rfl, rfl, rfl, rfl, rfl, fun _ _ => rfl,
    fun c hc x hx => hold x (hfly c hc x hx)⟩, ?_, fun x hx => ?_, (List.nodup_cons.mp hnd).2,
    fun c hc x hx => ?_, fun c hc => ?_, fun x hx => ?_⟩
  · refine h.moved fun a => ?_
    have hsame : (q ++ s.held).filterMap (fun x => (Function.update s.scat id none x).map
        ScatReq.busrequest) = reqsOf s (q ++ s.held) :=
      List.filterMap_congr fun x hx => by rw [hold x (hne x hx)]
    have hcons : reqsOf (poolView s (id::q)) ((poolView s (id::q)).scatReq ++
        (poolView s (id::q)).held) = r.busrequest :: reqsOf s (q ++ s.held) := by
      simp only [reqsOf, poolView, List.cons_append, List.filterMap_cons, hr', Option.map_some]
    rw [hcons]
    simp only [reqsOf, poolView, Sdio.setScat, Sdio.freeBusReq] at hsame ⊢
    rw [hsame]
    simp only [List.count_append, List.count_cons, List.count_nil]
    omega
  · obtain ⟨y, hy, hyx⟩ := h.live x (List.mem_cons_of_mem _ hx)
    exact ⟨y, (hold x (hne x hx)).trans hy, hyx⟩
  · obtain ⟨y, hy⟩ := h.back c hc x hx
    exact ⟨y, (hold x (hfly c hc x hx)).trans hy.1, hy.2⟩
  · by_cases hcb : c = r.busrequest
    · subst hcb
      simp [poolView, Sdio.setScat, Sdio.freeBusReq, hrid']
    · have hcf : c∈s.busReqFreeq := by
        simpa [poolView, Sdio.setScat, Sdio.freeBusReq, hcb] using hc
      have hfree := h.free c hcf
      simpa [poolView, Sdio.setScat, Sdio.freeBusReq, Function.update_of_ne hcb] using hfree
  · by_cases hx' : x = id
    · rw [hx']
      exact Function.update_self ..
    · exact (hold x hx').trans (h.fresh x hx)

theorem Sound.cleanupAll {q : List ScatId} (h : Sound (poolView s q)) (hq : s.scatReq = []) :
    Sound (q.foldl Sdio.cleanupOne s) := by
  induction q generalizing s with
  | nil =>
    have hs : poolView s [] = s := by rw [poolView, ← hq]
    rwa [hs] at h
  | cons id q ih =>
    obtain ⟨hs, hq'⟩ := h.cleanupOne
    exact ih hs (hq'.trans hq)

theorem Sound.cleanupScatter (h : Sound s) : Sound s.cleanupScatter := Sound.cleanupAll h rfl

theorem Sound.scatterAttempt (h : Sound s) {virtScat : Bool} {alloc : Nat → Alloc} {n : Nat} :
    Sound (s.scatterAttempt virtScat alloc n).1 := by
  have ha := h.allocPrepScatReq virtScat alloc n
  unfold Sdio.scatterAttempt
  dsimp only
  split
  · exact ha
  · exact ha.cleanupScatter

theorem Sound.enableScatter (h : Sound s) (maxSegs : Bool) (first second : Nat → Alloc) :
    Sound (s.enableScatter maxSegs first second) := by
  unfold Sdio.enableScatter
  split
  · exact h
  have h0 : Sound { s with scatterEnabled := true } :=
    ⟨h.toBooks.same ⟨rfl, rfl, rfl, rfl, rfl, rfl, rfl, fun _ _ => rfl, fun _ _ _ _ => rfl⟩,
      h.toPlaces.move ⟨rfl, rfl, rfl⟩ rfl rfl (List.Perm.refl _) (List.Perm.refl _)⟩
  dsimp only
  generalize hr : (if !!maxSegs then Sdio.scatterAttempt { s with scatterEnabled := true } (!maxSegs)
    first maxScatterRequests else ({ s with scatterEnabled := true }, false)) = r
  have h1 : Sound r.1 := by
    rw [← hr]
    split
    · exact h0.scatterAttempt
    · exact h0
  split
  · exact h1.scatterAttempt
  · exact h1

/-! The run. -/

theorem sound_probe : Sound probe where
  inOrder := ⟨[], [], rfl, .nil, rfl, rfl⟩
  served hq := absurd rfl hq
  next _ hn := nomatch hn
  drawn _ hx := nomatch hx
  sound := nofun
  places := by simp [probe, Worker.req, reqsOf]
  live _ hx := nomatch hx
  nodup := List.nodup_nil
  back _ hb := nomatch hb
  free _ _ := by simp [probe]
  fresh _ _ := rfl

theorem Sound.step (h : Sound s) {e : Event} (hm : Meets s e) : Sound (step s e) := by
  cases e with
  | enableScatter maxSegs first second => exact h.enableScatter maxSegs first second
  | writeAsync address buffer length request packet => exact h.writeAsync hm
  | scatterReqGet => exact h.scatterReqGet
  | putBack i => exact h.putBack i
  | asyncRwScatter i a => exact h.asyncRwScatter i a
  | work status keep => exact h.work status keep
  | stop keep => exact h.stop keep
  | cleanupScatter => exact h.cleanupScatter

theorem Sound.meets (h : Sound s) {e : Event} (hc : Consistent (SdioAsync.step s e)) :
    Meets s e := by
  cases e with
  | writeAsync address buffer length request packet =>
    intro b hb
    have hmem : b∈s.busReqFreeq := List.mem_of_head? hb
    obtain ⟨rest, hf⟩ := List.head?_eq_some_iff.mp hb
    by_contra hfreed
    rw [Bool.not_eq_false] at hfreed
    refine (h.free b hmem).mpr hfreed (hc.drawn _ ?_)
    simp [SdioAsync.step, Sdio.writeAsync, Sdio.allocBusreq, hf, Sdio.setBusReq]
  | _ => trivial

/-- In a run of enabling scatter, plain writes, scatter requests, the worker, stops and clean-ups,
all states are consistent exactly when no plain write draws a bus request that the clean-up has
freed. -/
theorem bus_requests_once (es : List Event) :
    (∀ u, u <+: es → Consistent (run step probe u)) ↔ AllSteps step Meets probe es :=
  prefix_iff_allSteps (fun _ h => h.consistent) (fun _ _ h hm => h.step hm)
    (fun _ _ h hc => h.meets hc) sound_probe es

/-- The second of four scatter requests cannot be allocated, nor any in the other attempt; then
there are as many plain writes as bus requests. -/
def recycledRun : List Event :=
  .enableScatter true (fun n => ⟨n == 3, some 4096⟩) (fun _ => ⟨false, none⟩) ::
    List.replicate 64 (.writeAsync 0x800 8192 128 0x2A2 7)

/-- The last write draws the bus request of the scatter request that was freed. -/
theorem bus_requests_mixed_up :
    (run step probe recycledRun).drawn.getLast? = some (some 0) ∧
    (run step probe recycledRun).scat 0 = none ∧ ¬ Consistent (run step probe recycledRun) := by
  have hlast : (run step probe recycledRun).drawn.getLast? = some (some 0) := by decide +kernel
  refine ⟨hlast, by decide +kernel, fun h => ?_⟩
  cases h.drawn _ (List.mem_of_getLast? hlast)

end Ath6kl.SdioAsync
