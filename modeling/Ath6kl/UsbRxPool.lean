import Ath6kl.Lib.Custody
import Ath6kl.Lib.Machine
import Mathlib.Data.List.Range

/-! The URB contexts of the RX_DATA pipe in bundle mode (usb.c, ath6kl_usb_start_recv_pipes and
what reposts), built without CE_2_SUPPORT: a context keeps its buffer from one transfer to the
next, so later posts allocate none. -/
namespace Ath6kl.UsbRxPool
open Lib.Custody Lib.Machine
open scoped List

def rxUrbCount : Nat := 32
def rxBufferSize : Nat := 2048
def rxBundleBufferSize : Nat := 16896

/-- The completion of a URB: `ath6kl_usb_recv_complete` or `ath6kl_usb_recv_bundle_complete`. -/
inductive Handler where
  | recv | recvBundle
deriving DecidableEq

structure Urb where
  ctx : Nat
  complete : Handler

/-- What `dev_alloc_skb`, `usb_alloc_urb` and `usb_submit_urb` answer in one turn of a posting
loop. -/
structure Turn where
  skb : Bool := true
  urb : Bool := true
  submit : Bool := true

inductive Status where
  | ok | eoverflow | eproto | other
deriving DecidableEq

def Status.reposts : Status → Bool
  | .other => false
  | _ => true

/-- The contexts are numbered; `buf` holds the size of the buffer each one owns. `oops`: a missing
buffer was used. -/
structure Pipe where
  urbList : List Nat := []
  urbCnt : Nat := 0
  urbAlloc : Nat := 0
  urbCntThresh : Nat := 0
  buf : Nat → Option Nat := fun _ => none
  submitted : List Urb := []
  oops : Bool := false

namespace Pipe
variable (p : Pipe)

def setBuf (c : Nat) (b : Option Nat) : Pipe :=
  { p with buf := fun x => if x = c then b else p.buf x }

/-- `ath6kl_usb_alloc_urb_from_pipe`, where `rest` stands behind the first free context. -/
def allocUrb (rest : List Nat) : Pipe := { p with urbList := rest, urbCnt := p.urbCnt-1 }

/-- `ath6kl_usb_free_urb_to_pipe`. -/
def freeUrb (c : Nat) : Pipe := { p with urbList := c::p.urbList, urbCnt := p.urbCnt+1 }

/-- `ath6kl_usb_cleanup_recv_urb`. -/
def cleanupRecvUrb (c : Nat) : Pipe := (p.setBuf c none).freeUrb c

def submit (c : Nat) (complete : Handler) : Pipe :=
  { p with submitted := ⟨c, complete⟩::p.submitted }

/-- `ath6kl_usb_alloc_pipe_resources`. -/
def allocPipeResources : Nat → Pipe
  | 0 => {}
  | n+1 =>
    let p := allocPipeResources n
    { p with urbAlloc := p.urbAlloc+1 }.freeUrb n

/-- A buffer of `bufferLength` bytes, or the one that is there if that is 0. -/
def fill (c bufferLength : Nat) : Pipe :=
  if bufferLength ≠ 0 then p.setBuf c (some bufferLength) else p

/-- `hif_usb_post_recv_bundle_transfers`; the list is that of the free contexts. -/
def postBundle (bufferLength : Nat) (p : Pipe) : List Nat → List Turn → Pipe
  | [], _ => p
  | c::rest, turns =>
    let turn := turns.headD {}
    let p := p.allocUrb rest
    if bufferLength ≠ 0 ∧ turn.skb = false then p.cleanupRecvUrb c
    else
      let p := p.fill c bufferLength
      match p.buf c with
      | none => { p with oops := true }
      | some _ =>
        if turn.urb = false then p.cleanupRecvUrb c
        else if turn.submit = false then p.freeUrb c
        else (p.submit c .recvBundle).postBundle bufferLength rest turns.tail

def postRecvBundleTransfers (bufferLength : Nat) (turns : List Turn) : Pipe :=
  p.postBundle bufferLength p.urbList turns

/-- `ath6kl_usb_post_recv_transfers`; the list is that of the free contexts. -/
def postPlain (bufferLength : Nat) (p : Pipe) : List Nat → List Turn → Pipe
  | [], _ => p
  | c::rest, turns =>
    let turn := turns.headD {}
    let p := p.allocUrb rest
    if turn.skb = false then p.cleanupRecvUrb c
    else
      let p := p.setBuf c (some bufferLength)
      if turn.urb = false ∨ turn.submit = false then p.cleanupRecvUrb c
      else (p.submit c .recv).postPlain bufferLength rest turns.tail

def postRecvTransfers (turns : List Turn) : Pipe := p.postPlain rxBufferSize p.urbList turns

/-- `ath6kl_usb_start_recv_pipes` with `htc_bundle_recv`. -/
def startRecvPipes (turns : List Turn) : Pipe :=
  { p with urbCntThresh := p.urbAlloc / 2 }.postRecvBundleTransfers rxBundleBufferSize turns

/-- `ath6kl_usb_recv_bundle_complete` after it has looked at the frames. -/
def recvBundleComplete (c : Nat) (status : Status) (turns : List Turn) : Pipe :=
  let p := p.freeUrb c
  if status.reposts ∧ p.urbCntThresh ≤ p.urbCnt then p.postRecvBundleTransfers 0 turns else p

/-- `ath6kl_usb_recv_complete` once the buffer has been passed up or not. `room`: the queue of
completed buffers is below `rxq_threshold`. -/
def recvComplete (c : Nat) (status : Status) (room : Bool) (turns : List Turn) : Pipe :=
  let p := p.cleanupRecvUrb c
  if status.reposts ∧ p.urbCntThresh ≤ p.urbCnt ∧ room then p.postRecvTransfers turns else p

/-- The URB at place `i` completes. -/
def urbComplete (i : Nat) (status : Status) (room : Bool) (turns : List Turn) : Pipe :=
  match p.submitted[i]? with
  | none => p
  | some u =>
    let p := { p with submitted := p.submitted.eraseIdx i }
    match u.complete with
    | .recvBundle => p.recvBundleComplete u.ctx status turns
    | .recv => p.recvComplete u.ctx status room turns

/-- `ath6kl_usb_io_comp_work`. `drained`: it held the lock and ran to the end of the queue. -/
def ioCompWork (drained : Bool) (turns : List Turn) : Pipe :=
  if drained ∧ p.urbCntThresh ≤ p.urbCnt then p.postRecvTransfers turns else p

end Pipe

inductive Event where
  | startRecvPipes (turns : List Turn)
  | pmResume (turns : List Turn)
  | urbComplete (i : Nat) (status : Status) (room : Bool) (turns : List Turn)
  | ioCompWork (drained : Bool) (turns : List Turn)

def step (p : Pipe) : Event → Pipe
  | .startRecvPipes turns => p.startRecvPipes turns
  | .pmResume turns => p.postRecvBundleTransfers 0 turns
  | .urbComplete i status room turns => p.urbComplete i status room turns
  | .ioCompWork drained turns => p.ioCompWork drained turns

def Owns (p : Pipe) (c : Nat) : Prop := p.buf c = some rxBundleBufferSize

structure Sound (p : Pipe) : Prop where
  free : ∀ c∈p.urbList, Owns p c
  submitted : ∀ u∈p.submitted, Owns p u.ctx ∧ u.complete = .recvBundle
  count : p.urbCnt+p.submitted.length = p.urbAlloc
  used : p.oops = false

/-- A post over free contexts leaves none of them without a full buffer: no allocation fails before
the first submission that does, and behind that one the buffers are there. -/
def PostOk (bufferLength : Nat) (buf : Nat → Option Nat) : List Nat → List Turn → Prop
  | [], _ => True
  | _::rest, turns =>
    let turn := turns.headD {}
    (bufferLength ≠ 0 → turn.skb = true) ∧ turn.urb = true ∧
      if turn.submit then PostOk bufferLength buf rest turns.tail
      else ∀ c∈rest, buf c = some rxBundleBufferSize

/-- Each post goes well, and no work item finds free contexts to post. -/
def Ok (p : Pipe) : Event → Prop
  | .startRecvPipes turns => PostOk rxBundleBufferSize p.buf p.urbList turns
  | .pmResume turns => PostOk 0 p.buf p.urbList turns
  | .urbComplete i status _ turns => ∀ u, p.submitted[i]? = some u → status.reposts →
      p.urbCntThresh ≤ p.urbCnt+1 → PostOk 0 p.buf (u.ctx::p.urbList) turns
  | .ioCompWork drained _ => drained → p.urbCntThresh ≤ p.urbCnt → p.urbList = []

/-- What every post keeps, however it ends. -/
structure Books (p : Pipe) : Prop where
  owner : List.range p.urbAlloc ~ p.urbList ++ p.submitted.map Urb.ctx
  cnt : p.urbCnt = p.urbList.length
  submitted : ∀ u∈p.submitted, Owns p u.ctx ∧ u.complete = .recvBundle
  used : p.oops = false

/-- The same while the context `c` is in hand. -/
structure InHand (c : Nat) (p : Pipe) : Prop where
  owner : List.range p.urbAlloc ~ c::(p.urbList ++ p.submitted.map Urb.ctx)
  cnt : p.urbCnt = p.urbList.length
  submitted : ∀ u∈p.submitted, Owns p u.ctx ∧ u.complete = .recvBundle
  used : p.oops = false

section Steps
variable {p : Pipe} {c : Nat}

theorem Books.allocUrb (h : Books p) {rest : List Nat} (hl : p.urbList = c::rest) :
    InHand c (p.allocUrb rest) where
  owner := by
    have ho := h.owner
    rw [hl] at ho
    exact ho
  cnt := by
    change p.urbCnt-1 = rest.length
    rw [h.cnt, hl, List.length_cons, Nat.add_sub_cancel]
  submitted := h.submitted
  used := h.used

theorem Books.complete (h : Books p) {i : Nat} {u : Urb} (hu : p.submitted[i]? = some u) :
    InHand u.ctx { p with submitted := p.submitted.eraseIdx i } where
  owner := by
    have hp : p.submitted.map Urb.ctx ~ u.ctx::(p.submitted.eraseIdx i).map Urb.ctx :=
      (perm_cons_eraseIdx hu).map Urb.ctx
    calc
      List.range p.urbAlloc ~ p.urbList ++ p.submitted.map Urb.ctx := h.owner
      _ ~ p.urbList ++ u.ctx::(p.submitted.eraseIdx i).map Urb.ctx := hp.append_left _
      _ ~ _ := List.perm_middle
  cnt := h.cnt
  submitted := fun x hx => h.submitted x (List.mem_of_mem_eraseIdx hx)
  used := h.used

theorem InHand.fresh (h : InHand c p) : c∉p.urbList ∧ ∀ u∈p.submitted, u.ctx ≠ c := by
  have hnd := List.nodup_cons.mp (h.owner.nodup_iff.mp List.nodup_range)
  refine ⟨fun hc => hnd.1 (List.mem_append_left _ hc), fun u hu he => hnd.1 ?_⟩
  exact List.mem_append_right _ (he ▸ List.mem_map_of_mem hu)

theorem InHand.setBuf (h : InHand c p) (b : Option Nat) : InHand c (p.setBuf c b) where
  owner := h.owner
  cnt := h.cnt
  submitted := fun u hu => by
    obtain ⟨howns, hc⟩ := h.submitted u hu
    exact ⟨(if_neg (h.fresh.2 u hu)).trans howns, hc⟩
  used := h.used

theorem InHand.fill (h : InHand c p) (bufferLength : Nat) : InHand c (p.fill c bufferLength) := by
  unfold Pipe.fill
  split_ifs
  · exact h.setBuf _
  · exact h

theorem InHand.freeUrb (h : InHand c p) : Books (p.freeUrb c) where
  owner := h.owner
  cnt := congrArg (· + 1) h.cnt
  submitted := h.submitted
  used := h.used

theorem InHand.cleanupRecvUrb (h : InHand c p) : Books (p.cleanupRecvUrb c) :=
  (h.setBuf none).freeUrb

theorem InHand.submit (h : InHand c p) (howns : Owns p c) : Books (p.submit c .recvBundle) where
  owner := h.owner.trans List.perm_middle.symm
  cnt := h.cnt
  submitted := List.forall_mem_cons.mpr ⟨⟨howns, rfl⟩, h.submitted⟩
  used := h.used

theorem Books.count (h : Books p) : p.urbCnt+p.submitted.length = p.urbAlloc := by
  have hlen := h.owner.length_eq
  rw [List.length_range, List.length_append, List.length_map, ← h.cnt] at hlen
  exact hlen.symm

theorem Books.sound_iff (h : Books p) : Sound p ↔ ∀ c∈p.urbList, Owns p c :=
  ⟨Sound.free, fun hf => ⟨hf, h.submitted, h.count, h.used⟩⟩

theorem fill_urbList (p : Pipe) (c bufferLength : Nat) :
    (p.fill c bufferLength).urbList = p.urbList := by
  unfold Pipe.fill
  split_ifs <;> rfl

theorem fill_owns {bufferLength : Nat}
    (hlen : bufferLength = 0 ∨ bufferLength = rxBundleBufferSize)
    (h : bufferLength = 0 → Owns p c) : Owns (p.fill c bufferLength) c := by
  rcases hlen with h0 | hfull
  · simpa [Pipe.fill, h0] using h h0
  · rw [hfull]
    exact if_pos rfl

theorem fill_buf (p : Pipe) {c x : Nat} (bufferLength : Nat) (hx : x ≠ c) :
    (p.fill c bufferLength).buf x = p.buf x := by
  unfold Pipe.fill
  split_ifs
  · exact if_neg hx
  · rfl

theorem not_owns_cleanup (p : Pipe) (c : Nat) : ¬∀ x∈(p.cleanupRecvUrb c).urbList,
    Owns (p.cleanupRecvUrb c) x := by
  intro h
  have hc : (if c = c then none else p.buf c) = some rxBundleBufferSize := h c List.mem_cons_self
  rw [if_pos rfl] at hc
  exact nomatch hc

theorem InHand.cleanup_books (h : InHand c p) {P : Prop} (hP : ¬P) :
    Books (p.cleanupRecvUrb c) ∧ (Sound (p.cleanupRecvUrb c) ↔ P) :=
  ⟨h.cleanupRecvUrb, iff_of_false (fun hs => not_owns_cleanup p c hs.free) hP⟩

end Steps

theorem postOk_congr {bufferLength : Nat} {f g : Nat → Option Nat} {free : List Nat}
    (h : ∀ c∈free, f c = g c) (turns : List Turn) :
    PostOk bufferLength f free turns ↔ PostOk bufferLength g free turns := by
  induction free generalizing turns with
  | nil => exact Iff.rfl
  | cons c rest ih =>
    have hrest : ∀ x∈rest, f x = g x := fun x hx => h x (List.mem_cons_of_mem c hx)
    have hall : (∀ x∈rest, f x = some rxBundleBufferSize) ↔
        ∀ x∈rest, g x = some rxBundleBufferSize :=
      forall₂_congr fun x hx => by rw [hrest x hx]
    simp only [PostOk, ih hrest, hall]

theorem postBundle_books {bufferLength : Nat}
    (hlen : bufferLength = 0 ∨ bufferLength = rxBundleBufferSize) (free : List Nat) :
    ∀ (p : Pipe) (turns : List Turn), Books p → p.urbList = free →
      (bufferLength = 0 → ∀ c∈free, Owns p c) →
      Books (p.postBundle bufferLength free turns) ∧
        (Sound (p.postBundle bufferLength free turns) ↔ PostOk bufferLength p.buf free turns) := by
  induction free with
  | nil =>
    intro p turns h hl _
    refine ⟨h, iff_of_true (h.sound_iff.mpr ?_) trivial⟩
    rw [hl]
    exact fun c hc => absurd hc List.not_mem_nil
  | cons c rest ih =>
    intro p turns h hl hfull
    have hand := h.allocUrb hl
    have hown : Owns ((p.allocUrb rest).fill c bufferLength) c :=
      fill_owns hlen fun h0 => hfull h0 c List.mem_cons_self
    have hsome : ((p.allocUrb rest).fill c bufferLength).buf c = some rxBundleBufferSize := hown
    have hfill := hand.fill bufferLength
    have hbuf : ∀ x∈rest, ((p.allocUrb rest).fill c bufferLength).buf x = p.buf x := fun x hx =>
      fill_buf _ _ fun he => hand.fresh.1 (he ▸ hx)
    simp only [Pipe.postBundle, PostOk, hsome]
    generalize turns.headD {} = turn
    by_cases hskb : bufferLength ≠ 0 ∧ turn.skb = false
    · rw [if_pos hskb]
      exact hand.cleanup_books fun hok => Bool.false_ne_true (hskb.2.symm.trans (hok.1 hskb.1))
    have halloc : bufferLength ≠ 0 → turn.skb = true := fun h0 =>
      eq_true_of_ne_false fun hf => hskb ⟨h0, hf⟩
    rw [if_neg hskb]
    cases hurb : turn.urb with
    | false =>
      rw [if_pos rfl]
      exact hfill.cleanup_books fun hok => Bool.false_ne_true hok.2.1
    | true =>
      rw [if_neg (by decide)]
      cases hsub : turn.submit with
      | false =>
        rw [if_pos rfl, if_neg Bool.false_ne_true]
        have hb := hfill.freeUrb
        refine ⟨hb, hb.sound_iff.trans ?_⟩
        change (∀ x∈c::((p.allocUrb rest).fill c bufferLength).urbList, _) ↔ _
        rw [fill_urbList, List.forall_mem_cons]
        refine ⟨fun hall => ⟨halloc, rfl, fun x hx => ?_⟩, fun hok => ⟨hown, fun x hx => ?_⟩⟩
        · exact (hbuf x hx).symm.trans (hall.2 x hx)
        · exact (hbuf x hx).trans (hok.2.2 x hx)
      | true =>
        rw [if_neg (by decide), if_pos rfl]
        have hb := hfill.submit hown
        have hrest : bufferLength = 0 → ∀ x∈rest,
            Owns (((p.allocUrb rest).fill c bufferLength).submit c .recvBundle) x := fun h0 x hx =>
          (hbuf x hx).trans (hfull h0 x (List.mem_cons_of_mem c hx))
        obtain ⟨hbooks, hiff⟩ := ih _ turns.tail hb (fill_urbList _ c bufferLength) hrest
        refine ⟨hbooks, hiff.trans ((postOk_congr hbuf turns.tail).trans ?_)⟩
        exact ⟨fun hok => ⟨halloc, rfl, hok⟩, fun hok => hok.2.2⟩

variable {p : Pipe}

theorem Books.post (h : Books p) {bufferLength : Nat}
    (hlen : bufferLength = 0 ∨ bufferLength = rxBundleBufferSize)
    (hfull : bufferLength = 0 → ∀ c∈p.urbList, Owns p c) (turns : List Turn) :
    Books (p.postRecvBundleTransfers bufferLength turns) ∧
      (Sound (p.postRecvBundleTransfers bufferLength turns) ↔
        PostOk bufferLength p.buf p.urbList turns) :=
  postBundle_books hlen p.urbList p turns h rfl hfull

theorem mem_postPlain {u : Urb} (bufferLength : Nat) (free : List Nat) :
    ∀ (p : Pipe) (turns : List Turn), u∈p.submitted →
      u∈(p.postPlain bufferLength free turns).submitted := by
  induction free with
  | nil => exact fun p turns h => h
  | cons c rest ih =>
    intro p turns h
    simp only [Pipe.postPlain]
    split_ifs
    · exact h
    · exact h
    · exact ih _ turns.tail (List.mem_cons_of_mem _ h)

theorem not_sound_postPlain (bufferLength c : Nat) (rest : List Nat) (p : Pipe)
    (turns : List Turn) : ¬Sound (p.postPlain bufferLength (c::rest) turns) := by
  intro hs
  simp only [Pipe.postPlain] at hs
  split_ifs at hs
  · exact not_owns_cleanup _ _ hs.free
  · exact not_owns_cleanup _ _ hs.free
  · have hmem : (⟨c, .recv⟩ : Urb)∈(Pipe.postPlain bufferLength
        (((p.allocUrb rest).setBuf c (some bufferLength)).submit c .recv) rest
        turns.tail).submitted := mem_postPlain bufferLength rest _ turns.tail List.mem_cons_self
    exact nomatch (hs.submitted _ hmem).2

/-- A sound pipe, and who holds each context. -/
structure Inv (p : Pipe) : Prop where
  books : Books p
  free : ∀ c∈p.urbList, Owns p c

theorem Inv.sound (h : Inv p) : Sound p := h.books.sound_iff.mpr h.free

theorem Inv.post (h : Inv p) {bufferLength : Nat}
    (hlen : bufferLength = 0 ∨ bufferLength = rxBundleBufferSize) (turns : List Turn) :
    (PostOk bufferLength p.buf p.urbList turns →
        Inv (p.postRecvBundleTransfers bufferLength turns)) ∧
      (Sound (p.postRecvBundleTransfers bufferLength turns) →
        PostOk bufferLength p.buf p.urbList turns) := by
  obtain ⟨hb, hiff⟩ := h.books.post hlen (fun _ => h.free) turns
  exact ⟨fun hok => ⟨hb, (hiff.mpr hok).free⟩, hiff.mp⟩

theorem Inv.complete (h : Inv p) {i : Nat} {u : Urb} (hu : p.submitted[i]? = some u) :
    Inv ({ p with submitted := p.submitted.eraseIdx i }.freeUrb u.ctx) where
  books := (h.books.complete hu).freeUrb
  free := List.forall_mem_cons.mpr
    ⟨(h.books.submitted u (List.mem_of_getElem? hu)).1, h.free⟩

theorem ioCompWork_spec (h : Inv p) (drained : Bool) (turns : List Turn) :
    (Ok p (.ioCompWork drained turns) → Inv (p.ioCompWork drained turns)) ∧
      (Sound (p.ioCompWork drained turns) → Ok p (.ioCompWork drained turns)) := by
  simp only [Ok, Pipe.ioCompWork, Pipe.postRecvTransfers]
  by_cases hc : drained = true ∧ p.urbCntThresh ≤ p.urbCnt
  · rw [if_pos hc]
    cases hl : p.urbList with
    | nil => exact ⟨fun _ => h, fun _ _ _ => rfl⟩
    | cons c rest =>
      refine ⟨fun hok => ?_, fun hs => absurd hs (not_sound_postPlain _ c rest p turns)⟩
      exact absurd (hok hc.1 hc.2) (List.cons_ne_nil c rest)
  · rw [if_neg hc]
    exact ⟨fun _ => h, fun _ hd hcnt => absurd ⟨hd, hcnt⟩ hc⟩

theorem recvBundleComplete_spec {c : Nat} (h : Inv (p.freeUrb c)) (status : Status)
    (turns : List Turn) :
    ((status.reposts → p.urbCntThresh ≤ p.urbCnt+1 → PostOk 0 p.buf (c::p.urbList) turns) →
        Inv (p.recvBundleComplete c status turns)) ∧
      (Sound (p.recvBundleComplete c status turns) → status.reposts →
        p.urbCntThresh ≤ p.urbCnt+1 → PostOk 0 p.buf (c::p.urbList) turns) := by
  unfold Pipe.recvBundleComplete
  by_cases hr : status.reposts = true ∧ (p.freeUrb c).urbCntThresh ≤ (p.freeUrb c).urbCnt
  · rw [if_pos hr]
    obtain ⟨hgood, hbad⟩ := h.post (Or.inl rfl) turns
    exact ⟨fun hok => hgood (hok hr.1 hr.2), fun hs _ _ => hbad hs⟩
  · rw [if_neg hr]
    exact ⟨fun _ => h, fun _ h1 h2 => absurd ⟨h1, h2⟩ hr⟩

theorem urbComplete_spec (h : Inv p) (i : Nat) (status : Status) (room : Bool)
    (turns : List Turn) :
    (Ok p (.urbComplete i status room turns) → Inv (p.urbComplete i status room turns)) ∧
      (Sound (p.urbComplete i status room turns) → Ok p (.urbComplete i status room turns)) := by
  cases hu : p.submitted[i]? with
  | none =>
    simp only [Ok, Pipe.urbComplete, hu]
    exact ⟨fun _ => h, fun _ u he => nomatch he⟩
  | some u =>
    have hc := (h.books.submitted u (List.mem_of_getElem? hu)).2
    simp only [Ok, Pipe.urbComplete, hu, hc, Option.some.injEq, forall_eq']
    exact recvBundleComplete_spec (h.complete hu) status turns

theorem Inv.threshold (h : Inv p) (n : Nat) : Inv { p with urbCntThresh := n } where
  books := ⟨h.books.owner, h.books.cnt, h.books.submitted, h.books.used⟩
  free := h.free

/-- What one event does: the pipe stays sound exactly if `Ok`. -/
theorem step_spec (h : Inv p) (e : Event) :
    (Ok p e → Inv (step p e)) ∧ (Sound (step p e) → Ok p e) := by
  cases e with
  | startRecvPipes turns => exact (h.threshold (p.urbAlloc / 2)).post (Or.inr rfl) turns
  | pmResume turns => exact h.post (Or.inl rfl) turns
  | urbComplete i status room turns => exact urbComplete_spec h i status room turns
  | ioCompWork drained turns => exact ioCompWork_spec h drained turns

theorem alloc_books (n : Nat) : Books (Pipe.allocPipeResources n) ∧
    (Pipe.allocPipeResources n).urbAlloc = n ∧ (Pipe.allocPipeResources n).submitted = [] := by
  induction n with
  | zero => exact ⟨⟨List.Perm.refl _, rfl, List.forall_mem_nil _, rfl⟩, rfl, rfl⟩
  | succ n ih =>
    obtain ⟨hb, ha, hs⟩ := ih
    refine ⟨⟨?_, congrArg (· + 1) hb.cnt, hb.submitted, hb.used⟩, congrArg (· + 1) ha, hs⟩
    have ho := hb.owner
    rw [ha] at ho
    change List.range ((Pipe.allocPipeResources n).urbAlloc+1) ~ _
    rw [ha, List.range_succ]
    exact (List.perm_append_singleton n _).trans (ho.cons n)

theorem start_spec (n : Nat) (turns : List Turn) :
    let p := Pipe.allocPipeResources n
    Books (p.startRecvPipes turns) ∧
      (Sound (p.startRecvPipes turns) ↔ PostOk rxBundleBufferSize p.buf p.urbList turns) := by
  obtain ⟨hb, -⟩ := alloc_books n
  have hthresh : Books { Pipe.allocPipeResources n with
      urbCntThresh := (Pipe.allocPipeResources n).urbAlloc / 2 } :=
    ⟨hb.owner, hb.cnt, hb.submitted, hb.used⟩
  exact hthresh.post (Or.inr rfl) (fun h0 => absurd h0 (by decide)) turns

/-- From the start of the pipe on, the pool is sound along a run if and only if every post of the
run goes well and no work item finds free contexts above the threshold. -/
theorem pool_sound_iff (n : Nat) (turns : List Turn) (es : List Event) :
    let p := Pipe.allocPipeResources n
    (∀ u, u <+: es → Sound (run step (p.startRecvPipes turns) u)) ↔
      Ok p (.startRecvPipes turns) ∧ AllSteps step Ok (p.startRecvPipes turns) es := by
  intro p
  obtain ⟨hb, hiff⟩ := start_spec n turns
  constructor
  · intro hall
    have hs := hall [] List.nil_prefix
    have hinv : Inv (p.startRecvPipes turns) := ⟨hb, Sound.free hs⟩
    refine ⟨hiff.mp hs, ?_⟩
    exact (prefix_iff_allSteps (I := Inv) (P := Sound) (C := Ok) (fun _ h => h.sound)
      (fun _ e h => (step_spec h e).1) (fun _ e h => (step_spec h e).2) hinv es).mp hall
  · rintro ⟨hok, hrest⟩
    have hinv : Inv (p.startRecvPipes turns) := ⟨hb, (hiff.mpr hok).free⟩
    exact (prefix_iff_allSteps (I := Inv) (P := Sound) (C := Ok) (fun _ h => h.sound)
      (fun _ e h => (step_spec h e).1) (fun _ e h => (step_spec h e).2) hinv es).mpr hrest

/-- Half of the transfers complete, the post behind the last of them fails at its first submission,
and the work item runs. -/
def submitFails : List Event :=
  List.replicate (rxUrbCount / 2) (.urbComplete 0 .ok true [{ submit := false }]) ++
    [.ioCompWork true []]

/-- The work item posts the contexts the plain way. -/
theorem pool_unsound : ¬∀ turns es,
    Sound (run step ((Pipe.allocPipeResources rxUrbCount).startRecvPipes turns) es) := by
  intro h
  have hplain : ¬∀ u∈(run step ((Pipe.allocPipeResources rxUrbCount).startRecvPipes [])
      submitFails).submitted, u.complete = .recvBundle := by
    decide +kernel
  exact hplain fun u hu => ((h [] submitFails).submitted u hu).2

end Ath6kl.UsbRxPool
