import Ath6kl.HtcRxReassembly
import Ath6kl.UsbRxBundle
import Mathlib.Data.Set.List

/-! The two ways USB brings HTC messages (`usb.c`, `htc_pipe.c`): several of them in one bulk
transfer, taken apart by `ath6kl_usb_recv_bundle_complete`, or each in pieces of its own, put
together by `htc_rx_completion`. Both leave HTC in the same state. -/
namespace Ath6kl.UsbRxModes
open EthFrame Htc HtcRx UsbRxBundle Lib.Deframe Lib.Machine

/-- A message with the padding the target puts behind it in a bundle. -/
structure Packed (align : Bool) where
  msg : SplitMsg
  pad : Bytes
  eid : hdrEid msg.skb < endpointMax
  payload : hdrPayldLen msg.skb ≤ maxAmsduSize
  padLen : pad.length =
    if align ∧ hdrEid msg.skb ≠ 0 ∧ hdrEid msg.skb ≠ 1 then (msg.skb.byte 5).toNat else 0

def Packed.frame {align : Bool} (p : Packed align) : Bytes := p.msg.bytes ++ p.pad

/-- An URB completes; the buffer holds its transfer, and whatever was left behind it. -/
structure Urb where
  transfer : Bytes
  status : Int
  alloc : Nat → Bool
  mem : Memory
  fuel : Nat
  holds : mem.bytes 0 transfer.length = transfer
  enough : transfer.length<fuel

/-- The pipe's `io_comp_queue`, and HTC above it. -/
structure Pipe where
  ioCompQueue : List Bytes := []
  target : RxTarget

/-- An URB completes, or `ath6kl_usb_io_comp_work` takes the next buffer. -/
inductive Event
  | urb (u : Urb)
  | work (beyond : Nat → UInt8) (alloc : Bool)

def pipeStep (align : Bool) (s : Pipe) : Event → Pipe
  | .urb u =>
    match recvBundleComplete align u.alloc u.mem u.fuel u.status u.transfer.length s.ioCompQueue with
    | some q => { s with ioCompQueue := q }
    | none => s
  | .work beyond alloc =>
    match s.ioCompQueue with
    | [] => s
    | b::q => ⟨q, HtcRx.step s.target ⟨⟨b, beyond⟩, alloc⟩⟩

/-- Of messages in a row those before the first that gets no buffer. -/
def kept {align : Bool} (alloc : Nat → Bool) : Nat → List (Packed align) → List SplitMsg
  | _, [] => []
  | netdata, p::ps =>
    if alloc netdata then p.msg :: kept alloc (netdata+p.frame.length) ps else []

/-- The messages that come of an event: those in a row at the head of a transfer that succeeds, for
as long as there are buffers. What follows them begins no message that the handler takes. -/
def Event.Brings (align : Bool) : Event → List SplitMsg → Prop
  | .urb u, msgs => if u.status = 0 then
      ∃ (ps : List (Packed align)) (rest : Bytes), u.transfer = (ps.map Packed.frame).flatten ++ rest ∧
        (∀ f, IsFrame align f → ¬f <+: rest) ∧ msgs = kept u.alloc 0 ps
    else msgs = []
  | .work _ _, msgs => msgs = []

section Frame
variable {align : Bool} (p : Packed align)

theorem Packed.byte {i : Nat} (hi : i<htcHdrLength) :
    p.frame.getD i 0 = p.msg.skb.byte i := by
  have hlen : i < p.msg.bytes.length := by
    rw [p.msg.length_eq]
    omega
  rw [Packed.frame, List.getD_append _ _ _ _ hlen]
  rw [List.getD_eq_getElem _ _ hlen]
  exact (Skb.byte_eq (s := p.msg.skb) hlen).symm

theorem Packed.payldLen : framePayldLen p.frame = hdrPayldLen p.msg.skb := by
  rw [framePayldLen, p.byte (by decide), p.byte (by decide), hdrPayldLen]
  simp [Lib.LittleEndian.value]

theorem Packed.body : frameBody p.frame = p.msg.bytes := by
  rw [frameBody, p.payldLen, Packed.frame]
  refine List.take_left' ?_
  rw [p.msg.length_eq]
  omega

end Frame

variable {align : Bool}

theorem exists_packed {f : Bytes} (hf : IsFrame align f) : ∃ p : Packed align, p.frame = f := by
  have hle := hf.header_le
  have hlen : (frameBody f).length = htcHdrLength+framePayldLen f := by
    rw [frameBody, List.length_take, hf.length]
    omega
  have hhead : ∀ i<6, (frameBody f).getD i 0 = f.getD i 0 := fun i hi =>
    getD_head (List.take_prefix _ f) (hlen.symm ▸ Nat.lt_add_right _ hi)
  obtain ⟨heid, hpay, hpad⟩ := IsFrame.of_header align hhead
  have hbyte : ∀ i<6, (⟨frameBody f, fun _ => 0⟩ : Skb).byte i = (frameBody f).getD i 0 := by
    intro i hi
    have hi : i<(frameBody f).length := by rw [hlen]; exact Nat.lt_add_right _ hi
    rw [Skb.byte_eq hi, List.getD_eq_getElem _ _ hi]
  have hskbEid : hdrEid ⟨frameBody f, fun _ => 0⟩ = frameEid f := by
    rw [hdrEid, hbyte 0 (by decide), ← heid, frameEid]
  have hskbPay : hdrPayldLen ⟨frameBody f, fun _ => 0⟩ = framePayldLen f := by
    rw [hdrPayldLen, hbyte 2 (by decide), hbyte 3 (by decide), ← hpay, framePayldLen]
    simp [Lib.LittleEndian.value]
  have hskb : ∀ (m : SplitMsg), m.first.skb = ⟨frameBody f, fun _ => 0⟩ → m.rest = [] →
      m.skb = ⟨frameBody f, fun _ => 0⟩ := by
    intro m h1 h2
    rw [SplitMsg.skb, SplitMsg.bytes, h1, h2, List.map_nil, List.flatten_nil, List.append_nil]
  let m : SplitMsg :=
    { first := ⟨⟨frameBody f, fun _ => 0⟩, true⟩
      rest := []
      header := by rw [Netbuf.len, hlen]; exact Nat.le_add_right _ _
      announced := by
        rw [List.map_nil, List.flatten_nil, List.append_nil, hlen, hskbPay]
        exact Nat.add_comm _ _
      lastFull := by simp }
  have hm : m.skb = ⟨frameBody f, fun _ => 0⟩ := hskb m rfl rfl
  refine ⟨⟨m, f.drop (htcHdrLength+framePayldLen f), ?_, ?_, ?_⟩, ?_⟩
  · rw [hm, hskbEid]
    exact hf.eid
  · rw [hm, hskbPay]
    exact hf.payload
  · rw [hm, hskbEid, hbyte 5 (by decide), hhead 5 (by decide), List.length_drop, hf.length, framePad]
    omega
  · have hbytes : m.bytes = frameBody f := congrArg Skb.data hm
    rw [Packed.frame, hbytes]
    exact List.take_append_drop _ f

theorem granted_frames (alloc : Nat → Bool) (n : Nat) (ps : List (Packed align)) :
    (granted alloc n (ps.map Packed.frame)).map frameBody =
      (kept alloc n ps).map SplitMsg.bytes := by
  induction ps generalizing n with
  | nil => rfl
  | cons p ps ih =>
    rw [List.map_cons, granted, kept]
    split
    · rw [List.map_cons, List.map_cons, p.body, ih]
    · rfl

theorem exists_brings (align : Bool) (u : Urb) : ∃ msgs, (Event.urb u).Brings align msgs ∧ ∀ s : Pipe,
    pipeStep align s (.urb u) =
      { s with ioCompQueue := s.ioCompQueue ++ msgs.map SplitMsg.bytes } := by
  by_cases hs : u.status = 0
  · obtain ⟨fs, hfs, -⟩ := recvLoop_longest align u.alloc u.mem 0 u.transfer.length u.enough []
    rw [u.holds] at hfs
    have hps : fs∈Set.range (List.map fun p : Packed align => p.frame) := by
      rw [Set.range_list_map]
      exact fun f hf => exists_packed (hfs.items f hf)
    obtain ⟨ps, rfl⟩ := hps
    obtain ⟨rest, hrest⟩ := hfs.heads
    refine ⟨kept u.alloc 0 ps, ?_, fun s => ?_⟩
    · rw [Event.Brings, if_pos hs]
      refine ⟨ps, rest, hrest.symm, fun f hf hpre => ?_, rfl⟩
      -- one more frame would reach further
      obtain ⟨tail, htail⟩ := hpre
      have hmore := hfs.longest (ps.map Packed.frame ++ [f]) ?_ ⟨tail, ?_⟩
      · have := hmore.length_le
        simp at this
      · intro y hy
        rcases List.mem_append.mp hy with hy | hy
        · exact hfs.items y hy
        · rw [List.mem_singleton.mp hy]
          exact hf
      · rw [← hrest, ← htail]
        simp
    · obtain ⟨fs', hfs', hq⟩ := recvLoop_longest align u.alloc u.mem 0 u.transfer.length u.enough
        s.ioCompQueue
      rw [u.holds] at hfs'
      obtain rfl := hfs.eq hfs'
      rw [pipeStep, recvBundleComplete, if_neg (not_not.mpr hs)]
      by_cases h0 : u.transfer.length = 0
      · have hnil : ps = [] := by
          have h := hfs
          rw [List.length_eq_zero_iff.mp h0] at h
          exact List.map_eq_nil_iff.mp (h.eq (longest_empty align))
        simp [h0, hnil, kept]
      · rw [if_neg h0, hq, granted_frames]
  · refine ⟨[], ?_, fun s => ?_⟩
    · rw [Event.Brings, if_neg hs]
    · simp [pipeStep, recvBundleComplete, hs]

theorem step_whole {t : RxTarget} (h : Idle t) (m : SplitMsg) (beyond : Nat → UInt8)
    (alloc : Bool) : HtcRx.step t ⟨⟨m.bytes, beyond⟩, alloc⟩ = HtcRx.step t m.whole := by
  have hidle : t.rxSgInProgress = false := congrArg RxTarget.rxSgInProgress (Eq.symm h)
  have hlen : m.bytes.length = hdrPayldLen m.skb + htcHdrLength := m.length_eq
  have hhdr : hdrPayldLen ⟨m.bytes, beyond⟩ = hdrPayldLen m.skb :=
    (sameHdr_of_data (by omega)).payldLen
  simp only [HtcRx.step, htcRxCompletion, hidle, Bool.false_eq_true, if_false, SplitMsg.whole]
  exact congrArg Prod.fst (rxProcess_data (by omega))

/-- Of the messages that have come, HTC has got the first `k`; the others are queued. -/
structure Served (t : RxTarget) (msgs : List SplitMsg) (k : Nat) (s : Pipe) : Prop where
  queue : s.ioCompQueue = (msgs.drop k).map SplitMsg.bytes
  target : s.target = run HtcRx.step t ((msgs.take k).map SplitMsg.whole)
  idle : Idle s.target
  le : k ≤ msgs.length

theorem Served.step (align : Bool) {t : RxTarget} {msgs : List SplitMsg} {k : Nat} {s : Pipe}
    (h : Served t msgs k s) (e : Event) :
    ∃ new k', e.Brings align new ∧ Served t (msgs ++ new) k' (pipeStep align s e) := by
  cases e with
  | urb u =>
    obtain ⟨new, hnew, hstep⟩ := exists_brings align u
    refine ⟨new, k, hnew, ?_⟩
    rw [hstep]
    refine ⟨?_, ?_, h.idle, by rw [List.length_append]; exact Nat.le_add_right_of_le h.le⟩
    · rw [h.queue, List.drop_append_of_le_length h.le, List.map_append]
    · rw [h.target, List.take_append_of_le_length h.le]
  | work beyond alloc =>
    refine ⟨[], ?_⟩
    rw [List.append_nil]
    cases hd : msgs.drop k with
    | nil =>
      refine ⟨k, rfl, ?_⟩
      have hq := h.queue
      rw [hd, List.map_nil] at hq
      rw [pipeStep, hq]
      exact h
    | cons m rest =>
      have hq := h.queue
      rw [hd, List.map_cons] at hq
      have hlt : k < msgs.length := by
        by_contra hge
        rw [List.drop_of_length_le (Nat.le_of_not_lt hge)] at hd
        cases hd
      have hm : msgs[k] = m ∧ msgs.drop (k+1) = rest := by
        rw [List.drop_eq_getElem_cons hlt, List.cons.injEq] at hd
        exact hd
      refine ⟨k+1, rfl, ?_⟩
      rw [pipeStep, hq]
      dsimp only
      rw [step_whole h.idle]
      refine ⟨by rw [hm.2], ?_, h.idle.whole m, hlt⟩
      rw [List.take_succ_eq_append_getElem hlt, hm.1, List.map_append, run_append, ← h.target]
      rfl

theorem Served.run (align : Bool) {t : RxTarget} {msgs : List SplitMsg} {k : Nat} {s : Pipe}
    (h : Served t msgs k s) (es : List Event) :
    ∃ news k', List.Forall₂ (Event.Brings align) es news ∧
      Served t (msgs ++ news.flatten) k' (run (pipeStep align) s es) := by
  induction es generalizing msgs k s with
  | nil => exact ⟨[], k, .nil, by rw [List.flatten_nil, List.append_nil]; exact h⟩
  | cons e es ih =>
    obtain ⟨new, k', hnew, h'⟩ := h.step align e
    obtain ⟨news, k'', hnews, h''⟩ := ih h'
    exact ⟨new::news, k'', .cons hnew hnews,
      by rw [List.flatten_cons, ← List.append_assoc]; exact h''⟩

/-- Whatever the bulk transfers hold, and however the transfers and the work on them take turns: HTC
has got the first so many of the messages that came and the queue holds the others, and HTC is where
the pieces of those messages, cut in any way, would have taken it. -/
theorem rx_modes_agree {t : RxTarget} (h : Idle t) (es : List Event) :
    ∃ news k, List.Forall₂ (Event.Brings align) es news ∧
      (run (pipeStep align) ⟨[], t⟩ es).ioCompQueue =
        (news.flatten.drop k).map SplitMsg.bytes ∧
      ∀ msgs : List SplitMsg, (∀ m∈msgs, Plain m) →
        msgs.map SplitMsg.bytes = (news.flatten.take k).map SplitMsg.bytes →
        (run (pipeStep align) ⟨[], t⟩ es).target =
          run HtcRx.step t (msgs.flatMap SplitMsg.fragments) ∧
        (t.htcPacketPool ≠ 0 → (run (pipeStep align) ⟨[], t⟩ es).target.delivered =
          t.delivered ++ (msgs.filter SplitMsg.forEndpoint).map SplitMsg.packet) := by
  have h0 : Served t [] 0 ⟨[], t⟩ := ⟨rfl, rfl, h, Nat.le_refl _⟩
  obtain ⟨news, k, hnews, hk⟩ := h0.run align es
  rw [List.nil_append] at hk
  refine ⟨news, k, hnews, hk.queue, fun msgs hplain hbytes => ?_⟩
  have hwhole : msgs.map SplitMsg.whole = (news.flatten.take k).map SplitMsg.whole := by
    have := congrArg (List.map fun b : Bytes => (⟨⟨b, fun _ => 0⟩, true⟩ : Netbuf)) hbytes
    rw [List.map_map, List.map_map] at this
    exact this
  have hrun : (run (pipeStep align) ⟨[], t⟩ es).target =
      run HtcRx.step t (msgs.map SplitMsg.whole) := by
    rw [hwhole]
    exact hk.target
  rw [hrun]
  exact ⟨(run_messages h hplain).symm, fun hpool => run_whole_delivers h hpool msgs⟩

/-- A message for endpoint 1, one of two bytes for endpoint 2 with its padding, and the header of one
that is too long. -/
def bundleUrb : Urb where
  transfer := [1, 0, 2, 0, 0, 0, 8, 9, 2, 0, 2, 0, 0, 3, 8, 9, 0, 0, 0, 2, 0, 255, 255, 0, 0]
  status := 0
  alloc netdata := netdata < 8
  mem i := [1, 0, 2, 0, 0, 0, 8, 9, 2, 0, 2, 0, 0, 3, 8, 9, 0, 0, 0, 2, 0, 255, 255, 0, 0].getD i 0
  fuel := 26
  holds := by decide
  enough := by decide

theorem rx_modes_agree_bundle :
    ∃ news k, List.Forall₂ (Event.Brings true) [.urb bundleUrb, .work (fun _ => 7) false] news ∧
      (run (pipeStep true) ⟨[], {}⟩ [.urb bundleUrb, .work (fun _ => 7) false]).ioCompQueue =
        (news.flatten.drop k).map SplitMsg.bytes ∧
      ∀ msgs : List SplitMsg, (∀ m∈msgs, Plain m) →
        msgs.map SplitMsg.bytes = (news.flatten.take k).map SplitMsg.bytes →
        (run (pipeStep true) ⟨[], {}⟩ [.urb bundleUrb, .work (fun _ => 7) false]).target =
          run HtcRx.step {} (msgs.flatMap SplitMsg.fragments) ∧
        ((32:Nat) ≠ 0 → (run (pipeStep true) ⟨[], {}⟩
          [.urb bundleUrb, .work (fun _ => 7) false]).target.delivered =
            [] ++ (msgs.filter SplitMsg.forEndpoint).map SplitMsg.packet) :=
  rx_modes_agree (t := {}) rfl [.urb bundleUrb, .work (fun _ => 7) false]

end Ath6kl.UsbRxModes
