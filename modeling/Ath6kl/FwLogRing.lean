import Ath6kl.BoardData
import Ath6kl.Lib.Ring

/-! The ring of debug buffers that the firmware keeps in target memory, and the driver's way around
it through the diagnostic window (main.c). -/
namespace Ath6kl.FwLogRing
open Lib.Memory Lib.Ring
open BoardData (TargetType)

section Model

def einval : Int := -22
def enomem : Int := -12
def etimedout : Int := -110

/-- `ATH6KL_FWLOG_PAYLOAD_SIZE`, and the sizes of the two structures. -/
def fwlogPayloadSize : Nat := 1500
def dbglogHdrSize : Nat := 8
def dbglogBufSize : Nat := 24

def targVtop : TargetType → UInt32 → UInt32
  | .ar6003, vaddr => vaddr &&& 0x001fffff
  | .ar6004, vaddr => vaddr
  | .ar6006, vaddr => vaddr

/-- Where the item `hi_dbglog_hdr` stands in a target. -/
def hiDbglogHdr : TargetType → UInt32
  | .ar6003 => 0x00540608
  | .ar6004 => 0x00400808
  | .ar6006 => 0x00428808

/-- `ALIGN(length, 4)` of a 32-bit number. -/
def alignWord (length : UInt32) : UInt32 := (length+3)/4*4

/-- Word number `k` of a structure. -/
def word (bs : List UInt8) (k : Nat) : UInt32 :=
  UInt32.ofNat (Lib.LittleEndian.value ((bs.drop (4*k)).take 4))

/-- `struct ath6kl_dbglog_buf`, without the fields that are not read. -/
structure DbglogBuf where
  next : UInt32
  bufferAddr : UInt32
  bufsize : UInt32
  length : UInt32

def dbglogBuf (bs : List UInt8) : DbglogBuf where
  next := word bs 0
  bufferAddr := word bs 1
  bufsize := word bs 2
  length := word bs 3

/-- What a read through the window returns, the bytes that it stores, and the number of words that
were asked for until then. -/
structure DiagRead where
  ret : Int := 0
  data : List UInt8 := []
  asked : Nat

/-- The loop of `ath6kl_diag_read`; `hif k` is what the window returns for word number `k`. -/
def diagReadWords (hif : Nat → Int) (t : Device) : Nat → Nat → UInt32 → DiagRead
  | 0, asked, _ => { asked := asked }
  | count+1, asked, address =>
    if hif asked ≠ 0 then { ret := hif asked, asked := asked+1 }
    else
      let r := diagReadWords hif t count (asked+1) (address+4)
      { r with data := t.read address 4 ++ r.data }

/-- `ath6kl_diag_read`. -/
def diagRead (hif : Nat → Int) (t : Device) (asked : Nat) (address : UInt32) (length : Nat) :
    DiagRead :=
  if length%4 ≠ 0 then { ret := einval, asked := asked }
  else diagReadWords hif t (length/4) asked address

/-- What the function gets from elsewhere: whether there is memory for its buffer and what stands in
it, what the window returns, and what stands in the two structures on the stack. -/
structure Env where
  alloc : Bool := true
  host : Mem := fun _ => 0
  hif : Nat → Int := fun _ => 0
  stackHdr : List UInt8 := []
  stackBuf : List UInt8 := []

/-- A buffer that the loop comes to: where it stands, its fields, the bytes that are written to
`buf`, and what is passed on as an event. -/
structure Visit where
  address : UInt32
  buf : DbglogBuf
  fill : Nat := 0
  event : Option (List UInt8) := none

structure Run where
  ret : Int
  visits : List Visit := []

/-- The memory of the host, the words that were asked for, and `debug_buf` with its address. -/
structure Loop where
  host : Mem
  asked : Nat
  address : UInt32
  buf : DbglogBuf

/-- The first half of the loop, and what it returns. -/
def readBuf (tt : TargetType) (hif : Nat → Int) (t : Device) (s : Loop) : Int × Visit × Loop :=
  if s.buf.length ≠ 0 ∧ s.buf.length ≤ s.buf.bufsize then
    let length := (alignWord s.buf.length).toNat
    let r := diagRead hif t s.asked (targVtop tt s.buf.bufferAddr) length
    let s' := { s with host := store s.host 0 r.data, asked := r.asked }
    let visit : Visit := { address := s.address, buf := s.buf, fill := r.data.length }
    if r.ret ≠ 0 then (r.ret, visit, s')
    else (0, { visit with event := some (slice s'.host 0 length) }, s')
  else (0, { address := s.address, buf := s.buf }, s)

/-- The loop, with `loop` rounds left. -/
def fwlogLoop (tt : TargetType) (hif : Nat → Int) (t : Device) (firstbuf : UInt32) :
    Nat → Loop → Run
  | 0, _ => { ret := 0 }
  | loop+1, s =>
    let (ret, visit, s) := readBuf tt hif t s
    if ret ≠ 0 then { ret := ret, visits := [visit] }
    else
      let address := targVtop tt s.buf.next
      let r := diagRead hif t s.asked address dbglogBufSize
      if r.ret ≠ 0 then { ret := r.ret, visits := [visit] }
      else if loop = 0 then { ret := etimedout, visits := [visit] }
      else if address = firstbuf then { ret := 0, visits := [visit] }
      else
        let rest := fwlogLoop tt hif t firstbuf loop
          { s with asked := r.asked, address := address, buf := dbglogBuf r.data }
        { rest with visits := visit::rest.visits }

/-- `ath6kl_read_fwlogs`. The reads of `debug_hdr` and of the first `debug_buf` are not checked. -/
def readFwlogs (tt : TargetType) (t : Device) (env : Env) : Run :=
  if env.alloc = false then { ret := enomem }
  else
    let hi := diagRead env.hif t 0 (targVtop tt (hiDbglogHdr tt)) 4
    if hi.ret ≠ 0 then { ret := hi.ret }
    else
      let debugHdrAddr := word hi.data 0
      if debugHdrAddr = 0 then { ret := einval }
      else
        let hdr := diagRead env.hif t hi.asked (targVtop tt debugHdrAddr) dbglogHdrSize
        let debugHdr := hdr.data ++ env.stackHdr.drop hdr.data.length
        let firstbuf := targVtop tt (word debugHdr 0)
        let buf := diagRead env.hif t hdr.asked firstbuf dbglogBufSize
        let debugBuf := buf.data ++ env.stackBuf.drop buf.data.length
        fwlogLoop tt env.hif t firstbuf 100
          { host := env.host, asked := buf.asked, address := firstbuf, buf := dbglogBuf debugBuf }

end Model

section Window
variable {hif : Nat → Int} {t : Device}

theorem diagReadWords_of_ret {count asked : Nat} {address : UInt32}
    (h : (diagReadWords hif t count asked address).ret = 0) :
    (diagReadWords hif t count asked address).data = t.read address (4*count) ∧
      (diagReadWords hif t count asked address).asked = asked+count := by
  induction count generalizing asked address with
  | zero => exact ⟨rfl, rfl⟩
  | succ count ih =>
    rw [diagReadWords] at h ⊢
    split_ifs at h ⊢ with hk
    · exact absurd h hk
    · obtain ⟨hdata, hasked⟩ := ih h
      refine ⟨?_, by rw [hasked]; omega⟩
      show t.read address 4 ++ _ = _
      rw [hdata, Nat.mul_succ, Nat.add_comm, read_add]
      rfl

theorem length_diagReadWords_le (count asked : Nat) (address : UInt32) :
    (diagReadWords hif t count asked address).data.length ≤ 4*count := by
  induction count generalizing asked address with
  | zero => exact Nat.le_refl 0
  | succ count ih =>
    rw [diagReadWords]
    split_ifs with hk
    · exact Nat.zero_le _
    · have hrest := ih (asked+1) (address+4)
      rw [List.length_append, length_read]
      omega

theorem diagReadWords_ret {count asked : Nat} {address : UInt32}
    (h : ∀ k, asked ≤ k → k < asked+count → hif k = 0) :
    (diagReadWords hif t count asked address).ret = 0 := by
  induction count generalizing asked address with
  | zero => rfl
  | succ count ih =>
    rw [diagReadWords, if_neg (not_not_intro (h asked (Nat.le_refl _) (by omega)))]
    exact ih fun k h1 h2 => h k (by omega) (by omega)

theorem diagRead_of_ret {asked length : Nat} {address : UInt32}
    (h : (diagRead hif t asked address length).ret = 0) :
    (diagRead hif t asked address length).data = t.read address length ∧
      (diagRead hif t asked address length).asked = asked+length/4 := by
  rw [diagRead] at h ⊢
  split_ifs at h ⊢ with h4
  · have hne : einval ≠ 0 := by decide
    exact absurd h hne
  · have hlen : 4*(length/4) = length := by omega
    have hread := diagReadWords_of_ret h
    rw [hlen] at hread
    exact hread

theorem length_diagRead_le (asked length : Nat) (address : UInt32) :
    (diagRead hif t asked address length).data.length ≤ length := by
  rw [diagRead]
  split_ifs with h4
  · exact Nat.zero_le _
  · have hle : (diagReadWords hif t (length/4) asked address).data.length ≤ 4*(length/4) :=
      length_diagReadWords_le (length/4) asked address
    omega

theorem diagRead_ret {asked length : Nat} {address : UInt32} (h4 : length%4 = 0)
    (h : ∀ k, asked ≤ k → k < asked+length/4 → hif k = 0) :
    (diagRead hif t asked address length).ret = 0 := by
  rw [diagRead, if_neg (not_not_intro h4)]
  exact diagReadWords_ret h

theorem diagRead_eq {asked length : Nat} {address : UInt32} (h4 : length%4 = 0)
    (h : ∀ k, asked ≤ k → k < asked+length/4 → hif k = 0) : diagRead hif t asked address length =
      { ret := 0, data := t.read address length, asked := asked+length/4 } := by
  have hret : (diagRead hif t asked address length).ret = 0 := diagRead_ret h4 h
  obtain ⟨hdata, hasked⟩ := diagRead_of_ret hret
  generalize diagRead hif t asked address length = r at hret hdata hasked ⊢
  obtain ⟨ret, data, asked'⟩ := r
  simp_all

theorem word_append {bs : List UInt8} (stack : List UInt8) {k : Nat} (h : 4*k+4 ≤ bs.length) :
    word (bs ++ stack) k = word bs k := by
  rw [word, word, List.drop_append_of_le_length (by omega),
    List.take_append_of_le_length (by rw [List.length_drop]; omega)]

theorem dbglogBuf_append {bs : List UInt8} (stack : List UInt8) (h : dbglogBufSize ≤ bs.length) :
    dbglogBuf (bs ++ stack) = dbglogBuf bs := by
  have h24 : 24 ≤ bs.length := h
  rw [dbglogBuf, word_append stack (by omega), word_append stack (by omega),
    word_append stack (by omega), word_append stack (by omega)]
  rfl

theorem alignWord_toNat (length : UInt32) :
    (alignWord length).toNat = (length.toNat+3)%2^32/4*4 := by
  have hlt := length.toNat_lt
  simp only [alignWord, UInt32.toNat_mul, UInt32.toNat_div, UInt32.toNat_add, UInt32.reduceToNat]
  omega

end Window

section Rounds
variable {tt : TargetType} {hif : Nat → Int} {t : Device} {first : UInt32}

/-- The buffer that the target has there, and the address of the one after it. -/
def bufAt (t : Device) (address : UInt32) : DbglogBuf := dbglogBuf (t.read address dbglogBufSize)
def nextOf (tt : TargetType) (t : Device) (address : UInt32) : UInt32 :=
  targVtop tt (bufAt t address).next

/-- The driver takes something out of the buffer. -/
def Taken (b : DbglogBuf) : Prop := b.length ≠ 0 ∧ b.length ≤ b.bufsize

instance (b : DbglogBuf) : Decidable (Taken b) := inferInstanceAs (Decidable (_ ∧ _))

def logOf (tt : TargetType) (t : Device) (b : DbglogBuf) : List UInt8 :=
  t.read (targVtop tt b.bufferAddr) (alignWord b.length).toNat

theorem length_logOf (b : DbglogBuf) : (logOf tt t b).length = (alignWord b.length).toNat :=
  length_read _

/-- A buffer that was visited, whether or not the window answered. -/
structure Visited (tt : TargetType) (t : Device) (v : Visit) : Prop where
  buf : v.buf = bufAt t v.address
  fill : v.fill ≤ (alignWord v.buf.length).toNat
  none : ¬Taken v.buf → v.fill = 0
  event : ∀ data, v.event = some data → Taken v.buf ∧ data = logOf tt t v.buf

/-- A buffer that was visited while the window answered. -/
structure Full (tt : TargetType) (t : Device) (v : Visit) : Prop where
  fill : Taken v.buf → v.fill = (alignWord v.buf.length).toNat
  event : Taken v.buf → v.event = some (logOf tt t v.buf)

@[simp] theorem readBuf_buf (s : Loop) : (readBuf tt hif t s).2.2.buf = s.buf := by
  rw [readBuf]
  dsimp only
  split_ifs <;> rfl

@[simp] theorem readBuf_address (s : Loop) : (readBuf tt hif t s).2.1.address = s.address := by
  rw [readBuf]
  dsimp only
  split_ifs <;> rfl

theorem readBuf_visited {s : Loop} (hs : s.buf = bufAt t s.address) :
    Visited tt t (readBuf tt hif t s).2.1 := by
  rw [readBuf]
  dsimp only
  split_ifs with htaken hret
  · exact { buf := hs
            fill := length_diagRead_le _ _ _
            none := fun h => absurd htaken h
            event := by simp }
  · have hdata := (diagRead_of_ret (not_not.mp hret)).1
    refine { buf := hs, fill := length_diagRead_le _ _ _, none := fun h => absurd htaken h,
             event := fun data hsome => ⟨htaken, ?_⟩ }
    obtain rfl := Option.some.inj hsome
    have hstored := slice_store s.host 0 (logOf tt t s.buf)
    rw [length_logOf] at hstored
    rw [hdata]
    exact hstored
  · exact { buf := hs
            fill := Nat.zero_le _
            none := fun _ => rfl
            event := by simp }

variable (tt hif t first) in
/-- One round: the loop is left, or the next buffer is read. -/
theorem fwlogLoop_visits (loop : Nat) (s : Loop) :
    (fwlogLoop tt hif t first (loop+1) s).visits = [(readBuf tt hif t s).2.1] ∨
      ∃ s' : Loop, s'.address = targVtop tt s.buf.next ∧ s'.buf = bufAt t s'.address ∧
        s'.address ≠ first ∧
        (fwlogLoop tt hif t first (loop+1) s).visits =
          (readBuf tt hif t s).2.1::(fwlogLoop tt hif t first loop s').visits := by
  have hbuf : (readBuf tt hif t s).2.2.buf = s.buf := readBuf_buf s
  rw [fwlogLoop]
  generalize readBuf tt hif t s = r at hbuf ⊢
  obtain ⟨ret, visit, s₁⟩ := r
  have hbuf' : s₁.buf = s.buf := hbuf
  dsimp only
  rw [← hbuf']
  split_ifs with hret hread hloop hfirst
  · exact .inl rfl
  · exact .inl rfl
  · exact .inl rfl
  · exact .inl rfl
  · refine .inr ⟨_, rfl, ?_, hfirst, rfl⟩
    rw [(diagRead_of_ret (not_not.mp hread)).1]
    rfl

theorem visits_of_loop (loop : Nat) (s : Loop) (hs : s.buf = bufAt t s.address) :
    (fwlogLoop tt hif t first loop s).visits.map Visit.address <+:
        walk (nextOf tt t) first loop s.address ∧
      ∀ v∈(fwlogLoop tt hif t first loop s).visits, Visited tt t v := by
  induction loop generalizing s with
  | zero => exact ⟨List.prefix_rfl, by simp [fwlogLoop]⟩
  | succ loop ih =>
    have hhead : Visited tt t (readBuf tt hif t s).2.1 := readBuf_visited hs
    have hnext : targVtop tt s.buf.next = nextOf tt t s.address := by rw [nextOf, hs]
    obtain hv | ⟨s', ha, hb, hne, hv⟩ := fwlogLoop_visits tt hif t first loop s
    · rw [hv, List.map_singleton, readBuf_address, walk]
      constructor
      · split_ifs with hfirst
        · exact List.prefix_rfl
        · exact List.prefix_append [s.address] _
      · simpa using hhead
    · obtain ⟨hpre, hrest⟩ := ih s' hb
      rw [hv, List.map_cons, readBuf_address, walk, ← hnext, ← ha, if_neg hne]
      refine ⟨List.cons_prefix_cons.mpr ⟨rfl, hpre⟩, ?_⟩
      simpa using ⟨hhead, hrest⟩

section Works
variable (hworks : ∀ k, hif k = 0)

include hworks

theorem readBuf_works (s : Loop) :
    (readBuf tt hif t s).1 = 0 ∧ Full tt t (readBuf tt hif t s).2.1 := by
  rw [readBuf]
  dsimp only
  split_ifs with htaken hret
  · refine absurd (diagRead_ret ?_ fun k _ _ => hworks k) hret
    rw [alignWord_toNat]
    omega
  · have hdata := (diagRead_of_ret (not_not.mp hret)).1
    have hstored := slice_store s.host 0 (logOf tt t s.buf)
    rw [length_logOf] at hstored
    refine ⟨rfl, fun _ => ?_, fun _ => ?_⟩
    · show List.length _ = _
      rw [hdata, length_read]
    · show some (slice (store s.host 0 _) 0 _) = _
      rw [hdata]
      exact congrArg some hstored
  · exact ⟨rfl, fun h => absurd h htaken, fun h => absurd h htaken⟩

variable (tt t first) in
theorem fwlogLoop_works (loop : Nat) (s : Loop) :
    ∃ s' : Loop, s'.address = targVtop tt s.buf.next ∧ s'.buf = bufAt t s'.address ∧
      fwlogLoop tt hif t first (loop+1) s =
        if loop = 0 then { ret := etimedout, visits := [(readBuf tt hif t s).2.1] }
        else if s'.address = first then { ret := 0, visits := [(readBuf tt hif t s).2.1] }
        else { ret := (fwlogLoop tt hif t first loop s').ret
               visits := (readBuf tt hif t s).2.1::(fwlogLoop tt hif t first loop s').visits } := by
  have hbuf : (readBuf tt hif t s).2.2.buf = s.buf := readBuf_buf s
  have hret : (readBuf tt hif t s).1 = 0 := (readBuf_works hworks s).1
  rw [fwlogLoop]
  generalize readBuf tt hif t s = r at hbuf hret ⊢
  obtain ⟨ret, visit, s₁⟩ := r
  have hbuf' : s₁.buf = s.buf := hbuf
  have hret' : ret = 0 := hret
  have hread : diagRead hif t s₁.asked (targVtop tt s₁.buf.next) dbglogBufSize =
      { ret := 0, data := t.read (targVtop tt s₁.buf.next) dbglogBufSize
        asked := s₁.asked+dbglogBufSize/4 } := diagRead_eq rfl fun k _ _ => hworks k
  dsimp only
  rw [← hbuf', if_neg (not_not_intro hret'), hread]
  exact ⟨{ s₁ with
    asked := s₁.asked+dbglogBufSize/4
    address := targVtop tt s₁.buf.next
    buf := bufAt t (targVtop tt s₁.buf.next) }, rfl, rfl, rfl⟩

variable (tt first) in
theorem loop_works (loop : Nat) (s : Loop) (hs : s.buf = bufAt t s.address) :
    (fwlogLoop tt hif t first loop s).visits.map Visit.address =
        walk (nextOf tt t) first loop s.address ∧
      (∀ v∈(fwlogLoop tt hif t first loop s).visits, Full tt t v) ∧
      (closes (nextOf tt t) first (loop-1) s.address = true →
        (fwlogLoop tt hif t first loop s).ret = 0) := by
  induction loop generalizing s with
  | zero => exact ⟨rfl, by simp [fwlogLoop], fun _ => rfl⟩
  | succ loop ih =>
    have hhead : Full tt t (readBuf tt hif t s).2.1 := (readBuf_works hworks s).2
    have hnext : targVtop tt s.buf.next = nextOf tt t s.address := by rw [nextOf, hs]
    obtain ⟨s', ha, hb, hrun⟩ := fwlogLoop_works tt t first hworks loop s
    rw [hnext] at ha
    obtain ⟨hwalk, hfull, hret⟩ := ih s' hb
    rw [hrun, Nat.add_sub_cancel, walk]
    cases loop with
    | zero =>
      rw [if_pos rfl]
      refine ⟨by simp [walk], by simpa using hhead, fun h => ?_⟩
      simp [closes] at h
    | succ loop =>
      rw [if_neg (Nat.succ_ne_zero loop), closes, ← ha]
      by_cases hfirst : s'.address = first
      · rw [if_pos hfirst, if_pos hfirst]
        exact ⟨by simp, by simpa using hhead, fun _ => rfl⟩
      · rw [if_neg hfirst, if_neg hfirst]
        refine ⟨by simp [hwalk], by simpa using ⟨hhead, hfull⟩, fun h => hret ?_⟩
        simpa [hfirst] using h

end Works

end Rounds

section Bounded

/-- Where the header of the ring stands in a target, and its first buffer. -/
def debugHdrAddr (tt : TargetType) (t : Device) : UInt32 :=
  word (t.read (targVtop tt (hiDbglogHdr tt)) 4) 0
def firstOf (tt : TargetType) (t : Device) : UInt32 :=
  targVtop tt (word (t.read (targVtop tt (debugHdrAddr tt t)) dbglogHdrSize) 0)

/-- The buffers of a target, as far as the driver follows them. -/
def buffersOf (tt : TargetType) (t : Device) : List UInt32 :=
  if debugHdrAddr tt t = 0 then []
  else walk (nextOf tt t) (firstOf tt t) 100 (firstOf tt t)

/-- The window answers while the header and the first buffer are read. -/
def Env.Answers (env : Env) : Prop := ∀ k, k < 9 → env.hif k = 0

/-- There is memory, and the window always answers. -/
structure Env.Works (env : Env) : Prop where
  alloc : env.alloc = true
  hif : ∀ k, env.hif k = 0

/-- The driver follows the ring for a hundred buffers at most, writes what fits in its own buffer,
passes on what it read from the buffer at hand, and goes once around a ring of fewer than a hundred
buffers. -/
structure FwLogsRight (tt : TargetType) (t : Device) : Prop where
  ends : ∀ env, (readFwlogs tt t env).visits.length ≤ 100
  bounded : ∀ env : Env, env.Answers → ∀ v∈(readFwlogs tt t env).visits,
    v.fill ≤ fwlogPayloadSize
  current : ∀ env : Env, env.Answers → ∀ v∈(readFwlogs tt t env).visits,
    v.buf = bufAt t v.address ∧ ∀ data, v.event = some data →
      ∃ n, n ≤ v.buf.bufsize.toNat ∧ data = t.read (targVtop tt v.buf.bufferAddr) n
  once : ∀ env : Env, env.Works → debugHdrAddr tt t ≠ 0 → ∀ ring,
    IsRing (nextOf tt t) (firstOf tt t) ring → ring.length < 100 →
      (readFwlogs tt t env).visits.map Visit.address = ring ∧ (readFwlogs tt t env).ret = 0

/-- The length that is taken from a buffer, in whole words, is no more than the buffer has and no
more than the driver has room for. -/
def Fits (t : Device) (address : UInt32) : Prop :=
  Taken (bufAt t address) →
    (alignWord (bufAt t address).length).toNat ≤ fwlogPayloadSize ∧
      (alignWord (bufAt t address).length).toNat ≤ (bufAt t address).bufsize.toNat

variable {tt : TargetType} {t : Device} {env : Env}

variable (tt t) in
theorem readFwlogs_eq (halloc : env.alloc = true) (h : env.Answers) :
    ∃ s : Loop, s.address = firstOf tt t ∧ s.buf = bufAt t s.address ∧
      readFwlogs tt t env = if debugHdrAddr tt t = 0 then { ret := einval }
        else fwlogLoop tt env.hif t (firstOf tt t) 100 s := by
  have hread {asked length : Nat} {address : UInt32} (h4 : length%4 = 0)
      (h9 : asked+length/4 ≤ 9) : diagRead env.hif t asked address length =
        { ret := 0, data := t.read address length, asked := asked+length/4 } :=
    diagRead_eq h4 fun k _ hk => h k (by omega)
  refine ⟨{ host := env.host, asked := 9, address := firstOf tt t,
            buf := bufAt t (firstOf tt t) }, rfl, rfl, ?_⟩
  rw [readFwlogs, if_neg (by rw [halloc]; decide), hread rfl (by decide)]
  dsimp only
  rw [if_neg (not_not_intro rfl), hread rfl (by decide)]
  dsimp only
  rw [word_append _ (by rw [length_read]; decide), hread rfl (by decide)]
  dsimp only
  rw [dbglogBuf_append _ (by rw [length_read])]
  rfl

theorem visits_of_noalloc (halloc : env.alloc ≠ true) : (readFwlogs tt t env).visits = [] := by
  rw [readFwlogs, if_pos (by simpa using halloc)]

theorem visited_of_readFwlogs (h : env.Answers) {v : Visit}
    (hv : v∈(readFwlogs tt t env).visits) : v.address∈buffersOf tt t ∧ Visited tt t v := by
  by_cases halloc : env.alloc = true
  · obtain ⟨s, hs, hb, hrun⟩ := readFwlogs_eq tt t halloc h
    rw [hrun] at hv
    rw [buffersOf]
    split_ifs at hv ⊢ with hnull
    · exact absurd hv List.not_mem_nil
    · obtain ⟨hpre, hvisited⟩ := visits_of_loop 100 s hb
      rw [hs] at hpre
      exact ⟨hpre.subset (List.mem_map_of_mem hv), hvisited v hv⟩
  · rw [visits_of_noalloc halloc] at hv
    exact absurd hv List.not_mem_nil

variable (tt t) in
theorem readFwlogs_works (h : env.Works) :
    (readFwlogs tt t env).visits.map Visit.address = buffersOf tt t ∧
      (∀ v∈(readFwlogs tt t env).visits, Full tt t v) ∧
      (debugHdrAddr tt t ≠ 0 → closes (nextOf tt t) (firstOf tt t) 99 (firstOf tt t) = true →
        (readFwlogs tt t env).ret = 0) := by
  obtain ⟨s, hs, hb, hrun⟩ := readFwlogs_eq tt t h.alloc fun k _ => h.hif k
  rw [hrun, buffersOf]
  split_ifs with hnull
  · exact ⟨rfl, by simp, fun hne => absurd hnull hne⟩
  · obtain ⟨hwalk, hfull, hret⟩ := loop_works tt (firstOf tt t) h.hif 100 s hb
    rw [hs] at hwalk hret
    exact ⟨hwalk, hfull, fun _ hcloses => hret hcloses⟩

theorem length_fwlogLoop_le {hif : Nat → Int} {first : UInt32} (loop : Nat) (s : Loop) :
    (fwlogLoop tt hif t first loop s).visits.length ≤ loop := by
  induction loop generalizing s with
  | zero => exact Nat.le_refl 0
  | succ loop ih =>
    obtain hv | ⟨s', -, -, -, hv⟩ := fwlogLoop_visits tt hif t first loop s
    · rw [hv]
      exact Nat.succ_le_succ (Nat.zero_le loop)
    · rw [hv]
      exact Nat.succ_le_succ (ih s')

theorem length_readFwlogs_le (tt : TargetType) (t : Device) (env : Env) :
    (readFwlogs tt t env).visits.length ≤ 100 := by
  rw [readFwlogs]
  dsimp only
  split_ifs with halloc hhi hnull
  · exact Nat.zero_le _
  · exact Nat.zero_le _
  · exact Nat.zero_le _
  · exact length_fwlogLoop_le 100 _

theorem readFwlogs_ring (h : env.Works) (hnull : debugHdrAddr tt t ≠ 0) {ring : List UInt32}
    (hring : IsRing (nextOf tt t) (firstOf tt t) ring) (hlen : ring.length<100) :
    (readFwlogs tt t env).visits.map Visit.address = ring ∧ (readFwlogs tt t env).ret = 0 := by
  obtain ⟨hvisits, -, hret⟩ := readFwlogs_works tt t h
  rw [buffersOf, if_neg hnull, (hring.walk_eq (Nat.le_of_lt hlen)).1] at hvisits
  exact ⟨hvisits, hret hnull (hring.walk_eq (by omega)).2⟩

theorem FwLogsRight.fits (h : FwLogsRight tt t) {address : UInt32}
    (hmem : address∈buffersOf tt t) : Fits t address := by
  intro htaken
  have hworks : Env.Works {} := ⟨rfl, fun _ => rfl⟩
  have hanswers : Env.Answers {} := fun _ _ => rfl
  obtain ⟨hvisits, hfull, -⟩ := readFwlogs_works tt t hworks
  rw [← hvisits] at hmem
  obtain ⟨v, hv, rfl⟩ := List.mem_map.mp hmem
  obtain ⟨hbuf, hcurrent⟩ := h.current {} hanswers v hv
  rw [← hbuf] at htaken ⊢
  have hbounded := h.bounded {} hanswers v hv
  rw [(hfull v hv).fill htaken] at hbounded
  obtain ⟨n, hn, hdata⟩ := hcurrent _ ((hfull v hv).event htaken)
  have hlen := congrArg List.length hdata
  rw [length_logOf, length_read] at hlen
  exact ⟨hbounded, hlen ▸ hn⟩

/-- The driver keeps to its own buffer and to that of the target exactly if the lengths fit. -/
theorem fwlogs_right_iff (tt : TargetType) (t : Device) :
    FwLogsRight tt t ↔ ∀ address∈buffersOf tt t, Fits t address := by
  constructor
  · intro h address hmem
    exact h.fits hmem
  · intro h
    refine ⟨length_readFwlogs_le tt t, fun env hanswers v hv => ?_, fun env hanswers v hv => ?_,
      fun env hworks hnull ring hring hlen => readFwlogs_ring hworks hnull hring hlen⟩
    · obtain ⟨hmem, hvisited⟩ := visited_of_readFwlogs hanswers hv
      have hfits := h v.address hmem
      rw [Fits, ← hvisited.buf] at hfits
      by_cases htaken : Taken v.buf
      · exact Nat.le_trans hvisited.fill (hfits htaken).1
      · rw [hvisited.none htaken]
        exact Nat.zero_le _
    · obtain ⟨hmem, hvisited⟩ := visited_of_readFwlogs hanswers hv
      refine ⟨hvisited.buf, fun data hsome => ?_⟩
      obtain ⟨htaken, hdata⟩ := hvisited.event data hsome
      have hfits := h v.address hmem
      rw [Fits, ← hvisited.buf] at hfits
      exact ⟨_, (hfits htaken).2, hdata⟩

/-- A ring of one buffer at 0x2000, with 2000 of its 2000 bytes in use. -/
def overlong : Device := fun a =>
  if a = 0x400809 then 0x10
  else if a = 0x1001 ∨ a = 0x2001 then 0x20
  else if a = 0x2005 then 0x30
  else if a = 0x2008 ∨ a = 0x200c then 0xd0
  else if a = 0x2009 ∨ a = 0x200d then 0x07
  else 0

theorem overlong_not_right : ¬FwLogsRight .ar6004 overlong := by
  intro h
  have hmem : 0x2000∈buffersOf .ar6004 overlong := by decide +kernel
  have htaken : Taken (bufAt overlong 0x2000) := by decide +kernel
  have hlong : ¬(alignWord (bufAt overlong 0x2000).length).toNat ≤ fwlogPayloadSize := by
    decide +kernel
  exact hlong (h.fits hmem htaken).1

end Bounded

end Ath6kl.FwLogRing
