import Ath6kl.CookiePool
import Ath6kl.Lib.FreeList
import Ath6kl.Lib.Machine
import Mathlib.Data.List.Nodup

/-! What becomes of the blocks of the cookie pools: when a request for memory is refused, and over
any order of allocations and frees of cookies when none is. -/
namespace Ath6kl.CookiePool
open Lib.Blocks Lib.FreeList Lib.Machine
open scoped List

section Fields
variable {t t' : CookieType} {r r' : CookieRef} {ar : Ar} {p : Pool} {c : Cookie}

@[simp] theorem setPool_pool_self : (ar.setPool t p).pool t = p := by simp [Ar.setPool]

theorem setPool_pool_of_ne (h : t' ≠ t) : (ar.setPool t p).pool t' = ar.pool t' := by
  simp [Ar.setPool, h]

@[simp] theorem setPool_cookie : (ar.setPool t p).cookie = ar.cookie := rfl
@[simp] theorem setPool_heap : (ar.setPool t p).heap = ar.heap := rfl
@[simp] theorem setCookie_pool : (ar.setCookie r c).pool = ar.pool := rfl
@[simp] theorem setCookie_heap : (ar.setCookie r c).heap = ar.heap := rfl
@[simp] theorem touch_pool : (ar.touch r).pool = ar.pool := rfl
@[simp] theorem touch_cookie : (ar.touch r).cookie = ar.cookie := rfl

@[simp] theorem setCookie_cookie_self : (ar.setCookie r c).cookie r = c := by simp [Ar.setCookie]

theorem setCookie_cookie_of_ne (h : r' ≠ r) : (ar.setCookie r c).cookie r' = ar.cookie r' := by
  simp [Ar.setCookie, h]

theorem touch_live {m : Nat} (hmem : (ar.pool r.array).cookieMem = some m)
    (hm : m∉ar.heap.frees) : ar.touch r = ar := by
  simp [Ar.touch, hmem, access_live hm]

theorem freeCookie_array : ((freeCookie r ar).pool t).cookieMem = (ar.pool t).cookieMem ∧
    ((freeCookie r ar).pool t).cookieNum = (ar.pool t).cookieNum := by
  cases hp : (ar.cookie r).cookiePool with
  | none => simp [freeCookie, hp]
  | some u =>
    by_cases hu : t = u
    · subst hu
      simp [freeCookie, hp]
    · simp [freeCookie, hp, setPool_pool_of_ne hu]

end Fields

section Failure

/-- The array of the pool is not there, or something has been done wrong already. -/
def Ruined (t : CookieType) (ar : Ar) : Prop :=
  ar.heap.faults ≠ [] ∨ ar.heap.Dead (ar.pool t).cookieMem

theorem freePool_faults {t : CookieType} {ar : Ar} (h : ar.heap.faults ≠ []) (n : Nat) :
    (freePool t n ar).faults ≠ [] :=
  free_faults (freeEach_faults h _) _

theorem freePool_ruined {t : CookieType} {ar : Ar} (h : Ruined t ar) {n : Nat} (hn : 0<n) :
    (freePool t n ar).faults ≠ [] := by
  rcases h with h | h
  · exact freePool_faults h n
  · have hne : ((List.range n).map fun i => (ar.cookie ⟨t, i⟩).htcPkt) ≠ [] := by
      simp [Nat.pos_iff_ne_zero.mp hn]
    exact free_faults (freeEach_dead h hne) _

theorem freePool_dead (t : CookieType) (n : Nat) (ar : Ar) :
    (freePool t n ar).faults ≠ [] ∨ (freePool t n ar).Dead (ar.pool t).cookieMem := by
  by_cases hf : (freePool t n ar).faults = []
  · right
    intro m hm
    rw [Option.mem_def] at hm
    have hloop : (freeEach (ar.pool t).cookieMem ar.heap
        ((List.range n).map fun i => (ar.cookie ⟨t, i⟩).htcPkt)).faults = [] := by
      by_contra hne
      exact free_faults hne _ hf
    simp only [freePool, hm] at hloop ⊢
    exact mem_free_self hloop m
  · exact Or.inl hf

theorem poolFill_ruined (grant : Nat → Bool) (t : CookieType) (k i : Nat) (ar : Ar) :
    ((poolFill grant t k i ar).2.pool t).cookieNum = (ar.pool t).cookieNum ∧
    ((poolFill grant t k i ar).1.isSome = true → Ruined t (poolFill grant t k i ar).2) := by
  induction k generalizing i ar with
  | zero => simp [poolFill]
  | succ k ih =>
    simp only [poolFill]
    split_ifs with hpkt
    · obtain ⟨hnum, hruined⟩ := ih (i+1) (freeCookie ⟨t, i⟩ (fillCookie grant t i ar).2)
      refine ⟨?_, hruined⟩
      rw [hnum, freeCookie_array.2]
      rfl
    · exact ⟨rfl, fun _ => freePool_dead t i _⟩

theorem poolInit_ruined {grant : Nat → Bool} {t : CookieType} {num : Nat} {ar : Ar}
    (h : (poolInit grant t num ar).1.isSome = true) :
    Ruined t (poolInit grant t num ar).2 ∧
      ((poolInit grant t num ar).2.pool t).cookieNum = num := by
  have harray : ((allocArray grant t num ar).2.pool t).cookieNum = num ∧
      ((allocArray grant t num ar).2.pool t).cookieMem = (allocArray grant t num ar).1 := by
    simp [allocArray]
  simp only [poolInit] at h ⊢
  split_ifs at h ⊢ with hmem hfill
  · obtain ⟨hnum, hruined⟩ := poolFill_ruined grant t num 0 (allocArray grant t num ar).2
    exact ⟨hruined hfill, hnum.trans harray.1⟩
  · simp at h
  · have hnone : (allocArray grant t num ar).1 = none := by simpa using hmem
    exact ⟨Or.inr (by simp [Heap.Dead, harray.2, hnone]), harray.1⟩

theorem poolCleanup_pool {t u : CookieType} (h : u ≠ t) (ar : Ar) :
    (poolCleanup t ar).pool u = ar.pool u := by
  simp [poolCleanup, setPool_pool_of_ne h]

theorem poolCleanup_ruined {t u : CookieType} (h : u ≠ t) {ar : Ar} (hu : Ruined u ar) :
    Ruined u (poolCleanup t ar) := by
  rcases hu with hf | hdead
  · exact Or.inl (freePool_faults hf _)
  · refine Or.inr fun m hm => ?_
    rw [poolCleanup_pool h] at hm
    exact mem_free_frees (mem_freeEach_frees (hdead m hm) _) _

theorem cookieInit_faults {grant : Nat → Bool} {ar : Ar}
    (h : (cookieInit grant ar).1.isSome = true) : (cookieInit grant ar).2.heap.faults ≠ [] := by
  simp only [cookieInit] at h ⊢
  split_ifs at h ⊢ with hdata hctrl
  · obtain ⟨hruined, hnum⟩ := poolInit_ruined hdata
    have hdone : (poolCleanup .data (poolInit grant .data (cookieNum .data) ar).2).heap.faults ≠ [] :=
      freePool_ruined hruined (by rw [hnum]; decide)
    exact freePool_faults hdone _
  · obtain ⟨hruined, hnum⟩ := poolInit_ruined hctrl
    refine freePool_ruined (poolCleanup_ruined (t := .data) (by decide) hruined) ?_
    rw [poolCleanup_pool (by decide), hnum]
    decide
  · simp at h

end Failure

section Build

def Ar.next (ar : Ar) (r : CookieRef) : Option CookieRef := (ar.cookie r).arcListNext

@[simp] theorem setPool_next (ar : Ar) (t : CookieType) (p : Pool) :
    (ar.setPool t p).next = ar.next := rfl

/-- The first cookies of an array, the last one first. -/
def refs (t : CookieType) : Nat → List CookieRef
  | 0 => []
  | n+1 => ⟨t, n⟩::refs t n

theorem mem_refs {t : CookieType} {n : Nat} {r : CookieRef} :
    r∈refs t n ↔ r.array = t ∧ r.index<n := by
  induction n with
  | zero => simp [refs]
  | succ n ih =>
    rw [refs, List.mem_cons, ih]
    constructor
    · rintro (rfl | ⟨rfl, hlt⟩)
      · exact ⟨rfl, Nat.lt_succ_self n⟩
      · exact ⟨rfl, Nat.lt_succ_of_lt hlt⟩
    · rintro ⟨rfl, hlt⟩
      rcases Nat.lt_succ_iff_lt_or_eq.mp hlt with hlt | heq
      · exact Or.inr ⟨rfl, hlt⟩
      · exact Or.inl (by rw [← heq])

theorem nodup_refs (t : CookieType) (n : Nat) : (refs t n).Nodup := by
  induction n with
  | zero => simp [refs]
  | succ n ih => exact List.nodup_cons.mpr ⟨by simp [mem_refs], ih⟩

@[simp] theorem length_refs (t : CookieType) (n : Nat) : (refs t n).length = n := by
  induction n with
  | zero => rfl
  | succ n ih => rw [refs, List.length_cons, ih]

theorem u32Succ_of_lt {n : Nat} (h : n+1<2^32) : u32Succ n = n+1 := Nat.mod_eq_of_lt h

/-- The first `n` cookies have their pool, and packets of their own behind the array in block
`m`. -/
def Furnished (t : CookieType) (m n : Nat) (ar : Ar) : Prop :=
  ∀ i<n, (ar.cookie ⟨t, i⟩).cookiePool = some t ∧ (ar.cookie ⟨t, i⟩).htcPkt = some (m+1+i)

structure Built (t : CookieType) (m n : Nat) (ar : Ar) : Prop where
  mem : (ar.pool t).cookieMem = some m
  list : Links ar.next (ar.pool t).cookieList (refs t n)
  count : (ar.pool t).cookieCount = n
  furnished : Furnished t m n ar

structure Same (t : CookieType) (ar ar' : Ar) : Prop where
  num : (ar'.pool t).cookieNum = (ar.pool t).cookieNum
  pool : ∀ u, u ≠ t → ar'.pool u = ar.pool u
  cookie : ∀ r, r.array ≠ t → ar'.cookie r = ar.cookie r

theorem Same.trans {t : CookieType} {a b c : Ar} (h : Same t a b) (h' : Same t b c) :
    Same t a c :=
  ⟨h'.num.trans h.num, fun u hu => (h'.pool u hu).trans (h.pool u hu),
    fun r hr => (h'.cookie r hr).trans (h.cookie r hr)⟩

section Free
variable {r : CookieRef} {ar : Ar} {m : Nat} (hpool : (ar.cookie r).cookiePool = some r.array)
  (hmem : (ar.pool r.array).cookieMem = some m) (hm : m∉ar.heap.frees)
include hpool hmem hm

theorem freeCookie_eq : freeCookie r ar =
    (ar.setCookie r { ar.cookie r with arcListNext := (ar.pool r.array).cookieList }).setPool
      r.array { ar.pool r.array with
        cookieList := some r, cookieCount := u32Succ (ar.pool r.array).cookieCount,
        freeCnt := u32Succ (ar.pool r.array).freeCnt } := by
  simp only [freeCookie, touch_live hmem hm, hpool]

theorem freeCookie_links {l : List CookieRef}
    (hl : Links ar.next (ar.pool r.array).cookieList l) (hr : r∉l) :
    Links (freeCookie r ar).next ((freeCookie r ar).pool r.array).cookieList (r::l) := by
  rw [freeCookie_eq hpool hmem hm]
  simp only [setPool_pool_self]
  refine hl.push hr ?_ fun x hx => ?_
  · simp [Ar.next]
  · simp [Ar.next, setCookie_cookie_of_ne hx]

theorem freeCookie_same : Same r.array ar (freeCookie r ar) := by
  rw [freeCookie_eq hpool hmem hm]
  refine ⟨by simp, fun u hu => setPool_pool_of_ne hu, fun x hx => ?_⟩
  exact setCookie_cookie_of_ne fun heq => hx (by rw [heq])

theorem freeCookie_heap : (freeCookie r ar).heap = ar.heap := by
  rw [freeCookie_eq hpool hmem hm]
  rfl

theorem freeCookie_count : ((freeCookie r ar).pool r.array).cookieCount =
    u32Succ (ar.pool r.array).cookieCount := by
  rw [freeCookie_eq hpool hmem hm]
  simp

theorem freeCookie_furnished {t : CookieType} {b n : Nat} (h : Furnished t b n ar) :
    Furnished t b n (freeCookie r ar) := by
  rw [freeCookie_eq hpool hmem hm]
  intro i hi
  by_cases hr : (⟨t, i⟩ : CookieRef) = r
  · subst hr
    simpa using h i hi
  · simpa [setCookie_cookie_of_ne hr] using h i hi

end Free

section Fill
variable {grant : Nat → Bool} {t : CookieType} {m i a : Nat} {ar : Ar}
  (hbuilt : Built t m i ar) (hheap : ar.heap = { asked := a, blocks := m+1+i })
include hbuilt hheap

theorem fillCookie_refused (hg : grant a = false) : (fillCookie grant t i ar).1 = none := by
  have htouch : ar.touch ⟨t, i⟩ = ar := touch_live hbuilt.mem (by simp [hheap])
  simp [fillCookie, htouch, hheap, Heap.alloc, hg]

theorem fillCookie_granted (hg : grant a = true) : fillCookie grant t i ar =
    (some (m+1+i), { ar.setCookie ⟨t, i⟩ { ar.cookie ⟨t, i⟩ with
        cookiePool := some t, htcPkt := some (m+1+i) } with
      heap := { asked := a+1, blocks := m+1+i+1 } }) := by
  have htouch : ar.touch ⟨t, i⟩ = ar := touch_live hbuilt.mem (by simp [hheap])
  simp [fillCookie, htouch, hheap, Heap.alloc, hg]

theorem built_step (hg : grant a = true) (hi : i+1<2^32) :
    let ar' := freeCookie ⟨t, i⟩ (fillCookie grant t i ar).2
    Built t m (i+1) ar' ∧ ar'.heap = { asked := a+1, blocks := m+1+(i+1) } ∧ Same t ar ar' := by
  rw [fillCookie_granted hbuilt hheap hg]
  let r : CookieRef := ⟨t, i⟩
  let b : Ar := { ar.setCookie r { ar.cookie r with
      cookiePool := some t, htcPkt := some (m+1+i) } with
    heap := { asked := a+1, blocks := m+1+i+1 } }
  have hcookie : b.cookie r = { ar.cookie r with
      cookiePool := some t, htcPkt := some (m+1+i) } := setCookie_cookie_self
  have hother : ∀ x, x ≠ r → b.cookie x = ar.cookie x := fun x hx => setCookie_cookie_of_ne hx
  have hpool : (b.cookie r).cookiePool = some r.array := by rw [hcookie]
  have hmem : (b.pool r.array).cookieMem = some m := hbuilt.mem
  have hm : m∉b.heap.frees := by simp [b]
  have hnew : r∉refs t i := by simp [mem_refs, r]
  have hlist : Links b.next (b.pool r.array).cookieList (refs t i) := by
    refine hbuilt.list.congr fun x hx => ?_
    have hne : x ≠ r := fun heq => hnew (heq ▸ hx)
    simp only [Ar.next, hother x hne]
  have hfurnished : Furnished t m (i+1) b := by
    intro j hj
    by_cases hji : j = i
    · subst hji
      exact ⟨hpool, by rw [hcookie]⟩
    · have hne : (⟨t, j⟩ : CookieRef) ≠ r := fun heq => hji (congrArg CookieRef.index heq)
      rw [hother _ hne]
      exact hbuilt.furnished j (by omega)
  have hsame : Same t ar b := by
    refine ⟨rfl, fun u _ => rfl, fun x hx => hother x fun heq => hx (by rw [heq])⟩
  refine ⟨⟨?_, freeCookie_links hpool hmem hm hlist hnew, ?_,
    freeCookie_furnished hpool hmem hm hfurnished⟩, ?_, ?_⟩
  · exact freeCookie_array.1.trans hmem
  · have hcount : (b.pool r.array).cookieCount = i := hbuilt.count
    have hsucc := freeCookie_count hpool hmem hm
    rw [hcount, u32Succ_of_lt hi] at hsucc
    exact hsucc
  · exact freeCookie_heap hpool hmem hm
  · exact hsame.trans (freeCookie_same hpool hmem hm)

end Fill

theorem poolFill_granted {grant : Nat → Bool} {t : CookieType} {m k i a : Nat} {ar : Ar}
    (hbuilt : Built t m i ar) (hheap : ar.heap = { asked := a, blocks := m+1+i })
    (hnum : i+k<2^32) (hg : ∀ j, j<k → grant (a+j) = true) :
    ∃ ar', poolFill grant t k i ar = (none, ar') ∧ Built t m (i+k) ar' ∧
      ar'.heap = { asked := a+k, blocks := m+1+(i+k) } ∧ Same t ar ar' := by
  induction k generalizing i a ar with
  | zero => exact ⟨ar, rfl, hbuilt, hheap, rfl, fun _ _ => rfl, fun _ _ => rfl⟩
  | succ k ih =>
    have hga : grant a = true := by simpa using hg 0 (Nat.succ_pos k)
    obtain ⟨hbuilt', hheap', hsame⟩ := built_step hbuilt hheap hga (by omega)
    have hsome : (fillCookie grant t i ar).1.isSome = true := by
      simp [fillCookie_granted hbuilt hheap hga]
    obtain ⟨ar', hfill, hb, hh, hs⟩ := ih hbuilt' hheap' (by omega) fun j hj => by
      simpa [Nat.add_assoc, Nat.add_comm 1 j] using hg (j+1) (by omega)
    refine ⟨ar', ?_, ?_, ?_, hsame.trans hs⟩
    · rw [poolFill]
      simpa [hsome] using hfill
    · rwa [Nat.add_assoc, Nat.add_comm 1 k] at hb
    · rw [hh]
      simp [Nat.add_comm, Nat.add_left_comm]

theorem poolFill_refused {grant : Nat → Bool} {t : CookieType} {m k i a j : Nat} {ar : Ar}
    (hbuilt : Built t m i ar) (hheap : ar.heap = { asked := a, blocks := m+1+i })
    (hnum : i+k<2^32) (hj : j<k) (hg : grant (a+j) = false) :
    (poolFill grant t k i ar).1.isSome = true := by
  induction k generalizing i a j ar with
  | zero => omega
  | succ k ih =>
    rw [poolFill]
    cases hga : grant a with
    | false =>
      have hnone := fillCookie_refused hbuilt hheap hga
      simp [hnone]
    | true =>
      obtain ⟨hbuilt', hheap', -⟩ := built_step hbuilt hheap hga (by omega)
      have hsome : (fillCookie grant t i ar).1.isSome = true := by
        simp [fillCookie_granted hbuilt hheap hga]
      obtain ⟨j, rfl⟩ : ∃ n, j = n+1 := by
        cases j with
        | zero => simp [hga] at hg
        | succ n => exact ⟨n, rfl⟩
      have hrest := ih hbuilt' hheap' (by omega) (Nat.lt_of_succ_lt_succ hj)
        (by simpa [Nat.add_assoc, Nat.add_comm 1 j] using hg)
      simpa [hsome] using hrest

section Pool
variable {grant : Nat → Bool} {a m : Nat} {ar : Ar}
  (hheap : ar.heap = { asked := a, blocks := m }) (t : CookieType) (num : Nat)
include hheap

theorem allocArray_granted (hg : grant a = true) :
    (allocArray grant t num ar).1 = some m ∧ Built t m 0 (allocArray grant t num ar).2 ∧
    (allocArray grant t num ar).2.heap = { asked := a+1, blocks := m+1 } ∧
    ((allocArray grant t num ar).2.pool t).cookieNum = num ∧
    (∀ u, u ≠ t → (allocArray grant t num ar).2.pool u = ar.pool u) ∧
    ∀ r, r.array ≠ t → (allocArray grant t num ar).2.cookie r = ar.cookie r := by
  have halloc : ar.heap.alloc grant = (some m, { asked := a+1, blocks := m+1 }) := by
    simp [hheap, Heap.alloc, hg]
  refine ⟨by simp [allocArray, halloc], ⟨?_, ?_, ?_, ?_⟩, by simp [allocArray, halloc],
    by simp [allocArray], fun u hu => ?_, fun r hr => ?_⟩
  · simp [allocArray, halloc]
  · simp [allocArray, refs]
  · simp [allocArray]
  · intro i hi
    exact absurd hi (Nat.not_lt_zero i)
  · exact setPool_pool_of_ne hu
  · simp [allocArray, hr]

theorem poolInit_granted (hnum : num<2^32) (hg : ∀ j, j<num+1 → grant (a+j) = true) :
    ∃ ar', poolInit grant t num ar = (none, ar') ∧ Built t m num ar' ∧
      ar'.heap = { asked := a+(num+1), blocks := m+(num+1) } ∧ (ar'.pool t).cookieNum = num ∧
      (∀ u, u ≠ t → ar'.pool u = ar.pool u) ∧ ∀ r, r.array ≠ t → ar'.cookie r = ar.cookie r := by
  obtain ⟨hmem, hbuilt, hheap', hcookies, hpool, hcookie⟩ :=
    allocArray_granted hheap t num (by simpa using hg 0 (Nat.succ_pos num))
  obtain ⟨ar', hfill, hb, hh, hs⟩ :=
    poolFill_granted (k := num) hbuilt hheap' (by omega) fun j hj => by
      simpa [Nat.add_assoc, Nat.add_comm 1 j] using hg (j+1) (by omega)
  refine ⟨resetStats t ar', ?_, ⟨?_, ?_, ?_, ?_⟩, ?_, ?_, fun u hu => ?_, fun r hr => ?_⟩
  · simp [poolInit, hmem, hfill]
  · simpa [resetStats] using hb.mem
  · have hlist := hb.list
    rw [Nat.zero_add] at hlist
    simpa [resetStats] using hlist
  · simpa [resetStats] using hb.count
  · have hf := hb.furnished
    rw [Nat.zero_add] at hf
    exact hf
  · simp [resetStats, hh, Nat.add_assoc, Nat.add_comm 1 num]
  · simpa [resetStats, hs.num] using hcookies
  · rw [resetStats, setPool_pool_of_ne hu, hs.pool u hu, hpool u hu]
  · exact (hs.cookie r hr).trans (hcookie r hr)

theorem poolInit_refused (hnum : num<2^32) {j : Nat} (hj : j<num+1) (hg : grant (a+j) = false) :
    (poolInit grant t num ar).1.isSome = true := by
  rw [poolInit]
  cases hga : grant a with
  | false =>
    have hnone : (allocArray grant t num ar).1 = none := by
      simp [allocArray, hheap, Heap.alloc, hga]
    simp [hnone]
  | true =>
    obtain ⟨hmem, hbuilt, hheap', -⟩ := allocArray_granted hheap t num hga
    obtain ⟨j, rfl⟩ : ∃ n, j = n+1 := by
      cases j with
      | zero => simp [hga] at hg
      | succ n => exact ⟨n, rfl⟩
    have hfill := poolFill_refused hbuilt hheap' (by omega) (Nat.lt_of_succ_lt_succ hj)
      (by simpa [Nat.add_assoc, Nat.add_comm 1 j] using hg)
    simp [hmem, hfill]

end Pool

end Build

section Init

/-- Where the array of a pool is: the blocks are handed out in order. -/
def base : CookieType → Nat
  | .data => 0
  | .ctrl => cookieNum .data + 1

def requests : Nat := (cookieNum .data + 1) + (cookieNum .ctrl + 1)

/-- A pool in a run: its cookies are on its list or handed out, each once. -/
structure PoolGood (t : CookieType) (s : State) : Prop where
  num : (s.ar.pool t).cookieNum = cookieNum t
  mem : (s.ar.pool t).cookieMem = some (base t)
  furnished : Furnished t (base t) (cookieNum t) s.ar
  list : ∃ l, Links s.ar.next (s.ar.pool t).cookieList l ∧ (s.ar.pool t).cookieCount = l.length ∧
    l ++ s.out.filter (fun r => r.array = t) ~ refs t (cookieNum t)

structure Good (s : State) : Prop where
  pool : ∀ t, PoolGood t s
  heap : s.ar.heap = { asked := requests, blocks := requests }

theorem PoolGood.of_built {t : CookieType} {ar : Ar} (h : Built t (base t) (cookieNum t) ar)
    (hnum : (ar.pool t).cookieNum = cookieNum t) : PoolGood t { ar := ar } := by
  refine ⟨hnum, h.mem, h.furnished, refs t (cookieNum t), h.list, ?_, by simp⟩
  rw [h.count, length_refs]

theorem Built.transfer {t : CookieType} {m n : Nat} {ar ar' : Ar} (h : Built t m n ar)
    (hpool : ar'.pool t = ar.pool t) (hcookie : ∀ r, r.array = t → ar'.cookie r = ar.cookie r) :
    Built t m n ar' := by
  refine ⟨hpool ▸ h.mem, ?_, hpool ▸ h.count, fun i hi => ?_⟩
  · rw [hpool]
    refine h.list.congr fun r hr => ?_
    rw [Ar.next, hcookie r (mem_refs.mp hr).1]
    rfl
  · rw [hcookie ⟨t, i⟩ rfl]
    exact h.furnished i hi

theorem cookieInit_granted {grant : Nat → Bool} (hg : ∀ n, n<requests → grant n = true) :
    ∃ ar, cookieInit grant {} = (none, ar) ∧ Good { ar := ar } := by
  have hzero : ({} : Ar).heap = { asked := 0, blocks := 0 } := rfl
  have hgdata : ∀ j, j<cookieNum .data + 1 → grant (0+j) = true := by
    intro j hj
    exact hg (0+j) (by rw [requests]; omega)
  obtain ⟨ar, hdata, hb, hheap, hnum, -, -⟩ :=
    poolInit_granted hzero .data (cookieNum .data) (by decide) hgdata
  have hgctrl : ∀ j, j<cookieNum .ctrl + 1 → grant (0+(cookieNum .data + 1)+j) = true := by
    intro j hj
    exact hg _ (by rw [requests]; omega)
  obtain ⟨ar', hctrl, hb', hheap', hnum', hpool, hcookie⟩ :=
    poolInit_granted hheap .ctrl (cookieNum .ctrl) (by decide) hgctrl
  have hdata' : Built .data 0 (cookieNum .data) ar' := by
    refine hb.transfer (hpool .data (by decide)) fun r hr => hcookie r ?_
    rw [hr]
    decide
  refine ⟨ar', by simp [cookieInit, hdata, hctrl], fun t => ?_, ?_⟩
  · cases t with
    | data =>
      refine PoolGood.of_built hdata' ?_
      rw [hpool .data (by decide), hnum]
    | ctrl =>
      have hbase : base .ctrl = 0+(cookieNum .data + 1) := by decide
      refine PoolGood.of_built ?_ hnum'
      rw [hbase]
      exact hb'
  · simpa [requests] using hheap'

theorem cookieInit_refused {grant : Nat → Bool} {n : Nat} (hn : n<requests)
    (hg : grant n = false) : (cookieInit grant {}).1.isSome = true := by
  have hzero : ({} : Ar).heap = { asked := 0, blocks := 0 } := rfl
  rw [requests] at hn
  by_cases hall : ∀ j, j<cookieNum .data + 1 → grant (0+j) = true
  · obtain ⟨ar, hdata, -, hheap, -⟩ :=
      poolInit_granted hzero .data (cookieNum .data) (by decide) hall
    have hlate : cookieNum .data + 1 ≤ n := by
      by_contra hlt
      have hgn := hall n (by omega)
      simp [hg] at hgn
    obtain ⟨j, rfl⟩ := Nat.exists_eq_add_of_le hlate
    have hctrl := poolInit_refused hheap .ctrl (cookieNum .ctrl) (by decide)
      (show j<cookieNum .ctrl + 1 by omega) (by simpa using hg)
    simp [cookieInit, hdata, hctrl]
  · simp only [not_forall, Bool.not_eq_true] at hall
    obtain ⟨j, hj, hgj⟩ := hall
    have hdata := poolInit_refused hzero .data (cookieNum .data) (by decide) hj hgj
    simp [cookieInit, hdata]

end Init

section Runs

theorem filter_cons_self {t : CookieType} {r : CookieRef} (h : r.array = t)
    (out : List CookieRef) :
    (r::out).filter (fun x => x.array = t) = r::out.filter (fun x => x.array = t) := by
  simp [h]

theorem filter_cons_other {t : CookieType} {r : CookieRef} (h : r.array ≠ t)
    (out : List CookieRef) :
    (r::out).filter (fun x => x.array = t) = out.filter (fun x => x.array = t) := by
  simp [h]

section Pool
variable {t : CookieType} {s : State} (h : PoolGood t s)
include h

theorem PoolGood.mem_out {r : CookieRef} (hr : r∈s.out) (ht : r.array = t) :
    r.index<cookieNum t := by
  obtain ⟨l, -, -, hperm⟩ := h.list
  have hmem : r∈l ++ s.out.filter (fun x => x.array = t) :=
    List.mem_append_right l (List.mem_filter.mpr ⟨hr, by simpa using ht⟩)
  exact (mem_refs.mp (hperm.mem_iff.mp hmem)).2

theorem PoolGood.nodup_out : (s.out.filter fun r => r.array = t).Nodup := by
  obtain ⟨l, -, -, hperm⟩ := h.list
  exact (List.nodup_append.mp (hperm.nodup_iff.mpr (nodup_refs t _))).2.1

theorem PoolGood.transfer {s' : State} (hpool : s'.ar.pool t = s.ar.pool t)
    (hcookie : ∀ r, r.array = t → s'.ar.cookie r = s.ar.cookie r)
    (hout : s'.out.filter (fun r => r.array = t) ~ s.out.filter fun r => r.array = t) :
    PoolGood t s' := by
  obtain ⟨l, hl, hcount, hperm⟩ := h.list
  refine ⟨hpool ▸ h.num, hpool ▸ h.mem, fun i hi => ?_, l, ?_, hpool ▸ hcount,
    (hout.append_left l).trans hperm⟩
  · rw [hcookie ⟨t, i⟩ rfl]
    exact h.furnished i hi
  · rw [hpool]
    refine hl.congr fun r hr => ?_
    have harray := (mem_refs.mp (hperm.mem_iff.mp (List.mem_append_left _ hr))).1
    rw [Ar.next, hcookie r harray]
    rfl

end Pool

theorem u32Sub_of_le {n m : Nat} (hm : m ≤ n) (hn : n<2^32) : u32Sub n m = n-m := by
  rw [u32Sub]
  omega

theorem cookieNum_lt (t : CookieType) : cookieNum t<2^32 := by
  cases t <;> decide

theorem length_list_lt {t : CookieType} {l out : List CookieRef}
    (h : l ++ out ~ refs t (cookieNum t)) : l.length<2^32 := by
  have hlen := h.length_eq
  rw [List.length_append, length_refs] at hlen
  have hnum := cookieNum_lt t
  omega

theorem good_alloc_none {s : State} (h : Good s) {t : CookieType}
    (hlist : (s.ar.pool t).cookieList = none) : Good (step s (.alloc t)) := by
  let p := { s.ar.pool t with allocFailCnt := u32Succ (s.ar.pool t).allocFailCnt }
  have hstep : step s (.alloc t) = ⟨s.ar.setPool t p, s.out⟩ := by
    simp [step, allocCookie, hlist, p]
  rw [hstep]
  refine ⟨fun u => ?_, h.heap⟩
  by_cases hu : u = t
  · subst hu
    obtain ⟨l, hl, hcount, hperm⟩ := (h.pool u).list
    exact ⟨by simpa using (h.pool u).num, by simpa using (h.pool u).mem, (h.pool u).furnished,
      l, by simpa using hl, by simpa using hcount, hperm⟩
  · exact (h.pool u).transfer (setPool_pool_of_ne hu) (fun _ _ => rfl) (List.Perm.refl _)

theorem good_alloc_some {s : State} (h : Good s) {t : CookieType} {r : CookieRef}
    (hlist : (s.ar.pool t).cookieList = some r) : Good (step s (.alloc t)) := by
  have hpool := h.pool t
  obtain ⟨l, hl, hcount, hperm⟩ := hpool.list
  rw [hlist] at hl
  obtain ⟨ys, rfl, hys⟩ := hl.pop
  have harray : r.array = t := (mem_refs.mp (hperm.mem_iff.mp (by simp))).1
  have hmem : (s.ar.pool r.array).cookieMem = some (base t) := by rw [harray, hpool.mem]
  have htouch : s.ar.touch r = s.ar := touch_live hmem (by simp [h.heap])
  have hless : u32Sub (s.ar.pool t).cookieCount 1 = ys.length := by
    rw [hcount, u32Sub_of_le (by simp) (length_list_lt hperm)]
    simp
  have hout : (step s (.alloc t)).out = r::s.out := by simp [step, allocCookie, hlist]
  have hother : ∀ u, u ≠ t → (step s (.alloc t)).ar.pool u = s.ar.pool u := by
    intro u hu
    simp [step, allocCookie, hlist, htouch, setPool_pool_of_ne hu]
  have hcookie : (step s (.alloc t)).ar.cookie = s.ar.cookie := by
    simp [step, allocCookie, hlist]
  have hheap : (step s (.alloc t)).ar.heap = s.ar.heap := by
    simp [step, allocCookie, hlist, htouch]
  refine ⟨fun u => ?_, hheap.trans h.heap⟩
  by_cases hu : u = t
  · subst hu
    refine ⟨?_, ?_, fun i hi => ?_, ys, ?_, ?_, ?_⟩
    · simpa [step, allocCookie, hlist] using hpool.num
    · simpa [step, allocCookie, hlist] using hpool.mem
    · rw [hcookie]
      exact hpool.furnished i hi
    · simpa [step, allocCookie, hlist, htouch, Ar.next] using hys
    · simp [step, allocCookie, hlist, hless]
    · rw [hout, filter_cons_self harray]
      exact List.perm_middle.trans hperm
  · refine (h.pool u).transfer (hother u hu) (fun x _ => congrFun hcookie x) ?_
    rw [hout, filter_cons_other fun heq => hu (heq.symm.trans harray)]

theorem good_alloc {s : State} (h : Good s) (t : CookieType) : Good (step s (.alloc t)) := by
  cases hlist : (s.ar.pool t).cookieList with
  | none => exact good_alloc_none h hlist
  | some r => exact good_alloc_some h hlist

theorem good_free {s : State} (h : Good s) {r : CookieRef} (hr : r∈s.out) :
    Good (step s (.free r)) := by
  have hpool := h.pool r.array
  obtain ⟨l, hl, hcount, hperm⟩ := hpool.list
  have hindex := hpool.mem_out hr rfl
  have howner : (s.ar.cookie r).cookiePool = some r.array := (hpool.furnished r.index hindex).1
  have hlive : base r.array∉s.ar.heap.frees := by simp [h.heap]
  have hout : s.out ~ r::s.out.erase r := List.perm_cons_erase hr
  have hsame := freeCookie_same howner hpool.mem hlive
  refine ⟨fun t => ?_, (freeCookie_heap howner hpool.mem hlive).trans h.heap⟩
  by_cases ht : t = r.array
  · subst ht
    have hfilter : s.out.filter (fun x => x.array = r.array) ~
        r::(s.out.erase r).filter (fun x => x.array = r.array) := by
      have hf := hout.filter fun x => decide (x.array = r.array)
      rwa [filter_cons_self rfl] at hf
    have hnew : r::l ++ (s.out.erase r).filter (fun x => x.array = r.array) ~
        refs r.array (cookieNum r.array) :=
      ((hfilter.append_left l).trans List.perm_middle).symm.trans hperm
    have hnotin : r∉l := by
      have hnodup : (r::l).Nodup :=
        (List.nodup_append.mp (hnew.nodup_iff.mpr (nodup_refs _ _))).1
      exact (List.nodup_cons.mp hnodup).1
    have hlen : (r::l).length<2^32 := length_list_lt hnew
    refine ⟨hsame.num.trans hpool.num, freeCookie_array.1.trans hpool.mem,
      freeCookie_furnished howner hpool.mem hlive hpool.furnished, r::l,
      freeCookie_links howner hpool.mem hlive hl hnotin, ?_, hnew⟩
    have hsucc := freeCookie_count howner hpool.mem hlive
    rw [hcount, u32Succ_of_lt hlen] at hsucc
    exact hsucc
  · refine (h.pool t).transfer (hsame.pool t ht) (fun x hx => hsame.cookie x ?_) ?_
    · rw [hx]
      exact ht
    · have hf := hout.filter fun x => decide (x.array = t)
      rw [filter_cons_other (Ne.symm ht)] at hf
      exact hf.symm

theorem Good.nodup_out {s : State} (h : Good s) : s.out.Nodup := by
  rw [List.nodup_iff_count_le_one]
  intro r
  have hcount := List.nodup_iff_count_le_one.mp (h.pool r.array).nodup_out r
  rwa [List.count_filter (by simp)] at hcount

theorem good_run {s : State} (h : Good s) {es : List Event} (hl : AllSteps step Legal s es) :
    Good (run step s es) := by
  refine run_invariant_of (fun s e hs he => ?_) h hl
  cases e with
  | alloc t => exact good_alloc hs t
  | free r => exact good_free hs he

end Runs

section Cleanup

/-- The blocks of a pool, in the order in which a cleanup frees them. -/
def poolBlocks (m n : Nat) : List Nat := (List.range n).map (m+1+·) ++ [m]

theorem mem_poolBlocks {m n b : Nat} : b∈poolBlocks m n ↔ m ≤ b ∧ b ≤ m+n := by
  simp only [poolBlocks, List.mem_append, List.mem_map, List.mem_range, List.mem_singleton]
  constructor
  · rintro (⟨i, hi, rfl⟩ | rfl)
    · omega
    · omega
  · rintro ⟨hm, hb⟩
    by_cases heq : b = m
    · exact Or.inr heq
    · exact Or.inl ⟨b-(m+1), by omega, by omega⟩

theorem nodup_poolBlocks (m n : Nat) : (poolBlocks m n).Nodup := by
  refine List.nodup_append.mpr ⟨?_, List.nodup_singleton m, ?_⟩
  · exact List.nodup_range.map fun i j hij => by simpa using hij
  · intro a ha b hb
    obtain ⟨i, -, rfl⟩ := List.mem_map.mp ha
    rw [List.mem_singleton.mp hb]
    omega

theorem poolCleanup_heap {t : CookieType} {m n : Nat} {ar : Ar}
    (hnum : (ar.pool t).cookieNum = n) (hmem : (ar.pool t).cookieMem = some m)
    (hf : Furnished t m n ar) (hfaults : ar.heap.faults = [])
    (hlive : (ar.heap.frees ++ poolBlocks m n).Nodup) :
    (poolCleanup t ar).heap = { ar.heap with frees := ar.heap.frees ++ poolBlocks m n } := by
  have hpkts : ((List.range n).map fun i => (ar.cookie ⟨t, i⟩).htcPkt) =
      ((List.range n).map (m+1+·)).map some := by
    rw [List.map_map]
    exact List.map_congr_left fun i hi => (hf i (List.mem_range.mp hi)).2
  rw [poolBlocks, ← List.append_assoc] at hlive
  obtain ⟨hloop, -, hm⟩ := List.nodup_append.mp hlive
  have hout : m∉ar.heap.frees ++ (List.range n).map (m+1+·) := fun hmem =>
    hm m hmem m (List.mem_singleton_self m) rfl
  have heach := freeEach_live hfaults hloop hout
  have hlast := free_live (h := { ar.heap with
    frees := ar.heap.frees ++ (List.range n).map (m+1+·) }) hfaults hout
  simp only [poolCleanup, freePool, hnum, hmem, hpkts]
  rw [heach, hlast, poolBlocks, List.append_assoc]

theorem Good.released {s : State} (h : Good s) : (cookieCleanup s.ar).heap.Released := by
  have hdata := h.pool .data
  have hctrl := h.pool .ctrl
  have hdone : (poolCleanup .data s.ar).heap =
      { s.ar.heap with frees := s.ar.heap.frees ++ poolBlocks 0 (cookieNum .data) } := by
    refine poolCleanup_heap hdata.num hdata.mem hdata.furnished (by simp [h.heap]) ?_
    simpa [h.heap] using nodup_poolBlocks 0 (cookieNum .data)
  have hfrees : (poolCleanup .data s.ar).heap.frees = poolBlocks 0 (cookieNum .data) := by
    simp [hdone, h.heap]
  have hpool : (poolCleanup .data s.ar).pool .ctrl = s.ar.pool .ctrl :=
    poolCleanup_pool (by decide) s.ar
  have hnodup : (poolBlocks 0 (cookieNum .data) ++
      poolBlocks (base .ctrl) (cookieNum .ctrl)).Nodup := by
    refine List.nodup_append.mpr ⟨nodup_poolBlocks _ _, nodup_poolBlocks _ _, ?_⟩
    intro a ha b hb
    rw [mem_poolBlocks] at ha hb
    rw [base] at hb
    omega
  have hheap := poolCleanup_heap (t := .ctrl)
    ((congrArg Pool.cookieNum hpool).trans hctrl.num)
    ((congrArg Pool.cookieMem hpool).trans hctrl.mem) hctrl.furnished
    (by simp [hdone, h.heap]) (by rwa [hfrees])
  have hblocks : (cookieCleanup s.ar).heap.blocks = requests := by
    simp [cookieCleanup, hheap, hdone, h.heap]
  have hall : (cookieCleanup s.ar).heap.frees =
      poolBlocks 0 (cookieNum .data) ++ poolBlocks (base .ctrl) (cookieNum .ctrl) := by
    simp [cookieCleanup, hheap, hfrees]
  refine ⟨by simp [cookieCleanup, hheap, hdone, h.heap], ?_⟩
  rw [hall, hblocks]
  refine (List.perm_ext_iff_of_nodup hnodup List.nodup_range).mpr fun b => ?_
  rw [List.mem_append, mem_poolBlocks, mem_poolBlocks, List.mem_range, base, requests]
  omega

end Cleanup

section Properties

/-- An initialisation that fails has freed each block once, and done nothing it must not. -/
def FailureSafe (grant : Nat → Bool) : Prop :=
  (cookieInit grant {}).1 = some .enomem → (cookieInit grant {}).2.heap.Released

/-- In a state of a run: the count of a pool is the length of its list, no cookie is handed out
twice, and a cleanup would free each block once. -/
structure RunSound (s : State) : Prop where
  count : ∀ t, ∃ l, Links s.ar.next (s.ar.pool t).cookieList l ∧ l.Nodup ∧
    (s.ar.pool t).cookieCount = l.length
  out : s.out.Nodup
  cleanup : (cookieCleanup s.ar).heap.Released

/-- After an initialisation that succeeds, over any order of allocations and frees. -/
def SuccessSound (grant : Nat → Bool) : Prop :=
  (cookieInit grant {}).1 = none → ∀ es, AllSteps step Legal ⟨(cookieInit grant {}).2, []⟩ es →
    RunSound (run step ⟨(cookieInit grant {}).2, []⟩ es)

theorem Good.sound {s : State} (h : Good s) : RunSound s := by
  refine ⟨fun t => ?_, h.nodup_out, h.released⟩
  obtain ⟨l, hl, hcount, hperm⟩ := (h.pool t).list
  exact ⟨l, hl, (List.nodup_append.mp (hperm.nodup_iff.mpr (nodup_refs t _))).1, hcount⟩

theorem not_failureSafe {grant : Nat → Bool} {n : Nat} (hn : n<requests)
    (hg : grant n = false) : ¬FailureSafe grant := by
  have hsome := cookieInit_refused hn hg
  have hret : (cookieInit grant {}).1 = some .enomem := by
    obtain ⟨e, he⟩ := Option.isSome_iff_exists.mp hsome
    rw [he]
  intro hsafe
  exact cookieInit_faults hsome (hsafe hret).faults

/-- Of an initialisation that fails nothing is as it should be, and of one that succeeds
everything: the pools are safe exactly when every request is granted. -/
theorem cookie_pools_safe_iff (grant : Nat → Bool) :
    FailureSafe grant ∧ SuccessSound grant ↔ ∀ n, n<requests → grant n = true := by
  constructor
  · rintro ⟨hfail, -⟩ n hn
    by_contra hg
    exact not_failureSafe hn (by simpa using hg) hfail
  · intro hg
    obtain ⟨ar, hinit, hgood⟩ := cookieInit_granted hg
    refine ⟨fun h => ?_, fun _ es hes => ?_⟩
    · simp [hinit] at h
    · rw [hinit] at hes ⊢
      exact (good_run hgood hes).sound

/-- With the array refused a null pointer is used, and with the first packet refused the array is
freed twice. -/
theorem refused_faults :
    ¬FailureSafe (fun n => n != 0) ∧ ¬FailureSafe (fun n => n != 1) ∧
    Fault.stop∈(cookieInit (fun n => n != 0) {}).2.heap.faults ∧
    (cookieInit (fun n => n != 1) {}).2.heap.frees = [0, 0] := by
  have harray : ¬FailureSafe fun n => n != 0 := not_failureSafe (n := 0) (by decide) rfl
  have hpacket : ¬FailureSafe fun n => n != 1 := not_failureSafe (n := 1) (by decide) rfl
  exact ⟨harray, hpacket, by decide +kernel, by decide +kernel⟩

end Properties

end Ath6kl.CookiePool
