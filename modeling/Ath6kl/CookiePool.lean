import Ath6kl.Lib.Blocks
import Mathlib.Algebra.Ring.Int.Defs
import Mathlib.Algebra.Ring.Nat
import Mathlib.Logic.Function.Basic

/-! The cookies of frames on their way to the target (main.c): two pools, each an array whose free
entries are linked to a list, and for each entry a packet of its own. -/
namespace Ath6kl.CookiePool
open Lib.Blocks

inductive CookieType where
  | data | ctrl
deriving DecidableEq

/-- `MAX_COOKIE_DATA_NUM` and `MAX_COOKIE_CTRL_NUM`. -/
def cookieNum : CookieType → Nat
  | .data => 400+40
  | .ctrl => 64+2

/-- A pointer to a cookie: the array that it is in, and its index. -/
structure CookieRef where
  array : CookieType
  index : Nat
deriving DecidableEq

/-- `ath6kl_cookie`. -/
structure Cookie where
  cookiePool : Option CookieType := none
  htcPkt : Option Nat := none
  arcListNext : Option CookieRef := none

/-- `ath6kl_cookie_pool`; `cookieMem`: the block of the array. -/
structure Pool where
  cookieNum : Nat := 0
  cookieList : Option CookieRef := none
  cookieCount : Nat := 0
  cookieMem : Option Nat := none
  allocCnt : Nat := 0
  allocFailCnt : Nat := 0
  freeCnt : Nat := 0
  peakCnt : Nat := 0

/-- `ar`: its pools, what the arrays hold, and the memory. -/
structure Ar where
  pool : CookieType → Pool := fun _ => {}
  cookie : CookieRef → Cookie := fun _ => {}
  heap : Heap := {}

namespace Ar
variable (ar : Ar)

def setPool (t : CookieType) (p : Pool) : Ar := { ar with pool := Function.update ar.pool t p }

def setCookie (r : CookieRef) (c : Cookie) : Ar :=
  { ar with cookie := Function.update ar.cookie r c }

def touch (r : CookieRef) : Ar := { ar with heap := ar.heap.access (ar.pool r.array).cookieMem }

end Ar

/-- A `u32` after a change by one. -/
def u32Succ (n : Nat) : Nat := (n+1) % 2^32
def u32Sub (n m : Nat) : Nat := (((n : Int) - m) % 2^32).toNat

/-- `ath6kl_free_cookie`; a cookie without a pool is a `BUG_ON`. -/
def freeCookie (r : CookieRef) (ar : Ar) : Ar :=
  let ar := ar.touch r
  match (ar.cookie r).cookiePool with
  | none => { ar with heap := ar.heap.fault .stop }
  | some t =>
    let p := ar.pool t
    (ar.setCookie r { ar.cookie r with arcListNext := p.cookieList }).setPool t
      { p with cookieList := some r, cookieCount := u32Succ p.cookieCount,
               freeCnt := u32Succ p.freeCnt }

/-- `ath6kl_alloc_cookie`. -/
def allocCookie (t : CookieType) (ar : Ar) : Option CookieRef × Ar :=
  let p := ar.pool t
  match p.cookieList with
  | some r =>
    let ar := ar.touch r
    let count := u32Sub p.cookieCount 1
    let alloced := u32Sub p.cookieNum count
    (some r, ar.setPool t
      { p with cookieList := (ar.cookie r).arcListNext, cookieCount := count,
               allocCnt := u32Succ p.allocCnt,
               peakCnt := if alloced > p.peakCnt then alloced else p.peakCnt })
  | none => (none, ar.setPool t { p with allocFailCnt := u32Succ p.allocFailCnt })

inductive Errno where
  | enomem
deriving DecidableEq

section Init

/-- The packets of the first `n` cookies are freed, and then the array. -/
def freePool (t : CookieType) (n : Nat) (ar : Ar) : Heap :=
  (freeEach (ar.pool t).cookieMem ar.heap
    ((List.range n).map fun i => (ar.cookie ⟨t, i⟩).htcPkt)).free (ar.pool t).cookieMem

/-- A cookie gets its pool, and its packet if the request for it is granted. -/
def fillCookie (grant : Nat → Bool) (t : CookieType) (i : Nat) (ar : Ar) : Option Nat × Ar :=
  let ar := ar.touch ⟨t, i⟩
  let pkt := ar.heap.alloc grant
  let c := { ar.cookie ⟨t, i⟩ with cookiePool := some t, htcPkt := pkt.1 }
  (pkt.1, { ar.setCookie ⟨t, i⟩ c with heap := pkt.2 })

/-- The loop of `ath6kl_cookie_pool_init` over the cookies from `i` on; `grant`: which requests for
memory are granted. -/
def poolFill (grant : Nat → Bool) (t : CookieType) : Nat → Nat → Ar → Option Errno × Ar
  | 0, _, ar => (none, ar)
  | k+1, i, ar =>
    let r := fillCookie grant t i ar
    if r.1.isSome then poolFill grant t k (i+1) (freeCookie ⟨t, i⟩ r.2)
    else (some .enomem, { r.2 with heap := freePool t i r.2 })

/-- The pool is reset, and its array is zeroed memory. -/
def allocArray (grant : Nat → Bool) (t : CookieType) (num : Nat) (ar : Ar) : Option Nat × Ar :=
  let mem := ar.heap.alloc grant
  let p := { ar.pool t with
    cookieNum := num, cookieList := none, cookieCount := 0, cookieMem := mem.1 }
  (mem.1, { ar.setPool t p with
    cookie := fun r => if mem.1.isSome ∧ r.array = t then {} else ar.cookie r
    heap := mem.2 })

def resetStats (t : CookieType) (ar : Ar) : Ar :=
  ar.setPool t { ar.pool t with allocCnt := 0, allocFailCnt := 0, freeCnt := 0, peakCnt := 0 }

/-- `ath6kl_cookie_pool_init`. -/
def poolInit (grant : Nat → Bool) (t : CookieType) (num : Nat) (ar : Ar) : Option Errno × Ar :=
  let mem := allocArray grant t num ar
  if mem.1.isSome then
    let r := poolFill grant t num 0 mem.2
    if r.1.isSome then r else (none, resetStats t r.2)
  else (some .enomem, mem.2)

/-- `ath6kl_cookie_pool_cleanup`. -/
def poolCleanup (t : CookieType) (ar : Ar) : Ar :=
  let p := ar.pool t
  { ar.setPool t { cookieNum := p.cookieNum } with heap := freePool t p.cookieNum ar }

/-- `ath6kl_cookie_cleanup`. -/
def cookieCleanup (ar : Ar) : Ar := poolCleanup .ctrl (poolCleanup .data ar)

/-- `ath6kl_cookie_init`. -/
def cookieInit (grant : Nat → Bool) (ar : Ar) : Option Errno × Ar :=
  let r := poolInit grant .data (cookieNum .data) ar
  if r.1.isSome then (some .enomem, cookieCleanup r.2)
  else
    let r := poolInit grant .ctrl (cookieNum .ctrl) r.2
    if r.1.isSome then (some .enomem, cookieCleanup r.2) else (none, r.2)

end Init

section Machine

/-- `out`: the cookies that are handed out. -/
structure State where
  ar : Ar
  out : List CookieRef := []

inductive Event where
  | alloc (t : CookieType)
  | free (r : CookieRef)

def step (s : State) : Event → State
  | .alloc t =>
    let r := allocCookie t s.ar
    { ar := r.2, out := r.1.toList ++ s.out }
  | .free r => { ar := freeCookie r s.ar, out := s.out.erase r }

/-- Only cookies that are handed out are freed. -/
def Legal (s : State) : Event → Prop
  | .alloc _ => True
  | .free r => r∈s.out

end Machine

end Ath6kl.CookiePool
