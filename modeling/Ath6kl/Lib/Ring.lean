import Mathlib.Data.List.Basic

/-! Rings of nodes, each of which leads to the next and the last one back to the first, and a walk
that follows them until it is back or has made so many steps. -/
namespace Lib.Ring
variable {α : Type*} [DecidableEq α] (next : α → α) (first : α)

/-- The nodes of the walk. -/
def walk : Nat → α → List α
  | 0, _ => []
  | fuel+1, a => if next a = first then [a] else a::walk fuel (next a)

/-- The walk comes back. -/
def closes : Nat → α → Bool
  | 0, _ => false
  | fuel+1, a => next a = first || closes fuel (next a)

/-- From the head on along the list, and from its end to `first`. -/
def LeadsBack : List α → Prop
  | [] => False
  | [a] => next a = first
  | a::b::rest => next a = b ∧ LeadsBack (b::rest)

structure IsRing (ring : List α) : Prop where
  head : ring.head? = some first
  nodup : ring.Nodup
  back : LeadsBack next first ring

variable {next first}

/-- From `a` on the walk is what is left of the ring, and it comes back. -/
theorem walk_of_leadsBack {a : α} {rest : List α} (h : LeadsBack next first (a::rest))
    (hfirst : first∉rest) {fuel : Nat} (hf : rest.length<fuel) :
    walk next first fuel a = a::rest ∧ closes next first fuel a = true := by
  obtain ⟨n, rfl⟩ : ∃ n, fuel = n+1 := ⟨fuel-1, by omega⟩
  induction rest generalizing a n with
  | nil =>
    have hback : next a = first := h
    simp [walk, closes, hback]
  | cons b rest ih =>
    obtain ⟨hb, hrest⟩ := h
    have hne : b ≠ first := fun heq => hfirst (heq ▸ List.mem_cons_self)
    have hlen : rest.length<n := by simpa using hf
    obtain ⟨m, rfl⟩ : ∃ m, n = m+1 := ⟨n-1, by omega⟩
    obtain ⟨hwalk, hcloses⟩ := ih hrest (fun hmem => hfirst (List.mem_cons_of_mem b hmem)) m hlen
    rw [walk, closes, hb, if_neg hne, hwalk, hcloses]
    simp

/-- A walk of enough steps is once around a ring. -/
theorem IsRing.walk_eq {ring : List α} (h : IsRing next first ring) {fuel : Nat}
    (hf : ring.length ≤ fuel) :
    walk next first fuel first = ring ∧ closes next first fuel first = true := by
  obtain ⟨rest, rfl⟩ := List.head?_eq_some_iff.mp h.head
  exact walk_of_leadsBack h.back (List.nodup_cons.mp h.nodup).1 hf

end Lib.Ring
