import Mathlib.Data.List.Basic

/-! Threads over a shared state. A thread is its program counter; what an operation still
has to do is an obligation on program counters. -/
namespace Lib.Interleave
variable {σ π ι : Type*}

/-- A shared state and the threads at work on it. -/
structure Sys (σ π : Type*) where
  shared : σ
  threads : List π

/-- Thread `i` takes its next step. -/
def Sys.next (move : σ → π → ι → σ × π) (s : Sys σ π) (i : Nat) (x : ι) : Sys σ π :=
  match s.threads[i]? with
  | none => s
  | some p =>
    let m := move s.shared p x
    ⟨m.1, s.threads.set i m.2⟩

/-- A new thread. -/
def Sys.spawn (s : Sys σ π) (p : π) : Sys σ π := ⟨s.shared, s.threads ++ [p]⟩

theorem Sys.next_some (move : σ → π → ι → σ × π) {s : Sys σ π} {i : Nat} {p : π}
    (h : s.threads[i]? = some p) (x : ι) :
    s.next move i x = ⟨(move s.shared p x).1, s.threads.set i (move s.shared p x).2⟩ := by
  simp [Sys.next, h]

/-- Whenever the shared state is `Bad`, some thread is obliged to mend it. -/
def Covered (Bad : σ → Prop) (Obliged : π → Prop) (s : Sys σ π) : Prop :=
  Bad s.shared → ∃ p∈s.threads, Obliged p

/-- What a move has to respect: it leaves the shared state good, or it is obliged itself, or
the state was bad already and the duty was not its own. -/
def Respects (Bad : σ → Prop) (Obliged : π → Prop) (sh : σ) (p : π) (m : σ × π) : Prop :=
  Bad m.1 → Obliged m.2 ∨ (Bad sh ∧ ¬ Obliged p)

theorem Covered.next {Bad : σ → Prop} {Obliged : π → Prop} {s : Sys σ π}
    (h : Covered Bad Obliged s) {move : σ → π → ι → σ × π} {i : Nat} {x : ι}
    (hm : ∀ p, s.threads[i]? = some p → Respects Bad Obliged s.shared p (move s.shared p x)) :
    Covered Bad Obliged (s.next move i x) := by
  cases hp : s.threads[i]? with
  | none => simpa [Sys.next, hp] using h
  | some p =>
    rw [Sys.next_some move hp]
    intro hbad
    have hi : i < s.threads.length := (List.getElem?_eq_some_iff.mp hp).1
    cases hm p hp hbad with
    | inl hown => exact ⟨_, List.mem_set hi _, hown⟩
    | inr hold =>
      obtain ⟨q, hq, hobl⟩ := h hold.1
      obtain ⟨j, hj⟩ := List.getElem?_of_mem hq
      have hne : i ≠ j := by
        rintro rfl
        rw [hp] at hj
        exact hold.2 (Option.some.inj hj ▸ hobl)
      refine ⟨q, List.mem_of_getElem? (i := j) ?_, hobl⟩
      rw [List.getElem?_set_ne hne]
      exact hj

theorem Covered.spawn {Bad : σ → Prop} {Obliged : π → Prop} {s : Sys σ π}
    (h : Covered Bad Obliged s) (p : π) : Covered Bad Obliged (s.spawn p) := by
  intro hbad
  obtain ⟨q, hq, hobl⟩ := h hbad
  exact ⟨q, List.mem_append_left _ hq, hobl⟩

/-- A change from outside that makes nothing bad. -/
theorem Covered.outside {Bad : σ → Prop} {Obliged : π → Prop} {s : Sys σ π} {sh : σ}
    (h : Covered Bad Obliged s) (hsh : Bad sh → Bad s.shared) :
    Covered Bad Obliged ⟨sh, s.threads⟩ := fun hbad => h (hsh hbad)

/-- After thread `i` has moved, it is obliged or another one is. -/
theorem covered_set_iff {Bad : σ → Prop} {Obliged : π → Prop} {sh : σ} {threads : List π} {i : Nat}
    (hi : i < threads.length) (p : π) :
    Covered Bad Obliged ⟨sh, threads.set i p⟩ ↔
      (Bad sh → Obliged p ∨ ∃ j q, j ≠ i ∧ threads[j]? = some q ∧ Obliged q) := by
  refine forall_congr' fun _ => ⟨?_, ?_⟩
  · rintro ⟨q, hq, hobl⟩
    obtain ⟨j, hj⟩ := List.getElem?_of_mem hq
    by_cases hji : j = i
    · subst hji
      rw [List.getElem?_set_self hi] at hj
      exact Or.inl (Option.some.inj hj ▸ hobl)
    · rw [List.getElem?_set_ne (Ne.symm hji)] at hj
      exact Or.inr ⟨j, q, hji, hj, hobl⟩
  · rintro (hobl | ⟨j, q, hji, hj, hobl⟩)
    · exact ⟨p, List.mem_set hi _, hobl⟩
    · refine ⟨q, List.mem_of_getElem? (i := j) ?_, hobl⟩
      rwa [List.getElem?_set_ne (Ne.symm hji)]

/-- At rest nobody is obliged, so nothing is bad. -/
theorem Covered.good {Bad : σ → Prop} {Obliged : π → Prop} {s : Sys σ π}
    (h : Covered Bad Obliged s) (hrest : ∀ p∈s.threads, ¬ Obliged p) : ¬ Bad s.shared := by
  intro hbad
  obtain ⟨p, hp, hobl⟩ := h hbad
  exact hrest p hp hobl

/-- A thread goes its way alone, and the same way whatever its moves are told. -/
inductive Alone (move : σ → π → ι → σ × π) : σ → π → σ → π → Prop
  | here (s : σ) (p : π) : Alone move s p s p
  | move {s s' : σ} {p p' : π} {t : σ} {q : π} :
      (∀ x, move s p x = (s', p')) → Alone move s' p' t q → Alone move s p t q

theorem Alone.trans {move : σ → π → ι → σ × π} {s t u : σ} {p q r : π}
    (h : Alone move s p t q) (hr : Alone move t q u r) : Alone move s p u r := by
  induction h with
  | here => exact hr
  | move hm _ ih => exact .move hm (ih hr)

/-- In a system whose other threads wait. -/
theorem Alone.next {move : σ → π → ι → σ × π} {s t : σ} {p q : π} (h : Alone move s p t q)
    {threads : List π} {i : Nat} (hi : threads[i]? = some p) :
    ∃ n, ∀ xs : List ι, xs.length = n →
      xs.foldl (fun sys => Sys.next move sys i) ⟨s, threads⟩ = ⟨t, threads.set i q⟩ := by
  induction h generalizing threads with
  | here s p =>
    refine ⟨0, fun xs hxs => ?_⟩
    obtain ⟨hlt, rfl⟩ := List.getElem?_eq_some_iff.mp hi
    rw [List.length_eq_zero_iff.mp hxs, List.set_getElem_self]
    rfl
  | @move s s' p p' t q hm _ ih =>
    have hlt := (List.getElem?_eq_some_iff.mp hi).1
    obtain ⟨n, hn⟩ := ih (List.getElem?_set_self hlt)
    refine ⟨n+1, fun xs hxs => ?_⟩
    obtain ⟨x, ys, rfl⟩ := List.exists_cons_of_length_eq_add_one hxs
    rw [List.foldl_cons, Sys.next_some move hi, hm, hn ys (Nat.succ.inj hxs), List.set_set]

end Lib.Interleave
