import Mathlib.Data.List.Basic
import Mathlib.Data.List.TakeDrop

/-! A queue with a limit that pushes out its oldest entries, and its reader. Whatever leaves is
remembered, in order, with the way it left. -/
namespace Lib.Backlog
variable {α : Type*}

/-- `gone` tells of each entry that left whether the reader took it. -/
structure Fifo (α : Type*) where
  queue : List α := []
  gone : List (α × Bool) := []

variable {b : Fifo α}

/-- Every entry that ever came, in order. -/
def Fifo.all (b : Fifo α) : List α := b.gone.map Prod.fst ++ b.queue

/-- What the reader took, in order. -/
def Fifo.taken (b : Fifo α) : List α := (b.gone.filter Prod.snd).map Prod.fst

/-- The first entries leave. -/
def Fifo.leave (b : Fifo α) (front rest : List α) (read : Bool) : Fifo α :=
  ⟨rest, b.gone ++ front.map fun x => (x, read)⟩

def Fifo.push (b : Fifo α) (x : α) : Fifo α := { b with queue := b.queue ++ [x] }

theorem all_push (x : α) : (b.push x).all = b.all ++ [x] := by
  simp [Fifo.all, Fifo.push]

@[simp] theorem taken_push (x : α) : (b.push x).taken = b.taken := rfl

theorem all_leave {front rest : List α} (h : b.queue = front ++ rest) (read : Bool) :
    (b.leave front rest read).all = b.all := by
  simp [Fifo.all, Fifo.leave, h, Function.comp_def]

theorem taken_leave_true (front rest : List α) :
    (b.leave front rest true).taken = b.taken ++ front := by
  simp [Fifo.taken, Fifo.leave, List.filter_map, Function.comp_def]

theorem taken_leave_false (front rest : List α) : (b.leave front rest false).taken = b.taken := by
  simp [Fifo.taken, Fifo.leave, List.filter_map, Function.comp_def]

/-- What was read is in the order of arrival. -/
theorem taken_sublist (b : Fifo α) : b.taken.Sublist b.all :=
  (List.filter_sublist.map Prod.fst).trans (List.sublist_append_left _ _)

end Lib.Backlog
