import Mathlib.Data.List.Basic

/-!
# Queues that drop their oldest element

A queue of bounded length that never refuses an element: one that is full loses its oldest one.
Every property that passes to sublists survives such a loss.
-/

namespace DroppingQueue

variable {α : Type*}

/-- Append an element to a queue that holds at most `size`. -/
def push (size : ℕ) (queue : List α) (a : α) : List α :=
  (queue ++ [a]).drop (queue.length + 1 - size)

variable {size : ℕ} {queue : List α} {a b : α}

theorem push_sublist :
    (push size queue a).Sublist (queue ++ [a]) :=
  List.drop_sublist _ _

theorem mem_of_mem_push (h : b ∈ push size queue a) : b ∈ queue ∨ b = a := by
  have hb := push_sublist.subset h
  rw [List.mem_append, List.mem_singleton] at hb
  exact hb

end DroppingQueue
