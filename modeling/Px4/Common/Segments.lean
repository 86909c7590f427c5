import Mathlib.Algebra.Order.Group.Nat

/-!
# Consecutive segments of slots

Segment `i` has `count i` slots of `width i` units each, and each segment begins where the one
before it ends. Different slots have no unit in common.
-/

namespace Segments

variable (count width : ℕ → ℕ)

def start : ℕ → ℕ
  | 0 => 0
  | i + 1 => start i + count i * width i

/-- Where slot `j` of segment `i` begins. -/
def slot (i j : ℕ) : ℕ := start count width i + j * width i

variable {count width}

theorem start_mono : Monotone (start count width) :=
  monotone_nat_of_le_succ fun _ => Nat.le_add_right ..

variable {i j j' n i' : ℕ}

theorem slot_succ : slot count width i (j + 1) = slot count width i j + width i := by
  rw [slot, slot, Nat.succ_mul, Nat.add_assoc]

theorem slot_end_le_slot (h : j < j') : slot count width i j + width i ≤ slot count width i j' := by
  rw [← slot_succ]
  exact Nat.add_le_add_left (Nat.mul_le_mul_right _ h) _

theorem slot_end_le_start (hj : j < count i) (hi : i < n) :
    slot count width i j + width i ≤ start count width n :=
  (slot_end_le_slot hj).trans (start_mono (Nat.succ_le_of_lt hi))

theorem start_le_slot : start count width i ≤ slot count width i j :=
  Nat.le_add_right ..

theorem slots_disjoint (hj : j < count i) (hj' : j' < count i') (hne : i ≠ i' ∨ j ≠ j') :
    slot count width i j + width i ≤ slot count width i' j' ∨
      slot count width i' j' + width i' ≤ slot count width i j := by
  rcases Nat.lt_trichotomy i i' with hlt | rfl | hlt
  · exact .inl ((slot_end_le_start hj hlt).trans (start_le_slot ..))
  · rcases Nat.lt_or_gt_of_ne (hne.resolve_left (absurd rfl)) with hlt | hlt
    · exact .inl (slot_end_le_slot hlt)
    · exact .inr (slot_end_le_slot hlt)
  · exact .inr ((slot_end_le_start hj' hlt).trans (start_le_slot ..))

end Segments
