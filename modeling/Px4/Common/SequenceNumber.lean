import Mathlib.Data.Nat.ModEq

/-!
# Sequence numbers of 16 bits

Number `i` has the name `nth base i`, which wraps around; among fewer than 65536 successive numbers
the name tells which one is meant.
-/

namespace SequenceNumber

/-- The name of number `i`, if `base` is the name of number 0. -/
def nth (base : UInt16) (i : ℕ) : UInt16 := base + UInt16.ofNat i

variable {base : UInt16} {i j : ℕ}

theorem nth_succ : nth base (i + 1) = nth base i + 1 := by
  rw [nth, UInt16.ofNat_add, ← UInt16.add_assoc]
  rfl

theorem nth_succ_sub_one : nth base (i + 1) - 1 = nth base i := by
  rw [nth_succ, UInt16.add_sub_cancel]

theorem nth_eq_iff_modEq : nth base i = nth base j ↔ i ≡ j [MOD 65536] := by
  unfold nth
  rw [UInt16.add_right_inj, UInt16.ofNat_eq_iff_mod_eq_toNat]
  rfl

theorem nth_injective (hij : i ≤ j) (hj : j < i + 65536) (h : nth base i = nth base j) : i = j := by
  have hdvd : 65536 ∣ j - i := (Nat.modEq_iff_dvd' hij).mp (nth_eq_iff_modEq.mp h)
  omega

end SequenceNumber
