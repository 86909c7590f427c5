import Mathlib.Data.Nat.Notation
import Mathlib.Tactic.SplitIfs

/-!
# Positions on a ring

The slots of a ring of `n` slots are counted from a slot `u` on; `dist n u i` says how many steps
lead from `u` to `i`.
-/

namespace Ring

/-- The number of steps from `u` to `i`. -/
def dist (n u i : ℕ) : ℕ := if u ≤ i then i - u else i + n - u

variable {n u i k : ℕ}

theorem add_mod (hu : u < n) (hk : k ≤ n) :
    (u + k) % n = if u + k < n then u + k else u + k - n := by
  split_ifs with h
  · exact Nat.mod_eq_of_lt h
  · rw [Nat.mod_eq_sub_mod (Nat.le_of_not_lt h), Nat.mod_eq_of_lt (by omega)]

theorem add_mod_lt (hu : u < n) : (u + k) % n < n :=
  Nat.mod_lt _ (by omega)

theorem dist_self : dist n u u = 0 := by
  unfold dist
  rw [if_pos (Nat.le_refl u), Nat.sub_self]

variable (hu : u < n)
include hu

theorem dist_eq_zero_iff : dist n u i = 0 ↔ i = u := by
  unfold dist
  split_ifs <;> omega

theorem dist_add_mod (hk : k < n) : dist n u ((u + k) % n) = k := by
  rw [add_mod hu (Nat.le_of_lt hk)]
  unfold dist
  split_ifs <;> omega

theorem add_dist_mod (hi : i < n) : (u + dist n u i) % n = i := by
  have hle : dist n u i ≤ n := by
    unfold dist
    split_ifs <;> omega
  rw [add_mod hu hle]
  unfold dist
  split_ifs <;> omega

/-- Seen from the next slot, every other slot is one step closer. -/
theorem dist_succ (hi : i < n) :
    dist n ((u + 1) % n) i = if i = u then n - 1 else dist n u i - 1 := by
  rw [add_mod hu (by omega)]
  unfold dist
  split_ifs <;> omega

variable {c : ℕ}

theorem exists_offset_iff (hc : c ≤ n) : (∃ k < c, i = (u + k) % n) ↔ i < n ∧ dist n u i < c := by
  refine ⟨?_, fun ⟨hi, hdist⟩ => ⟨dist n u i, hdist, (add_dist_mod hu hi).symm⟩⟩
  rintro ⟨k, hk, rfl⟩
  exact ⟨add_mod_lt hu, by rwa [dist_add_mod hu (Nat.lt_of_lt_of_le hk hc)]⟩

end Ring
