import Mathlib.Algebra.Group.Nat.Defs

/-!
# Little-endian numbers

A number as a fixed count of bytes, the lowest one first.
-/

namespace LittleEndian

/-- The `count` lowest bytes of a number. -/
def toBytes : (count : ℕ) → ℕ → List UInt8
  | 0, _ => []
  | count + 1, n => .ofNat n :: toBytes count (n / 256)

/-- The number that bytes stand for. -/
def toNat : List UInt8 → ℕ
  | [] => 0
  | b :: bytes => b.toNat + 256 * toNat bytes

variable {count n w : ℕ}

@[simp]
theorem length_toBytes : (toBytes count n).length = count := by
  induction count generalizing n with
  | zero => rfl
  | succ count ih => rw [toBytes, List.length_cons, ih]

/-- Reading the bytes back loses what did not fit. -/
theorem toNat_toBytes : toNat (toBytes count n) = n % 256 ^ count := by
  induction count generalizing n with
  | zero => rw [toBytes, toNat, Nat.pow_zero, Nat.mod_one]
  | succ count ih =>
    have hpow : 256 ^ (count + 1) = 256 * 256 ^ count := Nat.pow_succ'
    rw [toBytes, toNat, ih, UInt8.toNat_ofNat', hpow, Nat.mod_mul]

/-- A bit vector of whole bytes keeps what its bytes say. -/
theorem ofNat_toNat_toBytes (h : 2 ^ w = 256 ^ count) :
    BitVec.ofNat w (toNat (toBytes count n)) = BitVec.ofNat w n := by
  apply BitVec.eq_of_toNat_eq
  rw [BitVec.toNat_ofNat, BitVec.toNat_ofNat, toNat_toBytes, ← h, Nat.mod_mod]

end LittleEndian
