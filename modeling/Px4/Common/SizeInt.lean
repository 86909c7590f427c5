import Mathlib.Algebra.Group.Int.Defs
import Mathlib.Algebra.Group.Nat.Defs

/-!
# Conversions between `size_t` and `int`

A `size_t` of 64 bits is truncated to an `int` of 32 bits; in the other direction the sign is
extended.
-/

namespace SizeInt

/-- `(int)` of a `size_t`. -/
def toInt (x : UInt64) : Int32 := x.toUInt32.toInt32

/-- `(size_t)` of an `int`. -/
def toSize (x : Int32) : UInt64 := x.toInt64.toUInt64

variable {x y : UInt64} {n : ℕ}

theorem toInt_toInt : (toInt x).toInt = Int.bmod x.toNat (2 ^ 32) := by
  have h : (toInt x).toInt = x.toUInt32.toBitVec.toInt := rfl
  rw [h, BitVec.toInt_eq_toNat_bmod, UInt32.toNat_toBitVec, UInt64.toNat_toUInt32,
    Int.natCast_emod, Int.emod_bmod]

theorem toNat_toSize (x) : ((toSize x).toNat : ℤ) = x.toInt % 2 ^ 64 := by
  have hnat : (toSize x).toNat = x.toInt64.toBitVec.toNat := rfl
  rw [← Int32.toInt_toInt64, ← Int64.toInt_toBitVec, BitVec.toInt_eq_toNat_bmod]
  have hmod := Int.bmod_emod (x := x.toInt64.toBitVec.toNat) (m := 2 ^ 64)
  omega

theorem toInt_of_lt (h : x.toNat < 2 ^ 31) : (toInt x).toInt = x.toNat := by
  rw [toInt_toInt, Int.bmod]
  split <;> omega

theorem toNat_toSize_of_nonneg {x : Int32}
    (h : 0 ≤ x.toInt) : ((toSize x).toNat : ℤ) = x.toInt := by
  have := x.toInt_lt
  rw [toNat_toSize]
  omega

theorem toInt_sub (hn : n < 2 ^ 31) (hx : x.toNat ≤ n) (hy : y.toNat ≤ n) :
    (toInt (x - y)).toInt = (x.toNat : ℤ) - y.toNat := by
  rw [toInt_toInt, UInt64.toNat_sub, Int.bmod]
  split <;> omega

end SizeInt
