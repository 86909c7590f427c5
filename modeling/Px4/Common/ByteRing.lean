import Mathlib.Data.Nat.ModEq
import Px4.Common.ByteMemory

/-!
# Rings of bytes

Data in a buffer of `n` bytes that continues at the beginning when it comes to the end. It is
appended and read in pieces that do not cross the end.
-/

namespace ByteRing

open ByteMemory

/-- The data lies in the buffer from `start` on, around the end. -/
def Holds (n : ℕ) (buffer : ByteMemory) (start : ℕ) (data : List UInt8) : Prop :=
  ∀ i, (hi : i < data.length) → buffer ((start + i) % n) = data[i]

variable {n start : ℕ} {buffer : ByteMemory} {data more : List UInt8}

theorem holds_nil (n buffer start) : Holds n buffer start [] :=
  nofun

variable (h : Holds n buffer start data)
include h

variable {start' count addr : ℕ}

theorem Holds.congr (hstart : start' ≡ start [MOD n]) : Holds n buffer start' data := by
  intro i hi
  rw [hstart.add_right i]
  exact h i hi

theorem Holds.drop (k) : Holds n buffer (start + k) (data.drop k) := by
  intro i hi
  rw [List.length_drop] at hi
  rw [List.getElem_drop, Nat.add_assoc]
  exact h (k + i) (by omega)

theorem Holds.load (hend : start + count ≤ n)
    (hcount : count ≤ data.length) : buffer.load start count = data.take count := by
  apply List.ext_getElem
  · simp [hcount]
  · intro i hi _
    rw [length_load] at hi
    have hbyte := h i (by omega)
    rw [Nat.mod_eq_of_lt (by omega)] at hbyte
    simpa [ByteMemory.load] using hbyte

/-- Data that is stored behind the data there is, up to the end of the buffer, and fits. -/
theorem Holds.store (haddr : addr ≡ start + data.length [MOD n])
    (hend : addr + more.length ≤ n) (hfits : data.length + more.length ≤ n) :
    Holds n (buffer.store addr more) start (data ++ more) := by
  intro i hi
  rw [List.length_append] at hi
  rcases Nat.lt_or_ge i data.length with hold | hnew
  · rw [List.getElem_append_left hold, store_outside]
    · exact h i hold
    · -- an old byte in the new range would be a full turn away from itself
      by_contra hinside
      obtain ⟨j, hj⟩ := Nat.exists_eq_add_of_le (m := addr) (n := (start + i) % n) (by omega)
      have hturn : i ≡ data.length + j [MOD n] := by
        apply Nat.ModEq.add_left_cancel' start
        rw [← Nat.add_assoc]
        exact (Nat.mod_modEq ..).symm.trans (hj ▸ haddr.add_right j)
      have hdvd := (Nat.modEq_iff_dvd' (by omega)).mp hturn
      have := Nat.le_of_dvd (by omega) hdvd
      omega
  · obtain ⟨j, rfl⟩ := Nat.exists_eq_add_of_le hnew
    have hplace : (start + (data.length + j)) % n = addr + j := by
      rw [← Nat.add_assoc, ← haddr.add_right j, Nat.mod_eq_of_lt (by omega)]
    rw [hplace, store_add (by omega)]
    simp

/-- Data that is stored over the first bytes, up to the end of the buffer. -/
theorem Holds.overwrite (hle : more.length ≤ data.length) (hn : data.length ≤ n)
    (hend : start + more.length ≤ n) :
    Holds n (buffer.store start more) start (more ++ data.drop more.length) := by
  intro i hi
  rw [List.length_append, List.length_drop] at hi
  rcases Nat.lt_or_ge i more.length with hnew | hold
  · rw [List.getElem_append_left hnew, Nat.mod_eq_of_lt (by omega), store_add hnew]
  rw [store_outside, h i (by omega)]
  · simp [hold]
  · rcases Nat.lt_or_ge (start + i) n with hlt | hge
    · rw [Nat.mod_eq_of_lt hlt]
      omega
    · rw [Nat.mod_eq_sub_mod hge, Nat.mod_eq_of_lt (by omega)]
      omega

end ByteRing
