import Mathlib.Data.List.GetD

/-!
# Memory of bytes

A byte for every address. Data is stored from an address on, and a range is loaded again.
-/

/-- A byte for every address. -/
abbrev ByteMemory := ℕ → UInt8

namespace ByteMemory

open List

variable (m : ByteMemory) (addr : ℕ) (data : List UInt8)

def store : ByteMemory := fun a =>
  if addr ≤ a ∧ a < addr + data.length then data.getD (a - addr) 0 else m a

def load (count : ℕ) : List UInt8 := (range count).map fun i => m (addr + i)

variable {m addr data}

@[simp]
theorem length_load {m : ByteMemory} {addr count} : (m.load addr count).length = count := by
  simp [load]

theorem take_load {count k} (h : k ≤ count) : (m.load addr count).take k = m.load addr k := by
  rw [load, ← map_take, take_range, Nat.min_eq_left h, load]

theorem load_one : m.load addr 1 = [m addr] := rfl

theorem load_eq_iff :
    m.load addr data.length = data ↔ ∀ i, (hi : i < data.length) → m (addr + i) = data[i] := by
  constructor
  · intro h i hi
    have hget := getElem_of_eq h (by rwa [length_load])
    simpa [load] using hget
  · intro h
    apply ext_getElem (length_load ..)
    intro i _ hi
    simpa [load] using h i hi

variable {i a : ℕ} {b : UInt8} {rest : List UInt8}

theorem store_add (hi : i < data.length) : m.store addr data (addr + i) = data[i] := by
  rw [store, if_pos ⟨Nat.le_add_right .., Nat.add_lt_add_left hi _⟩, Nat.add_sub_cancel_left,
    getD_eq_getElem _ _ hi]

@[simp]
theorem store_cons_self : m.store addr (b :: rest) addr = b := by
  simp [store]

theorem store_outside (h : a < addr ∨ addr + data.length ≤ a) : m.store addr data a = m a := by
  rw [store, if_neg]
  omega

end ByteMemory
