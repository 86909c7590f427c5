import Mathlib.Data.List.GetD

/-!
# NOR flash

Memory that is read by address. Programming can only clear bits, erasing sets all bits of a range.
What is programmed into a blank range can be read back.
-/

/-- A byte for every address. -/
abbrev NorFlash := ℕ → UInt8

namespace NorFlash

open List

variable (f g : NorFlash) (addr : ℕ)

def bytes (count : ℕ) : List UInt8 := (range count).map fun i => f (addr + i)

/-- Program data: every bit that is zero in the data becomes zero. -/
def program (data : List UInt8) : NorFlash := fun a =>
  if addr ≤ a ∧ a < addr + data.length then f a &&& data.getD (a - addr) 0 else f a

def erase (size : ℕ) : NorFlash := fun a => if addr ≤ a ∧ a < addr + size then 0xff else f a

/-- The data lies at the address. -/
def Holds (data : List UInt8) : Prop := f.bytes addr data.length = data

def Blank (size : ℕ) : Prop := ∀ a, addr ≤ a → a < addr + size → f a = 0xff

/-- Nothing has changed in a range. -/
def SameOn (size : ℕ) : Prop := ∀ a, addr ≤ a → a < addr + size → g a = f a

def Disjoint (addr size addr' size' : ℕ) : Prop := addr + size ≤ addr' ∨ addr' + size' ≤ addr

variable {f g addr}

@[simp]
theorem length_bytes (f : NorFlash) (addr count) : (f.bytes addr count).length = count := by
  rw [bytes, length_map, length_range]

variable {m n size addr' size' : ℕ} {data data' : List UInt8}

theorem bytes_add : f.bytes addr (m + n) = f.bytes addr m ++ f.bytes (addr + m) n := by
  unfold bytes
  rw [range_add, map_append, map_map]
  congr 1
  exact map_congr_left fun i _ => by rw [Function.comp_apply, Nat.add_assoc]

theorem holds_append :
    f.Holds addr (data ++ data') ↔ f.Holds addr data ∧ f.Holds (addr + data.length) data' := by
  unfold Holds
  rw [length_append, bytes_add]
  constructor
  · exact fun h => append_inj h (length_bytes ..)
  · rintro ⟨h, h'⟩
    rw [h, h']

theorem holds_iff : f.Holds addr data ↔ ∀ i, (hi : i < data.length) → f (addr + i) = data[i] := by
  constructor
  · intro h i hi
    have hget := getElem_of_eq h (by rwa [length_bytes])
    simpa [bytes] using hget
  · intro h
    apply ext_getElem (length_bytes ..)
    intro i hi hi'
    simpa [bytes] using h i hi'

theorem SameOn.bytes (h : f.SameOn g addr size) : g.bytes addr size = f.bytes addr size := by
  apply map_congr_left
  intro i hi
  exact h _ (Nat.le_add_right ..) (Nat.add_lt_add_left (mem_range.mp hi) _)

theorem SameOn.holds (h : f.SameOn g addr data.length) (hholds : f.Holds addr data) :
    g.Holds addr data :=
  h.bytes.trans hholds

theorem SameOn.blank (h : f.SameOn g addr size) (hblank : f.Blank addr size) : g.Blank addr size :=
  fun a hle hlt => (h a hle hlt).trans (hblank a hle hlt)

theorem SameOn.mono (h : f.SameOn g addr size) (hle : addr ≤ addr')
    (hend : addr' + size' ≤ addr + size) : f.SameOn g addr' size' :=
  fun a ha hlt => h a (by omega) (by omega)

theorem Blank.mono (h : f.Blank addr size) (hle : addr ≤ addr')
    (hend : addr' + size' ≤ addr + size) : f.Blank addr' size' :=
  fun a ha hlt => h a (by omega) (by omega)

theorem Blank.bytes (h : f.Blank addr size) : f.bytes addr size = replicate size 0xff := by
  rw [eq_replicate_iff]
  refine ⟨length_bytes .., fun b hb => ?_⟩
  obtain ⟨i, hi, rfl⟩ := mem_map.mp hb
  exact h _ (Nat.le_add_right ..) (Nat.add_lt_add_left (mem_range.mp hi) _)

theorem program_nil : f.program addr [] = f := by
  funext a
  rw [program, if_neg]
  rw [length_nil]
  omega

theorem program_sameOn (h : Disjoint addr data.length addr' size) :
    f.SameOn (f.program addr data) addr' size := by
  intro a hle hlt
  rw [program, if_neg]
  unfold Disjoint at h
  omega

theorem erase_sameOn (h : Disjoint addr size addr' size') :
    f.SameOn (f.erase addr size) addr' size' := by
  intro a hle hlt
  rw [erase, if_neg]
  unfold Disjoint at h
  omega

theorem erase_blank : (f.erase addr size).Blank addr size :=
  fun _ hle hlt => if_pos ⟨hle, hlt⟩

/-- What is programmed into a blank range is there. -/
theorem Blank.program (h : f.Blank addr data.length) : (f.program addr data).Holds addr data := by
  rw [holds_iff]
  intro i hi
  have hlt : addr + i < addr + data.length := Nat.add_lt_add_left hi _
  rw [NorFlash.program, if_pos ⟨Nat.le_add_right .., hlt⟩, h _ (Nat.le_add_right ..) hlt,
    Nat.add_sub_cancel_left, getD_eq_getElem _ _ hi]
  exact UInt8.neg_one_and

theorem program_zeros (f : NorFlash) (addr count) :
    (f.program addr (replicate count 0)).Holds addr (replicate count 0) := by
  rw [holds_iff]
  intro i hi
  have hlt : addr + i < addr + (replicate count (0 : UInt8)).length :=
    Nat.add_lt_add_left hi _
  rw [program, if_pos ⟨Nat.le_add_right .., hlt⟩, Nat.add_sub_cancel_left,
    getD_eq_getElem _ _ hi, getElem_replicate]
  exact UInt8.and_zero

end NorFlash
