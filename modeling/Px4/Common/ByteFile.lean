import Px4.Common.ByteMemory

/-!
# Files of bytes

A regular file behind a descriptor: its contents and the position at which the next call reads or
writes.
-/

/-- The contents of a file and the position in it. -/
structure ByteFile where
  bytes : List UInt8 := []
  position : ℕ := 0
deriving DecidableEq

namespace ByteFile

open List

variable (f : ByteFile) (data : List UInt8) (count : ℕ)

/-- `write` of all the data at the position; a gap behind the end is filled with zeros. -/
def write : ByteFile where
  bytes := f.bytes.take f.position ++ replicate (f.position - f.bytes.length) 0 ++ data
    ++ f.bytes.drop (f.position + data.length)
  position := f.position + data.length

/-- What `read` returns: up to `count` bytes. -/
def read : List UInt8 := (f.bytes.drop f.position).take count

def afterRead : ByteFile := { f with position := f.position + (f.read count).length }

/-- `lseek` from the beginning. -/
def seek (position : ℕ) : ByteFile := { f with position }

/-- What lies behind the position. -/
def remaining : List UInt8 := f.bytes.drop f.position

/-- The bytes by address, zero behind the end. -/
def image : ByteMemory := fun a => f.bytes.getD a 0

variable {f data}

theorem write_at_end (h : f.position = f.bytes.length) :
    f.write data = { bytes := f.bytes ++ data, position := (f.bytes ++ data).length } := by
  unfold write
  rw [h, take_length, Nat.sub_self, drop_eq_nil_of_le (Nat.le_add_right _ _),
    replicate_zero, append_nil, append_nil, length_append]

theorem write_at_start (h : f.position = 0) :
    (f.write data).bytes = data ++ f.bytes.drop data.length := by
  unfold write
  rw [h, Nat.zero_add, Nat.zero_sub, take_zero, replicate_zero, nil_append, nil_append]

variable {rest : List UInt8}

theorem read_of_remaining (h : f.remaining = data ++ rest) :
    f.read data.length = data ∧ (f.afterRead data.length).remaining = rest := by
  have hread : f.read data.length = data := by
    change f.remaining.take data.length = data
    rw [h, take_left]
  refine ⟨hread, ?_⟩
  change f.bytes.drop (f.position + (f.read data.length).length) = rest
  rw [hread, ← drop_drop]
  change f.remaining.drop data.length = rest
  rw [h, drop_left]

theorem length_write :
    (f.write data).bytes.length = max f.bytes.length (f.position + data.length) := by
  simp only [write, length_append, length_take, length_replicate, length_drop]
  omega

/-- Writing stores the data; a gap reads as zeros before and after. -/
theorem image_write : (f.write data).image = f.image.store f.position data := by
  have hlen : (f.bytes.take f.position ++
      replicate (f.position - f.bytes.length) 0).length = f.position := by
    simp only [length_append, length_take, length_replicate]
    omega
  funext a
  simp only [image, write, ByteMemory.store]
  rw [append_assoc _ data]
  rcases Nat.lt_or_ge a f.position with hbefore | hfrom
  · rw [if_neg (by omega), getD_append _ _ _ _ (by rwa [hlen])]
    rcases Nat.lt_or_ge a f.bytes.length with hin | hgap
    · rw [getD_append _ _ _ _ (by rw [length_take]; omega)]
      simp [hbefore]
    rw [getD_append_right _ _ _ _ (by rw [length_take]; omega),
      getD_eq_default _ _ hgap, getD_eq_getElem _ _ ?_, getElem_replicate]
    rw [length_take, length_replicate]
    omega
  · rw [getD_append_right _ _ _ _ (by rwa [hlen]), hlen]
    rcases Nat.lt_or_ge (a - f.position) data.length with hinside | hbehind
    · rw [getD_append _ _ _ _ hinside, if_pos (by omega)]
    rw [getD_append_right _ _ _ _ hbehind, if_neg (by omega)]
    simp only [getD_eq_getElem?_getD, getElem?_drop]
    congr 2
    omega

theorem headD_read {f : ByteFile} {position} (h : 0 < count) :
    ((f.seek position).read count).headD 0 = f.image position := by
  simp [read, seek, image, head?_take, Nat.pos_iff_ne_zero.mp h]

theorem load_image {addr count} (h : addr + count ≤ f.bytes.length) :
    f.image.load addr count = (f.bytes.drop addr).take count := by
  apply ext_getElem
  · simp only [ByteMemory.length_load, length_take, length_drop]
    omega
  · intro i hi _
    rw [ByteMemory.length_load] at hi
    have hlt : addr + i < f.bytes.length := by omega
    simp [ByteMemory.load, image, hlt]

end ByteFile
