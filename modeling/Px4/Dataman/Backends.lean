import Px4.Common.ByteFile
import Px4.Common.Segments
import Px4.Dataman.Task

/-!
# The backends of the dataman

The two implementations of the storage in `src/modules/dataman/dataman.cpp`, on a block of memory
and on a file. Both lay out the items one behind the other, as `task_main` computes it; each entry
is a header, whose first byte is the length of the data, and the data. The item of a request is a
number that may be out of range. The file has no input and output errors. The whole store fits in
memory, so that no offset comes near the bounds of an `int`.
-/

namespace Px4.Dataman

open DmItem

/-! ## The layout -/

/-- The items in the order of `dm_item_t`. -/
def DmItem.all : List DmItem :=
  [.safePoints0, .safePoints1, .safePointsState, .fencePoints0, .fencePoints1, .fencePointsState,
    .waypointsOffboard0, .waypointsOffboard1, .missionState, .compat]

/-- The item with a number, which is below `DM_KEY_NUM_KEYS`. -/
def DmItem.ofNumber (number : ℕ) : Option DmItem := all[number]?

def DmItem.number (item : DmItem) : ℕ := all.idxOf item

def sectorHdrSize : ℕ := 4

def perItemSizeWithHdr (item : DmItem) : ℕ := perItemSize item + sectorHdrSize

section Layout

variable (numMissionItems : ℕ)

/-- `g_per_item_max_index` by number. -/
def maxIndexAt (number : ℕ) : ℕ :=
  (ofNumber number).elim 0 (perItemMaxIndex numMissionItems)

/-- `g_per_item_size_with_hdr` by number. -/
def sizeWithHdrAt (number : ℕ) : ℕ := (ofNumber number).elim 0 perItemSizeWithHdr

def keyOffsets : ℕ → ℕ := Segments.start (maxIndexAt numMissionItems) sizeWithHdrAt

/-- `max_offset` of `task_main`. -/
def maxOffset : ℕ :=
  keyOffsets numMissionItems compat.number +
    perItemMaxIndex numMissionItems .compat * perItemSizeWithHdr .compat

def calculateOffset (number index : ℕ) : ℤ :=
  match ofNumber number with
  | none => -1
  | some item =>
    if index ≥ perItemMaxIndex numMissionItems item then -1
    else (keyOffsets numMissionItems number + index * perItemSizeWithHdr item : ℕ)

/-- What the functions on an entry check first: its offset, or the error that they return. -/
def checkAccess (number index count : ℕ) : Except ℤ ℕ :=
  match ofNumber number with
  | none => .error (-1)
  | some item =>
    let offset := calculateOffset numMissionItems number index
    if offset < 0 then .error (-1)
    else if count > perItemSizeWithHdr item - sectorHdrSize then .error (-Store.E2BIG)
    else .ok offset.toNat

end Layout

/-- The bytes of an entry: the length, three unused bytes and the data. -/
def entryBytes (buf : Bytes) : Bytes := UInt8.ofNat buf.length :: 0 :: 0 :: 0 :: buf

/-! ## Memory -/

/-- `dm_operations_data.ram`; the addresses are relative to `data`. -/
structure Ram where
  data : ByteMemory
  dataEnd : ℕ

/-- `_ram_initialize`, if there is memory. -/
def ramInitialize (numMissionItems : ℕ) : Ram where
  data := fun _ => 0
  dataEnd := maxOffset numMissionItems - 1

namespace Ram

variable (numMissionItems : ℕ) (ram : Ram)

/-- `_ram_write` of a buffer, all of which is to be written. -/
def write (number index : ℕ) (buf : Bytes) : Ram × ℤ :=
  match checkAccess numMissionItems number index buf.length with
  | .error e => (ram, e)
  | .ok offset =>
    if offset > ram.dataEnd then (ram, -1)
    else ({ ram with data := ram.data.store offset (entryBytes buf) }, buf.length)

/-- `_ram_read`, with the buffer of the caller after it. -/
def read (number index : ℕ) (buf : Bytes) (count : ℕ) : Bytes × ℤ :=
  match checkAccess numMissionItems number index count with
  | .error e => (buf, e)
  | .ok offset =>
    if offset > ram.dataEnd then (buf, -1)
    else
      let length := (ram.data offset).toNat
      if length > 0 then
        if length > count then (buf, -1)
        else (memcpy buf (ram.data.load (offset + sectorHdrSize) length) length, length)
      else (buf, length)

/-- The loop of `_ram_clear`: the memory and `result`, with the number of entries to come. -/
def clearLoop (dataEnd size : ℕ) : ℕ → ℕ → ByteMemory → ByteMemory × ℤ
  | 0, _, data => (data, 0)
  | n + 1, offset, data =>
    if offset > dataEnd then (data, -1)
    else clearLoop dataEnd size n (offset + size) (data.store offset [0])

/-- `_ram_clear`. -/
def clear (number : ℕ) : Ram × ℤ :=
  match ofNumber number with
  | none => (ram, -1)
  | some item =>
    let offset := calculateOffset numMissionItems number 0
    if offset < 0 then (ram, -1)
    else
      let r := clearLoop ram.dataEnd (perItemSizeWithHdr item)
        (perItemMaxIndex numMissionItems item) offset.toNat ram.data
      ({ ram with data := r.1 }, r.2)

end Ram

/-! ## File -/

namespace File

variable (numMissionItems : ℕ) (f : ByteFile)

/-- `_file_write` of a buffer, all of which is to be written. -/
def write (number index : ℕ) (buf : Bytes) : ByteFile × ℤ :=
  match checkAccess numMissionItems number index buf.length with
  | .error e => (f, e)
  | .ok offset => ((f.seek offset).write (entryBytes buf), buf.length)

/-- `_file_read`, with the caller's buffer after it; where nothing can be read the length is
zero. -/
def read (number index : ℕ) (buf : Bytes) (count : ℕ) : ByteFile × Bytes × ℤ :=
  match checkAccess numMissionItems number index count with
  | .error e => (f, buf, e)
  | .ok offset =>
    let buffer := (f.seek offset).read (count + sectorHdrSize)
    let length := (buffer.headD 0).toNat
    ((f.seek offset).afterRead (count + sectorHdrSize),
      if length > 0 then
        if length > count then (buf, -1)
        else (memcpy buf (buffer.drop sectorHdrSize) length, length)
      else (memcpy buf (List.replicate count 0) count, length))

/-- The loop of `_file_clear`, with the number of entries to come. -/
def clearLoop (size : ℕ) : ℕ → ℕ → ByteFile → ByteFile
  | 0, _, f => f
  | n + 1, offset, f =>
    match (f.seek offset).read 1 with
    | [] => f.seek offset
    | length :: _ =>
      clearLoop size n (offset + size)
        (if length ≠ 0 then (f.seek offset).write [0] else (f.seek offset).afterRead 1)

/-- `_file_clear`. -/
def clear (number : ℕ) : ByteFile × ℤ :=
  match ofNumber number with
  | none => (f, -1)
  | some item =>
    let offset := calculateOffset numMissionItems number 0
    if offset < 0 then (f, -1)
    else
      (clearLoop (perItemSizeWithHdr item) (perItemMaxIndex numMissionItems item) offset.toNat f, 0)

end File

/-! ## Operations -/

/-- A call of one of `dm_operations_t`; the `count` of a write is the length of its buffer. -/
inductive Op where
  | write (number index : ℕ) (buf : Bytes)
  | clear (number : ℕ)
  | read (number index : ℕ) (buf : Bytes) (count : ℕ)

def Op.number : Op → ℕ
  | .write number _ _ | .clear number | .read number _ _ _ => number

/-- What an operation returns, and the data that a read has copied. -/
structure Result where
  code : ℤ
  data : Bytes := []
deriving DecidableEq

def Ram.step (numMissionItems : ℕ) (ram : Ram) : Op → Ram × Result
  | .write number index buf =>
    let r := ram.write numMissionItems number index buf
    (r.1, { code := r.2 })
  | .clear number =>
    let r := ram.clear numMissionItems number
    (r.1, { code := r.2 })
  | .read number index buf count =>
    let r := ram.read numMissionItems number index buf count
    (ram, { code := r.2, data := r.1.take r.2.toNat })

def File.step (numMissionItems : ℕ) (f : ByteFile) : Op → ByteFile × Result
  | .write number index buf =>
    let r := File.write numMissionItems f number index buf
    (r.1, { code := r.2 })
  | .clear number =>
    let r := File.clear numMissionItems f number
    (r.1, { code := r.2 })
  | .read number index buf count =>
    let r := File.read numMissionItems f number index buf count
    (r.1, { code := r.2.2, data := r.2.1.take r.2.2.toNat })

end Px4.Dataman
