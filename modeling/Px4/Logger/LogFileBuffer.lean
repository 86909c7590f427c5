import Px4.Common.ByteRing
import Px4.Common.LittleEndian
import Px4.Common.SizeInt

/-!
# The buffer of a log file

`LogFileBuffer` of `src/modules/logger/log_writer_file.cpp`: a ring of bytes with a head and a
count, from which the writer thread reads the part up to the end of the memory at once.
`get_read_ptr` computes with an `int`, which is right for buffers smaller than `2 ^ 31`.
-/

namespace Px4.Logger

variable (b : LogFileBuffer)

open List Nat SizeInt UInt64

abbrev Bytes := List UInt8

/-- `LogFileBuffer` after `start_log`; `isOpen` stands for `_fd >= 0`. -/
structure LogFileBuffer where
  bufferSize : UInt64
  buffer : ByteMemory
  head : UInt64 := 0
  count : UInt64 := 0
  shouldRun : Bool := true
  isOpen : Bool := true

/-- What `get_read_ptr` returns; the pointer is an index of the buffer. -/
structure ReadPtr where
  ptr : Int32
  available : UInt64
  isPart : Bool

namespace LogFileBuffer

variable (b : LogFileBuffer)

def available : UInt64 := b.bufferSize - b.count

def writeNoCheck (data : Bytes) : LogFileBuffer :=
  let n := (b.bufferSize - b.head).toNat
  if data.length > n then
    -- the message goes over the end of the buffer
    { b with
      buffer := (b.buffer.store b.head.toNat (data.take n)).store 0 (data.drop n)
      head := ofNat (data.length - n) % b.bufferSize
      count := b.count + ofNat data.length }
  else
    { b with
      buffer := b.buffer.store b.head.toNat data
      head := (b.head + ofNat data.length) % b.bufferSize
      count := b.count + ofNat data.length }

def getReadPtr : ReadPtr :=
  let readPtr := SizeInt.toInt (b.head - b.count)
  if readPtr < 0 then
    let readPtr := SizeInt.toInt (SizeInt.toSize readPtr + b.bufferSize)
    ⟨readPtr, b.bufferSize - SizeInt.toSize readPtr, true⟩
  else ⟨readPtr, b.count, false⟩

def markRead (n : UInt64) : LogFileBuffer := { b with count := b.count - n }

/-- `close_file` and `reset`. -/
def close : LogFileBuffer := { b with head := 0, count := 0, isOpen := false }

end LogFileBuffer

@[simp]
theorem LogFileBuffer.bufferSize_writeNoCheck (data) :
    (b.writeNoCheck data).bufferSize = b.bufferSize := by
  simp only [LogFileBuffer.writeNoCheck]
  split_ifs <;> rfl

@[simp]
theorem LogFileBuffer.shouldRun_writeNoCheck (data) :
    (b.writeNoCheck data).shouldRun = b.shouldRun := by
  simp only [LogFileBuffer.writeNoCheck]
  split_ifs <;> rfl

@[simp]
theorem LogFileBuffer.isOpen_writeNoCheck (data) : (b.writeNoCheck data).isOpen = b.isOpen := by
  simp only [LogFileBuffer.writeNoCheck]
  split_ifs <;> rfl

/-- `ulog_message_dropout_s` in memory. -/
def dropoutMessage (duration : UInt16) : Bytes :=
  LittleEndian.toBytes 2 2 ++ [79] ++ LittleEndian.toBytes 2 duration.toNat

/-- What `LogWriterFile::write` wants to write: a dropout message, if any, and the message. -/
def messageBytes (message : Bytes) (dropout : Option UInt16) : Bytes :=
  dropout.elim [] dropoutMessage ++ message

/-- `LogWriterFile::write`, with the bytes that it accepts. -/
def LogFileBuffer.write (message : Bytes) (dropout : Option UInt16) : LogFileBuffer × Bytes :=
  if !b.shouldRun then (b, [])
  else if (messageBytes message dropout).length > b.available.toNat then (b, [])
  else
    match dropout with
    | none => (b.writeNoCheck message, messageBytes message none)
    | some duration =>
      ((b.writeNoCheck (dropoutMessage duration)).writeNoCheck message,
        messageBytes message (some duration))

/-! ## The bytes in the buffer -/

/-- Where the bytes in the buffer begin. -/
def LogFileBuffer.readPos : ℕ :=
  if b.count.toNat ≤ b.head.toNat then b.head.toNat - b.count.toNat
  else b.bufferSize.toNat + b.head.toNat - b.count.toNat

/-- The buffer holds these bytes, to be written to the file. -/
structure Contents (b : LogFileBuffer) (pending : Bytes) : Prop where
  size_lt : b.bufferSize.toNat < 2 ^ 31
  head_lt : b.head.toNat < b.bufferSize.toNat
  count_eq : b.count.toNat = pending.length
  count_le : b.count.toNat ≤ b.bufferSize.toNat
  holds : ByteRing.Holds b.bufferSize.toNat b.buffer b.readPos pending

section Contents

variable {b : LogFileBuffer} {pending data : Bytes}

theorem readPos_lt (hhead : b.head.toNat < b.bufferSize.toNat)
    (hcount : b.count.toNat ≤ b.bufferSize.toNat) : b.readPos < b.bufferSize.toNat := by
  unfold LogFileBuffer.readPos
  split_ifs <;> omega

theorem readPos_modEq (hcount : b.count.toNat ≤ b.bufferSize.toNat) :
    b.readPos + b.count.toNat ≡ b.head.toNat [MOD b.bufferSize.toNat] := by
  unfold LogFileBuffer.readPos
  split_ifs with hle
  · rw [Nat.sub_add_cancel hle]
  · rw [Nat.sub_add_cancel (by omega)]
    exact Nat.add_modEq_left

variable {pos : ℕ} {n : UInt64}

/-- The only position from which so many bytes go to the head. -/
theorem readPos_eq (hhead : b.head.toNat < b.bufferSize.toNat)
    (hcount : b.count.toNat ≤ b.bufferSize.toNat) (hpos : pos < b.bufferSize.toNat)
    (h : pos + b.count.toNat ≡ b.head.toNat [MOD b.bufferSize.toNat]) : b.readPos = pos :=
  Nat.ModEq.eq_of_lt_of_lt (Nat.ModEq.add_right_cancel' _ ((readPos_modEq hcount).trans h.symm))
    (readPos_lt hhead hcount) hpos

theorem Contents.size_sub_head (h : Contents b pending) :
    (b.bufferSize - b.head).toNat = b.bufferSize.toNat - b.head.toNat := by
  have hlt := h.head_lt
  have hsize := h.size_lt
  rw [UInt64.toNat_sub]
  omega

theorem Contents.available (h : Contents b pending) :
    b.available.toNat = b.bufferSize.toNat - pending.length := by
  have hle := h.count_le
  have hsize := h.size_lt
  rw [LogFileBuffer.available, UInt64.toNat_sub, ← h.count_eq]
  omega

section Write

variable (h : Contents b pending) (hfits : pending.length + data.length ≤ b.bufferSize.toNat)

include h hfits

theorem Contents.toNat_ofNat_length : (ofNat data.length).toNat = data.length := by
  have hsize := h.size_lt
  rw [toNat_ofNat', mod_eq_of_lt (by omega)]

theorem Contents.writeNoCheck_head :
    (b.writeNoCheck data).head.toNat = (b.head.toNat + data.length) % b.bufferSize.toNat := by
  have hhead := h.head_lt
  have hsize := h.size_lt
  simp only [LogFileBuffer.writeNoCheck, h.size_sub_head]
  split_ifs with hover
  · -- one turn less
    have hturn : b.head.toNat + data.length =
        data.length - (b.bufferSize.toNat - b.head.toNat) + b.bufferSize.toNat := by omega
    rw [UInt64.toNat_mod, UInt64.toNat_ofNat', hturn, add_mod_right]
    congr 1
    omega
  · rw [UInt64.toNat_mod, UInt64.toNat_add, h.toNat_ofNat_length hfits]
    congr 1
    omega

theorem Contents.writeNoCheck_count :
    (b.writeNoCheck data).count.toNat = b.count.toNat + data.length := by
  have hsize := h.size_lt
  have hcount := h.count_eq
  have hadd : (b.writeNoCheck data).count = b.count + ofNat data.length := by
    unfold LogFileBuffer.writeNoCheck
    dsimp only
    split_ifs <;> rfl
  rw [hadd, UInt64.toNat_add, h.toNat_ofNat_length hfits]
  omega

theorem Contents.writeNoCheck_readPos : (b.writeNoCheck data).readPos = b.readPos := by
  have hcount := h.writeNoCheck_count hfits
  have hhead := h.writeNoCheck_head hfits
  have hsize := LogFileBuffer.bufferSize_writeNoCheck b data
  have hpos : 0 < b.bufferSize.toNat := zero_lt_of_lt h.head_lt
  apply readPos_eq
  · rw [hhead, hsize]
    exact mod_lt _ hpos
  · rw [hcount, hsize, h.count_eq]
    exact hfits
  · rw [hsize]
    exact readPos_lt h.head_lt h.count_le
  · rw [hcount, hhead, hsize, ← add_assoc]
    exact ((readPos_modEq h.count_le).add_right _).trans (mod_modEq ..).symm

/-- The bytes are appended, and what was there stays where it is. -/
theorem Contents.writeNoCheck : Contents (b.writeNoCheck data) (pending ++ data) := by
  have hcount := h.writeNoCheck_count hfits
  have hsize := LogFileBuffer.bufferSize_writeNoCheck b data
  refine ⟨?_, ?_, ?_, ?_, ?_⟩
  · rw [hsize]
    exact h.size_lt
  · rw [h.writeNoCheck_head hfits, hsize]
    exact mod_lt _ (zero_lt_of_lt h.head_lt)
  · rw [hcount, length_append, h.count_eq]
  · rw [hcount, hsize, h.count_eq]
    exact hfits
  · rw [h.writeNoCheck_readPos hfits]
    have haddr : b.head.toNat ≡ b.readPos + pending.length [MOD b.bufferSize.toNat] :=
      h.count_eq ▸ (readPos_modEq h.count_le).symm
    simp only [LogFileBuffer.writeNoCheck, h.size_sub_head]
    have hhead := h.head_lt
    split_ifs with hover
    · -- the first part goes up to the end, the second one begins at the beginning
      have htake : (data.take (b.bufferSize.toNat - b.head.toNat)).length =
          b.bufferSize.toNat - b.head.toNat := by
        rw [length_take]
        omega
      have hfirst := h.holds.store haddr (by omega) (by omega :
        pending.length + (data.take (b.bufferSize.toNat - b.head.toNat)).length ≤ _)
      have hzero : 0 ≡ b.readPos + (pending ++
          data.take (b.bufferSize.toNat - b.head.toNat)).length [MOD b.bufferSize.toNat] := by
        rw [length_append, htake, ← add_assoc]
        refine Nat.ModEq.trans ?_ (haddr.add_right _)
        rw [Nat.add_sub_cancel' (Nat.le_of_lt hhead)]
        exact (Nat.modEq_zero_iff_dvd.mpr (Nat.dvd_refl _)).symm
      have hdrop : 0 + (data.drop (b.bufferSize.toNat - b.head.toNat)).length ≤
          b.bufferSize.toNat := by
        rw [length_drop]
        omega
      have hsecond := hfirst.store hzero hdrop (by rw [length_append, length_drop]; omega)
      rwa [append_assoc, take_append_drop] at hsecond
    · exact h.holds.store haddr (by omega) hfits

end Write

theorem Contents.markRead (h : Contents b pending) (hn : n.toNat ≤ pending.length) :
    Contents (b.markRead n) (pending.drop n.toNat) := by
  have hsize := h.size_lt
  have hle := h.count_le
  have hcount : (b.markRead n).count.toNat = b.count.toNat - n.toNat := by
    have := h.count_eq
    rw [LogFileBuffer.markRead, UInt64.toNat_sub]
    omega
  refine ⟨h.size_lt, h.head_lt, ?_, ?_, ?_⟩
  · rw [hcount, length_drop, h.count_eq]
  · rw [hcount]
    exact (sub_le ..).trans h.count_le
  · refine (h.holds.drop n.toNat).congr ?_
    apply Nat.ModEq.add_right_cancel' (b.count.toNat - n.toNat)
    have hmoved := readPos_modEq (by rw [hcount]; exact (sub_le ..).trans hle)
    rw [hcount] at hmoved
    rw [Nat.add_assoc, Nat.add_sub_cancel' (h.count_eq ▸ hn)]
    exact hmoved.trans (readPos_modEq h.count_le).symm

/-- `get_read_ptr` returns where the bytes begin, and how many are before the end of the memory. -/
theorem getReadPtr_spec (hsize : b.bufferSize.toNat < 2 ^ 31)
    (hhead : b.head.toNat < b.bufferSize.toNat) (hle : b.count.toNat ≤ b.bufferSize.toNat) :
    b.getReadPtr.ptr.toInt = b.readPos ∧
      b.getReadPtr.isPart = decide (b.head.toNat < b.count.toNat) ∧
      b.getReadPtr.available.toNat = if b.head.toNat < b.count.toNat then
        b.count.toNat - b.head.toNat else b.count.toNat := by
  have hptr : (SizeInt.toInt (b.head - b.count)).toInt = b.head.toNat - b.count.toNat :=
    toInt_sub hsize (le_of_lt hhead) hle
  have hsign : SizeInt.toInt (b.head - b.count) < 0 ↔ b.head.toNat < b.count.toNat := by
    rw [Int32.lt_iff_toInt_lt]
    simp
    omega
  unfold LogFileBuffer.getReadPtr LogFileBuffer.readPos
  by_cases hneg : b.head.toNat < b.count.toNat
  · have hsum : (SizeInt.toSize (SizeInt.toInt (b.head - b.count)) + b.bufferSize).toNat =
        b.bufferSize.toNat + b.head.toNat - b.count.toNat := by
      have hsigned := toNat_toSize (SizeInt.toInt (b.head - b.count))
      rw [UInt64.toNat_add]
      omega
    have hpart : (SizeInt.toInt (SizeInt.toSize (SizeInt.toInt (b.head - b.count)) +
        b.bufferSize)).toInt = b.bufferSize.toNat + b.head.toNat - b.count.toNat := by
      rw [toInt_of_lt (by omega)]
      omega
    have hsize' := toNat_toSize_of_nonneg (by rw [hpart]; omega)
    rw [if_pos (hsign.mpr hneg), if_neg (not_le.mpr hneg), if_pos hneg]
    refine ⟨?_, (decide_eq_true hneg).symm, ?_⟩
    · dsimp only
      omega
    · rw [UInt64.toNat_sub]
      omega
  · rw [if_neg (hsign.not.mpr hneg), if_pos (not_lt.mp hneg), if_neg hneg]
    refine ⟨?_, (decide_eq_false hneg).symm, rfl⟩
    dsimp only
    omega

theorem Contents.getReadPtr (h : Contents b pending) :
    b.getReadPtr.ptr.toInt = b.readPos ∧ b.getReadPtr.available.toNat ≤ pending.length ∧
      b.readPos + b.getReadPtr.available.toNat ≤ b.bufferSize.toNat := by
  obtain ⟨hptr, -, havailable⟩ := getReadPtr_spec h.size_lt h.head_lt h.count_le
  have hhead := h.head_lt
  have hle := h.count_le
  refine ⟨hptr, ?_, ?_⟩ <;> rw [havailable]
  · rw [← h.count_eq]
    split_ifs <;> omega
  · unfold LogFileBuffer.readPos
    split_ifs <;> omega

theorem Contents.overwrite (h : Contents b pending) (hle : data.length ≤ pending.length)
    (hend : b.readPos + data.length ≤ b.bufferSize.toNat) :
    Contents { b with buffer := b.buffer.store b.readPos data }
      (data ++ pending.drop data.length) where
  __ := h
  count_eq := by simpa [hle] using h.count_eq
  holds := h.holds.overwrite hle (h.count_eq ▸ h.count_le) hend

end Contents

end Px4.Logger
