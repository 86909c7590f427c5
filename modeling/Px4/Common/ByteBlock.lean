import Px4.Common.ByteMemory

/-!
# Blocks of bytes

Memory of a given size, in which an access out of bounds fails.
-/

/-- An allocated block. -/
structure ByteBlock where
  size : ℕ
  bytes : ByteMemory

namespace ByteBlock

variable (b : ByteBlock)

def write (offset : ℕ) (data : List UInt8) : Option ByteBlock :=
  if offset + data.length ≤ b.size then some { b with bytes := b.bytes.store offset data } else none

def read (offset count : ℕ) : Option (List UInt8) :=
  if offset + count ≤ b.size then some (b.bytes.load offset count) else none

variable {b}

variable {offset count : ℕ} {data : List UInt8}

theorem write_of_le (h : offset + data.length ≤ b.size) :
    b.write offset data = some { b with bytes := b.bytes.store offset data } :=
  if_pos h

theorem read_of_le (h : offset + count ≤ b.size) :
    b.read offset count = some (b.bytes.load offset count) :=
  if_pos h

end ByteBlock
