import Mathlib.Data.List.TakeWhile
import Px4.Tinybson.Encoder

/-!
# The BSON decoder

`src/lib/tinybson/tinybson.cpp`, the part that reads, from a file or from memory. The callback is a
function on a state of its own and the decoder, with the value that it returns.
-/

namespace Px4.Tinybson

open BsonType

/-- `-fshort-enums`: a `bson_type_t` is a byte, so that the type of erased flash is `0xff`. In an
`int` it would be the negative number of the byte. -/
structure Build where
  shortEnums : Bool

/-- A byte that is read through an `int8_t` into an enumeration. An enumeration of an `int` gets the
sign of the byte. -/
def Build.extend (build : Build) (byte : UInt8) : BitVec 32 :=
  if build.shortEnums then byte.toBitVec.setWidth 32 else byte.toBitVec.signExtend 32

def enodata : ℤ := 61

/-- The C string at the beginning of a buffer. -/
def CString.ofBytes (bytes : Bytes) : CString :=
  ⟨bytes.takeWhile (· ≠ 0), fun h => by simpa using List.mem_takeWhile_imp h⟩

variable {s : CString} {rest : List UInt8}

theorem CString.ofBytes_append : CString.ofBytes (s.1 ++ 0 :: rest) = s := by
  apply Subtype.ext
  change (s.1 ++ 0 :: rest).takeWhile (· ≠ 0) = s.1
  rw [List.takeWhile_append_of_pos (by simpa using fun b hb => ne_of_mem_of_not_mem hb s.2)]
  simp

theorem CString.ofBytes_self : CString.ofBytes s.1 = s := by
  apply Subtype.ext
  change s.1.takeWhile (· ≠ 0) = s.1
  simpa using fun b hb => ne_of_mem_of_not_mem hb s.2

/-- The union in `bson_node_s`, by the member that was written last. -/
inductive BsonUnion where
  | d (value : BitVec 64)
  | b (value : Bool)
  | i32 (value : BitVec 32)
  | i64 (value : BitVec 64)

namespace BsonUnion

/-- The member `d`; a member other than the one written last is not read. -/
def getD : BsonUnion → BitVec 64
  | d value => value
  | _ => 0

def getB : BsonUnion → Bool
  | b value => value
  | _ => false

def getI32 : BsonUnion → BitVec 32
  | i32 value => value
  | _ => 0

def getI64 : BsonUnion → BitVec 64
  | i64 value => value
  | _ => 0

end BsonUnion

/-- `bson_node_s`, with the byte of the type. -/
structure BsonNode where
  name : Bytes := []
  type : UInt8 := 0
  subtype : BitVec 32 := 0
  value : BsonUnion := .d 0

structure BsonDecoder where
  fd : Option ByteFile := none
  buf : Option Bytes := none
  bufsize : ℕ := 0
  bufpos : ℕ := 0
  dead : Bool := false
  nesting : ℕ := 0
  node : BsonNode := {}
  pending : BitVec 32 := 0
  totalDocumentSize : BitVec 32 := 0
  totalDecodedSize : BitVec 32 := 0

namespace BsonDecoder

variable (build : Build) (d : BsonDecoder)

/-- `CODER_KILL`. -/
def kill : BsonDecoder := { d with dead := true }

/-- Count bytes that were read. -/
def decoded (s : ℕ) : BsonDecoder :=
  { d with totalDecodedSize := d.totalDecodedSize + BitVec.ofNat 32 s }

/-- `read_x`; a read from a file fails without killing the decoder. -/
def readX (s : ℕ) : BsonDecoder × Option Bytes :=
  if d.dead then (d, none)
  else
    match d.fd, d.buf with
    | some file, _ =>
      let bytes := file.read s
      let d := { d with fd := some (file.afterRead s) }
      if bytes.length = s then (d.decoded s, some bytes) else (d, none)
    | none, some buf =>
      if s ≥ d.bufsize then (d.kill, none)
      else if d.bufsize - s < d.bufpos then (d.kill, none)
      else
        (BsonDecoder.decoded { d with bufpos := d.bufpos + s } s, some ((buf.drop d.bufpos).take s))
    | none, none => (d, none)

def readInt8 : BsonDecoder × Option UInt8 :=
  match d.readX 1 with
  | (d, bytes) => (d, bytes.bind (·.head?))

/-- `read_int32`, `read_int64` and `read_double`. -/
def readInt (w : ℕ) : BsonDecoder × Option (BitVec w) :=
  match d.readX (w / 8) with
  | (d, bytes) => (d, bytes.map fun bytes => BitVec.ofNat w (LittleEndian.toNat bytes))

/-- The document size, at the beginning of a source. -/
def readDocumentSize : BsonDecoder × Bool :=
  match d.readInt 32 with
  | (d, none) => (d.kill, false)
  | (d, some size) => ({ d with totalDocumentSize := size }, true)

def initFile (file : ByteFile) : BsonDecoder × Bool :=
  BsonDecoder.readDocumentSize
    { d with fd := some file, nesting := 1, node.type := undefined.toByte }

/-- The loop that discards what the callback has not read. -/
def discard : ℕ → BsonDecoder → BsonDecoder × Bool
  | 0, d => (d, true)
  | n + 1, d =>
    match d.readInt8 with
    | (d, none) => (d.kill, false)
    | (d, some _) => discard n { d with pending := d.pending - 1 }

/-- The loop that reads the node name, with the room that is left for it. -/
def readName : ℕ → BsonDecoder → BsonDecoder × Bool
  | 0, d => (d.kill, false)
  | left + 1, d =>
    match d.readInt8 with
    | (d, none) => (d.kill, false)
    | (d, some c) =>
      if c = 0 then (d, true)
      else readName left { d with node.name := d.node.name ++ [c] }

/-- A value of `w` bits for the union. -/
def readUnion (w : ℕ) (toUnion : BitVec w → BsonUnion) : BsonDecoder × Bool :=
  match d.readInt w with
  | (d, none) => (d.kill, false)
  | (d, some value) => ({ d with node.value := toUnion value }, true)

/-- The length of a value that the callback has to read. -/
def readPending : BsonDecoder × Bool :=
  match d.readInt 32 with
  | (d, none) => (d.kill, false)
  | (d, some pending) => ({ d with pending }, true)

def readSubtype : BsonDecoder × Bool :=
  match d.readInt8 with
  | (d, none) => (d.kill, false)
  | (d, some tbyte) => ({ d with node.subtype := build.extend tbyte }, true)

/-- The switch of `bson_decoder_next` over the node type. -/
def readValue : BsonDecoder × Bool :=
  if d.node.type = double.toByte then d.readUnion 64 .d
  else if d.node.type = string.toByte then d.readPending
  else if d.node.type = bindata.toByte then
    match d.readPending with
    | (d, false) => (d, false)
    | (d, true) => d.readSubtype build
  else if d.node.type = bool.toByte then
    d.readUnion 8 fun tbyte => .b (tbyte ≠ 0)
  else if d.node.type = int32.toByte then d.readUnion 32 .i32
  else if d.node.type = int64.toByte then d.readUnion 64 .i64
  else (d.kill, false)

/-- `(int)decoder->node.type == 0xff`. -/
def isErased : Bool := build.shortEnums && d.node.type = 0xff

/-- Read a node, from its type byte on; the number is the error that `bson_decoder_next` returns. -/
def readNode : BsonDecoder × Option ℤ :=
  match d.readInt8 with
  | (d, none) => (d.kill, some (-1))
  | (d, some tbyte) =>
    let d := { d with node.type := tbyte, pending := 0 }
    if d.node.type = eoo.toByte then ({ d with node.name := [] }, none)
    else if d.isErased build then (d.kill, some (-enodata))
    else
      match readName bsonMaxname { d with node.name := [] } with
      | (d, false) => (d, some (-1))
      | (d, true) =>
        match d.readValue build with
        | (d, false) => (d, some (-1))
        | (d, true) => (d, none)

variable {σ : Type*} (callback : σ → BsonDecoder → σ × BsonDecoder × ℤ)

def next (s : σ) : σ × BsonDecoder × ℤ :=
  if d.dead then (s, d, -1)
  else if d.node.type = eoo.toByte ∧ d.nesting - 1 = 0 then
    -- the top-level document is done
    (s, { d with nesting := 0, fd := none }, 0)
  else
    let d := if d.node.type = eoo.toByte then { d with nesting := d.nesting - 1 } else d
    match discard d.pending.toInt.toNat d with
    | (d, false) => (s, d, -1)
    | (d, true) =>
      match d.readNode build with
      | (d, some error) => (s, d, error)
      | (d, none) => callback s d

/-- `do { result = bson_decoder_next(&decoder); } while (result > 0);`, within `fuel` rounds. -/
def decodeLoop : ℕ → σ → BsonDecoder → Option (σ × BsonDecoder × ℤ)
  | 0, _, _ => none
  | fuel + 1, s, d =>
    match d.next build callback s with
    | (s, d, result) => if result > 0 then decodeLoop fuel s d else some (s, d, result)

/-- `bson_decoder_copy_data`, with the data that is copied. -/
def copyData : BsonDecoder × Option Bytes :=
  if d.dead then (d, none)
  else
    match d.readX d.pending.toNat with
    | (d, none) => (d.kill, none)
    | (d, some bytes) => ({ d with pending := 0 }, some bytes)

end BsonDecoder

end Px4.Tinybson
