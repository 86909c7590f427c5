import Px4.Common.ByteFile
import Px4.Common.LittleEndian

/-!
# The BSON encoder

`src/lib/tinybson/tinybson.cpp`, the part that writes. A document goes to a file through a buffer;
`write_x` also serves the other encoders. Whether a `write` writes everything and whether a
`realloc` succeeds is a parameter.
-/

namespace Px4.Tinybson

open LittleEndian

/-- Bytes in memory or in a file. -/
abbrev Bytes := List UInt8

/-- A C string without its terminator. -/
def CString := { bytes : Bytes // 0 ∉ bytes }
deriving DecidableEq

inductive BsonType where
  | eoo
  | double
  | string
  | object
  | array
  | bindata
  | undefined
  | bool
  | date
  | nullptr
  | int32
  | timestamp
  | int64
deriving DecidableEq

def BsonType.toByte : BsonType → UInt8
  | eoo => 0
  | double => 1
  | string => 2
  | object => 3
  | array => 4
  | bindata => 5
  | undefined => 6
  | bool => 8
  | date => 9
  | nullptr => 10
  | int32 => 16
  | timestamp => 17
  | int64 => 18

/-- The byte that `write_int8` writes for a `bson_binary_subtype_t`. -/
def subtypeByte (subtype : BitVec 32) : UInt8 := .ofBitVec (subtype.setWidth 8)

def bsonMaxname : ℕ := 32

def bsonBufIncrement : ℕ := 128

/-- What a call of `write` that does not write everything leaves of the file (nothing if it writes
everything), and whether memory of a size is there. -/
structure EncoderEnv where
  shortWrite : ByteFile → Bytes → Option ByteFile
  realloc : ℕ → Bool

/-- `bson_encoder_s`. The buffer is its first `bufpos` bytes. -/
structure BsonEncoder where
  fd : Option ByteFile := none
  buf : Option Bytes := none
  bufsize : ℕ := 0
  reallocOk : Bool := false
  dead : Bool := false
  totalDocumentSize : BitVec 32 := 0

namespace BsonEncoder

variable (env : EncoderEnv) (e : BsonEncoder)

/-- `CODER_KILL`. -/
def kill : BsonEncoder × Bool := ({ e with dead := true }, false)

def bufpos : ℕ := (e.buf.getD []).length

/-- Write the buffer to the file, if all of it is written. -/
def flush (file : ByteFile) : BsonEncoder × Bool :=
  match env.shortWrite file (e.buf.getD []) with
  | some file => BsonEncoder.kill { e with fd := some file }
  | none =>
    ({ e with
      fd := some (file.write (e.buf.getD []))
      totalDocumentSize := e.totalDocumentSize + BitVec.ofNat 32 e.bufpos }, true)

/-- Enlarge the buffer until there is room for `s` bytes, in `fuel` rounds at most. -/
def growBuffer (s : ℕ) : ℕ → BsonEncoder → BsonEncoder × Bool
  | 0, e => (e, true)
  | fuel + 1, e =>
    if e.bufpos + s ≤ e.bufsize then (e, true)
    else if !e.reallocOk then e.kill
    else if !env.realloc (e.bufsize + bsonBufIncrement) then e.kill
    else
      growBuffer s fuel
        { e with buf := some (e.buf.getD []), bufsize := e.bufsize + bsonBufIncrement }

/-- The loop of `write_x` that makes room for `s` bytes in the buffer. -/
def makeRoom (s : ℕ) : BsonEncoder × Bool :=
  if e.bufpos + s ≤ e.bufsize then (e, true)
  else
    match e.fd with
    | some file =>
      match e.flush env file with
      | (e, false) => (e, false)
      | (e, true) =>
        let e := { e with buf := some [] }
        if s > e.bufsize then e.kill else (e, true)
    -- every round adds more than one byte
    | none => growBuffer env s (e.bufpos + s) e

/-- `write_x`; the result says whether it returns zero. -/
def writeX (data : Bytes) : BsonEncoder × Bool :=
  if e.dead then (e, false)
  else
    match e.fd, e.buf with
    | some file, none =>
      match env.shortWrite file data with
      | some file => ({ e with fd := some file }, false)
      | none =>
        ({ e with
          fd := some (file.write data)
          totalDocumentSize := e.totalDocumentSize + BitVec.ofNat 32 data.length }, true)
    | _, _ =>
      match e.makeRoom env data.length with
      | (e, false) => (e, false)
      | (e, true) => ({ e with buf := some (e.buf.getD [] ++ data) }, true)

def writeInt32 (i : BitVec 32) : BsonEncoder × Bool :=
  e.writeX env (toBytes 4 i.toNat)

def writeName (name : CString) : BsonEncoder × Bool :=
  if name.1.length > bsonMaxname then e.kill else e.writeX env (name.1 ++ [0])

/-- A function of `bson_encoder_init_*`, after it has set the members. -/
def initLength : BsonEncoder × Bool :=
  match e.writeInt32 env 0 with
  | (e, true) => (e, true)
  | (e, false) => e.kill

def initBufFile (file : ByteFile) (bufsize : ℕ) : BsonEncoder × Bool :=
  BsonEncoder.initLength env
    { fd := some file
      buf := some []
      bufsize
      dead := false
      reallocOk := false
      totalDocumentSize := 0 }

/-- Write pieces of data one after the other, up to the first that fails. -/
def writeAll : BsonEncoder → List Bytes → BsonEncoder × Bool
  | e, [] => (e, true)
  | e, data :: pieces =>
    match e.writeX env data with
    | (e, false) => (e, false)
    | (e, true) => writeAll e pieces

/-- The functions `bson_encoder_append_*`: a type, a name and the pieces of the value. -/
def append (type : BsonType) (name : CString) (pieces : List Bytes) : BsonEncoder × Bool :=
  if e.dead then (e, false)
  else
    match e.writeX env [type.toByte] with
    | (e, false) => e.kill
    | (e, true) =>
      match e.writeName env name with
      | (e, false) => e.kill
      | (e, true) =>
        match writeAll env e pieces with
        | (e, false) => e.kill
        | (e, true) => (e, true)

def appendBool (name : CString) (value : Bool) : BsonEncoder × Bool :=
  e.append env .bool name [[if value then 1 else 0]]

def appendInt32 (name : CString) (value : BitVec 32) : BsonEncoder × Bool :=
  e.append env .int32 name [toBytes 4 value.toNat]

def appendInt64 (name : CString) (value : BitVec 64) : BsonEncoder × Bool :=
  e.append env .int64 name [toBytes 8 value.toNat]

/-- `bson_encoder_append_double`, of a bit pattern. -/
def appendDouble (name : CString) (value : BitVec 64) : BsonEncoder × Bool :=
  e.append env .double name [toBytes 8 value.toNat]

def appendString (name string : CString) : BsonEncoder × Bool :=
  e.append env .string name [toBytes 4 (string.1.length + 1), string.1 ++ [0]]

def appendBinary (name : CString) (subtype : BitVec 32) (data : Bytes) : BsonEncoder × Bool :=
  e.append env .bindata name [toBytes 4 data.length, [subtypeByte subtype], data]

/-- The last buffer is written to the file; it is not emptied. -/
def finalFlush : BsonEncoder × Bool :=
  match e.fd, e.buf with
  | some file, some buf => if buf = [] then (e, true) else e.flush env file
  | _, _ => (e, true)

/-- The document size is written over the first four bytes. -/
def recordSize : BsonEncoder × Bool :=
  let size := toBytes 4 e.totalDocumentSize.toNat
  match e.fd, e.buf with
  | some file, _ =>
    match env.shortWrite (file.seek 0) size with
    | some file => BsonEncoder.kill { e with fd := some file }
    | none => ({ e with fd := some ((file.seek 0).write size) }, true)
  | none, some buf => ({ e with buf := some (size ++ buf.drop 4) }, true)
  | none, none => (e, true)

def fini : BsonEncoder × Bool :=
  if e.dead then (e, false)
  else
    match e.writeX env [BsonType.eoo.toByte] with
    | (e, false) => e.kill
    | (e, true) =>
      match e.finalFlush env with
      | (e, false) => (e, false)
      | (e, true) => e.recordSize env

end BsonEncoder

/-! ## Documents -/

inductive Value where
  | bool (b : Bool)
  | int32 (i : BitVec 32)
  | int64 (i : BitVec 64)
  | double (d : BitVec 64)
  | string (s : CString)
  | binary (subtype : BitVec 32) (data : Bytes)
deriving DecidableEq

structure Node where
  name : CString
  value : Value
deriving DecidableEq

namespace BsonEncoder

variable (env : EncoderEnv) (e : BsonEncoder)

/-- Append a node with the function for its type. -/
def appendNode (node : Node) : BsonEncoder × Bool :=
  match node.value with
  | .bool b => e.appendBool env node.name b
  | .int32 i => e.appendInt32 env node.name i
  | .int64 i => e.appendInt64 env node.name i
  | .double d => e.appendDouble env node.name d
  | .string s => e.appendString env node.name s
  | .binary subtype data => e.appendBinary env node.name subtype data

/-- Append nodes, as long as each call returns zero. -/
def appendNodes : BsonEncoder → List Node → BsonEncoder × Bool
  | e, [] => (e, true)
  | e, node :: nodes =>
    match e.appendNode env node with
    | (e, false) => (e, false)
    | (e, true) => appendNodes e nodes

end BsonEncoder

/-- Encode nodes into an empty file by a buffer; a result only if every call returns zero. -/
def encodeDocument (env : EncoderEnv) (bufsize : ℕ) (nodes : List Node) : Option ByteFile :=
  match BsonEncoder.initBufFile env {} bufsize with
  | (_, false) => none
  | (e, true) =>
    match e.appendNodes env nodes with
    | (_, false) => none
    | (e, true) =>
      match e.fini env with
      | (_, false) => none
      | (e, true) => e.fd

end Px4.Tinybson
