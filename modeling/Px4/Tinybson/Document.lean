import Px4.Tinybson.Encoder

/-!
# What the encoder writes

A document is its size, the nodes one after the other and a terminator. An encoder that has accepted
everything has written exactly this, wherever the buffer was flushed.
-/

namespace Px4.Tinybson

open BsonType List LittleEndian Option

/-! ## Documents as bytes -/

def Value.type : Value → BsonType
  | bool _ => .bool
  | int32 _ => .int32
  | int64 _ => .int64
  | double _ => .double
  | string _ => .string
  | binary _ _ => .bindata

/-- The pieces in which a value is written. -/
def Value.pieces : Value → List Bytes
  | bool b => [[if b then 1 else 0]]
  | int32 i => [toBytes 4 i.toNat]
  | int64 i => [toBytes 8 i.toNat]
  | double d => [toBytes 8 d.toNat]
  | string s => [toBytes 4 (s.1.length + 1), s.1 ++ [0]]
  | binary subtype data => [toBytes 4 data.length, [subtypeByte subtype], data]

def Node.encode (node : Node) : Bytes :=
  [node.value.type.toByte] ++ (node.name.1 ++ [0]) ++ node.value.pieces.flatten

/-- Nodes as bytes, with the terminator. -/
def encodeNodes (nodes : List Node) : Bytes :=
  nodes.flatMap Node.encode ++ [eoo.toByte]

def documentSize (nodes : List Node) : ℕ := 4 + (encodeNodes nodes).length

def healthyDisk : EncoderEnv where
  shortWrite _ _ := none
  realloc _ := true

namespace BsonEncoder

variable {env : EncoderEnv} {e e' : BsonEncoder} {stream data : Bytes}

variable {node : Node}

theorem appendNode_eq :
    e.appendNode env node = e.append env node.value.type node.name node.value.pieces := by
  unfold appendNode
  cases node.value <;> rfl

/-! ## The buffered encoder -/

/-- The encoder has taken a stream of bytes: the first are in the file, the others in the buffer. -/
structure Buffers (e : BsonEncoder) (stream : Bytes) (file : ByteFile) (buf : Bytes) : Prop where
  alive : e.dead = false
  fd_eq : e.fd = some file
  buf_eq : e.buf = some buf
  stream_eq : file.bytes ++ buf = stream
  position_eq : file.position = file.bytes.length
  total_eq : e.totalDocumentSize = BitVec.ofNat 32 file.bytes.length

variable {file : ByteFile} {buf : Bytes}

section

variable (h : e.Buffers stream file buf)
include h

theorem Buffers.flush (hflush : e.flush env file = (e', true)) :
    e'.dead = false ∧ e'.buf = some buf ∧ e'.fd = some ⟨stream, stream.length⟩ ∧
      e'.totalDocumentSize = BitVec.ofNat 32 stream.length := by
  unfold BsonEncoder.flush bufpos at hflush
  rw [h.buf_eq, getD_some] at hflush
  split at hflush
  · cases hflush
  cases hflush
  refine ⟨h.alive, rfl, ?_, ?_⟩
  · rw [ByteFile.write_at_end h.position_eq, h.stream_eq]
  · rw [h.total_eq, ← BitVec.ofNat_add, ← length_append, h.stream_eq]

variable {s : ℕ} {pieces : List Bytes}

theorem Buffers.makeRoom
    (hroom : e.makeRoom env s = (e', true)) : ∃ file' buf', e'.Buffers stream file' buf' := by
  unfold BsonEncoder.makeRoom at hroom
  split at hroom
  · cases hroom
    exact ⟨file, buf, h⟩
  rw [h.fd_eq] at hroom
  dsimp only at hroom
  split at hroom
  · cases hroom
  next e₁ hflush =>
    obtain ⟨halive, -, hfd, htotal⟩ := h.flush hflush
    split at hroom
    · cases hroom
    · cases hroom
      exact ⟨_, [], halive, hfd, rfl, append_nil _, rfl, htotal⟩

theorem Buffers.writeX (hwrite : e.writeX env data = (e', true)) :
    ∃ file' buf', e'.Buffers (stream ++ data) file' buf' := by
  unfold BsonEncoder.writeX at hwrite
  rw [h.alive, h.fd_eq, h.buf_eq] at hwrite
  simp only [Bool.false_eq_true, if_false] at hwrite
  split at hwrite
  · cases hwrite
  next e₁ hroom =>
    obtain ⟨file', buf', h'⟩ := h.makeRoom hroom
    cases hwrite
    refine ⟨file', buf' ++ data, h'.alive, h'.fd_eq, ?_, ?_, h'.position_eq, h'.total_eq⟩
    · rw [h'.buf_eq, getD_some]
    · rw [← append_assoc, h'.stream_eq]

theorem Buffers.writeAll (hwrite : e.writeAll env pieces = (e', true)) :
    ∃ file' buf', e'.Buffers (stream ++ pieces.flatten) file' buf' := by
  induction pieces generalizing e stream file buf with
  | nil =>
    cases hwrite
    exact ⟨file, buf, by rwa [flatten_nil, append_nil]⟩
  | cons data pieces ih =>
    unfold BsonEncoder.writeAll at hwrite
    split at hwrite
    · cases hwrite
    next e₁ hdata =>
      obtain ⟨file₁, buf₁, h₁⟩ := h.writeX hdata
      rw [flatten_cons, ← append_assoc]
      exact ih h₁ hwrite

/-- A node that is accepted has a name of at most `BSON_MAXNAME` bytes. -/
theorem Buffers.appendNode (happend : e.appendNode env node = (e', true)) :
    node.name.1.length ≤ bsonMaxname ∧
      ∃ file' buf', e'.Buffers (stream ++ node.encode) file' buf' := by
  rw [appendNode_eq] at happend
  unfold append at happend
  rw [h.alive] at happend
  simp only [Bool.false_eq_true, if_false] at happend
  split at happend
  · cases happend
  next e₁ htype =>
    obtain ⟨file₁, buf₁, h₁⟩ := h.writeX htype
    split at happend
    · cases happend
    next e₂ hname =>
      unfold writeName at hname
      split at hname
      · cases hname
      next hlength =>
        obtain ⟨file₂, buf₂, h₂⟩ := h₁.writeX hname
        split at happend
        · cases happend
        next e₃ hpieces =>
          obtain ⟨file₃, buf₃, h₃⟩ := h₂.writeAll hpieces
          cases happend
          refine ⟨Nat.not_lt.mp hlength, file₃, buf₃, ?_⟩
          rw [append_assoc, append_assoc] at h₃
          exact h₃

theorem Buffers.appendNodes {nodes : List Node} (happend : e.appendNodes env nodes = (e', true)) :
    (∀ node ∈ nodes, node.name.1.length ≤ bsonMaxname) ∧
      ∃ file' buf', e'.Buffers (stream ++ nodes.flatMap Node.encode) file' buf' := by
  induction nodes generalizing e stream file buf with
  | nil =>
    cases happend
    exact ⟨nofun, file, buf, by rwa [flatMap_nil, append_nil]⟩
  | cons node nodes ih =>
    unfold BsonEncoder.appendNodes at happend
    split at happend
    · cases happend
    next e₁ hnode =>
      obtain ⟨hlength, file₁, buf₁, h₁⟩ := h.appendNode hnode
      obtain ⟨hnames, file₂, buf₂, h₂⟩ := ih h₁ happend
      refine ⟨forall_mem_cons.mpr ⟨hlength, hnames⟩, file₂, buf₂, ?_⟩
      rwa [flatMap_cons, ← append_assoc]

end

/-- A new encoder has taken four bytes, where the size of the document will be. -/
theorem Buffers.initBufFile {bufsize} (hinit : initBufFile env {} bufsize = (e, true)) :
    ∃ file buf, e.Buffers (toBytes 4 0) file buf := by
  have hstart : BsonEncoder.Buffers
      { fd := some {}, buf := some [], bufsize, dead := false, reallocOk := false,
        totalDocumentSize := 0 } [] {} [] :=
    ⟨rfl, rfl, rfl, rfl, rfl, rfl⟩
  unfold BsonEncoder.initBufFile initLength at hinit
  split at hinit
  next e₁ hlength =>
    cases hinit
    exact hstart.writeX hlength
  · cases hinit

variable (h : e.Buffers stream file buf)
include h

/-- The size of the document is written over the first four bytes of the stream. -/
theorem Buffers.fini (hfini : e.fini env = (e', true)) :
    e'.fd.map (·.bytes) = some (toBytes 4 (BitVec.ofNat 32 (stream.length + 1)).toNat ++
        (stream ++ [eoo.toByte]).drop 4) := by
  unfold BsonEncoder.fini at hfini
  rw [h.alive] at hfini
  simp only [Bool.false_eq_true, if_false] at hfini
  split at hfini
  · cases hfini
  next e₁ heoo =>
    obtain ⟨file₁, buf₁, h₁⟩ := h.writeX heoo
    split at hfini
    · cases hfini
    next e₂ hflush =>
      -- whether the buffer is empty or not, all of the stream is in the file now
      have hfile : e₂.fd = some ⟨stream ++ [eoo.toByte],
          (stream ++ [eoo.toByte]).length⟩ ∧
          e₂.totalDocumentSize = BitVec.ofNat 32 (stream ++ [eoo.toByte]).length := by
        unfold finalFlush at hflush
        rw [h₁.fd_eq, h₁.buf_eq] at hflush
        dsimp only at hflush
        split at hflush
        next hempty =>
          cases hflush
          have hstream := h₁.stream_eq
          rw [hempty, append_nil] at hstream
          have hposition := h₁.position_eq
          have htotal := h₁.total_eq
          rw [hstream] at hposition htotal
          refine ⟨h₁.fd_eq.trans ?_, htotal⟩
          rw [← hstream, ← h₁.position_eq]
        · obtain ⟨-, -, hfd, htotal⟩ := h₁.flush hflush
          exact ⟨hfd, htotal⟩
      unfold recordSize at hfini
      rw [hfile.1, hfile.2] at hfini
      dsimp only at hfini
      split at hfini
      · cases hfini
      cases hfini
      rw [map_some, ByteFile.write_at_start rfl]
      rw [length_append]
      rfl

end BsonEncoder

variable {env : EncoderEnv} {bufsize : ℕ} {nodes : List Node}

section

variable {file : ByteFile} (h : encodeDocument env bufsize nodes = some file)
include h

theorem encodeDocument_eq :
    file.bytes = toBytes 4 (BitVec.ofNat 32 (documentSize nodes)).toNat ++
        encodeNodes nodes ∧
      ∀ node ∈ nodes, node.name.1.length ≤ bsonMaxname := by
  unfold encodeDocument at h
  split at h
  · cases h
  next e₁ hinit =>
    obtain ⟨file₁, buf₁, h₁⟩ := BsonEncoder.Buffers.initBufFile hinit
    split at h
    · cases h
    next e₂ happend =>
      obtain ⟨hnames, file₂, buf₂, h₂⟩ := h₁.appendNodes happend
      split at h
      · cases h
      next e₃ hfini =>
        have hbytes := h₂.fini hfini
        rw [h] at hbytes
        refine ⟨?_, hnames⟩
        rw [map_some] at hbytes
        have hsize : (toBytes 4 0 ++ nodes.flatMap Node.encode).length + 1 =
            documentSize nodes := by
          rw [documentSize, encodeNodes, length_append, length_append,
            length_toBytes, length_singleton, Nat.add_assoc]
        have hdrop : (toBytes 4 0 ++ nodes.flatMap Node.encode ++
            [eoo.toByte]).drop 4 = encodeNodes nodes := by
          exact drop_left' length_toBytes
        rw [Option.some.inj hbytes, ← hsize, ← hdrop]

theorem encodeDocument_length : file.bytes.length = documentSize nodes := by
  rw [(encodeDocument_eq h).1, length_append, length_toBytes, documentSize]

end

end Px4.Tinybson
