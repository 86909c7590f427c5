import Mathlib.Data.List.Basic
import Px4.Tinybson.Decoder
import Px4.Tinybson.Document

/-!
# What the decoder reads

Where the bytes of a node begin, one call of `bson_decoder_next` hands the node to the callback,
with the data of a string or of a binary value still to be read.
-/

namespace Px4.Tinybson

open BsonType List LittleEndian

/-! ## The parts of a value -/

/-- What is read before the callback is called. -/
def Value.inline : Value → Bytes
  | bool b => [if b then 1 else 0]
  | int32 i => toBytes 4 i.toNat
  | int64 i => toBytes 8 i.toNat
  | double d => toBytes 8 d.toNat
  | string s => toBytes 4 (s.1.length + 1)
  | binary subtype data => toBytes 4 data.length ++ [subtypeByte subtype]

/-- What the callback reads. -/
def Value.deferred : Value → Bytes
  | string s => s.1 ++ [0]
  | binary _ data => data
  | _ => []

theorem Value.toByte_type_ne (value : Value) :
    value.type.toByte ≠ eoo.toByte ∧ value.type.toByte ≠ 0xff := by
  have hvalue : value.type ≠ .eoo := by cases value <;> nofun
  have hbyte : ∀ t : BsonType, t ≠ .eoo → t.toByte ≠ eoo.toByte ∧ t.toByte ≠ 0xff := by
    intro t
    cases t <;> decide
  exact hbyte _ hvalue

theorem Value.flatten_pieces {value : Value} :
    value.pieces.flatten = value.inline ++ value.deferred := by
  cases value <;> simp [pieces, inline, deferred]

namespace BsonDecoder

variable {d : BsonDecoder} {doc rest : Bytes} {p : ℕ}

/-- The decoder has read the file `doc` up to the position `p`. -/
def upTo (d : BsonDecoder) (doc : Bytes) (p : ℕ) : BsonDecoder :=
  { d with fd := some ⟨doc, p⟩, totalDecodedSize := BitVec.ofNat 32 p }

theorem drop_add (data) (h : doc.drop p = data ++ rest) : doc.drop (p + data.length) = rest := by
  rw [← drop_drop, h, drop_left]

variable (halive : d.dead = false)
include halive

theorem readX_upTo (data) (h : doc.drop p = data ++ rest) :
    (d.upTo doc p).readX data.length = (d.upTo doc (p + data.length), some data) := by
  obtain ⟨hread, -⟩ := ByteFile.read_of_remaining (f := ⟨doc, p⟩) h
  change (if d.dead then _ else _) = _
  rw [halive, if_neg Bool.false_ne_true]
  dsimp only [upTo]
  rw [hread, if_pos rfl]
  unfold decoded ByteFile.afterRead
  rw [hread, BitVec.ofNat_add]

variable {b : UInt8} {w n left : ℕ} {name : List UInt8} {toUnion : BitVec w → BsonUnion}
  {v : BitVec w}

theorem readInt8_upTo (h : doc.drop p = b :: rest) :
    (d.upTo doc p).readInt8 = (d.upTo doc (p + 1), some b) := by
  unfold readInt8
  rw [show (d.upTo doc p).readX 1 = _ from readX_upTo halive [b] h]
  rfl

theorem readInt_upTo (hw : 2 ^ w = 256 ^ (w / 8)) (h : doc.drop p = toBytes (w / 8) n ++ rest) :
    (d.upTo doc p).readInt w = (d.upTo doc (p + w / 8), some (BitVec.ofNat w n)) := by
  have hread := readX_upTo halive _ h
  rw [length_toBytes] at hread
  unfold readInt
  rw [hread]
  dsimp only
  rw [Option.map_some, ofNat_toNat_toBytes hw]

theorem readName_upTo (hname : 0 ∉ name)
    (hleft : name.length < left) (h : doc.drop p = name ++ 0 :: rest) :
    readName left (d.upTo doc p) =
      (BsonDecoder.upTo { d with node.name := d.node.name ++ name } doc (p + name.length + 1),
        true) := by
  induction name generalizing d p left with
  | nil =>
    obtain ⟨left, rfl⟩ := Nat.exists_eq_add_of_lt hleft
    rw [length_nil]
    unfold readName
    rw [readInt8_upTo halive h]
    dsimp only
    rw [if_pos rfl, append_nil]
  | cons c name ih =>
    obtain ⟨hc, hname⟩ := not_or.mp (mt mem_cons.mpr hname)
    cases left with
    | zero => cases hleft
    | succ left =>
      have hdrop : doc.drop (p + 1) = name ++ 0 :: rest := drop_add [c] h
      unfold readName
      rw [readInt8_upTo halive h]
      dsimp only
      rw [if_neg (Ne.symm hc)]
      have hrest := ih (d := { d with node.name := d.node.name ++ [c] }) halive hname
        (Nat.lt_of_succ_lt_succ hleft) hdrop
      rw [show ({ d.upTo doc (p + 1) with
          node.name := (d.upTo doc (p + 1)).node.name ++ [c] } : BsonDecoder) =
        BsonDecoder.upTo { d with node.name := d.node.name ++ [c] } doc (p + 1) from rfl, hrest]
      rw [append_assoc, singleton_append, length_cons]
      rw [show p + 1 + name.length + 1 = p + (name.length + 1) + 1 by omega]

/-! ## The value -/

theorem readUnion_upTo (hw : 2 ^ w = 256 ^ (w / 8))
    (h : doc.drop p = toBytes (w / 8) v.toNat ++ rest) :
    (d.upTo doc p).readUnion w toUnion =
      (BsonDecoder.upTo { d with node.value := toUnion v } doc (p + w / 8), true) := by
  unfold readUnion
  rw [readInt_upTo halive hw h, BitVec.ofNat_toNat, BitVec.setWidth_eq]
  rfl

theorem readPending_upTo (h : doc.drop p = toBytes 4 n ++ rest) :
    (d.upTo doc p).readPending =
      (BsonDecoder.upTo { d with pending := BitVec.ofNat 32 n } doc (p + 4), true) := by
  unfold readPending
  rw [readInt_upTo halive (by decide) h]
  rfl

theorem readSubtype_upTo (build : Build) (h : doc.drop p = b :: rest) :
    (d.upTo doc p).readSubtype build =
      (BsonDecoder.upTo { d with node.subtype := build.extend b } doc (p + 1), true) := by
  unfold readSubtype
  rw [readInt8_upTo halive h]
  rfl

end BsonDecoder

open BsonDecoder

/-- What reading a value leaves in the node. -/
def BsonNode.readValue (build : Build) (n : BsonNode) : Value → BsonNode
  | .bool b => { n with value := .b b }
  | .int32 i => { n with value := .i32 i }
  | .int64 i => { n with value := .i64 i }
  | .double d => { n with value := .d d }
  | .string _ => n
  | .binary subtype _ => { n with subtype := build.extend (subtypeByte subtype) }

namespace BsonDecoder

variable {build : Build} {d : BsonDecoder} {doc rest : Bytes} {p : ℕ}

variable {d' d₁ d₂ d₃ : BsonDecoder} {value : Value} {tbyte : UInt8} {size fuel : ℕ}
  {nodes : List Node}

theorem readValue_of_bindata (htype : d.node.type = bindata.toByte)
    (hread : d.readPending = (d', true)) : d.readValue build = d'.readSubtype build := by
  unfold readValue
  rw [htype, if_neg (by decide), if_neg (by decide), if_pos rfl, hread]

theorem readValue_upTo (build : Build) (halive : d.dead = false)
    (htype : d.node.type = value.type.toByte) (h : doc.drop p = value.inline ++ rest) :
    (upTo { d with pending := 0 } doc p).readValue build =
      (upTo { d with
          node := d.node.readValue build value
          pending := BitVec.ofNat 32 value.deferred.length } doc (p + value.inline.length),
        true) := by
  let d₀ : BsonDecoder := { d with pending := 0 }
  have halive : d₀.dead = false := halive
  have htype : (d₀.upTo doc p).node.type = value.type.toByte := htype
  cases value with
  | bool b =>
    rw [readValue, htype]
    have hbyte : doc.drop p = toBytes (8 / 8) (BitVec.ofBool b |>.setWidth 8).toNat ++ rest := by
      rw [h]
      cases b <;> rfl
    rw [readUnion_upTo halive (by decide) hbyte]
    cases b <;> rfl
  | int32 i =>
    rw [readValue, htype]
    change (d₀.upTo doc p).readUnion 32 .i32 = _
    rw [readUnion_upTo halive (by decide) h]
    rfl
  | int64 i =>
    rw [readValue, htype]
    change (d₀.upTo doc p).readUnion 64 .i64 = _
    rw [readUnion_upTo halive (by decide) h]
    rfl
  | double i =>
    rw [readValue, htype]
    rw [readUnion_upTo halive (by decide) h]
    rfl
  | string s =>
    rw [readValue, htype]
    rw [readPending_upTo halive h, Value.deferred, length_append]
    rfl
  | binary subtype data =>
    rw [Value.inline, append_assoc] at h
    have hsubtype := drop_add _ h
    rw [length_toBytes] at hsubtype
    rw [readValue_of_bindata htype (readPending_upTo halive h),
      readSubtype_upTo (d := { d₀ with pending := BitVec.ofNat 32 data.length }) halive build
        hsubtype]
    rfl

/-! ## The node -/

/-- The decoder with a node for the callback. -/
def load (build : Build) (d : BsonDecoder) (node : Node) : BsonDecoder :=
  { d with
    node := BsonNode.readValue build
      { d.node with name := node.name.1, type := node.value.type.toByte } node.value
    pending := BitVec.ofNat 32 node.value.deferred.length }

theorem readNode_of_value (htype : d.readInt8 = (d₁, some tbyte)) (heoo : tbyte ≠ eoo.toByte)
    (herased : tbyte ≠ 0xff)
    (hname : readName bsonMaxname { d₁ with
      node := { d₁.node with type := tbyte, name := [] }, pending := 0 } = (d₂, true))
    (hvalue : d₂.readValue build = (d₃, true)) : d.readNode build = (d₃, none) := by
  unfold readNode
  rw [htype]
  dsimp only
  rw [if_neg heoo, if_neg (by simp [isErased, herased]), hname]
  dsimp only
  rw [hvalue]

theorem readNode_upTo (build : Build) (halive : d.dead = false) {node}
    (hname : node.name.1.length < bsonMaxname) (h : doc.drop p = node.encode ++ rest) :
    let r := p + (node.name.1.length + 2 + node.value.inline.length)
    (d.upTo doc p).readNode build = ((d.load build node).upTo doc r, none) ∧
      doc.drop r = node.value.deferred ++ rest := by
  have htype : doc.drop p = node.value.type.toByte ::
      (node.name.1 ++ 0 :: (node.value.inline ++ (node.value.deferred ++ rest))) := by
    rw [h, Node.encode, Value.flatten_pieces]
    simp
  have hstart : doc.drop (p + 1) =
      node.name.1 ++ 0 :: (node.value.inline ++ (node.value.deferred ++ rest)) :=
    drop_add [_] htype
  have hvalue : doc.drop (p + 1 + node.name.1.length + 1) =
      node.value.inline ++ (node.value.deferred ++ rest) := by
    have hdrop := drop_add (node.name.1 ++ [0]) (hstart.trans (append_cons _ _ _))
    rwa [length_append] at hdrop
  have hend : p + 1 + node.name.1.length + 1 + node.value.inline.length =
      p + (node.name.1.length + 2 + node.value.inline.length) := by
    omega
  refine ⟨?_, hend ▸ drop_add _ hvalue⟩
  let d₁ : BsonDecoder :=
    { d with node := { d.node with name := [], type := node.value.type.toByte }, pending := 0 }
  let d₂ : BsonDecoder := { d₁ with node.name := [] ++ node.name.1 }
  have hne := node.value.toByte_type_ne
  have hread := readValue_upTo build (d := d₂) halive rfl hvalue
  rw [hend] at hread
  exact readNode_of_value (readInt8_upTo halive htype) hne.1 hne.2
    (readName_upTo (d := d₁) halive node.name.2 hname hstart) hread

/-! ## The calls -/

variable {σ : Type*} (build : Build) (callback : σ → BsonDecoder → σ × BsonDecoder × ℤ) (s : σ)

section

variable (halive : d.dead = false) (hpending : d.pending = 0) (htype : d.node.type ≠ eoo.toByte)
include halive hpending htype

variable {error : Option ℤ}

theorem next_of_readNode (hread : d.readNode build = (d', error)) :
    d.next build callback s = error.elim (callback s d') fun result => (s, d', result) := by
  have hdiscard : discard (0 : BitVec 32).toInt.toNat d = (d, true) := rfl
  unfold next
  rw [halive, if_neg (not_and.mpr fun hc => absurd hc htype)]
  dsimp only
  rw [if_neg htype, hpending, hdiscard]
  dsimp only
  rw [hread]
  cases error <;> rfl

theorem next_node {node} (hname : node.name.1.length < bsonMaxname)
    (h : doc.drop p = node.encode ++ rest) :
    (d.upTo doc p).next build callback s = callback s ((d.load build node).upTo doc
        (p + (node.name.1.length + 2 + node.value.inline.length))) :=
  next_of_readNode (d := d.upTo doc p) build callback s halive hpending htype
    (readNode_upTo build halive hname h).1

theorem next_eoo (h : doc.drop p = [eoo.toByte]) :
    (d.upTo doc p).next build callback s =
      callback s (upTo
        { d with
          node := { d.node with name := [], type := eoo.toByte }
          pending := 0 } doc (p + 1)) := by
  refine next_of_readNode (d := d.upTo doc p) build callback s halive hpending htype
    (?_ : _ = (_, none))
  unfold readNode
  rw [readInt8_upTo halive h]
  rfl

end

/-- Erased flash is recognised where a type is a byte. -/
theorem next_erased (hbuild : build.shortEnums) (halive : d.dead = false)
    (hpending : d.pending = 0) (htype : d.node.type ≠ eoo.toByte) (h : doc.drop p = 0xff :: rest) :
    (d.upTo doc p).next build callback s =
      (s, (upTo { d with node.type := 0xff, pending := 0 } doc (p + 1)).kill, -enodata) := by
  refine next_of_readNode (d := d.upTo doc p) build callback s halive hpending htype
    (?_ : _ = (_, some _))
  unfold readNode
  rw [readInt8_upTo halive h]
  dsimp only
  rw [isErased, hbuild]
  rfl

/-- Behind the terminator of the top-level document, the decoder returns zero. -/
theorem next_done (halive : d.dead = false) (htype : d.node.type = eoo.toByte)
    (hnesting : d.nesting = 1) :
    d.next build callback s = (s, { d with nesting := 0, fd := none }, 0) := by
  unfold next
  rw [halive, if_neg Bool.false_ne_true, if_pos ⟨htype, by rw [hnesting]⟩]

theorem load_type (d : BsonDecoder) (node : Node) :
    (d.load build node).node.type = node.value.type.toByte := by
  unfold load BsonNode.readValue
  cases node.value <;> rfl

theorem length_encode (node : Node) : node.encode.length =
    node.name.1.length + 2 + node.value.inline.length + node.value.deferred.length := by
  rw [Node.encode, Value.flatten_pieces]
  simp only [length_append, length_singleton]
  omega

/-- A callback that reads each accepted node and updates its state by `onNode` or `onEoo`. -/
structure Consumes (build : Build) (callback : σ → BsonDecoder → σ × BsonDecoder × ℤ)
    (Accepts : Node → Prop) (onNode : σ → Node → σ) (onEoo : σ → σ) (eooResult : ℤ) : Prop where
  node : ∀ (s : σ) (d : BsonDecoder) (doc rest : Bytes) (p : ℕ) (node : Node), Accepts node →
    d.dead = false → node.value.deferred.length < 2 ^ 32 →
    doc.drop p = node.value.deferred ++ rest →
    callback s ((d.load build node).upTo doc p) = (onNode s node,
        upTo { d.load build node with pending := 0 } doc (p + node.value.deferred.length), 1)
  eoo : ∀ (s : σ) (d : BsonDecoder), d.node.type = eoo.toByte →
    callback s d = (onEoo s, d, eooResult)

variable {callback} {Accepts : Node → Prop} {onNode : σ → Node → σ} {onEoo : σ → σ} {eooResult : ℤ}

section

variable (hcallback : Consumes build callback Accepts onNode onEoo eooResult)
include hcallback

/-- At the terminator the callback is called once more, and the loop ends with zero either way. -/
theorem decodeLoop_eoo (heoo : 0 ≤ eooResult) (halive : d.dead = false) (hpending : d.pending = 0)
    (hnesting : d.nesting = 1) (htype : d.node.type ≠ eoo.toByte) (h : doc.drop p = [eoo.toByte])
    (fuel) :
    ∃ d', decodeLoop build callback (fuel + 2) s (d.upTo doc p) = some (onEoo s, d', 0) ∧
      d'.totalDocumentSize = d.totalDocumentSize ∧
      d'.totalDecodedSize = BitVec.ofNat 32 (p + 1) := by
  let d₁ : BsonDecoder := upTo
    { d with
      node := { d.node with name := [], type := eoo.toByte }
      pending := 0 } doc (p + 1)
  have hnext : (d.upTo doc p).next build callback s = (onEoo s, d₁, eooResult) :=
    (next_eoo build _ _ halive hpending htype h).trans (hcallback.eoo s d₁ rfl)
  by_cases hmore : eooResult > 0
  · refine ⟨{ d₁ with nesting := 0, fd := none }, ?_, rfl, rfl⟩
    unfold decodeLoop
    rw [hnext]
    dsimp only
    rw [if_pos hmore]
    unfold decodeLoop
    rw [next_done (d := d₁) build _ _ halive rfl hnesting]
    rfl
  · obtain rfl : eooResult = 0 := by omega
    refine ⟨d₁, ?_, rfl, rfl⟩
    unfold decodeLoop
    rw [hnext]
    rfl

theorem decodeLoop_nodes {nodes : List Node}
    (hnames : ∀ node ∈ nodes, Accepts node ∧ node.name.1.length < bsonMaxname)
    (hsize : (nodes.flatMap Node.encode).length < 2 ^ 32) (halive : d.dead = false)
    (hpending : d.pending = 0) (htype : d.node.type ≠ eoo.toByte)
    (h : doc.drop p = nodes.flatMap Node.encode ++ rest) (fuel) :
    ∃ d' : BsonDecoder, decodeLoop build callback (nodes.length + fuel) s (d.upTo doc p) =
        decodeLoop build callback fuel (nodes.foldl onNode s)
          (d'.upTo doc (p + (nodes.flatMap Node.encode).length)) ∧
      d'.dead = false ∧ d'.pending = 0 ∧ d'.node.type ≠ eoo.toByte ∧ d'.nesting = d.nesting ∧
      d'.totalDocumentSize = d.totalDocumentSize := by
  induction nodes generalizing d p s with
  | nil => exact ⟨d, by rw [length_nil, Nat.zero_add]; rfl, halive, hpending, htype, rfl, rfl⟩
  | cons node nodes ih =>
    obtain ⟨⟨haccepts, hname⟩, hnames⟩ := forall_mem_cons.mp hnames
    rw [flatMap_cons, length_append, length_encode] at hsize
    rw [flatMap_cons, append_assoc] at h
    obtain ⟨-, hdeferred⟩ := readNode_upTo build halive hname h
    have hnext := (next_node build callback s halive hpending htype hname h).trans
      (hcallback.node s d doc _ _ node haccepts halive (by omega) hdeferred)
    obtain ⟨d', hloop, hstate⟩ := ih (onNode s node) hnames (by omega)
      (d := { d.load build node with pending := 0 }) halive rfl
      (load_type build d node ▸ node.value.toByte_type_ne.1) (drop_add _ hdeferred)
    refine ⟨d', ?_, hstate⟩
    rw [length_cons, Nat.succ_add, decodeLoop, hnext, flatMap_cons, length_append, length_encode]
    simp only [Nat.add_assoc] at hloop ⊢
    exact hloop

end

/-- The decoder at the beginning of a document. -/
theorem initFile_upTo (h : doc = toBytes 4 (BitVec.ofNat 32 size).toNat ++ rest) :
    initFile {} ⟨doc, 0⟩ = (upTo
        { nesting := 1
          node := { type := undefined.toByte }
          totalDocumentSize := BitVec.ofNat 32 size } doc 4, true) := by
  let d₀ : BsonDecoder := { nesting := 1, node := { type := undefined.toByte } }
  have hread : (d₀.upTo doc 0).readInt 32 = (d₀.upTo doc 4, some (BitVec.ofNat 32 size)) := by
    have hread := readInt_upTo (d := d₀) (p := 0) (w := 32) rfl (by decide) h
    rwa [BitVec.ofNat_toNat] at hread
  change (d₀.upTo doc 0).readDocumentSize = _
  unfold readDocumentSize
  rw [hread]
  rfl

/-- A document that fits is handed over node by node; the loop returns zero, the sizes agree. -/
theorem decode_document (hcallback : Consumes build callback Accepts onNode onEoo eooResult)
    (heoo : 0 ≤ eooResult)
    (hnames : ∀ node ∈ nodes, Accepts node ∧ node.name.1.length < bsonMaxname)
    (hsize : documentSize nodes < 2 ^ 31)
    (h : doc = toBytes 4 (BitVec.ofNat 32 (documentSize nodes)).toNat ++ encodeNodes nodes)
    (hfuel : nodes.length + 2 ≤ fuel) :
    ∃ d d', initFile {} ⟨doc, 0⟩ = (d, true) ∧
      decodeLoop build callback fuel s d = some (onEoo (nodes.foldl onNode s), d', 0) ∧
      d'.totalDocumentSize = BitVec.ofNat 32 doc.length ∧
      d'.totalDecodedSize = BitVec.ofNat 32 doc.length := by
  have hlength : doc.length = documentSize nodes := by
    rw [h, length_append, length_toBytes, documentSize]
  have hdrop : doc.drop 4 = encodeNodes nodes := by
    rw [h]
    exact drop_left' (length_toBytes ..)
  have hfits : (nodes.flatMap Node.encode).length + 1 < 2 ^ 32 := by
    rw [documentSize, encodeNodes, length_append] at hsize
    omega
  obtain ⟨fuel, rfl⟩ : ∃ n, fuel = nodes.length + (n + 2) := ⟨fuel - nodes.length - 2, by omega⟩
  obtain ⟨d₁, hnodes, halive, hpending, htype, hnesting, hdocument₁⟩ := decodeLoop_nodes build s
    hcallback hnames (by omega)
    (d := { nesting := 1
            node := { type := undefined.toByte }
            totalDocumentSize := BitVec.ofNat 32 (documentSize nodes) })
    rfl rfl (show undefined.toByte ≠ eoo.toByte by decide) hdrop (fuel + 2)
  obtain ⟨d', hloop, hdocument, hdecoded⟩ := decodeLoop_eoo build (nodes.foldl onNode s) hcallback
    heoo halive hpending hnesting htype (drop_add _ hdrop) fuel
  refine ⟨_, d', initFile_upTo h, hnodes.trans hloop, ?_, ?_⟩
  · rw [hdocument, hdocument₁, hlength]
  · rw [hdecoded, hlength, documentSize, encodeNodes, length_append, length_singleton,
      Nat.add_assoc]

end BsonDecoder

end Px4.Tinybson
