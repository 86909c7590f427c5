import Px4.Tinybson.NextNode

/-!
# The BSON round trip

The encoder accepts names of up to `BSON_MAXNAME` bytes, the decoder has room for as many including
the terminator. A subtype is written as a byte and read as an `int8_t`.
-/

namespace Px4.Tinybson

open BsonType List LittleEndian Node

/-! ## A callback that keeps everything -/

/-- The node that the callback is given, with the data that it has copied. -/
def BsonNode.toNode (n : BsonNode) (data : Bytes) : Node where
  name := .ofBytes n.name
  value :=
    if n.type = double.toByte then .double n.value.getD
    else if n.type = string.toByte then .string (.ofBytes data)
    else if n.type = bindata.toByte then .binary n.subtype data
    else if n.type = bool.toByte then .bool n.value.getB
    else if n.type = int32.toByte then .int32 n.value.getI32
    else .int64 n.value.getI64

/-- What the callback is called with. -/
inductive Delivered where
  | node (node : Node)
  | eoo
deriving DecidableEq

/-- The callback keeps every node with its data. It returns the given value for the terminator. -/
def collect (eooResult : ℤ) (delivered : List Delivered) (d : BsonDecoder) :
    List Delivered × BsonDecoder × ℤ :=
  if d.node.type = eoo.toByte then (delivered ++ [.eoo], d, eooResult)
  else
    match d.copyData with
    | (d, none) => (delivered, d, -1)
    | (d, some data) => (delivered ++ [.node (d.node.toNode data)], d, 1)

/-- Open the file and decode it, if this ends in `fuel` rounds. -/
def decodeFile (build : Build) (eooResult : ℤ) (file : ByteFile) (fuel : ℕ) :
    Option (List Delivered × BsonDecoder × ℤ) :=
  match BsonDecoder.initFile {} (file.seek 0) with
  | (_, false) => none
  | (d, true) => BsonDecoder.decodeLoop build (collect eooResult) fuel [] d

/-- Decoding the file delivers the nodes and the terminator, returns zero, and all sizes agree. -/
def RoundTrips (build : Build) (eooResult : ℤ) (nodes : List Node) (file : ByteFile) : Prop :=
  ∃ fuel d, decodeFile build eooResult file fuel = some (nodes.map .node ++ [.eoo], d, 0) ∧
    d.totalDocumentSize.toInt = file.bytes.length ∧ d.totalDecodedSize.toInt = file.bytes.length

/-- The name fits into a node, and the subtype is the one that its byte is read as. -/
structure Node.Fits (build : Build) (node : Node) : Prop where
  name_lt : node.name.1.length < bsonMaxname
  subtype_eq : ∀ subtype data, node.value = .binary subtype data →
    build.extend (subtypeByte subtype) = subtype

/-- Only the byte of a subtype comes back. -/
theorem Build.extend_subtypeByte (build : Build) (byte : UInt8) :
    build.extend (subtypeByte (build.extend byte)) = build.extend byte := by
  have hbyte : subtypeByte (build.extend byte) = byte := by
    unfold Build.extend subtypeByte
    apply UInt8.toBitVec_inj.mp
    split
    · simp
    · ext i hi
      rw [BitVec.getElem_setWidth, BitVec.getLsbD_signExtend]
      simp [hi, Nat.lt_trans hi (by decide : 8 < 32)]
  rw [hbyte]

/-- A callback that copies the data of a node that fits gets the node. -/
theorem BsonNode.toNode_readValue {build : Build} {node : Node} (h : node.Fits build)
    (n : BsonNode) :
    BsonNode.toNode (BsonNode.readValue build
      { n with name := node.name.1, type := node.value.type.toByte } node.value)
      node.value.deferred = node := by
  obtain ⟨name, value⟩ := node
  cases value with
  | string s =>
    change (⟨.ofBytes name.1, .string (.ofBytes (s.1 ++ [0]))⟩ : Node) = _
    rw [name.ofBytes_self, s.ofBytes_append]
  | bool b => exact congrArg (Node.mk · _) name.ofBytes_self
  | int32 i => exact congrArg (Node.mk · _) name.ofBytes_self
  | int64 i => exact congrArg (Node.mk · _) name.ofBytes_self
  | double d => exact congrArg (Node.mk · _) name.ofBytes_self
  | binary subtype data =>
    change (⟨.ofBytes name.1, .binary (build.extend (subtypeByte subtype)) data⟩ : Node) = _
    rw [name.ofBytes_self, h.subtype_eq subtype data rfl]

namespace BsonDecoder

variable {build : Build} {d : BsonDecoder}

theorem collect_consumes (eooResult : ℤ) :
    Consumes build (collect eooResult) (Fits build)
      (fun delivered node => delivered ++ [.node node]) (· ++ [.eoo]) eooResult where
  node delivered d doc rest p node hfits halive hlength h := by
    have hpending :
        ((d.load build node).upTo doc p).pending.toNat = node.value.deferred.length := by
      change (BitVec.ofNat 32 _).toNat = _
      rw [BitVec.toNat_ofNat, Nat.mod_eq_of_lt hlength]
    have hne : ((d.load build node).upTo doc p).node.type ≠ eoo.toByte :=
      load_type build d node ▸ node.value.toByte_type_ne.1
    have halive' : ((d.load build node).upTo doc p).dead = false := halive
    have hnode : (d.load build node).node.toNode node.value.deferred = node :=
      BsonNode.toNode_readValue hfits d.node
    unfold collect
    rw [if_neg hne]
    unfold copyData
    rw [halive', hpending, readX_upTo (d := d.load build node) halive _ h]
    change (delivered ++ [.node ((d.load build node).node.toNode node.value.deferred)], _, _) = _
    rw [hnode]
    rfl
  eoo _ _ htype := if_pos htype

theorem foldl_delivered {delivered : List Delivered} {nodes : List Node} :
    nodes.foldl (fun delivered node => delivered ++ [.node node]) delivered =
      delivered ++ nodes.map .node := by
  induction nodes generalizing delivered with
  | nil => rw [foldl_nil, map_nil, append_nil]
  | cons node nodes ih => rw [foldl_cons, ih, append_assoc]; rfl

/-! ## What can be delivered -/

variable (d)

theorem readX_node (s) : (d.readX s).1.node = d.node := by
  unfold readX
  split
  · rfl
  split
  · dsimp only
    split <;> rfl
  · split
    · rfl
    · split <;> rfl
  · rfl

theorem readInt8_node : d.readInt8.1.node = d.node := d.readX_node 1

variable {w left : ℕ} {d' : BsonDecoder}

theorem readInt_node : (d.readInt w).1.node = d.node :=
  d.readX_node (w / 8)

variable {d}

theorem readName_length (h : readName left d = (d', true)) :
    d'.node.name.length < d.node.name.length + left := by
  induction left generalizing d with
  | zero => cases h
  | succ left ih =>
    unfold readName at h
    split at h
    · cases h
    next d₁ c hread =>
      have hnode : d₁.node = d.node := by
        rw [← d.readInt8_node, hread]
      split at h
      · cases h
        rw [hnode]
        omega
      · have hlength := ih h
        rw [length_append, hnode, length_singleton] at hlength
        omega

variable (d)

/-- Reading a value does not change the name and the type of the node. -/
def SameHead (n n' : BsonNode) : Prop := n'.name = n.name ∧ n'.type = n.type

theorem readUnion_head (w : ℕ) (toUnion : BitVec w → BsonUnion) :
    SameHead d.node (d.readUnion w toUnion).1.node := by
  rw [← d.readInt_node (w := w)]
  unfold readUnion
  split
  next h => rw [h]; exact ⟨rfl, rfl⟩
  next h => rw [h]; exact ⟨rfl, rfl⟩

theorem readPending_node : d.readPending.1.node = d.node := by
  rw [← d.readInt_node]
  unfold readPending
  split
  next h => rw [h]; rfl
  next h => rw [h]

theorem readSubtype_head (build : Build) : SameHead d.node (d.readSubtype build).1.node := by
  rw [← d.readInt8_node]
  unfold readSubtype
  split
  next h => rw [h]; exact ⟨rfl, rfl⟩
  next h => rw [h]; exact ⟨rfl, rfl⟩

theorem readValue_head (build : Build) : SameHead d.node (d.readValue build).1.node := by
  unfold readValue
  split_ifs
  · exact d.readUnion_head ..
  · rw [d.readPending_node]; exact ⟨rfl, rfl⟩
  · have hpending := d.readPending_node
    split
    next h => rw [← hpending, h]; exact ⟨rfl, rfl⟩
    next d₁ h =>
      rw [← hpending, h]
      exact d₁.readSubtype_head build
  · exact d.readUnion_head ..
  · exact d.readUnion_head ..
  · exact d.readUnion_head ..
  · exact ⟨rfl, rfl⟩

variable {d} {d' : BsonDecoder}

/-- The subtype of a binary value is read from a byte. -/
theorem readValue_subtype (htype : d.node.type = bindata.toByte)
    (h : d.readValue build = (d', true)) : ∃ byte, d'.node.subtype = build.extend byte := by
  rw [readValue, htype, if_neg (by decide), if_neg (by decide), if_pos rfl] at h
  split at h
  · cases h
  · unfold readSubtype at h
    split at h
    · cases h
    · cases h
      exact ⟨_, rfl⟩

/-- What the callback is called with: a short name, and for a binary value a subtype of a byte. -/
theorem readNode_fits (h : d.readNode build = (d', none)) :
    d'.node.name.length < bsonMaxname ∧
      (d'.node.type = bindata.toByte → ∃ byte, d'.node.subtype = build.extend byte) := by
  unfold readNode at h
  split at h
  · cases h
  next d₁ tbyte _ =>
    dsimp only at h
    split at h
    next heoo =>
      cases h
      exact ⟨(by decide : 0 < bsonMaxname), fun htype => absurd (heoo.symm.trans htype) (by decide)⟩
    split at h
    · cases h
    split at h
    · cases h
    next d₂ hname =>
      have hlength := readName_length hname
      have hhead := d₂.readValue_head build
      split at h
      · cases h
      next d₃ hread =>
        cases h
        rw [hread] at hhead
        refine ⟨?_, fun htype => readValue_subtype (hhead.2.symm.trans htype) hread⟩
        rw [hhead.1]
        simpa using hlength

theorem copyData_node : d.copyData.1.node = d.node := by
  have hread := d.readX_node d.pending.toNat
  unfold copyData
  split
  · rfl
  · split
    next h => rw [← hread, h]; rfl
    next h => rw [← hread, h]

/-- The nodes that were delivered fit. -/
def NodesFit (build : Build) (delivered : List Delivered) : Prop :=
  ∀ node, .node node ∈ delivered → node.Fits build

variable {eooResult : ℤ} {delivered delivered' : List Delivered}

theorem collect_nodesFit (h : NodesFit build delivered)
    (hname : d.node.name.length < bsonMaxname)
    (hsubtype : d.node.type = bindata.toByte → ∃ byte, d.node.subtype = build.extend byte) :
    NodesFit build (collect eooResult delivered d).1 := by
  unfold collect
  split
  · intro node hnode
    simp only [mem_append, mem_singleton, reduceCtorEq, or_false] at hnode
    exact h node hnode
  · have hcopy := d.copyData_node
    split
    · exact h
    next d₁ data hdata =>
      intro node hnode
      rw [hdata] at hcopy
      rcases mem_append.mp hnode with hold | hnew
      · exact h node hold
      · cases mem_singleton.mp hnew
        rw [hcopy]
        refine ⟨Nat.lt_of_le_of_lt ( takeWhile_prefix _).length_le hname, ?_⟩
        intro subtype data' hvalue
        by_cases htype : d.node.type = bindata.toByte
        · obtain ⟨byte, hbyte⟩ := hsubtype htype
          simp only [BsonNode.toNode, htype] at hvalue
          obtain ⟨rfl, -⟩ := Value.binary.inj hvalue
          rw [hbyte, build.extend_subtypeByte]
        · -- a node of another type has no binary value
          simp only [BsonNode.toNode, htype, if_false] at hvalue
          split_ifs at hvalue

theorem next_nodesFit (build : Build) (eooResult : ℤ) (d : BsonDecoder)
    (h : NodesFit build delivered) :
    NodesFit build (d.next build (collect eooResult) delivered).1 := by
  unfold next
  split_ifs
  · exact h
  · exact h
  all_goals
    dsimp only
    split
    · exact h
    · split
      · exact h
      next hread => exact collect_nodesFit h (readNode_fits hread).1 (readNode_fits hread).2

theorem decodeLoop_nodesFit {fuel : ℕ} {result : ℤ} (h : NodesFit build delivered)
    (hloop : decodeLoop build (collect eooResult) fuel delivered d =
      some (delivered', d', result)) : NodesFit build delivered' := by
  induction fuel generalizing delivered d with
  | zero => cases hloop
  | succ fuel ih =>
    have hnext := next_nodesFit build eooResult d h
    unfold decodeLoop at hloop
    split at hloop
    next heq =>
      rw [heq] at hnext
      split at hloop
      · exact ih hnext hloop
      · cases hloop
        exact hnext

/-! ## Blank storage -/

/-- The other errors of `readNode` are `-1`. -/
theorem readNode_enodata (h : d.readNode build = (d', some (-enodata))) :
    build.shortEnums = true := by
  unfold readNode at h
  split at h
  · cases h
  · dsimp only at h
    split at h
    · cases h
    split at h
    next herased => exact (Bool.and_eq_true_iff.mp herased).1
    split at h
    · cases h
    · split at h <;> cases h

/-- `-ENODATA` is returned for an erased type, or is what the callback returns for a terminator. -/
theorem next_enodata (build : Build) (eooResult : ℤ) (delivered : List Delivered)
    (d : BsonDecoder) (h : (d.next build (collect eooResult) delivered).2.2 = -enodata) :
    build.shortEnums = true ∨ .eoo ∈ (d.next build (collect eooResult) delivered).1 := by
  unfold next at h ⊢
  split_ifs at h ⊢
  · cases h
  · cases h
  all_goals
    dsimp only at h ⊢
    split at h
    next hdiscard => cases h
    next d₁ hdiscard =>
      split at h
      next error hread =>
        obtain rfl : error = -enodata := h
        exact .inl (readNode_enodata hread)
      next d₂ hread =>
        unfold collect at h ⊢
        split
        · exact .inr (mem_append_right _ (mem_singleton_self _))
        next htype =>
          rw [if_neg htype] at h
          split at h <;> cases h

theorem decodeLoop_enodata {fuel : ℕ}
    (h : decodeLoop build (collect eooResult) fuel delivered d = some (delivered', d', -enodata)) :
    build.shortEnums = true ∨ .eoo ∈ delivered' := by
  induction fuel generalizing delivered d with
  | zero => cases h
  | succ fuel ih =>
    have hnext := next_enodata build eooResult delivered d
    unfold decodeLoop at h
    split at h
    next heq =>
      rw [heq] at hnext
      split at h
      · exact ih h
      · cases h
        exact hnext rfl

end BsonDecoder

open BsonDecoder

variable {build : Build} {eooResult : ℤ} {nodes : List Node} {file : ByteFile}

/-- Only nodes that fit are delivered. -/
theorem decodeFile_fits {delivered : List Delivered} {d : BsonDecoder} {result : ℤ} {fuel : ℕ}
    (hdecode : decodeFile build eooResult file fuel = some (delivered, d, result)) :
    NodesFit build delivered := by
  unfold decodeFile at hdecode
  split at hdecode
  · cases hdecode
  · exact decodeLoop_nodesFit (fun _ h => absurd h not_mem_nil) hdecode

/-- A document with a node that does not fit does not round-trip. -/
theorem RoundTrips.fits (h : RoundTrips build eooResult nodes file) :
    ∀ node ∈ nodes, node.Fits build := by
  obtain ⟨fuel, d, hdecode, -⟩ := h
  intro node hnode
  exact decodeFile_fits hdecode node (mem_append_left _ (mem_map_of_mem hnode))

/-- **An accepted document round-trips if and only if** every name is shorter than `BSON_MAXNAME`,
every subtype is the one that its byte is read as, and the size of the document is an `int32_t`. -/
theorem bson_round_trip_iff (build : Build) (eooResult : ℤ) (heoo : 0 ≤ eooResult)
    (env : EncoderEnv) (bufsize : ℕ) (nodes : List Node) (file : ByteFile)
    (hencode : encodeDocument env bufsize nodes = some file) :
    RoundTrips build eooResult nodes file ↔
      (∀ node ∈ nodes, node.Fits build) ∧ documentSize nodes < 2 ^ 31 := by
  obtain ⟨hbytes, -⟩ := encodeDocument_eq hencode
  have hlength := encodeDocument_length hencode
  constructor
  · intro h
    refine ⟨h.fits, ?_⟩
    obtain ⟨fuel, d, -, hdocument, -⟩ := h
    have hlt := BitVec.toInt_lt (x := d.totalDocumentSize)
    rw [hdocument, hlength] at hlt
    exact_mod_cast hlt
  · rintro ⟨hfits, hsize⟩
    obtain ⟨d, d', hinit, hloop, hdocument, hdecoded⟩ :=
      decode_document build [] (collect_consumes eooResult) heoo
        (fun node hnode => ⟨hfits node hnode, (hfits node hnode).name_lt⟩) hsize hbytes
        (Nat.le_refl _)
    have htoInt : (BitVec.ofNat 32 file.bytes.length).toInt = file.bytes.length := by
      rw [BitVec.toInt_eq_toNat_of_lt, BitVec.toNat_ofNat, Nat.mod_eq_of_lt (by omega)]
      rw [BitVec.toNat_ofNat]
      omega
    refine ⟨nodes.length + 2, d', ?_, ?_, ?_⟩
    · unfold decodeFile ByteFile.seek
      rw [hinit]
      change decodeLoop _ _ _ _ _ = _
      rw [hloop, foldl_delivered]
      rfl
    · rw [hdocument]
      exact htoInt
    · rw [hdecoded]
      exact htoInt

/-- A document of a boolean with a name of so many letters, and of binary data. -/
def longName (length : ℕ) (subtype : BitVec 32) : List Node :=
  [{ name := .ofBytes (replicate length 65), value := .bool true },
    { name := .ofBytes [66], value := .binary subtype [7, 0] }]

def longNameFile (length : ℕ) (subtype : UInt8) : ByteFile where
  bytes := [.ofNat (18 + length), 0, 0, 0, 8] ++ replicate length 65 ++
    [0, 1, 5, 66, 0, 2, 0, 0, 0, subtype, 7, 0, 0]
  position := 4

theorem longName_fits {build : Build} {length : ℕ} {subtype : BitVec 32}
    (hlength : length < bsonMaxname) (hsubtype : build.extend (subtypeByte subtype) = subtype) :
    ∀ node ∈ longName length subtype, node.Fits build := by
  intro node hnode
  obtain rfl | rfl : node = _ ∨ node = _ := by simpa [longName] using hnode
  · refine ⟨Nat.lt_of_le_of_lt ( takeWhile_prefix _).length_le ?_, nofun⟩
    rwa [length_replicate]
  · refine ⟨(by decide : (CString.ofBytes [66]).1.length < bsonMaxname), ?_⟩
    intro subtype' data hvalue
    obtain ⟨rfl, -⟩ := Value.binary.inj hvalue
    exact hsubtype

theorem bson_round_trip_long_name :
    RoundTrips ⟨true⟩ 0 (longName 31 128) (longNameFile 31 128) := by
  refine (bson_round_trip_iff ⟨true⟩ 0 (by decide) healthyDisk 40 (longName 31 128)
    (longNameFile 31 128) (by decide +kernel)).mpr ⟨?_, by decide +kernel⟩
  exact longName_fits (by decide) (by decide)

/-- A name of `BSON_MAXNAME` bytes is encoded, but the decoder has no room for its terminator. The
subtype `BSON_BIN_USER` comes back as a negative number without `-fshort-enums`. -/
theorem longest_name_not_decoded :
    encodeDocument healthyDisk 40 (longName 32 0) = some (longNameFile 32 0) ∧
      (decodeFile ⟨true⟩ 0 (longNameFile 32 0) 1).map (fun r => (r.1, r.2.2)) = some ([], -1) ∧
      ¬RoundTrips ⟨true⟩ 0 (longName 32 0) (longNameFile 32 0) ∧
      encodeDocument healthyDisk 40 (longName 1 128) = some (longNameFile 1 128) ∧
      (decodeFile ⟨false⟩ 0 (longNameFile 1 128) 4).map (fun r => (r.1, r.2.2)) =
        some ((longName 1 0xffffff80).map .node ++ [.eoo], 0) ∧
      ¬RoundTrips ⟨false⟩ 0 (longName 1 128) (longNameFile 1 128) := by
  refine ⟨by decide +kernel, by decide +kernel, fun h => ?_, by decide +kernel, by decide +kernel,
    fun h => ?_⟩
  · have hlength := (h.fits _ mem_cons_self).name_lt
    exact absurd hlength (by decide)
  · have hsubtype := (h.fits _ (mem_cons_of_mem _ mem_cons_self)).subtype_eq 128 [7, 0] rfl
    exact absurd hsubtype (by decide)

/-- **Erased flash behind the nodes of a document is recognised exactly if** a type is a byte and
the nodes fit. -/
theorem erased_storage_recognised_iff (build : Build) (eooResult : ℤ) (nodes : List Node)
    (hsize : (nodes.flatMap encode).length < 2 ^ 32) (size : ℕ) (erased : Bytes)
    (position : ℕ) :
    (∃ fuel, (decodeFile build eooResult ⟨toBytes 4 (BitVec.ofNat 32 size).toNat ++
      (nodes.flatMap encode ++ 0xff :: erased), position⟩ fuel).map (fun r => (r.1, r.2.2)) =
        some (nodes.map .node, -enodata)) ↔
      build.shortEnums = true ∧ ∀ node ∈ nodes, node.Fits build := by
  obtain ⟨doc, hdoc⟩ : ∃ doc, doc = toBytes 4 (BitVec.ofNat 32 size).toNat ++
    (nodes.flatMap encode ++ 0xff :: erased) := ⟨_, rfl⟩
  rw [← hdoc]
  constructor
  · rintro ⟨fuel, hdecode⟩
    obtain ⟨⟨delivered, d, result⟩, hdecode, hresult⟩ := Option.map_eq_some_iff.mp hdecode
    obtain ⟨rfl, rfl⟩ := Prod.mk.inj hresult
    refine ⟨?_, fun node hnode => decodeFile_fits hdecode node (mem_map_of_mem hnode)⟩
    unfold decodeFile at hdecode
    split at hdecode
    · cases hdecode
    · exact (decodeLoop_enodata hdecode).resolve_right (by simp)
  · rintro ⟨hbuild, hfits⟩
    have hdrop : doc.drop 4 = nodes.flatMap encode ++ 0xff :: erased :=
      hdoc ▸ drop_left' (length_toBytes ..)
    obtain ⟨d, hnodes, halive, hpending, htype, -⟩ := decodeLoop_nodes build []
      (collect_consumes eooResult)
      (fun node hnode => ⟨hfits node hnode, (hfits node hnode).name_lt⟩) hsize
      (d := { nesting := 1
              node := { type := undefined.toByte }
              totalDocumentSize := BitVec.ofNat 32 size })
      rfl rfl (show undefined.toByte ≠ eoo.toByte by decide) hdrop 1
    refine ⟨nodes.length + 1, ?_⟩
    unfold decodeFile ByteFile.seek
    rw [initFile_upTo hdoc]
    refine (congrArg _ hnodes).trans ?_
    rw [decodeLoop, next_erased build _ _ hbuild halive hpending htype (drop_add _ hdrop),
      foldl_delivered]
    rfl

theorem erased_storage_recognised_two :
    ∃ fuel, (decodeFile ⟨true⟩ 0 ⟨toBytes 4 (BitVec.ofNat 32 0).toNat ++
      ((longName 1 0).flatMap encode ++ [0xff]), 0⟩ fuel).map (fun r => (r.1, r.2.2)) =
        some ((longName 1 0).map .node, -enodata) := by
  refine (erased_storage_recognised_iff ⟨true⟩ 0 (longName 1 0) (by decide) 0 [] 0).mpr
    ⟨rfl, longName_fits (by decide) (by decide)⟩

/-- In an `int`, the type is the negative number of the byte. -/
theorem erased_storage_not_recognised :
    (decodeFile ⟨false⟩ 0 ⟨toBytes 4 (BitVec.ofNat 32 0).toNat ++
      ((longName 1 0).flatMap encode ++ [0xff]), 0⟩ 3).map (fun r => (r.1, r.2.2)) =
        some ((longName 1 0).map .node, -1) := by
  decide +kernel

end Px4.Tinybson
