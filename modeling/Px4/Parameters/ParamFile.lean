import Px4.Parameters.Params
import Px4.Tinybson.Decoder

/-!
# Parameter files

`src/lib/parameters/parameters.cpp`: parameters that are in `user_config` and differ from their
default are exported to a BSON document and verified against it.
-/

namespace Px4.Parameters

open Tinybson BsonDecoder BsonType

namespace Params

variable (fw : Firmware) (build : Build) (disk : EncoderEnv)

/-! ## Export -/

/-- The body of the loop of `param_export_internal`. -/
def exportParam (filter : Option (ParamT → Bool)) (s : Params) (e : BsonEncoder) (param : ParamT) :
    BsonEncoder × Bool :=
  if !s.userConfig.containedAsBitset param || filter.any (fun filter => !filter param) then
    (e, true)
  else
    match fw.table.info param with
    | none => (e, true)
    | some info =>
      match info.type with
      | .int32 =>
        if s.effective fw param = s.runtimeDefault fw param then (e, true)
        else e.appendInt32 disk info.name (s.effective fw param)
      | .float =>
        if fw.floats.within (s.effective fw param) (s.runtimeDefault fw param) then (e, true)
        else e.appendDouble disk info.name (fw.floats.toDouble (s.effective fw param))

/-- The loop of `param_export_internal`, up to the first parameter that fails. -/
def exportLoop (filter : Option (ParamT → Bool)) (s : Params) :
    BsonEncoder → List ParamT → BsonEncoder × Bool
  | e, [] => (e, true)
  | e, param :: params =>
    match s.exportParam fw disk filter e param with
    | (e, false) => (e, false)
    | (e, true) => exportLoop filter s e params

/-- `param_export_internal`, with the file that it leaves. -/
def paramExportInternal (filter : Option (ParamT → Bool)) (s : Params) (file : ByteFile) :
    ByteFile × ℤ :=
  match BsonEncoder.initBufFile disk (file.seek 0) 256 with
  | (e, false) => (e.fd.getD file, -1)
  | (e, true) =>
    match s.exportLoop fw disk filter e fw.table.params with
    | (e, false) => (e.fd.getD file, -1)
    | (e, true) =>
      match e.fini disk with
      | (e, false) => (e.fd.getD file, -1)
      | (e, true) => (e.fd.getD file, 0)

/-! ## Verification -/

/-- `param_verify_callback`, on a node. -/
def verifyNode (s : Params) (node : BsonNode) : ℤ :=
  if node.type = eoo.toByte then 0
  else
    match fw.table.find (.ofBytes node.name) with
    | none => -1
    | some param =>
      if node.type = int32.toByte then
        if fw.table.paramType param ≠ some .int32 then -1
        else if s.paramGet fw param = some node.value.getI32 then 1
        else -1
      else if node.type = double.toByte then
        if fw.table.paramType param ≠ some .float then -1
        else if (s.paramGet fw param).any
            (fw.floats.within · (fw.floats.ofDouble node.value.getD)) then 1
        else -1
      else -1

def paramVerifyCallback (s : Params) (_ : Unit) (d : BsonDecoder) : Unit × BsonDecoder × ℤ :=
  ((), d, s.verifyNode fw d.node)

/-- `param_verify`, if the decoder ends; each round reads at least a byte. -/
def paramVerify (s : Params) (file : ByteFile) : Option ℤ :=
  match initFile {} (file.seek 0) with
  | (_, false) => some (-1)
  | (d, true) =>
    match decodeLoop build (s.paramVerifyCallback fw) (file.bytes.length + 2) () d with
    | none => none
    | some (_, d, result) =>
      if result = 0 ∧ d.totalDocumentSize = d.totalDecodedSize then some 0 else some (-1)

end Params

/-! ## Saving -/

/-- An attempt to save: the disk, if the file opens, and what is read back, if it does again. -/
structure SaveAttempt where
  disk : Option EncoderEnv
  reopen : ByteFile → Option ByteFile

/-- Where the parameters are saved: in the default file, or by the flash parameters. -/
inductive SaveTarget where
  | file (attempts : Fin 3 → SaveAttempt)
  | flash (saved : Bool)

namespace Params

variable (fw : Firmware) (build : Build)

/-- One attempt to write and verify the file. -/
def saveAttempt (s : Params) (attempt : SaveAttempt) : Bool :=
  match attempt.disk with
  | none => false
  | some disk =>
    match s.paramExportInternal fw disk none {} with
    | (file, result) =>
      result = 0 && (attempt.reopen file).any fun file =>
        s.paramVerify fw build file = some 0 && s.paramVerify fw build (file.seek 0) = some 0

/-- `param_save_default` with the file mutex held; the result says whether it returns `PX4_OK`. -/
def paramSaveDefault (s : Params) (target : SaveTarget) : Params × Bool :=
  let saved :=
    match target with
    | .file attempts => (List.finRange 3).any fun i => s.saveAttempt fw build (attempts i)
    | .flash saved => saved
  if saved then ({ s with paramsUnsaved := fun _ => false }, true) else (s, false)

end Params

end Px4.Parameters
