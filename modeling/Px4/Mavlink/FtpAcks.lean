import Px4.Mavlink.FtpWork

/-!
# The first byte of an Ack

`_reply` does not keep a reply whose data begins with the byte of `kErrNoSessionsAvailable`,
although in an Ack this byte is no error code. Here is what the handlers leave there.
-/

namespace Px4.MavlinkFtp

namespace Payload

variable (p : Payload) (offset : ℕ) (bytes : Bytes) (size : UInt8)

@[simp]
theorem write_header : (p.write offset bytes).header = p.header := rfl

@[simp]
theorem setSize_size : (p.setSize size).header.size = size := rfl

/-- The first byte is only written at offset 0. -/
theorem write_pos (h : 0 < offset) : (p.write offset bytes).firstByte = p.firstByte :=
  if_neg (Nat.not_le.mpr h)

/-- The content begins with the first byte. -/
theorem content_head : p.content.head? = if p.header.size = 0 then none else some p.firstByte := by
  have hsize : p.header.size.toNat = 0 ↔ p.header.size = 0 := UInt8.toNat_inj (b := 0)
  rw [content, List.head?_take, List.head?_eq_getElem?, List.getElem?_ofFn]
  simp only [hsize]
  rfl

end Payload

namespace Work

variable {O : Type*} {env : FtpEnv O} {w : Work O}

/-- A handler kept the number, and its success does not begin with the code that is not kept. -/
structure Memorable (seqNumber : UInt16) (result : Work O × ErrorCode) : Prop where
  seqNumber_eq : result.1.payload.header.seqNumber = seqNumber
  firstByte : result.2 = .none → result.1.payload.firstByte ≠ 5

variable {seqNumber : UInt16} {errorCode : ErrorCode} {n fileSize : UInt32} {endErrno : Errno}
  {offset length : ℕ} {includeTime ok : Bool} {entries : List Dirent} {oflag : OpenFlags}
  {src dst : Fd} {srcPath dstPath : Path} {w' : Work O} {systemId componentId : UInt8}

/-- An error is remembered whatever the payload is. -/
theorem Memorable.of_error (hs : w.payload.header.seqNumber = seqNumber)
    (he : errorCode ≠ .none) : Memorable seqNumber (w, errorCode) :=
  ⟨hs, fun h => absurd h he⟩

/-- An answer is remembered if it does not begin with the code that is not kept. -/
theorem Memorable.of_payload {result : Work O × ErrorCode} {p : Payload} (h : result.1.payload = p)
    (hs : p.header.seqNumber = seqNumber) (hb : p.firstByte ≠ 5) : Memorable seqNumber result :=
  ⟨h ▸ hs, fun _ => h ▸ hb⟩

/-- A number as the answer is remembered by its lowest byte. -/
theorem memorable_answer (hn : n.toUInt8 ≠ 5) :
    Memorable w.payload.header.seqNumber (w.answer n, errorCode) :=
  ⟨rfl, fun _ => hn⟩

/-! ## Listing -/

/-- Reading a directory entry leaves the payload. -/
theorem listEntry_payload (env : FtpEnv O) (w includeTime entry) :
    (listEntry env w includeTime entry).1.payload = w.payload := by
  unfold listEntry
  split
  · rfl
  · split_ifs <;> rfl
  · rfl

/-- The type of a directory entry is a letter. -/
theorem listEntry_type (env : FtpEnv O) (w includeTime entry) :
    (listEntry env w includeTime entry).2.1 ≠ 5 := by
  unfold listEntry
  split
  · simp [kDirentFile]
  · split_ifs <;> simp [kDirentSkip, kDirentDir]
  · simp [kDirentSkip]

/-- The end of a directory is an error or the entries so far. -/
theorem memorable_endOfList (hs : w.payload.header.seqNumber = seqNumber)
    (hb : w.payload.firstByte ≠ 5) : Memorable seqNumber (w.endOfList endErrno offset) := by
  unfold endOfList
  split
  · exact .of_error hs nofun
  · exact .of_payload rfl hs hb

/-- Every entry begins with its identifier, so that a list begins with one or is empty. -/
theorem memorable_listLoop (hs : w.payload.header.seqNumber = seqNumber)
    (hb : w.payload.firstByte ≠ 5) :
    Memorable seqNumber (listLoop env includeTime endErrno offset w entries) := by
  induction entries generalizing w offset with
  | nil => exact memorable_endOfList hs hb
  | cons entry entries ih =>
    have hp := listEntry_payload env w includeTime entry
    have ht := listEntry_type env w includeTime entry
    unfold listLoop
    dsimp only at hp ht ⊢
    rw [← hp] at hs hb
    split
    · exact .of_payload rfl hs hb
    refine ih hs ?_
    rcases Nat.eq_zero_or_pos offset with rfl | hoffset
    · exact ht
    · rw [Payload.write_pos _ _ _ hoffset]
      exact hb

/-- An empty list answers with the path of the request. -/
theorem memorable_workList (hb : w.payload.dataAsCstring.firstByte ≠ 5) :
    Memorable w.payload.header.seqNumber (w.workList env includeTime) := by
  unfold workList
  dsimp only
  split
  · exact .of_error rfl nofun
  · split
    · exact .of_error rfl nofun
    · exact memorable_listLoop rfl hb

/-! ## The other commands -/

/-- Opening answers with the size of the file. -/
theorem memorable_openFile (hb : fileSize.toUInt8 ≠ 5) :
    Memorable w.payload.header.seqNumber (w.openFile env oflag fileSize) := by
  unfold openFile
  split
  · exact .of_error rfl nofun
  · exact ⟨rfl, fun _ => hb⟩

/-- The size of a file that is opened. -/
def openSize (env : FtpEnv O) (w : Work O) : UInt32 :=
  let w := w.constructPath env
  ((env.stat w.ftp.os w.path).2.map (·.size.toUInt32)).getD 0

/-- The size is the one that `stat` says. -/
theorem memorable_workOpen (hb : (w.openSize env).toUInt8 ≠ 5) :
    Memorable w.payload.header.seqNumber (w.workOpen env oflag) := by
  unfold workOpen
  dsimp only
  split
  · exact .of_error rfl nofun
  split
  · exact .of_error rfl nofun
  unfold openSize at hb
  split
  next st h => exact memorable_openFile (w := (w.constructPath env).setOs _) (by simpa [h] using hb)
  · split
    · exact .of_error rfl nofun
    · exact memorable_openFile (w := (w.constructPath env).setOs _) (by decide)

/-- The number of bytes that a request writes into an open file. -/
def writtenSize (env : FtpEnv O) (w : Work O) : ℕ :=
  match w.ftp.session.fd with
  | none => 0
  | some fd =>
    (env.write (env.lseek w.ftp.os fd w.payload.header.offset).1 fd w.payload.content).2.getD 0

/-- Writing answers with the number of bytes. -/
theorem memorable_workWrite (hb : (UInt32.ofNat (w.writtenSize env)).toUInt8 ≠ 5) :
    Memorable w.payload.header.seqNumber (w.workWrite env) := by
  unfold workWrite
  split
  · exact .of_error rfl nofun
  next fd hfd =>
    have hfd' : w.ftp.session.fd = some fd := by
      unfold sessionFd at hfd
      split at hfd
      · nomatch hfd
      · exact hfd
    simp only [writtenSize, hfd'] at hb
    split
    · exact .of_error rfl nofun
    split
    · exact .of_error rfl nofun
    next os _ hseek =>
      rw [hseek] at hb
      split
      · exact .of_error rfl nofun
      next os' written hwrite =>
        rw [hwrite] at hb
        exact memorable_answer (w := w.setOs os') hb

/-- Closing the session leaves the data as it was received. -/
theorem memorable_workTerminate (hb : w.payload.firstByte ≠ 5) :
    Memorable w.payload.header.seqNumber (w.workTerminate env) := by
  unfold workTerminate
  split
  · exact .of_error rfl nofun
  · exact ⟨rfl, fun _ => hb⟩

/-- A reset leaves the data as it was received. -/
theorem memorable_workReset (hb : w.payload.firstByte ≠ 5) :
    Memorable w.payload.header.seqNumber (w.workReset env) := by
  unfold workReset
  split <;> exact ⟨rfl, fun _ => hb⟩

section

variable (hb : w.payload.dataAsCstring.firstByte ≠ 5)
include hb

variable {call : O → Path → O × Option Unit}

/-- A request for one path answers without data. -/
theorem memorable_workPath : Memorable w.payload.header.seqNumber (w.workPath env call) := by
  unfold workPath
  dsimp only
  split
  · exact .of_error rfl nofun
  split
  · exact ⟨rfl, fun _ => hb⟩
  · exact .of_error rfl nofun

/-- A request for two paths answers without data. -/
theorem memorable_workRename : Memorable w.payload.header.seqNumber (w.workRename env) := by
  unfold workRename
  dsimp only
  split
  · exact .of_error rfl nofun
  split
  · exact .of_error rfl nofun
  split
  · exact ⟨rfl, fun _ => hb⟩
  · exact .of_error rfl nofun

end

/-! Truncating does not touch the payload. -/

/-- The loop that copies a file does not use the payload. -/
theorem copyLoop_payload (fuel length) :
    (copyLoop env src dst fuel w length).1.payload = w.payload := by
  induction fuel generalizing w length with
  | zero => rfl
  | succ fuel ih =>
    unfold copyLoop
    split
    · rfl
    split
    · rfl
    split
    · rfl
    dsimp only
    split
    · exact ih _
    · rfl

/-- Copying a file does not use the payload. -/
theorem copyFile_payload
    (h : w.copyFile env srcPath dstPath length = (w', ok)) : w'.payload = w.payload := by
  suffices hcopy : (w.copyFile env srcPath dstPath length).1.payload = w.payload by
    rwa [h] at hcopy
  unfold copyFile
  split
  · rfl
  split
  · rfl
  · exact copyLoop_payload _ _

/-- Truncating by copies does not use the payload. -/
theorem truncateByCopy_payload : (w.truncateByCopy env).1.payload = w.payload := by
  unfold truncateByCopy
  dsimp only
  split
  next forth => exact copyFile_payload forth
  next w₁ forth =>
    -- the file is in the temporary one, and is copied back
    rw [← copyFile_payload forth]
    split
    next back => exact copyFile_payload back
    next w₂ back =>
      rw [← copyFile_payload back]
      split <;> rfl

/-- Extending a file does not use the payload. -/
theorem extendFile_payload : (w.extendFile env).1.payload = w.payload := by
  unfold extendFile
  split
  · rfl
  split
  · rfl
  dsimp only
  split <;> rfl

/-- Truncating does not use the payload. -/
theorem truncateNuttx_payload : (w.truncateNuttx env).1.payload = w.payload := by
  unfold truncateNuttx
  split
  · rfl
  dsimp only
  split
  · rfl
  split
  · rfl
  split
  · rfl
  split
  · split <;> rfl
  split
  · exact extendFile_payload
  · exact truncateByCopy_payload

/-- Truncating leaves the path of the request in the data. -/
theorem memorable_workTruncateFile (hb : w.payload.dataAsCstring.firstByte ≠ 5) :
    Memorable w.payload.header.seqNumber (w.workTruncateFile env) := by
  unfold workTruncateFile
  dsimp only
  split
  · exact .of_error rfl nofun
  split
  · exact .of_payload truncateNuttx_payload rfl hb
  · split <;> exact ⟨rfl, fun _ => hb⟩

/-- The first byte of the data after a success: of the size or number, or of the request. -/
def ackByte (env : FtpEnv O) (w : Work O) : UInt8 :=
  match Command.ofOpcode w.payload.header.opcode with
  | some .openFileRO | some .createFile | some .openFileWO => (w.openSize env).toUInt8
  | some .writeFile => (UInt32.ofNat (w.writtenSize env)).toUInt8
  | some .none | some .terminateSession | some .resetSessions => w.payload.firstByte
  | _ => w.payload.dataAsCstring.firstByte

/-- The commands whose data is worth repeating: all but those that read files. -/
def isRepeatable (opcode : UInt8) : Bool :=
  Command.ofOpcode opcode ∉ [some .readFile, some .calcFileCRC32, some .burstReadFile]

/-- **Every repeatable request is remembered** unless its answer begins with that code. -/
theorem memorable_execute
    (hr : isRepeatable w.payload.header.opcode) (hb : w.ackByte env ≠ 5) :
    Memorable w.payload.header.seqNumber (w.execute env systemId componentId) := by
  unfold isRepeatable at hr
  unfold ackByte at hb
  unfold execute
  cases hc : Command.ofOpcode w.payload.header.opcode with
  | none => exact .of_error rfl nofun
  | some command =>
    rw [hc] at hr hb
    cases command with
    | none => exact ⟨rfl, fun _ => hb⟩
    | terminateSession => exact memorable_workTerminate hb
    | resetSessions => exact memorable_workReset hb
    | listDirectory => exact memorable_workList hb
    | listDirectoryWithTime => exact memorable_workList hb
    | openFileRO => exact memorable_workOpen hb
    | createFile => exact memorable_workOpen hb
    | openFileWO => exact memorable_workOpen hb
    | writeFile => exact memorable_workWrite hb
    | removeFile => exact memorable_workPath hb
    | createDirectory => exact memorable_workPath hb
    | removeDirectory => exact memorable_workPath hb
    | rename => exact memorable_workRename hb
    | truncateFile => exact memorable_workTruncateFile hb
    | readFile => simp at hr
    | calcFileCRC32 => simp at hr
    | burstReadFile => simp at hr

end Work

end Px4.MavlinkFtp
