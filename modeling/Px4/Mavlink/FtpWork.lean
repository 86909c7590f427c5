import Px4.Mavlink.FtpTypes

/-!
# The commands of the MAVLink file server

The handlers `_work*` of `src/modules/mavlink/mavlink_ftp.cpp`. A handler takes the server with the
payload of the request and returns both, with its error code.
-/

namespace Px4.MavlinkFtp

def workBuffer1Len : ℕ := kMaxDataLength

def workBuffer2Len : ℕ := 256

/-- `MavlinkFTP::SessionInfo`; a session is open if it has a file descriptor. -/
structure SessionInfo where
  fd : Option Fd := none
  fileSize : UInt32 := 0
  streamDownload : Bool := false
  streamOffset : UInt32 := 0
  streamSeqNumber : UInt16 := 0
  streamTargetSystemId : UInt8 := 0
  streamTargetComponentId : UInt8 := 0
  streamChunkTransmitted : UInt32 := 0

/-- The members of `MavlinkFTP` and the system; the first work buffer outlives a request. -/
structure Ftp (O : Type*) where
  os : O
  session : SessionInfo := {}
  workBuffer1 : Option Path := none
  workBuffer2 : Bool := false
  lastWorkBufferAccess : UInt64 := 0
  lastReply : Option LastReply := none
  ourErrno : Errno := 0

/-- The server and the payload of the request it is working on. -/
structure Work (O : Type*) where
  ftp : Ftp O
  payload : Payload

namespace Work

variable {O : Type*} (env : FtpEnv O) (w : Work O)

/-- `_our_errno = errno`. -/
def saveErrno : Work O := { w with ftp.ourErrno := env.errno w.ftp.os }

/-- `_our_errno = errno; return kErrFailErrno`. -/
def failErrno : Work O × ErrorCode := (w.saveErrno env, .failErrno)

def setOs (os : O) : Work O := { w with ftp.os := os }

def setSize (size : UInt8) : Work O := { w with payload := w.payload.setSize size }

/-- Answer with a 32 bit integer. -/
def answer (n : UInt32) : Work O :=
  { w with payload := (w.payload.setSize 4).write 0 (littleEndian32 n) }

/-- The path in the first work buffer. -/
def path : Path := w.ftp.workBuffer1.getD []

/-- `_constructPath(_work_buffer1, _work_buffer1_len, _data_as_cstring(payload))`. -/
def constructPath : Work O where
  ftp := { w.ftp with
    workBuffer1 := some (env.constructPath workBuffer1Len (w.payload.dataAsCstring.cstringAt 0)) }
  payload := w.payload.dataAsCstring

/-! ## Listing -/

def kDirentFile : UInt8 := 70

def kDirentDir : UInt8 := 68

def kDirentSkip : UInt8 := 83

/-- Size and time of a file in the list; zero if its path is too long or `stat` fails. -/
def statEntry (name : Bytes) : O × UInt32 × UInt32 :=
  let path := w.path ++ [slash] ++ name
  -- the terminator has to fit as well
  if path.length < workBuffer2Len then
    match env.stat w.ftp.os path with
    | (os, some st) => (os, st.size.toUInt32, st.mtime.toUInt32)
    | (os, none) => (os, 0, 0)
  else (w.ftp.os, 0, 0)

/-- The identifier of a directory entry and the text that follows it. -/
def listEntry (includeTime : Bool) (entry : Dirent) : Work O × UInt8 × Bytes :=
  match entry.type with
  | .file =>
    match statEntry env w entry.name with
    | (os, size, time) =>
      let text := entry.name ++ [9] ++ decimal size.toNat
        ++ if includeTime then [9] ++ decimal time.toNat else []
      (w.setOs os, kDirentFile, text.take (workBuffer2Len - 1))
  | .directory =>
    if entry.name = [46] ∨ entry.name = [46, 46] then (w, kDirentSkip, [])
    else (w, kDirentDir, entry.name.take (workBuffer2Len - 1))
  | .other => (w, kDirentSkip, [])

/-- The end of a directory: `_our_errno` is the error of `readdir`, or cleared. -/
def endOfList (endErrno : Errno) (offset : ℕ) : Work O × ErrorCode :=
  let w := { w with ftp.ourErrno := endErrno }
  if endErrno ≠ 0 then
    ({ w with payload := (w.payload.write offset [kDirentSkip, 0]).setSize (.ofNat (offset + 2)) },
      .failErrno)
  else (w.setSize (.ofNat offset), if offset = 0 then .eof else .none)

/-- The loop of `_workList`; it ends with the directory or with an entry without room. -/
def listLoop (includeTime : Bool) (endErrno : Errno) (offset : ℕ) :
    Work O → List Dirent → Work O × ErrorCode
  | w, [] => w.endOfList endErrno offset
  | w, entry :: entries =>
    match listEntry env w includeTime entry with
    | (w, direntType, text) =>
      -- room for the identifier, the text and its terminator?
      if offset + text.length + 2 > kMaxDataLength then (w.setSize (.ofNat offset), .none)
      else
        listLoop includeTime endErrno (offset + text.length + 2)
          { w with payload := w.payload.write offset ([direntType] ++ text ++ [0]) } entries

/-- The number of entries to skip: the offset as an `int`, which may be negative. -/
def requestedOffset (offset : UInt32) : ℕ := if offset < 0x80000000 then offset.toNat else 0

def workList (includeTime : Bool) : Work O × ErrorCode :=
  let w := w.constructPath env
  if !validatePath w.path then (w, .failFileProtected)
  else
    match env.opendir w.ftp.os w.path with
    | (os, none) => ((w.setOs os).saveErrno env, .fileNotFound)
    | (os, some directory) =>
      listLoop env includeTime directory.endErrno 0 (w.setOs os)
        (directory.entries.drop (requestedOffset w.payload.header.offset))

/-! ## The session -/

/-- `oflag & O_RDONLY`. The flag is a bit in NuttX and zero in POSIX. -/
def isReadOnly (oflag : OpenFlags) : Bool := env.nuttx && oflag = .rdonly

/-- The rest of `_workOpen`, after `stat`. -/
def openFile (oflag : OpenFlags) (fileSize : UInt32) : Work O × ErrorCode :=
  match env.openFile w.ftp.os w.path oflag with
  | (os, none) => (w.setOs os).failErrno env
  | (os, some fd) =>
    let w := w.setOs os
    let w := { w with
      ftp.session := { w.ftp.session with fd := some fd, fileSize, streamDownload := false }
      payload.header.session := 0 }
    (w.answer fileSize, .none)

def workOpen (oflag : OpenFlags) : Work O × ErrorCode :=
  if w.ftp.session.fd.isSome then (w, .noSessionsAvailable)
  else
    let w := w.constructPath env
    if !validatePath w.path then (w, .failFileProtected)
    else
      match env.stat w.ftp.os w.path with
      | (os, some st) => (w.setOs os).openFile env oflag st.size.toUInt32
      | (os, none) =>
        -- elsewhere it is left to the call of open to fail
        if isReadOnly env oflag then (w.setOs os).failErrno env
        else (w.setOs os).openFile env oflag 0

/-- The file descriptor that a request for an open session works on. -/
def sessionFd : Option Fd :=
  if w.payload.header.session ≠ 0 then none else w.ftp.session.fd

def workRead : Work O × ErrorCode :=
  match w.sessionFd with
  | none => (w, .invalidSession)
  | some fd =>
    -- a seek behind the end of the file would succeed
    if w.payload.header.offset ≥ w.ftp.session.fileSize then (w, .eof)
    else
      match env.lseek w.ftp.os fd w.payload.header.offset with
      | (os, none) => (w.setOs os).failErrno env
      | (os, some _) =>
        match env.read os fd w.payload.header.size.toNat with
        | (os, none) => (w.setOs os).failErrno env
        | (os, some bytes) =>
          let w := w.setOs os
          ({ w with payload := (w.payload.write 0 bytes).setSize (.ofNat bytes.1.length) }, .none)

def workBurst (targetSystemId targetComponentId : UInt8) : Work O × ErrorCode :=
  match w.sessionFd with
  | none => (w, .invalidSession)
  | some _ =>
    ({ w with
      ftp.session := { w.ftp.session with
        streamDownload := true
        streamOffset := w.payload.header.offset
        streamChunkTransmitted := 0
        streamSeqNumber := w.payload.header.seqNumber + 1
        streamTargetSystemId := targetSystemId
        streamTargetComponentId := targetComponentId } }, .none)

/-- `_workWrite`: it checks the path in the first work buffer; a failed `lseek` sets no errno. -/
def workWrite : Work O × ErrorCode :=
  match w.sessionFd with
  | none => (w, .invalidSession)
  | some fd =>
    if !env.validatePathIsWritable w.path then (w, .failFileProtected)
    else
      match env.lseek w.ftp.os fd w.payload.header.offset with
      | (os, none) => (w.setOs os, .failErrno)
      | (os, some _) =>
        match env.write os fd w.payload.content with
        | (os, none) => (w.setOs os).failErrno env
        | (os, some bytesWritten) => ((w.setOs os).answer (.ofNat bytesWritten), .none)

def closeSession (fd : Fd) : Work O :=
  { w with
    ftp.os := env.close w.ftp.os fd
    ftp.session := { w.ftp.session with fd := none, streamDownload := false } }

def workTerminate : Work O × ErrorCode :=
  match w.sessionFd with
  | none => (w, .invalidSession)
  | some fd => ((w.closeSession env fd).setSize 0, .none)

def workReset : Work O × ErrorCode :=
  match w.ftp.session.fd with
  | none => (w.setSize 0, .none)
  | some fd => ((w.closeSession env fd).setSize 0, .none)

/-! ## Files and directories -/

/-- `!_validatePath(_work_buffer1) || !_validatePathIsWritable(_work_buffer1)`. -/
def pathIsProtected : Bool := !validatePath w.path || !env.validatePathIsWritable w.path

/-- The handlers of one path and one system call. -/
def workPath (call : O → Path → O × Option Unit) : Work O × ErrorCode :=
  let w := w.constructPath env
  if pathIsProtected env w then (w, .failFileProtected)
  else
    match call w.ftp.os w.path with
    | (os, some _) => ((w.setOs os).setSize 0, .none)
    | (os, none) => (w.setOs os).failErrno env

def workRemoveFile : Work O × ErrorCode := w.workPath env env.unlink

def workRemoveDirectory : Work O × ErrorCode := w.workPath env env.rmdir

def workCreateDirectory : Work O × ErrorCode := w.workPath env env.mkdir

/-- `_workRename`. Only the new path must be writable, and a missing one sets no `_our_errno`. -/
def workRename : Work O × ErrorCode :=
  let payload := w.payload.dataAsCstring
  let oldpath := payload.cstringAt 0
  if oldpath.length + 2 ≥ payload.header.size.toNat then
    ({ w.setOs (env.setErrno w.ftp.os einval) with payload }, .failErrno)
  else
    let newpath := env.constructPath workBuffer2Len (payload.cstringAt (oldpath.length + 1))
    let w := w.constructPath env
    if !validatePath w.path || !validatePath newpath || !env.validatePathIsWritable newpath then
      (w, .failFileProtected)
    else
      match env.rename w.ftp.os w.path newpath with
      | (os, some _) => ((w.setOs os).setSize 0, .none)
      | (os, none) => (w.setOs os).failErrno env

def close (fd : Fd) : Work O := w.setOs (env.close w.ftp.os fd)

/-- The loop of `_copy_file`; every round copies at least a byte, `fuel` bounds the rounds. -/
def copyLoop (src dst : Fd) : ℕ → Work O → ℕ → Work O × ℕ
  | 0, w, length => (w, length)
  | fuel + 1, w, length =>
    if length = 0 then (w, 0)
    else
      match env.read w.ftp.os src (min length workBuffer2Len) with
      | (os, none) => ((w.setOs os).saveErrno env, length)
      | (os, some bytes) =>
        if bytes.1 = [] then (w.setOs os, length)
        else
          match env.write os dst bytes with
          | (os, written) =>
            -- after a short write that is no error, errno is an old one
            if written = some bytes.1.length then
              copyLoop src dst fuel (w.setOs os) (length - bytes.1.length)
            else ((w.setOs os).saveErrno env, length)

/-- `_copy_file`, and whether it returns zero. -/
def copyFile (srcPath dstPath : Path) (length : ℕ) : Work O × Bool :=
  match env.openFile w.ftp.os srcPath .rdonly with
  | (os, none) => (w.setOs os, false)
  | (os, some src) =>
    match env.openFile os dstPath .creatTruncWronly with
    | (os, none) => (((w.setOs os).saveErrno env).close env src, false)
    | (os, some dst) =>
      match copyLoop env src dst length (w.setOs os) length with
      | (w, left) => ((w.close env src).close env dst, left = 0)

/-- `truncate(_work_buffer1, payload->offset)` by copying the file forth and back. -/
def truncateByCopy : Work O × ErrorCode :=
  let tempFile := env.storageDir ++ ascii ['/', '.', 't', 'r', 'u', 'n', 'c', '.', 't', 'm', 'p']
  let length := w.payload.header.offset.toNat
  match w.copyFile env w.path tempFile length with
  | (w, false) => (w, .failErrno)
  | (w, true) =>
    match w.copyFile env tempFile w.path length with
    | (w, false) => (w, .failErrno)
    | (w, true) =>
      match env.unlink w.ftp.os tempFile with
      | (os, none) => (w.setOs os).failErrno env
      | (os, some _) => (w.setOs os, .none)

/-- Extend the file by writing its last byte. -/
def extendFile : Work O × ErrorCode :=
  match env.openFile w.ftp.os w.path .wronly with
  | (os, none) => (w.setOs os).failErrno env
  | (os, some fd) =>
    match env.lseek os fd (w.payload.header.offset - 1) with
    | (os, none) => (((w.setOs os).saveErrno env).close env fd, .failErrno)
    | (os, some _) =>
      match env.write os fd [0] with
      | (os, written) =>
        if written = some 1 then ((w.setOs os).close env fd, .none)
        else (((w.setOs os).saveErrno env).close env fd, .failErrno)

/-- The emulation of `truncate` in the NuttX build. -/
def truncateNuttx : Work O × ErrorCode :=
  match env.stat w.ftp.os w.path with
  | (os, none) => (w.setOs os).failErrno env
  | (os, some st) =>
    let w := w.setOs os
    if !st.isRegular then ({ w with ftp.ourErrno := eisdir }, .failErrno)
    else if !st.isWritable then ({ w with ftp.ourErrno := erofs }, .failErrno)
    else if w.payload.header.offset = st.size.toUInt32 then (w, .none)
    else if w.payload.header.offset = 0 then
      match env.openFile w.ftp.os w.path .truncWronly with
      -- errno is not saved: the reply reports the error of an earlier request
      | (os, none) => (w.setOs os, .failErrno)
      | (os, some fd) => ((w.setOs os).close env fd, .none)
    else if w.payload.header.offset > st.size.toUInt32 then w.extendFile env
    else w.truncateByCopy env

def workTruncateFile : Work O × ErrorCode :=
  let w := (w.constructPath env).setSize 0
  if pathIsProtected env w then (w, .failFileProtected)
  else if env.nuttx then w.truncateNuttx env
  else
    match env.truncate w.ftp.os w.path w.payload.header.offset with
    | (os, some _) => (w.setOs os, .none)
    | (os, none) => (w.setOs os, .failErrno)

/-- The read loop of `_workCalcFileCRC32`. -/
def crcLoop (fd : Fd) : ℕ → Work O → UInt32 → Work O × Option UInt32
  | 0, w, checksum => (w, some checksum)
  | rounds + 1, w, checksum =>
    match env.read w.ftp.os fd workBuffer2Len with
    | (os, none) => ((w.setOs os).saveErrno env, none)
    | (os, some bytes) =>
      let checksum := env.crc32part bytes checksum
      if bytes.1.length = workBuffer2Len then crcLoop fd rounds (w.setOs os) checksum
      else (w.setOs os, some checksum)

def workCalcFileCRC32 : Work O × ErrorCode :=
  let w := { w with payload := w.payload.dataAsCstring }
  let path := env.constructPath workBuffer2Len (w.payload.cstringAt 0)
  if !validatePath path then (w, .failFileProtected)
  else
    match env.openFile w.ftp.os path .rdonly with
    | (os, none) => (w.setOs os, .failErrno)
    | (os, some fd) =>
      match crcLoop env fd env.crcRounds (w.setOs os) 0 with
      | (w, none) => (w.close env fd, .failErrno)
      | (w, some checksum) => ((w.close env fd).answer checksum, .none)

/-- The switch of `_process_request`. -/
def execute (targetSystemId targetCompId : UInt8) : Work O × ErrorCode :=
  match Command.ofOpcode w.payload.header.opcode with
  | some .none => (w, .none)
  | some .terminateSession => w.workTerminate env
  | some .resetSessions => w.workReset env
  | some .listDirectory => w.workList env false
  | some .listDirectoryWithTime => w.workList env true
  | some .openFileRO => w.workOpen env .rdonly
  | some .createFile => w.workOpen env .creatTruncWronly
  | some .openFileWO => w.workOpen env .creatWronly
  | some .readFile => w.workRead env
  | some .burstReadFile => w.workBurst targetSystemId targetCompId
  | some .writeFile => w.workWrite env
  | some .removeFile => w.workRemoveFile env
  | some .rename => w.workRename env
  | some .truncateFile => w.workTruncateFile env
  | some .createDirectory => w.workCreateDirectory env
  | some .removeDirectory => w.workRemoveDirectory env
  | some .calcFileCRC32 => w.workCalcFileCRC32 env
  | none => (w, .unknownCommand)

/-- `stream_send`: the request is answered by the stream. -/
def streamSend : Bool := Command.ofOpcode w.payload.header.opcode = some .burstReadFile

end Work

end Px4.MavlinkFtp
