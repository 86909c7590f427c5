import Mathlib.Data.List.Infix
import Mathlib.Data.List.OfFn

/-!
# Messages, system calls and paths of the MAVLink file server

The data types of `src/modules/mavlink/mavlink_ftp.{h,cpp}`. `FtpEnv` gives the system calls as
functions on a state `O` of which nothing is known, so that whatever holds here holds for any file
system and any failure of a call.
-/

namespace Px4.MavlinkFtp

abbrev Bytes := List UInt8

/-- A path, as a C string without its terminator. -/
abbrev Path := Bytes

/-- The bytes of a text of the source. -/
def ascii (chars : List Char) : Bytes := chars.map fun c => .ofNat c.toNat

/-- The four bytes that `memcpy` copies from a 32 bit integer. -/
def littleEndian32 (n : UInt32) : Bytes :=
  [n.toUInt8, (n >>> 8).toUInt8, (n >>> 16).toUInt8, (n >>> 24).toUInt8]

/-- The decimal digits that `snprintf` prints. -/
def decimal (n : ℕ) : Bytes := ascii (Nat.toDigits 10 n)

/-! ## Messages -/

abbrev kMaxDataLength : ℕ := 239

/-- `MavlinkFTP::PayloadHeader`, without the data. -/
structure PayloadHeader where
  seqNumber : UInt16 := 0
  session : UInt8 := 0
  opcode : UInt8 := 0
  size : UInt8 := 0
  reqOpcode : UInt8 := 0
  burstComplete : UInt8 := 0
  padding : UInt8 := 0
  offset : UInt32 := 0
deriving DecidableEq

/-- The payload of a message. -/
structure Payload where
  header : PayloadHeader
  data : Fin kMaxDataLength → UInt8 := fun _ => 0

namespace Payload

variable (p : Payload)

def write (offset : ℕ) (bytes : Bytes) : Payload :=
  { p with data := fun i => if offset ≤ i then bytes.getD (i - offset) (p.data i) else p.data i }

def setSize (size : UInt8) : Payload :=
  { p with header.size := size }

/-- `_data_as_cstring`: terminate the data. -/
def dataAsCstring : Payload :=
  p.write (min p.header.size.toNat (kMaxDataLength - 1)) [0]

/-- The C string that starts at the offset. -/
def cstringAt (offset : ℕ) : Bytes :=
  ((List.ofFn p.data).drop offset).takeWhile (· ≠ 0)

/-- The first byte of the data, which may be behind its size. -/
def firstByte : UInt8 := p.data ⟨0, Nat.succ_pos 238⟩

/-- The first `size` bytes of the data. -/
def content : Bytes := (List.ofFn p.data).take p.header.size.toNat

end Payload

/-- `MavlinkFTP::Opcode`, the commands. -/
inductive Command where
  | none
  | terminateSession
  | resetSessions
  | listDirectory
  | openFileRO
  | readFile
  | createFile
  | writeFile
  | removeFile
  | createDirectory
  | removeDirectory
  | openFileWO
  | truncateFile
  | rename
  | calcFileCRC32
  | burstReadFile
  | listDirectoryWithTime
deriving DecidableEq

/-- The command of an opcode, if it is one. -/
def Command.ofOpcode (opcode : UInt8) : Option Command :=
  [none, terminateSession, resetSessions, listDirectory, openFileRO, readFile, createFile,
    writeFile, removeFile, createDirectory, removeDirectory, openFileWO, truncateFile, rename,
    calcFileCRC32, burstReadFile, listDirectoryWithTime][opcode.toNat]?

def kRspAck : UInt8 := 128

def kRspNak : UInt8 := 129

inductive ErrorCode where
  | none
  | fail
  | failErrno
  | invalidDataSize
  | invalidSession
  | noSessionsAvailable
  | eof
  | unknownCommand
  | failFileExists
  | failFileProtected
  | fileNotFound
deriving DecidableEq

def ErrorCode.toByte : ErrorCode → UInt8
  | none => 0
  | fail => 1
  | failErrno => 2
  | invalidDataSize => 3
  | invalidSession => 4
  | noSessionsAvailable => 5
  | eof => 6
  | unknownCommand => 7
  | failFileExists => 8
  | failFileProtected => 9
  | fileNotFound => 10

/-- `mavlink_file_transfer_protocol_t`. -/
structure FtpMessage where
  targetNetwork : UInt8 := 0
  targetSystem : UInt8
  targetComponent : UInt8
  payload : Payload

/-- A message on the wire: addressee, header and the first `size` bytes of its data; the others are
cleared, except in a reply that is sent again. -/
structure SentMessage where
  targetNetwork : UInt8
  targetSystem : UInt8
  targetComponent : UInt8
  header : PayloadHeader
  content : Bytes
deriving DecidableEq

def FtpMessage.sent (m : FtpMessage) : SentMessage where
  targetNetwork := m.targetNetwork
  targetSystem := m.targetSystem
  targetComponent := m.targetComponent
  header := m.payload.header
  content := m.payload.content

/-- `_last_reply`: a message up to the fourth byte of its data. -/
structure LastReply where
  targetNetwork : UInt8
  targetSystem : UInt8
  targetComponent : UInt8
  header : PayloadHeader
  data : Fin 4 → UInt8

/-- The copy of a message that `_reply` keeps. -/
def FtpMessage.lastReply (m : FtpMessage) : LastReply where
  targetNetwork := m.targetNetwork
  targetSystem := m.targetSystem
  targetComponent := m.targetComponent
  header := m.payload.header
  data := fun i => m.payload.data (i.castLE (by decide))

/-- The kept reply on the wire. -/
def LastReply.sent (r : LastReply) : SentMessage where
  targetNetwork := r.targetNetwork
  targetSystem := r.targetSystem
  targetComponent := r.targetComponent
  header := r.header
  content := (List.ofFn r.data).take r.header.size.toNat

/-! ## System calls -/

abbrev Errno := ℕ

def enoent : Errno := 2

def enomem : Errno := 12

def eexist : Errno := 17

def einval : Errno := 22

def eisdir : Errno := 21

def erofs : Errno := 30

abbrev Fd := ℕ

/-- The flags with which files are opened. -/
inductive OpenFlags where
  | rdonly
  | wronly
  | truncWronly
  | creatWronly
  | creatTruncWronly
deriving DecidableEq

/-- The members of `struct stat` that are read. -/
structure FileStat where
  size : UInt64
  mtime : UInt64
  isRegular : Bool
  isWritable : Bool

inductive DirentType where
  | file
  | directory
  | other

structure Dirent where
  type : DirentType
  name : Bytes

/-- What `readdir` returns in turn, and `errno` after its last call. -/
structure Directory where
  entries : List Dirent
  endErrno : Errno

/-- The system calls and the build. A call that fails returns `none` and leaves `errno`. `crcRounds`
bounds the read loop of the checksum. -/
structure FtpEnv (O : Type*) where
  /-- `__PX4_NUTTX` -/
  nuttx : Bool
  /-- `PX4_ROOTFSDIR` -/
  rootDir : Path
  /-- `CONFIG_BOARD_ROOT_PATH` -/
  boardRootPath : Path
  /-- `PX4_STORAGEDIR` -/
  storageDir : Path
  /-- `_getServerSystemId` -/
  systemId : UInt8
  /-- `_getServerComponentId` -/
  componentId : UInt8
  errno : O → Errno
  setErrno : O → Errno → O
  stat : O → Path → O × Option FileStat
  openFile : O → Path → OpenFlags → O × Option Fd
  close : O → Fd → O
  lseek : O → Fd → UInt32 → O × Option Unit
  read : O → Fd → (count : ℕ) → O × Option { bytes : Bytes // bytes.length ≤ count }
  write : O → Fd → Bytes → O × Option ℕ
  unlink : O → Path → O × Option Unit
  mkdir : O → Path → O × Option Unit
  rmdir : O → Path → O × Option Unit
  rename : O → Path → Path → O × Option Unit
  truncate : O → Path → UInt32 → O × Option Unit
  /-- `opendir`, with all that `readdir` will return -/
  opendir : O → Path → O × Option Directory
  crc32part : Bytes → UInt32 → UInt32
  crcRounds : ℕ

/-- The NuttX build on an operating system of which every call fails. -/
def FtpEnv.failing (O : Type*) : FtpEnv O where
  nuttx := true
  rootDir := []
  boardRootPath := []
  storageDir := []
  systemId := 1
  componentId := 1
  errno _ := enoent
  setErrno os _ := os
  stat os _ := (os, none)
  openFile os _ _ := (os, none)
  close os _ := os
  lseek os _ _ := (os, none)
  read os _ _ := (os, none)
  write os _ _ := (os, none)
  unlink os _ := (os, none)
  mkdir os _ := (os, none)
  rmdir os _ := (os, none)
  rename os _ _ := (os, none)
  truncate os _ _ := (os, none)
  opendir os _ := (os, none)
  crc32part _ checksum := checksum
  crcRounds := 0

/-! ## Paths -/

def slash : UInt8 := 47

/-- The path begins with the component `..`. -/
def startsWithParent (path : Path) : Bool :=
  path.take 2 = [46, 46] && (path.getD 2 0 = slash || path.getD 2 0 = 0)

/-- The loop of `_validatePath`; `atStart` holds at the start of a component. -/
def hasParent : Bool → Path → Bool
  | _, [] => false
  | atStart, c :: path => atStart && startsWithParent (c :: path) || hasParent (c = slash) path

def validatePath (path : Path) : Bool := !hasParent true path

def mavLogPrefix : Path := ascii ['@', 'M', 'A', 'V', '_', 'L', 'O', 'G']

namespace FtpEnv

variable {O : Type*} (env : FtpEnv O)

def mavLogDir : Path := env.boardRootPath ++ ascii ['/', 'l', 'o', 'g']

/-- `_constructPath`, into a buffer of the given length. -/
def constructPath (dstLen : ℕ) (path : Path) : Path :=
  let rest := path.drop mavLogPrefix.length
  if path.take mavLogPrefix.length = mavLogPrefix ∧ (rest = [] ∨ rest.head? = some slash) then
    (env.mavLogDir.take (dstLen - 1) ++ rest).take (dstLen - 1)
  else
    let separator :=
      if env.rootDir ≠ [] ∧ env.rootDir.getLast? ≠ some slash ∧ path.head? ≠ some slash then
        [slash]
      else []
    (env.rootDir ++ separator ++ path).take (dstLen - 1)

/-- `_validatePathIsWritable`: nothing outside of the storage is written in the NuttX build. -/
def validatePathIsWritable (path : Path) : Bool :=
  !env.nuttx || path.take 12 = (env.boardRootPath ++ [slash]).take 12 &&
      !decide (ascii ['/', '.', '.', '/'] <:+: path)

end FtpEnv

end Px4.MavlinkFtp
