import Px4.Drivers.Hrt
import Px4.Mavlink.FtpWork

/-!
# The MAVLink file server

`src/modules/mavlink/mavlink_ftp.cpp`: one request is one call of `handleMessage`, and the sending
thread calls `send` now and then. What the environment decides comes with the event: the time,
whether an allocation succeeds, the free space and the contents of memory that is read before it is
written.
-/

namespace Px4.MavlinkFtp

/-! ## Replies -/

/-- The error code of a Nak; two values of `_our_errno` have codes of their own. -/
def nakCode (ourErrno : Errno) (errorCode : ErrorCode) : ErrorCode :=
  if ourErrno = eexist then .failFileExists
  else if ourErrno = enoent ∧ errorCode = .failErrno then .fileNotFound
  else errorCode

namespace Payload

/-- Write an error code, and `_our_errno` if the code asks for it. -/
def writeError (p : Payload) (ourErrno : Errno) (errorCode : ErrorCode) : Payload :=
  if errorCode = .failErrno then
    (p.setSize 2).write 0 [errorCode.toByte, .ofNat ourErrno]
  else (p.setSize 1).write 0 [errorCode.toByte]

/-- The payload of a reply, made of the one of the request. -/
def toReply (p : Payload) (ourErrno : Errno) (errorCode : ErrorCode) : Payload :=
  let header := { p.header with
    seqNumber := p.header.seqNumber + 1
    reqOpcode := p.header.opcode }
  if errorCode = .none then { p with header := { header with opcode := kRspAck } }
  else
    Payload.writeError { p with header := { header with opcode := kRspNak } } ourErrno
      (nakCode ourErrno errorCode)

end Payload

/-- `_reply` keeps messages of at most four bytes that do not begin with one error code. -/
def FtpMessage.isKept (m : FtpMessage) : Bool :=
  m.payload.header.size ≤ 4 && m.payload.firstByte != ErrorCode.noSessionsAvailable.toByte

/-- A request, with the system and the component that it comes from. -/
structure FtpRequest where
  message : FtpMessage
  systemId : UInt8
  componentId : UInt8

/-- The kept reply answers this request; the numbers are compared as `int`, without wrap. -/
def LastReply.answers (last : LastReply) (r : FtpRequest) : Bool :=
  r.message.payload.header.seqNumber.toNat + 1 = last.header.seqNumber.toNat &&
    last.targetSystem = r.systemId && last.targetComponent = r.componentId

/-- The results of the allocations of a request, with the contents of new memory. -/
structure Allocation where
  workBuffer1 : Option Path
  workBuffer2 : Bool

namespace Ftp

variable {O : Type*} (env : FtpEnv O) (ftp : Ftp O)

def reply (m : FtpMessage) : Ftp O × SentMessage :=
  ({ ftp with lastReply := if m.isKept then some m.lastReply else ftp.lastReply }, m.sent)

def ensureBuffersExist (now : UInt64) (alloc : Allocation) : Ftp O :=
  { ftp with
    lastWorkBufferAccess := now
    workBuffer1 := ftp.workBuffer1 <|> alloc.workBuffer1
    workBuffer2 := ftp.workBuffer2 || alloc.workBuffer2 }

/-- What `_ensure_buffers_exist` returns. -/
def hasBuffers (alloc : Allocation) : Bool :=
  (ftp.workBuffer1 <|> alloc.workBuffer1).isSome && (ftp.workBuffer2 || alloc.workBuffer2)

/-- The reply to a request. -/
def replyTo (r : FtpRequest) (payload : Payload) : FtpMessage where
  targetSystem := r.systemId
  targetComponent := r.componentId
  payload := payload

/-- The end of `_process_request`, from its label `out` on. -/
def respond (r : FtpRequest) (streamSend : Bool) (result : Work O × ErrorCode) :
    Ftp O × Option SentMessage :=
  let ftp := { result.1.ftp with lastReply := none }
  -- a download is answered by the packets of the stream
  if streamSend ∧ result.2 = .none then (ftp, none)
  else
    let sent := ftp.reply (replyTo r (result.1.payload.toReply ftp.ourErrno result.2))
    (sent.1, some sent.2)

/-- `_process_request` once the request is known to be new. -/
def processNew (r : FtpRequest) : Ftp O × Option SentMessage :=
  let w : Work O := { ftp, payload := r.message.payload }
  respond r w.streamSend (w.execute env r.systemId r.componentId)

/-- The kept reply, if it answers the request. -/
def repeatedReply (r : FtpRequest) : Option LastReply := ftp.lastReply.filter (·.answers r)

def processRequest (now : UInt64) (alloc : Allocation) (r : FtpRequest) :
    Ftp O × Option SentMessage :=
  let ftp' := ftp.ensureBuffersExist now alloc
  -- without memory and with a wrong size, a repetition is not recognised
  if !ftp.hasBuffers alloc then
    respond r false
      ({ ftp := { ftp' with ourErrno := enomem }, payload := r.message.payload }, .failErrno)
  else if r.message.payload.header.size.toNat > kMaxDataLength then
    respond r false ({ ftp := ftp', payload := r.message.payload }, .invalidDataSize)
  else
    match ftp.repeatedReply r with
    | some last => (ftp', some last.sent)
    | none => ftp'.processNew env r

/-- The message is addressed to this server. -/
def isAddressed (m : FtpMessage) : Bool :=
  (m.targetSystem = env.systemId || m.targetSystem = 0) &&
    (m.targetComponent = env.componentId || m.targetComponent = 0)

def handleMessage (now : UInt64) (alloc : Allocation) (r : FtpRequest) :
    Ftp O × Option SentMessage :=
  if isAddressed env r.message then ftp.processRequest env now alloc r else (ftp, none)

end Ftp

/-! ## The sending thread -/

/-- A call of `send`: the time, the free space, and what the message on the stack held before. -/
structure SendCall where
  now : UInt64
  freeTxBuf : ℕ
  uninitialized : ℕ → Payload

/-- `get_size()` while a download is streamed. -/
def streamMessageSize : ℕ := 266

namespace Ftp

variable {O : Type*} (env : FtpEnv O) (ftp : Ftp O)

/-- `hrt_elapsed_time(&_last_work_buffer_access)`. -/
def elapsed (now : UInt64) : UInt64 := Drivers.hrtElapsedTime now ftp.lastWorkBufferAccess

/-- One of the work buffers is allocated. -/
def holdsBuffers : Bool := ftp.workBuffer1.isSome || ftp.workBuffer2

/-- `send` closes the session for want of activity. -/
def timesOut (now : UInt64) : Bool :=
  !ftp.holdsBuffers && ftp.session.fd.isSome && ftp.elapsed now > 10000000

/-- The start of `send`: work buffers are freed after two seconds, the session closed after ten. -/
def releaseUnused (now : UInt64) : Ftp O :=
  if ftp.holdsBuffers then
    if ftp.elapsed now > 2000000 then { ftp with workBuffer1 := none, workBuffer2 := false }
    else ftp
  else
    match ftp.session.fd with
    | none => ftp
    | some fd =>
      if ftp.elapsed now > 10000000 then
        { ftp with
          os := env.close ftp.os fd
          session := { ftp.session with fd := none, streamDownload := false }
          lastReply := none }
      else ftp

variable {now : UInt64}

theorem releaseUnused_eq (h : ¬ftp.timesOut now) :
    let r := ftp.releaseUnused env now
    r.lastReply = ftp.lastReply ∧ r.session = ftp.session ∧ r.os = ftp.os := by
  unfold releaseUnused
  split
  · split <;> exact ⟨rfl, rfl, rfl⟩
  next hbuffers =>
    split
    · exact ⟨rfl, rfl, rfl⟩
    next fd hfd =>
      have helapsed : ¬ftp.elapsed now > 10000000 := by simpa [timesOut, hbuffers, hfd] using h
      rw [if_neg helapsed]
      exact ⟨rfl, rfl, rfl⟩

/-- The bytes at the offset of the stream. A descriptor that is not open fails `lseek`. -/
def streamRead : O × Except ErrorCode Bytes :=
  if ftp.session.streamOffset ≥ ftp.session.fileSize then (ftp.os, .error .eof)
  else
    match ftp.session.fd with
    | none => (ftp.os, .error .failErrno)
    | some fd =>
      match env.lseek ftp.os fd ftp.session.streamOffset with
      | (os, none) => (os, .error .failErrno)
      | (os, some _) =>
        match env.read os fd kMaxDataLength with
        | (os, none) => (os, .error .failErrno)
        | (os, some bytes) => (os, .ok bytes)

/-- The header of the next packet, written over what the stack holds. -/
def streamHeader (header : PayloadHeader) : PayloadHeader :=
  { header with
    seqNumber := ftp.session.streamSeqNumber
    session := 0
    opcode := kRspAck
    reqOpcode := 15
    offset := ftp.session.streamOffset }

/-- Send a packet to the receiver of the stream. -/
def replyStream (payload : Payload) : Ftp O × SentMessage :=
  ftp.reply
    { targetSystem := ftp.session.streamTargetSystemId
      targetComponent := ftp.session.streamTargetComponentId
      payload }

/-- The last packet for which there is room; a chunk of more than 35000 bytes ends with it. -/
def replyLast (payload : Payload) : Ftp O × SentMessage :=
  if ftp.session.streamChunkTransmitted > 35000 then
    Ftp.replyStream
      { ftp with session := { ftp.session with
        streamDownload := false, streamChunkTransmitted := 0 } }
      { payload with header.burstComplete := 1 }
  else ftp.replyStream payload

/-- The loop of `send`; each round but the last uses up space, so that `fuel` is enough. -/
def sendLoop (uninitialized : ℕ → Payload) : ℕ → Ftp O → ℕ → Ftp O × List SentMessage
  | 0, ftp, _ => (ftp, [])
  | fuel + 1, ftp, maxBytesToSend =>
    -- what is not assigned below is sent as it lies on the stack
    let message := uninitialized fuel
    let payload := { message with header := ftp.streamHeader message.header }
    match ftp.streamRead env with
    | (os, .error errorCode) =>
      let sent := Ftp.replyStream
        { ftp with
          os
          session := { ftp.session with
            streamSeqNumber := ftp.session.streamSeqNumber + 1
            streamDownload := false } }
        (Payload.writeError { payload with header.opcode := kRspNak } ftp.ourErrno errorCode)
      (sent.1, [sent.2])
    | (os, .ok bytes) =>
      let ftp := { ftp with
        os
        session := { ftp.session with
          streamSeqNumber := ftp.session.streamSeqNumber + 1
          streamOffset := ftp.session.streamOffset + UInt32.ofNat bytes.length
          streamChunkTransmitted :=
            ftp.session.streamChunkTransmitted + UInt32.ofNat bytes.length } }
      let payload := (payload.write 0 bytes).setSize (.ofNat bytes.length)
      -- no room for this packet and another one
      if maxBytesToSend < streamMessageSize * 2 then
        let sent := ftp.replyLast payload
        (sent.1, [sent.2])
      else
        let sent := ftp.replyStream { payload with header.burstComplete := 0 }
        let rest := sendLoop uninitialized fuel sent.1 (maxBytesToSend - streamMessageSize)
        (rest.1, sent.2 :: rest.2)

/-- `send`, with the messages it sends. -/
def send (c : SendCall) : Ftp O × List SentMessage :=
  let ftp := ftp.releaseUnused env c.now
  if ftp.session.streamDownload ∧ c.freeTxBuf ≥ streamMessageSize then
    ftp.sendLoop env c.uninitialized (c.freeTxBuf / streamMessageSize + 1) c.freeTxBuf
  else (ftp, [])

end Ftp

/-- What happens to a server: a request arrives, or the sending thread comes by. -/
inductive FtpEvent where
  | request (now : UInt64) (alloc : Allocation) (r : FtpRequest)
  | send (c : SendCall)

namespace Ftp

variable {O : Type*}

def step (env : FtpEnv O) (ftp : Ftp O) : FtpEvent → Ftp O
  | .request now alloc r => (ftp.handleMessage env now alloc r).1
  | .send c => (ftp.send env c).1

def init (os : O) : Ftp O := { os }

end Ftp

end Px4.MavlinkFtp
