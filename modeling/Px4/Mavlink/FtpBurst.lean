import Mathlib.Data.List.GetD
import Px4.Common.Run
import Px4.Mavlink.Ftp

/-!
# Burst downloads

A burst streams a file in packets, as many in each call of `send` as the transmit buffer has room
for. The calls deliver it as long as the bytes that they do not assign happen to be zero.
-/

namespace Px4.MavlinkFtp

open Ftp List Nat

/-! ## What a download is -/

/-- A packet with the data at the offset. -/
structure SentMessage.IsPacket (m : SentMessage) (content : Bytes) (seqNumber : UInt16)
    (offset : ℕ) : Prop where
  opcode : m.header.opcode = kRspAck
  reqOpcode : m.header.reqOpcode = 15
  seqNumber_eq : m.header.seqNumber = seqNumber
  offset_eq : m.header.offset.toNat = offset
  size_eq : m.header.size.toNat = m.content.length
  nonempty : m.content ≠ []
  data : m.content <+: content.drop offset

/-- The Nak at the end of the file. -/
structure SentMessage.IsEof (m : SentMessage) (content : Bytes) (seqNumber : UInt16)
    (offset : ℕ) : Prop where
  opcode : m.header.opcode = kRspNak
  reqOpcode : m.header.reqOpcode = 15
  seqNumber_eq : m.header.seqNumber = seqNumber
  offset_eq : m.header.offset.toNat = offset
  content_eq : m.content = [ErrorCode.eof.toByte]
  at_end : offset = content.length

/-- The packets of a download of `content`, from a sequence number and an offset on. It has come to
a later sequence number and offset, or it is over, by the Nak at the end of the file or by a packet
that completes the burst. -/
inductive Burst (content : Bytes) :
    UInt16 → ℕ → List SentMessage → Option (UInt16 × ℕ) → Prop
  | pause {seqNumber : UInt16} {offset : ℕ} :
    Burst content seqNumber offset [] (some (seqNumber, offset))
  | packet {seqNumber : UInt16} {offset : ℕ} {m : SentMessage} {ms : List SentMessage}
      {rest : Option (UInt16 × ℕ)} :
    m.IsPacket content seqNumber offset → m.header.burstComplete = 0 →
    Burst content (seqNumber + 1) (offset + m.content.length) ms rest →
    Burst content seqNumber offset (m :: ms) rest
  | complete {seqNumber : UInt16} {offset : ℕ} {m : SentMessage} :
    m.IsPacket content seqNumber offset → m.header.burstComplete ≠ 0 →
    Burst content seqNumber offset [m] none
  | eof {seqNumber : UInt16} {offset : ℕ} {m : SentMessage} :
    m.IsEof content seqNumber offset → m.header.burstComplete = 0 →
    Burst content seqNumber offset [m] none

namespace Burst

variable {content : Bytes} {seqNumber seqNumber' : UInt16} {offset offset' : ℕ}
  {ms ms' : List SentMessage} {rest : Option (UInt16 × ℕ)}

theorem append (h : Burst content seqNumber offset ms (some (seqNumber', offset')))
    (h' : Burst content seqNumber' offset' ms' rest) :
    Burst content seqNumber offset (ms ++ ms') rest := by
  generalize hend : some (seqNumber', offset') = e at h
  induction h with
  | pause =>
    cases hend
    exact h'
  | packet hpacket hburst _ ih => exact .packet hpacket hburst (ih hend)
  | complete => cases hend
  | eof => cases hend

/-- The data of the packets is the file from the offset on, all of it once the Nak is sent. -/
theorem reassembles (h : Burst content seqNumber offset ms rest) :
    let data := (ms.filter (·.header.opcode = kRspAck)).flatMap (·.content)
    data <+: content.drop offset ∧
      ((∃ m ∈ ms, m.header.opcode = kRspNak) → data = content.drop offset) := by
  induction h with
  | pause => exact ⟨ nil_prefix, nofun⟩
  | @packet _ offset m _ _ hpacket _ _ ih =>
    obtain ⟨hpre, heof⟩ := ih
    obtain ⟨tail, htail⟩ := hpacket.data
    have hdrop : content.drop (offset + m.content.length) = tail := by
      rw [← drop_drop, ← htail, drop_left]
    rw [hdrop] at hpre heof
    rw [filter_cons_of_pos (by simp [hpacket.opcode]), flatMap_cons, ← htail]
    refine ⟨(prefix_append_right_inj _).mpr hpre, ?_⟩
    rintro ⟨m', hm', hnak⟩
    rcases mem_cons.mp hm' with rfl | hm'
    · cases hpacket.opcode.symm.trans hnak
    · rw [heof ⟨m', hm', hnak⟩]
  | complete hpacket _ =>
    simp [hpacket.opcode, hpacket.data]
    exact nofun
  | @eof _ offset _ heof _ =>
    have hempty : content.drop offset = [] := by rw [heof.at_end, drop_length]
    simp [heof.opcode, hempty, show kRspNak ≠ kRspAck by decide]

theorem length_le (h : Burst content seqNumber offset ms (some (seqNumber', offset'))) :
    ms.length ≤ offset' - offset ∧ offset ≤ offset' := by
  generalize hend : some (seqNumber', offset') = e at h
  induction h with
  | pause =>
    cases hend
    exact ⟨zero_le _, le_refl _⟩
  | packet hpacket _ _ ih =>
    obtain ⟨hlength, hle⟩ := ih hend
    have hpos := length_pos_iff.mpr hpacket.nonempty
    rw [length_cons]
    omega
  | complete => cases hend
  | eof => cases hend

end Burst

/-! ## The file -/

/-- `fd` is open for reading on a file with this content: while the operating system is `Intact`,
seeking to a place in it and reading there gives some of the bytes that follow. -/
structure ReadsFile {O : Type*} (env : FtpEnv O) (fd : Fd) (content : Bytes)
    (Intact : O → Prop) : Prop where
  read : ∀ os (offset : UInt32), Intact os → offset.toNat < content.length →
    ∃ os₁ os₂ bytes, env.lseek os fd offset = (os₁, some ()) ∧
      env.read os₁ fd kMaxDataLength = (os₂, some bytes) ∧
      bytes.1 ≠ [] ∧ bytes.1 <+: content.drop offset.toNat ∧ Intact os₂

namespace Payload

variable {bytes : Bytes}

theorem content_write (p : Payload) (h : bytes.length ≤ kMaxDataLength) :
    ((p.write 0 bytes).setSize (.ofNat bytes.length)).content = bytes := by
  have hsize : (UInt8.ofNat bytes.length).toNat = bytes.length := by
    exact mod_eq_of_lt (lt_of_le_of_lt h (by decide))
  change (ofFn (p.write 0 bytes).data).take (UInt8.ofNat bytes.length).toNat = bytes
  rw [hsize]
  apply ext_getElem
  · rw [length_take, length_ofFn, min_eq_left h]
  · intro i h₁ h₂
    rw [List.getElem_take, List.getElem_ofFn]
    change bytes.getD (i - 0) _ = _
    rw [Nat.sub_zero, getD_eq_getElem _ _ h₂]

end Payload

namespace Ftp

variable {O : Type*} {env : FtpEnv O} {ftp : Ftp O} {fd : Fd} {content : Bytes}
  {Intact : O → Prop} {seqNumber : UInt16} {offset : ℕ}

/-- A download of the file is going on and has come to the sequence number and the offset. -/
structure Streaming (ftp : Ftp O) (fd : Fd) (content : Bytes) (Intact : O → Prop)
    (seqNumber : UInt16) (offset : ℕ) : Prop where
  on : ftp.session.streamDownload = true
  fd_eq : ftp.session.fd = some fd
  fileSize_eq : ftp.session.fileSize.toNat = content.length
  seqNumber_eq : ftp.session.streamSeqNumber = seqNumber
  offset_eq : ftp.session.streamOffset.toNat = offset
  offset_le : offset ≤ content.length
  intact : Intact ftp.os

/-- A download goes on at the end of the file, or the next bytes are read. -/
theorem Streaming.streamRead (h : ftp.Streaming fd content Intact seqNumber offset)
    (hfile : ReadsFile env fd content Intact) :
    (ftp.streamRead env = (ftp.os, .error .eof) ∧ offset = content.length) ∨
      ∃ os bytes, ftp.streamRead env = (os, .ok bytes) ∧ bytes ≠ [] ∧
        bytes.length ≤ kMaxDataLength ∧ bytes <+: content.drop offset ∧ Intact os := by
  unfold Ftp.streamRead
  by_cases hend : ftp.session.streamOffset ≥ ftp.session.fileSize
  · rw [if_pos hend]
    have hle : ftp.session.fileSize.toNat ≤ ftp.session.streamOffset.toNat := hend
    rw [h.fileSize_eq, h.offset_eq] at hle
    exact .inl ⟨rfl, le_antisymm h.offset_le hle⟩
  · rw [if_neg hend]
    have hlt : ftp.session.streamOffset.toNat < content.length := by
      rw [← h.fileSize_eq]
      exact not_le.mp hend
    obtain ⟨os₁, os₂, bytes, hseek, hread, hne, hpre, hintact⟩ :=
      hfile.read ftp.os ftp.session.streamOffset h.intact hlt
    rw [h.fd_eq]
    dsimp only
    rw [hseek]
    dsimp only
    rw [hread]
    exact .inr ⟨os₂, bytes, rfl, hne, bytes.2, h.offset_eq ▸ hpre, hintact⟩

/-- What the loop leaves behind: the download has come further, or it is over. -/
def Reached (ftp : Ftp O) (fd : Fd) (content : Bytes) (Intact : O → Prop) :
    Option (UInt16 × ℕ) → Prop
  | some (seqNumber, offset) => ftp.Streaming fd content Intact seqNumber offset
  | none => ftp.session.streamDownload = false

/-- The server after it has read the next bytes. -/
def afterRead (ftp : Ftp O) (os : O) (bytes : Bytes) : Ftp O :=
  { ftp with
    os
    session := { ftp.session with
      streamSeqNumber := ftp.session.streamSeqNumber + 1
      streamOffset := ftp.session.streamOffset + UInt32.ofNat bytes.length
      streamChunkTransmitted := ftp.session.streamChunkTransmitted + UInt32.ofNat bytes.length } }

/-- The packet with these bytes, over what the stack holds. -/
def packetPayload (ftp : Ftp O) (message : Payload) (bytes : Bytes) : Payload :=
  (Payload.write { message with header := ftp.streamHeader message.header } 0 bytes).setSize
    (.ofNat bytes.length)

section

variable (h : ftp.Streaming fd content Intact seqNumber offset)
include h

variable {bytes : List UInt8}

theorem Streaming.afterRead {os} (hpre : bytes <+: content.drop offset) (hintact : Intact os) :
    (ftp.afterRead os bytes).Streaming fd content Intact (seqNumber + 1)
      (offset + bytes.length) := by
  have hlength := hpre.length_le
  rw [length_drop] at hlength
  have hle := h.offset_le
  have hlt := ftp.session.fileSize.toNat_lt
  rw [h.fileSize_eq] at hlt
  have hoffset : (ftp.session.streamOffset + UInt32.ofNat bytes.length).toNat =
      offset + bytes.length := by
    rw [UInt32.toNat_add, UInt32.toNat_ofNat', h.offset_eq]
    omega
  exact
    { on := h.on
      fd_eq := h.fd_eq
      fileSize_eq := h.fileSize_eq
      seqNumber_eq := congrArg (· + 1) h.seqNumber_eq
      offset_eq := hoffset
      offset_le := by omega
      intact := hintact }

theorem Streaming.isPacket (hne : bytes ≠ []) (hlength : bytes.length ≤ kMaxDataLength)
    (hpre : bytes <+: content.drop offset) (message burstComplete) (ftp' : Ftp O) :
    let sent := ftp'.replyStream
      { ftp.packetPayload message bytes with header.burstComplete := burstComplete }
    sent.2.IsPacket content seqNumber offset ∧ sent.2.content.length = bytes.length := by
  intro sent
  have hbytes : sent.2.content = bytes := Payload.content_write _ hlength
  have hsize : (UInt8.ofNat bytes.length).toNat = bytes.length := by
    exact mod_eq_of_lt (lt_of_le_of_lt hlength (by decide))
  refine ⟨?_, congrArg length hbytes⟩
  exact
    { opcode := rfl
      reqOpcode := rfl
      seqNumber_eq := h.seqNumber_eq
      offset_eq := h.offset_eq
      size_eq := by rw [hbytes]; exact hsize
      nonempty := hbytes ▸ hne
      data := hbytes ▸ hpre }

theorem Streaming.replyStream (payload) :
    (ftp.replyStream payload).1.Streaming fd content Intact seqNumber offset :=
  { h with }

/-- The last packet with room leaves the download where it is, or completes the burst. -/
theorem Streaming.replyLast {os : O} (hne : bytes ≠ []) (hlength : bytes.length ≤ kMaxDataLength)
    (hpre : bytes <+: content.drop offset) (hintact : Intact os) (message : Payload)
    (hzero : message.header.burstComplete = 0) :
    let sent := (ftp.afterRead os bytes).replyLast (ftp.packetPayload message bytes)
    ∃ rest, Burst content seqNumber offset [sent.2] rest ∧
      sent.1.Reached fd content Intact rest := by
  unfold Ftp.replyLast
  split
  · have hpacket := h.isPacket hne hlength hpre message 1
    exact ⟨none, .complete (hpacket _).1 (show (1 : UInt8) ≠ 0 by decide), rfl⟩
  have hpacket := h.isPacket hne hlength hpre message message.header.burstComplete
    (ftp.afterRead os bytes)
  have hreached := (h.afterRead hpre hintact).replyStream (ftp.packetPayload message bytes)
  rw [← hpacket.2] at hreached
  exact ⟨some _, .packet hpacket.1 hzero .pause, hreached⟩

theorem Streaming.isEof (hend : offset = content.length) {message : Payload} {ftp' : Ftp O} :
    (ftp'.replyStream (Payload.writeError
      { message with header := { ftp.streamHeader message.header with opcode := kRspNak } }
      ftp.ourErrno .eof)).2.IsEof content seqNumber offset where
  __ := h
  opcode := rfl
  reqOpcode := rfl
  content_eq := @Payload.content_write [ErrorCode.eof.toByte]
    { message with header := { ftp.streamHeader message.header with opcode := kRspNak } }
    (by decide)
  at_end := hend

end

variable {uninitialized : ℕ → Payload} {maxBytesToSend : ℕ} {c : SendCall} {calls : List SendCall}
  {alloc : Allocation} {r : FtpRequest}

/-- The loop delivers the next packets of the download, and at least one if it runs at all. -/
theorem Streaming.sendLoop (hfile : ReadsFile env fd content Intact)
    (hzero : ∀ i, (uninitialized i).header.burstComplete = 0) (fuel : ℕ)
    (h : ftp.Streaming fd content Intact seqNumber offset) (maxBytesToSend : ℕ) :
    let sent := ftp.sendLoop env uninitialized fuel maxBytesToSend
    ∃ rest, Burst content seqNumber offset sent.2 rest ∧
      sent.1.Reached fd content Intact rest ∧ (0 < fuel → sent.2 ≠ []) := by
  induction fuel generalizing ftp seqNumber offset maxBytesToSend with
  | zero => exact ⟨some (seqNumber, offset), .pause, h, nofun⟩
  | succ fuel ih =>
    unfold sendLoop
    rcases h.streamRead hfile with ⟨hread, hend⟩ | ⟨os, bytes, hread, hne, hlength, hpre, hintact⟩
    · rw [hread]
      exact ⟨none, .eof (h.isEof hend) (hzero fuel), rfl, nofun⟩
    rw [hread]
    dsimp only
    split
    · obtain ⟨rest, hburst, hreached⟩ :=
        h.replyLast hne hlength hpre hintact (uninitialized fuel) (hzero fuel)
      exact ⟨rest, hburst, hreached, nofun⟩
    · -- the rest of the loop starts behind this packet
      have hpacket := h.isPacket hne hlength hpre (uninitialized fuel) 0 (ftp.afterRead os bytes)
      obtain ⟨rest, hburst, hreached, -⟩ :=
        ih ((h.afterRead hpre hintact).replyStream
          { ftp.packetPayload (uninitialized fuel) bytes with header.burstComplete := 0 })
          (maxBytesToSend - streamMessageSize)
      rw [← hpacket.2] at hburst
      exact ⟨rest, .packet hpacket.1 rfl hburst, hreached, nofun⟩

/-- More fuel than the rounds for which there is room changes nothing. -/
theorem sendLoop_fuel (uninitialized extra fuel) (ftp : Ftp O)
    (h : maxBytesToSend / streamMessageSize < fuel) :
    ftp.sendLoop env uninitialized (fuel + extra) maxBytesToSend =
      ftp.sendLoop env (fun i => uninitialized (i + extra)) fuel maxBytesToSend := by
  induction fuel generalizing ftp maxBytesToSend with
  | zero => cases h
  | succ fuel ih =>
    rw [Nat.add_right_comm]
    unfold sendLoop
    dsimp only
    split
    · rfl
    split
    · rfl
    next hroom =>
      have hfuel : (maxBytesToSend - streamMessageSize) / streamMessageSize < fuel := by
        unfold streamMessageSize at h hroom ⊢
        omega
      rw [ih _ hfuel]

/-! ## The calls of `send` -/

variable (env) in
theorem Streaming.releaseUnused (h : ftp.Streaming fd content Intact seqNumber offset) {now}
    (ht : ¬ftp.timesOut now) :
    (ftp.releaseUnused env now).Streaming fd content Intact seqNumber offset := by
  obtain ⟨-, hsession, hos⟩ := ftp.releaseUnused_eq env ht
  obtain ⟨on, fd_eq, fileSize_eq, seqNumber_eq, offset_eq, offset_le, intact⟩ := h
  rw [← hsession] at on fd_eq fileSize_eq seqNumber_eq offset_eq
  rw [← hos] at intact
  exact ⟨on, fd_eq, fileSize_eq, seqNumber_eq, offset_eq, offset_le, intact⟩

/-- A call of `send` delivers the next packets, at least one if there is room for it. -/
theorem Streaming.send (h : ftp.Streaming fd content Intact seqNumber offset)
    (hfile : ReadsFile env fd content Intact) (ht : ¬ftp.timesOut c.now)
    (hzero : ∀ i, (c.uninitialized i).header.burstComplete = 0) :
    ∃ rest, Burst content seqNumber offset (ftp.send env c).2 rest ∧
      (ftp.send env c).1.Reached fd content Intact rest ∧
      (streamMessageSize ≤ c.freeTxBuf → (ftp.send env c).2 ≠ []) := by
  have h' := h.releaseUnused env ht
  unfold Ftp.send
  dsimp only
  split
  · obtain ⟨rest, hburst, hreached, hne⟩ := h'.sendLoop hfile hzero
      (c.freeTxBuf / streamMessageSize + 1) c.freeTxBuf
    exact ⟨rest, hburst, hreached, fun _ => hne (succ_pos _)⟩
  next hroom => exact ⟨some (seqNumber, offset), .pause, h', fun hle => absurd ⟨h'.on, hle⟩ hroom⟩

variable (env) in
theorem send_idle (h : ftp.session.streamDownload = false) :
    (ftp.send env c).2 = [] ∧ (ftp.send env c).1.session.streamDownload = false := by
  have h' : (ftp.releaseUnused env c.now).session.streamDownload = false := by
    unfold releaseUnused
    split
    · split <;> exact h
    split
    · exact h
    · split
      · rfl
      · exact h
  unfold Ftp.send
  rw [if_neg (by simp [h'])]
  exact ⟨rfl, h'⟩

variable (env) in
def sendStep (ftp : Ftp O) (c : SendCall) : Ftp O := (ftp.send env c).1

variable (env) in
/-- The messages of a sequence of calls of `send`. -/
def sentBy (ftp : Ftp O) (calls : List SendCall) : List SentMessage :=
  Run.emitted (sendStep env) (fun ftp c => (ftp.send env c).2) ftp calls

variable (env) in
theorem sentBy_idle (h : ftp.session.streamDownload = false) :
    ftp.sentBy env calls = [] ∧
      (Run.after (sendStep env) ftp calls).session.streamDownload = false := by
  induction calls generalizing ftp with
  | nil => exact ⟨rfl, h⟩
  | cons c calls ih =>
    obtain ⟨hsent, hidle⟩ := send_idle env h
    obtain ⟨hrest, hafter⟩ := ih hidle
    refine ⟨?_, hafter⟩
    change (ftp.send env c).2 ++ (ftp.sendStep env c).sentBy env calls = []
    rw [hsent]
    exact hrest

/-- The calls that find room for a message. -/
def roomyCalls (calls : List SendCall) : ℕ :=
  calls.countP fun c => streamMessageSize ≤ c.freeTxBuf

/-- A sequence of calls of `send` delivers packets, at least one whenever there is room. -/
theorem Streaming.sentBy (hfile : ReadsFile env fd content Intact)
    (hzero : ∀ c ∈ calls, ∀ i, (c.uninitialized i).header.burstComplete = 0)
    (h : ftp.Streaming fd content Intact seqNumber offset)
    (htime : Run.Along (sendStep env)
      (fun (f : Ftp O) c => f.session.streamDownload → ¬f.timesOut c.now) ftp calls) :
    ∃ rest, Burst content seqNumber offset (ftp.sentBy env calls) rest ∧
      (Run.after (sendStep env) ftp calls).Reached fd content Intact rest ∧
      ∀ seqNumber' offset', rest = some (seqNumber', offset') →
        offset + roomyCalls calls ≤ offset' := by
  induction calls generalizing ftp seqNumber offset with
  | nil =>
    refine ⟨some (seqNumber, offset), .pause, h, ?_⟩
    rintro _ _ ⟨⟩
    exact le_refl _
  | cons c calls ih =>
    obtain ⟨rest, hburst, hreached, hne⟩ :=
      h.send hfile (htime.1 h.on) (hzero c (mem_cons_self ..))
    have hzero' := fun c' hc' => hzero c' (mem_cons_of_mem c hc')
    cases rest with
    | none =>
      obtain ⟨hsent, hidle⟩ := sentBy_idle env hreached
      refine ⟨none, ?_, hidle, nofun⟩
      change Burst _ _ _ ((ftp.send env c).2 ++ (ftp.send env c).1.sentBy env calls) _
      rw [hsent, append_nil]
      exact hburst
    | some here =>
      obtain ⟨rest, hburst', hreached', hroom⟩ := ih hzero' hreached htime.2
      refine ⟨rest, hburst.append hburst', hreached', fun seqNumber' offset' hrest => ?_⟩
      have hlater := hroom seqNumber' offset' hrest
      obtain ⟨hlength, hle⟩ := hburst.length_le
      unfold roomyCalls at hlater ⊢
      rw [countP_cons]
      split
      next hroomy =>
        have hpos := length_pos_iff.mpr (hne (of_decide_eq_true hroomy))
        omega
      · omega

/-! ## One request -/

/-- The session reads a file of this content. -/
structure HasOpen (ftp : Ftp O) (fd : Fd) (content : Bytes) (Intact : O → Prop) : Prop where
  fd_eq : ftp.session.fd = some fd
  fileSize_eq : ftp.session.fileSize.toNat = content.length
  intact : Intact ftp.os

/-- A new request for a burst is accepted. -/
structure AcceptsBurst (env : FtpEnv O) (ftp : Ftp O) (alloc : Allocation) (r : FtpRequest) :
    Prop where
  addressed : isAddressed env r.message
  buffers : ftp.hasBuffers alloc
  size_le : r.message.payload.header.size.toNat ≤ kMaxDataLength
  new : ftp.repeatedReply r = none
  opcode : r.message.payload.header.opcode = 15
  session : r.message.payload.header.session = 0

/-- The request starts the download behind its own sequence number, at its offset. -/
theorem AcceptsBurst.streaming (h : ftp.AcceptsBurst env alloc r)
    (hopen : ftp.HasOpen fd content Intact)
    (hstart : r.message.payload.header.offset.toNat ≤ content.length) (now) :
    (ftp.handleMessage env now alloc r).1.Streaming fd content Intact
      (r.message.payload.header.seqNumber + 1) r.message.payload.header.offset.toNat := by
  let w : Work O := { ftp := ftp.ensureBuffersExist now alloc, payload := r.message.payload }
  have hfd : w.sessionFd = some fd := (if_neg (not_not.mpr h.session)).trans hopen.fd_eq
  have hcommand : Command.ofOpcode w.payload.header.opcode = some .burstReadFile :=
    congrArg Command.ofOpcode h.opcode
  have hstream : w.streamSend := decide_eq_true hcommand
  have hexecute : w.execute env r.systemId r.componentId =
      w.workBurst r.systemId r.componentId := by
    unfold Work.execute
    rw [hcommand]
  unfold handleMessage processRequest
  rw [if_pos h.addressed, if_neg (by simp [h.buffers]), if_neg (not_lt.mpr h.size_le), h.new]
  change (respond r w.streamSend (w.execute env r.systemId r.componentId)).1.Streaming ..
  rw [hexecute, hstream]
  unfold Work.workBurst
  rw [hfd]
  exact
    { on := rfl
      fd_eq := hopen.fd_eq
      fileSize_eq := hopen.fileSize_eq
      seqNumber_eq := rfl
      offset_eq := rfl
      offset_le := hstart
      intact := hopen.intact }

end Ftp

/-- A burst download of a file from an offset in it. If the unassigned `burst_complete` bytes are
zero and the session is not closed meanwhile, the messages that the calls of `send` put out are the
packets of the download, whatever room they find. It ends once more calls have found room than there
are bytes, and the loop of `send` ends by itself in every call. -/
theorem burst_reassembles {O : Type*} (env : FtpEnv O) (fd : Fd) (content : Bytes)
    (Intact : O → Prop) (hfile : ReadsFile env fd content Intact) (ftp : Ftp O)
    (hopen : ftp.HasOpen fd content Intact) (now : UInt64) (alloc : Allocation) (r : FtpRequest)
    (hrequest : ftp.AcceptsBurst env alloc r)
    (hstart : r.message.payload.header.offset.toNat ≤ content.length) (calls : List SendCall)
    (hzero : ∀ c ∈ calls, ∀ i, (c.uninitialized i).header.burstComplete = 0)
    (htime : Run.Along (sendStep env) (fun f c => f.session.streamDownload → ¬f.timesOut c.now)
      (ftp.handleMessage env now alloc r).1 calls) :
    let start := r.message.payload.header.offset.toNat
    let sent := (ftp.handleMessage env now alloc r).1.sentBy env calls
    let last := Run.after (sendStep env) (ftp.handleMessage env now alloc r).1 calls
    let data := (sent.filter (·.header.opcode = kRspAck)).flatMap (·.content)
    (∃ rest, Burst content (r.message.payload.header.seqNumber + 1) start sent rest ∧
      (rest = none ↔ last.session.streamDownload = false) ∧
      (content.length - start < roomyCalls calls → rest = none)) ∧
    data <+: content.drop start ∧
    ((∃ m ∈ sent, m.header.opcode = kRspNak) → data = content.drop start) ∧
    (∀ (f : Ftp O) (c : SendCall) (extra : ℕ),
      f.sendLoop env c.uninitialized (c.freeTxBuf / streamMessageSize + 1 + extra) c.freeTxBuf =
        f.sendLoop env (fun i => c.uninitialized (i + extra))
          (c.freeTxBuf / streamMessageSize + 1) c.freeTxBuf) := by
  intro start sent last data
  have hstreaming := hrequest.streaming hopen hstart now
  obtain ⟨rest, hburst, hreached, hroom⟩ := Ftp.Streaming.sentBy hfile hzero hstreaming htime
  refine ⟨⟨rest, hburst, ?_, ?_⟩, hburst.reassembles.1, hburst.reassembles.2,
    fun f c extra => sendLoop_fuel c.uninitialized extra _ f (lt_succ_self _)⟩
  · cases rest with
    | none => exact ⟨fun _ => hreached, fun _ => rfl⟩
    | some here => exact ⟨nofun, fun hoff => nomatch hreached.on.symm.trans hoff⟩
  · intro hlt
    match rest, hreached, hroom with
    | none, _, _ => rfl
    | some (seqNumber', offset'), hreached, hroom =>
      have hle : start + roomyCalls calls ≤ offset' := hroom seqNumber' offset' rfl
      have hend := hreached.offset_le
      omega

/-- A file that is open for reading, with the position in it as the state. -/
def oneFile (content : Bytes) : FtpEnv ℕ :=
  { FtpEnv.failing ℕ with
    lseek := fun _ _ offset => (offset.toNat, some ())
    read := fun position _ count =>
      (position + count, some ⟨(content.drop position).take count, length_take_le _ _⟩) }

variable {content : Bytes} {fd : Fd}

theorem oneFile_readsFile :
    ReadsFile (oneFile content) fd content fun _ => True where
  read _ offset _ hlt := by
    refine ⟨_, _, _, rfl, rfl, ?_, take_prefix _ _, trivial⟩
    rw [Ne, take_eq_nil_iff, drop_eq_nil_iff]
    exact not_or.mpr ⟨by decide, not_le.mpr hlt⟩

/-- A server with a session on ten bytes. -/
def tenByteSession : Ftp ℕ where
  os := 0
  session := { fd := some 3, fileSize := 10 }

def tenBytes : Bytes := [0, 1, 2, 3, 4, 5, 6, 7, 8, 9]

/-- The request to download them. -/
def tenByteRequest : FtpRequest where
  message :=
    { targetSystem := 1
      targetComponent := 1
      payload := { header := { seqNumber := 7, opcode := 15 } } }
  systemId := 255
  componentId := 190

/-- Two calls of `send` with room for one message, and this byte where `burst_complete` will be. -/
def tenByteCalls (burstComplete : UInt8) : List SendCall :=
  [100, 200].map fun now =>
    { now, freeTxBuf := 300, uninitialized := fun _ => { header := { burstComplete } } }

/-- The first messages of the download. -/
def tenByteMessages (burstComplete : UInt8) : List SentMessage :=
  (tenByteSession.handleMessage (oneFile tenBytes) 0 ⟨some [], true⟩ tenByteRequest).1.sentBy
    (oneFile tenBytes) (tenByteCalls burstComplete)

theorem tenByteRequest_accepted :
    tenByteSession.AcceptsBurst (oneFile tenBytes) ⟨some [], true⟩ tenByteRequest :=
  ⟨by decide, by decide, by decide, by decide, by decide, by decide⟩

theorem burst_reassembles_ten_bytes : ∃ rest, Burst tenBytes 8 0 (tenByteMessages 0) rest :=
  let ⟨⟨rest, hburst, _⟩, _⟩ :=
    burst_reassembles (oneFile tenBytes) 3 tenBytes (fun _ => True) oneFile_readsFile
      tenByteSession ⟨rfl, rfl, trivial⟩ 0 ⟨some [], true⟩ tenByteRequest tenByteRequest_accepted
      (by decide) (tenByteCalls 0) (by simp [tenByteCalls]) (by decide +kernel)
  ⟨rest, hburst⟩

/-- With another byte on the stack, the one packet of the file claims to complete the burst, and the
Nak at the end of the file follows it. -/
theorem burst_complete_unassigned :
    tenByteSession.AcceptsBurst (oneFile tenBytes) ⟨some [], true⟩ tenByteRequest ∧
      (tenByteMessages 1).map (fun m => (m.header.opcode, m.header.burstComplete)) =
        [(kRspAck, 1), (kRspNak, 1)] ∧
      ¬∃ rest, Burst tenBytes 8 0 (tenByteMessages 1) rest := by
  refine ⟨tenByteRequest_accepted, by decide +kernel, ?_⟩
  rintro ⟨rest, hburst⟩
  -- two messages, so the first one is not the last one of a burst
  cases hburst with
  | packet _ hzero _ => exact absurd hzero (by decide +kernel)

end Px4.MavlinkFtp
