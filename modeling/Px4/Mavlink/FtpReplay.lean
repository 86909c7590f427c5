import Px4.Common.Run
import Px4.Mavlink.Ftp
import Px4.Mavlink.FtpAcks

/-!
# Repeated requests

The file server keeps its last small reply, so that a request may be repeated without being executed
again. Whether this works depends on the first byte of the data of the reply and on the sequence
number.
-/

namespace Px4.MavlinkFtp

open Ftp List Option Payload Run

/-! ## The kept reply -/

/-- A Nak of the error `kErrNoSessionsAvailable`. -/
def SentMessage.IsNoSessionsNak (m : SentMessage) : Prop :=
  m.header.opcode = kRspNak ∧ m.content.head? = some ErrorCode.noSessionsAvailable.toByte
deriving Decidable

/-- A message that is not kept: more than four bytes, or first that of `kErrNoSessionsAvailable`. -/
def SentMessage.IsTransient (m : SentMessage) : Prop :=
  4 < m.header.size ∨ m.content.head? = some ErrorCode.noSessionsAvailable.toByte
deriving Decidable

theorem FtpMessage.sent_lastReply {m : FtpMessage} (h : m.payload.header.size ≤ 4) :
    m.lastReply.sent = m.sent := by
  have hn : m.payload.header.size.toNat ≤ 4 := h
  have hcontent : (List.ofFn m.lastReply.data).take m.payload.header.size.toNat =
      (List.ofFn m.payload.data).take m.payload.header.size.toNat := by
    apply List.ext_getElem
    · rw [List.length_take, List.length_take, List.length_ofFn, List.length_ofFn,
        Nat.min_eq_left hn, Nat.min_eq_left (hn.trans (by decide))]
    · intro i h₁ h₂
      simp only [List.getElem_take, List.getElem_ofFn]
      rfl
  simp only [LastReply.sent, FtpMessage.sent, Payload.content, ← hcontent]
  rfl

theorem FtpMessage.isKept_iff {m : FtpMessage} :
    m.isKept ↔ m.payload.header.size ≤ 4 ∧ m.payload.firstByte ≠ 5 := by
  simp [isKept, ErrorCode.toByte]

theorem FtpMessage.not_isKept {m : FtpMessage} (h : m.sent.IsTransient) : ¬m.isKept := by
  rw [isKept_iff]
  rintro ⟨hsize, hbyte⟩
  rcases h with h | h
  · exact UInt8.not_le.mpr h hsize
  have hhead : m.payload.content.head? = some 5 := h
  rw [content_head] at hhead
  split at hhead
  · nomatch hhead
  · exact hbyte (some_inj.mp hhead)

namespace Ftp

variable {O : Type*} {ftp : Ftp O} {r : FtpRequest} {m : SentMessage}

/-- The server has kept the message as its reply to the request. -/
def Remembers (ftp : Ftp O) (r : FtpRequest) (m : SentMessage) : Prop :=
  ∃ last, ftp.lastReply = some last ∧ last.answers r ∧ last.sent = m

variable {message : FtpMessage} {payload : Payload} {errorCode : ErrorCode} {env : FtpEnv O}
  {now : UInt64} {alloc : Allocation} {uninitialized : ℕ → Payload} {fuel maxBytesToSend : ℕ}
  {c : SendCall}

theorem reply_remembers (hk : message.isKept)
    (ha : message.lastReply.answers r) : (ftp.reply message).1.Remembers r message.sent := by
  refine ⟨message.lastReply, if_pos hk, ha, ?_⟩
  exact FtpMessage.sent_lastReply (FtpMessage.isKept_iff.mp hk).1

theorem reply_lastReply (h : message.sent.IsTransient) :
    (ftp.reply message).1.lastReply = ftp.lastReply :=
  if_neg (FtpMessage.not_isKept h)

/-- Below the last sequence number, the one of the reply is the one that is looked for. -/
theorem answers_replyTo (hs : payload.header.seqNumber = r.message.payload.header.seqNumber + 1)
    (hw : r.message.payload.header.seqNumber ≠ 65535) :
    (replyTo r payload).lastReply.answers r := by
  have hlt : r.message.payload.header.seqNumber.toNat + 1 < 2 ^ 16 := by
    have h := r.message.payload.header.seqNumber.toNat_lt
    have hne : r.message.payload.header.seqNumber.toNat ≠ 65535 :=
      fun h => hw (UInt16.toNat_inj.mp h)
    omega
  have hadd : (r.message.payload.header.seqNumber + 1).toNat =
      r.message.payload.header.seqNumber.toNat + 1 := by
    exact Nat.mod_eq_of_lt hlt
  simp [LastReply.answers, replyTo, FtpMessage.lastReply, hs, hadd]

theorem toReply_seqNumber {p : Payload} {ourErrno errorCode} :
    (p.toReply ourErrno errorCode).header.seqNumber = p.header.seqNumber + 1 := by
  unfold toReply
  split
  · rfl
  · unfold writeError
    split <;> rfl

/-- The first byte of a Nak is its error code, which the data of the message shows. -/
theorem toReply_firstByte {p : Payload} {ourErrno} (hb : errorCode = .none → p.firstByte ≠ 5)
    (hn : ¬(replyTo r (p.toReply ourErrno errorCode)).sent.IsNoSessionsNak) :
    (p.toReply ourErrno errorCode).firstByte ≠ 5 := by
  intro h5
  by_cases he : errorCode = .none
  · rw [toReply, if_pos he] at h5
    exact hb he h5
  apply hn
  have hop : (p.toReply ourErrno errorCode).header.opcode = kRspNak := by
    rw [toReply, if_neg he, writeError]
    split <;> rfl
  have hsize : (p.toReply ourErrno errorCode).header.size ≠ 0 := by
    rw [toReply, if_neg he, writeError]
    split <;> simp
  refine ⟨hop, ?_⟩
  change (p.toReply ourErrno errorCode).content.head? = some 5
  rw [content_head, if_neg hsize, h5]

theorem respond_remembers {O : Type*} {result : Work O × ErrorCode} {streamSend : Bool}
    (hw : r.message.payload.header.seqNumber ≠ 65535)
    (hresult : Work.Memorable r.message.payload.header.seqNumber result)
    (hm : (respond r streamSend result).2 = some m) (hsize : m.header.size ≤ 4)
    (hn : ¬m.IsNoSessionsNak) : (respond r streamSend result).1.Remembers r m := by
  unfold respond at hm ⊢
  split at hm
  · nomatch hm
  next hsend =>
    rw [if_neg hsend]
    obtain rfl := some_inj.mp hm
    refine reply_remembers ?_ (answers_replyTo ?_ hw)
    · exact FtpMessage.isKept_iff.mpr ⟨hsize, toReply_firstByte hresult.firstByte hn⟩
    · rw [toReply_seqNumber, hresult.seqNumber_eq]

theorem processRequest_remembers (hlength : r.message.payload.header.size.toNat ≤ kMaxDataLength)
    (hrepeatable : Work.isRepeatable r.message.payload.header.opcode)
    (hw : r.message.payload.header.seqNumber ≠ 65535)
    (hb : Work.ackByte env { ftp, payload := r.message.payload } ≠ 5)
    (hm : (ftp.processRequest env now alloc r).2 = some m) (hsize : m.header.size ≤ 4)
    (hn : ¬m.IsNoSessionsNak) : (ftp.processRequest env now alloc r).1.Remembers r m := by
  unfold processRequest at hm ⊢
  by_cases halloc : !ftp.hasBuffers alloc
  · rw [if_pos halloc] at hm ⊢
    exact respond_remembers hw (.of_error rfl nofun) hm hsize hn
  rw [if_neg halloc, if_neg (Nat.not_lt.mpr hlength)] at hm ⊢
  cases hlast : ftp.repeatedReply r with
  | some last =>
    -- the reply was already kept for this request
    rw [hlast] at hm
    obtain ⟨hkept, hanswers⟩ := filter_eq_some_iff.mp hlast
    exact ⟨last, hkept, hanswers, some_inj.mp hm⟩
  | none =>
    rw [hlast] at hm
    let w : Work O := { ftp := ftp.ensureBuffersExist now alloc, payload := r.message.payload }
    have hexecute : Work.Memorable _ (w.execute env r.systemId r.componentId) :=
      Work.memorable_execute hrepeatable hb
    exact respond_remembers hw hexecute hm hsize hn

/-- A kept reply is sent again, and nothing else happens. -/
theorem Remembers.processRequest (h : ftp.Remembers r m)
    (hlength : r.message.payload.header.size.toNat ≤ kMaxDataLength)
    (halloc : ftp.hasBuffers alloc) :
    ftp.processRequest env now alloc r = (ftp.ensureBuffersExist now alloc, some m) := by
  obtain ⟨last, hlast, hanswers, rfl⟩ := h
  have hrepeated : ftp.repeatedReply r = some last :=
    filter_eq_some_iff.mpr ⟨hlast, hanswers⟩
  unfold processRequest
  rw [if_neg (by simp [halloc]), if_neg (Nat.not_lt.mpr hlength), hrepeated]

/-- The answer to a request for which there is no memory. -/
def noMemoryReply (r : FtpRequest) : SentMessage :=
  (replyTo r (r.message.payload.toReply enomem .failErrno)).sent

theorem processRequest_noMemory (h : ¬ftp.hasBuffers alloc) :
    let y := ftp.processRequest env now alloc r
    y.2 = some (noMemoryReply r) ∧ y.1.session = ftp.session ∧ y.1.os = ftp.os := by
  unfold processRequest
  rw [if_pos (by simpa using h)]
  exact ⟨rfl, rfl, rfl⟩

/-! ## Between the deliveries -/

theorem replyLast_lastReply (h : (ftp.replyLast payload).2.IsTransient) :
    (ftp.replyLast payload).1.lastReply = ftp.lastReply := by
  unfold replyLast at h ⊢
  split
  next hchunk =>
    rw [if_pos hchunk] at h
    exact reply_lastReply h
  next hchunk =>
    rw [if_neg hchunk] at h
    exact reply_lastReply h

theorem sendLoop_lastReply
    (h : ∀ m ∈ (ftp.sendLoop env uninitialized fuel maxBytesToSend).2, m.IsTransient) :
    (ftp.sendLoop env uninitialized fuel maxBytesToSend).1.lastReply = ftp.lastReply := by
  induction fuel generalizing ftp maxBytesToSend with
  | zero => rfl
  | succ fuel ih =>
    unfold sendLoop at h ⊢
    split
    next os errorCode hread =>
      rw [hread] at h
      exact reply_lastReply (h _ (mem_singleton_self _))
    next os bytes hread =>
      rw [hread] at h
      dsimp only at h
      by_cases hroom : maxBytesToSend < streamMessageSize * 2
      · rw [if_pos hroom] at h ⊢
        exact replyLast_lastReply (h _ (mem_singleton_self _))
      rw [if_neg hroom] at h ⊢
      -- this packet, and by induction all that follow it
      exact (ih fun m hm => h m (mem_cons_of_mem _ hm)).trans
        (reply_lastReply (h _ (mem_cons_self ..)))

theorem sendLoop_ne_nil : (ftp.sendLoop env uninitialized (fuel + 1) maxBytesToSend).2 ≠ [] := by
  unfold sendLoop
  split
  · exact cons_ne_nil _ _
  · split <;> exact cons_ne_nil _ _

theorem send_lastReply (ht : ¬ftp.timesOut c.now) (h : ∀ m ∈ (ftp.send env c).2, m.IsTransient) :
    (ftp.send env c).1.lastReply = ftp.lastReply := by
  rw [← (releaseUnused_eq env ftp ht).1]
  unfold send at h ⊢
  dsimp only at h ⊢
  split
  next hstream =>
    rw [if_pos hstream] at h
    exact sendLoop_lastReply h
  · rfl

theorem send_quiet (ht : ¬ftp.timesOut c.now) (h : (ftp.send env c).2 = []) :
    (ftp.send env c).1.session = ftp.session ∧ (ftp.send env c).1.os = ftp.os := by
  unfold send at h ⊢
  dsimp only at h ⊢
  split
  next hstream =>
    rw [if_pos hstream] at h
    exact absurd h sendLoop_ne_nil
  · exact (releaseUnused_eq env ftp ht).2

end Ftp

/-! ## The second delivery -/

/-- A request is delivered twice, with calls of `send` in between. -/
structure Repetition where
  request : FtpRequest
  firstNow : UInt64
  firstAlloc : Allocation
  sends : List SendCall
  secondNow : UInt64
  secondAlloc : Allocation

namespace Repetition

variable {O : Type*} (env : FtpEnv O) (ftp : Ftp O) (p : Repetition)

def first : Ftp O × Option SentMessage :=
  ftp.handleMessage env p.firstNow p.firstAlloc p.request

/-- The server before the second delivery. -/
def between : Ftp O :=
  after (fun ftp c => (ftp.send env c).1) (p.first env ftp).1 p.sends

def second : Ftp O × Option SentMessage :=
  (p.between env ftp).handleMessage env p.secondNow p.secondAlloc p.request

/-- Every call of `send` in between meets a condition on the server and the call. -/
def Meanwhile (C : Ftp O → SendCall → Prop) : Prop :=
  Run.Along (fun ftp c => (ftp.send env c).1) C (p.first env ftp).1 p.sends

instance (C : Ftp O → SendCall → Prop) [∀ ftp c, Decidable (C ftp c)] :
    Decidable (p.Meanwhile env ftp C) :=
  inferInstanceAs (Decidable (Run.Along _ _ _ _))

/-- A well-formed request that is answered with a small reply, and no time-out in between. -/
structure Admissible (m : SentMessage) : Prop where
  length_le : p.request.message.payload.header.size.toNat ≤ kMaxDataLength
  repeatable : Work.isRepeatable p.request.message.payload.header.opcode
  reply : (p.first env ftp).2 = some m
  small : m.header.size ≤ 4
  sessions : ¬m.IsNoSessionsNak
  noTimeOut : p.Meanwhile env ftp fun ftp c => ¬ftp.timesOut c.now

/-- The second delivery repeats the reply and changes nothing; what the first one left is still
there unless a download was streamed in between. -/
structure ExecutedOnce : Prop where
  reply : (p.second env ftp).2 = (p.first env ftp).2
  session : (p.second env ftp).1.session = (p.between env ftp).session
  os : (p.second env ftp).1.os = (p.between env ftp).os
  quiet : (p.Meanwhile env ftp fun ftp c => (ftp.send env c).2 = []) →
    (p.between env ftp).session = (p.first env ftp).1.session ∧
      (p.between env ftp).os = (p.first env ftp).1.os

/-- What the server needs to recognise the repetition. -/
structure Recognisable : Prop where
  seqNumber : p.request.message.payload.header.seqNumber ≠ 65535
  ackByte : Work.ackByte env { ftp, payload := p.request.message.payload } ≠ 5
  transient : p.Meanwhile env ftp fun ftp c => ∀ m ∈ (ftp.send env c).2, m.IsTransient
  buffers : (p.between env ftp).hasBuffers p.secondAlloc ∨ ¬ftp.hasBuffers p.firstAlloc

variable {env ftp p} {m : SentMessage}

variable {now : UInt64} {alloc : Allocation} {r : FtpRequest}

theorem handleMessage_of_addressed (h : isAddressed env r.message) :
    ftp.handleMessage env now alloc r = ftp.processRequest env now alloc r :=
  if_pos h

theorem Admissible.isAddressed (h : p.Admissible env ftp m) :
    isAddressed env p.request.message := by
  have hreply := h.reply
  unfold first handleMessage at hreply
  split at hreply
  next haddressed => exact haddressed
  · nomatch hreply

/-- The first delivery, or an earlier one, makes the server keep the reply. -/
theorem Recognisable.first_remembers (h : p.Recognisable env ftp) (ha : p.Admissible env ftp m) :
    (p.first env ftp).1.Remembers p.request m := by
  have hreply := ha.reply
  unfold first at hreply ⊢
  rw [handleMessage_of_addressed ha.isAddressed] at hreply ⊢
  exact processRequest_remembers ha.length_le ha.repeatable h.seqNumber h.ackByte hreply
    ha.small ha.sessions

/-- The calls in between leave the kept reply alone. -/
theorem Recognisable.between_remembers (h : p.Recognisable env ftp)
    (ha : p.Admissible env ftp m) : (p.between env ftp).Remembers p.request m := by
  refine after_of_invariant (I := fun ftp : Ftp O => ftp.Remembers p.request m) ?_
    (h.first_remembers ha) (ha.noTimeOut.and h.transient)
  rintro ftp c ⟨last, hlast, hanswers⟩ ⟨ht, hc⟩
  exact ⟨last, (send_lastReply ht hc).trans hlast, hanswers⟩

theorem Admissible.quiet (ha : p.Admissible env ftp m)
    (hq : p.Meanwhile env ftp fun ftp c => (ftp.send env c).2 = []) :
    (p.between env ftp).session = (p.first env ftp).1.session ∧
      (p.between env ftp).os = (p.first env ftp).1.os := by
  refine after_of_invariant
    (I := fun f : Ftp O => f.session = (p.first env ftp).1.session ∧
      f.os = (p.first env ftp).1.os) ?_ ⟨rfl, rfl⟩ (ha.noTimeOut.and hq)
  rintro f c ⟨hsession, hos⟩ ⟨ht, hc⟩
  obtain ⟨hsession', hos'⟩ := send_quiet ht hc
  exact ⟨hsession'.trans hsession, hos'.trans hos⟩

/-- In every run, a request with a small reply that is delivered again is answered again and not
executed again, provided that the sequence number does not wrap, that an Ack would not begin with
the byte of `kErrNoSessionsAvailable`, that no small packet of a download is sent in between, and
that the second delivery finds its work buffers if the first one did. -/
theorem executed_once_of_recognisable (env : FtpEnv O) (os : O) (run : List FtpEvent)
    (p : Repetition) (m : SentMessage)
    (ha : p.Admissible env (after (step env) (.init os) run) m)
    (h : p.Recognisable env (after (step env) (.init os) run)) :
    p.ExecutedOnce env (after (step env) (.init os) run) := by
  generalize after (step env) (.init os) run = ftp at ha h
  have hremembers := h.between_remembers ha
  have hsecond : p.second env ftp =
      (p.between env ftp).processRequest env p.secondNow p.secondAlloc p.request :=
    handleMessage_of_addressed ha.isAddressed
  by_cases hbuffers : (p.between env ftp).hasBuffers p.secondAlloc
  · rw [hremembers.processRequest ha.length_le hbuffers] at hsecond
    exact
      { reply := by rw [hsecond, ha.reply]
        session := by rw [hsecond]; rfl
        os := by rw [hsecond]; rfl
        quiet := ha.quiet }
  · -- neither delivery got its memory, and both say so
    have hnoMemory : (p.second env ftp).2 = some (noMemoryReply p.request) ∧
        (p.second env ftp).1.session = (p.between env ftp).session ∧
        (p.second env ftp).1.os = (p.between env ftp).os := by
      rw [hsecond]
      exact processRequest_noMemory hbuffers
    have hfirst : (p.first env ftp).2 = some (noMemoryReply p.request) := by
      rw [first, handleMessage_of_addressed ha.isAddressed]
      exact (processRequest_noMemory (h.buffers.resolve_left hbuffers)).1
    rw [← hfirst] at hnoMemory
    exact
      { reply := hnoMemory.1
        session := hnoMemory.2.1
        os := hnoMemory.2.2
        quiet := ha.quiet }

/-! The directories of a file system in which nothing but `mkdir` succeeds. -/

/-- The directories and `errno`. -/
structure Directories where
  paths : List Path := []
  errno : Errno := 0

/-- The calls on directories, in the POSIX build. -/
def Directories.calls : FtpEnv Directories where
  nuttx := false
  rootDir := []
  boardRootPath := []
  storageDir := []
  systemId := 1
  componentId := 1
  errno := (·.errno)
  setErrno d e := { d with errno := e }
  stat d _ := ({ d with errno := enoent }, none)
  openFile d _ _ := ({ d with errno := enoent }, none)
  close d _ := d
  lseek d _ _ := ({ d with errno := enoent }, none)
  read d _ _ := ({ d with errno := enoent }, none)
  write d _ _ := ({ d with errno := enoent }, none)
  unlink d _ := ({ d with errno := enoent }, none)
  mkdir d path :=
    if path ∈ d.paths then ({ d with errno := eexist }, none)
    else ({ d with paths := path :: d.paths }, some ())
  rmdir d _ := ({ d with errno := enoent }, none)
  rename d _ _ := ({ d with errno := enoent }, none)
  truncate d _ _ := ({ d with errno := enoent }, none)
  opendir d _ := ({ d with errno := enoent }, none)
  crc32part _ checksum := checksum
  crcRounds := 0

/-- The request to create the directory `/a`, twice, with a `send` after three seconds. -/
def createTwice (seqNumber : UInt16) : Repetition where
  request :=
    { message :=
        { targetSystem := 1
          targetComponent := 1
          payload :=
            { header := { seqNumber, opcode := 9, size := 2 }
              data := fun i => [47, 97].getD i 0 } }
      systemId := 255
      componentId := 190 }
  firstNow := 1000000
  firstAlloc := { workBuffer1 := some [], workBuffer2 := true }
  sends := [{ now := 4000000, freeTxBuf := 1000, uninitialized := fun _ => { header := {} } }]
  secondNow := 5000000
  secondAlloc := { workBuffer1 := some [], workBuffer2 := true }

/-- The Ack of a request without data. -/
def createAck (seqNumber : UInt16) : SentMessage where
  targetNetwork := 0
  targetSystem := 255
  targetComponent := 190
  header := { seqNumber := seqNumber + 1, opcode := kRspAck, reqOpcode := 9 }
  content := []

theorem executed_once_create : (createTwice 1).ExecutedOnce Directories.calls (.init {}) :=
  executed_once_of_recognisable Directories.calls {} [] (createTwice 1) (createAck 1)
    ⟨by decide, by decide, by decide +kernel, by decide, by decide, by decide +kernel⟩
    ⟨by decide, by decide, by decide +kernel, .inl (by decide +kernel)⟩

/-- The sequence number of the reply to request 65535 is 0, for which the server does not look: the
directory is created again, and the client is told that it exists. -/
theorem wrapped_request_executed_twice :
    (createTwice 65535).Admissible Directories.calls (.init {}) (createAck 65535) ∧
      ((createTwice 65535).second Directories.calls (.init {})).2.map (·.header.opcode) =
        some kRspNak ∧
      ¬(createTwice 65535).ExecutedOnce Directories.calls (.init {}) := by
  refine ⟨⟨by decide, by decide, by decide +kernel, by decide, by decide, by decide +kernel⟩,
    by decide +kernel, fun h => ?_⟩
  exact absurd h.reply (by decide +kernel)

end Repetition

end Px4.MavlinkFtp
