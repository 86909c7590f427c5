import Mathlib.Data.Int.Notation
import Mathlib.Data.List.Forall2
import Px4.Common.Run

/-!
# The log over MAVLink

`src/modules/logger/log_writer_mavlink.{h,cpp}` cuts the messages of the log into packets of the
topic `ulog_stream`.
-/

namespace Px4.Logger

open List Prod

/-- `ulog_stream_s`, with the first `length` bytes of the data. -/
structure UlogStream where
  msgSequence : UInt16 := 0
  flags : UInt8 := 0
  firstMessageOffset : UInt8 := 0
  data : List UInt8 := []

def flagsNeedAck : UInt8 := 1

/-- The size of `ulog_stream_s::data`. -/
def dataLen : ℕ := 249

/-- `ACK_TIMEOUT * ACK_MAX_TRIES`, in milliseconds. -/
def timeoutMs : ℕ := 50 * 50

/-- A poll: the acknowledged number, if any, and the milliseconds since the publication. -/
abbrev AckPoll := Option (UInt16 × ℕ)

/-- The loop of `publish_message` that waits for an acknowledgement. -/
def gotAck (msgSequence : UInt16) : List AckPoll → Bool
  | some (ack, elapsed) :: polls =>
    ack = msgSequence || elapsed < timeoutMs && gotAck msgSequence polls
  | _ => false

/-- The members of `LogWriterMavlink`, with the packets that have been published. -/
structure LogWriterMavlink extends ulogStreamData : UlogStream where
  needReliableTransfer : Bool := false
  isStarted : Bool := false
  published : List UlogStream := []

namespace LogWriterMavlink

variable (polls : ℕ → List AckPoll) (w : LogWriterMavlink)

def startLog : LogWriterMavlink :=
  { w with msgSequence := 0, data := [], firstMessageOffset := 0, isStarted := true }

def stopLog : LogWriterMavlink := { w with data := [], isStarted := false }

/-- `publish_message`, until the packet is published. -/
def publish : LogWriterMavlink :=
  let packet := {
    w.ulogStreamData with flags := if w.needReliableTransfer then flagsNeedAck else 0 }
  { w with ulogStreamData := packet, published := w.published ++ [packet] }

/-- `publish_message`. The acknowledgements of every packet are polled for on their own. -/
def publishMessage : LogWriterMavlink × ℤ :=
  if w.needReliableTransfer && !gotAck w.msgSequence (polls w.published.length) then
    (w.publish.stopLog, -2)
  else
    ({ w.publish with
      msgSequence := w.msgSequence + 1, data := [], firstMessageOffset := 255 }, 0)

/-- The loop of `write_message`, which copies at least one byte in every iteration. -/
def writeLoop : ℕ → LogWriterMavlink → List UInt8 → LogWriterMavlink × ℤ
  | 0, w, _ => (w, 0)
  | fuel + 1, w, buf =>
    if buf.length > 0 then
      let sendLen := min (dataLen - w.data.length) buf.length
      let data := w.data ++ buf.take sendLen
      let w := { w with data }
      if data.length ≥ dataLen then
        let r := w.publishMessage polls
        if r.2 ≠ 0 then (r.1, -2) else writeLoop fuel r.1 (buf.drop sendLen)
      else writeLoop fuel w (buf.drop sendLen)
    else (w, 0)

/-- `write_message`, where the message begins. -/
def beginMessage : LogWriterMavlink :=
  if w.firstMessageOffset = 255 then { w with firstMessageOffset := UInt8.ofNat w.data.length }
  else w

def writeMessage (buf : List UInt8) : LogWriterMavlink × ℤ :=
  if w.isStarted then writeLoop polls buf.length w.beginMessage buf else (w, 0)

def setNeedReliableTransfer (needReliable : Bool) : LogWriterMavlink :=
  let w := if !needReliable && w.needReliableTransfer && w.data.length > 0 then
      (w.publishMessage polls).1
    else w
  { w with needReliableTransfer := needReliable }

end LogWriterMavlink

/-- A call between `start_log` and `stop_log`. -/
inductive StreamCall where
  | write (message : List UInt8)
  | reliable (needReliable : Bool)

namespace LogWriterMavlink

variable (polls : ℕ → List AckPoll) (w : LogWriterMavlink)

def step : StreamCall → LogWriterMavlink
  | .write message => (w.writeMessage polls message).1
  | .reliable needReliable => w.setNeedReliableTransfer polls needReliable

/-- Every packet that needs an acknowledgement has got one. -/
def Acknowledged : Prop :=
  ∀ packet ∈ w.published.zipIdx, packet.1.flags = flagsNeedAck →
    gotAck packet.1.msgSequence (polls packet.2) = true
deriving Decidable

end LogWriterMavlink

/-! ## The packets -/

def messages : List StreamCall → List (List UInt8)
  | [] => []
  | .write message :: es => message :: messages es
  | .reliable _ :: es => messages es

/-- Bytes, each with whether a message starts there. -/
abbrev Marked := List (UInt8 × Bool)

/-- The bytes of a message, the first one marked. -/
def mark : List UInt8 → Marked
  | [] => []
  | byte :: bytes => (byte, true) :: bytes.map (·, false)

/-- The offset of the first message that starts in the marked bytes, or 255. -/
def firstStart (bytes : Marked) : UInt8 :=
  (bytes.findIdx? snd).elim 255 UInt8.ofNat

/-- The packet with this number carries the marked bytes. -/
structure Carries (bytes : Marked × ℕ) (packet : UlogStream) : Prop where
  data_eq : packet.data = bytes.1.map fst
  msgSequence_eq : packet.msgSequence = UInt16.ofNat bytes.2
  firstMessageOffset_eq : packet.firstMessageOffset = firstStart bytes.1

theorem map_fst_mark (message) : (mark message).map fst = message := by
  cases message with
  | nil => rfl
  | cons byte bytes => simp [mark, Function.comp_def]

variable {bytes : Marked}

theorem firstStart_of_unmarked (h : ∀ x ∈ bytes, x.2 = false) : firstStart bytes = 255 := by
  rw [firstStart, findIdx?_eq_none_iff.mpr h]
  rfl

namespace LogWriterMavlink

variable {polls : ℕ → List AckPoll} {w : LogWriterMavlink} {chunks : List Marked}
  {rest bytes stream : Marked}

/-- The chunks have been published, and the rest of the marked bytes is in the buffer. -/
structure Packed (w : LogWriterMavlink) (chunks : List Marked) (rest : Marked) : Prop where
  started : w.isStarted = true
  data_eq : w.data = rest.map fst
  msgSequence_eq : w.msgSequence = UInt16.ofNat chunks.length
  packets : Forall₂ Carries chunks.zipIdx w.published

/-- Between calls the packet is not full; the offset is that of its first message, if any. -/
structure Inv (w : LogWriterMavlink) (chunks : List Marked)
    (rest : Marked) : Prop extends w.Packed chunks rest where
  length_lt : rest.length < dataLen
  offset_eq : w.firstMessageOffset = firstStart rest ∨
    rest = [] ∧ w.firstMessageOffset = 0

/-- The packets carry the stream in chunks, in order; the rest is still in the buffer. -/
def Streams (w : LogWriterMavlink) (stream : Marked) : Prop :=
  ∃ chunks rest, chunks.flatten ++ rest = stream ∧ w.Inv chunks rest

/-- The bytes after those that have been published: the offset is that of the first message, if at
least one of them is copied. -/
def Pending (w : LogWriterMavlink) (rest bytes : Marked) : Prop :=
  ∀ n, 0 < n → w.firstMessageOffset = firstStart (rest ++ bytes.take n)

theorem Inv.beginMessage (h : w.Inv chunks rest) (message) (hne : message ≠ []) :
    w.beginMessage.Packed chunks rest ∧ w.beginMessage.Pending rest (mark message) := by
  have hlength : w.data.length = rest.length := by rw [h.data_eq, length_map]
  refine ⟨?_, fun n hn => ?_⟩
  · unfold LogWriterMavlink.beginMessage
    split_ifs
    · exact { h with }
    · exact h.toPacked
  · obtain ⟨byte, message, rfl⟩ := exists_cons_of_ne_nil hne
    obtain ⟨n, rfl⟩ := Nat.exists_eq_add_one.mpr hn
    have hstart : firstStart (rest ++ (mark (byte :: message)).take (n + 1)) =
        UInt8.ofNat ((rest.findIdx? snd).getD rest.length) := by
      rw [firstStart, findIdx?_append, mark, take_succ_cons, findIdx?_cons]
      cases rest.findIdx? snd <;> simp
    rw [hstart]
    unfold LogWriterMavlink.beginMessage
    obtain heq | ⟨rfl, hzero⟩ := h.offset_eq
    · rw [heq, firstStart]
      cases hfind : rest.findIdx? snd with
      | none => simp [hlength]
      | some i =>
        have hi : i < dataLen :=
          Nat.lt_trans (findIdx?_eq_some_iff_getElem.mp hfind).1 h.length_lt
        have hne : UInt8.ofNat i ≠ 255 := by
          intro heq
          have := congrArg UInt8.toNat heq
          rw [UInt8.toNat_ofNat', Nat.mod_eq_of_lt (Nat.lt_trans hi (by decide))] at this
          exact absurd (this ▸ hi) (by decide)
        simp [hne, heq, firstStart, hfind]
    · rw [hzero]
      simpa using hzero

theorem publishMessage_of_acknowledged (h : (w.publishMessage polls).1.Acknowledged polls) :
    (w.publishMessage polls).2 = 0 := by
  unfold publishMessage at h ⊢
  split_ifs at h ⊢ with hwait
  · rw [Bool.and_eq_true, Bool.not_eq_true'] at hwait
    have hmem : (w.publish.ulogStreamData, w.published.length) ∈ w.publish.published.zipIdx := by
      simp [publish, zipIdx_append]
    exact absurd (h _ hmem (if_pos hwait.1)) (Bool.eq_false_iff.mp hwait.2)
  · rfl

theorem Packed.publishMessage (h : w.Packed chunks rest)
    (hoffset : w.firstMessageOffset = firstStart rest) (hok : (w.publishMessage polls).2 = 0) :
    (w.publishMessage polls).1.Packed (chunks ++ [rest]) [] ∧
      (w.publishMessage polls).1.firstMessageOffset = 255 := by
  unfold LogWriterMavlink.publishMessage at hok ⊢
  split_ifs at hok ⊢
  · cases hok
  · refine ⟨⟨h.started, rfl, ?_, ?_⟩, rfl⟩
    · simp [h.msgSequence_eq]
    · rw [zipIdx_append]
      exact rel_append h.packets (.cons ⟨h.data_eq, by simpa using h.msgSequence_eq, hoffset⟩ .nil)

theorem Packed.done (h : w.Packed chunks rest) (hlt : rest.length < dataLen)
    (hpending : w.Pending rest []) : w.Inv chunks rest := by
  have hoffset := hpending 1 Nat.one_pos
  rw [take_nil, append_nil] at hoffset
  exact ⟨h, hlt, .inl hoffset⟩

variable {fuel : ℕ}

theorem writeLoop_nil : w.writeLoop polls fuel [] = (w, 0) := by
  cases fuel <;> rfl

/-- The loop copies the rest of a message, of which nothing starts in a later packet. -/
theorem Packed.writeLoop (h : w.Packed chunks rest) (hlt : rest.length < dataLen)
    (hpending : w.Pending rest bytes) (htail : ∀ x ∈ bytes.drop 1, x.2 = false)
    (hfuel : bytes.length ≤ fuel)
    (hacks : (w.writeLoop polls fuel (bytes.map fst)).1.Acknowledged polls) :
    (w.writeLoop polls fuel (bytes.map fst)).1.Streams (chunks.flatten ++ rest ++ bytes) := by
  induction fuel generalizing w chunks rest bytes with
  | zero =>
    obtain rfl := length_eq_zero_iff.mp (Nat.le_zero.mp hfuel)
    exact ⟨chunks, rest, (append_nil _).symm, h.done hlt hpending⟩
  | succ fuel ih =>
    obtain ⟨n, hn⟩ : ∃ n, n = min (dataLen - rest.length) bytes.length := ⟨_, rfl⟩
    have hdata : w.data.length = rest.length := by rw [h.data_eq, length_map]
    rcases Nat.eq_zero_or_pos bytes.length with hzero | hpos
    · obtain rfl := length_eq_zero_iff.mp hzero
      exact ⟨chunks, rest, (append_nil _).symm, h.done hlt hpending⟩
    have hcopied : Packed { w with data := w.data ++ (bytes.map fst).take n } chunks
        (rest ++ bytes.take n) :=
      { h with data_eq := by rw [h.data_eq, map_append, map_take] }
    have hoffset := hpending n (by omega)
    rw [LogWriterMavlink.writeLoop, length_map, if_pos hpos] at hacks ⊢
    dsimp only at hacks ⊢
    rw [hdata, ← hn, ← map_drop] at hacks ⊢
    split_ifs at hacks ⊢ with hfull hfailed
    · exact absurd (publishMessage_of_acknowledged hacks) hfailed
    · obtain ⟨hnext, hset⟩ := hcopied.publishMessage hoffset (not_not.mp hfailed)
      have hrest : ∀ x ∈ bytes.drop n, x.2 = false := fun x hx =>
        htail x ((drop_sublist_drop_left _ (by omega)).subset hx)
      have hunmarked (k : ℕ) : firstStart ((bytes.drop n).take k) = 255 :=
        firstStart_of_unmarked fun x hx => hrest x (mem_of_mem_take hx)
      have hstreams := ih hnext (by decide) (fun k _ => hset.trans (hunmarked k).symm)
        (fun x hx => hrest x (mem_of_mem_drop hx)) (by rw [length_drop]; omega) hacks
      simpa using hstreams
    · have hlength : rest.length + n < dataLen := by
        simpa [h.data_eq, hn] using hfull
      obtain rfl : n = bytes.length := by omega
      rw [drop_length, map_nil, writeLoop_nil]
      rw [take_length] at hcopied hoffset
      refine ⟨chunks, rest ++ bytes, (append_assoc ..).symm, hcopied, ?_, .inl hoffset⟩
      rwa [length_append]

section

variable (h : w.Streams stream)
include h

variable {message : List UInt8} {needReliable : Bool} {es : List StreamCall}

theorem Streams.write (hne : message ≠ [])
    (hacks : (w.writeMessage polls message).1.Acknowledged polls) :
    (w.writeMessage polls message).1.Streams (stream ++ mark message) := by
  obtain ⟨chunks, rest, rfl, h⟩ := h
  obtain ⟨hpacked, hpending⟩ := h.beginMessage message hne
  have htail : ∀ x ∈ (mark message).drop 1, x.2 = false := by
    cases message <;> simp [mark]
  have hlength := congrArg length (map_fst_mark message)
  rw [length_map] at hlength
  rw [writeMessage, if_pos h.started] at hacks ⊢
  have hloop :=
    @Packed.writeLoop polls _ _ _ _ _ hpacked h.length_lt hpending htail (Nat.le_of_eq hlength)
  rw [map_fst_mark] at hloop
  exact hloop hacks

theorem Streams.reliable
    (hacks : (w.setNeedReliableTransfer polls needReliable).Acknowledged polls) :
    (w.setNeedReliableTransfer polls needReliable).Streams stream := by
  obtain ⟨chunks, rest, rfl, h⟩ := h
  unfold setNeedReliableTransfer at hacks ⊢
  split_ifs at hacks ⊢ with hflush
  · have hne : rest ≠ [] := by
      rintro rfl
      simp [h.data_eq] at hflush
    have hoffset := h.offset_eq.resolve_right fun hempty => hne hempty.1
    obtain ⟨hnext, hset⟩ := h.publishMessage hoffset (publishMessage_of_acknowledged hacks)
    refine ⟨chunks ++ [rest], [], by simp, ?_, by decide, .inl hset⟩
    exact { hnext with }
  · refine ⟨chunks, rest, rfl, ?_, h.length_lt, h.offset_eq⟩
    exact { h with }

theorem Streams.after (hsize : ∀ message ∈ messages es, message ≠ [])
    (hacks : Run.Along (step polls) (fun w e => (w.step polls e).Acknowledged polls) w es) :
    (Run.after (step polls) w es).Streams (stream ++ (messages es).flatMap mark) := by
  induction es generalizing w stream with
  | nil => rwa [messages, flatMap_nil, append_nil]
  | cons e es ih =>
    cases e with
    | write message =>
      rw [messages, forall_mem_cons] at hsize
      rw [messages, flatMap_cons, ← append_assoc]
      exact ih (h.write hsize.1 hacks.1) hsize.2 hacks.2
    | reliable needReliable => exact ih (h.reliable hacks.1) hsize hacks.2

end

/-- **The log over MAVLink can be reassembled**, if the acknowledgements that are needed arrive. -/
theorem stream_reassembled (polls : ℕ → List AckPoll) (w : LogWriterMavlink)
    {es : List StreamCall} (hsize : ∀ message ∈ messages es, message ≠ [])
    (hacks : Run.Along (step polls) (fun w e => (w.step polls e).Acknowledged polls)
      { w with published := [] }.startLog es) :
    (Run.after (step polls) { w with published := [] }.startLog es).Streams
      ((messages es).flatMap mark) := by
  have hinit : Streams { w with published := [] }.startLog [] :=
    ⟨[], [], rfl, ⟨rfl, rfl, rfl, .nil⟩, by decide, .inr ⟨rfl, rfl⟩⟩
  exact hinit.after hsize hacks

/-- A flush between two messages. -/
def flushed : List StreamCall := [.reliable true, .write [1, 2], .reliable false, .write [3]]

theorem stream_reassembled_flushed :
    (Run.after (step fun k => [some (UInt16.ofNat k, 0)]) (startLog {}) flushed).Streams
      [(1, true), (2, false), (3, true)] :=
  stream_reassembled _ {} (by decide) (by decide)

end LogWriterMavlink

end Px4.Logger
