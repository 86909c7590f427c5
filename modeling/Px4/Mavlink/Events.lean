import Px4.Common.RecentRing
import Px4.Common.Run

/-!
# Buffered events

`EventBuffer` and `SendProtocol` of `src/modules/mavlink/mavlink_events.cpp`. The buffer is filled
by one thread and read by the threads of the mavlink instances, each method under its lock: other
threads run before each round of the loop of `update`. The space in the buffer of the link is read
anew each time.

An `int` is a natural number, which is right for capacities up to `2 ^ 30`.
-/

namespace Px4.Mavlink

open RecentRing

def initialEventSequence : UInt16 := 65535 - 10

/-- `MAVLINK_NUM_NON_PAYLOAD_BYTES`, with the lengths of the two messages. -/
def numNonPayloadBytes : ℕ := 12
def eventLen : ℕ := 53
def currentEventSequenceLen : ℕ := 3

/-- `current_sequence_interval`, in microseconds. -/
def currentSequenceInterval : UInt64 := 3000000

structure Event where
  timestampMs : UInt32 := 0
  id : UInt32 := 0
  sequence : UInt16
  logLevels : UInt8 := 0
  arguments : Vector UInt8 25 := Vector.replicate 25 0
deriving DecidableEq

/-! ## The buffer -/

/-- `EventBuffer` after `init`; the capacity is an argument of the functions. -/
structure EventBuffer where
  latestSequence : UInt16 := initialEventSequence
  events : ℕ → Event
  next : ℕ := 0
  size : ℕ := 0

namespace EventBuffer

def insertEvent (capacity : ℕ) (b : EventBuffer) (event : Event) : EventBuffer where
  latestSequence := event.sequence
  events := Function.update b.events b.next event
  next := (b.next + 1) % capacity
  size := if b.size < capacity then b.size + 1 else b.size

/-- A round of `get_oldest_sequence_after`, with `min_diff` and `sequence_ret`. -/
def closer (sequence : UInt16) (best : UInt16 × UInt16) (eventSeq : UInt16) : UInt16 × UInt16 :=
  let diff := eventSeq - sequence
  if eventSeq ≠ sequence ∧ diff < best.1 then (diff, eventSeq) else best

def getOldestSequenceAfter (b : EventBuffer) (sequence : UInt16) : UInt16 :=
  (((List.range b.size).map fun i => (b.events i).sequence).foldl (closer sequence)
    (65535, b.latestSequence)).2

/-- The events in the order in which `get_event` looks at them. -/
def visited (b : EventBuffer) : List Event :=
  (List.range b.size).map fun count => b.events ((b.next + b.size - 1 - count) % b.size)

/-- `get_event`, with the event if it returns `true`. -/
def getEvent (b : EventBuffer) (sequence : UInt16) : Option Event :=
  b.visited.find? fun e => e.sequence = sequence

end EventBuffer

/-! ## The protocol -/

structure SendProtocol where
  latestSequence : UInt16
  lastCurrentSequenceSent : UInt64 := 0
  firstEvent : Bool := true

def SendProtocol.create (b : EventBuffer) : SendProtocol where
  latestSequence := b.latestSequence

/-- What is sent over the link; the target of an error is the sender of the request. -/
inductive EventMessage where
  | event (e : Event)
  | currentSequence (sequence : UInt16) (reset : Bool)
  | eventError (targetSystem targetComponent : UInt8) (sequence sequenceOldestAvailable : UInt16)

/-- The link: `get_free_tx_buf`, and whether the mode is `MAVLINK_MODE_IRIDIUM`. -/
structure Link where
  freeTxBuf : ℕ
  iridium : Bool := false

def sendEvent (link : Link) (e : Event) : List EventMessage :=
  if link.iridium then [] else [.event e]

def SendProtocol.sendCurrentSequence (p : SendProtocol) (b : EventBuffer) (now : UInt64)
    (forceReset : Bool) (link : Link) : SendProtocol × List EventMessage :=
  if link.freeTxBuf < currentEventSequenceLen + numNonPayloadBytes ∨ link.iridium then (p, [])
  else
    ({ p with lastCurrentSequenceSent := now },
      [.currentSequence b.latestSequence (b.size = 0 || forceReset)])

variable {b : EventBuffer} {now : UInt64} {forceReset : Bool} {link : Link}

@[simp]
theorem SendProtocol.sendCurrentSequence_latestSequence (p : SendProtocol) :
    (p.sendCurrentSequence b now forceReset link).1.latestSequence = p.latestSequence := by
  unfold sendCurrentSequence
  split_ifs <;> rfl

@[simp]
theorem SendProtocol.sendCurrentSequence_firstEvent (p : SendProtocol) :
    (p.sendCurrentSequence b now forceReset link).1.firstEvent = p.firstEvent := by
  unfold sendCurrentSequence
  split_ifs <;> rfl

/-- The loop of `handle_request_event` from `sequence` on, for that many rounds. -/
def requestedEvents (b : EventBuffer) (targetSystem targetComponent : UInt8) (link : Link) :
    UInt16 → ℕ → List EventMessage
  | _, 0 => []
  | sequence, rounds + 1 =>
    (match b.getEvent sequence with
      | some e => sendEvent link e
      | none => [.eventError targetSystem targetComponent sequence
          (b.getOldestSequenceAfter sequence)]) ++
      requestedEvents b targetSystem targetComponent link (sequence + 1) rounds

/-- `handle_request_event`: from the first sequence to the one before `end_sequence`. -/
def handleRequestEvent (b : EventBuffer) (sysid compid : UInt8) (link : Link)
    (firstSequence lastSequence : UInt16) : List EventMessage :=
  requestedEvents b sysid compid link firstSequence (lastSequence + 1 - firstSequence).toNat

/-! ## The threads -/

/-- The buffer, a protocol, and where its `update` is: in the loop, with `now` and
`buffer_sequence`. -/
structure EventSystem where
  buffer : EventBuffer
  protocol : SendProtocol
  running : Option (UInt64 × UInt16) := none

namespace EventSystem

variable (s : EventSystem)

/-- The beginning of `update`. -/
def enter (now : UInt64) (link : Link) : EventSystem × List EventMessage :=
  match s.running with
  | some _ => (s, [])
  | none =>
    let bufferSequence := s.buffer.latestSequence
    if s.protocol.firstEvent ∧ bufferSequence ≠ s.protocol.latestSequence then
      let sent := { s.protocol with
        latestSequence := bufferSequence - 1
        firstEvent := false }.sendCurrentSequence s.buffer now true link
      ({ s with protocol := sent.1, running := some (now, bufferSequence) }, sent.2)
    else ({ s with running := some (now, bufferSequence) }, [])

/-- Whether the loop takes another round. -/
def takesRound (link : Link) : Bool :=
  match s.running with
  | some (_, bufferSequence) =>
    s.protocol.latestSequence ≠ bufferSequence ∧ link.freeTxBuf ≥ eventLen + numNonPayloadBytes
  | none => false

/-- A round of the loop, with the event passed to `send_event`, if `get_event` finds it. -/
def round : EventSystem × Option Event :=
  let latestSequence := s.protocol.latestSequence + 1
  ({ s with protocol := { s.protocol with latestSequence } },
    s.buffer.getEvent latestSequence)

/-- The end of `update`. -/
def leave (link : Link) : EventSystem × List EventMessage :=
  match s.running with
  | some (now, _) =>
    if now - s.protocol.lastCurrentSequenceSent > currentSequenceInterval then
      let sent := s.protocol.sendCurrentSequence s.buffer now false link
      ({ s with protocol := sent.1, running := none }, sent.2)
    else ({ s with running := none }, [])
  | none => (s, [])

section Update

variable {s : EventSystem} (now : UInt64) (link : Link)

theorem enter_of_running (hrunning : s.running ≠ none) : s.enter now link = (s, []) := by
  obtain ⟨r, hr⟩ := Option.ne_none_iff_exists'.mp hrunning
  simp [enter, hr]

theorem enter_of_first (hrunning : s.running = none) (hfirst : s.protocol.firstEvent)
    (hne : s.buffer.latestSequence ≠ s.protocol.latestSequence) :
    let r := (s.enter now link).1
    r.buffer = s.buffer ∧ r.protocol.latestSequence = s.buffer.latestSequence - 1 ∧
      r.protocol.firstEvent = false ∧ r.running = some (now, s.buffer.latestSequence) := by
  simp [enter, hrunning, hfirst, hne]

theorem enter_of_not_first (hrunning : s.running = none)
    (h : ¬(s.protocol.firstEvent ∧ s.buffer.latestSequence ≠ s.protocol.latestSequence)) :
    s.enter now link = ({ s with running := some (now, s.buffer.latestSequence) }, []) := by
  simp [enter, hrunning, if_neg h]

variable {link} in
theorem takesRound_iff : s.takesRound link ↔
    ∃ r, s.running = some r ∧ s.protocol.latestSequence ≠ r.2 ∧
      eventLen + numNonPayloadBytes ≤ link.freeTxBuf := by
  unfold takesRound
  cases s.running <;> simp

variable (s) in
theorem leave_frame : (s.leave link).1.buffer = s.buffer ∧
    (s.leave link).1.protocol.latestSequence = s.protocol.latestSequence ∧
    (s.leave link).1.protocol.firstEvent = s.protocol.firstEvent ∧
    (s.leave link).1.running = none := by
  unfold leave
  rcases hrunning : s.running with _ | ⟨now, bufferSequence⟩
  · exact ⟨rfl, rfl, rfl, hrunning⟩
  · dsimp only
    split_ifs <;> simp

end Update

/-- What a thread does next; the second link of `iterate` is that of the end of `update`. -/
inductive Action where
  | insertEvent (event : Event)
  | enter (now : UInt64) (link : Link)
  | iterate (link atEnd : Link)
  | handleRequestEvent (sysid compid : UInt8) (link : Link) (firstSequence lastSequence : UInt16)
  | onGcsConnected (now : UInt64) (link : Link)

def step (capacity : ℕ) : Action → EventSystem × List EventMessage
  | .insertEvent event => ({ s with buffer := s.buffer.insertEvent capacity event }, [])
  | .enter now link => s.enter now link
  | .iterate link atEnd =>
    if s.takesRound link then (s.round.1, s.round.2.toList.flatMap (sendEvent link))
    else s.leave atEnd
  | .handleRequestEvent sysid compid link firstSequence lastSequence =>
    (s, Mavlink.handleRequestEvent s.buffer sysid compid link firstSequence lastSequence)
  | .onGcsConnected now link =>
    let sent := s.protocol.sendCurrentSequence s.buffer now false link
    ({ s with protocol := sent.1 }, sent.2)

end EventSystem

/-! ## What the buffer holds -/

/-- The buffer holds these events, the newest one first. -/
structure EventBuffer.Represents (capacity : ℕ) (b : EventBuffer) (stored : List Event) : Prop where
  next_lt : b.next < capacity
  size_eq : b.size = stored.length
  /-- The slots behind `_next` are used only after those before it. -/
  next_eq : b.size < capacity → b.next = b.size
  holds : RecentRing.Holds capacity b.events (RecentRing.prev capacity b.next) stored
  latest : ∀ e ∈ stored.head?, b.latestSequence = e.sequence

namespace EventBuffer.Represents

variable {capacity : ℕ} {b : EventBuffer} {stored : List Event}

theorem nil (hcapacity : 1 ≤ capacity) (events) : Represents capacity { events } [] :=
  ⟨hcapacity, rfl, fun _ => rfl, holds_nil _ _ _, nofun⟩

variable (h : b.Represents capacity stored)
include h

theorem insertEvent (event) :
    (b.insertEvent capacity event).Represents capacity ((event :: stored).take capacity) := by
  have hlt := h.next_lt
  have hle := h.holds.length_le
  have hsize := h.size_eq
  have hpos := Nat.zero_lt_of_lt hlt
  have hnext : (b.next + 1) % capacity = RecentRing.next capacity b.next := by
    unfold RecentRing.next
    split_ifs with hend
    · obtain heq : b.next + 1 = capacity := by omega
      rw [heq, Nat.mod_self]
    · exact Nat.mod_eq_of_lt (by omega)
  refine ⟨Nat.mod_lt _ hpos, ?_, ?_, ?_, ?_⟩
  · simp only [EventBuffer.insertEvent, List.length_take, List.length_cons]
    split_ifs <;> omega
  · simp only [EventBuffer.insertEvent]
    intro hnotfull
    split_ifs at hnotfull ⊢
    · rw [h.next_eq (by omega)]
      exact Nat.mod_eq_of_lt hnotfull
    · omega
  · have hpush := h.holds.push (prev_lt hlt) event
    rw [next_prev hlt] at hpush
    simpa only [EventBuffer.insertEvent, hnext, prev_next hlt] using hpush
  · intro e he
    obtain ⟨n, rfl⟩ := Nat.exists_eq_add_one_of_ne_zero hpos.ne'
    rw [List.take_succ_cons, List.head?_cons, Option.mem_some_iff] at he
    rw [← he]
    rfl

/-- `get_event` looks at the events from the newest one to the oldest one. -/
theorem visited_eq : b.visited = stored := by
  have hlt := h.next_lt
  have hle := h.holds.length_le
  have hsize := h.size_eq
  rw [EventBuffer.visited, hsize]
  conv_rhs => rw [← h.holds.map_range]
  refine List.map_congr_left fun count hcount => congrArg b.events ?_
  rw [List.mem_range] at hcount
  -- The modulo is one of the size, which is the capacity once the slots have been used.
  have hnext : b.next = stored.length ∨ stored.length = capacity := by
    rcases Nat.lt_or_ge b.size capacity with hnotfull | hfull
    · exact .inl (hsize ▸ h.next_eq hnotfull)
    · omega
  rcases Nat.lt_or_ge (b.next + stored.length - 1 - count) stored.length with hsmall | hlarge
  · rw [Nat.mod_eq_of_lt hsmall]
    unfold RecentRing.prev RecentRing.back
    split_ifs <;> omega
  · rw [Nat.mod_eq_sub_mod hlarge, Nat.mod_eq_of_lt (by omega)]
    unfold RecentRing.prev RecentRing.back
    split_ifs <;> omega

theorem getEvent_eq (sequence) :
    b.getEvent sequence = stored.find? fun e => e.sequence = sequence := by
  rw [EventBuffer.getEvent, h.visited_eq]

end EventBuffer.Represents

end Px4.Mavlink
