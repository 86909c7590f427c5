import Px4.Common.Run
import Px4.Gnss.CorrectionFramer

/-!
# Reassembly of fragmented corrections

`GpsRtcmMessageAssembler` of `src/lib/gnss/rtcm.cpp`. Only as many bytes of a slot or of a message
are read as its length says; so a slot is `none` or holds its bytes, and a message is its bytes, as
they are when a call returns. A `last_fragment_id` of `-1` is `none`.
-/

namespace Px4.Gnss

def gpsRtcmMaxFragmentLen : ℕ := 180

def gpsRtcmMaxFragments : ℕ := 4

def gpsRtcmMaxMessageLen : ℕ := gpsRtcmMaxFragmentLen * gpsRtcmMaxFragments

def gpsRtcmFragmentTimeoutUs : UInt64 := 1000000

def gpsRtcmIsFragmented (flags : UInt8) : Bool := flags &&& 0x01 ≠ 0

def gpsRtcmFragmentId (flags : UInt8) : UInt8 := (flags >>> 1) &&& 0x03

def gpsRtcmSequenceId (flags : UInt8) : UInt8 := (flags >>> 3) &&& 0x1F

structure SequenceState where
  sequenceId : UInt8 := 0
  lastFragmentId : Option ℕ := none
  timestamp : UInt64 := 0
  active : Bool := false

structure GpsRtcmMessageAssembler where
  fragments : ℕ → Option Bytes := fun _ => none
  activeSequence : SequenceState := {}
  deferredMessage : Option Bytes := none

namespace GpsRtcmMessageAssembler

variable (a : GpsRtcmMessageAssembler)

def resetActiveState : GpsRtcmMessageAssembler := { deferredMessage := a.deferredMessage }

def reset : GpsRtcmMessageAssembler := { a.resetActiveState with deferredMessage := none }

def hasFragmentAfter (fragmentId : ℕ) : Bool :=
  (List.range gpsRtcmMaxFragments).any fun i => fragmentId < i && (a.fragments i).isSome

/-- The bytes of the first slots, one behind the other. -/
def assemble (count : ℕ) : Bytes :=
  (List.range count).flatMap fun i => (a.fragments i).getD []

/-- How many slots from the first one on are full. -/
def fullFragments : ℕ :=
  ((List.range gpsRtcmMaxFragments).takeWhile fun i =>
    (a.fragments i).any (·.length = gpsRtcmMaxFragmentLen)).length

def assembleLegacyExactMultipleMessage : Option Bytes :=
  if a.fullFragments = 0 || a.hasFragmentAfter (a.fullFragments - 1) then none
  else some (a.assemble a.fullFragments)

def lastFragmentIndex : ℕ :=
  a.activeSequence.lastFragmentId.getD (gpsRtcmMaxFragments - 1)

def isComplete : Bool :=
  (List.range (a.lastFragmentIndex + 1)).all fun i => (a.fragments i).isSome

/-- The check for a timeout at the beginning of `addPacket`. -/
def dropStale (timestamp : UInt64) : GpsRtcmMessageAssembler :=
  if a.activeSequence.active ∧ a.activeSequence.timestamp ≠ 0 ∧
      timestamp > a.activeSequence.timestamp + gpsRtcmFragmentTimeoutUs then
    a.resetActiveState
  else a

def addUnfragmented (data : Bytes) : GpsRtcmMessageAssembler × Option Bytes :=
  let legacyMessage := a.assembleLegacyExactMultipleMessage
  if data.length > gpsRtcmMaxMessageLen then (a.reset, legacyMessage)
  else if legacyMessage.isSome then
    ({ a.resetActiveState with deferredMessage := some data }, legacyMessage)
  else (a.reset, some data)

/-- A buffer without fragments for a sequence. -/
def opened (sequenceId : UInt8) (deferred : Option Bytes) : GpsRtcmMessageAssembler where
  activeSequence := { sequenceId, active := true }
  deferredMessage := deferred

/-- The change of the sequence, with the message that it flushes. -/
def changeSequence (sequenceId : UInt8) : GpsRtcmMessageAssembler × Option Bytes :=
  if !a.activeSequence.active || sequenceId ≠ a.activeSequence.sequenceId then
    (opened sequenceId a.deferredMessage,
      if a.activeSequence.active then a.assembleLegacyExactMultipleMessage else none)
  else (a, none)

/-- The three checks of a fragment against the end of the message, as far as it is known. -/
def contradicts (fragmentId : ℕ) (data : Bytes) : Bool :=
  let isNonFullFragment := data.length < gpsRtcmMaxFragmentLen
  a.activeSequence.lastFragmentId.any (fun last => fragmentId > last) ||
  a.activeSequence.lastFragmentId.any (fun last => fragmentId < last && isNonFullFragment) ||
  (isNonFullFragment && a.hasFragmentAfter fragmentId)

/-- A slot that is used again with other bytes begins the buffer anew. -/
def dropDifferent (fragmentId : ℕ) (data : Bytes) : GpsRtcmMessageAssembler :=
  if (a.fragments fragmentId).any (· ≠ data) then
    opened a.activeSequence.sequenceId a.deferredMessage
  else a

def storeFragment (fragmentId : ℕ) (data : Bytes) (timestamp : UInt64) :
    GpsRtcmMessageAssembler where
  fragments := Function.update a.fragments fragmentId (some data)
  activeSequence := { a.activeSequence with
    timestamp := timestamp
    lastFragmentId :=
      if data.length < gpsRtcmMaxFragmentLen ∨ fragmentId = gpsRtcmMaxFragments - 1 then
        some fragmentId
      else a.activeSequence.lastFragmentId }
  deferredMessage := a.deferredMessage

/-- A fragment of the active sequence in `addPacket`, with the message that it completes. -/
def bufferFragment (fragmentId : ℕ) (data : Bytes) (timestamp : UInt64) :
    GpsRtcmMessageAssembler × Option Bytes :=
  if a.contradicts fragmentId data then (a.resetActiveState, none)
  else
    let stored := (a.dropDifferent fragmentId data).storeFragment fragmentId data timestamp
    if stored.isComplete then
      (stored.resetActiveState, some (stored.assemble (stored.lastFragmentIndex + 1)))
    else (stored, none)

/-- The message of the sequence before goes first, and the one of this sequence is deferred. -/
def returnInOrder (sequenceChangeMessage message : Option Bytes) :
    GpsRtcmMessageAssembler × Option Bytes :=
  if sequenceChangeMessage.isSome && message.isSome then
    ({ a with deferredMessage := message }, sequenceChangeMessage)
  else (a, sequenceChangeMessage.or message)

def addFragment (flags : UInt8) (data : Bytes) (timestamp : UInt64) :
    GpsRtcmMessageAssembler × Option Bytes :=
  if data.length > gpsRtcmMaxFragmentLen then (a.resetActiveState, none)
  else
    let (opened, sequenceChangeMessage) := a.changeSequence (gpsRtcmSequenceId flags)
    let (buffered, message) :=
      opened.bufferFragment (gpsRtcmFragmentId flags).toNat data timestamp
    buffered.returnInOrder sequenceChangeMessage message

/-- The packet's data is `none` for a null pointer. -/
def addPacket (flags : UInt8) (data : Option Bytes) (timestamp : UInt64) :
    GpsRtcmMessageAssembler × Option Bytes :=
  match data with
  | none => (a.reset, none)
  | some data =>
    if gpsRtcmIsFragmented flags then (a.dropStale timestamp).addFragment flags data timestamp
    else (a.dropStale timestamp).addUnfragmented data

def takeDeferredMessage : GpsRtcmMessageAssembler × Option Bytes :=
  ({ a with deferredMessage := none }, a.deferredMessage)

end GpsRtcmMessageAssembler

end Px4.Gnss
