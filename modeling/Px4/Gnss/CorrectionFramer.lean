import Mathlib.Logic.Function.Iterate
import Mathlib.Tactic.Common

/-!
# The framer of GNSS corrections

`src/lib/gnss/correction_framer.cpp`, with the parts of `rtcm.{cpp,h}` and `spartn.{cpp,h}` that it
uses. The parameter `spartn` says whether the build has `CONFIG_GPS_SPARTN`. Of the buffer, the
model has the bytes that are in use.
-/

namespace Px4.Gnss

variable (buffer : Bytes)

open List

abbrev Bytes := List UInt8

/-- `_buffer[i]`. -/
def byteAt (i : ℕ) : UInt8 := buffer.getD i 0

/-! ## RTCM3 -/

def rtcm3Preamble : UInt8 := 0xD3

def rtcm3HeaderLen : ℕ := 3

def rtcm3CrcLen : ℕ := 3

def rtcm3MaxPayloadLen : ℕ := 1023

def rtcm3MaxFrameLen : ℕ := rtcm3HeaderLen + rtcm3MaxPayloadLen + rtcm3CrcLen

def rtcm3Crc24qPoly : UInt32 := 0x1864CFB

/-- One round of the inner loop of `rtcm3_crc24q`. -/
def rtcm3CrcBit (crc : UInt32) : UInt32 :=
  if (crc <<< 1) &&& 0x1000000 ≠ 0 then (crc <<< 1) ^^^ rtcm3Crc24qPoly else crc <<< 1

def rtcm3Crc24q (data : Bytes) : UInt32 :=
  let round (crc : UInt32) (byte : UInt8) : UInt32 := rtcm3CrcBit^[8] (crc ^^^ byte.toUInt32 <<< 16)
  data.foldl round 0 &&& 0xFFFFFF

def rtcm3PayloadLength (frame : Bytes) : ℕ :=
  (((byteAt frame 1).toNat &&& 0x03) <<< 8) ||| (byteAt frame 2).toNat

/-! ## SPARTN -/

def spartnPreamble : UInt8 := 0x73

def spartnFrameStartLen : ℕ := 4

def spartnMaxPayloadLen : ℕ := 1023

def spartnMaxAuthLen : ℕ := 64

def spartnMaxDescLen : ℕ := 8

def spartnMaxCrcLen : ℕ := 4

def spartnMaxFrameLen : ℕ :=
  spartnFrameStartLen + spartnMaxDescLen + spartnMaxPayloadLen + spartnMaxAuthLen + spartnMaxCrcLen

def spartnMessageTypeDefined (messageType : UInt8) : Bool := messageType ≤ 4 || messageType ≥ 120

def spartnAuthLengthBytes (eaf : Bool) (authInd embAuthLen : UInt8) : ℕ :=
  if !eaf || authInd ≤ 1 then 0
  else if embAuthLen < 5 then [8, 12, 16, 32, 64].getD embAuthLen.toNat 0 else 64

def spartnDescLengthBytes (eaf timeTag32bit : Bool) : ℕ :=
  (if timeTag32bit then 6 else 4) + (if eaf then 2 else 0)

/-- The polynomial of a CRC type. -/
def spartnCrcPoly (crcType : UInt8) : UInt64 :=
  if crcType = 0 then 0x07
  else if crcType = 1 then 0x1021
  else if crcType = 2 then 0x864CFB
  else 0x04C11DB7

/-- One round of the inner loop of `spartn_message_crc`. -/
def spartnCrcBit (top g crc : UInt64) : UInt64 :=
  if (crc <<< 1) &&& top ≠ 0 then (crc <<< 1) ^^^ g else crc <<< 1

def spartnMessageCrc (data : Bytes) (crcType : UInt8) : UInt32 :=
  let n : UInt64 := 8 * (crcType.toUInt64 + 1)
  let top : UInt64 := 1 <<< n
  let start : UInt64 := if crcType = 3 then 0xFFFFFFFF else 0
  let round (crc : UInt64) (byte : UInt8) : UInt64 :=
    (spartnCrcBit top (top ||| spartnCrcPoly crcType))^[8] (crc ^^^ byte.toUInt64 <<< (n - 8))
  let crc := data.foldl round start
  ((if crcType = 3 then crc ^^^ 0xFFFFFFFF else crc) &&& (top - 1)).toUInt32

/-! ## Probes -/

inductive CorrectionProtocol where
  | rtcm3
  | spartn
deriving DecidableEq

/-- `Probe`, with the length of a complete frame. -/
inductive Probe where
  | needMoreData
  | invalidHeader
  | crcError
  | complete (frameLen : ℕ)

def isPreamble (spartn : Bool) (byte : UInt8) : Bool :=
  byte = rtcm3Preamble || spartn && byte = spartnPreamble

/-- Bytes as a number, the highest one first. -/
def receivedCrc (bytes : Bytes) : UInt32 :=
  bytes.foldl (fun crc byte => (crc <<< 8) ||| byte.toUInt32) 0

def probeRtcm3 : Probe :=
  if buffer.length < rtcm3HeaderLen then .needMoreData
  else
    let payloadLen := rtcm3PayloadLength buffer
    let len := rtcm3HeaderLen + payloadLen + rtcm3CrcLen
    if buffer.length < len then .needMoreData
    else
      let calculated := rtcm3Crc24q (buffer.take (rtcm3HeaderLen + payloadLen))
      let received := ((byteAt buffer (len - 3)).toUInt32 <<< 16) |||
        ((byteAt buffer (len - 2)).toUInt32 <<< 8) ||| (byteAt buffer (len - 1)).toUInt32
      if calculated ≠ received then .crcError else .complete len

/-- TF003, over three bytes. -/
def spartnPayloadLen : ℕ :=
  (((byteAt buffer 1).toNat &&& 0x01) <<< 9) ||| ((byteAt buffer 2).toNat <<< 1) |||
    ((byteAt buffer 3).toNat >>> 7)

/-- TF004. -/
def spartnEaf : Bool := (byteAt buffer 3 >>> 6) &&& 0x01 ≠ 0

/-- TF005. -/
def spartnCrcType : UInt8 := (byteAt buffer 3 >>> 4) &&& 0x03

def spartnCrcBytes : ℕ := (spartnCrcType buffer).toNat + 1

/-- The length of the description block, from TF004 and TF008. -/
def spartnDescLen : ℕ :=
  spartnDescLengthBytes (spartnEaf buffer) ((byteAt buffer 4 >>> 3) &&& 0x01 ≠ 0)

/-- The length of TF017; TF014 and TF015 are in the last byte of the description block. -/
def spartnAuthBytes : ℕ :=
  if spartnEaf buffer then
    let last := byteAt buffer (spartnFrameStartLen + spartnDescLen buffer - 1)
    spartnAuthLengthBytes true ((last >>> 3) &&& 0x07) (last &&& 0x07)
  else 0

/-- The length of the frame that the header announces. -/
def spartnLen : ℕ :=
  spartnFrameStartLen + spartnDescLen buffer + spartnPayloadLen buffer + spartnAuthBytes buffer +
    spartnCrcBytes buffer

def probeSpartn : Probe :=
  if buffer.length < spartnFrameStartLen then .needMoreData
  else if !spartnMessageTypeDefined (byteAt buffer 1 >>> 1) then .invalidHeader
  else if buffer.length < spartnFrameStartLen + 1 then .needMoreData
  else if buffer.length < spartnFrameStartLen + spartnDescLen buffer then .needMoreData
  else
    let len := spartnLen buffer
    let crcBytes := spartnCrcBytes buffer
    if buffer.length < len then .needMoreData
    else
      let calculated := spartnMessageCrc ((buffer.drop 1).take (len - 1 - crcBytes))
        (spartnCrcType buffer)
      let received := receivedCrc ((buffer.drop (len - crcBytes)).take crcBytes)
      if calculated ≠ received then .crcError else .complete len

/-- The probe for the preamble at the beginning of the buffer, with its protocol. -/
def probe (spartn : Bool) (buffer : Bytes) : CorrectionProtocol × Probe :=
  if spartn ∧ byteAt buffer 0 = spartnPreamble then (.spartn, probeSpartn buffer)
  else (.rtcm3, probeRtcm3 buffer)

/-! ## The framer -/

def maxFrameLen (spartn : Bool) : ℕ :=
  if spartn then
    if spartnMaxFrameLen > rtcm3MaxFrameLen then spartnMaxFrameLen else rtcm3MaxFrameLen
  else rtcm3MaxFrameLen

def bufferSize (spartn : Bool) : ℕ := maxFrameLen spartn * 2

structure CorrectionFramer (spartn : Bool) where
  buffer : Bytes
  fits : buffer.length ≤ bufferSize spartn
  pendingProtocol : CorrectionProtocol := .rtcm3
  messagesParsed : UInt32 := 0
  crcErrors : UInt32 := 0
  bytesDiscarded : UInt32 := 0
  totalFrameBytes : UInt32 := 0
  rtcm3Messages : UInt32 := 0
  spartnMessages : UInt32 := 0

namespace CorrectionFramer

variable {spartn : Bool} (f : CorrectionFramer spartn)

def init (spartn : Bool) : CorrectionFramer spartn where
  buffer := []
  fits := Nat.zero_le _

def bufferedBytes : ℕ := f.buffer.length

/-- The bytes that `addData` copies. -/
def toCopy (data : Bytes) : ℕ := min data.length (bufferSize spartn - f.buffer.length)

theorem length_append_toCopy {data : Bytes} :
    (f.buffer ++ data.take (f.toCopy data)).length ≤ bufferSize spartn := by
  have hfits := f.fits
  rw [length_append, length_take, toCopy]
  omega

/-- `addData`, with the number of bytes that it has added. -/
def addData (data : Bytes) : CorrectionFramer spartn × ℕ :=
  ({ f with
      buffer := f.buffer ++ data.take (f.toCopy data)
      fits := f.length_append_toCopy }, f.toCopy data)

theorem length_drop_le {count} : (f.buffer.drop count).length ≤ bufferSize spartn := by
  have hfits := f.fits
  rw [length_drop]
  omega

def discardBytes (count : ℕ) : CorrectionFramer spartn :=
  { f with buffer := f.buffer.drop count, fits := f.length_drop_le }

@[simp]
theorem buffer_discardBytes {count} : (f.discardBytes count).buffer = f.buffer.drop count := rfl

/-- The bytes that cannot start a frame. -/
def toDrop : ℕ := (f.buffer.takeWhile fun byte => !isPreamble spartn byte).length

/-- Drop everything that cannot start a frame. -/
def dropToPreamble : CorrectionFramer spartn :=
  if f.toDrop > 0 then
    { f with bytesDiscarded := f.bytesDiscarded + UInt32.ofNat f.toDrop }.discardBytes f.toDrop
  else f

theorem buffer_dropToPreamble : f.dropToPreamble.buffer = f.buffer.drop f.toDrop := by
  unfold dropToPreamble
  split
  · rfl
  · rename_i hzero
    rw [Nat.eq_zero_of_not_pos hzero, drop_zero]

def countDiscarded : CorrectionFramer spartn := { f with bytesDiscarded := f.bytesDiscarded + 1 }

def countCrcError : CorrectionFramer spartn := { f with crcErrors := f.crcErrors + 1 }

/-- `getNextMessage`: the length and the protocol of the first frame, unless it is `nullptr`. -/
def getNextMessage (f : CorrectionFramer spartn) :
    CorrectionFramer spartn × Option (ℕ × CorrectionProtocol) :=
  if f.dropToPreamble.buffer.length = 0 then (f.dropToPreamble, none)
  else
    match probe spartn f.dropToPreamble.buffer with
    | (_, .needMoreData) => (f.dropToPreamble, none)
    | (_, .invalidHeader) => getNextMessage (f.dropToPreamble.countDiscarded.discardBytes 1)
    | (_, .crcError) => getNextMessage (f.dropToPreamble.countCrcError.discardBytes 1)
    | (protocol, .complete frameLen) =>
      ({ f.dropToPreamble with pendingProtocol := protocol }, some (frameLen, protocol))
termination_by f.buffer.length
decreasing_by
  -- each round discards at least the preamble
  all_goals
    have hdrop := congrArg length f.buffer_dropToPreamble
    rw [length_drop] at hdrop
    rw [buffer_discardBytes, length_drop]
    simp only [countDiscarded, countCrcError]
    omega

def consumeMessage (len : ℕ) : CorrectionFramer spartn :=
  let f := f.discardBytes len
  { f with
    messagesParsed := f.messagesParsed + 1
    totalFrameBytes := f.totalFrameBytes + UInt32.ofNat len
    rtcm3Messages :=
      if f.pendingProtocol = .rtcm3 then f.rtcm3Messages + 1 else f.rtcm3Messages
    spartnMessages :=
      if f.pendingProtocol = .rtcm3 then f.spartnMessages else f.spartnMessages + 1 }

end CorrectionFramer

end Px4.Gnss
