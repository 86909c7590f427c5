import Mathlib.Data.Int.Notation
import Px4.Common.ByteMemory
import Px4.Common.Run

/-!
# The ST24 decoder

`src/lib/rc/st24.cpp`. The packet is the memory of the packed `ReceiverFcPacket`: the length is at
2, the type at 3, `st24_data` at 4 and the checksum at 68, so that a store outside of the data is
one to its neighbours. A length that leaves no room for data is accepted, and then nothing ends the
data.
-/

namespace Px4.Rc.St24

open Function Run

def dataLenMax : ℕ := 64

inductive DecodeState where
  | unsynced
  | gotStx1
  | gotStx2
  | gotLen
  | gotType
  | gotData
deriving DecidableEq

structure Decoder where
  decodeState : DecodeState := .unsynced
  rxlen : UInt8 := 0
  rxpacket : ByteMemory

/-- One bit of the checksum. -/
def crcBit (byte crc i : UInt8) : UInt8 :=
  let crc := if crc &&& 0x80 ≠ 0 then crc <<< 1 ^^^ 7 else crc <<< 1
  if byte &&& i ≠ 0 then crc ^^^ 7 else crc

/-- `st24_common_crc8`. -/
def commonCrc8 (bytes : List UInt8) : UInt8 :=
  bytes.foldl (fun crc byte => [0x80, 0x40, 0x20, 0x10, 8, 4, 2, 1].foldl (crcBit byte) crc) 0

/-- The result for a packet with the right checksum: two types have channels, a third is ignored. -/
def packetResult (type : UInt8) : ℕ := if type ≤ 1 then 0 else if type = 2 then 5 else 2

/-- `st24_decode`, with what it returns. -/
def decode (s : Decoder) (byte : UInt8) : Decoder × ℕ :=
  match s.decodeState with
  | .unsynced => if byte = 0x55 then ({ s with decodeState := .gotStx1 }, 1) else (s, 3)
  | .gotStx1 => ({ s with decodeState := if byte = 0x55 then .gotStx2 else .unsynced }, 1)
  | .gotStx2 =>
    if byte.toNat ≤ 1 + 1 + dataLenMax then (⟨.gotLen, 0, update s.rxpacket 2 byte⟩, 1)
    else ({ s with decodeState := .unsynced }, 1)
  | .gotLen => (⟨.gotType, s.rxlen + 1, update s.rxpacket 3 byte⟩, 1)
  | .gotType =>
    let rxpacket := update s.rxpacket (3 + s.rxlen.toNat) byte
    let rxlen := s.rxlen + 1
    (⟨if (rxlen.toNat : ℤ) = (rxpacket 2).toNat - 1 then .gotData else .gotType, rxlen, rxpacket⟩,
      1)
  | .gotData =>
    let rxpacket := update s.rxpacket 68 byte
    let rxlen := s.rxlen + 1
    (⟨.unsynced, rxlen, rxpacket⟩,
      if commonCrc8 (ByteMemory.load rxpacket 2 rxlen.toNat) = byte then packetResult (rxpacket 3)
      else 4)

def step (s : Decoder) (byte : UInt8) : Decoder := (decode s byte).1

/-- The byte to come is not stored outside of `st24_data`. -/
def InBounds (s : Decoder) : Prop :=
  s.decodeState = .gotType → 0 ≤ (s.rxlen.toNat : ℤ) - 1 ∧ (s.rxlen.toNat : ℤ) - 1 < dataLenMax
deriving Decidable

/-- A length counts the type, at least one byte of data, and the checksum. -/
def LongEnough (s : Decoder) (byte : UInt8) : Prop := s.decodeState = .gotStx2 → 3 ≤ byte
deriving Decidable

/-- The bytes until the decoder is out of sync, at most. -/
def remaining (s : Decoder) : ℕ :=
  match s.decodeState with
  | .unsynced => dataLenMax + 5
  | .gotStx1 => dataLenMax + 4
  | .gotStx2 => dataLenMax + 3
  | .gotLen => (s.rxpacket 2).toNat
  | .gotType => (s.rxpacket 2).toNat - s.rxlen.toNat
  | .gotData => 1

/-- The counter against the length. -/
def Inv (s : Decoder) : Prop :=
  match s.decodeState with
  | .gotLen => 3 ≤ (s.rxpacket 2).toNat ∧ (s.rxpacket 2).toNat ≤ 66 ∧ s.rxlen = 0
  | .gotType => 1 ≤ s.rxlen.toNat ∧ s.rxlen.toNat + 2 ≤ (s.rxpacket 2).toNat ∧
    (s.rxpacket 2).toNat ≤ 66
  | _ => True

variable {s : Decoder} {byte : UInt8}

theorem Inv.inBounds (h : Inv s) : InBounds s := by
  intro hstate
  simp only [Inv, hstate] at h
  simp only [dataLenMax]
  omega

theorem Inv.remaining (h : Inv s) : 0 < remaining s ∧ remaining s ≤ dataLenMax + 5 := by
  unfold Inv at h
  unfold St24.remaining dataLenMax
  split <;> simp_all <;> omega

/-- A byte keeps the counter in step, and brings the end nearer. -/
theorem Inv.step (h : Inv s) (hbyte : LongEnough s byte) :
    Inv (step s byte) ∧ ((step s byte).decodeState = .unsynced ∨
      St24.remaining (step s byte) < St24.remaining s) := by
  obtain ⟨decodeState, rxlen, p⟩ := s
  cases decodeState with
  | unsynced | gotStx1 =>
    simp only [St24.step, decode]
    split_ifs <;> simp [Inv, St24.remaining]
  | gotStx2 =>
    have hle : 3 ≤ byte.toNat := hbyte rfl
    by_cases hlen : byte.toNat ≤ 66
    · simp [St24.step, decode, Inv, St24.remaining, dataLenMax, hlen, hle]
      omega
    · simp [St24.step, decode, Inv, dataLenMax, hlen]
  | gotLen =>
    simp only [Inv] at h
    obtain ⟨hlow, hhigh, rfl⟩ := h
    simp [St24.step, decode, Inv, St24.remaining]
    omega
  | gotType =>
    simp only [Inv] at h
    have hnext : (rxlen + 1).toNat = rxlen.toNat + 1 := by
      rw [UInt8.toNat_add]
      exact Nat.mod_eq_of_lt (by simp; omega)
    have hlength : update p (3 + rxlen.toNat) byte 2 = p 2 := update_of_ne (by omega) _ _
    simp only [St24.step, decode, hnext, hlength]
    split_ifs with hend
    · simp [Inv, St24.remaining]
      omega
    · simp [Inv, St24.remaining, hnext, hlength]
      omega
  | gotData => simp [St24.step, decode, Inv]

variable {bytes : List UInt8}

theorem Inv.resynchronises (h : Inv s) (hlong : Along St24.step LongEnough s bytes)
    (hcount : St24.remaining s ≤ bytes.length) :
    ∃ k, 0 < k ∧ k ≤ St24.remaining s ∧
      (after St24.step s (bytes.take k)).decodeState = .unsynced := by
  induction bytes generalizing s with
  | nil => exact absurd h.remaining.1 (by simpa using hcount)
  | cons byte bytes ih =>
    obtain ⟨hinv, hnext | hless⟩ := h.step hlong.1
    · exact ⟨1, Nat.one_pos, h.remaining.1, by simpa using hnext⟩
    · obtain ⟨k, -, hk, hend⟩ := ih hinv hlong.2 (by simp at hcount; omega)
      exact ⟨k + 1, k.succ_pos, Nat.lt_of_le_of_lt hk hless, by simpa using hend⟩

/-- As long as every accepted length is long enough, all data is stored in `st24_data`, and wherever
the decoder is, it is out of sync again after at most `ST24_DATA_LEN_MAX + 5` bytes. -/
theorem decoder_resynchronises (rxpacket : ByteMemory) {bytes : List UInt8}
    (hlong : Along step LongEnough { rxpacket } bytes) :
    Always step InBounds { rxpacket } bytes ∧
      ∀ before next, bytes = before ++ next → dataLenMax + 5 ≤ next.length →
        ∃ k, 0 < k ∧ k ≤ dataLenMax + 5 ∧
          (after step { rxpacket } (before ++ next.take k)).decodeState = .unsynced := by
  have hstart : Inv { rxpacket } := trivial
  refine ⟨always_of_invariant (fun s e h he => (h.step he).1) (fun s h => h.inBounds) hstart hlong,
    fun before next hbytes hnext => ?_⟩
  rw [hbytes, along_append] at hlong
  have hinv := after_of_invariant (I := Inv) (fun s e h he => (h.step he).1) hstart hlong.1
  obtain ⟨k, hpos, hk, hend⟩ := hinv.resynchronises hlong.2 (Nat.le_trans hinv.remaining.2 hnext)
  exact ⟨k, hpos, Nat.le_trans hk hinv.remaining.2, by rwa [after_append]⟩

/-- The longest packet, with a wrong checksum. -/
theorem decoder_resynchronises_longest_packet :
    let start : Decoder := { rxpacket := fun _ => 0 }
    let data := List.replicate 69 (7 : UInt8)
    Along step LongEnough start ([0x55, 0x55, 66] ++ data) ∧
      Always step InBounds start ([0x55, 0x55, 66] ++ data) ∧
      ∃ k, 0 < k ∧ k ≤ dataLenMax + 5 ∧
        (after step start ([0x55, 0x55, 66] ++ data.take k)).decodeState = .unsynced := by
  intro start data
  have hlong : Along step LongEnough start ([0x55, 0x55, 66] ++ data) := by decide +kernel
  obtain ⟨hbounds, hsync⟩ := decoder_resynchronises (fun _ => 0) hlong
  exact ⟨hlong, hbounds, hsync [0x55, 0x55, 66] data rfl (by decide)⟩

/-- A length of two: the data goes on behind `st24_data`, and the decoder does not come back. -/
theorem decoder_stays_in_data :
    ¬InBounds (after step { rxpacket := fun _ => 0 } ([0x55, 0x55, 2, 0] ++ List.replicate 64 0)) ∧
      ∀ k ≤ dataLenMax + 5, (after step { rxpacket := fun _ => 0 }
        ([0x55, 0x55, 2, 0] ++ List.replicate k 0)).decodeState = .gotType := by
  decide +kernel

end Px4.Rc.St24
