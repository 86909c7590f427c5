import Px4.Common.LittleEndian
import Px4.Rings.Ringbuffer

/-!
# Variable length ringbuffer

`src/lib/variable_length_ringbuffer/VariableLengthRingbuffer.cpp`: packets in a `Ringbuffer`, each
behind a header of four bytes with its length. A failing assertion fails the call.
-/

namespace Px4.Rings.VariableLength

open List LittleEndian

def header (packetLen : ℕ) : Bytes := toBytes 4 packetLen

variable (r : Ringbuffer)

def pushBack (packet : Option Bytes) : Option (Ringbuffer × Bool) :=
  match packet with
  | none => some (r, false)
  | some data =>
    if data.length = 0 then some (r, false)
    else
      let spaceRequired := UInt64.ofNat data.length + 4
      if spaceRequired > r.spaceAvailable then some (r, false)
      else do
        let (r, result) ← r.pushBack (some (header data.length))
        guard result
        let (r, result) ← r.pushBack (some data)
        guard result
        return (r, true)

/-- `pop_front`, with the bytes that it copies and counts; the flag says if there is a buffer. -/
def popFront (buf : Bool) (bufMaxLen : ℕ) : Option (Ringbuffer × Bytes) :=
  if !buf then some (r, [])
  else do
    let (r, bytes) ← r.popFront true 4
    if bytes.length < 4 then return (r, [])
    let len := LittleEndian.toNat bytes
    guard (len ≤ bufMaxLen)
    let (r, data) ← r.popFront true len
    guard (data.length = len)
    return (r, data)

/-! ## The queue of packets -/

def encode (packets : List Bytes) : Bytes :=
  packets.flatMap fun packet => header packet.length ++ packet

/-- A packet that can be pushed. -/
def Valid (packet : Bytes) : Prop := packet ≠ [] ∧ packet.length < 2 ^ 32

variable {r} {n : ℕ} {packet : Bytes}

variable {packets : List Bytes} {bufMaxLen : ℕ} {op : Op}

theorem encode_append :
    encode (packets ++ [packet]) = encode packets ++ header packet.length ++ packet := by
  simp [encode]

theorem toNat_header (h : packet.length < 2 ^ 32) :
    LittleEndian.toNat (header packet.length) = packet.length := by
  rw [header, toNat_toBytes]
  exact Nat.mod_eq_of_lt h

/-- Both parts of a packet fit if the whole does. -/
theorem pushBack_represents (h : Represents n r (encode packets)) (hvalid : Valid packet)
    (hfits : packet.length + 4 ≤ n - 1 - (encode packets).length) :
    ∃ r', pushBack r (some packet) = some (r', true) ∧
      Represents n r' (encode (packets ++ [packet])) := by
  have havailable := h.spaceAvailable
  have hlen : (header packet.length).length = 4 := length_toBytes ..
  have hheader : header packet.length ≠ [] := by
    intro hnil
    rw [hnil] at hlen
    cases hlen
  obtain ⟨r₁, hpush₁, hr₁⟩ := h.pushBack hheader (by omega)
  have hfits₁ : packet.length ≤ n - 1 - (encode packets ++ header packet.length).length := by
    rw [length_append]
    omega
  obtain ⟨r₂, hpush₂, hr₂⟩ := hr₁.pushBack hvalid.1 hfits₁
  rw [← encode_append] at hr₂
  refine ⟨r₂, ?_, hr₂⟩
  have hspace : ¬UInt64.ofNat packet.length + 4 > r.spaceAvailable := by
    rw [gt_iff_lt, UInt64.lt_iff_toNat_lt]
    simp
    omega
  simp [pushBack, hvalid.1, hspace, hpush₁, hpush₂]

theorem pushBack_of_lt (h : Represents n r (encode packets)) (hvalid : Valid packet)
    (hfits : n - 1 - (encode packets).length < packet.length + 4) :
    pushBack r (some packet) = some (r, false) := by
  have havailable := h.spaceAvailable
  have hspace : UInt64.ofNat packet.length + 4 > r.spaceAvailable := by
    have hlt := hvalid.2
    rw [gt_iff_lt, UInt64.lt_iff_toNat_lt]
    simp
    omega
  simp [pushBack, hspace]

theorem popFront_nil (h : Represents n r (encode [])) :
    ∃ r', popFront r true bufMaxLen = some (r', []) ∧ Represents n r' (encode []) := by
  obtain ⟨r', hpop, hr'⟩ := h.popFront 4
  refine ⟨r', ?_, hr'⟩
  simp only [popFront, hpop]
  rfl

/-- The header that is read is the one of the first packet, and its packet follows. -/
theorem popFront_cons (h : Represents n r (encode (packet :: packets))) (hvalid : Valid packet)
    (hmax : packet.length ≤ bufMaxLen) :
    ∃ r', popFront r true bufMaxLen = some (r', packet) ∧ Represents n r' (encode packets) := by
  have hencode : encode (packet :: packets) =
      header packet.length ++ (packet ++ encode packets) := by
    simp [encode]
  have hlen : (header packet.length).length = 4 := length_toBytes ..
  rw [hencode] at h
  obtain ⟨r₁, hpop₁, hr₁⟩ := h.popFront 4
  rw [drop_left' hlen] at hr₁
  obtain ⟨r₂, hpop₂, hr₂⟩ := hr₁.popFront packet.length
  rw [drop_left] at hr₂
  refine ⟨r₂, ?_, hr₂⟩
  simp [popFront, hpop₁, hlen, toNat_header hvalid.2, hpop₂, hmax]

/-! ## Runs -/

/-- The ring, with the packets that were accepted and those that were returned. -/
structure Trace where
  ring : Ringbuffer
  accepted : List Bytes := []
  returned : List Bytes := []

def Trace.step (t : Trace) : Op → Option Trace
  | .push packet => do
    let (ring, ok) ← pushBack t.ring packet
    return { t with
      ring := ring
      accepted := if ok then t.accepted ++ packet.toList else t.accepted }
  | .pop buf bufMaxLen => do
    let (ring, data) ← popFront t.ring buf bufMaxLen
    return { t with
      ring := ring
      returned := if data = [] then t.returned else t.returned ++ [data] }

/-- Packets are shorter than `2 ^ 32`, and the buffer of a pop has room for the next one. -/
def Trace.InScope (t : Trace) : Op → Prop
  | .push packet => ∀ data ∈ packet, data.length < 2 ^ 32
  | .pop _ bufMaxLen => ∀ next ∈ t.accepted[t.returned.length]?, next.length ≤ bufMaxLen

instance (t : Trace) : (op : Op) → Decidable (t.InScope op)
  | .push _ => inferInstanceAs (Decidable (∀ data ∈ _, _))
  | .pop .. => inferInstanceAs (Decidable (∀ next ∈ _, _))

/-- The packets that were accepted and not yet returned are in the ring. -/
def Trace.Inv (n : ℕ) (t : Trace) : Prop :=
  ∃ stored, t.accepted = t.returned ++ stored ∧ (∀ packet ∈ stored, Valid packet) ∧
    Represents n t.ring (encode stored)

theorem Trace.step_inv {t : Trace} (h : t.Inv n) (hop : t.InScope op) :
    ∃ t', t.step op = some t' ∧ t'.Inv n := by
  obtain ⟨stored, haccepted, hvalid, hring⟩ := h
  cases op with
  | push packet =>
    rcases packet with _ | data
    · exact ⟨t, rfl, stored, haccepted, hvalid, hring⟩
    rcases eq_or_ne data [] with rfl | hdata
    · exact ⟨t, rfl, stored, haccepted, hvalid, hring⟩
    have hdata' : Valid data := ⟨hdata, hop data rfl⟩
    rcases Nat.lt_or_ge (n - 1 - (encode stored).length) (data.length + 4) with hlong | hfits
    · refine ⟨t, ?_, stored, haccepted, hvalid, hring⟩
      rw [Trace.step, pushBack_of_lt hring hdata' hlong]
      rfl
    · obtain ⟨ring, hpush, hring'⟩ := pushBack_represents hring hdata' hfits
      refine ⟨{ t with ring, accepted := t.accepted ++ [data] }, ?_, stored ++ [data],
        ?_, ?_, hring'⟩
      · rw [Trace.step, hpush]
        rfl
      · rw [haccepted, append_assoc]
      · simpa [or_imp, forall_and] using ⟨hvalid, hdata'⟩
  | pop buf bufMaxLen =>
    cases buf with
    | false =>
      refine ⟨t, ?_, stored, haccepted, hvalid, hring⟩
      simp [Trace.step, popFront]
    | true =>
      rcases stored with _ | ⟨packet, stored⟩
      · obtain ⟨ring, hpop, hring'⟩ := popFront_nil hring
        refine ⟨{ t with ring }, ?_, [], haccepted, hvalid, hring'⟩
        rw [Trace.step, hpop]
        rfl
      · have hpacket := hvalid packet (mem_cons_self ..)
        have hmax : packet.length ≤ bufMaxLen := hop packet (by simp [haccepted])
        obtain ⟨ring, hpop, hring'⟩ := popFront_cons hring hpacket hmax
        refine ⟨{ t with ring, returned := t.returned ++ [packet] }, ?_, stored, ?_,
          fun p hp => hvalid p (mem_cons_of_mem _ hp), hring'⟩
        · simp [Trace.step, hpop, hpacket.1]
        · rw [haccepted, append_assoc]
          rfl

/-- Packets come out whole and in order. In any calls within the scope no assertion and no memory
access fails; the accepted packets are the returned ones and the stored ones. The next pop returns
the first stored packet; the next push either changes nothing, or succeeds: this is so if the packet
has bytes and fits with its header. -/
theorem packets_keep_boundaries {n : UInt64} (hn : 1 ≤ n) (uninitialized : ByteMemory)
    (ops : List Op)
    (hops : Run.TryAlong Trace.step Trace.InScope { ring := allocate n uninitialized } ops) :
    ∃ t stored, Run.tryAfter Trace.step { ring := allocate n uninitialized } ops = some t ∧
      t.accepted = t.returned ++ stored ∧
      (∀ bufMaxLen, (∀ next ∈ stored.head?, next.length ≤ bufMaxLen) →
        ∃ r, popFront t.ring true bufMaxLen = some (r, stored.headD []) ∧
          (stored.headD [] = [] ↔ stored = [])) ∧
      ∀ data : Bytes, data.length < 2 ^ 32 → ∃ r ok, pushBack t.ring (some data) = some (r, ok) ∧
        (ok = false → r = t.ring) ∧ (ok = true ↔ data ≠ [] ∧
          (encode stored).length + data.length + 4 ≤ n.toNat - 1) := by
  have hinit : Trace.Inv n.toNat { ring := allocate n uninitialized } :=
    ⟨[], rfl, by simp, allocate_represents hn⟩
  obtain ⟨t, ht, stored, haccepted, hvalid, hring⟩ := Run.tryAfter_of_invariant
    (fun t op h hop => Trace.step_inv h hop) hinit hops
  refine ⟨t, stored, ht, haccepted, ?_, ?_⟩
  · intro bufMaxLen hmax
    rcases stored with _ | ⟨packet, stored⟩
    · obtain ⟨r, hpop, -⟩ := popFront_nil hring
      exact ⟨r, hpop, by simp⟩
    · have hpacket := hvalid packet (mem_cons_self ..)
      obtain ⟨r, hpop, -⟩ := popFront_cons hring hpacket (hmax packet rfl)
      exact ⟨r, hpop, by simpa using hpacket.1⟩
  · intro data hlen
    rcases eq_or_ne data [] with rfl | hdata
    · exact ⟨t.ring, false, rfl, fun _ => rfl, by simp⟩
    rcases Nat.lt_or_ge (n.toNat - 1 - (encode stored).length) (data.length + 4) with
      hlong | hfits
    · exact ⟨t.ring, false, pushBack_of_lt hring ⟨hdata, hlen⟩ hlong, fun _ => rfl,
        iff_of_false nofun fun h => by omega⟩
    · obtain ⟨r, hpush, -⟩ := pushBack_represents hring ⟨hdata, hlen⟩ hfits
      exact ⟨r, true, hpush, nofun, iff_of_true rfl ⟨hdata, by omega⟩⟩

/-- A header that goes around the end of the memory. -/
theorem packets_keep_boundaries_around_the_end :
    Run.TryAlong Trace.step Trace.InScope { ring := allocate 13 fun _ => 0 }
        [.push (some [1, 2, 3, 4, 5, 6]), .pop true 8, .push (some [7]), .push (some [8, 9]),
          .pop true 1] ∧
      ∃ t stored, Run.tryAfter Trace.step { ring := allocate 13 fun _ => 0 }
          [.push (some [1, 2, 3, 4, 5, 6]), .pop true 8, .push (some [7]), .push (some [8, 9]),
            .pop true 1] = some t ∧ t.accepted = t.returned ++ stored := by
  have hops : Run.TryAlong Trace.step Trace.InScope { ring := allocate 13 fun _ => 0 }
      [.push (some [1, 2, 3, 4, 5, 6]), .pop true 8, .push (some [7]), .push (some [8, 9]),
        .pop true 1] := by
    decide +kernel
  obtain ⟨t, stored, ht, haccepted, -⟩ := packets_keep_boundaries (by decide) _ _ hops
  exact ⟨hops, t, stored, ht, haccepted⟩

end Px4.Rings.VariableLength
