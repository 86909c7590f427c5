import Px4.Common.ByteBlock
import Px4.Common.ByteRing
import Px4.Common.Run

/-!
# Ringbuffer

`src/lib/ringbuffer/Ringbuffer.cpp`. The arithmetic of `size_t` wraps, with 64 bits. A `memcpy`
outside of the allocated memory fails, and with it the call. A buffer of the caller is `none` for a
null pointer; its length is the one that is passed with it.
-/

namespace Px4.Rings

open List Nat UInt64

abbrev Bytes := List UInt8

/-- The class; `block` is the memory behind `_ringbuffer`. -/
structure Ringbuffer where
  size : UInt64
  block : ByteBlock
  start : UInt64 := 0
  endPos : UInt64 := 0

/-- `allocate` of a new object. -/
def allocate (bufferSize : UInt64) (uninitialized : ByteMemory) : Ringbuffer where
  size := bufferSize
  block := ⟨bufferSize.toNat, uninitialized⟩

namespace Ringbuffer

variable (r : Ringbuffer)

def spaceAvailable : UInt64 :=
  if r.start > r.endPos then r.start - r.endPos - 1 else r.start - r.endPos - 1 + r.size

def spaceUsed : UInt64 :=
  if r.start ≤ r.endPos then r.endPos - r.start else r.endPos - r.start + r.size

/-- `memcpy` to `_end`, and move `_end` behind it. -/
def append (data : Bytes) : Option Ringbuffer := do
  let block ← r.block.write r.endPos.toNat data
  return { r with block, endPos := r.endPos + ofNat data.length }

def pushBack (buf : Option Bytes) : Option (Ringbuffer × Bool) :=
  match buf with
  | none => some (r, false)
  | some data =>
    if data.length = 0 then some (r, false)
    else if r.start > r.endPos then
      let available := r.start - r.endPos - 1
      if available.toNat < data.length then some (r, false)
      else do
        let r ← r.append data
        return (r, true)
    else
      let available := r.start - r.endPos - 1 + r.size
      if available.toNat < data.length then some (r, false)
      else
        let remaining := (r.size - r.endPos).toNat
        if data.length > remaining then do
          let r ← r.append (data.take remaining)
          let r ← { r with endPos := 0 }.append (data.drop remaining)
          return (r, true)
        else do
          let r ← r.append data
          return (r, true)

/-- `memcpy` from `_start`, and move `_start` behind it. -/
def remove (count : ℕ) : Option (Ringbuffer × Bytes) := do
  let data ← r.block.read r.start.toNat count
  return ({ r with start := r.start + ofNat count }, data)

/-- `pop_front`, with the bytes that it copies and counts; the flag says if there is a buffer. -/
def popFront (buf : Bool) (bufMaxLen : ℕ) : Option (Ringbuffer × Bytes) :=
  if !buf then some (r, [])
  else if r.start = r.endPos then some (r, [])
  else if r.start < r.endPos then r.remove (min (r.endPos - r.start).toNat bufMaxLen)
  else
    let used := (r.endPos - r.start + r.size).toNat
    let toCopyLen := if used > bufMaxLen then bufMaxLen else used
    let remaining := (r.size - r.start).toNat
    if toCopyLen > remaining then do
      let (r, first) ← r.remove remaining
      let (r, second) ← { r with start := 0 }.remove (toCopyLen - remaining)
      return (r, first ++ second)
    else r.remove toCopyLen

def deallocate : Ringbuffer := { r with size := 0, block := ⟨0, fun _ => 0⟩ }

/-- `allocate` of an object that may have been used before. -/
def reallocate (bufferSize : UInt64) (uninitialized : ByteMemory) : Ringbuffer :=
  { r with size := bufferSize, block := ⟨bufferSize.toNat, uninitialized⟩ }

end Ringbuffer

/-! ## The queue of bytes -/

/-- The ring holds these bytes; `_start` and `_end` may rest behind the last byte of the memory. -/
structure Represents (n : ℕ) (r : Ringbuffer) (stored : Bytes) : Prop where
  size_eq : r.size.toNat = n
  block_size : r.block.size = n
  start_le : r.start.toNat ≤ n
  end_le : r.endPos.toNat ≤ n
  /-- The bytes go from `_start` to `_end`, or around the end of the memory. -/
  end_eq : r.endPos.toNat = r.start.toNat + stored.length ∨
    r.endPos.toNat < r.start.toNat ∧ r.endPos.toNat + n = r.start.toNat + stored.length
  length_lt : stored.length < n
  holds : ByteRing.Holds n r.block.bytes r.start.toNat stored

section Represents

variable {n : ℕ} {r : Ringbuffer} {stored data : Bytes} {count : ℕ}

variable {m bufferSize pos : UInt64} {uninitialized : ByteMemory}

/-- The positions stay where they are. -/
theorem reallocate_represents (hm : 1 ≤ m) (uninitialized) (hempty : r.start = r.endPos)
    (hstart : r.start ≤ m) :
    Represents m.toNat (r.deallocate.reallocate m uninitialized) [] where
  size_eq := rfl
  block_size := rfl
  start_le := hstart
  end_le := hempty ▸ hstart
  end_eq := .inl (congrArg toNat hempty.symm)
  length_lt := hm
  holds := ByteRing.holds_nil _ _ _

theorem allocate_represents (h : 1 ≤ bufferSize) :
    Represents bufferSize.toNat (allocate bufferSize uninitialized) [] :=
  reallocate_represents (r := allocate 0 uninitialized) h uninitialized rfl (zero_le _)

variable (h : Represents n r stored)
include h

theorem Represents.n_lt : n < 2 ^ 64 :=
  h.size_eq ▸ r.size.toNat_lt

theorem Represents.spaceUsed : r.spaceUsed.toNat = stored.length := by
  have hn := h.n_lt
  have hsize := h.size_eq
  have hstart := h.start_le
  have hend := h.end_le
  unfold Ringbuffer.spaceUsed
  rcases h.end_eq with heq | ⟨hlt, heq⟩
  · rw [if_pos (by rw [UInt64.le_iff_toNat_le]; omega), UInt64.toNat_sub]
    omega
  · rw [if_neg (by rw [UInt64.le_iff_toNat_le]; omega), UInt64.toNat_add, UInt64.toNat_sub]
    omega

theorem Represents.spaceAvailable : r.spaceAvailable.toNat = n - 1 - stored.length := by
  have hn := h.n_lt
  have hsize := h.size_eq
  have hend := h.end_le
  have hlen := h.length_lt
  unfold Ringbuffer.spaceAvailable
  rcases h.end_eq with heq | ⟨hlt, heq⟩
  · rw [if_neg (by rw [gt_iff_lt, UInt64.lt_iff_toNat_lt]; omega), UInt64.toNat_add,
      UInt64.toNat_sub, UInt64.toNat_sub]
    simp
    omega
  · rw [if_pos (by rw [gt_iff_lt, UInt64.lt_iff_toNat_lt]; omega), UInt64.toNat_sub,
      UInt64.toNat_sub]
    simp
    omega

/-- `_end` is where the next byte goes, on the ring. -/
theorem Represents.end_modEq : r.endPos.toNat ≡ r.start.toNat + stored.length [MOD n] := by
  rcases h.end_eq with heq | ⟨-, heq⟩
  · rw [heq]
  · rw [← heq]
    exact (add_modEq_right ..).symm

theorem Represents.append (hend : r.endPos.toNat + data.length ≤ n)
    (hfits : stored.length + data.length < n) :
    ∃ r', r.append data = some r' ∧ Represents n r' (stored ++ data) ∧
      r'.endPos.toNat = r.endPos.toNat + data.length := by
  have hn := h.n_lt
  have hpos : (r.endPos + UInt64.ofNat data.length).toNat = r.endPos.toNat + data.length := by
    rw [UInt64.toNat_add, UInt64.toNat_ofNat']
    omega
  have happend : r.append data = some { r with
      block := { r.block with bytes := r.block.bytes.store r.endPos.toNat data }
      endPos := r.endPos + ofNat data.length } := by
    rw [Ringbuffer.append, ByteBlock.write_of_le (by rwa [h.block_size])]
    rfl
  refine ⟨_, happend, ⟨h.size_eq, h.block_size, h.start_le, ?_, ?_, ?_, ?_⟩, hpos⟩
  · exact hpos.trans_le hend
  · dsimp only
    rw [length_append]
    rcases h.end_eq with heq | ⟨hlt, heq⟩
    · exact .inl (by omega)
    · exact .inr (by omega)
  · rwa [length_append]
  · exact h.holds.store h.end_modEq hend (le_of_lt hfits)

theorem Represents.wrap_end (hend : r.endPos.toNat = n) :
    Represents n { r with endPos := 0 } stored := by
  refine { h with end_le := zero_le _, end_eq := ?_ }
  have hlen := h.length_lt
  dsimp only
  rw [UInt64.toNat_zero]
  rcases h.end_eq with heq | ⟨hlt, -⟩
  · exact .inr (by omega)
  · exact absurd h.start_le (by omega)

theorem Represents.remove (hend : r.start.toNat + count ≤ n) (hcount : count ≤ stored.length) :
    ∃ r', r.remove count = some (r', stored.take count) ∧ Represents n r' (stored.drop count) ∧
      r'.start.toNat = r.start.toNat + count ∧ r'.endPos = r.endPos := by
  have hn := h.n_lt
  have hpos : (r.start + UInt64.ofNat count).toNat = r.start.toNat + count := by
    rw [UInt64.toNat_add, UInt64.toNat_ofNat']
    omega
  have hremove : r.remove count =
      some ({ r with start := r.start + ofNat count }, stored.take count) := by
    rw [Ringbuffer.remove, ByteBlock.read_of_le (by rwa [h.block_size]), h.holds.load hend hcount]
    rfl
  refine ⟨_, hremove, ⟨h.size_eq, h.block_size, ?_, h.end_le, ?_, ?_, ?_⟩, hpos, rfl⟩
  · exact hpos.trans_le hend
  · dsimp only
    rw [length_drop]
    rcases h.end_eq with heq | ⟨hlt, heq⟩
    · exact .inl (by omega)
    · exact .inr (by omega)
  · rw [length_drop]
    exact (sub_le ..).trans_lt h.length_lt
  · rw [hpos]
    exact h.holds.drop count

theorem Represents.removeMin (count) (hend : r.start.toNat + min stored.length count ≤ n) :
    ∃ r', r.remove (min stored.length count) = some (r', stored.take count) ∧
      Represents n r' (stored.drop count) := by
  obtain ⟨r', hremove, hr', -⟩ := h.remove hend (min_le_left ..)
  rw [min_comm, ← take_eq_take_min] at hremove
  rw [Nat.min_comm, ← drop_eq_drop_min] at hr'
  exact ⟨r', Nat.min_comm .. ▸ hremove, hr'⟩

theorem Represents.wrap_start (hstart : r.start.toNat = n)
    (hlt : r.endPos.toNat < n) : Represents n { r with start := 0 } stored := by
  refine ⟨h.size_eq, h.block_size, zero_le _, h.end_le, ?_, h.length_lt, ?_⟩
  · dsimp only
    rw [UInt64.toNat_zero]
    rcases h.end_eq with heq | ⟨-, heq⟩
    · omega
    · exact .inl (by omega)
  · exact h.holds.congr (by rw [hstart]; exact (modEq_zero_iff_dvd.mpr (dvd_refl n)).symm)

theorem Represents.size_sub (hpos : pos.toNat ≤ n) : (r.size - pos).toNat = n - pos.toNat := by
  have hn := h.n_lt
  have hsize := h.size_eq
  rw [UInt64.toNat_sub]
  omega

theorem Represents.pushBack (hdata : data ≠ []) (hfits : data.length ≤ n - 1 - stored.length) :
    ∃ r', r.pushBack (some data) = some (r', true) ∧ Represents n r' (stored ++ data) := by
  have hend := h.end_le
  have hstart := h.start_le
  have havailable := h.spaceAvailable
  have hne : ¬data.length = 0 := by rwa [length_eq_zero_iff]
  by_cases hwrapped : r.start > r.endPos
  · rw [Ringbuffer.spaceAvailable, if_pos hwrapped] at havailable
    have hlt := lt_iff_toNat_lt.mp hwrapped
    have hwithin : r.endPos.toNat + data.length ≤ n := by
      rcases h.end_eq with heq | heq <;> omega
    obtain ⟨r', happend, hr', -⟩ := h.append hwithin (by omega)
    refine ⟨r', ?_, hr'⟩
    simp only [Ringbuffer.pushBack, hne, hwrapped, if_true, if_false, havailable,
      not_lt.mpr hfits, happend]
    rfl
  · rw [Ringbuffer.spaceAvailable, if_neg hwrapped] at havailable
    have hremaining := h.size_sub hend
    simp only [Ringbuffer.pushBack, hne, hwrapped, if_false, havailable, not_lt.mpr hfits,
      hremaining]
    by_cases hover : data.length > n - r.endPos.toNat
    · -- the first part fills the memory up to its end
      have htake : (data.take (n - r.endPos.toNat)).length = n - r.endPos.toNat := by
        rw [length_take]
        omega
      have hwithin : r.endPos.toNat + (data.take (n - r.endPos.toNat)).length ≤ n := by omega
      obtain ⟨r₁, happend₁, hr₁, hend₁⟩ := h.append hwithin (by omega)
      have hlen₁ : (stored ++ data.take (n - r.endPos.toNat)).length +
          (data.drop (n - r.endPos.toNat)).length < n := by
        rw [length_append, length_drop]
        omega
      have hwithin₁ : (0 : UInt64).toNat + (data.drop (n - r.endPos.toNat)).length ≤ n := by
        rw [UInt64.toNat_zero]
        omega
      obtain ⟨r₂, happend₂, hr₂, -⟩ := (hr₁.wrap_end (by omega)).append hwithin₁ hlen₁
      rw [append_assoc, take_append_drop] at hr₂
      refine ⟨r₂, ?_, hr₂⟩
      rw [if_pos hover, happend₁, Option.bind_eq_bind, Option.bind_some, happend₂]
      rfl
    · have hwithin : r.endPos.toNat + data.length ≤ n := by omega
      obtain ⟨r', happend, hr', -⟩ := h.append hwithin (by omega)
      refine ⟨r', ?_, hr'⟩
      rw [if_neg hover, happend]
      rfl

theorem Represents.pushBack_of_lt
    (hfits : n - 1 - stored.length < data.length) : r.pushBack (some data) = some (r, false) := by
  have hne : ¬data.length = 0 := by omega
  have havailable := h.spaceAvailable
  by_cases hwrapped : r.start > r.endPos
  · rw [Ringbuffer.spaceAvailable, if_pos hwrapped] at havailable
    simp only [Ringbuffer.pushBack, hne, hwrapped, if_true, if_false, havailable, hfits]
  · rw [Ringbuffer.spaceAvailable, if_neg hwrapped] at havailable
    simp only [Ringbuffer.pushBack, hne, hwrapped, if_true, if_false, havailable, hfits]

theorem Represents.popFront (bufMaxLen) :
    ∃ r', r.popFront true bufMaxLen = some (r', stored.take bufMaxLen) ∧
      Represents n r' (stored.drop bufMaxLen) := by
  have hlen := h.length_lt
  have hend := h.end_le
  have hstart := h.start_le
  have hused := h.spaceUsed
  by_cases hempty : r.start = r.endPos
  · have hnil : stored = [] := by
      rw [← length_eq_zero_iff]
      have := h.end_eq
      rw [hempty] at this
      omega
    subst hnil
    refine ⟨r, ?_, by rwa [drop_nil]⟩
    simp [Ringbuffer.popFront, hempty]
  by_cases hstraight : r.start < r.endPos
  · rw [Ringbuffer.spaceUsed, if_pos (UInt64.le_of_lt hstraight)] at hused
    have hlt := UInt64.lt_iff_toNat_lt.mp hstraight
    have hwithin : r.start.toNat + min stored.length bufMaxLen ≤ n := by
      rcases h.end_eq with heq | heq <;> omega
    obtain ⟨r', hremove, hr'⟩ := h.removeMin bufMaxLen hwithin
    refine ⟨r', ?_, hr'⟩
    simp only [Ringbuffer.popFront, hempty, hstraight, hused, hremove, Bool.not_true, if_true,
      if_false, Bool.false_eq_true]
  · have hle : ¬r.start ≤ r.endPos := by
      intro hle
      exact hempty (UInt64.le_antisymm hle (UInt64.not_lt.mp hstraight))
    rw [Ringbuffer.spaceUsed, if_neg hle] at hused
    have hlt := UInt64.lt_iff_toNat_lt.mp (UInt64.not_le.mp hle)
    have hremaining := h.size_sub hstart
    have hcopy : (if stored.length > bufMaxLen then bufMaxLen else stored.length) =
        min stored.length bufMaxLen := by
      split_ifs <;> omega
    simp only [Ringbuffer.popFront, hempty, hstraight, hused, hremaining, hcopy, Bool.not_true,
      if_false, Bool.false_eq_true]
    by_cases hover : min stored.length bufMaxLen > n - r.start.toNat
    · -- the first part is all there is before the end of the memory
      have hwithin : r.start.toNat + (n - r.start.toNat) ≤ n := by omega
      obtain ⟨r₁, hremove₁, hr₁, hstart₁, hend₁⟩ := h.remove hwithin (by omega)
      have hwrapped := hr₁.wrap_start (by omega) (by rw [hend₁]; omega)
      obtain ⟨r₂, hremove₂, hr₂⟩ := hwrapped.removeMin (bufMaxLen - (n - r.start.toNat))
        (by rw [length_drop, UInt64.toNat_zero]; omega)
      rw [length_drop, Nat.sub_min_sub_right] at hremove₂
      have hsplit : n - r.start.toNat + (bufMaxLen - (n - r.start.toNat)) = bufMaxLen := by omega
      rw [drop_drop, hsplit] at hr₂
      refine ⟨r₂, ?_, hr₂⟩
      rw [if_pos hover, hremove₁, Option.bind_eq_bind, Option.bind_some, hremove₂]
      conv_rhs => rw [← hsplit, take_add]
      rfl
    · obtain ⟨r', hremove, hr'⟩ := h.removeMin bufMaxLen (by omega)
      exact ⟨r', by rw [if_neg hover, hremove], hr'⟩

end Represents

/-! ## Runs -/

/-- A call of the class; `pop` says whether there is a buffer, and its length. -/
inductive Op where
  | push (buf : Option Bytes)
  | pop (buf : Bool) (bufMaxLen : ℕ)

/-- The ring, with the bytes of all accepted pushes and all the bytes that were returned. -/
structure Trace where
  ring : Ringbuffer
  accepted : Bytes := []
  returned : Bytes := []

def Trace.step (t : Trace) : Op → Option Trace
  | .push buf => do
    let (ring, ok) ← t.ring.pushBack buf
    return { t with ring, accepted := if ok then t.accepted ++ buf.getD [] else t.accepted }
  | .pop buf bufMaxLen => do
    let (ring, data) ← t.ring.popFront buf bufMaxLen
    return { t with ring, returned := t.returned ++ data }

/-- What has been accepted and not yet returned is in the ring. -/
def Trace.Inv (n : ℕ) (t : Trace) : Prop :=
  ∃ stored, t.accepted = t.returned ++ stored ∧ Represents n t.ring stored

variable {n : ℕ}

theorem Trace.step_inv {t : Trace} (h : t.Inv n) (op) : ∃ t', t.step op = some t' ∧ t'.Inv n := by
  obtain ⟨stored, haccepted, hring⟩ := h
  cases op with
  | push buf =>
    rcases buf with _ | data
    · exact ⟨t, rfl, stored, haccepted, hring⟩
    rcases eq_or_ne data [] with rfl | hdata
    · exact ⟨t, rfl, stored, haccepted, hring⟩
    rcases lt_or_ge (n - 1 - stored.length) data.length with hlong | hfits
    · refine ⟨t, ?_, stored, haccepted, hring⟩
      rw [Trace.step, hring.pushBack_of_lt hlong]
      rfl
    · obtain ⟨ring, hpush, hring'⟩ := hring.pushBack hdata hfits
      refine ⟨{ t with ring, accepted := t.accepted ++ data }, ?_, stored ++ data, ?_,
        hring'⟩
      · rw [Trace.step, hpush]
        rfl
      · rw [haccepted, append_assoc]
  | pop buf bufMaxLen =>
    cases buf with
    | false =>
      refine ⟨t, ?_, stored, haccepted, hring⟩
      simp [Trace.step, Ringbuffer.popFront]
    | true =>
      obtain ⟨ring, hpop, hring'⟩ := hring.popFront bufMaxLen
      refine ⟨{ t with ring, returned := t.returned ++ stored.take bufMaxLen }, ?_,
        stored.drop bufMaxLen, ?_, hring'⟩
      · rw [Trace.step, hpop]
        rfl
      · rw [haccepted, append_assoc, take_append_drop]

/-- The ring is a bounded queue of bytes. After any calls, none of which accesses memory out of
bounds, the accepted bytes are the returned ones and the stored ones, in order, and the next push or
pop does what it does to a queue of `n - 1` bytes. -/
theorem ringbuffer_is_bounded_fifo {n : UInt64} (hn : 1 ≤ n) (uninitialized : ByteMemory)
    (ops : List Op) :
    ∃ t stored, Run.tryAfter Trace.step { ring := allocate n uninitialized } ops = some t ∧
      t.accepted = t.returned ++ stored ∧
      t.ring.spaceUsed.toNat = stored.length ∧
      t.ring.spaceUsed.toNat + t.ring.spaceAvailable.toNat = n.toNat - 1 ∧
      t.ring.start ≤ n ∧ t.ring.endPos ≤ n ∧
      (∀ data ≠ [], data.length ≤ n.toNat - 1 - stored.length →
        ∃ r, t.ring.pushBack (some data) = some (r, true)) ∧
      (∀ data ≠ [], ¬data.length ≤ n.toNat - 1 - stored.length →
        t.ring.pushBack (some data) = some (t.ring, false)) ∧
      ∀ bufMaxLen, ∃ r, t.ring.popFront true bufMaxLen = some (r, stored.take bufMaxLen) := by
  have hinit : Trace.Inv n.toNat { ring := allocate n uninitialized } :=
    ⟨[], rfl, allocate_represents hn⟩
  obtain ⟨t, ht, stored, haccepted, hring⟩ := Run.tryAfter_of_invariant
    (fun t op h _ => Trace.step_inv h op) hinit
    (Run.tryAlong_of_forall (fun _ _ => trivial) _ ops)
  have hlt := hring.length_lt
  refine ⟨t, stored, ht, haccepted, hring.spaceUsed, ?_, hring.start_le, hring.end_le, ?_, ?_, ?_⟩
  · rw [hring.spaceUsed, hring.spaceAvailable]
    omega
  · intro data hdata hfits
    obtain ⟨r, hr, -⟩ := hring.pushBack hdata hfits
    exact ⟨r, hr⟩
  · intro data _ hlong
    exact hring.pushBack_of_lt (Nat.lt_of_not_le hlong)
  · intro bufMaxLen
    obtain ⟨r, hr, -⟩ := hring.popFront bufMaxLen
    exact ⟨r, hr⟩

/-- Four bytes of memory, around the end of which a push and a pop go. -/
theorem ringbuffer_is_bounded_fifo_around_the_end :
    (1 : UInt64) ≤ 4 ∧ ∃ t stored, Run.tryAfter Trace.step { ring := allocate 4 fun _ => 0 }
        [.push (some [1, 2, 3]), .pop true 2, .push (some [4, 5]), .push (some [6]), .pop true 9] =
          some t ∧ t.accepted = t.returned ++ stored := by
  obtain ⟨t, stored, ht, haccepted, -⟩ := ringbuffer_is_bounded_fifo (n := 4) (by decide)
    (fun _ => 0)
    [.push (some [1, 2, 3]), .pop true 2, .push (some [4, 5]), .push (some [6]), .pop true 9]
  exact ⟨by decide, t, stored, ht, haccepted⟩

/-- The ring is empty, and a push of at most `m - 1` bytes succeeds, stays in the memory and is
popped unchanged. -/
def Ringbuffer.BehavesAsNew (r : Ringbuffer) (m : UInt64) : Prop :=
  r.spaceUsed = 0 ∧ r.spaceAvailable = m - 1 ∧
    (∀ bufMaxLen, r.popFront true bufMaxLen = some (r, [])) ∧
    ∀ data ≠ [], data.length ≤ m.toNat - 1 → ∃ pushed, r.pushBack (some data) =
      some (pushed, true) ∧ ∀ bufMaxLen, ∃ popped,
        pushed.popFront true bufMaxLen = some (popped, data.take bufMaxLen)

/-- A ring that represents the empty queue behaves as a new one. -/
theorem Represents.behavesAsNew {r : Ringbuffer} {m : UInt64} (h : Represents m.toNat r [])
    (hm : 1 ≤ m) (hpop : ∀ bufMaxLen, r.popFront true bufMaxLen = some (r, [])) :
    r.BehavesAsNew m := by
  refine ⟨UInt64.toNat_inj.mp h.spaceUsed, ?_, hpop, fun data hdata hfits => ?_⟩
  · rw [← UInt64.toNat_inj, h.spaceAvailable, UInt64.toNat_sub_of_le _ _ hm]
    rfl
  · obtain ⟨pushed, hpush, hpushed⟩ := h.pushBack hdata hfits
    refine ⟨pushed, hpush, fun bufMaxLen => ?_⟩
    obtain ⟨popped, hpop, -⟩ := hpushed.popFront bufMaxLen
    exact ⟨popped, hpop⟩

/-- A push of one byte at a position behind the memory is out of bounds. -/
theorem Ringbuffer.pushBack_one_of_lt {r : Ringbuffer} {byte : UInt8} (hempty : r.start = r.endPos)
    (hsize : r.block.size = r.size.toNat) (hlt : r.size < r.start) (hroom : 1 < r.size) :
    r.pushBack (some [byte]) = none := by
  have hlt := UInt64.lt_iff_toNat_lt.mp hlt
  have hroom := UInt64.lt_iff_toNat_lt.mp hroom
  have hstart := r.start.toNat_lt
  have hnot : ¬r.start > r.endPos := by
    rw [hempty]
    exact UInt64.lt_irrefl _
  have havailable : (r.start - r.endPos - 1 + r.size).toNat = r.size.toNat - 1 := by
    rw [hempty, UInt64.sub_self, UInt64.toNat_add, UInt64.toNat_sub]
    simp at hroom ⊢
    omega
  have hremaining : ¬1 > (r.size - r.endPos).toNat := by
    rw [← hempty, UInt64.toNat_sub]
    omega
  have happend : r.append [byte] = none := by
    rw [Ringbuffer.append, ByteBlock.write, if_neg]
    · rfl
    · rw [hsize, ← hempty, length_singleton]
      omega
  have hfits : ¬r.size.toNat - 1 < 1 := by
    simp at hroom
    omega
  simp only [Ringbuffer.pushBack, length_singleton, one_ne_zero, hnot, havailable, hfits,
    hremaining, happend, if_false]
  rfl

section

variable {r : Ringbuffer} {m : UInt64} (hm : 1 ≤ m) (hsize : r.size = m)
  (hblock : r.block.size = m.toNat)
include hm hsize hblock

/-- A ring with equal positions behind the memory takes no byte, unless it has no room for one. -/
theorem Ringbuffer.BehavesAsNew.start_le (h : r.BehavesAsNew m) (hempty : r.start = r.endPos) :
    r.start ≤ m ∨ m = 1 := by
  obtain ⟨-, -, -, hpush⟩ := h
  by_contra hout
  obtain ⟨hlt, hone⟩ := not_or.mp hout
  have hroom : 1 < m := UInt64.lt_of_le_of_ne hm (Ne.symm hone)
  have hfits : 1 ≤ m.toNat - 1 := by
    have := UInt64.lt_iff_toNat_lt.mp hroom
    simp at this
    omega
  obtain ⟨pushed, hpushed, -⟩ := hpush [0] (by simp) hfits
  rw [Ringbuffer.pushBack_one_of_lt hempty (by rw [hblock, hsize])
    (by rw [hsize]; exact UInt64.not_le.mp hlt) (by rwa [hsize])] at hpushed
  cases hpushed

omit hm in
/-- If `_end` is before `_start` in an empty ring, the whole memory is between them. -/
theorem Ringbuffer.BehavesAsNew.wrapped (h : r.BehavesAsNew m) (hgt : r.endPos < r.start) :
    r.start = m ∧ r.endPos = 0 := by
  obtain ⟨hused, -, hpop, -⟩ := h
  have hlt := UInt64.lt_iff_toNat_lt.mp hgt
  have hnot : ¬r.start ≤ r.endPos := UInt64.not_le.mpr hgt
  have hne : ¬r.start = r.endPos := fun heq => hnot (UInt64.le_of_eq heq)
  rw [Ringbuffer.spaceUsed, if_neg hnot] at hused
  have hsum := congrArg toNat hused
  rw [UInt64.toNat_add, UInt64.toNat_sub, hsize, UInt64.toNat_zero] at hsum
  have hremove : r.remove 0 = some (r, []) := by
    have hpop := hpop 0
    simp only [Ringbuffer.popFront, hne, UInt64.not_lt.mpr (UInt64.le_of_lt hgt), hused,
      Bool.not_true, Bool.false_eq_true, UInt64.toNat_zero, if_false, gt_iff_lt, not_lt_zero]
      at hpop
    exact hpop
  -- a `memcpy` of no bytes has to begin in the memory, too
  have hle : r.start.toNat ≤ m.toNat := by
    by_contra hout
    rw [Ringbuffer.remove, ByteBlock.read, if_neg (by omega)] at hremove
    cases hremove
  have := r.start.toNat_lt
  have := m.toNat_lt
  refine ⟨UInt64.toNat_inj.mp ?_, UInt64.toNat_inj.mp ?_⟩
  · omega
  · rw [UInt64.toNat_zero]
    omega

/-- A ring whose `_end` has wrapped is empty. -/
theorem behavesAsNew_of_wrapped (hfull : r.start = m) (hzero : r.endPos = 0) :
    r.BehavesAsNew m := by
  have hone := UInt64.le_iff_toNat_le.mp hm
  have hnew : Represents m.toNat r [] :=
    { size_eq := by rw [hsize]
      block_size := hblock
      start_le := by rw [hfull]
      end_le := by rw [hzero]; exact zero_le _
      end_eq := .inr (by rw [hfull, hzero]; simp at hone ⊢; omega)
      length_lt := hone
      holds := ByteRing.holds_nil _ _ _ }
  refine hnew.behavesAsNew hm fun bufMaxLen => ?_
  have hne : ¬r.start = r.endPos := by
    rintro heq
    rw [← heq, hfull] at hzero
    rw [hzero] at hone
    exact absurd hone (by decide)
  have hused : r.endPos - r.start + r.size = 0 := by
    rw [hzero, hfull, hsize]
    exact UInt64.sub_add_cancel 0 m
  have hnot : ¬r.start < r.endPos := by
    rw [hzero]
    exact UInt64.not_lt_zero
  have hread : r.block.read r.start.toNat 0 = some [] := by
    rw [ByteBlock.read_of_le (by rw [hfull, hblock, Nat.add_zero])]
    rfl
  simp [Ringbuffer.popFront, Ringbuffer.remove, hne, hnot, hused, hread]

end

/-- In one byte of memory, nothing can be pushed. -/
theorem behavesAsNew_of_one {r : Ringbuffer} (hsize : r.size = 1) (hempty : r.start = r.endPos) :
    r.BehavesAsNew 1 := by
  refine ⟨?_, ?_, fun bufMaxLen => ?_, fun data hdata hfits => ?_⟩
  · rw [Ringbuffer.spaceUsed, if_pos (UInt64.le_of_eq hempty), hempty, UInt64.sub_self]
  · rw [Ringbuffer.spaceAvailable, if_neg (by rw [hempty]; exact UInt64.lt_irrefl _), hempty,
      UInt64.sub_self, hsize]
    rfl
  · rw [Ringbuffer.popFront, if_pos hempty]
    rfl
  · exact absurd (length_eq_zero_iff.mp (Nat.le_zero.mp hfits)) hdata

/-- **A ring can be reallocated exactly if** it is empty when it is deallocated, with its positions
in the new memory or without room for a byte. (A ring whose `_end` has wrapped to zero while
`_start` rests behind the new memory is empty as well.) -/
theorem reallocated_as_new_iff (r : Ringbuffer) {m : UInt64} (hm : 1 ≤ m)
    (uninitialized : ByteMemory) :
    (r.deallocate.reallocate m uninitialized).BehavesAsNew m ↔
      r.start = r.endPos ∧ (r.start ≤ m ∨ m = 1) ∨ r.start = m ∧ r.endPos = 0 := by
  obtain ⟨r', hr'⟩ : ∃ r', r' = r.deallocate.reallocate m uninitialized := ⟨_, rfl⟩
  have hstart : r'.start = r.start := by rw [hr']; rfl
  have hend : r'.endPos = r.endPos := by rw [hr']; rfl
  have hsize : r'.size = m := by rw [hr']; rfl
  have hblock : r'.block.size = m.toNat := by rw [hr']; rfl
  rw [← hr', ← hstart, ← hend]
  constructor
  · intro h
    have hcases : r'.start < r'.endPos ∨ r'.start = r'.endPos ∨ r'.endPos < r'.start := by
      rw [UInt64.lt_iff_toNat_lt, ← UInt64.toNat_inj, UInt64.lt_iff_toNat_lt]
      omega
    rcases hcases with hlt | hempty | hgt
    · -- there is something in the ring
      have hused := h.1
      rw [Ringbuffer.spaceUsed, if_pos (UInt64.le_of_lt hlt)] at hused
      have hdiff := congrArg toNat hused
      rw [UInt64.toNat_sub_of_le _ _ (UInt64.le_of_lt hlt), UInt64.toNat_zero] at hdiff
      have := UInt64.lt_iff_toNat_lt.mp hlt
      omega
    · exact .inl ⟨hempty, h.start_le hm hsize hblock hempty⟩
    · exact .inr (h.wrapped hsize hblock hgt)
  · rintro (⟨hempty, hle | rfl⟩ | ⟨hfull, hzero⟩)
    · have hnew : Represents m.toNat r' [] := by
        rw [hr']
        exact reallocate_represents hm uninitialized (by rw [← hstart, hempty, hend]) (hstart ▸ hle)
      refine hnew.behavesAsNew hm fun bufMaxLen => ?_
      rw [Ringbuffer.popFront, if_pos hempty]
      rfl
    · exact behavesAsNew_of_one hsize hempty
    · exact behavesAsNew_of_wrapped hm hsize hblock hfull hzero

/-- After three bytes were pushed and popped. -/
theorem reallocated_as_new_once_popped :
    let r : Ringbuffer := { allocate 4 (fun _ => 0) with start := 3, endPos := 3 }
    (r.deallocate.reallocate 8 fun _ => 0).BehavesAsNew 8 :=
  (reallocated_as_new_iff _ (by decide) _).mpr (.inl ⟨rfl, .inl (by decide)⟩)

/-- After a push the reallocated ring holds three bytes that nobody has pushed, and after a pop the
next push of one byte is out of bounds if the memory is smaller. -/
theorem reallocated_not_empty :
    (do let t ← Run.tryAfter Trace.step { ring := allocate 4 fun _ => 0 } [.push (some [1, 2, 3])]
        let r := t.ring.deallocate.reallocate 4 fun _ => 0
        let popped ← r.popFront true 9
        return (r.spaceUsed, popped.2)) = some (3, [0, 0, 0]) ∧
      ∃ t, Run.tryAfter Trace.step { ring := allocate 4 fun _ => 0 }
          [.push (some [1, 2, 3]), .pop true 3] = some t ∧
        (t.ring.deallocate.reallocate 2 fun _ => 0).pushBack (some [1]) = none :=
  ⟨by decide +kernel, _, rfl, by decide +kernel⟩

end Px4.Rings
