import Px4.Logger.LogWriterFile

/-!
# Encrypted logs

In the `PX4_CRYPTO` build, `run` writes whole blocks of `_min_blocksize` bytes, which it encrypts in
place. It stays at a buffer whose bytes go around the end of the memory until those before the end
are written, and may wait there for less than a block. What the file does not take is encrypted
again. The two logs share the session of the cipher, and each start of a log gives it a new key.

The producer writes behind the bytes that are being written, so that a visit is one step. When a
write fails twice, the file is closed, and the log ends there.
-/

namespace Px4.Logger

open List Run

/-- `_crypto`: the number of its key, and of the bytes encrypted with it. -/
structure CryptoSession where
  key : ℕ := 0
  position : ℕ := 0

/-- The log of one buffer, and the file without its key header. -/
structure EncryptedLog where
  buffer : LogFileBuffer
  accepted : Bytes := []
  file : Bytes := []

inductive LogEvent where
  | write (message : Bytes) (dropout : Option UInt16)
  /-- The file takes so many bytes, of the second write if the first one has failed. -/
  | visit (written : ℕ)
  /-- The other log is started, -/
  | otherStart
  /-- or bytes of it are encrypted. -/
  | otherVisit (encrypted : ℕ)

namespace EncryptedLog

variable (cipher : ℕ → ℕ → UInt8 → UInt8) (minBlocksize : UInt64) (type : LogType)
  (session : CryptoSession) (s : EncryptedLog)

/-- The whole blocks at the pointer. -/
def blocks : ReadPtr :=
  let read := s.buffer.getReadPtr
  { read with available := read.available / minBlocksize * minBlocksize }

def writeBlocks (written : ℕ) : EncryptedLog :=
  let read := s.blocks minBlocksize
  let data := (s.buffer.bytesAt read).mapIdx fun i => cipher session.key (i + session.position)
  let buffer := { s.buffer with buffer := s.buffer.buffer.store read.ptr.toInt.toNat data }
  { s with
    buffer := buffer.markRead (UInt64.ofNat written)
    file := s.file ++ data.take written }

def visit (written : ℕ) : CryptoSession × EncryptedLog :=
  if (s.blocks minBlocksize).available ≥ minAvailable type || s.buffer.getReadPtr.isPart then
    ({ session with position := session.position + (s.blocks minBlocksize).available.toNat },
      s.writeBlocks cipher minBlocksize session written)
  else (session, s)

def step : CryptoSession × EncryptedLog → LogEvent → CryptoSession × EncryptedLog
  | (session, s), .write message dropout =>
    let r := s.buffer.write message dropout
    (session, { s with buffer := r.1, accepted := s.accepted ++ r.2 })
  | (session, s), .visit written => s.visit cipher minBlocksize type session written
  | (session, s), .otherStart => ({ key := session.key + 1 }, s)
  | (session, s), .otherVisit encrypted =>
    ({ session with position := session.position + encrypted }, s)

/-- The file takes everything. -/
def visitWhole : CryptoSession × EncryptedLog :=
  s.visit cipher minBlocksize type session (s.blocks minBlocksize).available.toNat

/-- The pass over the buffers that are left, with the number of iterations to come. -/
def pass : ℕ → CryptoSession → List (LogType × EncryptedLog) → Option (List EncryptedLog)
  | _, _, [] => some []
  | 0, _, _ :: _ => none
  | fuel + 1, session, (type, s) :: rest =>
    let r := s.visitWhole cipher minBlocksize type session
    if s.buffer.getReadPtr.isPart then pass fuel r.1 ((type, r.2) :: rest)
    else (pass fuel r.1 rest).map (r.2 :: ·)

variable {minBlocksize type s} {pending : Bytes} (h : Contents s.buffer pending)
include h

/-- The blocks go encrypted from the buffer to the file. -/
theorem writeBlocks_spec {n : ℕ} (hn : (s.blocks minBlocksize).available.toNat = n) :
    let s' := s.writeBlocks cipher minBlocksize session n
    Contents s'.buffer (pending.drop n) ∧ s'.accepted = s.accepted ∧
      s'.file = s.file ++ ((pending.take n).mapIdx fun i =>
        cipher session.key (i + session.position)) ∧
      n ≤ pending.length := by
  obtain ⟨hread, hle, hend⟩ := h.getReadPtr
  have hptr : (s.blocks minBlocksize).ptr.toInt = s.buffer.readPos := hread
  have hblocks : n ≤ s.buffer.getReadPtr.available.toNat := by
    rw [← hn]
    exact (Nat.mod_le ..).trans (Nat.div_mul_le_self ..)
  have hbytes := h.bytesAt hptr (by omega) (by omega)
  rw [hn] at hbytes
  have hdata : ((pending.take n).mapIdx fun i =>
      cipher session.key (i + session.position)).length = n := by
    rw [length_mapIdx]
    exact length_take_of_le (by omega)
  have hgone := (h.overwrite (hdata.trans_le (by omega)) (by omega)).markRead
    (n := UInt64.ofNat n) (by simp; omega)
  have hn' : (UInt64.ofNat n).toNat = n := by rw [← hn, UInt64.ofNat_toNat]
  rw [hn', hdata, drop_left' hdata] at hgone
  simp only [writeBlocks, hbytes, hptr, Int.toNat_natCast, take_of_length_le hdata.le]
  exact ⟨hgone, trivial, trivial, by omega⟩

omit h

/-! ## The file -/

variable (minBlocksize)

/-- The file takes everything, and if that is anything, the session has the key of the log and has
come to its next byte. -/
def Whole (s : CryptoSession × EncryptedLog) : LogEvent → Prop
  | .visit written => written = (s.2.blocks minBlocksize).available.toNat ∧
    (0 < written → s.1 = { key := 0, position := s.2.file.length })
  | _ => True

variable (s) in
/-- The file has the bytes that were accepted first, encrypted, and the buffer the others. -/
def Inv : Prop :=
  ∃ written pending, Contents s.buffer pending ∧ s.accepted = written ++ pending ∧
    s.file = written.mapIdx (cipher 0)

variable {cipher minBlocksize}

theorem Inv.step {s : CryptoSession × EncryptedLog} {e : LogEvent} (h : s.2.Inv cipher)
    (hwhole : Whole minBlocksize s e) : (step cipher minBlocksize type s e).2.Inv cipher := by
  obtain ⟨session, s⟩ := s
  obtain ⟨written, pending, hcontents, haccepted, hfile⟩ : s.Inv cipher := h
  cases e with
  | write message dropout =>
    refine ⟨written, _, (hcontents.write message dropout).1, ?_, hfile⟩
    simp [EncryptedLog.step, haccepted]
  | visit n =>
    obtain ⟨hn, hsession⟩ := hwhole
    obtain ⟨hgone, hkept, htaken, -⟩ := writeBlocks_spec cipher session hcontents hn.symm
    dsimp only [EncryptedLog.step, visit]
    split_ifs
    · refine ⟨written ++ pending.take n, pending.drop n, hgone, ?_, ?_⟩
      · rw [hkept, haccepted, append_assoc, take_append_drop]
      · rw [htaken, hfile, mapIdx_append]
        rcases Nat.eq_zero_or_pos n with rfl | hpos
        · simp
        · rw [show session = _ from hsession hpos, hfile, length_mapIdx]
    · exact ⟨written, pending, hcontents, haccepted, hfile⟩
  | otherStart | otherVisit => exact ⟨written, pending, hcontents, haccepted, hfile⟩

def startLog (size : UInt64) (uninitialized : ByteMemory) : EncryptedLog where
  buffer := (start size uninitialized).buffer

/-- A log that is started has nothing yet. -/
theorem startLog_inv {size : UInt64} {uninitialized : ByteMemory} (hpos : 0 < size)
    (hsize : size.toNat < 2 ^ 31) : (startLog size uninitialized).Inv cipher :=
  ⟨[], [], ⟨hsize, hpos, rfl, Nat.zero_le _, ByteRing.holds_nil _ _ _⟩, rfl, rfl⟩

variable (cipher minBlocksize type)

/-- **The file is the beginning of the accepted messages, each byte encrypted at its place**, if the
file always takes everything and the session of the cipher is at the place of the bytes. -/
theorem encrypted_file_is_prefix {size : UInt64} (hpos : 0 < size) (hsize : size.toNat < 2 ^ 31)
    (uninitialized : ByteMemory) (es : List LogEvent)
    (hes : Along (step cipher minBlocksize type) (Whole minBlocksize)
      ({}, startLog size uninitialized) es) :
    Always (step cipher minBlocksize type) (fun s => s.2.file <+: s.2.accepted.mapIdx (cipher 0))
      ({}, startLog size uninitialized) es := by
  refine always_of_invariant (I := fun s => s.2.Inv cipher) (fun s e => Inv.step) ?_
    (startLog_inv hpos hsize) hes
  rintro s ⟨written, pending, -, haccepted, hfile⟩
  rw [hfile, haccepted, mapIdx_append]
  exact prefix_append ..

/-- Adds the number of the key and that of the byte to a byte. -/
def addKey (key i : ℕ) (byte : UInt8) : UInt8 := byte + UInt8.ofNat (key + i)

/-- A byte remains for the second visit; then the other log is started. -/
theorem encrypted_file_is_prefix_two_visits :
    Always (step addKey 2 .mission) (fun s => s.2.file <+: s.2.accepted.mapIdx (addKey 0))
      ({}, startLog 8 fun _ => 0) [.write [5, 5, 5, 5, 5] none, .visit 4, .write [6] none, .visit 2,
        .otherStart, .otherVisit 2] :=
  encrypted_file_is_prefix _ _ _ (by decide) (by decide) _ _
    ⟨trivial, ⟨by decide +kernel, fun _ => rfl⟩, trivial, ⟨by decide +kernel, fun _ => rfl⟩,
      trivial, trivial, trivial⟩

/-- The second byte is encrypted twice, or after one of the other log. -/
theorem encrypted_file_not_prefix :
    ¬Always (step addKey 1 .mission) (fun s => s.2.file <+: s.2.accepted.mapIdx (addKey 0))
        ({}, startLog 8 fun _ => 0) [.write [5, 5] none, .visit 1, .visit 1] ∧
      ¬Always (step addKey 1 .mission) (fun s => s.2.file <+: s.2.accepted.mapIdx (addKey 0))
        ({}, startLog 8 fun _ => 0)
        [.write [5] none, .visit 1, .otherVisit 1, .write [5] none, .visit 1] :=
  ⟨fun h => absurd h.last (by decide +kernel), fun h => absurd h.last (by decide +kernel)⟩

/-! ## The pass -/

/-- The number of bytes before the end of the memory, if they go around it. -/
def tail (s : EncryptedLog) : ℕ := s.buffer.count.toNat - s.buffer.head.toNat

def PassEnds (session : CryptoSession) (logs : List (LogType × EncryptedLog)) : Prop :=
  ∃ fuel, (pass cipher minBlocksize fuel session logs).isSome

include h

theorem getReadPtr_of_tail : s.buffer.getReadPtr.isPart = decide (0 < s.tail) ∧
    (0 < s.tail → s.buffer.getReadPtr.available.toNat = s.tail) := by
  obtain ⟨-, hpart, havailable⟩ := getReadPtr_spec h.size_lt h.head_lt h.count_le
  simp only [hpart, havailable, tail, Nat.sub_pos_iff_lt]
  exact ⟨trivial, fun htail => if_pos htail⟩

/-- Less than a block is left before the end. -/
theorem tail_visitWhole (htail : 0 < s.tail) :
    let s' := (s.visitWhole cipher minBlocksize type session).2
    (∃ pending, Contents s'.buffer pending) ∧ s'.tail = s.tail % minBlocksize.toNat := by
  obtain ⟨hpart, havailable⟩ := getReadPtr_of_tail h
  have hlt := s.buffer.count.toNat_lt
  have hmod := Nat.div_add_mod' s.tail minBlocksize.toNat
  have hblocks : (s.blocks minBlocksize).available.toNat =
      s.tail / minBlocksize.toNat * minBlocksize.toNat := by
    rw [blocks, UInt64.toNat_mul, UInt64.toNat_div, havailable htail]
    unfold tail at *
    omega
  obtain ⟨hgone, -, -, hle⟩ := writeBlocks_spec cipher session h hblocks
  have hcount := hgone.count_eq
  rw [length_drop, ← h.count_eq] at hcount
  simp only [visitWhole, visit, hpart, htail, decide_true, Bool.or_true, if_true, hblocks]
  refine ⟨⟨_, hgone⟩, ?_⟩
  change _ - s.buffer.head.toNat = _
  unfold tail at *
  omega

/-- The pass leaves a buffer exactly if there are whole blocks before the end. -/
theorem passEnds_cons {rest : List (LogType × EncryptedLog)} {C : Prop}
    (hrest : ∀ session, PassEnds cipher minBlocksize session rest ↔ C) :
    PassEnds cipher minBlocksize session ((type, s) :: rest) ↔
      minBlocksize.toNat ∣ s.tail ∧ C := by
  constructor
  · rintro ⟨fuel, hfuel⟩
    induction fuel generalizing s session pending with
    | zero => cases hfuel
    | succ fuel ih =>
      rw [pass, (getReadPtr_of_tail h).1] at hfuel
      simp only [decide_eq_true_iff] at hfuel
      split_ifs at hfuel with htail
      · obtain ⟨⟨pending, hcontents⟩, hleft⟩ :=
          tail_visitWhole cipher minBlocksize type session h htail
        simpa only [hleft, Nat.dvd_mod_iff (Nat.dvd_refl _)] using ih _ hcontents hfuel
      · exact ⟨by simp [Nat.eq_zero_of_not_pos htail], (hrest _).mp ⟨fuel, by simpa using hfuel⟩⟩
  · rintro ⟨hdvd, hC⟩
    by_cases htail : 0 < s.tail
    · obtain ⟨⟨pending, hcontents⟩, hleft⟩ :=
        tail_visitWhole cipher minBlocksize type session h htail
      rw [Nat.mod_eq_zero_of_dvd hdvd] at hleft
      obtain ⟨fuel, hfuel⟩ := (hrest _).mpr hC
      refine ⟨fuel + 2, ?_⟩
      simpa [pass, getReadPtr_of_tail h, htail, getReadPtr_of_tail hcontents, hleft] using hfuel
    · obtain ⟨fuel, hfuel⟩ := (hrest _).mpr hC
      exact ⟨fuel + 1, by simpa [pass, getReadPtr_of_tail h, htail] using hfuel⟩

omit h

/-- The session does not matter for the pass. -/
theorem passEnds_iff {logs : List (LogType × EncryptedLog)}
    (hlogs : ∀ s ∈ logs, ∃ pending, Contents s.2.buffer pending) (session : CryptoSession) :
    PassEnds cipher minBlocksize session logs ↔ ∀ s ∈ logs, minBlocksize.toNat ∣ s.2.tail := by
  induction logs generalizing session with
  | nil => exact iff_of_true ⟨0, rfl⟩ (by simp)
  | cons s logs ih =>
    rw [forall_mem_cons] at hlogs ⊢
    obtain ⟨⟨pending, h⟩, hlogs⟩ := hlogs
    exact passEnds_cons _ _ _ _ h (ih hlogs)

/-- **The pass ends exactly if the bytes before the end of each memory are whole blocks.** -/
theorem pass_ends_iff {logs : List (LogType × EncryptedLog)}
    (hlogs : ∀ s ∈ logs, ∃ pending, Contents s.2.buffer pending) (session : CryptoSession) :
    PassEnds cipher minBlocksize session logs ↔ ∀ s ∈ logs, s.2.buffer.getReadPtr.isPart = true →
      minBlocksize.toNat ∣ s.2.buffer.getReadPtr.available.toNat := by
  rw [passEnds_iff _ _ hlogs]
  refine forall₂_congr fun s hs => ?_
  obtain ⟨pending, h⟩ := hlogs s hs
  rw [(getReadPtr_of_tail h).1]
  by_cases htail : 0 < s.2.tail
  · simp [htail, (getReadPtr_of_tail h).2 htail]
  · simp [Nat.eq_zero_of_not_pos htail]

/-- A message that goes around the end of the buffer of the mission log, behind four blocks. -/
def aroundTheEnd : EncryptedLog :=
  (after (step addKey 64 .mission) ({}, startLog 300 fun _ => 0)
    [.write (replicate 256 1) none, .visit 256, .write (replicate 50 2) none]).2

theorem aroundTheEnd_contents : ∃ pending, Contents aroundTheEnd.buffer pending := by
  have hinv : aroundTheEnd.Inv addKey := after_of_invariant
    (I := fun s : CryptoSession × EncryptedLog => s.2.Inv addKey)
    (fun _ _ => Inv.step) (startLog_inv (by decide) (by decide))
    ⟨trivial, ⟨by decide +kernel, fun _ => rfl⟩, trivial, trivial⟩
  obtain ⟨_, pending, h, -⟩ := hinv
  exact ⟨pending, h⟩

theorem pass_ends_iff_aroundTheEnd : PassEnds addKey 22 {} [(.mission, aroundTheEnd)] :=
  (pass_ends_iff _ _ (by simpa using aroundTheEnd_contents) _).mpr (by decide +kernel)

/-- There are 44 bytes before the end, less than a block. -/
theorem pass_never_ends : aroundTheEnd.buffer.shouldRun = true ∧
    ¬PassEnds addKey 64 {} [(.mission, aroundTheEnd), (.full, startLog 8192 fun _ => 0)] := by
  have hlogs : ∀ s ∈ [(LogType.mission, aroundTheEnd), (.full, startLog 8192 fun _ => 0)],
      ∃ pending, Contents s.2.buffer pending := by
    have hfull : Inv addKey (startLog 8192 fun _ => 0) := startLog_inv (by decide) (by decide)
    obtain ⟨_, pending, hcontents, -⟩ := hfull
    simpa using ⟨aroundTheEnd_contents, pending, hcontents⟩
  refine ⟨by decide +kernel, fun h => ?_⟩
  have htail := (passEnds_iff addKey 64 hlogs {}).mp h (.mission, aroundTheEnd) mem_cons_self
  revert htail
  decide +kernel

end EncryptedLog

end Px4.Logger
