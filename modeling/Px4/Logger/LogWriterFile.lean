import Px4.Common.Run
import Px4.Logger.LogFileBuffer

/-!
# The log file is the stream of the accepted messages

One buffer of `LogWriterFile` in `src/modules/logger/log_writer_file.cpp`: the producer writes
messages to it, and the loop of `run` writes its bytes to the file. Each step holds the lock;
between `visit`, which takes the pointer, and `wrote`, which says how many bytes the file has taken,
the producer may write. `close_file` runs without the lock, but then `write` does nothing and
`start_log` waits, so that it is one step with `reset`. `fsync` is left out.
-/

namespace Px4.Logger

open ByteMemory Int32 List LogFileBuffer Run SizeInt

inductive LogType where
  | full
  | mission

/-- `min_available`: so many bytes are written to the file at once, if no more are to come. -/
def minAvailable : LogType → UInt64
  | .full => 4096
  | .mission => 1

/-- What the writer thread is doing. -/
inductive Phase where
  | idle
  /-- It writes to the file what lies at the pointer; `handed` is what lay there at first. -/
  | writing (read : ReadPtr) (handed : Bytes)

/-- The buffer and the writer thread, with the bytes accepted and the bytes in the file. -/
structure LogWriter where
  buffer : LogFileBuffer
  phase : Phase := .idle
  accepted : Bytes := []
  file : Bytes := []

open LogWriter

/-- A step of the producer or of the writer thread. -/
inductive Event where
  | write (message : Bytes) (dropout : Option UInt16)
  | stop
  | visit
  | wrote (result : ℤ)

/-- The bytes at a pointer. -/
def LogFileBuffer.bytesAt (b : LogFileBuffer) (read : ReadPtr) : Bytes :=
  b.buffer.load read.ptr.toInt.toNat read.available.toNat

/-- After `start_log`. -/
def start (bufferSize : UInt64) (uninitialized : ByteMemory) : LogWriter where
  buffer := { bufferSize, buffer := uninitialized }

/-- The loop of `run` at the buffer: `get_read_ptr`, and what follows until the unlock. -/
def LogWriter.visit (type : LogType) (s : LogWriter) : LogWriter :=
  let read := s.buffer.getReadPtr
  if read.available ≥ minAvailable type || read.isPart ||
      (!s.buffer.shouldRun && decide (read.available > 0)) then
    { s with phase := .writing read (s.buffer.bytesAt read) }
  else if read.available = 0 && !s.buffer.shouldRun then { s with buffer := s.buffer.close }
  else s

/-- What `run` does after `write_to_file`, which has returned `result`. -/
def LogWriter.wrote (s : LogWriter) (read : ReadPtr) (result : ℤ) : LogWriter :=
  let written := ofInt result
  let file := s.file ++ (s.buffer.bytesAt read).take result.toNat
  if 0 ≤ written then
    let buffer := s.buffer.markRead (toSize written)
    if !s.buffer.shouldRun && written = SizeInt.toInt read.available && !read.isPart then
      { s with buffer := buffer.close, phase := .idle, file }
    else { s with buffer, phase := .idle, file }
  else
    { s with buffer := { s.buffer with shouldRun := false }.close, phase := .idle, file }

def LogWriter.step (type : LogType) (s : LogWriter) : Event → LogWriter
  | .write message dropout =>
    let r := s.buffer.write message dropout
    { s with buffer := r.1, accepted := s.accepted ++ r.2 }
  | .stop => { s with buffer := { s.buffer with shouldRun := false } }
  | .visit =>
    match s.phase with
    | .idle => s.visit type
    | .writing .. => s
  | .wrote result =>
    match s.phase with
    | .idle => s
    | .writing read _ => s.wrote read result

/-- The file takes at most the bytes that it is given, or the write fails with `-1`. -/
def Phase.Takes (result : ℤ) : Phase → Prop
  | .idle => True
  | .writing read _ => -1 ≤ result ∧ result ≤ read.available.toNat

instance (result : ℤ) : (phase : Phase) → Decidable (phase.Takes result)
  | .idle => isTrue trivial
  | .writing .. => inferInstanceAs (Decidable (_ ∧ _))

def LogWriter.InScope (s : LogWriter) : Event → Prop
  | .wrote result => s.phase.Takes result
  | _ => True

instance (s : LogWriter) : (e : Event) → Decidable (s.InScope e)
  | .wrote result => inferInstanceAs (Decidable (s.phase.Takes result))
  | .write .. | .stop | .visit => isTrue trivial

/-- The file has the first of the accepted bytes, `_count` is the number of the others until the
file is closed, and the bytes that are being written are still there. -/
structure LogWriter.Ok (s : LogWriter) : Prop where
  file_prefix : s.file <+: s.accepted
  count_eq : s.buffer.isOpen → s.accepted.length = s.file.length + s.buffer.count.toNat
  count_le : s.buffer.count ≤ s.buffer.bufferSize
  handed_eq : ∀ read handed, s.phase = .writing read handed → s.buffer.bytesAt read = handed

/-! ## The invariant -/

/-- The bytes that are not in the file are in the buffer, first those being written. -/
structure LogWriter.Open (size : UInt64) (pending : Bytes) (s : LogWriter) : Prop where
  isOpen : s.buffer.isOpen = true
  bufferSize : s.buffer.bufferSize = size
  contents : Contents s.buffer pending
  accepted : s.accepted = s.file ++ pending
  handed : ∀ read handed, s.phase = .writing read handed →
    read.ptr.toInt = s.buffer.readPos ∧ read.available.toNat ≤ pending.length ∧
      s.buffer.readPos + read.available.toNat ≤ s.buffer.bufferSize.toNat ∧
      handed = pending.take read.available.toNat

/-- The file is closed, and the buffer empty. -/
structure LogWriter.Closed (size : UInt64) (s : LogWriter) : Prop where
  isOpen : s.buffer.isOpen = false
  shouldRun : s.buffer.shouldRun = false
  bufferSize : s.buffer.bufferSize = size
  head : s.buffer.head = 0
  count : s.buffer.count = 0
  phase : s.phase = .idle
  file_prefix : s.file <+: s.accepted

def LogWriter.Inv (size : UInt64) (s : LogWriter) : Prop :=
  (∃ pending, s.Open size pending) ∨ s.Closed size

section Inv

variable {size : UInt64} {pending : Bytes} {s : LogWriter} {b : LogFileBuffer}

theorem Contents.write (h : Contents b pending) (message dropout) :
    let r := b.write message dropout
    Contents r.1 (pending ++ r.2) ∧ r.1.readPos = b.readPos ∧ r.1.bufferSize = b.bufferSize ∧
      r.1.shouldRun = b.shouldRun ∧ r.1.isOpen = b.isOpen := by
  unfold LogFileBuffer.write
  split_ifs with hrun hspace
  · exact ⟨by rwa [append_nil], rfl, rfl, rfl, rfl⟩
  · exact ⟨by rwa [append_nil], rfl, rfl, rfl, rfl⟩
  · rw [h.available] at hspace
    have hle := h.count_le
    have hcount := h.count_eq
    cases dropout with
    | none =>
      have hfits : pending.length + message.length ≤ b.bufferSize.toNat := by
        simp [messageBytes] at hspace
        omega
      exact ⟨h.writeNoCheck hfits, h.writeNoCheck_readPos hfits, by simp, by simp, by simp⟩
    | some duration =>
      have hlen : (messageBytes message (some duration)).length =
          (dropoutMessage duration).length + message.length := length_append
      have hfits : pending.length + (dropoutMessage duration).length ≤ b.bufferSize.toNat := by
        omega
      have hfirst := h.writeNoCheck hfits
      have hfits' : (pending ++ dropoutMessage duration).length + message.length ≤
          (b.writeNoCheck (dropoutMessage duration)).bufferSize.toNat := by
        rw [length_append, bufferSize_writeNoCheck]
        omega
      have hsecond := hfirst.writeNoCheck hfits'
      rw [append_assoc] at hsecond
      refine ⟨hsecond, ?_, by simp, by simp, by simp⟩
      exact (hfirst.writeNoCheck_readPos hfits').trans (h.writeNoCheck_readPos hfits)

theorem LogWriter.Open.write (h : s.Open size pending) (type message dropout) :
    (s.step type (.write message dropout)).Inv size := by
  obtain ⟨hcontents, hpos, hsize, -, hopen⟩ := h.contents.write message dropout
  refine .inl ⟨_, ⟨hopen.trans h.isOpen, hsize.trans h.bufferSize, hcontents, ?_, ?_⟩⟩
  · simp only [LogWriter.step]
    rw [h.accepted, append_assoc]
  · intro read handed hphase
    obtain ⟨hptr, hle, hend, hhanded⟩ := h.handed read handed hphase
    simp only [LogWriter.step]
    rw [hpos, hsize, length_append, take_append_of_le_length hle]
    exact ⟨hptr, hle.trans (Nat.le_add_right ..), hend, hhanded⟩

theorem LogWriter.Open.file_prefix (h : s.Open size pending) : s.file <+: s.accepted :=
  ⟨pending, h.accepted.symm⟩

variable {read : ReadPtr} {e : Event}

/-- The bytes at a pointer to the beginning of the bytes in the buffer. -/
theorem Contents.bytesAt (h : Contents b pending)
    (hptr : read.ptr.toInt = b.readPos) (hle : read.available.toNat ≤ pending.length)
    (hend : b.readPos + read.available.toNat ≤ b.bufferSize.toNat) :
    b.bytesAt read = pending.take read.available.toNat := by
  rw [LogFileBuffer.bytesAt, hptr]
  exact h.holds.load hend hle

section

variable (h : s.Open size pending)
include h

theorem LogWriter.Open.visit (hphase : s.phase = .idle) (type) : (s.visit type).Inv size := by
  obtain ⟨hptr, hle, hend⟩ := h.contents.getReadPtr
  simp only [LogWriter.visit]
  split_ifs with hwrite hclose
  · refine .inl ⟨pending, h.isOpen, h.bufferSize, h.contents, h.accepted, ?_⟩
    intro read handed heq
    obtain ⟨rfl, rfl⟩ := Phase.writing.inj heq
    exact ⟨hptr, hle, hend, h.contents.bytesAt hptr hle hend⟩
  · have hrun : s.buffer.shouldRun = false := by simpa using (Bool.and_eq_true_iff.mp hclose).2
    exact .inr ⟨rfl, hrun, h.bufferSize, rfl, rfl, hphase, h.file_prefix⟩
  · exact .inl ⟨pending, h⟩

theorem LogWriter.Open.toInt_result {handed : Bytes}
    (hphase : s.phase = .writing read handed) {result : ℤ} (hge : -1 ≤ result)
    (hle : result ≤ read.available.toNat) : (ofInt result).toInt = result := by
  obtain ⟨-, -, hend, -⟩ := h.handed read handed hphase
  have hlt := h.contents.size_lt
  have hrange : Int32.size = 2 ^ 32 := rfl
  rw [toInt_ofInt, hrange, Int.bmod]
  split <;> omega

theorem LogWriter.Open.wrote {handed : Bytes} (hphase : s.phase = .writing read handed) {result : ℤ}
    (hge : -1 ≤ result) (hle : result ≤ read.available.toNat) : (s.wrote read result).Inv size := by
  obtain ⟨hptr, havailable, hend, -⟩ := h.handed read handed hphase
  have hbytes := h.contents.bytesAt hptr havailable hend
  have hwritten := h.toInt_result hphase hge hle
  -- the file gets the first bytes of those in the buffer
  have hfile : (s.buffer.bytesAt read).take result.toNat = pending.take result.toNat := by
    rw [hbytes, take_take, Nat.min_eq_left (by omega)]
  have hprefix : s.file ++ pending.take result.toNat <+: s.accepted := by
    rw [h.accepted, prefix_append_right_inj]
    exact take_prefix ..
  simp only [LogWriter.wrote, hfile]
  split_ifs with hok hclose
  · have hrun : s.buffer.shouldRun = false := by simp at hclose; exact hclose.1.1
    exact .inr ⟨rfl, hrun, h.bufferSize, rfl, rfl, rfl, hprefix⟩
  · rw [le_iff_toInt_le, hwritten] at hok
    have hn : (toSize (ofInt result)).toNat = result.toNat := by
      have := toNat_toSize_of_nonneg (hok.trans_eq hwritten.symm)
      omega
    have hcontents := h.contents.markRead (n := toSize (ofInt result)) (by omega)
    rw [hn] at hcontents
    refine .inl ⟨_, h.isOpen, h.bufferSize, hcontents, ?_, nofun⟩
    rw [h.accepted, append_assoc, take_append_drop]
  · exact .inr ⟨rfl, rfl, h.bufferSize, rfl, rfl, rfl, hprefix⟩

end

theorem LogWriter.Closed.getReadPtr (h : s.Closed size) : s.buffer.getReadPtr = ⟨0, 0, false⟩ := by
  rw [LogFileBuffer.getReadPtr, h.head, h.count]
  rfl

theorem LogWriter.Closed.visit (h : s.Closed size) (type) : (s.visit type).Inv size := by
  have hmin : ¬(0 : UInt64) ≥ minAvailable type := by cases type <;> decide
  simp only [LogWriter.visit, h.getReadPtr, h.shouldRun, hmin]
  exact .inr { h with isOpen := rfl, head := rfl, count := rfl }

theorem LogWriter.Open.step (h : s.Open size pending) (type : LogType)
    (he : s.InScope e) : (s.step type e).Inv size := by
  cases e with
  | write message dropout => exact h.write type message dropout
  | stop =>
    have hcontents := h.contents
    exact .inl ⟨pending, h.isOpen, h.bufferSize, { hcontents with }, h.accepted, h.handed⟩
  | visit =>
    simp only [LogWriter.step]
    rcases hphase : s.phase with _ | ⟨read, handed⟩
    · exact h.visit hphase type
    · exact .inl ⟨pending, h⟩
  | wrote result =>
    simp only [LogWriter.InScope, Phase.Takes] at he
    simp only [LogWriter.step]
    rcases hphase : s.phase with _ | ⟨read, handed⟩
    · exact .inl ⟨pending, h⟩
    · rw [hphase] at he
      exact h.wrote hphase he.1 he.2

theorem LogWriter.Closed.step (h : s.Closed size) (type e) : (s.step type e).Inv size := by
  cases e with
  | write message dropout =>
    have hwrite : s.buffer.write message dropout = (s.buffer, []) := by
      simp [LogFileBuffer.write, h.shouldRun]
    simp only [LogWriter.step, hwrite, append_nil]
    exact .inr h
  | stop => exact .inr { h with shouldRun := rfl }
  | visit =>
    simp only [LogWriter.step, h.phase]
    exact h.visit type
  | wrote result =>
    simp only [LogWriter.step, h.phase]
    exact .inr h

variable {type : LogType}

theorem LogWriter.step_inv (h : s.Inv size) (he : s.InScope e) : (s.step type e).Inv size := by
  rcases h with ⟨pending, h⟩ | h
  · exact h.step type he
  · exact h.step type e

theorem LogWriter.Inv.ok (h : s.Inv size) : s.Ok := by
  rcases h with ⟨pending, h⟩ | h
  · refine ⟨h.file_prefix, fun _ => ?_, h.contents.count_le, fun read handed hphase => ?_⟩
    · rw [h.accepted, length_append, h.contents.count_eq]
    · obtain ⟨hptr, hle, hend, rfl⟩ := h.handed read handed hphase
      exact h.contents.bytesAt hptr hle hend
  · refine ⟨h.file_prefix, fun hopen => ?_, ?_, fun read handed hphase => ?_⟩
    · rw [h.isOpen] at hopen
      cases hopen
    · rw [h.count]
      exact Nat.zero_le _
    · rw [h.phase] at hphase
      cases hphase

theorem start_inv (hpos : 0 < size) (hsize : size.toNat < 2 ^ 31) (uninitialized) :
    (start size uninitialized).Inv size :=
  .inl ⟨[], rfl, rfl, ⟨hsize, hpos, rfl, Nat.zero_le _, ByteRing.holds_nil _ _ _⟩, rfl, nofun⟩

/-- Neither the log is stopped nor a write fails. -/
def Event.Calm : Event → Prop
  | .stop => False
  | .wrote result => 0 ≤ result
  | _ => True

/-- The file stays open until the log is stopped or a write fails. -/
theorem LogWriter.Open.running (h : s.Open size pending) (hrun : s.buffer.shouldRun)
    (he : s.InScope e) (hcalm : e.Calm) :
    (s.step type e).buffer.isOpen ∧ (s.step type e).buffer.shouldRun := by
  cases e with
  | write message dropout =>
    obtain ⟨-, -, -, hshould, hopen⟩ := h.contents.write message dropout
    exact ⟨hopen.trans h.isOpen, hshould.trans hrun⟩
  | stop => exact hcalm.elim
  | visit =>
    simp only [LogWriter.step, LogWriter.visit, hrun]
    split
    · split_ifs <;> simp_all [h.isOpen]
    · exact ⟨h.isOpen, hrun⟩
  | wrote result =>
    simp only [LogWriter.InScope, Phase.Takes] at he
    simp only [LogWriter.step]
    rcases hphase : s.phase with _ | ⟨read, handed⟩
    · exact ⟨h.isOpen, hrun⟩
    rw [hphase] at he
    have hok : 0 ≤ ofInt result := by
      rw [le_iff_toInt_le, h.toInt_result hphase he.1 he.2]
      exact hcalm
    simp only [LogWriter.wrote, hrun, hok, if_true]
    exact ⟨h.isOpen, hrun⟩

end Inv

/-- In every run of the producer and the writer thread: at any time the file is the beginning of the
accepted messages, `_count` is the number of the bytes that are missing, and the producer does not
overwrite the bytes that are being written. The file is open until the log is stopped or a write
fails. -/
theorem log_file_is_prefix {size : UInt64} (hpos : 0 < size) (hsize : size.toNat < 2 ^ 31)
    (uninitialized : ByteMemory) (type : LogType) (es : List Event)
    (hes : Run.Along (LogWriter.step type) LogWriter.InScope (start size uninitialized) es) :
    Run.Always (LogWriter.step type) LogWriter.Ok (start size uninitialized) es ∧
      ((∀ e ∈ es, e.Calm) →
        (after (LogWriter.step type) (start size uninitialized) es).buffer.isOpen = true) := by
  have hinit := start_inv hpos hsize uninitialized
  refine ⟨always_of_invariant (fun s e => step_inv) (fun s => LogWriter.Inv.ok)
    hinit hes, fun hcalm => ?_⟩
  have hstep : ∀ (s : LogWriter) e,
      s.Inv size ∧ s.buffer.isOpen = true ∧ s.buffer.shouldRun = true →
      s.InScope e ∧ e.Calm → (s.step type e).Inv size ∧
        (s.step type e).buffer.isOpen = true ∧ (s.step type e).buffer.shouldRun = true := by
    rintro s e ⟨hinv, hopen, hrun⟩ ⟨he, hcalm⟩
    refine ⟨step_inv hinv he, ?_⟩
    rcases hinv with ⟨pending, h⟩ | h
    · exact h.running hrun he hcalm
    · rw [h.isOpen] at hopen
      cases hopen
  exact (after_of_invariant hstep ⟨hinit, rfl, rfl⟩ (hes.and (along_of_forall hcalm))).2.1

/-- A message that goes around the end of a buffer of four bytes while the bytes before it are
being written. -/
theorem log_file_is_prefix_around_the_end :
    (0 : UInt64) < 4 ∧ (4 : UInt64).toNat < 2 ^ 31 ∧
      Run.Along (LogWriter.step .mission) LogWriter.InScope (start 4 fun _ => 0)
        [.write [1, 2, 3] none, .visit, .wrote 2, .visit, .write [4, 5, 6] none, .wrote 1, .visit,
          .wrote 1, .visit, .wrote 2] ∧
      Run.Always (LogWriter.step .mission) LogWriter.Ok (start 4 fun _ => 0)
        [.write [1, 2, 3] none, .visit, .wrote 2, .visit, .write [4, 5, 6] none, .wrote 1, .visit,
          .wrote 1, .visit, .wrote 2] := by
  refine ⟨by decide, by decide, ?hes,
    ( log_file_is_prefix (by decide) (by decide) (fun _ => 0) .mission _ ?hes).1⟩
  decide +kernel

/-! ## Buffers that are too large

From `2 ^ 31` bytes on, `get_read_ptr` is wrong. A buffer of one byte more that is full from the
beginning on has its head and its first byte at zero, but the difference of head and count is a
positive `int`. -/

theorem LogWriter.file_wrote {s : LogWriter} {read result} :
    (s.wrote read result).file = s.file ++ (s.buffer.bytesAt read).take result.toNat := by
  simp only [LogWriter.wrote]
  split_ifs <;> rfl

variable {type : LogType} {m : ByteMemory}

theorem LogWriter.visit_of_le {s : LogWriter}
    (h : minAvailable type ≤ s.buffer.getReadPtr.available) :
    s.visit type =
      { s with phase := .writing s.buffer.getReadPtr (s.buffer.bytesAt s.buffer.getReadPtr) } := by
  simp [LogWriter.visit, h]

theorem getReadPtr_of_huge : LogFileBuffer.getReadPtr ⟨2147483649, m, 0, 2147483649, true, true⟩ =
      ⟨2147483647, 2147483649, false⟩ := by
  have hptr : SizeInt.toInt (0 - 2147483649) = 2147483647 := by decide
  have hneg : ¬(2147483647 : Int32) < 0 := by decide
  simp only [LogFileBuffer.getReadPtr, hptr, hneg, if_false]

/-- The first byte of a message that fills the buffer is not the one that comes to the file. -/
theorem log_file_not_prefix_of_huge :
    ∃ (size : UInt64) (es : List Event),
      Run.Along (LogWriter.step .mission) LogWriter.InScope (start size fun _ => 0) es ∧
      (∀ e ∈ es, e.Calm) ∧
      ¬Run.Always (LogWriter.step .mission) LogWriter.Ok (start size fun _ => 0) es := by
  have hzeros : ∀ n k, k < n → ∃ rest : Bytes, rest.length = n ∧ rest[k]? = some 0 :=
    fun n k hk => ⟨replicate n 0, length_replicate, by simp [hk]⟩
  obtain ⟨rest, hlen, hrest⟩ := hzeros 2147483648 2147483646 (by decide)
  have hwrite : (start 2147483649 fun _ => 0).step .mission (.write (1 :: rest) none) =
      ⟨⟨2147483649, store (fun _ => 0) 0 (1 :: rest), 0, 2147483649, true, true⟩, .idle,
        1 :: rest, []⟩ := by
    simp [LogWriter.step, LogFileBuffer.write, writeNoCheck, messageBytes, start, available, hlen]
  refine ⟨2147483649, [.write (1 :: rest) none, .visit, .wrote 1], ?_, by simp [Event.Calm], ?_⟩
  · simp only [Run.Along, hwrite]
    simp only [LogWriter.InScope, LogWriter.step]
    rw [visit_of_le (by rw [getReadPtr_of_huge]; decide)]
    simp only [Phase.Takes, getReadPtr_of_huge]
    decide
  · intro halways
    have hprefix := halways.last.file_prefix
    rw [after_cons, after_cons, after_cons, after_nil, hwrite] at hprefix
    simp only [LogWriter.step] at hprefix
    rw [visit_of_le (by rw [getReadPtr_of_huge]; decide)] at hprefix
    rw [file_wrote, getReadPtr_of_huge, LogFileBuffer.bytesAt] at hprefix
    dsimp only at hprefix
    -- the file has byte `2 ^ 31 - 1` of the message
    have haddr : (2147483647 : Int32).toInt.toNat = 0 + (2147483646 + 1) := by decide
    have hbyte : store (fun _ => 0) 0 (1 :: rest) (0 + (2147483646 + 1)) = 0 := by
      rw [store_add (by rw [length_cons, hlen]; decide)]
      exact (List.getElem?_eq_some_iff.mp hrest).2
    rw [take_load (by decide), haddr, Int.toNat_one, load_one, hbyte] at hprefix
    obtain ⟨tail, htail⟩ := hprefix
    exact absurd (cons.inj htail).1 (by decide)

end Px4.Logger
