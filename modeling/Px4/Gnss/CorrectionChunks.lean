import Px4.Gnss.CorrectionStream

/-!
# Corrections in chunks

Each chunk is added, and then messages are taken out and consumed until there is none. The frames
that come out are those of the stream, wherever it was cut.
-/

namespace Px4.Gnss

open StreamFraming CorrectionFramer List

/-- Where the user of a framer is. -/
inductive Phase where
  | idle
  /-- about to call `getNextMessage` -/
  | searching
  /-- with a message that is still to be consumed -/
  | holding (frameLen : ℕ) (protocol : CorrectionProtocol)
deriving DecidableEq

/-- The user of a framer: the chunks to come, the bytes added, and the frames so far. -/
structure Session (spartn : Bool) where
  todo : List Bytes
  framer : CorrectionFramer spartn := .init spartn
  phase : Phase := .idle
  added : ℕ := 0
  returned : List (Bytes × CorrectionProtocol) := []

namespace Session

variable {spartn : Bool}

def step (s : Session spartn) : Session spartn :=
  match s.phase with
  | .idle =>
    match s.todo with
    | [] => s
    | chunk :: todo =>
      { s with
        todo := todo
        framer := (s.framer.addData chunk).1
        phase := .searching
        added := s.added + (s.framer.addData chunk).2 }
  | .searching =>
    match s.framer.getNextMessage with
    | (framer, none) => { s with framer, phase := .idle }
    | (framer, some (frameLen, protocol)) =>
      { s with framer, phase := .holding frameLen protocol }
  | .holding frameLen protocol =>
    { s with
      framer := s.framer.consumeMessage frameLen
      phase := .searching
      returned := s.returned ++ [(s.framer.buffer.take frameLen, protocol)] }

def after (spartn : Bool) (chunks : List Bytes) (n : ℕ) : Session spartn :=
  step^[n] { todo := chunks }

/-- What has been returned and what is buffered are the frames of what was fed. -/
structure Inv (chunks : List Bytes) (s : Session spartn) : Prop where
  fed : ∃ fed, chunks = fed ++ s.todo ∧ s.added = fed.flatten.length ∧
    frames (verdict spartn) fed.flatten =
      (s.returned ++ (frames (verdict spartn) s.framer.buffer).1,
        (frames (verdict spartn) s.framer.buffer).2)
  balance_eq : .ofNat s.added = s.framer.balance
  idle : s.phase = .idle → verdict spartn s.framer.buffer = .undecided
  holding : ∀ {len protocol}, s.phase = .holding len protocol →
    verdict spartn s.framer.buffer = .frame len protocol

section Steps

variable {chunks : List Bytes} {s : Session spartn}

theorem inv_start (spartn chunks) :
    Inv chunks ({ todo := chunks } : Session spartn) where
  fed := ⟨[], rfl, rfl, rfl⟩
  balance_eq := rfl
  idle := fun _ => rfl
  holding := nofun

section

variable (h : Inv chunks s)
include h

variable {chunk : Bytes} {len : ℕ} {protocol : CorrectionProtocol}

theorem Inv.accepts (hidle : s.phase = .idle)
    (hchunk : chunk.length ≤ maxFrameLen spartn) : s.framer.toCopy chunk = chunk.length := by
  have hbuffer := verdict_undecided (h.idle hidle)
  unfold toCopy bufferSize
  omega

theorem Inv.add (hidle : s.phase = .idle) {todo} (htodo : s.todo = chunk :: todo)
    (hchunk : chunk.length ≤ maxFrameLen spartn) : Inv chunks s.step := by
  have hcopy := h.accepts hidle hchunk
  have hbuffer : (s.framer.addData chunk).1.buffer = s.framer.buffer ++ chunk := by
    rw [addData]
    dsimp only
    rw [hcopy, take_length]
  obtain ⟨fed, hchunks, hadded, hframes⟩ := h.fed
  rw [frames_undecided (h.idle hidle), append_nil] at hframes
  have hstep : s.step = { s with
      todo := todo
      framer := (s.framer.addData chunk).1
      phase := .searching
      added := s.added + (s.framer.addData chunk).2 } := by
    rw [step, hidle, htodo]
  rw [hstep]
  refine ⟨⟨fed ++ [chunk], ?_, ?_, ?_⟩, ?_, Phase.noConfusion, Phase.noConfusion⟩
  · rw [hchunks, htodo, append_assoc]
    rfl
  · rw [flatten_append, flatten_singleton, length_append, ← hadded]
    exact congrArg (s.added + ·) hcopy
  · rw [flatten_append, flatten_singleton, (verdict_stable spartn).frames_append, hframes, hbuffer]
  · rw [UInt32.ofNat_add, h.balance_eq, balance_addData]

theorem Inv.search (hphase : s.phase = .searching) : Inv chunks s.step := by
  have hsearched := s.framer.searched_getNextMessage
  obtain ⟨fed, hchunks, hadded, hframes⟩ := h.fed
  rw [← hsearched.frames_eq] at hframes
  rw [step, hphase]
  dsimp only
  split
  · rename_i framer hnext
    rw [hnext] at hsearched hframes
    exact ⟨⟨fed, hchunks, hadded, hframes⟩, h.balance_eq.trans hsearched.balance_eq.symm,
      fun _ => hsearched.none rfl, nofun⟩
  · rename_i framer len protocol hnext
    rw [hnext] at hsearched hframes
    refine ⟨⟨fed, hchunks, hadded, hframes⟩, h.balance_eq.trans hsearched.balance_eq.symm, nofun,
      fun hholding => ?_⟩
    cases hholding
    exact hsearched.some _ rfl

theorem Inv.consume (hphase : s.phase = .holding len protocol) : Inv chunks s.step := by
  have hframe := h.holding hphase
  have hle := (verdict_frame hframe).2
  obtain ⟨fed, hchunks, hadded, hframes⟩ := h.fed
  rw [(verdict_stable spartn).frames_frame hframe] at hframes
  rw [step, hphase]
  refine ⟨⟨fed, hchunks, hadded, ?_⟩, ?_, nofun, nofun⟩
  · rw [hframes, append_assoc]
    rfl
  · exact h.balance_eq.trans (s.framer.balance_consumeMessage hle).symm

variable (hlen : ∀ chunk ∈ chunks, chunk.length ≤ maxFrameLen spartn)
include hlen

theorem Inv.step : Inv chunks s.step := by
  cases hphase : s.phase with
  | idle =>
    cases htodo : s.todo with
    | nil =>
      rw [Session.step, hphase, htodo]
      exact h
    | cons chunk todo =>
      obtain ⟨fed, hchunks, -⟩ := h.fed
      refine h.add hphase htodo (hlen chunk ?_)
      rw [hchunks, htodo]
      exact mem_append_right _ (mem_cons_self ..)
  | searching => exact h.search hphase
  | holding len protocol => exact h.consume hphase

theorem Inv.iterate (n) : Inv chunks (Session.step^[n] s) := by
  induction n with
  | zero => exact h
  | succ n ih =>
    rw [Function.iterate_succ_apply']
    exact ih.step hlen

end

theorem inv_after (spartn) (hlen : ∀ chunk ∈ chunks, chunk.length ≤ maxFrameLen spartn) (n) :
    Inv chunks (after spartn chunks n) :=
  (inv_start spartn chunks).iterate hlen n

/-! ## The end of the loops -/

/-- The calls until there is no message, at most. -/
def weight (s : Session spartn) : ℕ :=
  2 * s.framer.buffer.length +
    match s.phase with
    | .idle => 0
    | .searching => 2
    | .holding _ _ => 1

theorem Inv.weight_step (h : Inv chunks s) (hphase : s.phase ≠ .idle) :
    s.step.weight < s.weight ∧ s.step.todo = s.todo := by
  cases hcase : s.phase with
  | idle => exact absurd hcase hphase
  | searching =>
    have hle := s.framer.searched_getNextMessage.length_le
    rw [Session.step, hcase]
    dsimp only
    split
    · rename_i framer hnext
      rw [hnext] at hle
      refine ⟨?_, rfl⟩
      simp only [weight, hcase]
      dsimp only at hle
      omega
    · rename_i framer len protocol hnext
      rw [hnext] at hle
      refine ⟨?_, rfl⟩
      simp only [weight, hcase]
      dsimp only at hle
      omega
  | holding len protocol =>
    obtain ⟨hpos, hle⟩ := verdict_frame (h.holding hcase)
    have hbuffer : (s.framer.consumeMessage len).buffer.length = s.framer.buffer.length - len :=
      length_drop
    rw [Session.step, hcase]
    refine ⟨?_, rfl⟩
    simp only [weight, hcase, hbuffer]
    omega

variable (hlen : ∀ chunk ∈ chunks, chunk.length ≤ maxFrameLen spartn)
include hlen

variable {N : ℕ}

theorem Inv.drains :
    ∀ {s : Session spartn}, Inv chunks s → s.weight < N →
      ∃ n, (Session.step^[n] s).phase = .idle ∧ (Session.step^[n] s).todo = s.todo := by
  induction N with
  | zero => exact nofun
  | succ N ih =>
    intro s h hlt
    by_cases hphase : s.phase = .idle
    · exact ⟨0, hphase, rfl⟩
    · obtain ⟨hweight, htodo⟩ := h.weight_step hphase
      obtain ⟨n, hidle, hn⟩ := ih (h.step hlen) (by omega)
      exact ⟨n + 1, hidle, hn.trans htodo⟩

theorem Inv.ends (todo) :
    ∀ {s : Session spartn}, Inv chunks s → s.todo = todo →
      ∃ n, (Session.step^[n] s).phase = .idle ∧ (Session.step^[n] s).todo = [] := by
  induction todo with
  | nil =>
    intro s h htodo
    obtain ⟨n, hidle, hn⟩ := Inv.drains hlen h (Nat.lt_succ_self _)
    exact ⟨n, hidle, hn.trans htodo⟩
  | cons chunk todo ih =>
    intro s h htodo
    obtain ⟨n, hidle, hn⟩ := Inv.drains hlen h (Nat.lt_succ_self _)
    -- the next chunk is added
    have hnext : (Session.step^[n + 1] s).todo = todo := by
      rw [Function.iterate_succ_apply', Session.step, hidle, hn, htodo]
    obtain ⟨m, hend⟩ := ih (h.iterate hlen (n + 1)) hnext
    rw [← Function.iterate_add_apply] at hend
    exact ⟨m + (n + 1), hend⟩

end Steps

/-- However a stream is cut into chunks that are not longer than a frame: `addData` takes each of
them as a whole, and the loop comes to an end, with the frames of the stream up to where it ends in
the middle of what may be a frame. -/
theorem framing_independent_of_chunks (spartn : Bool) (chunks : List Bytes)
    (hlen : ∀ chunk ∈ chunks, chunk.length ≤ maxFrameLen spartn) :
    (∀ n, (∀ chunk todo, (after spartn chunks n).phase = .idle →
        (after spartn chunks n).todo = chunk :: todo →
          ((after spartn chunks n).framer.addData chunk).2 = chunk.length) ∧
      .ofNat (after spartn chunks n).added =
        UInt32.ofNat (after spartn chunks n).framer.bufferedBytes +
          (after spartn chunks n).framer.totalFrameBytes +
          (after spartn chunks n).framer.bytesDiscarded +
          (after spartn chunks n).framer.crcErrors) ∧
    ∃ n, (after spartn chunks n).phase = .idle ∧ (after spartn chunks n).todo = [] ∧
      (after spartn chunks n).added = chunks.flatten.length ∧
      ((after spartn chunks n).returned, (after spartn chunks n).framer.buffer) =
        frames (verdict spartn) chunks.flatten ∧
      (frames (final (verdict spartn)) chunks.flatten).1 = (after spartn chunks n).returned ++
        (frames (final (verdict spartn)) (after spartn chunks n).framer.buffer).1 := by
  refine ⟨fun n => ⟨fun chunk todo hidle htodo => ?_, (inv_after spartn hlen n).balance_eq⟩, ?_⟩
  · have h := inv_after spartn hlen n
    obtain ⟨fed, hchunks, -⟩ := h.fed
    refine h.accepts hidle (hlen chunk ?_)
    rw [hchunks, htodo]
    exact mem_append_right _ (mem_cons_self ..)
  · obtain ⟨n, hidle, htodo⟩ := Inv.ends hlen chunks (inv_start spartn chunks) rfl
    have h := inv_after spartn hlen n
    obtain ⟨fed, hchunks, hadded, hframes⟩ := h.fed
    obtain rfl : chunks = fed := hchunks.trans (htodo ▸ append_nil fed)
    rw [frames_undecided (h.idle hidle), append_nil] at hframes
    have hfinal := (verdict_stable spartn).frames_final chunks.flatten
    rw [hframes] at hfinal
    exact ⟨n, hidle, htodo, hadded, hframes.symm, hfinal⟩

/-- An empty RTCM3 message in three chunks, with a byte before it. -/
def messageInChunks : List Bytes := [[0x00, 0xD3], [0x00, 0x00, 0x47], [0xEA, 0x4B]]

theorem framing_independent_of_chunks_message :
    (∀ chunk ∈ messageInChunks, chunk.length ≤ maxFrameLen true) ∧
      ∃ n, (after true messageInChunks n).returned =
        [([0xD3, 0x00, 0x00, 0x47, 0xEA, 0x4B], .rtcm3)] := by
  have hlen : ∀ chunk ∈ messageInChunks, chunk.length ≤ maxFrameLen true := by decide
  obtain ⟨-, n, -, -, -, hframes, -⟩ := framing_independent_of_chunks true messageInChunks hlen
  refine ⟨hlen, n, (congrArg Prod.fst hframes).trans ?_⟩
  decide +kernel

/-- A complete message behind what may be the beginning of a longer one. -/
def hiddenMessage : Bytes := [0xD3, 0x03, 0xFF, 0xD3, 0x00, 0x00, 0x47, 0xEA, 0x4B]

/-- At the end of the stream, the message is one of the greedy framing, but it is not returned. -/
theorem message_not_returned :
    (frames (final (verdict false)) hiddenMessage).1 =
        [([0xD3, 0x00, 0x00, 0x47, 0xEA, 0x4B], .rtcm3)] ∧
      ∀ n, (after false [hiddenMessage] n).returned = [] := by
  refine ⟨by decide +kernel, fun n => ?_⟩
  have hlen : ∀ chunk ∈ [hiddenMessage], chunk.length ≤ maxFrameLen false := by decide
  have hnone : (frames (verdict false) hiddenMessage).1 = [] := by decide +kernel
  obtain ⟨fed, hchunks, -, hframes⟩ := (inv_after false hlen n).fed
  -- what has been fed is nothing or all of it
  have hfed : (frames (verdict false) fed.flatten).1 = [] := by
    cases fed with
    | nil => rfl
    | cons chunk fed =>
      obtain ⟨rfl, hrest⟩ := cons.inj hchunks
      obtain ⟨rfl, -⟩ := append_eq_nil_iff.mp hrest.symm
      simpa using hnone
  rw [hframes] at hfed
  exact (append_eq_nil_iff.mp hfed).1

end Session

end Px4.Gnss
