import Mathlib.Data.List.Basic

/-!
# Framing of a stream

A probe looks at what has arrived of a stream from some position on, and says whether a frame begins
there, or that it cannot tell yet. Framing emits the frames, drops one element where none begins,
and stops where the probe cannot tell.
-/

namespace StreamFraming

open List

variable {α κ : Type*}

/-- What a probe says of a position; a frame has a length and a kind. -/
inductive Verdict (κ : Type*) where
  | undecided
  | reject
  | frame (len : ℕ) (kind : κ)

/-- A frame has arrived completely, and nothing is decided about nothing. -/
structure Sound (probe : List α → Verdict κ) : Prop where
  nil : probe [] = .undecided
  frame : ∀ {b len kind}, probe b = .frame len kind → 0 < len ∧ len ≤ b.length

/-- What has been decided stays so when more arrives. -/
structure Stable (probe : List α → Verdict κ) : Prop extends Sound probe where
  append : ∀ {b}, probe b ≠ .undecided → ∀ t, probe (b ++ t) = probe b

/-- Framing in at most that many rounds, with what is left. -/
def scan (probe : List α → Verdict κ) : ℕ → List α → List (List α × κ) × List α
  | 0, b => ([], b)
  | rounds + 1, b =>
    match probe b with
    | .undecided => ([], b)
    | .reject => scan probe rounds b.tail
    | .frame len kind =>
      ((b.take len, kind) :: (scan probe rounds (b.drop len)).1, (scan probe rounds (b.drop len)).2)

/-- The frames of a stream, and what is left at the position where framing stops. -/
def frames (probe : List α → Verdict κ) (b : List α) : List (List α × κ) × List α :=
  scan probe b.length b

/-- A probe for a stream that has come to its end: no frame begins where it could not tell. -/
def final (probe : List α → Verdict κ) (b : List α) : Verdict κ :=
  match probe b with
  | .undecided => if b.isEmpty then .undecided else .reject
  | verdict => verdict

section Frames

variable {probe : List α → Verdict κ} {b t : List α} {rounds len : ℕ} {kind : κ}

theorem Sound.ne_nil (h : Sound probe) (hb : probe b ≠ .undecided) : 0 < b.length := by
  rw [length_pos_iff]
  rintro rfl
  exact hb h.nil

theorem Sound.scan_nil (h : Sound probe) : scan probe rounds [] = ([], []) := by
  cases rounds with
  | zero => rfl
  | succ rounds => rw [scan, h.nil]

theorem Sound.scan_eq (h : Sound probe) : ∀ {n m : ℕ} {b : List α}, b.length ≤ n → b.length ≤ m →
    scan probe n b = scan probe m b := by
  intro n
  induction n with
  | zero =>
    intro m b hn _
    obtain rfl := eq_nil_of_length_eq_zero (Nat.le_zero.mp hn)
    rw [h.scan_nil, h.scan_nil]
  | succ n ih =>
    intro m b hn hm
    cases m with
    | zero =>
      obtain rfl := eq_nil_of_length_eq_zero (Nat.le_zero.mp hm)
      rw [h.scan_nil, h.scan_nil]
    | succ m =>
      rw [scan, scan]
      cases hprobe : probe b with
      | undecided => rfl
      | reject =>
        have htail := length_tail (l := b)
        exact ih (by omega) (by omega)
      | frame len kind =>
        obtain ⟨hlen, -⟩ := h.frame hprobe
        have hdrop := length_drop (i := len) (l := b)
        have heq : scan probe n (b.drop len) = scan probe m (b.drop len) :=
          ih (by omega) (by omega)
        dsimp only
        rw [heq]

theorem frames_undecided (hb : probe b = .undecided) : frames probe b = ([], b) := by
  unfold frames
  cases b.length with
  | zero => rfl
  | succ n => rw [scan, hb]

theorem Sound.frames_reject (h : Sound probe) (hb : probe b = .reject) :
    frames probe b = frames probe b.tail := by
  have hround : scan probe b.length b = scan probe (b.length - 1 + 1) b :=
    h.scan_eq (by omega) (by omega)
  unfold frames
  rw [hround, scan, hb, length_tail]

theorem Sound.frames_frame (h : Sound probe) (hb : probe b = .frame len kind) :
    frames probe b = ((b.take len, kind) :: (frames probe (b.drop len)).1,
      (frames probe (b.drop len)).2) := by
  obtain ⟨hlen, hle⟩ := h.frame hb
  have hround : scan probe b.length b = scan probe (b.length - 1 + 1) b :=
    h.scan_eq (by omega) (by omega)
  have hrest : scan probe (b.length - 1) (b.drop len) = frames probe (b.drop len) := by
    have hdrop := length_drop (i := len) (l := b)
    exact h.scan_eq (by omega) (by omega)
  rw [← hrest]
  unfold frames
  rw [hround, scan, hb]

/-- An induction over the positions that framing comes to. -/
theorem Sound.induction (h : Sound probe) {P : List α → Prop}
    (undecided : ∀ b, probe b = .undecided → P b) (reject : ∀ b, probe b = .reject → P b.tail → P b)
    (frame : ∀ b len kind, probe b = .frame len kind → P (b.drop len) → P b) (b : List α) :
    P b := by
  induction hn : b.length using Nat.strongRecOn generalizing b with
  | ind n ih =>
    cases hprobe : probe b with
    | undecided => exact undecided b hprobe
    | reject =>
      have hpos := h.ne_nil (by rw [hprobe]; nofun)
      have htail := length_tail (l := b)
      exact reject b hprobe (ih _ (by omega) _ rfl)
    | frame len kind =>
      obtain ⟨hlen, hle⟩ := h.frame hprobe
      have hdrop := length_drop (i := len) (l := b)
      exact frame b len kind hprobe (ih _ (by omega) _ rfl)

/-- What is left is framed together with what arrives later. -/
theorem Stable.frames_append (h : Stable probe) :
    frames probe (b ++ t) = ((frames probe b).1 ++ (frames probe ((frames probe b).2 ++ t)).1,
      (frames probe ((frames probe b).2 ++ t)).2) := by
  induction b using h.toSound.induction with
  | undecided b hb => rw [frames_undecided hb, nil_append]
  | reject b hb ih =>
    have hdecided : probe b ≠ .undecided := by rw [hb]; nofun
    have htail : (b ++ t).tail = b.tail ++ t :=
      tail_append_of_ne_nil (length_pos_iff.mp (h.ne_nil hdecided))
    have happend : probe (b ++ t) = .reject := (h.append hdecided t).trans hb
    rw [h.frames_reject happend, htail, ih, h.frames_reject hb]
  | frame b len kind hb ih =>
    have hdecided : probe b ≠ .undecided := by rw [hb]; nofun
    have happend : probe (b ++ t) = .frame len kind := (h.append hdecided t).trans hb
    have hle := (h.frame hb).2
    rw [h.frames_frame happend, drop_append_of_le_length hle,
      take_append_of_le_length hle, ih, h.frames_frame hb, cons_append]

theorem Sound.final (h : Sound probe) : Sound (final probe) where
  nil := by
    unfold StreamFraming.final
    rw [h.nil]
    rfl
  frame := by
    intro b len kind hb
    unfold StreamFraming.final at hb
    cases hprobe : probe b with
    | undecided =>
      rw [hprobe] at hb
      dsimp only at hb
      split at hb <;> cases hb
    | reject => rw [hprobe] at hb; cases hb
    | frame len' kind' =>
      rw [hprobe] at hb
      cases hb
      exact h.frame hprobe

/-- The frames so far are the first ones of those that the stream has if it ends here. -/
theorem Sound.frames_final (h : Sound probe) (b : List α) :
    (frames (StreamFraming.final probe) b).1 =
      (frames probe b).1 ++ (frames (StreamFraming.final probe) (frames probe b).2).1 := by
  induction b using h.induction with
  | undecided b hb => rw [frames_undecided hb, nil_append]
  | reject b hb ih =>
    have hfinal : StreamFraming.final probe b = .reject := by
      unfold StreamFraming.final
      rw [hb]
    rw [h.final.frames_reject hfinal, ih, h.frames_reject hb]
  | frame b len kind hb ih =>
    have hfinal : StreamFraming.final probe b = .frame len kind := by
      unfold StreamFraming.final
      rw [hb]
    rw [h.final.frames_frame hfinal, ih, h.frames_frame hb, cons_append]

end Frames

end StreamFraming
