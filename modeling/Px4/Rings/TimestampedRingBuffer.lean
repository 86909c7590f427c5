import Mathlib.Algebra.Group.Nat.Defs
import Px4.Common.RecentRing
import Px4.Common.Run

/-!
# Ring buffers of timestamped samples

The two implementations in `src/lib/ringbuffer/TimestampedRingBuffer.hpp`: the one with a static
size, which keeps a head and the number of entries, and the one with a dynamic size, which keeps the
newest and the oldest entry. Both are seen as the list of the stored samples, the newest one first.

The functions `next` and `prev` of the source are those of `RecentRing`, and the slot that the
search looks at in round `i` is `RecentRing.back n newest i`. What is stored in a `uint8_t` is taken
modulo 256.
-/

namespace Px4.Rings.Timestamped

open Function List Nat RecentRing UInt64

/-- A sample: `time_us`, and whatever else it has. -/
structure Sample (β : Type) where
  timeUs : UInt64
  data : β
deriving DecidableEq

variable {β : Type}

/-- The condition of the search. -/
def Sample.matches (timestamp : UInt64) (s : Sample β) : Bool :=
  timestamp ≥ s.timeUs && timestamp < s.timeUs + 100000

/-- A call; the queries are functions of the state. -/
inductive Op (β : Type) where
  | push (sample : Sample β)
  | reset
  | popFirstOlderThan (timestamp : UInt64)

/-- `time_us = 0` in the slots of the ring. -/
def clearTimes (n : ℕ) (buffer : ℕ → Sample β) : ℕ → Sample β := fun i =>
  if i < n then { buffer i with timeUs := 0 } else buffer i

/-! ## Static size -/

/-- `TimestampedRingBuffer<data_type, SIZE>`. -/
structure StaticRing (β : Type) where
  buffer : ℕ → Sample β
  head : ℕ := 0
  entries : ℕ := 0

namespace StaticRing

variable (n : ℕ) (r : StaticRing β)

def push (sample : Sample β) : StaticRing β where
  buffer := update r.buffer r.head sample
  head := next n r.head
  entries := if r.entries < n then r.entries + 1 else r.entries

def getNewestIndex : ℕ := if r.entries > 0 then prev n r.head else 0

def getOldestIndex : ℕ :=
  if r.entries = 0 then 0
  else
    let idx := (r.head + n - r.entries) % 65536
    if idx ≥ n then (idx - n) % 256 else idx % 256

def getNewest : Sample β := r.buffer (r.getNewestIndex n)

def getOldest : Sample β := r.buffer (r.getOldestIndex n)

/-- `pop_first_older_than`, with the sample if it returns `true`. -/
def popFirstOlderThan (timestamp : UInt64) : StaticRing β × Option (Sample β) :=
  let newestIdx := r.getNewestIndex n
  let oldestIdx := r.getOldestIndex n
  match (range r.entries).find? fun i =>
      (r.buffer (back n newestIdx i)).matches timestamp with
  | none => (r, none)
  | some i =>
    let index := back n newestIdx i
    let distance :=
      (if index ≥ oldestIdx then index - oldestIdx else index + n - oldestIdx) % 256
    let discardCount := (distance + 1) % 256
    ({ r with
        buffer := update r.buffer index { r.buffer index with timeUs := 0 }
        entries := if r.entries > discardCount then r.entries - discardCount else 0 },
      some (r.buffer index))

def reset : StaticRing β := { buffer := clearTimes n r.buffer }

def step : Op β → StaticRing β × Option (Sample β)
  | .push sample => (r.push n sample, none)
  | .reset => (r.reset n, none)
  | .popFirstOlderThan timestamp => r.popFirstOlderThan n timestamp

end StaticRing

/-! ## Dynamic size -/

/-- `TimestampedRingBuffer<data_type, 0>` after `allocate`. -/
structure DynamicRing (β : Type) where
  buffer : ℕ → Sample β
  head : ℕ := 0
  tail : ℕ := 0
  firstWrite : Bool := true

namespace DynamicRing

variable (n : ℕ) (r : DynamicRing β)

def push (sample : Sample β) : DynamicRing β :=
  let headNew := if !r.firstWrite then next n r.head else r.head
  let r' := { r with buffer := update r.buffer headNew sample, head := headNew }
  if headNew = r.tail && !r.firstWrite then { r' with tail := next n r.tail }
  else { r' with firstWrite := false }

def getNewest : Sample β := r.buffer r.head

def getOldest : Sample β := r.buffer r.tail

/-- The loop of `pop_first_older_than` from round `i` on: the index of the sample, if found. -/
def search (timestamp : UInt64) : ℕ → ℕ → Option ℕ
  | 0, _ => none
  | rounds + 1, i =>
    let index := back n r.head i
    if (r.buffer index).matches timestamp then some index
    else if index = r.tail then none
    else search timestamp rounds (i + 1)

/-- `pop_first_older_than`, with the sample if it returns `true`. -/
def popFirstOlderThan (timestamp : UInt64) : DynamicRing β × Option (Sample β) :=
  match r.search n timestamp n 0 with
  | none => (r, none)
  | some index =>
    let buffer := update r.buffer index { r.buffer index with timeUs := 0 }
    if index = r.head then
      ({ r with buffer, tail := r.head, firstWrite := true }, some (r.buffer index))
    else ({ r with buffer, tail := next n index }, some (r.buffer index))

def reset : DynamicRing β := { buffer := clearTimes n r.buffer }

def step : Op β → DynamicRing β × Option (Sample β)
  | .push sample => (r.push n sample, none)
  | .reset => (r.reset n, none)
  | .popFirstOlderThan timestamp => r.popFirstOlderThan n timestamp

end DynamicRing

/-! ## The stored samples -/

/-- The sample is at most `timestamp` and less than 100000 older. -/
def Sample.inWindow (timestamp : UInt64) (s : Sample β) : Bool :=
  s.timeUs.toNat ≤ timestamp.toNat && timestamp.toNat < s.timeUs.toNat + 100000

/-- What an operation does to the stored samples, the newest one first. A sample that is popped is
discarded with all the older ones. -/
def Stored.step (n : ℕ) (stored : List (Sample β)) : Op β → List (Sample β) × Option (Sample β)
  | .push sample => ((sample :: stored).take n, none)
  | .reset => ([], none)
  | .popFirstOlderThan timestamp =>
    (stored.takeWhile fun s => !s.inWindow timestamp, stored.find? (Sample.inWindow timestamp))

/-- Timestamps are positive and far from their end; a search is for a large enough one. -/
def Op.InScope : Op β → Prop
  | .push sample => 0 < sample.timeUs ∧ sample.timeUs.toNat + 100000 < 2 ^ 64
  | .reset => True
  | .popFirstOlderThan timestamp => 100000 ≤ timestamp

instance : (op : Op β) → Decidable op.InScope
  | .push _ => inferInstanceAs (Decidable (_ ∧ _))
  | .reset => isTrue trivial
  | .popFirstOlderThan _ => inferInstanceAs (Decidable (_ ≤ _))

/-- A timestamp whose window does not go around the end of the range. -/
def Sample.Bounded (s : Sample β) : Prop := s.timeUs.toNat + 100000 < 2 ^ 64

variable {timestamp : UInt64}

theorem Sample.matches_eq_inWindow {s : Sample β} (h : s.Bounded) :
    s.matches timestamp = s.inWindow timestamp := by
  have hsum : (s.timeUs + 100000).toNat = s.timeUs.toNat + 100000 := by
    exact mod_eq_of_lt h
  simp [Sample.matches, Sample.inWindow, lt_iff_toNat_lt, le_iff_toNat_le, hsum]

section Simulation

variable {n : ℕ} {stored : List (Sample β)}

variable {sample : Sample β} {op : Op β}

theorem bounded_push (hsample : sample.Bounded)
    (h : ∀ s ∈ stored, s.Bounded) : ∀ s ∈ (sample :: stored).take n, s.Bounded := by
  intro s hs
  rcases mem_cons.mp (mem_of_mem_take hs) with rfl | hs
  · exact hsample
  · exact h s hs

/-! ## The static ring holds them -/

structure StaticRing.Represents (n : ℕ) (r : StaticRing β) (stored : List (Sample β)) : Prop where
  head_lt : r.head < n
  entries_eq : r.entries = stored.length
  holds : Holds n r.buffer (prev n r.head) stored
  bounded : ∀ s ∈ stored, s.Bounded

namespace StaticRing.Represents

variable {r : StaticRing β}

variable (h : r.Represents n stored)
include h

theorem getNewestIndex (hne : stored ≠ []) : r.getNewestIndex n = prev n r.head := by
  have hpos := length_pos_iff.mpr hne
  rw [StaticRing.getNewestIndex, if_pos (by rw [h.entries_eq]; exact hpos)]

theorem getOldestIndex (hn : n ≤ 255) (hne : stored ≠ []) :
    r.getOldestIndex n = back n (prev n r.head) (stored.length - 1) := by
  have hpos := length_pos_iff.mpr hne
  have hlt := h.head_lt
  have hle := h.holds.length_le
  have hentries := h.entries_eq
  simp only [StaticRing.getOldestIndex, RecentRing.prev, back]
  split_ifs <;> omega

theorem push (hsample : sample.Bounded) :
    (r.push n sample).Represents n ((sample :: stored).take n) := by
  have hlt := h.head_lt
  have hle := h.holds.length_le
  have hentries := h.entries_eq
  refine ⟨next_lt (zero_lt_of_lt hlt), ?_, ?_, ?_⟩
  · simp only [StaticRing.push, length_take, length_cons]
    split_ifs <;> omega
  · have hpush := h.holds.push (prev_lt hlt) sample
    rw [next_prev hlt] at hpush
    simpa only [StaticRing.push, prev_next hlt] using hpush
  · exact bounded_push hsample h.bounded

theorem reset : (r.reset n).Represents n [] :=
  ⟨zero_lt_of_lt h.head_lt, rfl, holds_nil _ _ _, nofun⟩

variable {k : ℕ}

theorem slot_matches (hk : k < stored.length) :
    (r.buffer (back n (r.getNewestIndex n) k)).matches timestamp =
      stored[k].inWindow timestamp := by
  rw [h.getNewestIndex (ne_nil_of_length_pos (zero_lt_of_lt hk)), h.holds.slot_eq k hk,
    Sample.matches_eq_inWindow (h.bounded _ (getElem_mem hk))]

theorem popFirstOlderThan (hn : n ≤ 255) (timestamp) :
    (r.popFirstOlderThan n timestamp).2 = stored.find? (Sample.inWindow timestamp) ∧
      (r.popFirstOlderThan n timestamp).1.Represents n
        (stored.takeWhile fun s => !s.inWindow timestamp) := by
  have hentries := h.entries_eq
  rcases hfind : stored.find? (Sample.inWindow timestamp) with _ | sample
  · have hnone : (range r.entries).find? (fun i =>
        (r.buffer (back n (r.getNewestIndex n) i)).matches timestamp) = none := by
      rw [find?_range_eq_none]
      intro i hi
      rw [h.slot_matches (hentries ▸ hi)]
      simpa using find?_eq_none.mp hfind _ (getElem_mem _)
    rw [takeWhile_of_none hfind]
    simp only [StaticRing.popFirstOlderThan, hnone, true_and]
    exact h
  · obtain ⟨hwindow, k, hk, rfl, hfirst⟩ := find?_eq_some_iff_getElem.mp hfind
    have hsome : (range r.entries).find? (fun i =>
        (r.buffer (back n (r.getNewestIndex n) i)).matches timestamp) = some k := by
      rw [find?_range_eq_some]
      refine ⟨?_, mem_range.mpr (hentries ▸ hk), fun j hj => ?_⟩
      · rw [h.slot_matches hk]
        exact hwindow
      · rw [h.slot_matches (hj.trans hk)]
        exact hfirst j hj
    have hne := ne_nil_of_length_pos (zero_lt_of_lt hk)
    have hlt := h.head_lt
    have hle := h.holds.length_le
    have hdistance := distance_back (prev n r.head) (by omega : stored.length - 1 < n)
      (by omega : k ≤ stored.length - 1)
    rw [takeWhile_of_first hk hwindow fun j hj => by simpa using hfirst j hj]
    simp only [StaticRing.popFirstOlderThan, hsome]
    simp only [h.getNewestIndex hne, h.getOldestIndex hn hne, hdistance]
    refine ⟨congrArg some (h.holds.slot_eq k hk), hlt, ?_, ?_, ?_⟩
    · have hdiscard : ((stored.length - 1 - k) % 256 + 1) % 256 = stored.length - k := by omega
      rw [length_take]
      simp only [hdiscard, hentries]
      split_ifs <;> omega
    · exact (h.holds.take k).update (by omega) (length_take_le ..) _
    · exact fun s hs => h.bounded s (mem_of_mem_take hs)

end StaticRing.Represents

/-! ## The dynamic ring holds them -/

structure DynamicRing.Represents (n : ℕ) (r : DynamicRing β) (stored : List (Sample β)) : Prop where
  head_lt : r.head < n
  holds : Holds n r.buffer r.head stored
  firstWrite_eq : r.firstWrite = stored.isEmpty
  tail_eq : r.tail = back n r.head (stored.length - 1)
  /-- An empty ring has nothing that is found. -/
  tombstone : stored = [] → (r.buffer r.head).timeUs = 0
  bounded : ∀ s ∈ stored, s.Bounded

namespace DynamicRing

variable {k rounds i : ℕ}

/-- The search finds the first sample that matches before it has looked at the oldest one. -/
theorem search_of_first {r : DynamicRing β} :
    ∀ {rounds i : ℕ}, i ≤ k → k < i + rounds →
      (r.buffer (back n r.head k)).matches timestamp →
      (∀ j, i ≤ j → j < k →
        (r.buffer (back n r.head j)).matches timestamp = false ∧ back n r.head j ≠ r.tail) →
      r.search n timestamp rounds i = some (back n r.head k)
  | 0, i, hik, hk, _, _ => absurd hk (by omega)
  | rounds + 1, i, hik, hk, hmatch, hfirst => by
    rw [search]
    rcases eq_or_lt_of_le hik with rfl | hlt
    · rw [if_pos hmatch]
    · obtain ⟨hno, hne⟩ := hfirst i (le_refl i) hlt
      simp only [hno, Bool.false_eq_true, if_false, if_neg hne]
      exact search_of_first hlt (by omega) hmatch fun j hj => hfirst j (by omega)

theorem search_of_none {r : DynamicRing β} (htail : r.tail = back n r.head k) :
    ∀ {rounds i : ℕ}, i ≤ k →
      (∀ j, i ≤ j → j ≤ k → (r.buffer (back n r.head j)).matches timestamp = false) →
      r.search n timestamp rounds i = none
  | 0, _, _, _ => rfl
  | rounds + 1, i, hik, hnone => by
    rw [search]
    simp only [hnone i (le_refl i) hik, Bool.false_eq_true, if_false]
    split_ifs with h
    · rfl
    · have hne : i ≠ k := fun heq => h (heq ▸ htail.symm)
      exact search_of_none htail (by omega) fun j hj => hnone j (by omega)

namespace Represents

variable {r : DynamicRing β}

variable (h : r.Represents n stored)
include h

theorem push (hsample : sample.Bounded) :
    (r.push n sample).Represents n ((sample :: stored).take n) := by
  have hlt := h.head_lt
  have hle := h.holds.length_le
  have hfirst := h.firstWrite_eq
  have htail := h.tail_eq
  have hbounded := bounded_push (n := n) hsample h.bounded
  cases stored with
  | nil =>
    have htake : [sample].take n = [sample] := take_of_length_le (one_le_of_lt hlt)
    rw [htake] at hbounded ⊢
    simp only [DynamicRing.push, hfirst, isEmpty_nil, Bool.not_true, Bool.and_false,
      Bool.false_eq_true, if_false]
    exact ⟨hlt, holds_singleton (zero_lt_of_lt hlt) .., rfl, htail, nofun, hbounded⟩
  | cons s stored =>
    rw [length_cons] at hle htail
    have hpush := h.holds.push hlt sample
    have hlength : ((sample :: s :: stored).take n).length = min n (stored.length + 2) :=
      length_take ..
    have hne : (sample :: s :: stored).take n ≠ [] :=
      ne_nil_of_length_pos (by omega)
    have hnext := next_lt (i := r.head) (zero_lt_of_lt hlt)
    simp only [DynamicRing.push, hfirst, isEmpty_cons, Bool.not_false, if_true, Bool.and_true,
      decide_eq_true_eq]
    -- The next slot is the one of the oldest sample if and only if all slots are in use.
    by_cases hfull : stored.length + 1 = n
    · have heq : next n r.head = r.tail := by
        rw [htail, ← back_last hlt, ← hfull]
      rw [if_pos heq]
      refine ⟨hnext, hpush, ?_, ?_, fun hnil => absurd hnil hne, hbounded⟩
      · simp [hne]
      · rw [hlength, ← heq, min_eq_left (by omega), back_last hnext]
    · have hne' : next n r.head ≠ r.tail := by
        rw [htail, ← back_last hlt]
        intro heq
        have := back_injective (by omega) (by omega) heq
        omega
      rw [if_neg hne']
      refine ⟨hnext, hpush, ?_, ?_, fun hnil => absurd hnil hne, hbounded⟩
      · simp [hne]
      · rw [hlength, min_eq_right (by omega)]
        exact htail.trans (back_next hlt (by omega)).symm

theorem reset : (r.reset n).Represents n [] := by
  have hn := zero_lt_of_lt h.head_lt
  refine ⟨hn, holds_nil _ _ _, rfl, rfl, fun _ => ?_, nofun⟩
  simp [DynamicRing.reset, clearTimes, hn]

variable {j : ℕ}

/-- The slots from the newest sample to the oldest one; of an empty ring, the one at the head. -/
theorem slot_not_matches (htimestamp : 100000 ≤ timestamp) (hj : j ≤ stored.length - 1)
    (hno : ∀ hj : j < stored.length, stored[j].inWindow timestamp = false) :
    (r.buffer (back n r.head j)).matches timestamp = false := by
  rcases lt_or_ge j stored.length with hlt | hge
  · rw [h.holds.slot_eq j hlt, Sample.matches_eq_inWindow (h.bounded _ (getElem_mem hlt))]
    exact hno hlt
  obtain rfl : j = 0 := by omega
  have hzero := h.tombstone (length_eq_zero_iff.mp (le_zero.mp hge))
  simp only [back_zero, Sample.matches, hzero, UInt64.zero_add, Bool.and_eq_false_iff,
    decide_eq_false_iff_not, UInt64.not_lt]
  exact .inr htimestamp

theorem popFirstOlderThan (htimestamp : 100000 ≤ timestamp) :
    (r.popFirstOlderThan n timestamp).2 = stored.find? (Sample.inWindow timestamp) ∧
      (r.popFirstOlderThan n timestamp).1.Represents n
        (stored.takeWhile fun s => !s.inWindow timestamp) := by
  have hle := h.holds.length_le
  rcases hfind : stored.find? (Sample.inWindow timestamp) with _ | sample
  · have hsearch : r.search n timestamp n 0 = none := by
      refine search_of_none h.tail_eq (zero_le _) fun j _ hj => ?_
      refine h.slot_not_matches htimestamp hj fun hlt => ?_
      simpa using find?_eq_none.mp hfind _ (getElem_mem hlt)
    rw [takeWhile_of_none hfind]
    simp only [DynamicRing.popFirstOlderThan, hsearch, true_and]
    exact h
  · obtain ⟨hwindow, k, hk, rfl, hfirst⟩ := find?_eq_some_iff_getElem.mp hfind
    have hslot := h.holds.slot_eq k hk
    have hsearch : r.search n timestamp n 0 = some (back n r.head k) := by
      refine search_of_first (zero_le k) (by omega) ?_ fun j _ hj => ⟨?_, ?_⟩
      · rw [hslot, Sample.matches_eq_inWindow (h.bounded _ (getElem_mem hk))]
        exact hwindow
      · exact h.slot_not_matches htimestamp (by omega) fun _ => by simpa using hfirst j hj
      · rw [h.tail_eq]
        intro heq
        have := back_injective (by omega) (by omega) heq
        omega
    have hbounded : ∀ s ∈ stored.take k, s.Bounded := fun s hs =>
      h.bounded s (mem_of_mem_take hs)
    have hholds := (h.holds.take k).update (by omega : k < n) (length_take_le ..)
      { r.buffer (back n r.head k) with timeUs := 0 }
    rw [takeWhile_of_first hk hwindow fun j hj => by simpa using hfirst j hj]
    simp only [DynamicRing.popFirstOlderThan, hsearch]
    cases k with
    | zero =>
      simp only [back_zero, if_true] at hslot hholds ⊢
      refine ⟨congrArg some hslot, h.head_lt, hholds, rfl, rfl, fun _ => ?_, hbounded⟩
      simp
    | succ k =>
      have hne : back n r.head (k + 1) ≠ r.head := by
        intro heq
        have := back_injective (by omega) (by omega) (heq.trans back_zero.symm)
        omega
      rw [if_neg hne]
      have hlength : (stored.take (k + 1)).length = k + 1 := by
        rw [length_take]
        omega
      have htake : stored.take (k + 1) ≠ [] := ne_nil_of_length_eq_add_one hlength
      refine ⟨congrArg some hslot, h.head_lt, hholds, ?_, ?_, fun heq => absurd heq htake, hbounded⟩
      · have hstored : stored ≠ [] := ne_nil_of_length_pos (by omega)
        rw [h.firstWrite_eq, isEmpty_eq_false_iff.mpr hstored, isEmpty_eq_false_iff.mpr htake]
      · rw [hlength]
        exact next_back h.head_lt (by omega)

end Represents

end DynamicRing

/-! ## Whole runs -/

theorem StaticRing.step_represents {r : StaticRing β} (hn : n ≤ 255) (h : r.Represents n stored)
    (hop : op.InScope) :
    (r.step n op).2 = (Stored.step n stored op).2 ∧
      (r.step n op).1.Represents n (Stored.step n stored op).1 := by
  cases op with
  | push sample => exact ⟨rfl, h.push hop.2⟩
  | reset => exact ⟨rfl, h.reset⟩
  | popFirstOlderThan timestamp => exact h.popFirstOlderThan hn timestamp

theorem DynamicRing.step_represents {r : DynamicRing β} (h : r.Represents n stored)
    (hop : op.InScope) :
    (r.step n op).2 = (Stored.step n stored op).2 ∧
      (r.step n op).1.Represents n (Stored.step n stored op).1 := by
  cases op with
  | push sample => exact ⟨rfl, h.push hop.2⟩
  | reset => exact ⟨rfl, h.reset⟩
  | popFirstOlderThan timestamp => exact h.popFirstOlderThan hop

end Simulation

/-- The static buffer after these calls; `empty` is the data of an unwritten sample. -/
def StaticRing.after (n : ℕ) (empty : β) (ops : List (Op β)) : StaticRing β :=
  Run.after (fun r op => (r.step n op).1) { buffer := fun _ => ⟨0, empty⟩ } ops

def DynamicRing.after (n : ℕ) (empty : β) (ops : List (Op β)) : DynamicRing β :=
  Run.after (fun r op => (r.step n op).1) { buffer := fun _ => ⟨0, empty⟩ } ops

def Stored.after (n : ℕ) (ops : List (Op β)) : List (Sample β) :=
  Run.after (fun stored op => (Stored.step n stored op).1) [] ops

section Runs

variable {n : ℕ} {ops : List (Op β)}

theorem StaticRing.after_represents (hn : 1 ≤ n) (hn' : n ≤ 255) (empty)
    (hops : ∀ op ∈ ops, op.InScope) :
    (StaticRing.after n empty ops).Represents n (Stored.after n ops) := by
  have hinit : StaticRing.Represents n { buffer := fun _ => ⟨0, empty⟩ } ([] : List (Sample β)) :=
    ⟨hn, rfl, holds_nil _ _ _, nofun⟩
  exact Run.after_of_simulation
    (fun _ _ _ h hop => (StaticRing.step_represents hn' h hop).2) hinit hops

theorem DynamicRing.after_represents (hn : 1 ≤ n) (empty : β) (hops : ∀ op ∈ ops, op.InScope) :
    (DynamicRing.after n empty ops).Represents n (Stored.after n ops) := by
  have hinit : DynamicRing.Represents n { buffer := fun _ => ⟨0, empty⟩ } ([] : List (Sample β)) :=
    ⟨hn, holds_nil _ _ _, rfl, rfl, fun _ => rfl, nofun⟩
  exact Run.after_of_simulation
    (fun _ _ _ h hop => (DynamicRing.step_represents h hop).2) hinit hops

variable {stored : List (Sample β)}

theorem StaticRing.Represents.getNewest {r : StaticRing β}
    (h : r.Represents n stored) (hne : stored ≠ []) : r.getNewest n = stored.head hne := by
  have hslot := h.holds.slot_eq 0 (length_pos_iff.mpr hne)
  rw [back_zero] at hslot
  rw [StaticRing.getNewest, h.getNewestIndex hne, hslot, head_eq_getElem]

theorem StaticRing.Represents.getOldest {r : StaticRing β} (h : r.Represents n stored)
    (hn : n ≤ 255) (hne : stored ≠ []) : r.getOldest n = stored.getLast hne := by
  have hpos := length_pos_iff.mpr hne
  rw [StaticRing.getOldest, h.getOldestIndex hn hne, h.holds.slot_eq _ (by omega),
    getLast_eq_getElem]

theorem DynamicRing.Represents.getNewest {r : DynamicRing β}
    (h : r.Represents n stored) (hne : stored ≠ []) : r.getNewest = stored.head hne := by
  have hslot := h.holds.slot_eq 0 (length_pos_iff.mpr hne)
  rw [back_zero] at hslot
  rw [DynamicRing.getNewest, hslot, head_eq_getElem]

theorem DynamicRing.Represents.getOldest {r : DynamicRing β}
    (h : r.Represents n stored) (hne : stored ≠ []) : r.getOldest = stored.getLast hne := by
  have hpos := length_pos_iff.mpr hne
  rw [DynamicRing.getOldest, h.tail_eq, h.holds.slot_eq _ (by omega), getLast_eq_getElem]

variable {s : Sample β}

/-- What a successful search leaves of the stored samples. -/
theorem Stored.pop_eq_some (h : stored.find? (Sample.inWindow timestamp) = some s) :
    ∃ older, stored = stored.takeWhile (fun s => !s.inWindow timestamp) ++ s :: older := by
  obtain ⟨hwindow, newer, older, rfl, hnewer⟩ := find?_eq_some_iff_append.mp h
  refine ⟨older, ?_⟩
  rw [takeWhile_append_of_pos hnewer, takeWhile_cons_of_neg (by simp [hwindow]), append_nil]

theorem Sample.inWindow_iff {s : Sample β} (h : 100000 ≤ timestamp) :
    s.inWindow timestamp ↔
      timestamp.toNat - 100000 < s.timeUs.toNat ∧ s.timeUs ≤ timestamp := by
  have hle : 100000 ≤ timestamp.toNat := le_iff_toNat_le.mp h
  simp only [Sample.inWindow, Bool.and_eq_true, decide_eq_true_eq, le_iff_toNat_le]
  omega

/-- The two implementations agree. After any calls, whatever call comes next, they return the same
flag and the same sample, and they have the same newest and oldest one. What they return is the
newest stored sample of the window, and then the newer ones are left. -/
theorem implementations_agree (hn : 1 ≤ n) (hn' : n ≤ 255) (empty : β)
    (hops : ∀ op ∈ ops, op.InScope) :
    (∀ op : Op β, op.InScope →
      ((StaticRing.after n empty ops).step n op).2 =
          ((DynamicRing.after n empty ops).step n op).2 ∧
        ((StaticRing.after n empty ops).step n op).2 =
          (Stored.step n (Stored.after n ops) op).2) ∧
    (StaticRing.after n empty ops).entries = (Stored.after n ops).length ∧
    (∀ hne : Stored.after n ops ≠ [],
      (StaticRing.after n empty ops).getNewest n = (Stored.after n ops).head hne ∧
      (DynamicRing.after n empty ops).getNewest = (Stored.after n ops).head hne ∧
      (StaticRing.after n empty ops).getOldest n = (Stored.after n ops).getLast hne ∧
      (DynamicRing.after n empty ops).getOldest = (Stored.after n ops).getLast hne) ∧
    ∀ timestamp s, 100000 ≤ timestamp →
      (Stored.step n (Stored.after n ops) (.popFirstOlderThan timestamp)).2 = some s →
      timestamp.toNat - 100000 < s.timeUs.toNat ∧ s.timeUs ≤ timestamp ∧
      ∃ newer older, Stored.after n ops = newer ++ s :: older ∧
        (∀ s' ∈ newer, ¬(timestamp.toNat - 100000 < s'.timeUs.toNat ∧ s'.timeUs ≤ timestamp)) ∧
        Stored.after n (ops ++ [.popFirstOlderThan timestamp]) = newer := by
  have hstatic := StaticRing.after_represents hn hn' empty hops
  have hdynamic := DynamicRing.after_represents hn empty hops
  refine ⟨fun op hop => ?_, hstatic.entries_eq, fun hne => ?_, fun timestamp s hts hpop => ?_⟩
  · have hout := (StaticRing.step_represents hn' hstatic hop).1
    exact ⟨hout.trans (DynamicRing.step_represents hdynamic hop).1.symm, hout⟩
  · exact ⟨hstatic.getNewest hne, hdynamic.getNewest hne, hstatic.getOldest hn' hne,
      hdynamic.getOldest hne⟩
  · obtain ⟨hlow, hhigh⟩ := (Sample.inWindow_iff hts).mp (find?_some hpop)
    obtain ⟨older, hstored⟩ := Stored.pop_eq_some hpop
    refine ⟨hlow, hhigh, _, older, hstored, fun s' hs' => ?_, ?_⟩
    · rw [← Sample.inWindow_iff hts]
      simpa using mem_takeWhile_imp hs'
    · rw [Stored.after, Run.after_append]
      rfl

/-- A ring of two samples: the second push goes around the end, the third over the oldest sample,
and a search finds the older one of two. -/
theorem implementations_agree_around_the_end :
    ((StaticRing.after 2 'x' [.push ⟨100000, 'a'⟩, .push ⟨200000, 'b'⟩, .push ⟨300000, 'c'⟩]).step 2
      (.popFirstOlderThan 250000)).2 = some ⟨200000, 'b'⟩ ∧
    ((DynamicRing.after 2 'x' [.push ⟨100000, 'a'⟩, .push ⟨200000, 'b'⟩, .push ⟨300000, 'c'⟩]).step
      2 (.popFirstOlderThan 250000)).2 = some ⟨200000, 'b'⟩ := by
  have h := (implementations_agree (n := 2) (by decide) (by decide) 'x'
    (by decide : ∀ op ∈ [Op.push ⟨100000, 'a'⟩, .push ⟨200000, 'b'⟩, .push ⟨300000, 'c'⟩],
      op.InScope)).1 (.popFirstOlderThan 250000) (by decide)
  have hout : (Stored.step 2 (Stored.after 2
      [.push ⟨100000, 'a'⟩, .push ⟨200000, 'b'⟩, .push ⟨300000, 'c'⟩])
      (.popFirstOlderThan 250000)).2 = some ⟨200000, 'b'⟩ := by decide
  exact ⟨h.2.trans hout, h.1.symm.trans (h.2.trans hout)⟩

end Runs

end Px4.Rings.Timestamped
