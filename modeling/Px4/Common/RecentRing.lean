import Mathlib.Data.List.Basic
import Mathlib.Data.List.TakeWhile

/-!
# The last entries of a ring

A ring of `n` slots into which entries are written one after the other, seen from the newest one
backwards: entry `j` lies `j` slots before the newest.
-/

namespace RecentRing

open Function List

def next (n i : ℕ) : ℕ := if i + 1 ≥ n then 0 else i + 1

def prev (n i : ℕ) : ℕ := if i = 0 then n - 1 else i - 1

/-- The slot `j` slots before the newest entry. -/
def back (n newest j : ℕ) : ℕ := if newest < j then n + newest - j else newest - j

section Slots

variable {n i newest j k : ℕ}

theorem next_lt (hn : 0 < n) : next n i < n := by
  unfold next
  split_ifs <;> omega

theorem prev_lt (hi : i < n) : prev n i < n := by
  unfold prev
  split_ifs <;> omega

theorem next_prev (hi : i < n) : next n (prev n i) = i := by
  unfold prev next
  split_ifs <;> omega

theorem prev_next (hi : i < n) : prev n (next n i) = i := by
  unfold prev next
  by_cases h : i + 1 ≥ n
  · rw [if_pos h, if_pos rfl]
    omega
  · rw [if_neg h]
    rfl

@[simp]
theorem back_zero : back n newest 0 = newest := by
  simp [back]

/-- Seen from the next slot, all entries are one slot farther away. -/
theorem back_next (hnewest : newest < n) (hj : j < n) :
    back n (next n newest) (j + 1) = back n newest j := by
  unfold back next
  split_ifs <;> omega

theorem next_back (hnewest : newest < n) (hj : j + 1 < n) :
    next n (back n newest (j + 1)) = back n newest j := by
  unfold back next
  split_ifs <;> omega

theorem back_last (hnewest : newest < n) : back n newest (n - 1) = next n newest := by
  unfold back next
  split_ifs <;> omega

theorem distance_back (newest) (hj : j < n) (hkj : k ≤ j) :
    (if back n newest k ≥ back n newest j then back n newest k - back n newest j
      else back n newest k + n - back n newest j) = j - k := by
  unfold back
  split_ifs <;> omega

theorem back_injective (hj : j < n) (hk : k < n)
    (h : back n newest j = back n newest k) : j = k := by
  unfold back at h
  split_ifs at h <;> omega

end Slots

variable {α : Type*} {n newest : ℕ} {buffer : ℕ → α} {entries : List α}

variable {k : ℕ} {p : α → Bool} {a : α}

/-- The first entry with a property comes behind those without it. -/
theorem takeWhile_of_first {p : α → Bool} (hk : k < entries.length) (h : p entries[k])
    (hfirst : ∀ j, (hj : j < k) → p entries[j] = false) :
    entries.takeWhile (fun a => !p a) = entries.take k := by
  rw [takeWhile_eq_take_findIdx_not]
  congr 1
  rw [findIdx_eq hk]
  refine ⟨by simpa using h, fun j hj => ?_⟩
  simpa using hfirst j hj

theorem takeWhile_of_none (h : entries.find? p = none) :
    entries.takeWhile (fun a => !p a) = entries := by
  rw [takeWhile_eq_self_iff]
  intro a ha
  simpa using find?_eq_none.mp h a ha

/-- These are the last entries, the newest one first. -/
structure Holds (n : ℕ) (buffer : ℕ → α) (newest : ℕ) (entries : List α) : Prop where
  length_le : entries.length ≤ n
  slot_eq : ∀ j, (hj : j < entries.length) → buffer (back n newest j) = entries[j]

theorem holds_nil (n : ℕ) (buffer : ℕ → α) (newest) : Holds n buffer newest [] :=
  ⟨Nat.zero_le _, nofun⟩

theorem holds_singleton (hn : 0 < n) :
    Holds n (update buffer newest a) newest [a] := by
  refine ⟨hn, fun j hj => ?_⟩
  obtain rfl : j = 0 := Nat.lt_one_iff.mp hj
  simp

variable (h : Holds n buffer newest entries)
include h

theorem Holds.map_range :
    (range entries.length).map (fun j => buffer (back n newest j)) = entries := by
  refine ext_getElem (by simp) fun j hj hj' => ?_
  rw [getElem_map, getElem_range]
  exact h.slot_eq j hj'

theorem Holds.take (k) : Holds n buffer newest (entries.take k) := by
  refine ⟨Nat.le_trans (length_take_le' ..) h.length_le, fun j hj => ?_⟩
  rw [getElem_take]
  exact h.slot_eq j (by rw [length_take] at hj; omega)

/-- An entry is written behind the newest one, over the oldest one if the ring is full. -/
theorem Holds.push (hnewest : newest < n) (a) :
    Holds n (update buffer (next n newest) a) (next n newest) ((a :: entries).take n) := by
  refine ⟨length_take_le .., fun j hj => ?_⟩
  rw [length_take, length_cons] at hj
  rw [getElem_take]
  cases j with
  | zero => simp
  | succ j =>
    have hne : back n newest j ≠ next n newest := by
      intro heq
      rw [← back_last hnewest] at heq
      have := back_injective (by omega) (by omega) heq
      omega
    rw [back_next hnewest (by omega), update_of_ne hne]
    exact h.slot_eq j (by omega)

theorem Holds.update (hk : k < n) (hle : entries.length ≤ k) (a) :
    Holds n (update buffer (back n newest k) a) newest entries := by
  refine ⟨h.length_le, fun j hj => ?_⟩
  rw [update_of_ne]
  · exact h.slot_eq j hj
  · intro heq
    have := back_injective (by omega) hk heq
    omega

end RecentRing
