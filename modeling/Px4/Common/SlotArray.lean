import Mathlib.Data.List.Basic
import Mathlib.Data.List.Count

/-!
# Arrays of slots

An entry is stored in the first free slot and removed from the first slot that holds it. Writes
beyond the end of an array give `none`.
-/

namespace SlotArray

open List Option

variable {α : Type*}

/-- Puts `x` into the first free slot. -/
def store (x : α) : List (Option α) → Option (List (Option α))
  | [] => none
  | none :: xs => some (some x :: xs)
  | some y :: xs => (store x xs).map (some y :: ·)

/-- Frees the first slot that holds `x`. -/
def remove [DecidableEq α] (x : α) : List (Option α) → Option (List (Option α))
  | [] => none
  | y :: xs => if y = some x then some (none :: xs) else (remove x xs).map (y :: ·)

/-- Writes `v` to `count` places from `start` on. -/
def fill (xs : List α) (start count : ℕ) (v : α) : Option (List α) :=
  if start + count ≤ xs.length then
    some (xs.take start ++ replicate count v ++ xs.drop (start + count))
  else none

/-- Copies the first `count` places of `src` to `dst`. -/
def copy (dst src : List α) (count : ℕ) : Option (List α) :=
  if count ≤ dst.length ∧ count ≤ src.length then some (src.take count ++ dst.drop count) else none

def write (xs : List α) (i : ℕ) (v : α) : Option (List α) :=
  if i < xs.length then some (xs.set i v) else none

variable {x : α} {xs ys : List (Option α)}

theorem length_store (h : store x xs = some ys) : ys.length = xs.length := by
  induction xs generalizing ys with
  | nil => cases h
  | cons y xs ih =>
    cases y with
    | none =>
      cases h
      rfl
    | some y =>
      obtain ⟨zs, hzs, rfl⟩ := map_eq_some_iff.mp h
      rw [length_cons, length_cons, ih hzs]

theorem count_store [DecidableEq α] (h : store x xs = some ys) (y) :
    ys.count (some y) = xs.count (some y) + if x = y then 1 else 0 := by
  induction xs generalizing ys with
  | nil => cases h
  | cons z xs ih =>
    cases z with
    | none =>
      cases h
      simp [count_cons]
    | some z =>
      obtain ⟨zs, hzs, rfl⟩ := map_eq_some_iff.mp h
      rw [count_cons, count_cons, ih hzs, Nat.add_right_comm]

variable [DecidableEq α]

theorem length_remove (h : remove x xs = some ys) : ys.length = xs.length := by
  induction xs generalizing ys with
  | nil => cases h
  | cons y xs ih =>
    rw [remove] at h
    split at h
    · cases h
      rfl
    · obtain ⟨zs, hzs, rfl⟩ := map_eq_some_iff.mp h
      rw [length_cons, length_cons, ih hzs]

theorem count_remove (h : remove x xs = some ys) (y) :
    ys.count (some y) + (if x = y then 1 else 0) = xs.count (some y) := by
  induction xs generalizing ys with
  | nil => cases h
  | cons z xs ih =>
    rw [remove] at h
    split at h
    · next heq =>
      cases h
      simp [count_cons, heq]
    · obtain ⟨zs, hzs, rfl⟩ := map_eq_some_iff.mp h
      rw [count_cons, count_cons, ← ih hzs, Nat.add_right_comm]

theorem count_eq_zero_of_remove (h : remove x xs = none) : xs.count (some x) = 0 := by
  induction xs with
  | nil => rfl
  | cons y xs ih =>
    rw [remove] at h
    split at h
    · cases h
    · next hne => rw [count_cons, ih (map_eq_none_iff.mp h), beq_false_of_ne hne]; rfl

omit [DecidableEq α] in
/-- An array is moved to a larger one: cleared behind, copied, and the first free place written. -/
theorem grown {xs ys} (v w : α) (h : xs.length < ys.length) :
    (fill ys xs.length (ys.length - xs.length) v).bind
      (fun zs => (copy zs xs xs.length).bind fun zs => write zs xs.length w) =
    some (xs ++ w :: replicate (ys.length - xs.length - 1) v) := by
  obtain ⟨n, hn⟩ : ∃ n, ys.length - xs.length = n + 1 := ⟨ys.length - xs.length - 1, by omega⟩
  have hdrop : ys.drop (xs.length + (n + 1)) = [] := drop_of_length_le (by omega)
  have htake : (ys.take xs.length).length = xs.length := length_take_of_le (by omega)
  have hfill : fill ys xs.length (n + 1) v = some (ys.take xs.length ++ replicate (n + 1) v) := by
    rw [fill, if_pos (by omega), hdrop, append_nil]
  have hcopy : copy (ys.take xs.length ++ replicate (n + 1) v) xs xs.length =
      some (xs ++ replicate (n + 1) v) := by
    rw [copy, if_pos ⟨by rw [length_append, htake]; omega, Nat.le_refl _⟩, take_length,
      drop_left' htake]
  have hwrite : write (xs ++ replicate (n + 1) v) xs.length w =
      some (xs ++ w :: replicate n v) := by
    rw [write, if_pos (by simp), set_append_right _ _ (Nat.le_refl _), Nat.sub_self,
      replicate_succ, set_cons_zero]
  rw [hn, hfill, bind_some, hcopy, bind_some, hwrite, Nat.add_sub_cancel]

end SlotArray
