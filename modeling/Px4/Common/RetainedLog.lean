import Mathlib.Data.List.Basic
import Mathlib.Algebra.Order.Group.Nat
import Mathlib.Data.Nat.ModEq

/-!
# Logs of which the last entries are retained

An append-only log of which the last `q` entries can still be read, and readers that keep the index
of the entry they read next. `Holds` relates such a log to a ring of `q` slots, entry `k` of the log
being in slot `k % q`.
-/

namespace RetainedLog

variable {α : Type*}

/-- The entry that a reader with cursor `c` gets next: at the cursor, or the oldest one. -/
def nextIndex (q : ℕ) (log : List α) (c : ℕ) : ℕ :=
  max c (log.length - q)

/-- Read the next entry, if there is one, and move the cursor behind it. -/
def read (q : ℕ) (log : List α) (c : ℕ) : Option (α × ℕ) :=
  if c < log.length then
    log[nextIndex q log c]?.map fun a => (a, nextIndex q log c + 1)
  else none

variable {q c : ℕ} {log : List α}

theorem nextIndex_lt (hq : 0 < q) (hc : c < log.length) : nextIndex q log c < log.length := by
  simp only [nextIndex]
  omega

theorem read_eq_none_iff (hq : 0 < q) : read q log c = none ↔ log.length ≤ c := by
  by_cases hc : c < log.length
  · have := nextIndex_lt hq hc
    simp [read, hc]
    omega
  · simpa [read, hc] using Nat.le_of_not_lt hc

theorem read_eq_some (hq : 0 < q) (hc : c < log.length) :
    ∃ a, log[nextIndex q log c]? = some a ∧ read q log c = some (a, nextIndex q log c + 1) := by
  have hlt := nextIndex_lt hq hc
  exact ⟨log[nextIndex q log c], by simp, by simp [read, hc]⟩

/-- The ring holds the retained end of the log, each entry in the slot of its index. -/
structure Holds (q : ℕ) (ring log : List α) : Prop where
  length_eq : ring.length = q
  slot_eq : ∀ k, k < log.length → log.length ≤ k + q → ring[k % q]? = log[k]?

theorem Holds.nil {ring : List α} (h : ring.length = q) : Holds q ring [] :=
  ⟨h, by simp⟩

private theorem mod_ne_of_window {n k} (hk : k < n) (hn : n + 1 ≤ k + q) : k % q ≠ n % q := by
  intro h
  have hdvd : q ∣ n - k := (Nat.modEq_iff_dvd' hk.le).mp h
  have := Nat.le_of_dvd (by omega) hdvd
  omega

variable {ring : List α}

/-- Appending an entry overwrites the slot of the entry that is no longer retained. -/
theorem Holds.push (hq : 0 < q) (h : Holds q ring log) (a) :
    Holds q (ring.set (log.length % q) a) (log ++ [a]) := by
  refine ⟨by simpa using h.length_eq, fun k hk hret => ?_⟩
  simp only [List.length_append, List.length_singleton] at hk hret
  rcases Nat.lt_succ_iff_lt_or_eq.mp hk with hlt | rfl
  · rw [List.getElem?_set_ne (mod_ne_of_window hlt hret).symm, List.getElem?_append_left hlt]
    exact h.slot_eq k hlt (by omega)
  have hslot : log.length % q < ring.length := by
    rw [h.length_eq]
    exact Nat.mod_lt _ hq
  rw [List.getElem?_set_self hslot]
  simp

end RetainedLog
