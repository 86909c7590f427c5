import Mathlib.Logic.Function.Basic

/-!
# Slots with optional keys

An array whose slots hold a key or are unused. It stays free of duplicates if a key is only written
to a slot when no other slot has it.
-/

namespace KeyedSlots

open Function

variable {ι α K : Type*} {key : α → Option K} {t t' : ι → α}

/-- No two slots have the same key. -/
def Unique (key : α → Option K) (t : ι → α) : Prop :=
  ∀ i j k, key (t i) = some k → key (t j) = some k → i = j

theorem Unique.of_forgets (h : Unique key t)
    (hsub : ∀ i k, key (t' i) = some k → key (t i) = some k) : Unique key t' :=
  fun i j k hi hj => h i j k (hsub i k hi) (hsub j k hj)

theorem Unique.update [DecidableEq ι] (h : Unique key t) {i a}
    (hnew : ∀ j k, j ≠ i → key a = some k → key (t j) ≠ some k) : Unique key (update t i a) := by
  intro j l k hj hl
  by_cases hji : j = i <;> by_cases hli : l = i
  · rw [hji, hli]
  · rw [hji, update_self] at hj
    rw [update_of_ne hli] at hl
    exact absurd hl (hnew l k hli hj)
  · rw [hli, update_self] at hl
    rw [update_of_ne hji] at hj
    exact absurd hj (hnew j k hji hl)
  · rw [update_of_ne hji] at hj
    rw [update_of_ne hli] at hl
    exact h j l k hj hl

end KeyedSlots
