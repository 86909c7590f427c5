import Mathlib.Algebra.Group.Nat.Defs
import Mathlib.Tactic.SplitIfs
import Px4.Common.Run
import Px4.Drivers.Hrt

/-!
# Subscriptions with an interval

`platforms/common/uORB/SubscriptionInterval.cpp`, with a constant interval. What `_subscription`
says comes with each call.
-/

namespace Px4.Uorb

open Drivers List

/-- `_last_update`, the times of the last call and last success, and of successful `update`s. -/
structure SubscriptionInterval where
  lastUpdate : UInt64 := 0
  time : UInt64 := 0
  lastSuccess : UInt64 := 0
  updates : List UInt64 := []

namespace SubscriptionInterval

/-- `update` reads the time twice. -/
inductive Call where
  | update (checked now : UInt64) (isUpdated copied : Bool)
  | copy (now : UInt64) (copied : Bool)

def constrain (val min max : UInt64) : UInt64 :=
  if val < min then min else if val > max then max else val

variable (interval : UInt32) (s : SubscriptionInterval) (now : UInt64)

/-- `isUpdated`: the topic is advertised and `_subscription.updated()`. -/
def updated (isUpdated : Bool) : Bool :=
  hrtElapsedTime now s.lastUpdate ≥ interval.toUInt64 && isUpdated

def copy (copied : Bool) : SubscriptionInterval :=
  if copied then
    { s with
      lastUpdate :=
        if now > interval.toUInt64 then
          constrain (s.lastUpdate + interval.toUInt64) (now - interval.toUInt64) now
        else now
      lastSuccess := now }
  else s

def update (checked : UInt64) (isUpdated copied : Bool) : SubscriptionInterval :=
  if s.updated interval checked isUpdated && copied then
    { s.copy interval now copied with updates := s.updates ++ [now] }
  else s

def step : Call → SubscriptionInterval
  | .update checked now isUpdated copied =>
    { s.update interval now checked isUpdated copied with time := now }
  | .copy now copied => { s.copy interval now copied with time := now }

/-- The times do not decrease, and an interval after them is still a time. -/
def InOrder : Call → Prop
  | .update checked now .. =>
    s.time ≤ checked ∧ checked ≤ now ∧ now.toNat + interval.toNat < 2 ^ 64
  | .copy now _ => s.time ≤ now ∧ now.toNat + interval.toNat < 2 ^ 64

instance : (c : Call) → Decidable (InOrder interval s c)
  | .update .. | .copy .. => inferInstanceAs (Decidable (_ ∧ _))

/-- How many calls of `update` have succeeded since a time. -/
def since (a : ℕ) : ℕ := s.updates.countP (a ≤ ·.toNat)

/-- How many calls of `update` have succeeded in the window of length `T` from `a` on. -/
def within (a T : ℕ) : ℕ := s.updates.countP fun t => a ≤ t.toNat ∧ t.toNat ≤ a + T

/-- A success moves the reference by the interval, the first in a window from at most one behind. -/
structure Inv : Prop where
  lastUpdate_le : s.lastUpdate ≤ s.lastSuccess
  lastSuccess_le : s.lastSuccess ≤ s.time
  since_le : ∀ a, s.since a * interval.toNat ≤ s.lastUpdate.toNat + 2 * interval.toNat - a
  within_le : ∀ a T, s.within a T ≤ T / interval.toNat + 2

variable {interval : UInt32} {s : SubscriptionInterval} {now checked : UInt64}

/-- Without a wrap, the reference moves forward by the interval, and stays in the last one. -/
theorem copy_bounds (h : s.lastUpdate ≤ now) (hbound : now.toNat + interval.toNat < 2 ^ 64) :
    let last := (s.copy interval now true).lastUpdate
    last ≤ now ∧ now.toNat ≤ last.toNat + interval.toNat ∧ s.lastUpdate ≤ last ∧
      (s.lastUpdate.toNat + interval.toNat ≤ now.toNat →
        s.lastUpdate.toNat + interval.toNat ≤ last.toNat) := by
  have hinterval : interval.toUInt64.toNat = interval.toNat := UInt32.toNat_toUInt64 interval
  have hadd : (s.lastUpdate + interval.toUInt64).toNat = s.lastUpdate.toNat + interval.toNat := by
    rw [UInt64.toNat_add, hinterval]
    exact Nat.mod_eq_of_lt (Nat.lt_of_le_of_lt (Nat.add_le_add_right h _) hbound)
  have hsub (hlt : now > interval.toUInt64) :
      (now - interval.toUInt64).toNat = now.toNat - interval.toNat := by
    rw [UInt64.toNat_sub_of_le _ _ (Nat.le_of_lt hlt), hinterval]
  simp only [copy, constrain, if_true, UInt64.le_iff_toNat_le, UInt64.lt_iff_toNat_lt,
    gt_iff_lt] at *
  split_ifs <;> omega

/-- `hrt_elapsed_time` is the time since the reference. -/
theorem updated_iff (h : s.lastUpdate ≤ now) {isUpdated : Bool} :
    s.updated interval now isUpdated ↔
      s.lastUpdate.toNat + interval.toNat ≤ now.toNat ∧ isUpdated := by
  have hsub : (hrtElapsedTime now s.lastUpdate).toNat = now.toNat - s.lastUpdate.toNat := by
    rw [hrtElapsedTime, if_neg (UInt64.not_lt.mpr h)]
    exact UInt64.toNat_sub_of_le _ _ h
  have hle : s.lastUpdate.toNat ≤ now.toNat := h
  simp only [updated, Bool.and_eq_true, decide_eq_true_eq, ge_iff_le, UInt64.le_iff_toNat_le, hsub,
    UInt32.toNat_toUInt64, Nat.le_sub_iff_add_le' hle]

theorem Inv.lastUpdate_le_now (h : s.Inv interval) (hnow : s.time ≤ now) : s.lastUpdate ≤ now :=
  UInt64.le_trans (UInt64.le_trans h.lastUpdate_le h.lastSuccess_le) hnow

/-- A call that does not succeed keeps the invariant. -/
theorem Inv.wait (h : s.Inv interval) (hnow : s.time ≤ now) :
    ({ s with time := now } : SubscriptionInterval).Inv interval :=
  { h with lastSuccess_le := UInt64.le_trans h.lastSuccess_le hnow }

theorem Inv.copy (h : s.Inv interval) (hnow : s.time ≤ now)
    (hbound : now.toNat + interval.toNat < 2 ^ 64) (copied : Bool) :
    (s.step interval (.copy now copied)).Inv interval := by
  cases copied with
  | false => exact h.wait hnow
  | true =>
    obtain ⟨hle, -, hmono, -⟩ := copy_bounds (h.lastUpdate_le_now hnow) hbound
    refine ⟨hle, UInt64.le_refl _, fun a => Nat.le_trans (h.since_le a) ?_, h.within_le⟩
    exact Nat.sub_le_sub_right (Nat.add_le_add_right hmono _) a

/-- A success is paid for by the reference. -/
theorem Inv.update (hi : 0 < interval) (h : s.Inv interval) (hchecked : s.time ≤ checked)
    (hnow : checked ≤ now) (hbound : now.toNat + interval.toNat < 2 ^ 64)
    (isUpdated copied : Bool) :
    (s.step interval (.update checked now isUpdated copied)).Inv interval := by
  have hnow' : s.time ≤ now := UInt64.le_trans hchecked hnow
  dsimp only [step, SubscriptionInterval.update]
  split_ifs with hupdated
  · obtain ⟨hdue, rfl⟩ := Bool.and_eq_true_iff.mp hupdated
    have helapsed := ((updated_iff (h.lastUpdate_le_now hchecked)).mp hdue).1
    obtain ⟨hle, hnear, -, hfar⟩ := copy_bounds (h.lastUpdate_le_now hnow') hbound
    have hfar := hfar (Nat.le_trans helapsed hnow)
    have hle' := UInt64.le_iff_toNat_le.mp hle
    refine ⟨hle, UInt64.le_refl _, fun a => ?_, fun a T => ?_⟩
    all_goals have hsince := h.since_le a
    · simp only [since, countP_append, countP_singleton, decide_eq_true_eq] at hsince ⊢
      split_ifs with hnow
      · rw [Nat.succ_mul]
        omega
      · rw [Nat.add_zero]
        omega
    · have hwithin := h.within_le a T
      have hsub : s.within a T ≤ s.since a := countP_mono_left fun t _ ht => by simp_all
      simp only [within, countP_append, countP_singleton, decide_eq_true_eq] at hsub hwithin ⊢
      split_ifs with hnow
      · have hcount : (s.since a + 1) * interval.toNat ≤ T + 2 * interval.toNat := by
          rw [Nat.succ_mul]
          omega
        have hpos : 0 < interval.toNat := hi
        have := (Nat.le_div_iff_mul_le hpos).mpr hcount
        rw [Nat.add_mul_div_right T 2 hpos] at this
        omega
      · exact hwithin
  · exact h.wait hnow'

/-- **The interval limits the rate of updates**, and an update that waits for the interval finds a
new message, as long as an interval after the times of the calls is still a time. -/
theorem interval_limits_rate (interval : UInt32) (hi : 0 < interval) (calls : List Call)
    (h : Run.Along (step interval) (InOrder interval) {} calls) :
    let s := Run.after (step interval) {} calls
    s.lastUpdate ≤ s.time ∧ (∀ a T, s.within a T ≤ T / interval.toNat + 2) ∧
      ∀ checked now, s.lastSuccess.toNat + interval.toNat ≤ checked.toNat →
        (s.update interval now checked true true).updates = s.updates ++ [now] := by
  intro s
  have hinv : s.Inv interval := by
    refine Run.after_of_invariant (fun s c hs hc => ?_) ?_ h
    · cases c with
      | update checked now isUpdated copied =>
        exact hs.update hi hc.1 hc.2.1 hc.2.2 isUpdated copied
      | copy now copied => exact hs.copy hc.1 hc.2 copied
    · exact ⟨UInt64.le_refl _, UInt64.le_refl _, by simp [since], by simp [within]⟩
  refine ⟨hinv.lastUpdate_le_now (UInt64.le_refl _), hinv.within_le, fun checked _ hchecked => ?_⟩
  have hlast : s.lastUpdate.toNat ≤ s.lastSuccess.toNat := hinv.lastUpdate_le
  have hupdated : s.updated interval checked true := by
    rw [updated_iff (by rw [UInt64.le_iff_toNat_le]; omega)]
    exact ⟨by omega, rfl⟩
  simp [update, hupdated]

/-- The second `update` and the ones right after the `copy` and after the catching up at 42 are too
early. -/
def tenMicroseconds : List Call :=
  [.update 11 12 true true, .update 15 15 true true, .copy 25 true, .update 28 28 true true,
    .update 40 41 true true, .update 42 42 true true, .update 45 45 true true]

theorem interval_limits_rate_ten :
    let s := Run.after (step 10) {} tenMicroseconds
    s.updates = [12, 41, 42] ∧ s.within 41 1 = 2 ∧ s.lastUpdate ≤ s.time ∧
      s.within 41 1 ≤ 1 / 10 + 2 ∧
      (s.update 10 53 52 true true).updates = [12, 41, 42, 53] := by
  obtain ⟨hle, hwithin, hupdate⟩ :=
    interval_limits_rate 10 (by decide) tenMicroseconds (by decide +kernel)
  exact ⟨rfl, rfl, hle, hwithin 41 1, hupdate 52 53 (by decide +kernel)⟩

/-- At the last of all times, the sum in `copy` wraps, and the reference moves back. -/
theorem interval_exceeded_at_last_time :
    let now : UInt64 := 0xffffffffffffffff
    ¬(Run.after (step 10) {}
      (replicate 3 [.copy now true, .update now now true true]).flatten).within now.toNat 0 ≤
        0 / 10 + 2 := by
  decide +kernel

end SubscriptionInterval

end Px4.Uorb
