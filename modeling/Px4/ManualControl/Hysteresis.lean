import Mathlib.Algebra.Group.Nat.Defs
import Px4.Common.Run

/-!
# Hysteresis

`lib/hysteresis/hysteresis.cpp`. The gestures and switches of `ManualControl` count only after they
have lasted for some time.
-/

namespace Px4.ManualControl

structure Hysteresis where
  lastTimeToChangeState : UInt64 := 0
  timeFromTrueUs : UInt64 := 0
  timeFromFalseUs : UInt64 := 0
  state : Bool := false
  requestedState : Bool := false

namespace Hysteresis

/-- The constructor. -/
def construct (initialState : Bool) : Hysteresis where
  state := initialState
  requestedState := initialState

variable (h : Hysteresis)

def setHysteresisTimeFrom (fromState : Bool) (newHysteresisTimeUs : UInt64) : Hysteresis :=
  if fromState then { h with timeFromTrueUs := newHysteresisTimeUs }
  else { h with timeFromFalseUs := newHysteresisTimeUs }

def update (nowUs : UInt64) : Hysteresis :=
  if h.requestedState ≠ h.state then
    if h.state && !h.requestedState then
      if nowUs ≥ h.lastTimeToChangeState + h.timeFromTrueUs then { h with state := false } else h
    else if !h.state && h.requestedState then
      if nowUs ≥ h.lastTimeToChangeState + h.timeFromFalseUs then { h with state := true } else h
    else h
  else h

/-- `set_state_and_update`, before it calls `update`. -/
def request (newState : Bool) (nowUs : UInt64) : Hysteresis :=
  if newState ≠ h.state then
    if newState ≠ h.requestedState then
      { h with requestedState := newState, lastTimeToChangeState := nowUs }
    else h
  else { h with requestedState := h.state }

inductive Call where
  | setHysteresisTimeFrom (fromState : Bool) (newHysteresisTimeUs : UInt64)
  | setStateAndUpdate (newState : Bool) (nowUs : UInt64)
  | update (nowUs : UInt64)

def step : Call → Hysteresis
  | .setHysteresisTimeFrom fromState time => h.setHysteresisTimeFrom fromState time
  | .setStateAndUpdate newState nowUs => (h.request newState nowUs).update nowUs
  | .update nowUs => h.update nowUs

def requestedSince (b : Bool) (start : Option UInt64) : Call → Option UInt64
  | .setStateAndUpdate newState nowUs => if newState = b then some (start.getD nowUs) else none
  | _ => start

/-- Since when all requests have been for `b`, if the last one has been. -/
def since (b : Bool) : List Call → Option UInt64 := Run.after (requestedSince b) none

/-- The dwell time of the present state. -/
def dwell : UInt64 := if h.state then h.timeFromTrueUs else h.timeFromFalseUs

/-- The other state has been requested since a time that the call finds long enough ago. -/
def Due (calls : List Call) (call : Call) (longAgo : UInt64 → UInt64 → Prop) : Prop :=
  ∃ start ∈ since (!h.state) (calls ++ [call]),
    match call with
    | .setHysteresisTimeFrom .. => False
    | .setStateAndUpdate _ nowUs | .update nowUs => longAgo start nowUs

/-- What the members say about the calls so far. -/
def Recorded (calls : List Call) : Prop :=
  since (!h.state) calls =
      (if h.requestedState = h.state then none else some h.lastTimeToChangeState) ∧
    (h.requestedState ≠ h.state → since h.state calls = none)

variable {h} {calls : List Call}

/-- A call keeps the record, and changes the state if the sum of the members, which can wrap, has
been reached. -/
theorem Recorded.step (hr : h.Recorded calls) (call : Call) :
    (h.step call).Recorded (calls ++ [call]) ∧
      ((h.step call).state ≠ h.state ↔
        h.Due calls call fun start nowUs => start + h.dwell ≤ nowUs) := by
  have hsince b : since b (calls ++ [call]) = requestedSince b (since b calls) call :=
    Run.after_append ..
  obtain ⟨last, timeFromTrue, timeFromFalse, state, requested⟩ := h
  unfold Recorded at hr
  unfold Recorded Due dwell
  rw [hsince, hsince, hsince]
  cases call with
  | setHysteresisTimeFrom fromState time =>
    cases fromState <;> simpa [Hysteresis.step, setHysteresisTimeFrom, requestedSince] using hr
  | update now =>
    cases state <;> cases requested <;>
      simp_all [Hysteresis.step, Hysteresis.update, requestedSince]
    all_goals split_ifs <;> simp_all
  | setStateAndUpdate newState now =>
    cases state <;> cases requested <;> cases newState <;>
      simp_all [Hysteresis.step, Hysteresis.update, Hysteresis.request, requestedSince]
    all_goals split_ifs <;> simp_all

/-- **The state changes exactly when the other one has been requested for the dwell time**, with no
request for the old one in between: at every call of every run, if the end of the dwell time is a
time. -/
theorem changes_after_dwell (initialState : Bool) (calls : List Call) (call : Call) :
    let h := Run.after step (construct initialState) calls
    (∀ start ∈ since (!h.state) (calls ++ [call]), start.toNat + h.dwell.toNat < 2 ^ 64) →
      ((h.step call).state ≠ h.state ↔
        h.Due calls call fun start nowUs => start.toNat + h.dwell.toNat ≤ nowUs.toNat) := by
  intro h hfits
  have hr : h.Recorded calls :=
    Run.after_of_history (P := fun calls h => Recorded h calls)
      (by simp [Recorded, since, construct]) fun _ call _ _ hpre => (hpre.step call).1
  rw [(hr.step call).2]
  refine exists_congr fun start => and_congr_right fun hstart => ?_
  have hadd : (start + h.dwell).toNat = start.toNat + h.dwell.toNat := by
    rw [UInt64.toNat_add]
    exact Nat.mod_eq_of_lt (hfits start hstart)
  cases call <;> simp only [UInt64.le_iff_toNat_le, hadd]

/-- A request is taken back and made again, and 100 microseconds later it counts. -/
theorem changes_after_dwell_again :
    let calls := [.setHysteresisTimeFrom false 100, .setStateAndUpdate true 10,
      .setStateAndUpdate false 50, .setStateAndUpdate true 60, .update 120]
    let h := Run.after step (construct false) calls
    h.state = false ∧ (h.step (.update 159)).state = h.state ∧
      (h.step (.update 160)).state ≠ h.state := by
  intro calls h
  have hfits (now : UInt64) : ∀ start ∈ since (!h.state) (calls ++ [.update now]),
      start.toNat + h.dwell.toNat < 2 ^ 64 := by
    rintro start ⟨⟩
    decide
  refine ⟨rfl, ?_, ?_⟩
  · by_contra hchanged
    obtain ⟨start, ⟨⟩, hdue⟩ :=
      (changes_after_dwell false calls (.update 159) (hfits 159)).mp hchanged
    exact absurd hdue (by decide)
  · exact (changes_after_dwell false calls (.update 160) (hfits 160)).mpr ⟨60, rfl, by decide⟩

end Hysteresis

end Px4.ManualControl
