import Px4.Commander.FailsafeClearing

/-!
# How long a failsafe can be delayed

A new failsafe starts a delay, during which the vehicle holds. A condition that toggles starts it
again and again, so it is started from `_current_start_delay`, which is used up while a delay is
active and refilled at a quarter of the rate.
-/

namespace Px4.Commander

open Nat Run UInt64

/-! ## An allowance that is used up and refilled -/

/-- A delay that is started from an allowance. The time it was active, `used`, is paid from the
limit and what was refilled, but for a debt: a start grants it once more what the allowance has lost
since. -/
structure Funded (limit allowance delay used refilled credit : ℕ) : Prop where
  allowance_le : allowance ≤ limit
  delay_le : delay ≤ limit
  funds : ∃ debt, used + allowance ≤ limit + refilled + debt ∧ debt + delay ≤ allowance + credit ∧
    debt ≤ credit

namespace Funded

variable {limit allowance delay used refilled credit delay' credit' : ℕ}

/-- In the beginning, the allowance is the limit. -/
theorem start (limit) : Funded limit limit 0 0 0 0 where
  allowance_le := le_rfl
  delay_le := zero_le _
  funds := ⟨0, by omega, by omega, by omega⟩

variable (h : Funded limit allowance delay used refilled credit)
include h

variable {elapsed : ℕ}

/-- A delay that runs is paid from the allowance, or by a restart. -/
theorem active
    (hdelay : delay' + elapsed ≤ delay ∧ credit ≤ credit' ∨
      delay' ≤ allowance ∧ credit + elapsed ≤ credit') :
    Funded limit (allowance - elapsed) delay' (used + elapsed) refilled credit' := by
  obtain ⟨hallowance, hdelay_le, debt, hused, hahead, hcredit⟩ := h
  -- what the allowance does not cover becomes debt
  refine ⟨by omega, by omega, debt + (elapsed - allowance), by omega, ?_, ?_⟩
  · rcases hdelay with hruns | hstarted <;> omega
  · rcases hdelay with hruns | hstarted <;> omega

/-- Without a delay, the allowance is refilled up to the limit. -/
theorem idle (refill : ℕ)
    (hdelay : delay' ≤ delay ∨ delay' ≤ allowance) (hcredit' : credit ≤ credit') :
    Funded limit (min limit (allowance + refill)) delay' used (refilled + refill) credit' := by
  obtain ⟨hallowance, hdelay_le, debt, hused, hahead, hcredit⟩ := h
  refine ⟨by omega, by omega, debt, by omega, by omega, by omega⟩

/-- What was used is the limit at most, and what has been refilled and credited. -/
theorem used_le : used ≤ limit + refilled + credit := by
  obtain ⟨-, -, debt, hused, -, hcredit⟩ := h
  omega

end Funded

namespace FailsafeBase

variable {f g : FailsafeBase} {u : UpdateInput} {c : Check} {cs : List Check}

/-! ## The delay in the checks -/

/-- The check adds an action and with it starts the delay. -/
def restarts (g : FailsafeBase) (c : Check) : Bool :=
  let search := searchLoop g.actions c.callerId (List.finRange maxNumActions) none
  c.curStateFailure && search.2.isNone && (placeFor g.actions c.options.action search.1).isSome &&
    decide (c.options.allowUserTakeover = .auto ∧ g.failActT.exceedsTenth ∧
      c.options.action ≠ .warn ∧ g.currentDelay = 0)

/-- How often the checks start the delay. -/
def restartCount (g : FailsafeBase) : List Check → ℕ
  | [] => 0
  | c :: cs => (if g.restarts c then 1 else 0) + restartCount (g.checkFailsafe c) cs

/-- A check restarts the delay, or leaves it. -/
theorem checkFailsafe_currentDelay : (g.checkFailsafe c).currentDelay =
    if g.restarts c then g.currentStartDelay else g.currentDelay := by
  unfold checkFailsafe restarts
  cases c.curStateFailure with
  | false =>
    simp only [Bool.false_and, Bool.false_eq_true, if_false]
    split_ifs <;> rfl
  | true =>
    simp only [Bool.true_and, if_true]
    split
    case h_1 _ _ hsearch =>
      rw [hsearch]
      rfl
    case h_2 _ hsearch =>
      rw [hsearch]
      split
      case h_1 _ hplace =>
        rw [hplace]
        simp [addAction]
      case h_2 hplace =>
        rw [hplace]
        rfl

/-- The members besides the delay that a run of checks leaves alone. -/
structure SameSettings (f g : FailsafeBase) : Prop where
  currentStartDelay : g.currentStartDelay = f.currentStartDelay
  failActT : g.failActT = f.failActT
  lastUpdate : g.lastUpdate = f.lastUpdate
  failsafeDeferStarted : g.failsafeDeferStarted = f.failsafeDeferStarted
  deferring : g.deferring = f.deferring

theorem SameSettings.trans {h : FailsafeBase} (hfg : SameSettings f g) (hgh : SameSettings g h) :
    SameSettings f h where
  currentStartDelay := hgh.currentStartDelay.trans hfg.currentStartDelay
  failActT := hgh.failActT.trans hfg.failActT
  lastUpdate := hgh.lastUpdate.trans hfg.lastUpdate
  failsafeDeferStarted := hgh.failsafeDeferStarted.trans hfg.failsafeDeferStarted
  deferring := hgh.deferring.trans hfg.deferring

variable (g)

/-- A check changes no settings. -/
theorem sameSettings_checkFailsafe (c) : SameSettings g (g.checkFailsafe c) := by
  unfold checkFailsafe
  split_ifs
  · split
    · exact ⟨rfl, rfl, rfl, rfl, rfl⟩
    · split <;> exact ⟨rfl, rfl, rfl, rfl, rfl⟩
  · exact ⟨rfl, rfl, rfl, rfl, rfl⟩
  · exact ⟨rfl, rfl, rfl, rfl, rfl⟩

/-- The checks of an update change no settings. -/
theorem sameSettings_after (cs) : SameSettings g (after checkFailsafe g cs) := by
  induction cs generalizing g with
  | nil => exact ⟨rfl, rfl, rfl, rfl, rfl⟩
  | cons c cs ih => exact (sameSettings_checkFailsafe g c).trans (ih (g.checkFailsafe c))

/-- After the checks the delay is the old one, or a new one if there was a restart. -/
theorem after_currentDelay (cs) :
    (g.restartCount cs = 0 ∧ (after checkFailsafe g cs).currentDelay = g.currentDelay) ∨
      (0 < g.restartCount cs ∧
        (after checkFailsafe g cs).currentDelay = g.currentStartDelay) := by
  induction cs generalizing g with
  | nil => exact .inl ⟨rfl, rfl⟩
  | cons c cs ih =>
    have hdelay := checkFailsafe_currentDelay (g := g) (c := c)
    have hstart := (sameSettings_checkFailsafe g c).currentStartDelay
    rw [restartCount, after_cons]
    rcases ih (g.checkFailsafe c) with ⟨hcount, heq⟩ | ⟨hcount, heq⟩
    · rw [hcount, heq, hdelay]
      by_cases hrestarts : g.restarts c
      · exact .inr ⟨by simp [hrestarts], if_pos hrestarts⟩
      · exact .inl ⟨by simp [hrestarts], if_neg hrestarts⟩
    · exact .inr ⟨by omega, heq.trans hstart⟩

/-! ## The selected action -/

variable {g}

/-- A warning does not begin a delay. -/
theorem warnIfAlready_eq (flags mode actions s) :
    (warnIfAlready flags mode actions s).failsafeDeferred = s.failsafeDeferred ∧
      ((warnIfAlready flags mode actions s).delayedAction ≠ .none → s.delayedAction ≠ .none) := by
  unfold warnIfAlready
  split_ifs
  · exact ⟨rfl, fun h => absurd rfl h⟩
  · exact ⟨rfl, id⟩

/-- The end of the selection does not begin a delay. -/
theorem finishSelection_eq (flags s) :
    (finishSelection flags s).failsafeDeferred = s.failsafeDeferred ∧
      ((finishSelection flags s).delayedAction ≠ .none → s.delayedAction ≠ .none) := by
  set s₀ : SelectedActionState := { s with
    action := (possibleAction flags s.action s.cause).1
    cause := (possibleAction flags s.action s.cause).2 }
  have hland := warnIfAlready_eq flags .autoLand [.rtl] s₀
  have hrtl := warnIfAlready_eq flags .autoRtl [.rtl] (warnIfAlready flags .autoLand [.rtl] s₀)
  have hprecland := warnIfAlready_eq flags .autoPrecland [.rtl, .land]
    (warnIfAlready flags .autoRtl [.rtl] (warnIfAlready flags .autoLand [.rtl] s₀))
  exact ⟨hprecland.1.trans (hrtl.1.trans hland.1), fun h => hland.2 (hrtl.2 (hprecland.2 h))⟩

/-- A user who takes over does not begin a delay. -/
theorem takeOver_eq (modeUpdated s delayed) :
    (g.takeOver u modeUpdated s delayed).failsafeDeferred = false ∧
      ((g.takeOver u modeUpdated s delayed).delayedAction ≠ .none → delayed ≠ .none) := by
  unfold takeOver
  by_cases htakeover :
      (actionAllowsUserTakeover s.action && g.takeoverAllowed u modeUpdated s)
  · rw [if_pos htakeover]
    exact ⟨rfl, fun h => absurd rfl h⟩
  · rw [if_neg htakeover]
    exact ⟨rfl, id⟩

variable {s : Selection} {dt : HrtAbstime} {r k m : ℕ} {f' : FailsafeBase}

/-- An action is delayed only while the delay runs. -/
theorem delayHold_delayed (h : (g.delayHold s).2 ≠ .none) : 0 < g.currentDelay := by
  unfold delayHold at h
  dsimp only at h
  split_ifs at h with hdelay
  · exact hdelay.1
  · exact absurd rfl h

/-- Without deferral nothing is deferred, and an action is only delayed by a running delay. -/
theorem getSelectedAction_eq (hdeferring : g.deferring = false) {modeUpdated} :
    (g.getSelectedAction u modeUpdated).failsafeDeferred = false ∧
      ((g.getSelectedAction u modeUpdated).delayedAction ≠ .none → 0 < g.currentDelay) := by
  unfold getSelectedAction
  dsimp only
  split_ifs with hterminate hdisarmed hdeferred
  · exact ⟨rfl, fun h => absurd rfl h⟩
  · exact ⟨rfl, fun h => absurd rfl h⟩
  · exact absurd hdeferred.1 (by simp [hdeferring])
  · set delayed := g.delayHold (worstAction g.actions) with hdelayed
    have htakeOver := takeOver_eq (g := g) (u := u) modeUpdated delayed.1 delayed.2
    have hfinish := finishSelection_eq u.statusFlags (g.takeOver u modeUpdated delayed.1 delayed.2)
    refine ⟨hfinish.1.trans htakeOver.1, fun h => ?_⟩
    exact delayHold_delayed (htakeOver.2 (hfinish.2 h))

/-! ## An update -/

variable (f)

variable (u)

def started : FailsafeBase :=
  { f with lastUpdate := if f.lastUpdate = 0 then u.timeUs else f.lastUpdate }

/-- `time_us - _last_update`. -/
def elapsed : HrtAbstime :=
  u.timeUs - (f.started u).lastUpdate

/-- The state in which an update selects the action. -/
def beforeSelection : FailsafeBase :=
  (f.afterChecks u).clearDelayIfNeeded u.statusFlags

/-- The update ends with a delayed action. -/
def delays : Bool :=
  ((f.beforeSelection u).getSelectedAction u (f.modeUpdated u)).delayedAction ≠ .none

/-- How often an update starts the delay. -/
def restartsOf : ℕ :=
  (f.beforeChecks u).restartCount u.checks

/-- Failsafes are not being deferred. -/
structure NotDeferring (f : FailsafeBase) : Prop where
  deferring : f.deferring = false
  failsafeDeferStarted : f.failsafeDeferStarted = 0

/-- Clearing actions on events changes no settings. -/
theorem clearOnEvents_sameSettings :
    SameSettings (f.started u) (f.clearOnEvents u) ∧
      (f.clearOnEvents u).currentDelay = f.currentDelay := by
  unfold clearOnEvents
  by_cases harmed : f.lastArmed ≠ u.state.armed
  · rw [if_pos harmed]
    exact ⟨⟨rfl, rfl, rfl, rfl, rfl⟩, rfl⟩
  · rw [if_neg harmed]
    exact ⟨⟨rfl, rfl, rfl, rfl, rfl⟩, rfl⟩

variable {f}

variable {u}

section

variable (h : NotDeferring f)
include h

/-- Before the checks, an update only makes the delay shorter. -/
theorem beforeChecks_sameSettings (u) :
    SameSettings (f.started u) (f.beforeChecks u) ∧
      (f.beforeChecks u).currentDelay = (f.updateDelay (f.elapsed u)).currentDelay := by
  obtain ⟨hevents, hdelay⟩ := clearOnEvents_sameSettings f u
  obtain ⟨hdeferring, hstarted⟩ := h
  have helapsed : u.timeUs - (f.clearOnEvents u).lastUpdate = f.elapsed u := by
    rw [hevents.lastUpdate, elapsed]
  have hnever : (f.clearOnEvents u).failsafeDeferStarted = 0 :=
    hevents.failsafeDeferStarted.trans hstarted
  have hmiddle : SameSettings (f.clearOnEvents u) (f.beforeChecks u) ∧
      (f.beforeChecks u).currentDelay = ((f.clearOnEvents u).updateDelay
        (u.timeUs - (f.clearOnEvents u).lastUpdate)).currentDelay := by
    unfold beforeChecks
    dsimp only
    split_ifs <;> first
      | exact ⟨⟨rfl, rfl, rfl, rfl, rfl⟩, rfl⟩
      | simp_all
  refine ⟨hevents.trans hmiddle.1, hmiddle.2.trans ?_⟩
  rw [helapsed, updateDelay, updateDelay, hdelay]

/-- Before the selection, an update changes no settings. -/
theorem beforeSelection_sameSettings (u) : SameSettings (f.started u) (f.beforeSelection u) := by
  have hchecks := (beforeChecks_sameSettings h u).1.trans (sameSettings_after _ u.checks)
  have hend : SameSettings (after checkFailsafe (f.beforeChecks u) u.checks)
      (f.beforeSelection u) := by
    unfold beforeSelection clearDelayIfNeeded
    split_ifs <;> exact ⟨rfl, rfl, rfl, rfl, rfl⟩
  exact hchecks.trans hend

/-- The delay in the selection of an action: cleared, running on, or started in the checks. -/
theorem beforeSelection_currentDelay :
    let r := (f.beforeSelection u).currentDelay
    r = 0 ∨ f.restartsOf u = 0 ∧ r = (f.updateDelay (f.elapsed u)).currentDelay ∨
      0 < f.restartsOf u ∧ r = f.currentStartDelay := by
  obtain ⟨hsame, hdelay⟩ := beforeChecks_sameSettings h u
  have hchecks := after_currentDelay (f.beforeChecks u) u.checks
  rw [hdelay, hsame.currentStartDelay] at hchecks
  unfold beforeSelection clearDelayIfNeeded
  split_ifs
  · exact .inl rfl
  · exact .inr hchecks

end

/-- If nothing is deferred, the end of an update does not defer. -/
theorem finishUpdate_eq {s : SelectedActionState} (hnot : s.failsafeDeferred = false) :
    let r := g.finishUpdate u s
    r.currentDelay = g.currentDelay ∧ r.failActT = g.failActT ∧ r.failsafeDeferStarted = 0 ∧
      r.currentStartDelay = (g.updateStartDelay (u.timeUs - g.lastUpdate)
        (s.delayedAction ≠ .none)).currentStartDelay := by
  unfold finishUpdate updateFailsafeDeferState
  dsimp only
  rw [if_neg (by rw [hnot]; exact Bool.false_ne_true)]
  unfold updateStartDelay
  split_ifs <;> exact ⟨rfl, rfl, rfl, rfl⟩

/-- The next start delay depends on the present one and the parameter. -/
theorem updateStartDelay_congr (hstart : g.currentStartDelay = f.currentStartDelay)
    (hparam : g.failActT = f.failActT) (dt active) :
    (g.updateStartDelay dt active).currentStartDelay =
      (f.updateStartDelay dt active).currentStartDelay := by
  cases active <;> simp [updateStartDelay, hstart, hparam]

/-- What an update does to the delay and to the value it is started from. -/
structure DelayStep (f : FailsafeBase) (u : UpdateInput) (f' : FailsafeBase) : Prop where
  failActT : f'.failActT = f.failActT
  notDeferring : NotDeferring f'
  currentDelay : f'.currentDelay = 0 ∨
    f.restartsOf u = 0 ∧ f'.currentDelay = (f.updateDelay (f.elapsed u)).currentDelay ∨
    0 < f.restartsOf u ∧ f'.currentDelay = f.currentStartDelay
  delays_pos : f.delays u = true → 0 < f'.currentDelay
  currentStartDelay : f'.currentStartDelay =
    (f.updateStartDelay (f.elapsed u) (f.delays u)).currentStartDelay

/-- What an update does to the delays. -/
theorem update_delayStep (h : NotDeferring f) (u) : DelayStep f u (f.update u).1 := by
  have hsame := beforeSelection_sameSettings h u
  have hdeferring : (f.beforeSelection u).deferring = false := hsame.deferring.trans h.deferring
  obtain ⟨hnot, hpos⟩ := getSelectedAction_eq hdeferring
  have hupdate : (f.update u).1 = (f.beforeSelection u).finishUpdate u
    ((f.beforeSelection u).getSelectedAction u (f.modeUpdated u)) := rfl
  obtain ⟨hdelay, hfailActT, hstarted, hstart⟩ :=
    finishUpdate_eq hnot
  rw [← hupdate] at hdelay hfailActT hstarted hstart
  refine ⟨hfailActT.trans hsame.failActT, ⟨update_deferring h.deferring, hstarted⟩, ?_, ?_, ?_⟩
  · rw [hdelay]
    exact beforeSelection_currentDelay h
  · intro hdelays
    rw [hdelay]
    exact hpos (of_decide_eq_true hdelays)
  · rw [hstart, hsame.lastUpdate]
    exact updateStartDelay_congr (f := f) hsame.currentStartDelay hsame.failActT _ _

/-! ## The numbers -/

/-- The delay runs down to zero. -/
theorem updateDelay_toNat {elapsed} :
    (f.updateDelay elapsed).currentDelay.toNat = f.currentDelay.toNat - elapsed.toNat := by
  unfold updateDelay
  split_ifs with hlt
  · rw [lt_iff_toNat_lt] at hlt
    simp only [UInt64.toNat_zero]
    omega
  · exact UInt64.toNat_sub_of_le _ _ (UInt64.not_lt.mp hlt)

/-- The start delay runs down while a failsafe is active. -/
theorem updateStartDelay_active : (f.updateStartDelay dt true).currentStartDelay.toNat =
      f.currentStartDelay.toNat - dt.toNat := by
  unfold updateStartDelay
  rw [if_pos rfl]
  split_ifs with hlt
  · exact UInt64.toNat_sub_of_le _ _ (UInt64.le_of_lt hlt)
  · rw [UInt64.not_lt, UInt64.le_iff_toNat_le] at hlt
    simp only [UInt64.toNat_zero]
    omega

/-- The start delay does not exceed the parameter. -/
theorem updateStartDelay_idle_le :
    (f.updateStartDelay dt false).currentStartDelay ≤ f.failActT.delay := by
  unfold updateStartDelay
  rw [if_neg Bool.false_ne_true]
  dsimp only
  split_ifs with hgt
  · exact UInt64.le_refl _
  · exact UInt64.not_lt.mp hgt

/-- Without a failsafe, the start delay grows by a quarter of the time. -/
theorem updateStartDelay_idle (hfits : f.currentStartDelay.toNat + dt.toNat / 4 < 2 ^ 64) :
    (f.updateStartDelay dt false).currentStartDelay.toNat =
      min f.failActT.delay.toNat (f.currentStartDelay.toNat + dt.toNat / 4) := by
  have hincreased : (f.currentStartDelay + dt / 4).toNat =
      f.currentStartDelay.toNat + dt.toNat / 4 := by
    exact mod_eq_of_lt hfits
  unfold updateStartDelay
  rw [if_neg Bool.false_ne_true]
  dsimp only
  split_ifs with hgt
  · rw [gt_iff_lt, lt_iff_toNat_lt] at hgt
    omega
  · rw [gt_iff_lt, lt_iff_toNat_lt] at hgt
    omega

/-! ## Runs -/

/-- What the updates of a run have added up to. -/
structure Totals where
  /-- the time of the updates that end with a delayed action -/
  delayed : ℕ := 0
  /-- the time of the other updates -/
  other : ℕ := 0
  /-- how often the delay was started -/
  restarts : ℕ := 0
  /-- the largest single step -/
  largest : ℕ := 0

def counted (x : FailsafeBase × Totals) (u : UpdateInput) : FailsafeBase × Totals :=
  let dt := (x.1.elapsed u).toNat
  (x.1.updated u,
    { delayed := x.2.delayed + if x.1.delays u then dt else 0
      other := x.2.other + if x.1.delays u then 0 else dt
      restarts := x.2.restarts + x.1.restartsOf u
      largest := max x.2.largest dt })

/-- The delays of a run are paid for, or the refills alone have come to all the time there is. -/
structure PaidFor (failActT : FailActT) (f : FailsafeBase) (t : Totals) : Prop where
  failActT_eq : f.failActT = failActT
  notDeferring : NotDeferring f
  start_le : f.currentStartDelay ≤ failActT.delay
  delay_le : f.currentDelay ≤ failActT.delay
  delayed_le : t.delayed ≤ f.lastUpdate.toNat
  funds : ∃ refilled, 4 * refilled ≤ t.other ∧
    (2 ^ 64 ≤ failActT.delay.toNat + refilled ∨
      Funded failActT.delay.toNat f.currentStartDelay.toNat f.currentDelay.toNat t.delayed
        refilled (t.restarts * t.largest))

/-- The time of an update does not wrap if the clock does not go back. -/
theorem elapsed_le (hle : f.lastUpdate ≤ u.timeUs) :
    f.lastUpdate.toNat + (f.elapsed u).toNat ≤ u.timeUs.toNat := by
  unfold elapsed started
  split_ifs with hzero
  · rw [hzero, UInt64.sub_self]
    exact zero_le _
  · rw [UInt64.toNat_sub_of_le _ _ hle]
    rw [UInt64.le_iff_toNat_le] at hle
    omega

/-- The largest time of an update can only grow. -/
theorem credit_le {k r m dt : ℕ} : k * m ≤ (k + r) * max m dt :=
  Nat.mul_le_mul (Nat.le_add_right k r) (Nat.le_max_left m dt)

/-- A restart pays for the present update. -/
theorem credit_add_le {dt : ℕ} (hr : 0 < r) : k * m + dt ≤ (k + r) * max m dt := by
  have hold : k * m ≤ k * max m dt := Nat.mul_le_mul_left k (Nat.le_max_left m dt)
  have hnew : 1 * dt ≤ r * max m dt := Nat.mul_le_mul hr (Nat.le_max_right m dt)
  rw [Nat.add_mul]
  omega

/-- The delay after an update: none, the rest of the old one, or a new one. -/
theorem DelayStep.currentDelay_toNat (h : DelayStep f u f') :
    f'.currentDelay.toNat = 0 ∨
      f.restartsOf u = 0 ∧
        f'.currentDelay.toNat = f.currentDelay.toNat - (f.elapsed u).toNat ∨
      0 < f.restartsOf u ∧ f'.currentDelay.toNat = f.currentStartDelay.toNat := by
  rcases h.currentDelay with hzero | ⟨hcount, hruns⟩ | ⟨hcount, hstarted⟩
  · exact .inl (by rw [hzero, UInt64.toNat_zero])
  · exact .inr (.inl ⟨hcount, by rw [hruns, updateDelay_toNat]⟩)
  · exact .inr (.inr ⟨hcount, by rw [hstarted]⟩)

variable {failActT : FailActT} {t : Totals}

section

variable (h : PaidFor failActT f t)
include h

/-- The delay does not exceed the parameter. -/
theorem PaidFor.delay_le_step : (f.update u).1.currentDelay ≤ failActT.delay := by
  have hstart_le := le_iff_toNat_le.mp h.start_le
  have hdelay_le := le_iff_toNat_le.mp h.delay_le
  have hdelay := (update_delayStep h.notDeferring u).currentDelay_toNat
  rw [le_iff_toNat_le]
  omega

section

variable (hle : f.lastUpdate ≤ u.timeUs)
include hle

/-- An update that delays is paid for. -/
theorem PaidFor.step_delayed (hdelays : f.delays u) :
    PaidFor failActT (f.update u).1
      { delayed := t.delayed + (f.elapsed u).toNat
        other := t.other
        restarts := t.restarts + f.restartsOf u
        largest := max t.largest (f.elapsed u).toNat } := by
  have hstep := update_delayStep h.notDeferring u
  have hstart : (f.update u).1.currentStartDelay.toNat =
      f.currentStartDelay.toNat - (f.elapsed u).toNat := by
    rw [hstep.currentStartDelay, hdelays, updateStartDelay_active]
  have hpos : 0 < (f.update u).1.currentDelay.toNat :=
    lt_iff_toNat_lt.mp (hstep.delays_pos hdelays)
  obtain ⟨refilled, hrefilled, hfunds⟩ := h.funds
  refine ⟨hstep.failActT.trans h.failActT_eq, hstep.notDeferring, ?_, h.delay_le_step, ?_,
    refilled, hrefilled, hfunds.imp_right fun hfunded => ?_⟩
  · have hstart_le := le_iff_toNat_le.mp h.start_le
    rw [le_iff_toNat_le, hstart]
    exact (sub_le _ _).trans hstart_le
  · exact (Nat.add_le_add_right h.delayed_le _).trans (elapsed_le hle)
  · rw [hstart]
    apply hfunded.active
    rcases hstep.currentDelay_toNat with hzero | ⟨-, hruns⟩ | ⟨hcount, hstarted⟩
    · omega
    · exact .inl ⟨by omega, credit_le ..⟩
    · exact .inr ⟨hstarted.le, credit_add_le hcount⟩

/-- An update without a delay refills the allowance. -/
theorem PaidFor.step_other (hdelays : f.delays u = false) :
    PaidFor failActT (f.update u).1
      { delayed := t.delayed
        other := t.other + (f.elapsed u).toNat
        restarts := t.restarts + f.restartsOf u
        largest := max t.largest (f.elapsed u).toNat } := by
  have hstep := update_delayStep h.notDeferring u
  have hstart := hstep.currentStartDelay
  rw [hdelays] at hstart
  obtain ⟨refilled, hrefilled, hfunds⟩ := h.funds
  refine ⟨hstep.failActT.trans h.failActT_eq, hstep.notDeferring, ?_, h.delay_le_step, ?_,
    refilled + (f.elapsed u).toNat / 4, ?_, ?_⟩
  · rw [hstart]
    exact UInt64.le_trans updateStartDelay_idle_le (h.failActT_eq ▸ UInt64.le_refl _)
  · exact h.delayed_le.trans (UInt64.le_iff_toNat_le.mp hle)
  · dsimp only
    omega
  · rcases hfunds with hall | hfunded
    · exact .inl (by omega)
    by_cases hfits : f.currentStartDelay.toNat + (f.elapsed u).toNat / 4 < 2 ^ 64
    · refine .inr ?_
      rw [hstart, updateStartDelay_idle hfits, h.failActT_eq]
      refine hfunded.idle _ ?_ (credit_le ..)
      rcases hstep.currentDelay_toNat with hzero | ⟨-, hruns⟩ | ⟨-, hstarted⟩
      · exact .inl (by omega)
      · exact .inl (by rw [hruns]; exact sub_le _ _)
      · exact .inr hstarted.le
    · -- the sum wraps around: the refills alone have come to all the time there is
      have hstart_le := le_iff_toNat_le.mp h.start_le
      exact .inl (by omega)

/-- The account is right after every update. -/
theorem PaidFor.step : PaidFor failActT (counted (f, t) u).1 (counted (f, t) u).2 := by
  unfold counted updated
  cases hdelays : f.delays u with
  | true => exact h.step_delayed hle hdelays
  | false => exact h.step_other hle hdelays

end

/-- The account bounds the time of all delays. -/
theorem PaidFor.bound :
    t.delayed ≤ failActT.delay.toNat + t.other / 4 + t.restarts * t.largest := by
  obtain ⟨refilled, hrefilled, hall | hfunded⟩ := h.funds
  · have hdelayed := h.delayed_le
    have htime := f.lastUpdate.toNat_lt
    omega
  · have hused := hfunded.used_le
    omega

end

/-- The account is right in the beginning. -/
theorem paidFor_construct : PaidFor failActT (construct failActT) {} where
  failActT_eq := rfl
  notDeferring := ⟨rfl, rfl⟩
  start_le := UInt64.le_refl _
  delay_le := UInt64.zero_le
  delayed_le := zero_le _
  funds := ⟨0, zero_le _, .inr (Funded.start _)⟩

/-- Sorted times do not go back in a run. -/
theorem along_of_pairwise {us : List UpdateInput} (hsorted : (us.map (·.timeUs)).Pairwise (· ≤ ·))
    (hfirst : ∀ u ∈ us, f.lastUpdate ≤ u.timeUs) :
    Run.Along counted (fun x u => x.1.lastUpdate ≤ u.timeUs) (f, t) us := by
  induction us generalizing f t with
  | nil => trivial
  | cons u us ih =>
    rw [List.map_cons, List.pairwise_cons] at hsorted
    refine ⟨hfirst u (List.mem_cons_self ..), ih hsorted.2 fun v hv => ?_⟩
    exact hsorted.1 v.timeUs (List.mem_map_of_mem hv)

/-- **A condition that toggles cannot delay its action without bound.** -/
theorem delay_bounded (failActT : FailActT) (us : List UpdateInput)
    (hsorted : (us.map (·.timeUs)).Pairwise (· ≤ ·)) :
    let totals := (after counted (construct failActT, {}) us).2
    totals.delayed ≤
        failActT.delay.toNat + totals.other / 4 + totals.restarts * totals.largest ∧
      Run.Always counted (fun x =>
        x.1.currentStartDelay ≤ failActT.delay ∧ x.1.currentDelay ≤ failActT.delay)
        (construct failActT, {}) us := by
  have halong : Run.Along counted (fun x u => x.1.lastUpdate ≤ u.timeUs)
      (construct failActT, {}) us := along_of_pairwise hsorted fun _ _ => UInt64.zero_le
  have hstep : ∀ (x : FailsafeBase × Totals) (u : UpdateInput), PaidFor failActT x.1 x.2 →
      x.1.lastUpdate ≤ u.timeUs → PaidFor failActT (counted x u).1 (counted x u).2 :=
    fun x u hx hle => hx.step hle
  refine ⟨(after_of_invariant hstep paidFor_construct halong).bound, ?_⟩
  exact always_of_invariant hstep (fun x hx => ⟨hx.start_le, hx.delay_le⟩)
    paidFor_construct halong

def fiveSeconds : FailActT := { delay := 5000000, exceedsTenth := true }

/-- A condition fails, clears and fails again, a second each. -/
def togglingFlight : List UpdateInput :=
  [{ timeUs := 1000000, state := { armed := true }, checks := [returnCheck 0 false true]
     distinct := by decide },
   { timeUs := 2000000, state := { armed := true }, checks := [returnCheck 0 true false]
     distinct := by decide },
   { timeUs := 3000000, state := { armed := true }, checks := [returnCheck 0 false true]
     distinct := by decide }]

theorem delay_bounded_togglingFlight :
    (after counted (construct fiveSeconds, {}) togglingFlight).2.delayed = 1000000 ∧
      (after counted (construct fiveSeconds, {}) togglingFlight).2.other = 1000000 ∧
      1000000 ≤ 5000000 + 1000000 / 4 + (after counted (construct fiveSeconds, {})
        togglingFlight).2.restarts * 1000000 := by
  have hbound := (delay_bounded fiveSeconds togglingFlight (by decide)).1
  exact ⟨by decide +kernel, by decide +kernel, hbound⟩

end FailsafeBase

end Px4.Commander
