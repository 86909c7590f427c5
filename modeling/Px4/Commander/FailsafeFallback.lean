import Px4.Commander.FailsafeDelay

/-!
# The action that is taken instead

The switch of `getSelectedAction` replaces an action whose mode cannot run by the next more severe
one whose mode can.
-/

namespace Px4.Commander

namespace FailsafeBase

variable {f : FailsafeBase} {u : UpdateInput} {modeUpdated : Bool} {flags : FailsafeFlags}
  {s : SelectedActionState} {a : Action}

/-! ## The switch -/

/-- The actions that the switch falls through, in its order. -/
def fallbackOrder : List Action :=
  [.fallbackPosCtrl, .fallbackAltCtrl, .fallbackStab, .hold, .rtl, .land, .descend, .terminate]

/-- An action of the order that can be taken: its mode can run, or it is the last one. -/
def Possible (flags : FailsafeFlags) (mode : NavState) (a : Action) : Prop :=
  a ∈ fallbackOrder ∧ (a = .terminate ∨ modeCanRun flags (modeFromAction a mode) = true)

/-- The least severe action that can be taken, from `a` on. -/
def IsFallback (flags : FailsafeFlags) (mode : NavState) (a b : Action) : Prop :=
  IsLeast {c | a ≤ c ∧ Possible flags mode c} b

variable {a' : Action} {mode : NavState} {next : Cause → Action × Cause}
  {rule : NavState × List Action}

theorem isFallback_fallThrough (hnext : a ∈ fallbackOrder ∧ a ≠ .terminate ∧ a ≤ a' ∧
      ∀ c ∈ fallbackOrder, a ≤ c → c = a ∨ a' ≤ c)
    (h : ∀ cause, IsFallback flags mode a' (next cause).1) (cause) :
    IsFallback flags mode a (fallThrough flags a (modeFromAction a mode) next cause).1 := by
  obtain ⟨ha, hlast, hle, hnext⟩ := hnext
  unfold fallThrough
  split_ifs with hcan
  · exact ⟨⟨le_rfl, ha, .inr hcan⟩, fun c hc => hc.1⟩
  · obtain ⟨⟨hle', hpossible⟩, hleast⟩ := h .generic
    refine ⟨⟨hle.trans hle', hpossible⟩, fun c hc => ?_⟩
    rcases hnext c hc.2.1 hc.1 with rfl | hc'
    · exact absurd hc.2.2 (not_or.mpr ⟨hlast, hcan⟩)
    · exact hleast ⟨hc', hc.2⟩

variable (flags)

/-- The switch selects the least severe action that can be taken. -/
theorem isFallback_possibleAction (mode) (ha : a ∈ fallbackOrder) (cause) :
    IsFallback flags mode a (possibleAction flags a cause).1 := by
  have hterminate : ∀ cause, IsFallback flags mode .terminate (caseTerminate cause).1 :=
    fun _ => ⟨⟨le_rfl, by simp [fallbackOrder, caseTerminate], .inl rfl⟩, fun _ hc => hc.1⟩
  have hdescend : ∀ cause, IsFallback flags mode .descend (caseDescend flags cause).1 :=
    isFallback_fallThrough (by decide) hterminate
  have hland : ∀ cause, IsFallback flags mode .land (caseLand flags cause).1 :=
    isFallback_fallThrough (by decide) hdescend
  have hrtl : ∀ cause, IsFallback flags mode .rtl (caseRtl flags cause).1 :=
    isFallback_fallThrough (by decide) hland
  have hhold : ∀ cause, IsFallback flags mode .hold (caseHold flags cause).1 :=
    isFallback_fallThrough (by decide) hrtl
  have hstab : ∀ cause, IsFallback flags mode .fallbackStab (caseFallbackStab flags cause).1 :=
    isFallback_fallThrough (by decide) hhold
  have haltCtrl : ∀ cause,
      IsFallback flags mode .fallbackAltCtrl (caseFallbackAltCtrl flags cause).1 :=
    isFallback_fallThrough (by decide) hstab
  have hposCtrl : ∀ cause,
      IsFallback flags mode .fallbackPosCtrl (caseFallbackPosCtrl flags cause).1 :=
    isFallback_fallThrough (by decide) haltCtrl
  cases a with
  | fallbackPosCtrl => exact hposCtrl cause
  | fallbackAltCtrl => exact haltCtrl cause
  | fallbackStab => exact hstab cause
  | hold => exact hhold cause
  | rtl => exact hrtl cause
  | land => exact hland cause
  | descend => exact hdescend cause
  | terminate => exact hterminate cause
  | none | warn | disarm => simp [fallbackOrder] at ha

theorem possibleAction_of_notMem (h : a ∉ fallbackOrder) (cause) :
    (possibleAction flags a cause).1 = a ∧ a ∈ [.none, .warn, .disarm] := by
  cases a with
  | none | warn | disarm => exact ⟨rfl, by decide⟩
  | _ => exact absurd (by decide) h

/-! ## The late rules -/

/-- The modes that already do what an action would start. -/
def alreadyRules : List (NavState × List Action) :=
  [(.autoLand, [.rtl]), (.autoRtl, [.rtl]), (.autoPrecland, [.rtl, .land])]

theorem alreadyRules_mem (hrule : rule ∈ alreadyRules) (ha : a ∈ rule.2) : a ∈ fallbackOrder := by
  have hrules : ∀ rule ∈ alreadyRules, ∀ a ∈ rule.2, a ∈ fallbackOrder := by decide
  exact hrules rule hrule a ha

/-- The mode can run and already does what the action, or the delayed one, would start. -/
def AlreadyUnderWay (mode : NavState) (a delayed : Action) : Prop :=
  ∃ rule ∈ alreadyRules, rule.1 = mode ∧ (a ∈ rule.2 ∨ delayed ∈ rule.2) ∧
    modeCanRun flags mode = true

theorem warnIfAlready_cases (s) :
    let r := warnIfAlready flags .autoPrecland [.rtl, .land]
      (warnIfAlready flags .autoRtl [.rtl] (warnIfAlready flags .autoLand [.rtl] s))
    (¬ AlreadyUnderWay flags s.updatedUserIntendedMode s.action s.delayedAction ∧ r = s) ∨
      (AlreadyUnderWay flags s.updatedUserIntendedMode s.action s.delayedAction ∧
        r.action = .warn ∧ r.delayedAction = .none) := by
  have hmodes : NavState.autoRtl ≠ .autoLand ∧ NavState.autoPrecland ≠ .autoLand ∧
      NavState.autoPrecland ≠ .autoRtl := by decide
  simp only [AlreadyUnderWay, alreadyRules, List.mem_cons, List.not_mem_nil, or_false,
    exists_eq_or_imp, exists_eq_left]
  -- at most one of the rules is for the mode of the user
  by_cases hland : s.updatedUserIntendedMode = .autoLand
  · grind [warnIfAlready]
  · by_cases hrtl : s.updatedUserIntendedMode = .autoRtl
    · grind [warnIfAlready]
    · grind [warnIfAlready]

/-! ## The selected action -/

variable {flags}

/-- What comes to the switch of `getSelectedAction`, unless it has returned before. -/
def enteringSwitch (f : FailsafeBase) (u : UpdateInput) (modeUpdated : Bool) :
    Option SelectedActionState :=
  let worst := worstAction f.actions
  if u.state.userIntendedMode = .termination ∨ f.selectedAction = .terminate then none
  else if u.state.armed = false then none
  else if f.deferring ∧ worst.allowFailsafeToBeDeferred ∧ worst.action ≠ .none then none
  else
    let delayed := f.delayHold worst
    some (f.takeOver u modeUpdated delayed.1 delayed.2)

/-- What is selected for the action that comes to the switch. -/
inductive Outcome (flags : FailsafeFlags) (userIntendedMode : NavState) (s : SelectedActionState) :
    Action → Prop where
  /-- No mode is commanded. -/
  | kept (h : s.action ∈ [.none, .warn, .disarm]) : Outcome flags userIntendedMode s s.action
  | fallback {a : Action} (h : s.action ∈ fallbackOrder)
      (hleast : IsFallback flags s.updatedUserIntendedMode s.action a)
      (hnot : ¬ AlreadyUnderWay flags s.updatedUserIntendedMode a s.delayedAction) :
      Outcome flags userIntendedMode s a
  /-- Only a warning: the mode of the user can run and does the same. -/
  | already {a : Action} (h : s.action ∈ fallbackOrder)
      (hleast : IsFallback flags s.updatedUserIntendedMode s.action a)
      (halready : AlreadyUnderWay flags userIntendedMode a s.delayedAction) :
      Outcome flags userIntendedMode s .warn

theorem getSelectedAction_of_entering (h : f.enteringSwitch u modeUpdated = some s) :
    f.getSelectedAction u modeUpdated = finishSelection u.statusFlags s := by
  unfold enteringSwitch at h
  unfold getSelectedAction
  dsimp only at h ⊢
  split_ifs at h ⊢
  rw [← Option.some.inj h]

theorem delayedAction_of_not_entering (h : f.enteringSwitch u modeUpdated = none) :
    (f.getSelectedAction u modeUpdated).delayedAction = .none := by
  unfold enteringSwitch at h
  unfold getSelectedAction
  dsimp only at h ⊢
  split_ifs at h ⊢ <;> rfl

section

variable (h : f.enteringSwitch u modeUpdated = some s)
include h

/-- What comes to the switch: Hold if delayed, the user's mode, or `POSCTL` after a takeover. -/
theorem entering_cases :
    s.delayedAction = .none ∧ (s.updatedUserIntendedMode = u.state.userIntendedMode ∨
        s.updatedUserIntendedMode = .posctl) ∨
      s.action = .hold ∧ 0 < f.currentDelay ∧
        s.updatedUserIntendedMode = u.state.userIntendedMode := by
  unfold enteringSwitch at h
  dsimp only at h
  split_ifs at h
  obtain rfl := Option.some.inj h
  set delayed := f.delayHold (worstAction f.actions) with hdelayed
  unfold takeOver
  by_cases htakeover : (actionAllowsUserTakeover delayed.1.action &&
      f.takeoverAllowed u modeUpdated delayed.1)
  · rw [if_pos htakeover]
    refine .inl ⟨rfl, ?_⟩
    split_ifs
    · exact .inr rfl
    · exact .inl rfl
  · rw [if_neg htakeover, hdelayed]
    unfold delayHold
    dsimp only
    split_ifs with hdelay
    · exact .inr ⟨rfl, hdelay.1, rfl⟩
    · exact .inl ⟨rfl, .inl rfl⟩

/-- None of the late rules is for the mode that the sticks take over to. -/
theorem AlreadyUnderWay.userIntendedMode_eq
    (halready : AlreadyUnderWay flags s.updatedUserIntendedMode a s.delayedAction) :
    s.updatedUserIntendedMode = u.state.userIntendedMode := by
  have hmodes : ∀ rule ∈ alreadyRules, rule.1 ≠ NavState.posctl := by decide
  obtain ⟨rule, hrule, hmode, -⟩ := halready
  rcases entering_cases h with ⟨-, huser | hsticks⟩ | ⟨-, -, huser⟩
  · exact huser
  · exact absurd (hmode.trans hsticks) (hmodes rule hrule)
  · exact huser

theorem outcome_of_entering :
    Outcome u.statusFlags u.state.userIntendedMode s
      (f.getSelectedAction u modeUpdated).action := by
  rw [getSelectedAction_of_entering h]
  have hfinish := warnIfAlready_cases u.statusFlags { s with
    action := (possibleAction u.statusFlags s.action s.cause).1
    cause := (possibleAction u.statusFlags s.action s.cause).2 }
  by_cases horder : s.action ∈ fallbackOrder
  · have hleast := isFallback_possibleAction u.statusFlags s.updatedUserIntendedMode horder s.cause
    rcases hfinish with ⟨hnot, hfinish⟩ | ⟨halready, hwarn, -⟩
    · rw [finishSelection, hfinish]
      exact .fallback horder hleast hnot
    · rw [finishSelection, hwarn]
      exact .already horder hleast (halready.userIntendedMode_eq h ▸ halready)
  · -- such an action is not delayed, and no rule is for it
    obtain ⟨hpossible, hkept⟩ := possibleAction_of_notMem u.statusFlags horder s.cause
    have hdelayed : s.delayedAction = .none := by
      rcases entering_cases h with ⟨hnone, -⟩ | ⟨hhold, -⟩
      · exact hnone
      · exact absurd (hhold ▸ by decide) horder
    rcases hfinish with ⟨-, hfinish⟩ | ⟨⟨rule, hrule, -, haction | hnone, -⟩, -⟩
    · rw [finishSelection, hfinish]
      exact hpossible.symm ▸ .kept hkept
    · exact absurd (alreadyRules_mem hrule haction) (hpossible.symm ▸ horder)
    · exact absurd (hdelayed ▸ alreadyRules_mem hrule hnone) (by decide)

end

theorem modeCanRun_of_delay (h : 0 < (f.clearDelayIfNeeded flags).currentDelay) :
    modeCanRun flags .autoLoiter := by
  unfold clearDelayIfNeeded at h
  split_ifs at h with hclear
  · exact absurd h (UInt64.lt_irrefl 0)
  · exact Bool.eq_true_of_not_eq_false fun hnot => hclear (.inr (.inl hnot))

theorem hold_of_delays (h : f.delays u) :
    (f.update u).1.selectedAction = .hold ∧ modeCanRun u.statusFlags .autoLoiter := by
  have hdelays : ((f.beforeSelection u).getSelectedAction u (f.modeUpdated u)).delayedAction ≠
      .none := of_decide_eq_true h
  change ((f.beforeSelection u).getSelectedAction u (f.modeUpdated u)).action = .hold ∧ _
  cases hentering : (f.beforeSelection u).enteringSwitch u (f.modeUpdated u) with
  | none => exact absurd (delayedAction_of_not_entering hentering) hdelays
  | some s =>
    rw [getSelectedAction_of_entering hentering] at hdelays ⊢
    have hfinish := warnIfAlready_cases u.statusFlags { s with
      action := (possibleAction u.statusFlags s.action s.cause).1
      cause := (possibleAction u.statusFlags s.action s.cause).2 }
    rcases hfinish with ⟨-, hfinish⟩ | ⟨-, -, hnone⟩
    · rw [finishSelection, hfinish] at hdelays ⊢
      rcases entering_cases hentering with ⟨hnone, -⟩ | ⟨hhold, hdelay, -⟩
      · exact absurd hnone hdelays
      · have hcan := modeCanRun_of_delay hdelay
        rw [hhold]
        exact ⟨by simp [possibleAction, caseHold, fallThrough, hcan], hcan⟩
    · exact absurd hnone hdelays

/-- **The failsafe commands a mode that can run, and no weaker action for lack of one.** While an
action is delayed the vehicle holds, in a mode that can run. -/
theorem selects_possible_action (f : FailsafeBase) (u : UpdateInput) :
    (∀ modeUpdated s, f.enteringSwitch u modeUpdated = some s →
      Outcome u.statusFlags u.state.userIntendedMode s
        (f.getSelectedAction u modeUpdated).action) ∧
    (f.delays u = true →
      (f.update u).1.selectedAction = .hold ∧ modeCanRun u.statusFlags .autoLoiter = true) :=
  ⟨fun _ _ => outcome_of_entering, hold_of_delays⟩

end FailsafeBase

end Px4.Commander
