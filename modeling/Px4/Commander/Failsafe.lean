import Mathlib.Data.List.FinRange
import Px4.Common.Run
import Px4.Commander.FailsafeFlags

/-!
# The failsafe framework

`src/modules/commander/failsafe/framework.{h,cpp}`: `checkFailsafe` records the failing checks in a
table of eight actions, and after the checks of an update `getSelectedAction` takes the worst one,
subject to deferral, delay, user takeover and what modes can run.

What the derived class does in an update is part of the input: the checks, and its two other virtual
functions. Events and log messages are not modelled, the arguments of `notifyUser` are.
-/

namespace Px4.Commander

/-- `FailsafeBase::Action`; actions further down take precedence. -/
inductive Action where
  | none
  | warn
  | fallbackPosCtrl
  | fallbackAltCtrl
  | fallbackStab
  | hold
  | rtl
  | land
  | descend
  | disarm
  | terminate
deriving DecidableEq

namespace Action

/-- The value of the enumerator. -/
def severity : Action → ℕ
  | none => 0
  | warn => 1
  | fallbackPosCtrl => 2
  | fallbackAltCtrl => 3
  | fallbackStab => 4
  | hold => 5
  | rtl => 6
  | land => 7
  | descend => 8
  | disarm => 9
  | terminate => 10

theorem severity_injective : Function.Injective severity := by
  intro a b h
  cases a <;> cases b <;> first | rfl | cases h

instance : LinearOrder Action := LinearOrder.lift' severity severity_injective

variable {a : Action}

theorem none_le : none ≤ a := Nat.zero_le a.severity

end Action

inductive ClearCondition where
  | whenConditionClears
  | onModeChangeOrDisarm
  | onDisarm
  | never
deriving DecidableEq

/-- `FailsafeBase::Cause`; `Cause::Count` is only used for "no cause". -/
inductive Cause where
  | generic
  | manualControlLoss
  | gcsConnectionLoss
  | batteryLow
  | batteryCritical
  | batteryEmergency
  | remainingFlightTimeLow
deriving DecidableEq

/-- `FailsafeBase::UserTakeoverAllowed`, from the least to the most restrictive. -/
inductive UserTakeoverAllowed where
  | always
  | alwaysModeSwitchOnly
  | auto
  | never
deriving DecidableEq

/-- The value of the enumerator. -/
def UserTakeoverAllowed.restriction : UserTakeoverAllowed → ℕ
  | always => 0
  | alwaysModeSwitchOnly => 1
  | auto => 2
  | never => 3

/-- The id of a caller of `checkFailsafe`: an offset into the flags, or a generated number. -/
abbrev CallerId := ℕ

/-- `FailsafeBase::ActionOptions`; `id` is `none` where the source has `-1`. -/
structure ActionOptions where
  action : Action := .none
  clearCondition : ClearCondition := .whenConditionClears
  cause : Cause := .generic
  allowUserTakeover : UserTakeoverAllowed := .auto
  canBeDeferred : Bool := true
  stateFailure : Bool := false
  activated : Bool := false
  id : Option CallerId := none

namespace ActionOptions

def valid (a : ActionOptions) : Bool := a.id.isSome

def setInvalid (a : ActionOptions) : ActionOptions := { a with id := none }

end ActionOptions

def maxNumActions : ℕ := 8

/-- `_actions`. -/
abbrev ActionTable := Fin maxNumActions → ActionOptions

/-- The arguments of a call of `checkFailsafe`. -/
structure Check where
  callerId : CallerId
  lastStateFailure : Bool
  curStateFailure : Bool
  options : ActionOptions

/-- The members of `FailsafeBase::State` that the framework reads. -/
structure VehicleState where
  armed : Bool := false
  userIntendedMode : NavState := 0

/-- `COM_FAIL_ACT_T`: its value in microseconds, and whether it exceeds `0.1f` seconds. -/
structure FailActT where
  delay : HrtAbstime
  exceedsTenth : Bool

/-- The arguments of an `update`, and what the virtual functions do; check ids are distinct. -/
structure UpdateInput where
  timeUs : HrtAbstime
  state : VehicleState
  userIntendedModeUpdated : Bool := false
  rcSticksTakeoverRequest : Bool := false
  statusFlags : FailsafeFlags := {}
  checks : List Check
  distinct : (checks.map (·.callerId)).Nodup
  checkModeFallback : FailsafeFlags → NavState → Action := fun _ _ => .none
  modifyUserIntendedMode : Action → Action → NavState → NavState := fun _ _ mode => mode

structure FailsafeBase where
  actions : ActionTable := fun _ => {}
  lastUpdate : HrtAbstime := 0
  lastArmed : Bool := false
  lastUserIntendedMode : NavState := 0
  selectedAction : Action := .none
  userTakeoverActive : Bool := false
  pendingNotificationCause : Option Cause := none
  /-- `_defer_failsafes` -/
  deferring : Bool := false
  deferTimeout : HrtAbstime := 0
  failsafeDeferStarted : HrtAbstime := 0
  currentStartDelay : HrtAbstime
  currentDelay : HrtAbstime := 0
  /-- `_param_com_fail_act_t` -/
  failActT : FailActT

structure SelectedActionState where
  action : Action := .none
  delayedAction : Action := .none
  cause : Cause := .generic
  updatedUserIntendedMode : NavState := 0
  userTakeover : Bool := false
  failsafeDeferred : Bool := false

/-- The arguments of `notifyUser`, and the delay in seconds that it shows. -/
structure UserNotification where
  userIntendedMode : NavState
  action : Action
  delayedAction : Action
  cause : Cause
  delayS : UInt64

/-- `1_s`. -/
def oneSecond : HrtAbstime := 1000000

namespace FailsafeBase

variable (t : ActionTable) (action : Action)

variable (f : FailsafeBase) (flags : FailsafeFlags) (u : UpdateInput)

def construct (failActT : FailActT) : FailsafeBase where
  currentStartDelay := failActT.delay
  failActT

def updateParams (failActT : FailActT) : FailsafeBase :=
  { f with failActT, currentStartDelay := failActT.delay }

/-! ## The table of actions -/

/-- `removeActions`: an event clears the actions whose check is not failing. -/
def removeActions (condition : ClearCondition) (t : ActionTable) : ActionTable := fun i =>
  if (t i).valid && !(t i).stateFailure && decide ((t i).clearCondition = condition) then
    (t i).setInvalid
  else t i

/-- `removeAction`. While deferring, an action that can be deferred is removed in any case. -/
def removeAction (deferring : Bool) (a : ActionOptions) : ActionOptions :=
  let removeWhileDeferring := deferring && a.canBeDeferred
  if a.clearCondition = .whenConditionClears ∨ removeWhileDeferring then a.setInvalid
  else { a with stateFailure := false }

/-- The first loop of `checkFailsafe`: the caller's action, the last unused place before it. -/
def searchLoop (t : ActionTable) (callerId : CallerId) : List (Fin maxNumActions) →
    Option (Fin maxNumActions) → Option (Fin maxNumActions) × Option (Fin maxNumActions)
  | [], freeIdx => (freeIdx, none)
  | i :: is, freeIdx =>
    if !(t i).valid then searchLoop t callerId is (some i)
    else if (t i).id = some callerId then (freeIdx, some i)
    else searchLoop t callerId is freeIdx

/-- The second loop, which remembers the last place with a less severe action. -/
def replaceLoop (t : ActionTable) (action : Action) : List (Fin maxNumActions) →
    Option (Fin maxNumActions) → Option (Fin maxNumActions)
  | [], freeIdx => freeIdx
  | i :: is, freeIdx =>
    replaceLoop t action is (if action > (t i).action then some i else freeIdx)

/-- The place for a new action: an unused one, or that of a less severe action. -/
def placeFor (t : ActionTable) (action : Action) :
    Option (Fin maxNumActions) → Option (Fin maxNumActions)
  | some i => some i
  | none => replaceLoop t action (List.finRange maxNumActions) none

/-- The action that a failing check adds. -/
def newAction (failActT : FailActT) (c : Check) : ActionOptions :=
  { c.options with
    id := some c.callerId
    stateFailure := true
    activated := true
    allowUserTakeover :=
      if c.options.allowUserTakeover = .auto then
        if failActT.exceedsTenth then .always else .alwaysModeSwitchOnly
      else c.options.allowUserTakeover }

/-- The rest of `checkFailsafe` when an action is added. -/
def addAction (freeIdx : Fin maxNumActions) (c : Check) : FailsafeBase :=
  { f with
    actions := Function.update f.actions freeIdx (newAction f.failActT c)
    currentDelay :=
      if c.options.allowUserTakeover = .auto ∧ f.failActT.exceedsTenth ∧
          c.options.action ≠ .warn ∧ f.currentDelay = 0 then f.currentStartDelay
      else f.currentDelay
    pendingNotificationCause :=
      if c.options.action ≠ .none then some c.options.cause else f.pendingNotificationCause
    userTakeoverActive :=
      if c.options.action ≥ .hold then false else f.userTakeoverActive }

/-- The action of a caller whose check fails again; only the action may be updated. -/
def failAgain (a : ActionOptions) (action : Action) : ActionOptions :=
  { a with stateFailure := true, activated := true, action }

/-- `checkFailsafe`; it returns `cur_state_failure`. -/
def checkFailsafe (c : Check) : FailsafeBase :=
  if c.curStateFailure then
    match searchLoop f.actions c.callerId (List.finRange maxNumActions) none with
    | (_, some foundIdx) =>
      { f with
        actions := Function.update f.actions foundIdx
          (failAgain (f.actions foundIdx) c.options.action) }
    | (freeIdx, none) =>
      match placeFor f.actions c.options.action freeIdx with
      | some i => f.addAction i c
      | none => f
  else if c.lastStateFailure then
    { f with
      actions := fun i =>
        if (f.actions i).id = some c.callerId then removeAction f.deferring (f.actions i)
        else f.actions i }
  else f

/-- One round of `removeNonActivatedActions`. -/
def endOfUpdate (deferring : Bool) (a : ActionOptions) : ActionOptions :=
  { (if a.valid && !a.activated then removeAction deferring a else a) with activated := false }

/-- `removeNonActivatedActions`: a check that was not made counts as one that is not failing. -/
def removeNonActivatedActions : FailsafeBase :=
  { f with actions := fun i => endOfUpdate f.deferring (f.actions i) }

/-! ## Modes -/

/-- A condition that a mode requires and that does not hold. -/
def violated (invalid : Bool) (modeReq modeMask : NavModes) : Bool :=
  invalid && modeReq &&& modeMask != 0

/-- `modeCanRun`. The shift of the source is defined for the modes, which are less than 32. -/
def modeCanRun (mode : NavState) : Bool :=
  let modeMask : NavModes := .twoPow 32 mode.toNat
  !violated flags.angularVelocityInvalid (flags.modeReq .angularVelocity) modeMask &&
  !violated flags.attitudeInvalid (flags.modeReq .attitude) modeMask &&
  !violated flags.localPositionInvalid (flags.modeReq .localPosition) modeMask &&
  !violated flags.localPositionInvalidRelaxed (flags.modeReq .localPositionRelaxed) modeMask &&
  !violated flags.globalPositionInvalid (flags.modeReq .globalPosition) modeMask &&
  !violated flags.globalPositionInvalidRelaxed (flags.modeReq .globalPositionRelaxed) modeMask &&
  !violated flags.localAltitudeInvalid (flags.modeReq .localAlt) modeMask &&
  !violated flags.autoMissionMissing (flags.modeReq .mission) modeMask &&
  !violated flags.offboardControlSignalLost flags.modeReqOffboardSignal modeMask &&
  !violated flags.homePositionInvalid (flags.modeReq .homePosition) modeMask &&
  !violated true flags.modeReqOther modeMask

def modeFromAction (userIntendedMode : NavState) : NavState :=
  match action with
  | .fallbackPosCtrl => .posctl
  | .fallbackAltCtrl => .altctl
  | .fallbackStab => .stab
  | .hold => .autoLoiter
  | .rtl => .autoRtl
  | .land => .autoLand
  | .descend => .descend
  | .terminate | .disarm | .none | .warn => userIntendedMode

/-- `actionAllowsUserTakeover`: stick-controlled modes do not need user takeover. -/
def actionAllowsUserTakeover : Bool :=
  action = .hold || action = .rtl || action = .land || action = .descend

/-! ## The selected action -/

/-- The variables of the loop of `getSelectedAction` over the table. -/
structure Selection where
  action : Action := .none
  cause : Cause := .generic
  allowUserTakeover : UserTakeoverAllowed := .always
  allowFailsafeToBeDeferred : Bool := true

/-- One round of the loop. -/
def Selection.consider (s : Selection) (a : ActionOptions) : Selection :=
  if !a.valid then s
  else if a.action = .none then s
  else
    { action := if a.action > s.action then a.action else s.action
      cause := if a.action > s.action then a.cause else s.cause
      allowUserTakeover :=
        if a.allowUserTakeover.restriction > s.allowUserTakeover.restriction then
          a.allowUserTakeover
        else s.allowUserTakeover
      allowFailsafeToBeDeferred := s.allowFailsafeToBeDeferred && a.canBeDeferred }

/-- The loop of `getSelectedAction`: the worst action of the table. -/
def worstAction : Selection :=
  (List.finRange maxNumActions).foldl (fun s i => s.consider (t i)) {}

def delayHold (s : Selection) : Selection × Action :=
  let actionCanBeDelayed := s.action ≠ .none ∧ s.action ≠ .warn ∧ s.action ≠ .disarm ∧
    s.action ≠ .terminate ∧ s.action ≠ .hold
  if f.currentDelay > 0 ∧ f.userTakeoverActive = false ∧
      s.allowUserTakeover.restriction ≤ UserTakeoverAllowed.alwaysModeSwitchOnly.restriction ∧
      actionCanBeDelayed then
    ({ s with action := .hold, allowUserTakeover := .alwaysModeSwitchOnly }, s.action)
  else (s, .none)

/-- `takeover_allowed`: by a mode switch while a failsafe is active, or by the sticks. -/
def takeoverAllowed (userIntendedModeUpdated : Bool) (s : Selection) : Bool :=
  let wantUserTakeoverModeSwitch := userIntendedModeUpdated && decide (f.selectedAction > .warn)
  let wantUserTakeover := wantUserTakeoverModeSwitch || u.rcSticksTakeoverRequest
  s.allowUserTakeover = .always && (f.userTakeoverActive || wantUserTakeover) ||
    s.allowUserTakeover = .alwaysModeSwitchOnly &&
      (f.userTakeoverActive || wantUserTakeoverModeSwitch)

/-- The user takes over, if wanted and allowed; the mode of the user may need a fallback. -/
def takeOver (userIntendedModeUpdated : Bool)
    (s : Selection) (delayedAction : Action) : SelectedActionState :=
  if actionAllowsUserTakeover s.action && f.takeoverAllowed u userIntendedModeUpdated s then
    let updatedUserIntendedMode :=
      if !f.userTakeoverActive && u.rcSticksTakeoverRequest then NavState.posctl
      else u.state.userIntendedMode
    let modeFallback := u.checkModeFallback u.statusFlags
      (modeFromAction .warn updatedUserIntendedMode)
    { action := if modeFallback > .warn then modeFallback else .warn
      cause := s.cause
      updatedUserIntendedMode
      userTakeover := true }
  else
    { action := s.action
      delayedAction
      cause := s.cause
      updatedUserIntendedMode := u.state.userIntendedMode }

/-- A case of the switch: the action if its mode can run, and else the next case. -/
def fallThrough (action : Action) (mode : NavState)
    (next : Cause → Action × Cause) (cause : Cause) : Action × Cause :=
  if modeCanRun flags mode then (action, cause) else next .generic

def caseTerminate (cause : Cause) : Action × Cause := (.terminate, cause)

def caseDescend : Cause → Action × Cause :=
  fallThrough flags .descend .descend caseTerminate

def caseLand : Cause → Action × Cause :=
  fallThrough flags .land .autoLand (caseDescend flags)

def caseRtl : Cause → Action × Cause :=
  fallThrough flags .rtl .autoRtl (caseLand flags)

def caseHold : Cause → Action × Cause :=
  fallThrough flags .hold .autoLoiter (caseRtl flags)

def caseFallbackStab : Cause → Action × Cause :=
  fallThrough flags .fallbackStab .stab (caseHold flags)

def caseFallbackAltCtrl : Cause → Action × Cause :=
  fallThrough flags .fallbackAltCtrl .altctl (caseFallbackStab flags)

def caseFallbackPosCtrl : Cause → Action × Cause :=
  fallThrough flags .fallbackPosCtrl .posctl (caseFallbackAltCtrl flags)

/-- The switch that checks if the selected action is possible. -/
def possibleAction (action : Action) (cause : Cause) : Action × Cause :=
  match action with
  | .fallbackPosCtrl => caseFallbackPosCtrl flags cause
  | .fallbackAltCtrl => caseFallbackAltCtrl flags cause
  | .fallbackStab => caseFallbackStab flags cause
  | .hold => caseHold flags cause
  | .rtl => caseRtl flags cause
  | .land => caseLand flags cause
  | .descend => caseDescend flags cause
  | .terminate => caseTerminate cause
  | .disarm | .none | .warn => (action, cause)

/-- Only warn if the vehicle is already in the mode and one of the actions would restart it. -/
def warnIfAlready (mode : NavState) (actions : List Action)
    (s : SelectedActionState) : SelectedActionState :=
  if s.updatedUserIntendedMode = mode ∧ (s.action ∈ actions ∨ s.delayedAction ∈ actions) ∧
      modeCanRun flags mode then
    { s with action := .warn, delayedAction := .none }
  else s

/-- The rest of `getSelectedAction`: the action has to be possible, and is not started again. -/
def finishSelection (s : SelectedActionState) : SelectedActionState :=
  let possible := possibleAction flags s.action s.cause
  let s := { s with action := possible.1, cause := possible.2 }
  let s := warnIfAlready flags .autoLand [.rtl] s
  let s := warnIfAlready flags .autoRtl [.rtl] s
  warnIfAlready flags .autoPrecland [.rtl, .land] s

def getSelectedAction (userIntendedModeUpdated : Bool) : SelectedActionState :=
  let updatedUserIntendedMode := u.state.userIntendedMode
  if u.state.userIntendedMode = .termination ∨ f.selectedAction = .terminate then
    { action := .terminate, updatedUserIntendedMode }
  else if u.state.armed = false then
    { action := .none, updatedUserIntendedMode }
  else
    let worst := worstAction f.actions
    if f.deferring ∧ worst.allowFailsafeToBeDeferred ∧ worst.action ≠ .none then
      { action := .none, cause := worst.cause, updatedUserIntendedMode,
        failsafeDeferred := worst.action > .warn }
    else
      let delayed := f.delayHold worst
      finishSelection u.statusFlags (f.takeOver u userIntendedModeUpdated delayed.1 delayed.2)

/-! ## Delays and deferral -/

def updateDelay (elapsedUs : HrtAbstime) : FailsafeBase :=
  { f with currentDelay := if f.currentDelay < elapsedUs then 0 else f.currentDelay - elapsedUs }

def updateStartDelay (dt : HrtAbstime) (delayActive : Bool) : FailsafeBase :=
  if delayActive then
    { f with
      currentStartDelay := if dt < f.currentStartDelay then f.currentStartDelay - dt else 0 }
  else
    let increased := f.currentStartDelay + dt / 4
    { f with
      currentStartDelay := if increased > f.failActT.delay then f.failActT.delay else increased }

def clearDelayIfNeeded : FailsafeBase :=
  if f.selectedAction > .hold ∨ modeCanRun flags .autoLoiter = false ∨
      f.userTakeoverActive = true then
    { f with currentDelay := 0 }
  else f

def updateFailsafeDeferState (timeUs : HrtAbstime) (defer : Bool) : FailsafeBase :=
  if defer then
    if f.failsafeDeferStarted = 0 then { f with failsafeDeferStarted := timeUs } else f
  else { f with failsafeDeferStarted := 0 }

def defaultDeferTimeout : HrtAbstime := 30 * oneSecond

/-- `deferFailsafes`, and whether it succeeds. -/
def deferFailsafes (enabled : Bool) (timeoutS : ℤ) : FailsafeBase × Bool :=
  if enabled ∧ f.selectedAction > .warn then (f, false)
  else
    ({ f with
      currentDelay :=
        if enabled = false ∧ f.deferring ∧ f.failsafeDeferStarted = 0 then 0 else f.currentDelay
      deferTimeout :=
        if timeoutS = 0 then defaultDeferTimeout
        else if timeoutS < 0 then 0
        else .ofNat timeoutS.toNat * oneSecond
      deferring := enabled }, true)

/-! ## An update -/

/-- The table after arming, disarming, a new user intended mode or a user takeover. -/
def clearOnEvents : FailsafeBase :=
  let f := { f with lastUpdate := if f.lastUpdate = 0 then u.timeUs else f.lastUpdate }
  if f.lastArmed ≠ u.state.armed then
    { f with
      actions := removeActions .onModeChangeOrDisarm (removeActions .onDisarm f.actions)
      userTakeoverActive := false }
  else f

/-- `user_intended_mode_updated`: the mode was set, or has changed. -/
def modeUpdated : Bool :=
  u.userIntendedModeUpdated || decide (f.lastUserIntendedMode ≠ u.state.userIntendedMode)

/-- The part of `update` before the checks. -/
def beforeChecks : FailsafeBase :=
  let f := f.clearOnEvents u
  let f :=
    if f.modeUpdated u || f.userTakeoverActive then
      { f with actions := removeActions .onModeChangeOrDisarm f.actions }
    else f
  let f :=
    if f.deferring ∧ f.failsafeDeferStarted ≠ 0 ∧ f.deferTimeout > 0 ∧
        u.timeUs > f.failsafeDeferStarted + f.deferTimeout then
      { f with deferring := false }
    else f
  if f.failsafeDeferStarted = 0 then f.updateDelay (u.timeUs - f.lastUpdate) else f

/-- The state after `removeNonActivatedActions`. -/
def afterChecks : FailsafeBase :=
  (Run.after checkFailsafe (f.beforeChecks u) u.checks).removeNonActivatedActions

/-- What `notifyUser` is called with: an escalation, or a new condition that is subsumed. -/
def notification (s : SelectedActionState) : Option UserNotification :=
  let delayS := (f.currentDelay + 500000) / oneSecond
  if s.action > f.selectedAction then
    some {
      userIntendedMode := u.state.userIntendedMode
      action := s.action
      delayedAction := s.delayedAction
      cause := s.cause
      delayS }
  else
    f.pendingNotificationCause.map fun cause => {
      userIntendedMode := u.state.userIntendedMode
      action := .warn
      delayedAction := .none
      cause
      delayS }

/-- The part of `update` after the selection. -/
def finishUpdate (s : SelectedActionState) : FailsafeBase :=
  let f := f.updateStartDelay (u.timeUs - f.lastUpdate) (s.delayedAction ≠ .none)
  let f := f.updateFailsafeDeferState u.timeUs s.failsafeDeferred
  { f with
    pendingNotificationCause := none
    lastUserIntendedMode :=
      u.modifyUserIntendedMode f.selectedAction s.action s.updatedUserIntendedMode
    userTakeoverActive := s.userTakeover
    selectedAction := s.action
    lastUpdate := u.timeUs
    lastArmed := u.state.armed }

/-- `update` and its notification; `lastUserIntendedMode` of the new state is returned. -/
def update : FailsafeBase × Option UserNotification :=
  let g := (f.afterChecks u).clearDelayIfNeeded u.statusFlags
  let s := g.getSelectedAction u (f.modeUpdated u)
  (g.finishUpdate u s, g.notification u s)

/-- What happens to a failsafe: an update, or a call of its owner. -/
inductive Event where
  | update (u : UpdateInput)
  | deferFailsafes (enabled : Bool) (timeoutS : ℤ)
  | updateParams (failActT : FailActT)

def step : Event → FailsafeBase
  | .update u => (f.update u).1
  | .deferFailsafes enabled timeoutS => (f.deferFailsafes enabled timeoutS).1
  | .updateParams failActT => f.updateParams failActT

end FailsafeBase

end Px4.Commander
