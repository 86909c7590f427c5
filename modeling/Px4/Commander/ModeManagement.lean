import Px4.Commander.ExternalChecks

/-!
# External modes and mode executors

`src/modules/commander/ModeManagement.{hpp,cpp}`: external components register an arming check, a
mode with a check, or an executor that owns a mode, in three tables that refer to each other. A
component is removed on its own request, with ids that it sends along, or because it does not
respond.

Ids are `none` where the source has `-1`, and for the executor in charge where it has
`AUTOPILOT_EXECUTOR_ID`. Setpoint types, configuration overrides and texts are left out.
-/

namespace Px4.Commander

open List

abbrev maxNumModes : ℕ := 8

/-- The index of an external mode. -/
abbrev ModeIdx := Fin maxNumModes

abbrev maxNumExecutors : ℕ := 5

/-- The index of a mode executor, whose id is larger by `FIRST_EXECUTOR_ID`. -/
abbrev ExecutorIdx := Fin maxNumExecutors

abbrev firstExternalNavState : ℕ := 23

def navModeOf (i : ModeIdx) : NavMode :=
  ⟨firstExternalNavState + i, (Nat.add_lt_add_left i.isLt _).trans_le (by decide)⟩

/-- The external mode with a navigation state. -/
def modeIdx? (navState : NavState) : Option ModeIdx :=
  if h : firstExternalNavState ≤ navState.toNat ∧
      navState.toNat < firstExternalNavState + maxNumModes then
    some ⟨navState.toNat - firstExternalNavState, by omega⟩
  else none

/-- The executor with an id, as it stands in a message. -/
def executorIdx? (id : Int8) : Option ExecutorIdx :=
  if h : 1 ≤ id.toInt ∧ id.toInt < 1 + maxNumExecutors then some ⟨(id.toInt - 1).toNat, by omega⟩
  else none

/-- The registration with an id. -/
def slot? (id : Int8) : Option Slot :=
  if h : 0 ≤ id.toInt ∧ id.toInt < maxNumRegistrations then some ⟨id.toInt.toNat, by omega⟩
  else none

/-- The `nav_mode_id` of a registration that is equal to an id, if there can be one. -/
def navModeId? (id : Int8) : Option (Option NavMode) :=
  if id = -1 then some none
  else if h : 0 ≤ id.toInt ∧ id.toInt < 32 then some (some ⟨id.toInt.toNat, by omega⟩)
  else none

/-- A name: the characters before the terminating zero. -/
abbrev Name := List UInt8

/-- The name in an array of 25 characters, the last of which is set to zero. -/
def terminated (chars : List UInt8) : Name := (chars.take 24).takeWhile (· ≠ 0)

/-- `hash_32_fnv1a_const`, where `char` is unsigned. -/
def hash32Fnv1a (name : Name) : UInt32 :=
  name.foldl (fun value char => (value ^^^ char.toUInt32) * 0x1000193) 0x811c9dc5

def replacesNavStateNone : NavState := 0xff

structure Mode where
  name : Name := []
  valid : Bool := false
  replacesNavState : NavState := replacesNavStateNone
  armingCheckRegistrationId : Option Slot := none
  modeExecutorRegistrationId : Option ExecutorIdx := none
  requestOffboardSetpoints : Bool := false

/-- `ModeExecutors::ModeExecutor`, with the index of the mode that it owns. -/
structure ModeExecutor where
  ownedNavState : Option ModeIdx := none
  valid : Bool := false

/-- The members of `ModeManagement`, and the parameters `COM_MODEi_HASH`. -/
structure ModeManagement where
  externalChecks : ExternalChecks
  modeExecutors : ExecutorIdx → ModeExecutor := fun _ => {}
  modes : ModeIdx → Mode := fun _ => {}
  modeExecutorInCharge : Option ExecutorIdx := none
  modeHashes : ModeIdx → UInt32

/-- `register_ext_component_request_s`. -/
structure RegisterRequest where
  requestId : UInt64 := 0
  name : List UInt8
  registerArmingCheck : Bool := false
  registerMode : Bool := false
  registerModeExecutor : Bool := false
  enableReplaceInternalMode : Bool := false
  replaceInternalMode : NavState := 0
  activateModeImmediately : Bool := false
  notUserSelectable : Bool := false
  requestOffboardSetpoints : Bool := false
  /-- if `new` succeeds, should the check need a buffer -/
  allocated : Bool := true

/-- `register_ext_component_reply_s`. -/
structure RegisterReply where
  requestId : UInt64
  name : Name
  success : Bool := false
  armingCheckId : Option Slot := none
  modeId : Option ModeIdx := none
  modeExecutorId : Option ExecutorIdx := none
  notUserSelectable : Bool := false

/-- `unregister_ext_component_s`. -/
structure UnregisterRequest where
  name : List UInt8
  armingCheckId : Int8
  modeId : Int8
  modeExecutorId : Int8

/-- `ModeManagement::UpdateRequest`: the new user intended state, if it is to be changed. -/
abbrev ChangeRequest := Option NavState

inductive ModeChangeSource where
  | user
  | modeExecutor
deriving DecidableEq

namespace ModeManagement

variable (userIntendedNavState : NavState)

variable (m : ModeManagement) (request : RegisterRequest)

/-! ## The tables -/

def setMode (i : ModeIdx) (mode : Mode) : ModeManagement :=
  { m with modes := Function.update m.modes i mode }

def setExecutor (e : ExecutorIdx) (executor : ModeExecutor) : ModeManagement :=
  { m with modeExecutors := Function.update m.modeExecutors e executor }

def hasFreeExecutors : Bool :=
  (finRange maxNumExecutors).any fun e => !(m.modeExecutors e).valid

def addExecutor (executor : ModeExecutor) : ModeManagement × Option ExecutorIdx :=
  match (finRange maxNumExecutors).find? fun e => !(m.modeExecutors e).valid with
  | none => (m, none)
  | some e => (m.setExecutor e { executor with valid := true }, some e)

def hasFreeExternalModes : Bool :=
  (finRange maxNumModes).any fun i => !(m.modes i).valid

/-- The hash of a name; `0` is reserved for unused indexes. -/
def modeNameHash (name : Name) : UInt32 :=
  if hash32Fnv1a name = 0 then 1 else hash32Fnv1a name

/-- The index for a new mode and the value of its parameter; a known mode gets its old index. -/
def newModeIdx (name : Name) : Option ModeIdx × Option UInt32 :=
  let firstUnusedIdx := (finRange maxNumModes).find? fun i =>
    !(m.modes i).valid && m.modeHashes i == 0
  let firstInvalidIdx := (finRange maxNumModes).find? fun i => !(m.modes i).valid
  -- the loop of the source keeps the last index that matches
  let matchingIdx := (finRange maxNumModes).reverse.find? fun i =>
    m.modeHashes i == modeNameHash name
  match matchingIdx with
  | some i =>
    if (m.modes i).valid then
      if firstUnusedIdx.isSome then (firstUnusedIdx, none) else (firstInvalidIdx, some 0)
    else (some i, none)
  | none =>
    if firstUnusedIdx.isSome then (firstUnusedIdx, some (modeNameHash name))
    else (firstInvalidIdx, some (modeNameHash name))

def addExternalMode (mode : Mode) : ModeManagement × Option ModeIdx :=
  match m.newModeIdx mode.name with
  | (none, _) => (m, none)
  | (some i, hash) =>
    if (m.modes i).valid then (m, none)
    else
      ({ m with modeHashes := hash.elim m.modeHashes (Function.update m.modeHashes i) }.setMode i
        { mode with valid := true }, some i)

def removeExternalMode (i : ModeIdx) (name : Name) : ModeManagement × Bool :=
  if (m.modes i).valid ∧ name = (m.modes i).name then
    (m.setMode i { m.modes i with valid := false }, true)
  else (m, false)

def removeModeExecutor : Option ExecutorIdx → ModeManagement
  | none => m
  | some e =>
    let m :=
      if m.modeExecutorInCharge = some e then { m with modeExecutorInCharge := none } else m
    if (m.modeExecutors e).valid then m.setExecutor e { m.modeExecutors e with valid := false }
    else m

/-- `removeRegistration`, for ids as they stand in a message. -/
def removeRegistration (registrationId navModeId : Int8) : ModeManagement :=
  match slot? registrationId, navModeId? navModeId with
  | some slot, some navModeId =>
    { m with externalChecks := (m.externalChecks.removeRegistration slot navModeId).1 }
  | _, _ => m

/-! ## Registration -/

/-- A request has to register what the parts it registers need. -/
def requestValid : Bool :=
  !(request.registerModeExecutor && !request.registerMode) &&
    !(request.registerMode && !request.registerArmingCheck)

def hasFreeRegistrations (s : ExternalChecks) : Bool := s.activeRegistrationsMask != 0xff

/-- Another mode replaces the same mode. -/
def alreadyReplaced (navState : NavState) : Bool :=
  (finRange maxNumModes).any fun i =>
    (m.modes i).valid && (m.modes i).replacesNavState == navState

/-- There is space for what a request registers. -/
def hasSpaceFor : Bool :=
  !(request.registerArmingCheck && !hasFreeRegistrations m.externalChecks) &&
    !(request.registerMode && (!m.hasFreeExternalModes ||
      request.enableReplaceInternalMode && m.alreadyReplaced request.replaceInternalMode)) &&
    !(request.registerModeExecutor && !m.hasFreeExecutors)

def requestedMode : Mode where
  name := terminated request.name
  replacesNavState :=
    if request.enableReplaceInternalMode then request.replaceInternalMode
    else replacesNavStateNone
  requestOffboardSetpoints := request.requestOffboardSetpoints

/-- The part of `checkNewRegistrations` that registers the mode. -/
def registerMode : ModeManagement × Option ModeIdx :=
  if request.registerMode then m.addExternalMode (requestedMode request) else (m, none)

def registerExecutor (navModeId : Option ModeIdx) : ModeManagement × Option ExecutorIdx :=
  if request.registerModeExecutor then
    let added := m.addExecutor { ownedNavState := navModeId }
    match navModeId with
    | none => added
    | some i =>
      (added.1.setMode i { added.1.modes i with modeExecutorRegistrationId := added.2 }, added.2)
  else (m, none)

/-- The replaced mode of a registration, if it is one that has a bit in the masks. -/
def replacedMode : Option NavMode :=
  if h : request.enableReplaceInternalMode ∧ request.replaceInternalMode.toNat < 32 then
    some ⟨request.replaceInternalMode.toNat, h.2⟩
  else none

def registerArmingCheck (navModeId : Option ModeIdx) : ModeManagement × Option Slot :=
  if request.registerArmingCheck then
    let added := m.externalChecks.addRegistration (navModeId.map navModeOf) (replacedMode request)
      request.allocated
    let m := { m with externalChecks := added.1 }
    match navModeId with
    | none => (m, added.2)
    | some i => (m.setMode i { m.modes i with armingCheckRegistrationId := added.2 }, added.2)
  else (m, none)

/-- One round of `checkNewRegistrations`: the reply, and the mode to activate. -/
def register : ModeManagement × RegisterReply × ChangeRequest :=
  let reply : RegisterReply := {
    requestId := request.requestId
    name := terminated request.name
    notUserSelectable := request.notUserSelectable }
  if requestValid request && m.hasSpaceFor request then
    let mode := m.registerMode request
    let executor := mode.1.registerExecutor request mode.2
    let check := executor.1.registerArmingCheck request mode.2
    (check.1,
      { reply with
        success := true
        armingCheckId := check.2
        modeId := mode.2
        modeExecutorId := executor.2 },
      if request.registerModeExecutor && request.activateModeImmediately then
        mode.2.map fun i => .ofNat (navModeOf i)
      else none)
  else (m, reply, none)

/-- `checkNewRegistrations`, for these messages. It stops when a mode is to be activated. -/
def checkNewRegistrations : ModeManagement → ChangeRequest → List RegisterRequest →
    ModeManagement × ChangeRequest
  | m, change, [] => (m, change)
  | m, change, request :: requests =>
    if change.isSome then (m, change)
    else
      let registered := m.register request
      checkNewRegistrations registered.1 registered.2.2 requests

/-! ## Removal -/

/-- The part of `checkUnregistrations` that removes the arming check. -/
def removeCheck (request : UnregisterRequest) : ModeManagement :=
  if request.armingCheckId ≠ -1 then m.removeRegistration request.armingCheckId request.modeId
  else m

/-- One round of `checkUnregistrations`. The executor is removed by the id in the message. -/
def unregister (request : UnregisterRequest) : ModeManagement :=
  let m := m.removeCheck request
  if request.modeId ≠ -1 then
    match modeIdx? request.modeId.toUInt8 with
    | none => m
    | some i =>
      let removed := m.removeExternalMode i (terminated request.name)
      if removed.2 then removed.1.removeModeExecutor (executorIdx? request.modeExecutorId)
      else removed.1
  else m

/-- If the removed mode is the current one, switch to Hold. -/
def holdIfCurrent (request : UnregisterRequest) : ChangeRequest :=
  if (userIntendedNavState.toNat : ℤ) = request.modeId.toInt then some .autoLoiter else none

/-- `checkUnregistrations`. It stops when the current mode is to be left. -/
def checkUnregistrations (userIntendedNavState : NavState) : ModeManagement → ChangeRequest →
    List UnregisterRequest → ModeManagement × ChangeRequest
  | m, change, [] => (m, change)
  | m, change, request :: requests =>
    if change.isSome then (m, change)
    else
      checkUnregistrations userIntendedNavState (m.unregister request)
        (holdIfCurrent userIntendedNavState request) requests

/-- One round of the loop over unresponsive modes. -/
def removeIfUnresponsive (m : ModeManagement) (i : ModeIdx) : ModeManagement :=
  let mode := m.modes i
  match mode.armingCheckRegistrationId with
  | none => m
  | some slot =>
    if mode.valid ∧ userIntendedNavState.toNat ≠ (navModeOf i).val ∧
        m.externalChecks.isUnresponsive slot then
      let m := { m with
        externalChecks := (m.externalChecks.removeRegistration slot (some (navModeOf i))).1 }
      ((m.removeModeExecutor mode.modeExecutorRegistrationId).removeExternalMode i mode.name).1
    else m

/-- The arguments of `update`, and what the checks and the subscriptions read in it. -/
structure UpdateInput where
  armed : Bool := false
  userIntendedNavState : NavState := 0
  allowUpdateWhileArmed : Bool := false
  now : HrtAbstime := 0
  replies : List ArmingCheckReply := []
  registrations : List RegisterRequest := []
  unregistrations : List UnregisterRequest := []

/-- The part of `update` that removes unresponsive modes and handles up to five messages. -/
def handleRegistrations (u : UpdateInput) : ModeManagement × ChangeRequest :=
  ((finRange maxNumModes).foldl (removeIfUnresponsive u.userIntendedNavState)
    m).checkNewRegistrations none (u.registrations.take 5)

/-- `update`. Nothing is registered or removed while armed. -/
def update (u : UpdateInput) : ModeManagement × ChangeRequest :=
  let m := { m with externalChecks := (m.externalChecks.update u.now u.replies).1 }
  if u.armed && !u.allowUpdateWhileArmed then (m, none)
  else
    let registered := m.handleRegistrations u
    checkUnregistrations u.userIntendedNavState registered.1 registered.2 (u.unregistrations.take 5)

def onUserIntendedNavStateChange (source : ModeChangeSource)
    (userIntendedNavState : NavState) : ModeManagement :=
  let modeExecutor := (modeIdx? userIntendedNavState).bind fun i =>
    if (m.modes i).valid then (m.modes i).modeExecutorRegistrationId else none
  match modeExecutor with
  | none => if source = .user then { m with modeExecutorInCharge := none } else m
  | some e => { m with modeExecutorInCharge := some e }

/-- The constructor, with the stored parameters; it tells the checks which modes are external. -/
def construct (modeHashes : ModeIdx → UInt32) : ModeManagement where
  externalChecks := {
    firstExternalNavState := navModeOf ⟨0, Nat.zero_lt_succ 7⟩
    lastExternalNavState := navModeOf ⟨7, Nat.lt_succ_self 7⟩ }
  modeHashes

inductive Event where
  | update (u : UpdateInput)
  | onUserIntendedNavStateChange (source : ModeChangeSource) (userIntendedNavState : NavState)

def step : Event → ModeManagement
  | .update u => (m.update u).1
  | .onUserIntendedNavStateChange source userIntendedNavState =>
    m.onUserIntendedNavStateChange source userIntendedNavState

end ModeManagement

end Px4.Commander
