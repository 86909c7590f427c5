import Mathlib.Data.List.FinRange
import Px4.Common.Run
import Px4.Commander.FailsafeFlags

/-!
# Arming checks of external modes

`src/modules/commander/HealthAndArmingChecks/checks/externalChecks.{hpp,cpp}`, and the part of
`Report` (`Common.{hpp,cpp}`) that it uses. External components register in one of eight slots, for
a navigation mode or as a generic arming check, and are asked for their state by numbered requests.

The heap buffer of a slot is allocated when it is used for the first time and is neither freed nor
cleared when the registration is removed. The replies and the result of the allocation are part of
the input.
-/

namespace Px4.Commander

/-- A mode that has a bit in the masks; a static assertion of the source keeps them below 32. -/
abbrev NavMode := Fin 32

abbrev maxNumRegistrations : ℕ := 8

/-- The index of a registration. -/
abbrev Slot := Fin maxNumRegistrations

/-- `1u << i`, the bit of a slot in the masks. -/
def slotBit (i : Slot) : BitVec 32 := .twoPow 32 i

/-- An entry of `arming_check_reply_s::events`: its id and log levels. -/
structure ReplyEvent where
  id : UInt32
  logLevels : UInt8

/-- The members of `arming_check_reply_s` about the component; `events` has `num_events` entries. -/
structure ReplyContent where
  healthComponentIndex : UInt8 := 0
  healthComponentIsPresent : Bool := false
  healthComponentWarning : Bool := false
  healthComponentError : Bool := false
  canArmAndRun : Bool := false
  events : List ReplyEvent := []
  modeReq : ModeRequirement → Bool := fun _ => false

structure ArmingCheckReply where
  timestamp : HrtAbstime
  requestId : UInt8
  registrationId : UInt8
  content : ReplyContent

/-- The buffer behind `Registration::reply`, by default `new arming_check_reply_s()`; `update`
stores no reply whose `registration_id` is out of range. -/
structure StoredReply where
  registrationId : Slot := 0
  content : ReplyContent := {}

/-- `ExternalChecks::Registration`; the modes are `none` where the source has `-1`. -/
structure Registration where
  navModeId : Option NavMode := none
  replacesNavState : Option NavMode := none
  waitingForFirstResponse : Bool := true
  numNoResponse : UInt8 := 0
  unresponsive : Bool := false
  totalNumUnresponsive : UInt8 := 0
  reply : Option StoredReply := none

/-! ## The report -/

/-- The failures that are reported here, by the name of their event. -/
inductive CheckFailure where
  | externalModesUnresponsive
  | externalModesUnavailable

/-- The current results and flags. Events come with their modes; their buffer is not bounded. -/
structure Report where
  canArm : NavModes := .allOnes 32
  valid : Bool := false
  armingError : BitVec 32 := 0
  healthIsPresent : BitVec 32 := 0
  healthWarning : BitVec 32 := 0
  healthError : BitVec 32 := 0
  externalEvents : List (ReplyEvent × NavModes) := []
  failures : List (CheckFailure × NavModes) := []
  failsafeFlags : FailsafeFlags

namespace Report

variable (r : Report)

def reset (failsafeFlags : FailsafeFlags) : Report := { failsafeFlags }

def finalize : Report := { r with valid := true }

def getModeGroup (mode : NavMode) : NavModes := .twoPow 32 mode

/-- `Report::canArm`. -/
def canArmIn (mode : NavMode) : Bool :=
  r.valid && r.canArm &&& getModeGroup mode != 0

def clearArmingBits (modes : NavModes) : Report :=
  { r with canArm := r.canArm &&& ~~~modes }

/-- The bit of `health_component_t::system`. -/
def systemComponent : BitVec 32 := 0x100000

/-- `armingCheckFailure` for the component `system`, at a level of `Log::Error` or above. -/
def armingCheckFailure (modes : NavModes) (failure : CheckFailure) : Report :=
  { r with
    armingError := r.armingError ||| systemComponent
    failures := r.failures ++ [(failure, modes)] }.clearArmingBits modes

def setHealth (component : BitVec 32) (isPresent warning error : Bool) : Report :=
  { r with
    healthIsPresent := if isPresent then r.healthIsPresent ||| component else r.healthIsPresent
    healthWarning := if warning then r.healthWarning ||| component else r.healthWarning
    healthError := if error then r.healthError ||| component else r.healthError }

/-- `addExternalEvent`, for all events of a reply. -/
def addExternalEvents (events : List ReplyEvent) (modes : NavModes) : Report :=
  { r with externalEvents := r.externalEvents ++ events.map fun event => (event, modes) }

def mapModeReqOther (change : NavModes → NavModes) : Report :=
  { r with
    failsafeFlags := { r.failsafeFlags with modeReqOther := change r.failsafeFlags.modeReqOther } }

end Report

def setOrClearRequirementBits (requirementSet : Bool) (navState : NavMode)
    (replacesNavState : Option NavMode) (bits : NavModes) : NavModes :=
  let bits := if requirementSet then bits ||| Report.getModeGroup navState else bits
  match replacesNavState with
  | none => bits
  | some replaced =>
    if requirementSet then bits ||| Report.getModeGroup replaced
    else bits &&& ~~~Report.getModeGroup replaced

/-- A replacement mode also replaces the requirements of the replaced mode. -/
def Report.setModeRequirements (r : Report) (modeReq : ModeRequirement → Bool) (navMode : NavMode)
    (replacesNavState : Option NavMode) : Report :=
  { r with
    failsafeFlags := { r.failsafeFlags with
      modeReq := fun requirement =>
        setOrClearRequirementBits (modeReq requirement) navMode replacesNavState
          (r.failsafeFlags.modeReq requirement) } }

/-! ## The contribution of a registration -/

namespace Registration

variable (reg : Registration)

/-- The modes that a reply is about: all modes for a generic arming check. -/
def modes : NavModes :=
  match reg.navModeId with
  | none => .allOnes 32
  | some navMode =>
    match reg.replacesNavState with
    | none => Report.getModeGroup navMode
    | some replaced => Report.getModeGroup navMode ||| Report.getModeGroup replaced

/-- The mode requirements that are taken from a reply, for a mode. -/
def requirements (reply : ReplyContent) (r : Report) : Report :=
  match reg.navModeId with
  | none => r
  | some navMode =>
    let r :=
      if reply.canArmAndRun then r
      else r.mapModeReqOther (setOrClearRequirementBits true navMode reg.replacesNavState)
    r.setModeRequirements reply.modeReq navMode reg.replacesNavState

/-- `checkAndReport` for an unresponsive registration, with the report and `unresponsive_modes`. -/
def reportUnresponsive (acc : Report × NavModes) : Report × NavModes :=
  match reg.navModeId with
  | none => acc
  | some navMode =>
    (acc.1.mapModeReqOther (setOrClearRequirementBits true navMode none),
      acc.2 ||| Report.getModeGroup navMode)

/-- The branch for a registration that responds. -/
def reportReply (reply : ReplyContent) (r : Report) : Report :=
  let r := reg.requirements reply r
  let r := if reply.canArmAndRun then r else r.clearArmingBits reg.modes
  let r :=
    if reply.healthComponentIndex > 0 then
      r.setHealth (.twoPow 32 reply.healthComponentIndex.toNat) reply.healthComponentIsPresent
        reply.healthComponentWarning reply.healthComponentError
    else r
  r.addExternalEvents reply.events reg.modes

/-- What a reply of a registration adds to the report. -/
def contribution (reply : ReplyContent) (acc : Report × NavModes) : Report × NavModes :=
  if reg.unresponsive then reg.reportUnresponsive acc
  else (reg.reportReply reply acc.1, acc.2)

end Registration

structure ExternalChecks where
  activeRegistrationsMask : BitVec 32 := 0
  registrations : Slot → Registration := fun _ => {}
  firstExternalNavState : NavMode := 31
  lastExternalNavState : NavMode := 31
  lastUpdate : HrtAbstime := 0
  replyReceivedMask : BitVec 32 := 0
  hadTimeout : Bool := false
  currentRequestId : UInt8 := 0

structure ArmingCheckRequest where
  requestId : UInt8
  validRegistrationsMask : BitVec 32

namespace ExternalChecks

variable (s : ExternalChecks) (now : HrtAbstime)

def requestTimeout : HrtAbstime := 50000

def updateInterval : HrtAbstime := 300000

/-- The age at which a reply counts as timed out. -/
def replyTimeout : HrtAbstime := 300000

def numNoReplyUntilUnresponsive : ℕ := 3

def numNoReplyUntilUnresponsiveInit : ℕ := 10

/-- `arming_check_reply_s::ORB_QUEUE_LENGTH`. -/
def replyQueueLength : ℕ := 8

def registrationValid (i : Slot) : Bool :=
  slotBit i &&& s.activeRegistrationsMask != 0

def setRegistration (i : Slot) (reg : Registration) : ExternalChecks :=
  { s with registrations := Function.update s.registrations i reg }

def setExternalNavStates (first last : NavMode) : ExternalChecks :=
  { s with firstExternalNavState := first, lastExternalNavState := last }

/-! ## Registration -/

/-- What `addRegistration` writes. `allocated` says if `new` succeeds, where it is called. -/
def newRegistration (old : Registration) (navModeId replacesNavState : Option NavMode)
    (allocated : Bool) : Registration where
  navModeId
  replacesNavState
  reply :=
    match old.reply with
    | some reply => some reply
    | none => if allocated then some {} else none

/-- `addRegistration`, and the slot that it returns. -/
def addRegistration (navModeId replacesNavState : Option NavMode)
    (allocated : Bool) : ExternalChecks × Option Slot :=
  match (List.finRange maxNumRegistrations).find? fun i => !s.registrationValid i with
  | none => (s, none)
  | some i =>
    ({ s with activeRegistrationsMask := s.activeRegistrationsMask ||| slotBit i }.setRegistration i
      (newRegistration (s.registrations i) navModeId replacesNavState allocated), some i)

/-- `removeRegistration`, and whether it succeeds. The registration itself is left as it is. -/
def removeRegistration (i : Slot) (navModeId : Option NavMode) : ExternalChecks × Bool :=
  if s.registrationValid i ∧ (s.registrations i).navModeId = navModeId then
    ({ s with activeRegistrationsMask := s.activeRegistrationsMask &&& ~~~slotBit i }, true)
  else (s, false)

def isUnresponsive (i : Slot) : Bool :=
  s.registrationValid i && (s.registrations i).unresponsive

/-! ## Requests and replies -/

/-- The slot of a reply that `update` accepts: in time, registered, for the current request. -/
def acceptedFor (reply : ArmingCheckReply) : Option Slot :=
  if h : reply.registrationId.toNat < maxNumRegistrations then
    let i : Slot := ⟨reply.registrationId.toNat, h⟩
    if s.registrationValid i ∧ ¬ now > reply.timestamp + replyTimeout ∧
        s.currentRequestId = reply.requestId then some i
    else none
  else none

/-- The registration after a reply. A registration that has been unresponsive too often stays so. -/
def received (reg : Registration) (i : Slot) (content : ReplyContent) : Registration :=
  { reg with
    numNoResponse := 0
    waitingForFirstResponse := false
    unresponsive := if reg.totalNumUnresponsive ≤ 3 then false else reg.unresponsive
    reply := reg.reply.map fun _ => { registrationId := i, content } }

/-- One round of the loop over the incoming replies. -/
def receiveReply (s : ExternalChecks) (reply : ArmingCheckReply) : ExternalChecks :=
  match s.acceptedFor now reply with
  | none => s
  | some i =>
    { s with replyReceivedMask := s.replyReceivedMask ||| slotBit i }.setRegistration i
      (received (s.registrations i) i reply.content)

/-- A registration that has not replied too often, flagged unresponsive. -/
def flagUnresponsive (reg : Registration) : Registration :=
  { reg with
    unresponsive := true
    totalNumUnresponsive :=
      if reg.totalNumUnresponsive < 100 then reg.totalNumUnresponsive + 1
      else reg.totalNumUnresponsive }

/-- One round of the loop after a timeout, for a slot without reply. -/
def missedReply (i : Slot) : ExternalChecks :=
  let reg := s.registrations i
  if reg.unresponsive then s
  else
    let counted := { reg with numNoResponse := reg.numNoResponse + 1 }
    let maxNumNoReply :=
      if reg.waitingForFirstResponse then numNoReplyUntilUnresponsiveInit
      else numNoReplyUntilUnresponsive
    if counted.numNoResponse.toNat > maxNumNoReply then
      -- a registration that is no mode is cleared at once
      match reg.navModeId with
      | none => ((s.setRegistration i counted).removeRegistration i none).1
      | some _ => s.setRegistration i (flagUnresponsive counted)
    else s.setRegistration i counted

/-- The loop after a timeout; `noReply` is computed before it. -/
def handleTimeout : ExternalChecks :=
  let noReply := s.activeRegistrationsMask &&& ~~~s.replyReceivedMask
  (List.finRange maxNumRegistrations).foldl
    (fun s i => if slotBit i &&& noReply != 0 then s.missedReply i else s)
    { s with hadTimeout := true }

/-- The part of `update` that looks for missing replies. -/
def checkTimeout : ExternalChecks :=
  if s.lastUpdate > 0 ∧ s.replyReceivedMask ≠ s.activeRegistrationsMask ∧
      now > s.lastUpdate + requestTimeout ∧ s.hadTimeout = false then
    s.handleTimeout
  else s

/-- The part of `update` that starts a new request. -/
def startRequest : ExternalChecks × Option ArmingCheckRequest :=
  if now > s.lastUpdate + updateInterval then
    let requestId := s.currentRequestId + 1
    ({ s with
      replyReceivedMask := 0
      lastUpdate := now
      hadTimeout := false
      currentRequestId := requestId },
    some {
      requestId
      -- who is unresponsive is not asked
      validRegistrationsMask := (List.finRange maxNumRegistrations).foldl
        (fun mask i => if (s.registrations i).unresponsive then mask &&& ~~~slotBit i else mask)
        s.activeRegistrationsMask })
  else (s, none)

/-- `update`, and the request that it publishes. No more than `ORB_QUEUE_LENGTH` replies are
handled. -/
def update (replies : List ArmingCheckReply) : ExternalChecks × Option ArmingCheckRequest :=
  if s.activeRegistrationsMask = 0 then (s, none)
  else
    (((replies.take replyQueueLength).foldl (receiveReply now) s).checkTimeout now).startRequest now

/-! ## The report of all registrations -/

/-- A registration for the mode exists. -/
def registered (mode : NavMode) : Bool :=
  (List.finRange maxNumRegistrations).any fun i =>
    s.registrationValid i && decide ((s.registrations i).navModeId = some mode)

/-- The external modes without registration. -/
def nonRegisteredModes : List NavMode :=
  (List.finRange 32).filter fun mode =>
    decide (s.firstExternalNavState ≤ mode) && decide (mode ≤ s.lastExternalNavState) &&
      !s.registered mode

/-- `checkNonRegisteredModes`; the event is only reported for the mode that the user selected. -/
def checkNonRegisteredModes (userIntention : NavMode) (r : Report) : Report :=
  let r := s.nonRegisteredModes.foldl
    (fun r mode => (r.clearArmingBits (Report.getModeGroup mode)).mapModeReqOther
      (setOrClearRequirementBits true mode none)) r
  if userIntention ∈ s.nonRegisteredModes then
    r.armingCheckFailure (Report.getModeGroup userIntention) .externalModesUnavailable
  else r

/-- One round of the loop of `checkAndReport`, for the registration with the id in the buffer. -/
def contribute (acc : Report × NavModes) (i : Slot) : Report × NavModes :=
  if s.registrationValid i then
    match (s.registrations i).reply with
    | none => acc
    | some reply => (s.registrations reply.registrationId).contribution reply.content acc
  else acc

def checkAndReport (userIntention : NavMode) (r : Report) : Report :=
  let r := s.checkNonRegisteredModes userIntention r
  if s.activeRegistrationsMask = 0 then r
  else
    let acc := (List.finRange maxNumRegistrations).foldl s.contribute (r, 0)
    if acc.2 ≠ 0 then acc.1.armingCheckFailure acc.2 .externalModesUnresponsive else acc.1

/-- A report is made from freshly reset results and the current flags. -/
inductive Event where
  | addRegistration (navModeId replacesNavState : Option NavMode) (allocated : Bool)
  | removeRegistration (i : Slot) (navModeId : Option NavMode)
  | update (now : HrtAbstime) (replies : List ArmingCheckReply)
  | checkAndReport (userIntention : NavMode) (failsafeFlags : FailsafeFlags)
  | setExternalNavStates (first last : NavMode)

/-- One step; a report does not change the checks. -/
def step : Event → ExternalChecks
  | .addRegistration navModeId replacesNavState allocated =>
    (s.addRegistration navModeId replacesNavState allocated).1
  | .removeRegistration i navModeId => (s.removeRegistration i navModeId).1
  | .update now replies => (s.update now replies).1
  | .checkAndReport .. => s
  | .setExternalNavStates first last => s.setExternalNavStates first last

end ExternalChecks

end Px4.Commander
