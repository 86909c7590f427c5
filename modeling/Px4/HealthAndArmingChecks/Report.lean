import Mathlib.Algebra.GroupWithZero.Nat
import Mathlib.Data.List.DropRight
import Px4.Common.LittleEndian
import Px4.Commander.FailsafeFlags

/-!
# The report of health and arming checks

`Report` of `src/modules/commander/HealthAndArmingChecks/Common.{hpp,cpp}`. In each cycle the checks
write their results into one of two slots, and `finalize` compares it with that of the cycle before.
`report` sends changed results, but not more often than every `_min_reporting_interval`; a change
that is held back is remembered in `_had_unreported_difference`.

The event buffer is the list of its events. The failsafe flags that the class refers to are left
out.
-/

namespace Px4.HealthAndArmingChecks

open Commander (HrtAbstime NavModes)

/-- `health_component_t`. -/
abbrev HealthComponents := BitVec 32

inductive Log where
  | emergency | alert | critical | error | warning | notice | info | debug | protocol | disabled

/-- The number of a level; a lower number is more severe. -/
def Log.number : Log → ℕ
  | emergency => 0
  | alert => 1
  | critical => 2
  | error => 3
  | warning => 4
  | notice => 5
  | info => 6
  | debug => 7
  | protocol => 8
  | disabled => 9

structure LogLevels where
  external : Log
  internal : Log

/-- The byte `log_levels` of an event. -/
def LogLevels.toByte (levels : LogLevels) : UInt8 :=
  UInt8.ofNat levels.internal.number <<< 4 ||| UInt8.ofNat levels.external.number

structure HealthResults where
  isPresent : HealthComponents := 0
  error : HealthComponents := 0
  warning : HealthComponents := 0
deriving DecidableEq

/-- `Report::ArmingCheckResults`; bits are cleared for failed checks. -/
structure ArmingCheckResults where
  error : HealthComponents := 0
  warning : HealthComponents := 0
  canArm : NavModes := .allOnes 32
  canRun : NavModes := .allOnes 32
  valid : Bool := false
deriving DecidableEq

/-- `Report::Results`; the default is what `reset` writes. -/
structure Results where
  health : HealthResults := {}
  armingChecks : ArmingCheckResults := {}
  numEvents : ℕ := 0
  eventIdHash : BitVec 32 := 0
deriving DecidableEq

/-- `HealthResults::operator!=`. -/
def HealthResults.differ (a b : HealthResults) : Bool :=
  a.isPresent != b.isPresent || a.error != b.error || a.warning != b.warning

/-- `ArmingCheckResults::operator!=`. -/
def ArmingCheckResults.differ (a b : ArmingCheckResults) : Bool :=
  a.error != b.error || a.warning != b.warning || a.canArm != b.canArm || a.canRun != b.canRun ||
    a.valid != b.valid

/-- `Results::operator!=`. -/
def Results.differ (a b : Results) : Bool :=
  a.health.differ b.health || a.armingChecks.differ b.armingChecks ||
    a.numEvents != b.numEvents || a.eventIdHash != b.eventIdHash

/-- An event in the buffer: a header with its id, log levels and size, and the arguments. -/
structure BufferedEvent where
  id : BitVec 32
  logLevels : UInt8
  arguments : List UInt8

/-- `sizeof(EventBufferHeader)`. -/
def headerSize : ℕ := 6

/-- `event_s::ORB_QUEUE_LENGTH - 2`. -/
def maxNumEvents : ℕ := 14

/-- `sizeof(_event_buffer)`. -/
def eventBufferSize : ℕ := maxNumEvents * (headerSize + 6)

structure Report where
  minReportingInterval : HrtAbstime := 2000000
  events : List BufferedEvent := []
  bufferOverflowed : Bool := false
  alreadyReported : Bool := false
  hadUnreportedDifference : Bool := false
  resultsChanged : Bool := false
  lastReport : HrtAbstime := 0
  results : Bool → Results := fun _ => {}
  currentResult : Bool := false

/-- What `report` sends: the arming and the health summary, and the events that fit. -/
structure Message where
  results : Results
  events : List BufferedEvent

namespace Report

variable (r : Report)

def current : Results := r.results r.currentResult

def mapCurrent (change : Results → Results) : Report :=
  { r with results := Function.update r.results r.currentResult (change r.current) }

def nextBufferIdx : ℕ :=
  (r.events.map fun event => headerSize + event.arguments.length).sum

/-! ## Checks -/

def addEventToBuffer (id : BitVec 32) (logLevels : UInt8) (modes : NavModes)
    (arguments : List UInt8) : Report :=
  mapCurrent { r with events := r.events ++ [⟨id, logLevels, arguments⟩] } fun results =>
    { results with
      numEvents := results.numEvents + 1
      eventIdHash := results.eventIdHash ^^^ (id ^^^ modes) }

/-- An event with its arguments; one that does not fit into the buffer is not counted. -/
def addEvent (id : BitVec 32) (logLevels : UInt8) (modes : NavModes)
    (arguments : List UInt8) : Report :=
  if headerSize + arguments.length > eventBufferSize - r.nextBufferIdx then
    { r with bufferOverflowed := true }
  else r.addEventToBuffer id logLevels modes arguments

/-- `addExternalEvent`; zeros at the end of the arguments are trimmed. -/
def addExternalEvent (id : BitVec 32) (logLevels : UInt8) (arguments : List UInt8)
    (modes : NavModes) : Report :=
  r.addEvent id logLevels modes (arguments.rdropWhile (· = 0))

/-- `reportedModes`: optional checks are shown for all modes. -/
def reportedModes (requiredModes : NavModes) : NavModes :=
  if requiredModes = 0 then .allOnes 32 else requiredModes

def clearArmingBits (modes : NavModes) : Report :=
  r.mapCurrent fun results =>
    { results with armingChecks := { results.armingChecks with
        canArm := results.armingChecks.canArm &&& ~~~modes } }

def clearCanRunBits (modes : NavModes) : Report :=
  r.mapCurrent fun results =>
    { results with armingChecks := { results.armingChecks with
        canRun := results.armingChecks.canRun &&& ~~~modes } }

def setIsPresent (component : HealthComponents) : Report :=
  r.mapCurrent fun results =>
    { results with health := { results.health with
        isPresent := results.health.isPresent ||| component } }

def setHealth (component : HealthComponents) (isPresent warning error : Bool) : Report :=
  r.mapCurrent fun results =>
    { results with health := {
        isPresent :=
          if isPresent then results.health.isPresent ||| component else results.health.isPresent
        warning :=
          if warning then results.health.warning ||| component else results.health.warning
        error := if error then results.health.error ||| component else results.health.error } }

/-- Where a failure of a component is noted, by its level. -/
def noteFailure (component : ℕ) (level : Log) (error warning : HealthComponents) :
    HealthComponents × HealthComponents :=
  if level.number ≤ Log.error.number then (error ||| .twoPow 32 component, warning)
  else if level.number ≤ Log.warning.number then (error, warning ||| .twoPow 32 component)
  else (error, warning)

/-- A failure: the modes it blocks, the modes it is shown for, the component, and the event. -/
structure Failure where
  failModes : NavModes
  messageModes : NavModes
  component : ℕ
  eventId : BitVec 32
  logLevels : LogLevels
  arguments : List UInt8 := []

/-- The event of a failure; its first arguments are the modes and the component. -/
def addFailureEvent (failure : Failure) : Report :=
  let modes := reportedModes (failure.messageModes ||| failure.failModes)
  r.addEvent failure.eventId failure.logLevels.toByte modes
    (LittleEndian.toBytes 4 modes.toNat ++ LittleEndian.toBytes 1 failure.component ++
      failure.arguments)

def healthFailure (failure : Failure) : Report :=
  ((r.mapCurrent fun results =>
    let noted := noteFailure failure.component failure.logLevels.external results.health.error
      results.health.warning
    { results with health := { results.health with error := noted.1, warning := noted.2 } }
      ).clearArmingBits failure.failModes).addFailureEvent failure

def armingCheckFailure (failure : Failure) : Report :=
  ((r.mapCurrent fun results =>
    let noted := noteFailure failure.component failure.logLevels.external
      results.armingChecks.error results.armingChecks.warning
    { results with armingChecks := { results.armingChecks with
        error := noted.1, warning := noted.2 } }).clearArmingBits failure.failModes).addFailureEvent
    failure

/-- What a check may call. -/
inductive Check where
  | healthFailure (failure : Failure)
  | armingCheckFailure (failure : Failure)
  | setIsPresent (component : HealthComponents)
  | setHealth (component : HealthComponents) (isPresent warning error : Bool)
  | clearArmingBits (modes : NavModes)
  | clearCanRunBits (modes : NavModes)
  | addExternalEvent (id : BitVec 32) (logLevels : UInt8) (arguments : List UInt8)
      (modes : NavModes)

def check : Check → Report
  | .healthFailure failure => r.healthFailure failure
  | .armingCheckFailure failure => r.armingCheckFailure failure
  | .setIsPresent component => r.setIsPresent component
  | .setHealth component isPresent warning error => r.setHealth component isPresent warning error
  | .clearArmingBits modes => r.clearArmingBits modes
  | .clearCanRunBits modes => r.clearCanRunBits modes
  | .addExternalEvent id logLevels arguments modes =>
    r.addExternalEvent id logLevels arguments modes

/-! ## Cycles -/

/-- `reset`: the other slot becomes the current one. -/
def reset : Report :=
  { r with
    currentResult := !r.currentResult
    results := Function.update r.results (!r.currentResult) {}
    events := []
    bufferOverflowed := false
    resultsChanged := false }

/-- The results may be used. -/
def markValid (results : Results) : Results :=
  { results with armingChecks := { results.armingChecks with valid := true } }

def finalize : Report :=
  let r := r.mapCurrent markValid
  { r with
    alreadyReported := false
    resultsChanged := (r.results false).differ (r.results true) }

/-- What `report` notes before it sends the results. -/
def noteReport (now : HrtAbstime) : Report :=
  { r with lastReport := now, alreadyReported := true, hadUnreportedDifference := false }

/-- `report`, with what it sends if it returns `true`. -/
def report (now : HrtAbstime) (force : Bool) : Report × Option Message :=
  let hasDifference := r.hadUnreportedDifference || r.resultsChanged
  if now < r.lastReport + r.minReportingInterval && !force then
    (if hasDifference then { r with hadUnreportedDifference := true } else r, none)
  else if hasDifference && !r.alreadyReported || force then
    (r.noteReport now, some { results := r.current, events := r.events.take maxNumEvents })
  else (r, none)

def reportIfUnreportedDifferences (now : HrtAbstime) : Report × Option Message :=
  if r.hadUnreportedDifference then r.report now true else (r, none)

/-- The results of a cycle, before they are reported. -/
def runChecks (checks : List Check) : Report := (checks.foldl check r.reset).finalize

end Report

end Px4.HealthAndArmingChecks
