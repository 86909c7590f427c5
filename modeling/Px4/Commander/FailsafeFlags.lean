import Mathlib.Data.Nat.Notation

/-!
# Navigation states and failsafe flags

The parts of `vehicle_status_s` and `failsafe_flags_s` that the failsafe framework and the checks
share.
-/

namespace Px4.Commander

/-- `hrt_abstime`, in microseconds. -/
abbrev HrtAbstime := UInt64

abbrev NavState := UInt8

namespace NavState

def altctl : NavState := 1

def posctl : NavState := 2

def autoLoiter : NavState := 4

def autoRtl : NavState := 5

def descend : NavState := 12

def termination : NavState := 13

def stab : NavState := 15

def autoLand : NavState := 18

def autoPrecland : NavState := 20

end NavState

/-- A set of modes, one bit for each: `NavModes`, and the type of the `mode_req_*` masks. -/
abbrev NavModes := BitVec 32

/-- The requirements that an external mode can state. -/
inductive ModeRequirement where
  | angularVelocity
  | attitude
  | localAlt
  | localPosition
  | localPositionRelaxed
  | globalPosition
  | globalPositionRelaxed
  | mission
  | homePosition
  | preventArming
  | manualControl

/-- `failsafe_flags_s` as it is used here; `modeReq` are its masks of mode requirements. -/
structure FailsafeFlags where
  angularVelocityInvalid : Bool := false
  attitudeInvalid : Bool := false
  localPositionInvalid : Bool := false
  localPositionInvalidRelaxed : Bool := false
  globalPositionInvalid : Bool := false
  globalPositionInvalidRelaxed : Bool := false
  localAltitudeInvalid : Bool := false
  autoMissionMissing : Bool := false
  offboardControlSignalLost : Bool := false
  homePositionInvalid : Bool := false
  modeReq : ModeRequirement → NavModes := fun _ => 0
  modeReqOffboardSignal : NavModes := 0
  modeReqOther : NavModes := 0

end Px4.Commander
