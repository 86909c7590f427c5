import Mathlib.Data.Int.Notation
import Mathlib.Data.Nat.Notation

/-!
# Data of the MAVLink mission protocol

The messages, topics and stored records that `MavlinkMissionManager` reads and writes, and its
members: the static ones (`Shared`), and those of one MAVLink link (`Instance`).
-/

namespace Px4.Mavlink

/-! ## Messages -/

/-- `MAV_MISSION_TYPE` of a message; `other` stands for the values that are not defined. -/
inductive MavMissionType where
  | mission
  | fence
  | rally
  | all
  | other (value : UInt8)
deriving DecidableEq

def MavMissionType.toUInt8 : MavMissionType → UInt8
  | .mission => 0
  | .fence => 1
  | .rally => 2
  | .all => 255
  | .other value => value

/-- `MAV_MISSION_RESULT`, the type of a `MISSION_ACK`. -/
inductive MavMissionResult where
  | accepted
  | error
  | unsupportedFrame
  | unsupported
  | noSpace
  | invalid
  | invalidParam (index : Fin 7)
  | invalidSequence
  | denied
  | operationCancelled
  | other (value : UInt8)
deriving DecidableEq

/-- `mavlink_mission_item_t`, also read as `mavlink_mission_item_int_t`; numbers are bit
patterns. -/
structure MavlinkMissionItem where
  seq : UInt16
  missionType : MavMissionType := .mission
  frame : UInt8
  command : UInt16
  current : UInt8 := 0
  autocontinue : UInt8 := 0
  param1 : UInt32 := 0
  param2 : UInt32 := 0
  param3 : UInt32 := 0
  param4 : UInt32 := 0
  x : UInt32 := 0
  y : UInt32 := 0
  z : UInt32 := 0

/-- The messages of the protocol; `int` tells the forms with integer coordinates. -/
inductive Payload where
  | missionAck (type : MavMissionResult) (missionType : MavMissionType)
  | missionSetCurrent (seq : UInt16)
  | missionRequestList (missionType : MavMissionType)
  | missionRequest (int : Bool) (seq : UInt16) (missionType : MavMissionType)
  | missionCount (count : UInt16) (missionType : MavMissionType)
  | missionItem (int : Bool) (wp : MavlinkMissionItem)
  | missionClearAll (missionType : MavMissionType)

/-- `mavlink_message_t`: sender, target and content. -/
structure Message where
  sysid : UInt8
  compid : UInt8
  targetSystem : UInt8
  targetComponent : UInt8
  payload : Payload

/-! ## Storage -/

/-- The dataman items that hold mission items: each of the three lists has two banks. -/
inductive DmItem where
  | safePoints0
  | safePoints1
  | fencePoints0
  | fencePoints1
  | waypointsOffboard0
  | waypointsOffboard1
deriving DecidableEq

/-- `MAV_CMD`. -/
abbrev NavCmd := UInt16

namespace NavCmd

def land : NavCmd := 21
def vtolLand : NavCmd := 85
def doLandStart : NavCmd := 189
def fencePolygonVertexInclusion : NavCmd := 5001
def fencePolygonVertexExclusion : NavCmd := 5002
def fenceCircleInclusion : NavCmd := 5003
def fenceCircleExclusion : NavCmd := 5004
def rallyPoint : NavCmd := 5100

end NavCmd

/-- `mission_item_s` and `mission_fence_point_s`; `geometry` is what the manager only carries
between messages and storage (frame, coordinates, radius, parameters). -/
structure MissionItemS (G : Type*) where
  navCmd : NavCmd
  vertexCount : UInt16
  geometry : G

structure MissionS where
  timestamp : UInt64
  missionDatamanId : DmItem
  fenceDatamanId : DmItem
  safepointDatamanId : DmItem
  count : UInt16
  currentSeq : ℤ
  landStartIndex : ℤ
  landIndex : ℤ
  missionId : UInt32
  geofenceId : UInt32
  safePointsId : UInt32

structure MissionStatsEntryS where
  numItems : UInt16
  opaqueId : UInt32
  datamanId : DmItem

/-- A `mission_s` of zeros. -/
def MissionS.zeros : MissionS := ⟨0, .safePoints0, .safePoints0, .safePoints0, 0, 0, 0, 0, 0, 0, 0⟩

def MissionStatsEntryS.zeros : MissionStatsEntryS := ⟨0, 0, .safePoints0⟩

/-- The part of the dataman storage that belongs to missions. A state that has never been written
is read as zeros: the read of no bytes counts as a success. -/
structure Dataman (G : Type*) where
  items : DmItem → ℕ → Option (MissionItemS G)
  missionState : Option MissionS := none
  fencePointsState : Option MissionStatsEntryS := none
  safePointsState : Option MissionStatsEntryS := none

/-- Which of the dataman requests of one handler succeed. -/
structure DatamanResults where
  itemWrite : Bool := true
  itemRead : Bool := true
  missionStateWrite : Bool := true
  fenceStateWrite : Bool := true
  fenceStateRead : Bool := true
  safePointsStateWrite : Bool := true
  safePointsStateRead : Bool := true

/-! ## Topics -/

/-- `mission_result_s`, less the fields that the manager does not read. -/
structure MissionResultS where
  seqReached : ℤ := 0
  seqCurrent : UInt16 := 0
  seqTotal : UInt16 := 0
  valid : Bool := false
  finished : Bool := false
  itemDoJumpChanged : Bool := false
  itemChangedIndex : UInt16 := 0

/-- `vehicle_status_s`: whether the state is `AUTO_` mission, takeoff or landing, and the type. -/
structure VehicleStatusS where
  autoMission : Bool
  vehicleTypeBitmask : UInt8

/-! ## Members -/

inductive WpmState where
  | idle
  | sendlist
  | getlist
deriving DecidableEq

inductive MissionState where
  | unknown
  | noMission
  | notStarted
  | active
  | paused
  | complete

inductive MissionMode where
  | unknown
  | active
  | suspended
deriving DecidableEq

/-- An array indexed by the three mission types that have a list. -/
structure PerType (α : Type*) where
  mission : α
  fence : α
  rally : α

/-- An array access with its bounds check, as in `current_item_count`. -/
def PerType.get {α : Type*} (a : PerType α) (outOfBounds : α) : MavMissionType → α
  | .mission => a.mission
  | .fence => a.fence
  | .rally => a.rally
  | _ => outOfBounds

/-- The static members. -/
structure Shared where
  missionDatamanId : DmItem := .waypointsOffboard0
  safepointDatamanId : DmItem := .safePoints0
  fenceDatamanId : DmItem := .fencePoints0
  count : PerType UInt16 := ⟨0, 0, 0⟩
  crc32 : PerType UInt32 := ⟨0, 0, 0⟩
  currentSeq : ℤ := 0
  transferInProgress : Bool := false

/-- The members of an instance. `iridium` is the mode of its link, `missionSubSeen` the number of
publications of `mission` at the last copy, `missionResult` the last `mission_result`. -/
structure Instance where
  iridium : Bool := false
  state : WpmState := .idle
  missionType : MavMissionType := .mission
  missionState : MissionState := .unknown
  missionMode : MissionMode := .unknown
  timeLastRecv : UInt64 := 0
  timeLastSent : UInt64 := 0
  reachedSentCount : UInt8 := 0
  intMode : Bool := true
  filesystemErrcount : UInt32 := 0
  myMissionDatamanId : DmItem := .waypointsOffboard0
  mySafepointDatamanId : DmItem := .safePoints0
  myFenceDatamanId : DmItem := .fencePoints0
  lastReached : ℤ := -1
  lastFinished : Bool := false
  transferDatamanId : DmItem := .waypointsOffboard1
  transferCount : UInt16 := 0
  transferCurrentCrc32 : UInt32 := 0
  transferSeq : UInt16 := 0
  transferCurrentSeq : ℤ := -1
  transferPartnerSysid : UInt8 := 0
  transferPartnerCompid : UInt8 := 0
  transferLandStartMarker : ℤ := -1
  transferLandMarker : ℤ := -1
  landStartMarker : ℤ := -1
  landMarker : ℤ := -1
  vehicleTypeBitmask : UInt8 := 0
  missionResult : MissionResultS := {}
  missionSubSeen : ℕ := 0

end Px4.Mavlink
