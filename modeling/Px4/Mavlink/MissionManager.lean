import Px4.Drivers.Hrt
import Px4.Mavlink.MissionTypes
import Mathlib.Logic.Function.Basic

/-!
# The MAVLink mission manager

`src/modules/mavlink/mavlink_mission.cpp`: upload, download and clearing of the mission, the
geofence and the rally points, over any number of MAVLink links.

A handler is a function of `Ctx`: the static members, the storage, the members of the instance it
runs on, and what it emits. The time, the results of the dataman requests and the topics that are
read come with the event.
-/

namespace Px4.Mavlink

variable {G : Type*}

/-- The failures of `parse_mavlink_mission_item`. -/
inductive ParseError where
  | unsupportedFrame
  | unsupported
  | invalidParam (index : Fin 7)

/-- The failure as the type of a `MISSION_ACK`. -/
def ParseError.result : ParseError → MavMissionResult
  | .unsupportedFrame => .unsupportedFrame
  | .unsupported => .unsupported
  | .invalidParam index => .invalidParam index

/-- What does not change: own ids, capacity `CONFIG_NUM_MISSION_ITMES_SUPPORTED`,
`parse_mavlink_mission_item` as a function of `_int_mode` and `_vehicle_type_bitmask`, the
checksum. -/
structure Config (G : Type*) where
  sysid : UInt8
  compid : UInt8
  missionMax : UInt16
  parse : Bool → UInt8 → MavlinkMissionItem → Except ParseError (MissionItemS G)
  crc32part : List UInt8 → UInt32 → UInt32

/-- What a handler emits: messages to the link and status texts. -/
inductive Output (G : Type*) where
  | missionAck (sysid compid : UInt8) (type : MavMissionResult) (missionType : MavMissionType)
      (opaqueId : UInt32)
  | missionCurrent (seq total : UInt16) (missionState : MissionState) (missionMode : MissionMode)
      (missionId fenceId rallyPointsId : UInt32)
  | missionCount (sysid compid : UInt8) (count : UInt16) (missionType : MavMissionType)
      (opaqueId : UInt32)
  | missionItem (int : Bool) (sysid compid : UInt8) (seq : UInt16) (current : Bool)
      (item : MissionItemS G)
  | missionRequest (int : Bool) (sysid compid : UInt8) (seq : UInt16) (missionType : MavMissionType)
  | missionItemReached (seq : UInt16)
  | statustextCritical (text : String)
  | statustextInfo (text : String)

/-- A write of an item, with the bank and the size of the mission that was active then. -/
structure ItemWrite where
  item : DmItem
  index : ℕ
  activeBank : DmItem
  activeCount : UInt16
deriving DecidableEq

/-- What a handler works on; `published` is the history of the topic, `writes` what it issued. -/
structure Ctx (G : Type*) where
  shared : Shared
  dataman : Dataman G
  me : Instance
  published : List MissionS
  out : List (Output G) := []
  writes : List ItemWrite := []

def checkSysidCompid (cfg : Config G) (msg : Message) : Bool :=
  msg.targetSystem = cfg.sysid &&
    (msg.targetComponent = cfg.compid || msg.targetComponent = 190 || msg.targetComponent = 0)

/-- The conversion of an `int32_t` to `uint16_t`. -/
def toUInt16 (z : ℤ) : UInt16 := (z % 65536).toNat.toUInt16

/-- The bytes of a `float` or of a coordinate, as in memory. -/
def bytes32 (v : UInt32) : List UInt8 :=
  [v.toUInt8, (v >>> 8).toUInt8, (v >>> 16).toUInt8, (v >>> 24).toUInt8]

/-- `crc32_for_mission_item`, over the bytes of a packed `CrcMissionItem_t`. -/
def crc32ForMissionItem (cfg : Config G) (wp : MavlinkMissionItem) (prevCrc32 : UInt32) : UInt32 :=
  cfg.crc32part ([wp.frame, wp.command.toUInt8, (wp.command >>> 8).toUInt8, wp.autocontinue] ++
    bytes32 wp.param1 ++ bytes32 wp.param2 ++ bytes32 wp.param3 ++ bytes32 wp.param4 ++
    bytes32 wp.x ++ bytes32 wp.y ++ bytes32 wp.z) prevCrc32

def otherMissionBank (id : DmItem) : DmItem :=
  if id = .waypointsOffboard0 then .waypointsOffboard1 else .waypointsOffboard0

def otherFenceBank (id : DmItem) : DmItem :=
  if id = .fencePoints0 then .fencePoints1 else .fencePoints0

def otherSafePointBank (id : DmItem) : DmItem :=
  if id = .safePoints0 then .safePoints1 else .safePoints0

namespace Ctx

variable (c : Ctx G) (cfg : Config G) (now : UInt64)

def emit (o : Output G) : Ctx G :=
  { c with out := c.out ++ [o] }

/-- `_filesystem_errcount++ < FILESYSTEM_ERRCOUNT_NOTIFY_LIMIT` and the status text behind it. -/
def notifyFilesystemError (text : String) : Ctx G :=
  let c' := { c with me.filesystemErrcount := c.me.filesystemErrcount + 1 }
  if c.me.filesystemErrcount < 2 then c'.emit (.statustextCritical text) else c'

def switchToIdleState : Ctx G :=
  { c with me.state := .idle }

/-- `switch_to_idle_state` with the transfer flag cleared. -/
def abortTransfer : Ctx G :=
  { c.switchToIdleState with shared.transferInProgress := false }

def initOffboardMission (m : MissionS) : Ctx G :=
  { c with
    shared.missionDatamanId := m.missionDatamanId
    shared.count.mission := m.count
    shared.crc32.mission := m.missionId
    shared.currentSeq := m.currentSeq
    me.myMissionDatamanId := m.missionDatamanId
    me.landStartMarker := m.landStartIndex
    me.landMarker := m.landIndex }

def loadGeofenceStats (io : DatamanResults) : Ctx G :=
  if io.fenceStateRead then
    let stats := c.dataman.fencePointsState.getD .zeros
    { c with
      shared.count.fence := stats.numItems
      shared.crc32.fence := stats.opaqueId
      shared.fenceDatamanId := stats.datamanId
      me.myFenceDatamanId := stats.datamanId }
  else c

def loadSafepointStats (io : DatamanResults) : Ctx G :=
  if io.safePointsStateRead then
    let stats := c.dataman.safePointsState.getD .zeros
    { c with
      shared.count.rally := stats.numItems
      shared.crc32.rally := stats.opaqueId
      shared.safepointDatamanId := stats.datamanId
      me.mySafepointDatamanId := stats.datamanId }
  else c

/-! ## Commits -/

/-- The `mission_s` that `update_active_mission_locked` returns. -/
def missionMessage : MissionS where
  timestamp := now
  missionDatamanId := c.shared.missionDatamanId
  fenceDatamanId := c.shared.fenceDatamanId
  safepointDatamanId := c.shared.safepointDatamanId
  count := c.shared.count.mission
  currentSeq := c.shared.currentSeq
  missionId := c.shared.crc32.mission
  geofenceId := c.shared.crc32.fence
  safePointsId := c.shared.crc32.rally
  landStartIndex := c.me.landStartMarker
  landIndex := c.me.landMarker

/-- The assignments of `update_active_mission_locked`. -/
def updateActiveMissionLocked (missionDatamanId : DmItem) (count : UInt16) (seq : ℤ)
    (crc32 : UInt32) : Ctx G :=
  { c with
    shared.missionDatamanId := missionDatamanId
    shared.count.mission := count
    shared.crc32.mission := crc32
    shared.currentSeq := seq
    me.myMissionDatamanId := missionDatamanId }

/-- `_offboard_mission_pub.publish`. -/
def publishMission : Ctx G :=
  { c with published := c.published ++ [c.missionMessage now] }

def updateActiveMission (missionDatamanId : DmItem) (count : UInt16)
    (seq : ℤ) (crc32 : UInt32) (writeOk : Bool) : Ctx G :=
  let c := c.updateActiveMissionLocked missionDatamanId count seq crc32
  let c := if writeOk then { c with dataman.missionState := some (c.missionMessage now) } else c
  c.publishMission now

/-- `update_geofence_count`; the second component is whether it returned `PX4_OK`. -/
def updateGeofenceCount (fenceDatamanId : DmItem) (count : UInt16)
    (crc32 : UInt32) (io : DatamanResults) : Ctx G × Bool :=
  let c := { c with
    shared.fenceDatamanId := fenceDatamanId
    me.myFenceDatamanId := fenceDatamanId }
  if io.fenceStateWrite then
    let stats := { numItems := count, opaqueId := crc32, datamanId := fenceDatamanId }
    let c := { c with
      dataman.fencePointsState := some stats
      shared.count.fence := count
      shared.crc32.fence := crc32 }
    let c := c.updateActiveMissionLocked c.shared.missionDatamanId c.shared.count.mission
      c.shared.currentSeq c.shared.crc32.mission
    (c.publishMission now, true)
  else (c.notifyFilesystemError "Mission storage: Unable to write to microSD\t", false)

/-- `update_safepoint_count`; the second component is whether it returned `PX4_OK`. -/
def updateSafepointCount (safepointDatamanId : DmItem) (count : UInt16)
    (crc32 : UInt32) (io : DatamanResults) : Ctx G × Bool :=
  let c := { c with
    shared.safepointDatamanId := safepointDatamanId
    me.mySafepointDatamanId := safepointDatamanId }
  if io.safePointsStateWrite then
    let stats := { numItems := count, opaqueId := crc32, datamanId := safepointDatamanId }
    let c := { c with
      dataman.safePointsState := some stats
      shared.count.rally := count
      shared.crc32.rally := crc32 }
    let c := c.updateActiveMissionLocked c.shared.missionDatamanId c.shared.count.mission
      c.shared.currentSeq c.shared.crc32.mission
    (c.publishMission now, true)
  else (c.notifyFilesystemError "Mission storage: Unable to write to microSD\t", false)

/-! ## Sending -/

def sendMissionAck (sysid compid : UInt8) (type : MavMissionResult) (opaqueId : UInt32) : Ctx G :=
  c.emit (.missionAck sysid compid type c.me.missionType opaqueId)

/-- An acknowledgement to the partner of the current transfer. -/
def ackPartner (type : MavMissionResult) (opaqueId : UInt32) : Ctx G :=
  c.sendMissionAck c.me.transferPartnerSysid c.me.transferPartnerCompid type opaqueId

/-- `update_mission_state`; `status` is the new `vehicle_status`, if there is one. -/
def updateMissionState : Option VehicleStatusS → Ctx G
  | none => c
  | some status =>
    let mode := if status.autoMission then MissionMode.active else .suspended
    let result := c.me.missionResult
    let state :=
      if c.shared.count.mission = 0 || !result.valid then MissionState.noMission
      else if result.finished then .complete
      else if mode = .active then .active
      else if mode = .suspended && result.seqReached ≥ 0 then .paused
      else if result.seqReached < 0 && result.seqCurrent < 1 then .notStarted
      else c.me.missionState
    { c with
      me.vehicleTypeBitmask := status.vehicleTypeBitmask
      me.missionMode := mode
      me.missionState := state }

def sendMissionCurrent (seq : UInt16) (status : Option VehicleStatusS) : Ctx G :=
  let c := c.updateMissionState status
  let total := if c.shared.count.mission > 0 then c.shared.count.mission else 65535
  c.emit (.missionCurrent seq total c.me.missionState c.me.missionMode c.shared.crc32.mission
    c.shared.crc32.fence c.shared.crc32.rally)

def currentMaxItemCount : UInt16 :=
  PerType.get ⟨cfg.missionMax, 64, 32⟩ 0 c.me.missionType

def currentItemCount : UInt16 :=
  c.shared.count.get 0 c.me.missionType

def getCurrentMissionTypeCrc : UInt32 :=
  c.shared.crc32.get 0 c.me.missionType

def sendMissionCount (sysid compid : UInt8) (count : UInt16)
    (missionType : MavMissionType) (opaqueId : UInt32) : Ctx G :=
  let c := { c with me.timeLastSent := now }
  c.emit (.missionCount sysid compid count missionType opaqueId)

/-- The bank from which `send_mission_item` reads. -/
def activeBank : Option DmItem :=
  match c.me.missionType with
  | .mission => some c.shared.missionDatamanId
  | .fence => some c.shared.fenceDatamanId
  | .rally => some c.shared.safepointDatamanId
  | _ => none

def sendMissionItem (sysid compid : UInt8) (seq : UInt16) (io : DatamanResults) : Ctx G :=
  let c' := if c.activeBank = none then
    c.emit (.statustextCritical "Received unknown mission type, abort.\t") else c
  match io.itemRead, c.activeBank.bind fun bank => c.dataman.items bank seq.toNat with
  | true, some item =>
    let c' := { c' with me.timeLastSent := now }
    c'.emit (.missionItem c.me.intMode sysid compid seq (c.shared.currentSeq = seq.toNat) item)
  | _, _ =>
    (c'.sendMissionAck sysid compid .error 0).notifyFilesystemError
      ("Mission storage: Unable to read from storage, type: " ++
        toString c.me.missionType.toUInt8.toNat ++ "\t")

def sendMissionRequest (sysid compid : UInt8) (seq : UInt16) : Ctx G :=
  if seq < c.currentMaxItemCount cfg then
    let c := { c with me.timeLastSent := now }
    c.emit (.missionRequest c.me.intMode sysid compid seq c.me.missionType)
  else c.emit (.statustextCritical "ERROR: Waypoint index exceeds list capacity\t")

/-- The request for the next item of the current transfer. -/
def requestNext : Ctx G :=
  c.sendMissionRequest cfg now c.me.transferPartnerSysid c.me.transferPartnerCompid c.me.transferSeq

/-! ## The periodic part -/

/-- The part of `send` that reports a new current item. -/
def reportCurrent (result : MissionResultS) (status : Option VehicleStatusS) : Ctx G :=
  let changed := decide (c.shared.currentSeq ≠ (result.seqCurrent.toNat : ℤ)) &&
    decide (result.seqTotal > 0)
  let inBounds := decide (result.seqCurrent < result.seqTotal)
  let finishedChanged := c.me.lastFinished != result.finished
  let c := { c with
    shared.currentSeq := result.seqCurrent.toNat
    me.lastFinished := result.finished }
  let c := if changed && !inBounds then
    c.emit (.statustextCritical "ERROR: wp index out of bounds\t") else c
  if changed && inBounds || finishedChanged then
    c.sendMissionCurrent (toUInt16 c.shared.currentSeq) status
  else c

/-- The part of `send` that reports a newly reached item. -/
def reportReached (result : MissionResultS) : Ctx G :=
  if c.me.lastReached = result.seqReached then c
  else
    let c := { c with me.lastReached := result.seqReached, me.reachedSentCount := 0 }
    if result.seqTotal > 0 ∧ result.seqReached ≥ 0 then
      c.emit (.missionItemReached (toUInt16 result.seqReached))
    else c

/-- The part of `send` that sends an item again when its remaining jumps have changed. -/
def resendJump (result : MissionResultS) (io : DatamanResults) : Ctx G :=
  if result.itemDoJumpChanged ∧ result.seqTotal > 0 ∧ result.itemChangedIndex < result.seqTotal ∧
      c.me.state = .idle then
    let c := { c with me.missionType := .mission }
    c.sendMissionItem now c.me.transferPartnerSysid c.me.transferPartnerCompid
      result.itemChangedIndex io
  else c

/-- The reaction of `send` to a new `mission_result`. -/
def handleMissionResult (result : MissionResultS)
    (status : Option VehicleStatusS) (io : DatamanResults) : Ctx G :=
  let c := { c with me.missionResult := result }
  ((c.reportCurrent result status).reportReached result).resendJump now result io

/-- The part of `send` that runs at a low rate. -/
def sendSlow (status : Option VehicleStatusS) : Ctx G :=
  let c := c.sendMissionCurrent (toUInt16 c.shared.currentSeq) status
  if c.shared.count.mission > 0 ∧ c.shared.currentSeq ≥ 0 ∧ c.me.lastReached ≥ 0 ∧
      c.me.reachedSentCount < 10 then
    { c.emit (.missionItemReached (toUInt16 c.me.lastReached)) with
      me.reachedSentCount := c.me.reachedSentCount + 1 }
  else c

/-- A transfer is given up after `MAVLINK_MISSION_PROTOCOL_TIMEOUT_DEFAULT` µs of silence. -/
def timedOut (me : Instance) (now : UInt64) : Bool :=
  me.state ≠ .idle && me.timeLastRecv > 0 &&
    Drivers.hrtElapsedTime now me.timeLastRecv > 5000000

/-- `MAVLINK_MISSION_RETRY_TIMEOUT_DEFAULT` µs have passed since something was sent. -/
def retryDue (me : Instance) (now : UInt64) : Bool :=
  me.timeLastSent > 0 && Drivers.hrtElapsedTime now me.timeLastSent > 250000

/-- The end of `send`. -/
def checkTimeouts : Ctx G :=
  if timedOut c.me now then
    (c.emit (.statustextCritical "Mission sync timeout\t")).abortTransfer
  else if c.me.state = .getlist && retryDue c.me now then c.requestNext cfg now
  else if c.me.state = .sendlist && retryDue c.me now && c.me.transferSeq = 0 then
    c.sendMissionCount now c.me.transferPartnerSysid c.me.transferPartnerCompid
      c.me.transferCount c.me.missionType c.getCurrentMissionTypeCrc
  else if c.me.state = .idle then { c with me.timeLastSent := 0, me.timeLastRecv := 0 }
  else c

/-- The part of `send` that reports the progress of the mission. -/
def reportProgress (result : Option MissionResultS) (slow : Bool)
    (status : Option VehicleStatusS) (io : DatamanResults) : Ctx G :=
  match result with
  | some result => c.handleMissionResult now result status io
  | none => if slow then c.sendSlow status else c

/-- `send`. `result` is the new `mission_result`, if any; `slow`: the slow rate limiter fires. -/
def send (result : Option MissionResultS) (slow : Bool)
    (status : Option VehicleStatusS) (io : DatamanResults) : Ctx G :=
  if c.me.iridium then c
  else (c.reportProgress now result slow status io).checkTimeouts cfg now

/-- The geofence statistics are loaded again if they look out of date. -/
def refreshFence (m : MissionS) (io : DatamanResults) : Ctx G :=
  if m.geofenceId ≠ c.shared.crc32.fence ∨ c.me.myFenceDatamanId ≠ m.fenceDatamanId
  then c.loadGeofenceStats io else c

/-- The rally point statistics are loaded again if they look out of date. -/
def refreshSafePoints (m : MissionS) (io : DatamanResults) : Ctx G :=
  if m.safePointsId ≠ c.shared.crc32.rally ∨ c.me.mySafepointDatamanId ≠ m.safepointDatamanId
  then c.loadSafepointStats io else c

/-- The mission looks out of date. -/
def missionOutdated (m : MissionS) : Bool :=
  m.missionId ≠ c.shared.crc32.mission || c.me.myMissionDatamanId ≠ m.missionDatamanId

/-- The published mission is taken over if the own one looks out of date. -/
def refreshMission (m : MissionS) : Ctx G :=
  if c.missionOutdated m then c.initOffboardMission m else c

def checkActiveMission (io : DatamanResults) : Ctx G :=
  if c.me.iridium then c
  else match c.published.getLast? with
    | none => c
    | some m =>
      if c.me.missionSubSeen = c.published.length then c
      else
        let c := { c with me.missionSubSeen := c.published.length }
        ((c.refreshFence m io).refreshSafePoints m io).refreshMission m

/-! ## The message handlers -/

/-- The message comes from the partner of the current transfer. -/
def fromPartner (msg : Message) : Bool :=
  msg.sysid = c.me.transferPartnerSysid && msg.compid = c.me.transferPartnerCompid

def handleMissionAck (msg : Message)
    (type : MavMissionResult) (missionType : MavMissionType) : Ctx G :=
  if c.fromPartner msg then
    if c.me.state = .sendlist ∧ c.me.missionType = missionType then
      { c with me.timeLastRecv := now }.switchToIdleState
    else if c.me.state = .getlist then
      if type = .unsupported then
        { c with me.intMode := !c.me.intMode }.requestNext cfg now
      else if type = .operationCancelled then c.abortTransfer
      else c
    else c
  else c.emit (.statustextCritical "REJ. WP CMD: partner id mismatch\t")

def handleMissionSetCurrent (seq : UInt16) (io : DatamanResults) : Ctx G :=
  if c.me.state = .idle then
    let c := { c with me.timeLastRecv := now }
    if seq < c.shared.count.mission then
      c.updateActiveMission now c.shared.missionDatamanId c.shared.count.mission seq.toNat
        c.shared.crc32.mission io.missionStateWrite
    else c.emit (.statustextCritical "WPM: WP CURR CMD: Not in list\t")
  else c.emit (.statustextCritical "WPM: IGN WP CURR CMD: Busy\t")

/-- A download begins, with the item counts brought up to date. -/
def startDownload (msg : Message) (missionType : MavMissionType) (io : DatamanResults) : Ctx G :=
  let c := { c with
    me.timeLastRecv := now
    me.state := .sendlist
    me.missionType := missionType }
  let c := match missionType with
    | .fence => c.loadGeofenceStats io
    | .rally => c.loadSafepointStats io
    | _ => c
  let c := { c with
    me.transferSeq := 0
    me.transferCount := c.currentItemCount
    me.transferPartnerSysid := msg.sysid
    me.transferPartnerCompid := msg.compid }
  c.sendMissionCount now msg.sysid msg.compid c.me.transferCount c.me.missionType
    c.getCurrentMissionTypeCrc

def handleMissionRequestList (msg : Message)
    (missionType : MavMissionType) (io : DatamanResults) : Ctx G :=
  -- all items have been sent and only the acknowledgement is missing
  let c := if c.me.state = .sendlist ∧ c.me.transferSeq = c.currentItemCount
    then c.switchToIdleState else c
  if c.me.state = .idle ∨ (c.me.state = .sendlist ∧ c.me.missionType = missionType ∧
      c.fromPartner msg) then
    c.startDownload now msg missionType io
  else c.emit (.statustextInfo "Mission download request ignored, already active\t")

/-- The answer to a request for an item that was not expected. -/
def rejectRequest : Ctx G :=
  (c.switchToIdleState.ackPartner .error 0).emit
    (.statustextCritical "WPM: REJ. CMD: Req. WP was unexpected\t")

/-- A request for an item during a download: for the next one, or for the last one again. -/
def sendRequested (seq : UInt16) (io : DatamanResults) : Ctx G :=
  let c := { c with me.timeLastRecv := now }
  let expected := seq = c.me.transferSeq ∧ c.me.transferSeq < c.me.transferCount
  if expected ∨ (seq.toNat : ℤ) = c.me.transferSeq.toNat - 1 then
    let c := if expected then { c with me.transferSeq := c.me.transferSeq + 1 } else c
    if seq < c.currentItemCount then
      c.sendMissionItem now c.me.transferPartnerSysid c.me.transferPartnerCompid seq io
    else c.rejectRequest
  else c.rejectRequest

def handleMissionRequestBoth (msg : Message) (seq : UInt16)
    (missionType : MavMissionType) (io : DatamanResults) : Ctx G :=
  if c.fromPartner msg then
    match c.me.state with
    | .sendlist => if c.me.missionType ≠ missionType then c else c.sendRequested now seq io
    | .idle => c
    | .getlist => c.emit (.statustextCritical "WPM: REJ. CMD: Busy\t")
  else c.emit (.statustextCritical "WPM: REJ. CMD: partner id mismatch\t")

/-- The mission is cleared; the bank alternates to let the navigator know. -/
def clearMission (io : DatamanResults) : Ctx G :=
  { c with me.landStartMarker := -1, me.landMarker := -1 }.updateActiveMission now
    (otherMissionBank c.shared.missionDatamanId) 0 0 0 io.missionStateWrite

def clearFence (io : DatamanResults) : Ctx G × Bool :=
  c.updateGeofenceCount now (otherFenceBank c.shared.fenceDatamanId) 0 0 io

def clearRally (io : DatamanResults) : Ctx G × Bool :=
  c.updateSafepointCount now (otherSafePointBank c.shared.safepointDatamanId) 0 0 io

/-- One list is cleared; false if that failed. An unknown type is only logged. -/
def clearList (io : DatamanResults) : MavMissionType → Ctx G × Bool
  | .mission => (c.clearMission now io, true)
  | .fence => c.clearFence now io
  | .rally => c.clearRally now io
  | _ => (c, true)

/-- A `MISSION_COUNT` of zero, with the transfer flag set. -/
def countZero (io : DatamanResults) : Ctx G :=
  let c := (c.clearList now io c.me.missionType).1
  { c.ackPartner .accepted 0 with shared.transferInProgress := false }

/-- The inactive bank into which an upload goes. -/
def uploadBank : MavMissionType → Option DmItem
  | .mission => some (otherMissionBank c.shared.missionDatamanId)
  | .fence => some (otherFenceBank c.shared.fenceDatamanId)
  | .rally => some (otherSafePointBank c.shared.safepointDatamanId)
  | _ => none

def startUpload (bank : DmItem) (count : UInt16) : Ctx G :=
  let c := { c with
    me.transferDatamanId := bank
    me.state := .getlist
    me.transferSeq := 0
    me.transferCount := count
    me.transferCurrentSeq := -1
    me.transferLandStartMarker := -1
    me.transferLandMarker := -1 }
  c.requestNext cfg now

/-- `handle_mission_count` in the idle state. -/
def countIdle (msg : Message) (count : UInt16)
    (missionType : MavMissionType) (io : DatamanResults) : Ctx G :=
  let c := { c with me.timeLastRecv := now }
  if c.shared.transferInProgress then c.sendMissionAck msg.sysid msg.compid .error 0
  else
    let c := { c with
      shared.transferInProgress := true
      me.transferPartnerSysid := msg.sysid
      me.transferPartnerCompid := msg.compid
      me.missionType := missionType
      me.transferCurrentCrc32 := 0
      me.lastReached := -1 }
    -- from here on every way out but the last one clears the flag again
    if count > c.currentMaxItemCount cfg then
      { c.ackPartner .noSpace 0 with shared.transferInProgress := false }
    else if count = 0 then c.countZero now io
    else match c.uploadBank missionType with
      | none => { c with shared.transferInProgress := false }.ackPartner .invalid 0
      | some bank => c.startUpload cfg now bank count

def handleMissionCount (msg : Message)
    (count : UInt16) (missionType : MavMissionType) (io : DatamanResults) : Ctx G :=
  match c.me.state with
  | .idle => c.countIdle cfg now msg count missionType io
  | .getlist =>
    let c : Ctx G := { c with me.timeLastRecv := now }
    if !c.fromPartner msg then c.sendMissionAck msg.sysid msg.compid .error 0
    -- the announcement is repeated; the new count is not looked at
    else if c.me.transferSeq = 0 then c.requestNext cfg now
    else (c.emit (.statustextCritical "WPM: REJ. CMD: Busy\t")).ackPartner .error 0
  | .sendlist =>
    (c.emit (.statustextCritical "WPM: IGN MISSION_COUNT: Busy\t")).sendMissionAck
      msg.sysid msg.compid .error 0

/-- The commands that do not belong into a mission. -/
def wrongMissionItem (cmd : NavCmd) : Bool :=
  cmd = .fencePolygonVertexInclusion || cmd = .fencePolygonVertexExclusion ||
    cmd = .fenceCircleInclusion || cmd = .fenceCircleExclusion || cmd = .rallyPoint

/-- The polygon vertices of a geofence. -/
def polygonVertex (cmd : NavCmd) : Bool :=
  cmd = .fencePolygonVertexInclusion || cmd = .fencePolygonVertexExclusion

/-- The markers of a mission after its item `seq`: the landing sequence and the first landing. -/
def landMarkers (markers : ℤ × ℤ) (seq : ℕ) (cmd : NavCmd) : ℤ × ℤ :=
  let start := if cmd = .doLandStart ∧ markers.1 = -1 then (seq : ℤ) else markers.1
  if (cmd = .vtolLand ∨ cmd = .land) ∧ markers.2 = -1 then
    (if start = -1 then (seq : ℤ) else start, (seq : ℤ))
  else (start, markers.2)

/-- A write to the bank of the transfer. -/
def writeItem (index : ℕ) (item : MissionItemS G) (io : DatamanResults) : Ctx G :=
  let bank := c.me.transferDatamanId
  let c := { c with writes := c.writes ++
    [⟨bank, index, c.shared.missionDatamanId, c.shared.count.mission⟩] }
  if io.itemWrite then
    let written := Function.update (c.dataman.items bank) index (some item)
    { c with dataman.items := Function.update c.dataman.items bank written }
  else c

/-- How the storing of an item ended. -/
inductive Stored where
  | ok
  | writeFailed
  | checkFailed
deriving DecidableEq

/-- The result of a write to the bank of the transfer. -/
def writeResult (io : DatamanResults) : Stored :=
  if io.itemWrite then .ok else .writeFailed

/-- The land markers of the transfer after an item. -/
def markLanding (seq : ℕ) (cmd : NavCmd) : Ctx G :=
  let markers := landMarkers (c.me.transferLandStartMarker, c.me.transferLandMarker) seq cmd
  { c with
    me.transferLandStartMarker := markers.1
    me.transferLandMarker := markers.2 }

def storeMissionItem (wp : MavlinkMissionItem) (item : MissionItemS G)
    (io : DatamanResults) : Ctx G × Stored :=
  if wrongMissionItem item.navCmd then (c, .checkFailed)
  else ((c.writeItem wp.seq.toNat item io).markLanding wp.seq.toNat item.navCmd, writeResult io)

/-- The geofence point of an item; only part of a polygon has a vertex count. -/
def fencePoint (item : MissionItemS G) : MissionItemS G :=
  { item with vertexCount := if polygonVertex item.navCmd then item.vertexCount else 0 }

/-- The storing of a geofence point. -/
def storeFencePoint (wp : MavlinkMissionItem) (item : MissionItemS G)
    (io : DatamanResults) : Ctx G × Stored :=
  if polygonVertex item.navCmd ∧ item.vertexCount < 3 then (c, .checkFailed)
  else (c.writeItem wp.seq.toNat (fencePoint item) io, writeResult io)

/-- The storing of an item, by mission type. -/
def storeItem (wp : MavlinkMissionItem) (item : MissionItemS G)
    (io : DatamanResults) : Ctx G × Stored :=
  match c.me.missionType with
  | .mission => c.storeMissionItem wp item io
  | .fence => c.storeFencePoint wp item io
  | .rally => (c.writeItem wp.seq.toNat item io, writeResult io)
  | _ => (c.emit (.statustextCritical "Received unknown mission type, abort.\t"), .ok)

/-- The commit of a complete upload; false if the update of a count failed. -/
def commitTransfer (io : DatamanResults) : Ctx G × Bool :=
  match c.me.missionType with
  | .mission =>
    let c := { c with
      me.landStartMarker := c.me.transferLandStartMarker
      me.landMarker := c.me.transferLandMarker }
    -- a mission with the checksum of the active one is not stored again
    if c.me.transferCurrentCrc32 ≠ c.shared.crc32.mission then
      (c.updateActiveMission now c.me.transferDatamanId c.me.transferCount
        c.me.transferCurrentSeq c.me.transferCurrentCrc32 io.missionStateWrite, true)
    else (c, true)
  | .fence =>
    if c.me.transferCurrentCrc32 ≠ c.shared.crc32.fence then
      c.updateGeofenceCount now c.me.transferDatamanId c.me.transferCount
        c.me.transferCurrentCrc32 io
    else (c, true)
  | .rally =>
    if c.me.transferCurrentCrc32 ≠ c.shared.crc32.rally then
      c.updateSafepointCount now c.me.transferDatamanId c.me.transferCount
        c.me.transferCurrentCrc32 io
    else (c, true)
  | _ => (c, true)

/-- The end of an upload: commit, acknowledge and release the flag. -/
def finishTransfer (io : DatamanResults) : Ctx G :=
  let r := c.commitTransfer now io
  let c := r.1.switchToIdleState
  let c := if r.2 then c.ackPartner .accepted c.me.transferCurrentCrc32 else c.ackPartner .error 0
  { c with shared.transferInProgress := false }

/-- The position of the transfer after an item was stored. -/
def moveOn (wp : MavlinkMissionItem) : Ctx G :=
  { c with
    me.transferCurrentSeq := if wp.current ≠ 0 then (wp.seq.toNat : ℤ) else c.me.transferCurrentSeq
    me.transferSeq := wp.seq + 1 }

/-- The upload goes on: the next item is requested, or it is finished. -/
def advance (io : DatamanResults) : Ctx G :=
  if c.me.transferSeq = c.me.transferCount then c.finishTransfer now io else c.requestNext cfg now

/-- The checksum of the transfer after an item. -/
def addToCrc32 (wp : MavlinkMissionItem) : Ctx G :=
  { c with me.transferCurrentCrc32 := crc32ForMissionItem cfg wp c.me.transferCurrentCrc32 }

/-- An expected item of an upload. -/
def receiveItem (wp : MavlinkMissionItem) (io : DatamanResults) : Ctx G :=
  match cfg.parse c.me.intMode c.me.vehicleTypeBitmask wp with
  | .error e =>
    let c := c.emit (.statustextCritical "IGN MISSION_ITEM: Invalid item\t")
    (c.ackPartner e.result 0).abortTransfer
  | .ok item =>
    -- the checksum counts the item before it is stored
    let r := (c.addToCrc32 cfg wp).storeItem wp item io
    match r.2 with
    | .ok => (r.1.moveOn wp).advance cfg now io
    | .writeFailed =>
      let c := r.1.ackPartner .error 0
      (c.emit (.statustextCritical "Unable to write on micro SD\t")).abortTransfer
    | .checkFailed => (r.1.ackPartner .error 0).abortTransfer

def handleMissionItemBoth (msg : Message) (wp : MavlinkMissionItem) (io : DatamanResults) : Ctx G :=
  if c.fromPartner msg then
    if wp.missionType ≠ c.me.missionType then c.ackPartner .error 0
    else match c.me.state with
      | .getlist =>
        let c : Ctx G := { c with me.timeLastRecv := now }
        if wp.seq ≠ c.me.transferSeq then c else c.receiveItem cfg now wp io
      | .idle =>
        -- taken for a duplicate of the last item, whose acknowledgement was lost
        if c.me.transferSeq.toNat = wp.seq.toNat + 1 then
          c.ackPartner .accepted c.me.transferCurrentCrc32
        else
          (c.emit (.statustextCritical "IGN MISSION_ITEM: No transfer\t")).ackPartner .error 0
      | .sendlist =>
        (c.emit (.statustextCritical "IGN MISSION_ITEM: Busy\t")).ackPartner .error 0
  else c.emit (.statustextCritical "REJ. MIS ITEM: partner id mismatch\t")

/-- All three lists are cleared. -/
def clearAll (io : DatamanResults) : Ctx G × Bool :=
  let fence := (c.clearMission now io).clearFence now io
  let rally := fence.1.clearRally now io
  (rally.1, rally.2 && fence.2)

def handleMissionClearAll (msg : Message)
    (missionType : MavMissionType) (io : DatamanResults) : Ctx G :=
  if c.me.state = .idle then
    let c := { c with me.timeLastRecv := now, me.missionType := missionType }
    let r := if missionType = .all then c.clearAll now io else c.clearList now io missionType
    r.1.sendMissionAck msg.sysid msg.compid (if r.2 then .accepted else .error) 0
  else c.emit (.statustextCritical "WPM: IGN CLEAR CMD: Busy\t")

/-- The body of a handler runs if the message is for this system. -/
def ifForUs (msg : Message) (body : Ctx G → Ctx G) : Ctx G :=
  if checkSysidCompid cfg msg then body c else c

/-- `handle_message`. Both forms of a message set `_int_mode` before looking at the target. -/
def handleMessage (msg : Message) (io : DatamanResults) : Ctx G :=
  match msg.payload with
  | .missionAck type missionType =>
    c.ifForUs cfg msg fun c => c.handleMissionAck cfg now msg type missionType
  | .missionSetCurrent seq =>
    c.ifForUs cfg msg fun c => c.handleMissionSetCurrent now seq io
  | .missionRequestList missionType =>
    c.ifForUs cfg msg fun c => c.handleMissionRequestList now msg missionType io
  | .missionRequest int seq missionType =>
    { c with me.intMode := int }.ifForUs cfg msg fun c =>
      c.handleMissionRequestBoth now msg seq missionType io
  | .missionCount count missionType =>
    c.ifForUs cfg msg fun c => c.handleMissionCount cfg now msg count missionType io
  | .missionItem int wp =>
    { c with me.intMode := int }.ifForUs cfg msg fun c => c.handleMissionItemBoth cfg now msg wp io
  | .missionClearAll missionType =>
    c.ifForUs cfg msg fun c => c.handleMissionClearAll now msg missionType io

end Ctx

/-! ## The system -/

/-- The links of a vehicle, with what they share. -/
structure MissionSystem (ι G : Type*) where
  shared : Shared := {}
  dataman : Dataman G
  instances : ι → Instance
  published : List MissionS := []

/-- A message arrives on a link, or the link runs `send` or `check_active_mission`. -/
inductive MissionEvent (ι : Type*) where
  | message (i : ι) (now : UInt64) (msg : Message) (io : DatamanResults)
  | send (i : ι) (now : UInt64) (result : Option MissionResultS) (slow : Bool)
      (status : Option VehicleStatusS) (io : DatamanResults)
  | checkActiveMission (i : ι) (io : DatamanResults)

namespace MissionSystem

variable (cfg : Config G)

variable {ι : Type*} [DecidableEq ι]

/-- The constructor of the first instance, which loads the stored state. -/
def construct (dataman : Dataman G) (iridium : Bool) (now : UInt64) (readOk : Bool)
    (io : DatamanResults) : Ctx G :=
  let c : Ctx G := { shared := {}, dataman, me := { iridium }, published := [] }
  let c := if readOk then
      ((c.initOffboardMission (dataman.missionState.getD .zeros)).loadGeofenceStats
        io).loadSafepointStats io
    else c
  let c := c.updateActiveMission now c.shared.missionDatamanId c.shared.count.mission
    c.shared.currentSeq c.shared.crc32.mission false
  { c with
    me.myMissionDatamanId := c.shared.missionDatamanId
    me.myFenceDatamanId := c.shared.fenceDatamanId
    me.mySafepointDatamanId := c.shared.safepointDatamanId }

/-- All links are constructed, `first` first; a later one has seen what is published. -/
def boot (first : ι) (dataman : Dataman G) (iridium : ι → Bool) (now : UInt64) (readOk : Bool)
    (io : DatamanResults) : MissionSystem ι G :=
  let c := construct dataman (iridium first) now readOk io
  { shared := c.shared
    dataman := c.dataman
    published := c.published
    instances := fun i =>
      if i = first then c.me
      else
        { iridium := iridium i
          myMissionDatamanId := c.shared.missionDatamanId
          myFenceDatamanId := c.shared.fenceDatamanId
          mySafepointDatamanId := c.shared.safepointDatamanId
          missionSubSeen := c.published.length } }

/-- The link on which a step happens. -/
def actor : MissionEvent ι → ι
  | .message i .. => i
  | .send i .. => i
  | .checkActiveMission i _ => i

def handler (c : Ctx G) : MissionEvent ι → Ctx G
  | .message _ now msg io => c.handleMessage cfg now msg io
  | .send _ now result slow status io => c.send cfg now result slow status io
  | .checkActiveMission _ io => c.checkActiveMission io

/-- What the handler of instance `i` works on. -/
def ctx (s : MissionSystem ι G) (i : ι) : Ctx G where
  shared := s.shared
  dataman := s.dataman
  me := s.instances i
  published := s.published

/-- The context after an event. -/
def exec (cfg : Config G) (s : MissionSystem ι G) (e : MissionEvent ι) : Ctx G :=
  handler cfg (s.ctx (actor e)) e

def step (cfg : Config G) (s : MissionSystem ι G) (e : MissionEvent ι) : MissionSystem ι G where
  shared := (s.exec cfg e).shared
  dataman := (s.exec cfg e).dataman
  instances := Function.update s.instances (actor e) (s.exec cfg e).me
  published := (s.exec cfg e).published

/-- What a step emits. -/
def outputs (cfg : Config G) (s : MissionSystem ι G) (e : MissionEvent ι) : List (Output G) :=
  (s.exec cfg e).out

/-- The writes of items that a step issues. -/
def writes (cfg : Config G) (s : MissionSystem ι G) (e : MissionEvent ι) : List ItemWrite :=
  (s.exec cfg e).writes

end MissionSystem

end Px4.Mavlink
