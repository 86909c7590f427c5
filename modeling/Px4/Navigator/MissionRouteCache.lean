import Px4.Dataman.Cache

/-!
# The mission route cache

`MissionRouteCache` of `src/modules/navigator/mission_route_cache.cpp`: the safe points and the land
item of the mission, read from dataman without waiting. The safe points are loaded in two parts with
one client, first their metadata and then the items. What the environment decides comes with each
update: the time, the response that a topic holds, whether a request is old enough to be sent again
and whether there is memory.
-/

namespace Px4.Dataman

def DmItem.id : DmItem → UInt8
  | .safePoints0 => 0
  | .safePoints1 => 1
  | .safePointsState => 2
  | .fencePoints0 => 3
  | .fencePoints1 => 4
  | .fencePointsState => 5
  | .waypointsOffboard0 => 6
  | .waypointsOffboard1 => 7
  | .missionState => 8
  | .compat => 9

/-- `static_cast<dm_item_t>`; a number that stands for no item type is never cast. -/
def DmItem.ofId (id : UInt8) : DmItem :=
  if id = 0 then .safePoints0
  else if id = 1 then .safePoints1
  else if id = 2 then .safePointsState
  else if id = 3 then .fencePoints0
  else if id = 4 then .fencePoints1
  else if id = 5 then .fencePointsState
  else if id = 6 then .waypointsOffboard0
  else if id = 7 then .waypointsOffboard1
  else if id = 8 then .missionState
  else .compat

/-- A response, with all bytes of its field `data`. -/
structure Answer where
  response : Response
  size : response.data.length = dataSize

end Px4.Dataman

namespace Px4.Navigator

open Dataman

/-! ## Messages and items -/

/-- `mission_s`: what the cache reads of it. -/
structure Mission where
  missionDatamanId : UInt8
  safepointDatamanId : UInt8
  count : UInt16
  landIndex : ℤ
  missionId : UInt32
  safePointsId : UInt32

structure MissionStatsEntry where
  opaqueId : UInt32 := 0
  numItems : UInt16 := 0
  datamanId : UInt8 := 0

def MissionStatsEntry.ofBytes (bytes : Bytes) : MissionStatsEntry where
  opaqueId := .ofNat (LittleEndian.toNat (bytes.take 4))
  numItems := .ofNat (LittleEndian.toNat ((bytes.drop 4).take 2))
  datamanId := .ofNat (LittleEndian.toNat ((bytes.drop 6).take 1))

/-- `sizeof(mission_stats_entry_s)`. -/
def missionStatsEntrySize : ℕ := 8

/-- `sizeof(mission_item_s)`. -/
def missionItemSize : ℕ := 56

/-- The field `nav_cmd` of the bytes of a `mission_item_s`. -/
def navCmd (item : Bytes) : UInt16 := .ofNat (LittleEndian.toNat ((item.drop 44).take 2))

/-- `mission_route::isLandingCmd`: `NAV_CMD_LAND` and `NAV_CMD_VTOL_LAND`. -/
def isLandingCmd (navCmd : UInt16) : Bool := navCmd = 21 || navCmd = 85

def safePointsMax : UInt16 := 32

/-! ## The state -/

def cacheRetryBackoff : UInt64 := 500000

def maxRetryBackoffShift : UInt8 := 3

structure RetryBackoff where
  retryAt : UInt64 := 0
  retryCount : UInt8 := 0

namespace RetryBackoff

def due (r : RetryBackoff) (now : UInt64) : Bool := r.retryAt ≠ 0 && now ≥ r.retryAt

def scheduleRetry (r : RetryBackoff) (now : UInt64) : RetryBackoff where
  retryAt := now + (cacheRetryBackoff <<<
    (if r.retryCount < maxRetryBackoffShift then r.retryCount else maxRetryBackoffShift).toUInt64)
  retryCount := if r.retryCount < 255 then r.retryCount + 1 else r.retryCount

end RetryBackoff

structure MissionLandState where
  missionId : UInt32 := 0
  datamanId : UInt8 := DmItem.waypointsOffboard0.id
  index : ℤ := -1
  count : ℤ := 0
  ready : Bool := false
  validationPending : Bool := false
  retry : RetryBackoff := {}

inductive SafePointDatamanState where
  | updateRequestWait
  | read
  | readWait
  | load
  | error
deriving DecidableEq

structure SafePointState where
  datamanState : SafePointDatamanState := .updateRequestWait
  readStats : MissionStatsEntry := {}
  cachedStats : MissionStatsEntry := {}
  sourceId : UInt32 := 0
  sourceDatamanId : UInt8 := DmItem.safePoints0.id
  cachedSourceId : UInt32 := 0
  ready : Bool := false
  updateRequested : Bool := true
  retry : RetryBackoff := {}

/-- The class. `_dataman_client_safepoint` is the client of `_dataman_cache_safepoint`. -/
structure MissionRouteCache where
  datamanCacheSafepoint : DatamanCache := { numItems := 0 }
  datamanClientSafepoint : DatamanClient
  datamanCacheLandItem : DatamanCache := { numItems := 1 }
  datamanClientLandItem : DatamanClient
  missionLand : MissionLandState := {}
  safePoint : SafePointState := {}

/-- What the environment decides for one of the two parts of an update. -/
structure Inputs where
  now : UInt64
  answer : Option Answer := none
  expired : Bool := false
  allocated : Bool := true

def Inputs.response (inputs : Inputs) : Option Response := inputs.answer.map (·.response)

/-- `loadWait` of a mission item with `kCacheOnlyLoadWait`. -/
def cacheOnlyLoad (c : DatamanCache) (datamanId : UInt8) (index : ℤ) : Option Bytes :=
  (c.loadWait (DmItem.ofId datamanId) index.toNat missionItemSize 0 none).2

namespace MissionRouteCache

variable (s : MissionRouteCache)

/-! ## Readers -/

def safePointsReady : Bool :=
  s.safePoint.ready && !s.safePoint.updateRequested && s.safePoint.datamanState = .updateRequestWait

def missionLandItemReady : Bool :=
  s.missionLand.ready && s.missionLand.index ≥ 0 && s.missionLand.index < s.missionLand.count

def safePointCount : ℕ := if s.safePointsReady then s.safePoint.cachedStats.numItems.toNat else 0

def loadSafePointItem (index : ℤ) : Option Bytes :=
  if s.safePointsReady && index ≥ 0 && index < s.safePoint.cachedStats.numItems.toNat then
    cacheOnlyLoad s.datamanCacheSafepoint s.safePoint.cachedStats.datamanId index
  else none

/-- `getMissionLandItem`, with the index and the item. -/
def getMissionLandItem : Option (ℤ × Bytes) :=
  if s.missionLandItemReady then
    (cacheOnlyLoad s.datamanCacheLandItem s.missionLand.datamanId s.missionLand.index).bind
      fun item => if isLandingCmd (navCmd item) then some (s.missionLand.index, item) else none
  else none

/-! ## The land item -/

def missionLandItemCacheFullyLoaded : Bool :=
  if s.missionLand.index < 0 ∨ s.missionLand.index ≥ s.missionLand.count then false
  else
    (cacheOnlyLoad s.datamanCacheLandItem s.missionLand.datamanId s.missionLand.index).any
      fun item => isLandingCmd (navCmd item)

/-- `_dataman_cache_land_item.invalidate`. -/
def invalidateLandItem : MissionRouteCache :=
  { s with
    datamanCacheLandItem := (s.datamanCacheLandItem.invalidate s.datamanClientLandItem).1
    datamanClientLandItem := (s.datamanCacheLandItem.invalidate s.datamanClientLandItem).2 }

def queueMissionLandItem : MissionRouteCache × Bool :=
  if s.missionLand.index < 0 then (s, false)
  else
    let loaded := s.datamanCacheLandItem.load (DmItem.ofId s.missionLand.datamanId)
      s.missionLand.index.toNat
    ({ s with datamanCacheLandItem := loaded.1 }, loaded.2)

/-- The published index, if it is one of an item of the mission, or -1. -/
def landIndex (mission : Mission) : ℤ :=
  if (mission.missionDatamanId = DmItem.waypointsOffboard0.id ∨
      mission.missionDatamanId = DmItem.waypointsOffboard1.id) ∧
    mission.landIndex ≥ 0 ∧ mission.landIndex < mission.count.toNat then mission.landIndex else -1

def missionLandChanged (state : MissionLandState) (mission : Mission) : Bool :=
  mission.missionId ≠ state.missionId || (mission.count.toNat : ℤ) ≠ state.count ||
    mission.missionDatamanId ≠ state.datamanId || landIndex mission ≠ state.index

/-- The first part of `updateMissionLandItemCache`: another land item. -/
def replaceMissionLand (mission : Mission) (now : UInt64) : MissionRouteCache :=
  if missionLandChanged s.missionLand mission then
    let state : MissionLandState :=
      { missionId := mission.missionId
        datamanId := mission.missionDatamanId
        index := landIndex mission
        count := mission.count.toNat }
    let s := { s with missionLand := state }.invalidateLandItem
    if state.index ≥ 0 then
      let queued := s.queueMissionLandItem
      { queued.1 with missionLand := { state with
        validationPending := queued.2
        retry := if queued.2 then state.retry else state.retry.scheduleRetry now } }
    else s
  else s

/-- `_dataman_cache_land_item.update`. -/
def updateLandItem (inputs : Inputs) : MissionRouteCache :=
  let updated := s.datamanCacheLandItem.update s.datamanClientLandItem inputs.now inputs.response
    inputs.expired
  { s with datamanCacheLandItem := updated.cache, datamanClientLandItem := updated.client }

/-- The end of `updateMissionLandItemCache`: the item that is or has to be requested. -/
def validateMissionLand (now : UInt64) : MissionRouteCache :=
  let state := s.missionLand
  if state.index < 0 ∨ state.ready then s
  else if state.validationPending then
    if s.datamanCacheLandItem.isLoading then s
    else if s.missionLandItemCacheFullyLoaded then
      { s with missionLand := { state with
        validationPending := false, ready := true, retry := {} } }
    else
      { s.invalidateLandItem with missionLand := { state with
        validationPending := false, retry := state.retry.scheduleRetry now } }
  else if state.retry.due now then
    let queued := s.invalidateLandItem.queueMissionLandItem
    { queued.1 with missionLand := { state with
      validationPending := queued.2
      retry := if queued.2 then { state.retry with retryAt := 0 }
        else state.retry.scheduleRetry now } }
  else s

def updateMissionLandItemCache (mission : Mission) (inputs : Inputs) : MissionRouteCache :=
  ((s.replaceMissionLand mission inputs.now).updateLandItem inputs).validateMissionLand inputs.now

/-! ## The safe points -/

/-- The buffer `_safe_point.read_stats`, which is not one of an entry of a cache. -/
def readStatsBuffer : ℕ := 2 ^ 32

def safePointCacheFullyLoaded : Bool :=
  (List.range s.safePoint.readStats.numItems.toNat).all fun index =>
    (cacheOnlyLoad s.datamanCacheSafepoint s.safePoint.readStats.datamanId index).isSome

def safePointCacheMatchesReadStats : Bool :=
  let state := s.safePoint
  state.ready && state.cachedSourceId = state.sourceId &&
    state.cachedStats.opaqueId = state.readStats.opaqueId &&
    state.cachedStats.numItems = state.readStats.numItems &&
    state.cachedStats.datamanId = state.readStats.datamanId

def publishSafePointCache : MissionRouteCache :=
  { s with safePoint := { s.safePoint with
    cachedStats := s.safePoint.readStats, cachedSourceId := s.safePoint.sourceId } }

def resetSafePointCacheState (clearSourceIdentity : Bool) : MissionRouteCache :=
  let reset := s.datamanCacheSafepoint.invalidate s.datamanClientSafepoint.abortCurrentOperation
  { s with
    datamanCacheSafepoint := reset.1
    datamanClientSafepoint := reset.2
    safePoint :=
      { sourceId := if clearSourceIdentity then 0 else s.safePoint.sourceId
        sourceDatamanId := if clearSourceIdentity then DmItem.safePoints0.id
          else s.safePoint.sourceDatamanId } }

/-- The next state of the loader. -/
def goTo (state : SafePointDatamanState) : MissionRouteCache :=
  { s with safePoint := { s.safePoint with datamanState := state } }

/-- The set is complete. -/
def becomeReady : MissionRouteCache :=
  { s with safePoint := { s.safePoint with
    datamanState := .updateRequestWait, ready := true, retry := {} } }

def readStatsValid : Bool :=
  let state := s.safePoint
  state.readStats.numItems ≤ safePointsMax && state.readStats.opaqueId = state.sourceId &&
    (state.readStats.numItems = 0 || state.readStats.datamanId = state.sourceDatamanId &&
        (state.readStats.datamanId = DmItem.safePoints0.id ||
          state.readStats.datamanId = DmItem.safePoints1.id))

/-- The loop that queues the items from an index on, with the number of items to come. -/
def loadSafePoints (item : DmItem) : ℕ → ℕ → DatamanCache → DatamanCache × Bool
  | 0, _, c => (c, true)
  | rounds + 1, index, c =>
    let loaded := c.load item index
    if loaded.2 then loadSafePoints item rounds (index + 1) loaded.1 else (loaded.1, false)

/-- `invalidate` and, for another number of items, `resize` of `_dataman_cache_safepoint`. -/
def resizeSafePoints (allocated : Bool) : MissionRouteCache :=
  let numItems := s.safePoint.readStats.numItems.toNat
  let cleared := s.datamanCacheSafepoint.invalidate s.datamanClientSafepoint
  let resized := if cleared.1.numItems ≠ numItems then
    cleared.1.resize cleared.2 numItems allocated else cleared
  { s with
    datamanCacheSafepoint := resized.1
    datamanClientSafepoint := resized.2
    safePoint := { s.safePoint with ready := false } }

def queueSafePoints : MissionRouteCache :=
  let stats := s.safePoint.readStats
  if s.datamanCacheSafepoint.numItems ≠ stats.numItems.toNat then s.goTo .error
  else
    let loaded := loadSafePoints (DmItem.ofId stats.datamanId) stats.numItems.toNat 0
      s.datamanCacheSafepoint
    let s := { s with datamanCacheSafepoint := loaded.1 }
    if loaded.2 then
      if stats.numItems > 0 then s.goTo .load else s.publishSafePointCache.becomeReady
    else s.goTo .error

/-- `kReadWait`, after the metadata has been read. -/
def metadataRead (allocated : Bool) : MissionRouteCache :=
  if s.readStatsValid then
    if s.safePointCacheMatchesReadStats then s.becomeReady
    else (s.resizeSafePoints allocated).queueSafePoints
  else s.goTo .error

/-- The `memcpy` of `DatamanClient::update` to the buffer of the active request. -/
def copyResponse (request : AsyncRequest) (copied : Option Bytes) : MissionRouteCache :=
  if request.buffer = readStatsBuffer then
    match copied with
    | some data =>
      { s with safePoint := { s.safePoint with
        readStats := .ofBytes (data.take request.length) } }
    | none => s
  else { s with datamanCacheSafepoint := s.datamanCacheSafepoint.copyTo request copied }

/-- `kRead`. -/
def requestMetadata (now : UInt64) : MissionRouteCache :=
  let s := { s with safePoint := { s.safePoint with readStats := {} } }
  match s.datamanClientSafepoint.readAsync now .safePointsState 0 readStatsBuffer
      missionStatsEntrySize with
  | some (client, _) => { s with datamanClientSafepoint := client }.goTo .readWait
  | none => s.goTo .error

/-- `kReadWait`. -/
def awaitMetadata (inputs : Inputs) : MissionRouteCache :=
  let updated := s.datamanClientSafepoint.update inputs.now inputs.response inputs.expired
  let s := s.copyResponse s.datamanClientSafepoint.activeRequest updated.copied
  match updated.client.lastOperationCompleted with
  | (client, none) => { s with datamanClientSafepoint := client }
  | (client, some false) => { s with datamanClientSafepoint := client }.goTo .error
  | (client, some true) => { s with datamanClientSafepoint := client }.metadataRead inputs.allocated

/-- `kLoad`. -/
def awaitSafePoints (inputs : Inputs) : MissionRouteCache :=
  let updated := s.datamanCacheSafepoint.update s.datamanClientSafepoint inputs.now inputs.response
    inputs.expired
  let s := { s with
    datamanCacheSafepoint := updated.cache, datamanClientSafepoint := updated.client }
  if s.datamanCacheSafepoint.isLoading then s
  else if s.safePointCacheFullyLoaded then s.publishSafePointCache.becomeReady
  else s.goTo .error

/-- `kError`. -/
def retrySafePoints (now : UInt64) : MissionRouteCache :=
  let reset := s.resetSafePointCacheState false
  { reset with safePoint := { reset.safePoint with
    retry := s.safePoint.retry.scheduleRetry now } }

/-- The first part of `updateSafePointCache`: other safe points. -/
def replaceSafePoints (mission : Mission) : MissionRouteCache :=
  if mission.safePointsId ≠ s.safePoint.sourceId ∨
      mission.safepointDatamanId ≠ s.safePoint.sourceDatamanId then
    { s with safePoint := { s.safePoint with
      sourceId := mission.safePointsId
      sourceDatamanId := mission.safepointDatamanId } }.resetSafePointCacheState false
  else s

/-- The `switch` of `updateSafePointCache`. -/
def loadStep (inputs : Inputs) : MissionRouteCache :=
  match s.safePoint.datamanState with
  | .updateRequestWait =>
    if s.safePoint.updateRequested ∧ inputs.now ≥ s.safePoint.retry.retryAt then
      { s with safePoint := { s.safePoint with updateRequested := false } }.goTo .read
    else s
  | .read => s.requestMetadata inputs.now
  | .readWait => s.awaitMetadata inputs
  | .load => s.awaitSafePoints inputs
  | .error => s.retrySafePoints inputs.now

def updateSafePointCache (mission : Mission) (inputs : Inputs) : MissionRouteCache :=
  (s.replaceSafePoints mission).loadStep inputs

/-! ## The calls -/

def update (mission : Mission) (land safePoints : Inputs) : MissionRouteCache :=
  (s.updateMissionLandItemCache mission land).updateSafePointCache mission safePoints

def invalidate : MissionRouteCache :=
  { s with missionLand := {} }.invalidateLandItem.resetSafePointCacheState true

/-- The cache at its construction; each client has the id that it got, if it got one. -/
def init (safepointId landItemId : UInt8) : MissionRouteCache where
  datamanClientSafepoint := { clientId := safepointId }
  datamanClientLandItem := { clientId := landItemId }

end MissionRouteCache

end Px4.Navigator
