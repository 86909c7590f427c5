import Mathlib.Data.List.DropRight
import Px4.Dataman.CacheSources
import Px4.Navigator.MissionRouteCache

/-!
# The generations of the mission route cache

The safe points that are served, and the land item, are those of the mission of the last update:
each response that they come from arrived after the last change of what that mission says of them.
-/

namespace Px4.Navigator

open Dataman DatamanCache DmItem List

/-! ## Events -/

inductive RouteEvent where
  | update (mission : Mission) (land safePoints : Inputs)
  | invalidate

def MissionRouteCache.step (s : MissionRouteCache) : RouteEvent → MissionRouteCache
  | .update mission land safePoints => s.update mission land safePoints
  | .invalidate => s.invalidate

/-- The responses that the client of the land item finds. -/
def landResponses (es : List RouteEvent) : List Response := es.flatMap fun
  | .update _ land _ => land.response.toList
  | .invalidate => []

/-- The responses that the client of the safe points finds. -/
def safePointResponses (es : List RouteEvent) : List Response := es.flatMap fun
  | .update _ _ safePoints => safePoints.response.toList
  | .invalidate => []

/-- What a mission says of its land item. -/
def landSource (mission : Mission) : UInt32 × ℤ × UInt8 × ℤ :=
  (mission.missionId, mission.count.toNat, mission.missionDatamanId,
    MissionRouteCache.landIndex mission)

/-- What a mission says of the safe points. -/
def safePointSource (mission : Mission) : UInt32 × UInt8 :=
  (mission.safePointsId, mission.safepointDatamanId)

/-- The last updates, as long as they have one source. -/
def generation {κ : Type} [DecidableEq κ] (source : Mission → κ) (k : κ) (es : List RouteEvent) :
    List RouteEvent := es.rtakeWhile fun
  | .update mission _ _ => source mission = k
  | .invalidate => false

theorem generation_update {κ : Type} [DecidableEq κ] {source : Mission → κ}
    {es mission land safePoints} :
    generation source (source mission) (es ++ [.update mission land safePoints]) =
      generation source (source mission) es ++ [.update mission land safePoints] :=
  rtakeWhile_concat_pos _ _ _ (decide_eq_true rfl)

variable {es : List RouteEvent} {mission : Mission} {land safePoints : Inputs}
  {datamanId clientId : UInt8} {c : Dataman.DatamanCache} {index : ℤ} {item : Dataman.Bytes}
  {responses : List Dataman.Response}

theorem landResponses_update : landResponses (es ++ [.update mission land safePoints]) =
      landResponses es ++ land.response.toList := by
  rw [landResponses, flatMap_append, flatMap_singleton]
  rfl

theorem safePointResponses_update : safePointResponses (es ++ [.update mission land safePoints]) =
      safePointResponses es ++ safePoints.response.toList := by
  rw [safePointResponses, flatMap_append, flatMap_singleton]
  rfl

theorem Inputs.response_size (inputs : Inputs) :
    ∀ r ∈ inputs.response, r.data.length = dataSize := by
  intro r hr
  obtain ⟨answer, -, rfl⟩ := Option.map_eq_some_iff.mp hr
  exact answer.size

/-! ## Reads from the caches -/

/-- A successful response to a read of a place. -/
structure ReadFrom (r : Response) (clientId datamanId : UInt8) (index : ℕ) : Prop where
  clientId_eq : r.clientId = clientId
  requestType_eq : r.requestType = .read
  item_eq : r.item.id = datamanId
  index_eq : r.index = index
  status_eq : r.status = .success

/-- The two item types for safe points, and the two for missions. -/
def HoldsItems (datamanId : UInt8) : Prop :=
  datamanId = safePoints0.id ∨ datamanId = safePoints1.id ∨
    datamanId = waypointsOffboard0.id ∨ datamanId = waypointsOffboard1.id

theorem HoldsItems.perItemSize_eq (h : HoldsItems datamanId) :
    perItemSize (ofId datamanId) = missionItemSize ∧
      (ofId datamanId).id = datamanId := by
  rcases h with rfl | rfl | rfl | rfl <;> exact ⟨rfl, rfl⟩

/-- An item that is in a cache is from a response. -/
theorem cacheOnlyLoad_readFrom (h : c.Stocked clientId responses) (hid : HoldsItems datamanId)
    (hitem : cacheOnlyLoad c datamanId index = some item) :
    ∃ r ∈ responses, ReadFrom r clientId datamanId index.toNat ∧
      item = r.data.take missionItemSize := by
  obtain ⟨i, hi, hfor, hstate, rfl⟩ | hnone := loadWait_eq_some hitem
  · obtain ⟨r, hr, hkey, hstatus, hdata⟩ := h i hi hstate
    obtain ⟨hsize, hofId⟩ := hid.perItemSize_eq
    rw [Entry.isFor_iff] at hfor
    rw [hfor.1, hsize] at hdata
    rw [hfor.1, hfor.2, Response.key, Key.mk.injEq] at hkey
    obtain ⟨hclient, htype, hritem, hrindex⟩ := hkey
    exact ⟨r, hr, ⟨hclient, htype, hritem ▸ hofId, hrindex, hstatus⟩, hdata⟩
  · cases hnone

namespace MissionRouteCache

variable (s : MissionRouteCache)

/-! ## The two parts -/

def landPart : DatamanCache × DatamanClient × MissionLandState :=
  (s.datamanCacheLandItem, s.datamanClientLandItem, s.missionLand)

def safePointPart : DatamanCache × DatamanClient × SafePointState :=
  (s.datamanCacheSafepoint, s.datamanClientSafepoint, s.safePoint)

theorem safePointPart_queueMissionLandItem :
    s.queueMissionLandItem.1.safePointPart = s.safePointPart := by
  unfold queueMissionLandItem
  split_ifs <;> rfl

theorem safePointPart_updateMissionLandItemCache (mission inputs) :
    (s.updateMissionLandItemCache mission inputs).safePointPart = s.safePointPart := by
  have hreplace : (s.replaceMissionLand mission inputs.now).safePointPart = s.safePointPart := by
    unfold replaceMissionLand
    split
    · dsimp only
      split
      · exact safePointPart_queueMissionLandItem _
      · rfl
    · rfl
  have hvalidate (s : MissionRouteCache) (now : UInt64) :
      (s.validateMissionLand now).safePointPart = s.safePointPart := by
    unfold validateMissionLand
    dsimp only
    split
    · rfl
    split
    · split_ifs <;> rfl
    · split
      · exact safePointPart_queueMissionLandItem _
      · rfl
  exact (hvalidate _ _).trans hreplace

/-- What the safe points are loaded for. -/
def safePointSource : UInt32 × UInt8 :=
  (s.safePoint.sourceId, s.safePoint.sourceDatamanId)

/-- What the loader of the safe points does not change. -/
def given : (DatamanCache × DatamanClient × MissionLandState) × UInt32 × UInt8 :=
  (s.landPart, s.safePointSource)

variable {allocated : Bool} {request : Dataman.AsyncRequest} {copied : Option Dataman.Bytes}
  {inputs : Inputs}

theorem given_metadataRead : (s.metadataRead allocated).given = s.given := by
  unfold metadataRead queueSafePoints
  dsimp only
  split_ifs <;> rfl

theorem given_copyResponse : (s.copyResponse request copied).given = s.given := by
  unfold copyResponse
  split_ifs
  · cases copied <;> rfl
  · rfl

theorem given_loadStep : (s.loadStep inputs).given = s.given := by
  unfold loadStep
  split
  · split_ifs <;> rfl
  · unfold requestMetadata
    dsimp only
    split <;> rfl
  · unfold awaitMetadata
    dsimp only
    split
    · exact given_copyResponse ..
    · exact given_copyResponse ..
    · exact (given_metadataRead _).trans (given_copyResponse ..)
  · unfold awaitSafePoints
    dsimp only
    split_ifs <;> rfl
  · rfl

theorem landPart_updateSafePointCache (mission inputs) :
    (s.updateSafePointCache mission inputs).landPart = s.landPart := by
  have hreplace : (s.replaceSafePoints mission).landPart = s.landPart := by
    unfold replaceSafePoints
    split_ifs <;> rfl
  exact (congrArg Prod.fst (given_loadStep _)).trans hreplace

/-! ## The land item -/

/-- What the land item was loaded for. -/
def landSource : UInt32 × ℤ × UInt8 × ℤ :=
  (s.missionLand.missionId, s.missionLand.count, s.missionLand.datamanId, s.missionLand.index)

theorem missionLandChanged_iff : missionLandChanged s.missionLand mission ↔
      Navigator.landSource mission ≠ s.landSource := by
  unfold missionLandChanged Navigator.landSource landSource
  simp only [Bool.or_eq_true, decide_eq_true_eq, ne_eq, Prod.mk.injEq]
  tauto

theorem landIndex_valid (h : 0 ≤ landIndex mission) :
    landIndex mission = mission.landIndex ∧ HoldsItems mission.missionDatamanId := by
  unfold landIndex at h ⊢
  split_ifs at h ⊢ with hvalid
  · exact ⟨rfl, .inr (.inr hvalid.1)⟩
  · omega

/-- The land item is from the responses to its client. -/
structure LandLoaded (clientId : UInt8) (responses : List Response) (c : DatamanCache)
    (client : DatamanClient) (land : MissionLandState) : Prop where
  clientId_eq : client.clientId = clientId
  stocked : c.Stocked clientId responses
  attached : c.Attached client
  valid : 0 ≤ land.index → HoldsItems land.datamanId
  loaded : land.ready → c.itemCounter = 0
  served : land.ready → ∃ item,
    cacheOnlyLoad c land.datamanId land.index = some item ∧ isLandingCmd (navCmd item)

def LandInv (clientId : UInt8) (responses : List Response) (s : MissionRouteCache) : Prop :=
  LandLoaded clientId responses s.datamanCacheLandItem s.datamanClientLandItem s.missionLand

section Land

variable {clientId : UInt8} {responses : List Response} {s s' : MissionRouteCache}
  {land : MissionLandState}

theorem LandInv.of_landPart (h : LandInv clientId responses s) (hpart : s'.landPart = s.landPart) :
    LandInv clientId responses s' := by
  unfold LandInv at h ⊢
  simp only [landPart, Prod.mk.injEq] at hpart
  rwa [hpart.1, hpart.2.1, hpart.2.2]

theorem landSource_of_landPart (hpart : s'.landPart = s.landPart) :
    s'.landSource = s.landSource := by
  simp only [landPart, Prod.mk.injEq] at hpart
  rw [landSource, hpart.2.2, landSource]

section

variable (hclient : s.datamanClientLandItem.clientId = clientId)
include hclient

theorem LandLoaded.clear
    (hready : land.ready = false) (hvalid : 0 ≤ land.index → HoldsItems land.datamanId) :
    LandLoaded clientId responses s.invalidateLandItem.datamanCacheLandItem
      s.invalidateLandItem.datamanClientLandItem land where
  clientId_eq := hclient
  stocked := s.datamanCacheLandItem.stocked_invalidate s.datamanClientLandItem _ _
  attached := .of_idle rfl
  valid := hvalid
  loaded := by rw [hready]; nofun
  served := by rw [hready]; nofun

theorem LandLoaded.queue
    (hready : land.ready = false) (hvalid : 0 ≤ land.index → HoldsItems land.datamanId) :
    LandLoaded clientId responses s.invalidateLandItem.queueMissionLandItem.1.datamanCacheLandItem
      s.invalidateLandItem.queueMissionLandItem.1.datamanClientLandItem land := by
  have hclear : LandLoaded clientId responses _ _ land := .clear hclient hready hvalid
  unfold queueMissionLandItem
  split
  · exact hclear
  · exact ⟨hclient, hclear.stocked.load _ _, .of_idle rfl, hvalid, by rw [hready]; nofun,
      by rw [hready]; nofun⟩

theorem LandInv.replace (mission now)
    (h : s.landSource = Navigator.landSource mission → LandInv clientId responses s) :
    LandInv clientId responses (s.replaceMissionLand mission now) ∧
      (s.replaceMissionLand mission now).landSource = Navigator.landSource mission := by
  unfold replaceMissionLand
  split
  · dsimp only
    split
    · exact ⟨LandLoaded.queue hclient rfl fun h => (landIndex_valid h).2, rfl⟩
    · exact ⟨LandLoaded.clear hclient rfl fun h => (landIndex_valid h).2, rfl⟩
  · rename_i hsame
    rw [missionLandChanged_iff, not_not] at hsame
    exact ⟨h hsame.symm, hsame.symm⟩

end

theorem LandInv.updateLandItem (h : LandInv clientId responses s) (inputs : Inputs) :
    LandInv clientId (responses ++ inputs.response.toList) (s.updateLandItem inputs) := by
  obtain ⟨hattached, hclient⟩ := h.attached.update inputs.now inputs.response inputs.expired
  have hstocked := (h.clientId_eq ▸ h.stocked).update h.attached inputs.now inputs.response_size
    inputs.expired
  have hunchanged (hready : s.missionLand.ready) :
      (s.updateLandItem inputs).datamanCacheLandItem = s.datamanCacheLandItem := by
    unfold MissionRouteCache.updateLandItem
    rw [update_of_not_loading (by rw [h.loaded hready]; exact Nat.lt_irrefl 0)]
  refine ⟨hclient.trans h.clientId_eq, h.clientId_eq ▸ hstocked, hattached, h.valid,
    fun hready => ?_, fun hready => ?_⟩
  · rw [hunchanged hready]
    exact h.loaded hready
  · rw [hunchanged hready]
    exact h.served hready

/-- The item that is served is one that passed the test. -/
theorem fullyLoaded_land (h : s.missionLandItemCacheFullyLoaded) :
    ∃ item, cacheOnlyLoad s.datamanCacheLandItem s.missionLand.datamanId s.missionLand.index =
      some item ∧ isLandingCmd (navCmd item) := by
  unfold missionLandItemCacheFullyLoaded at h
  split at h
  · cases h
  · rwa [Option.any_eq_true] at h

variable {now : UInt64}

theorem LandInv.validate (h : LandInv clientId responses s) :
    LandInv clientId responses (s.validateMissionLand now) ∧
      (s.validateMissionLand now).landSource = s.landSource := by
  unfold validateMissionLand
  dsimp only
  split
  · exact ⟨h, rfl⟩
  rename_i hwaiting
  have hready : s.missionLand.ready = false := by
    rw [not_or, Bool.not_eq_true] at hwaiting
    exact hwaiting.2
  split
  · split
    · exact ⟨h, rfl⟩
    · rename_i hloading
      split
      · rename_i hloaded
        refine ⟨{ h with loaded := fun _ => ?_, served := fun _ => ?_ }, rfl⟩
        · simpa [isLoading] using hloading
        · exact fullyLoaded_land hloaded
      · exact ⟨LandLoaded.clear h.clientId_eq hready h.valid, rfl⟩
  · split
    · exact ⟨LandLoaded.queue h.clientId_eq hready h.valid, rfl⟩
    · exact ⟨h, rfl⟩

theorem LandInv.update (hclient : s.datamanClientLandItem.clientId = clientId) (mission inputs)
    (h : s.landSource = Navigator.landSource mission → LandInv clientId responses s) :
    let r := s.updateMissionLandItemCache mission inputs
    LandInv clientId (responses ++ inputs.response.toList) r ∧
      r.landSource = Navigator.landSource mission := by
  obtain ⟨hreplaced, hsource⟩ := LandInv.replace hclient mission inputs.now h
  obtain ⟨hvalidated, hkept⟩ := (hreplaced.updateLandItem inputs).validate
  exact ⟨hvalidated, hkept.trans hsource⟩

end Land

/-! ## The safe points -/

/-- The metadata is from a response, and it is for the source. -/
structure Described (clientId : UInt8) (responses : List Response) (source : UInt32 × UInt8)
    (stats : MissionStatsEntry) : Prop where
  response : ∃ r ∈ responses, ReadFrom r clientId safePointsState.id 0 ∧
    .ofBytes (r.data.take missionStatsEntrySize) = stats
  opaqueId_eq : stats.opaqueId = source.1
  datamanId_eq : stats.numItems ≠ 0 → stats.datamanId = source.2 ∧ HoldsItems stats.datamanId

def metadataRequest : AsyncRequest := ⟨.safePointsState, 0, readStatsBuffer, missionStatsEntrySize⟩

/-- What holds in every state of the loader. -/
structure SafePointsLoaded (clientId : UInt8) (responses : List Response) (c : DatamanCache)
    (client : DatamanClient) (state : SafePointState) : Prop where
  clientId_eq : client.clientId = clientId
  stocked : c.Stocked clientId responses
  requested : state.updateRequested → state.datamanState = .updateRequestWait ∧ state.ready = false
  ready_state : state.ready → state.datamanState = .updateRequestWait
  reading : state.datamanState = .readWait →
    client.state = .requestSent ∧ client.activeRequest = metadataRequest
  loading : state.datamanState = .load → c.Attached client ∧
    Described clientId responses (state.sourceId, state.sourceDatamanId) state.readStats
  served : state.ready →
    Described clientId responses (state.sourceId, state.sourceDatamanId) state.cachedStats ∧
      ∀ index < state.cachedStats.numItems.toNat,
        (cacheOnlyLoad c state.cachedStats.datamanId index).isSome

def SafePointInv (clientId : UInt8) (responses : List Response) (s : MissionRouteCache) : Prop :=
  SafePointsLoaded clientId responses s.datamanCacheSafepoint s.datamanClientSafepoint s.safePoint

/-- What holds in the middle of an update: a set is being loaded. -/
structure Loading (clientId : UInt8) (responses : List Response) (s : MissionRouteCache) :
    Prop where
  clientId_eq : s.datamanClientSafepoint.clientId = clientId
  stocked : s.datamanCacheSafepoint.Stocked clientId responses
  not_ready : s.safePoint.ready = false
  not_requested : s.safePoint.updateRequested = false

section SafePoints

variable {clientId : UInt8} {responses responses' : List Response} {s s' : MissionRouteCache}

variable {source : UInt32 × UInt8} {stats : MissionStatsEntry} {r : Dataman.Response}

theorem Described.mono (h : Described clientId responses source stats)
    (hsub : responses ⊆ responses') : Described clientId responses' source stats := by
  obtain ⟨r, hr, hread⟩ := h.response
  exact { h with response := ⟨r, hsub hr, hread⟩ }

theorem SafePointInv.mono (h : SafePointInv clientId responses s) (hsub : responses ⊆ responses') :
    SafePointInv clientId responses' s where
  __ := h
  stocked := h.stocked.mono hsub
  loading := fun hload => ⟨(h.loading hload).1, (h.loading hload).2.mono hsub⟩
  served := fun hready => ⟨(h.served hready).1.mono hsub, (h.served hready).2⟩

theorem SafePointInv.of_safePointPart (h : SafePointInv clientId responses s)
    (hpart : s'.safePointPart = s.safePointPart) : SafePointInv clientId responses s' := by
  unfold SafePointInv at h ⊢
  simp only [safePointPart, Prod.mk.injEq] at hpart
  rwa [hpart.1, hpart.2.1, hpart.2.2]

theorem safePointSource_of_safePointPart (hpart : s'.safePointPart = s.safePointPart) :
    s'.safePointSource = s.safePointSource := by
  simp only [safePointPart, Prod.mk.injEq] at hpart
  rw [safePointSource, hpart.2.2, safePointSource]

/-- In a state other than the first one, a set is being loaded. -/
theorem SafePointInv.toLoading (h : SafePointInv clientId responses s)
    (hstate : s.safePoint.datamanState ≠ .updateRequestWait) : Loading clientId responses s where
  __ := h
  not_ready := Bool.eq_false_iff.mpr fun hready => hstate (h.ready_state hready)
  not_requested := Bool.eq_false_iff.mpr fun hrequested => hstate (h.requested hrequested).1

section

variable (h : Loading clientId responses s)
include h

theorem Loading.goTo {state}
    (hreading : state = .readWait → s.datamanClientSafepoint.state = .requestSent ∧
      s.datamanClientSafepoint.activeRequest = metadataRequest)
    (hloading : state = .load → s.datamanCacheSafepoint.Attached s.datamanClientSafepoint ∧
      Described clientId responses s.safePointSource s.safePoint.readStats) :
    SafePointInv clientId responses (s.goTo state) := by
  have hready : ¬(s.goTo state).safePoint.ready := Bool.not_eq_true _ ▸ h.not_ready
  have hrequested : ¬(s.goTo state).safePoint.updateRequested :=
    Bool.not_eq_true _ ▸ h.not_requested
  exact ⟨h.clientId_eq, h.stocked, fun h => absurd h hrequested, fun h => absurd h hready,
    hreading, hloading, fun h => absurd h hready⟩

theorem Loading.fail : SafePointInv clientId responses (s.goTo .error) :=
  h.goTo nofun nofun

theorem Loading.complete
    (hdescribed : Described clientId responses s.safePointSource s.safePoint.readStats)
    (hloaded : ∀ index < s.safePoint.readStats.numItems.toNat,
      (cacheOnlyLoad s.datamanCacheSafepoint s.safePoint.readStats.datamanId index).isSome) :
    SafePointInv clientId responses s.publishSafePointCache.becomeReady where
  __ := h
  requested := by
    intro hrequested
    rw [show s.publishSafePointCache.becomeReady.safePoint.updateRequested = false from
      h.not_requested] at hrequested
    cases hrequested
  ready_state := fun _ => rfl
  reading := nofun
  loading := nofun
  served := fun _ => ⟨hdescribed, hloaded⟩

end

section

variable (hclient : s.datamanClientSafepoint.clientId = clientId)
include hclient

theorem SafePointInv.reset (clear) :
    SafePointInv clientId responses (s.resetSafePointCacheState clear) where
  clientId_eq := hclient
  stocked := s.datamanCacheSafepoint.stocked_invalidate
    s.datamanClientSafepoint.abortCurrentOperation _ _
  requested := fun _ => ⟨rfl, rfl⟩
  ready_state := nofun
  reading := nofun
  loading := nofun
  served := nofun

theorem SafePointInv.replace (mission)
    (h : s.safePointSource = Navigator.safePointSource mission →
      SafePointInv clientId responses s) :
    SafePointInv clientId responses (s.replaceSafePoints mission) ∧
      (s.replaceSafePoints mission).safePointSource = Navigator.safePointSource mission := by
  unfold replaceSafePoints
  split
  · refine ⟨?_, rfl⟩
    apply SafePointInv.reset
    exact hclient
  · rename_i hsame
    rw [not_or, not_not, not_not] at hsame
    have hsource : s.safePointSource = Navigator.safePointSource mission :=
      Prod.ext hsame.1.symm hsame.2.symm
    exact ⟨h hsource, hsource⟩

end

/-! ### The metadata -/

theorem SafePointInv.requestMetadata (h : SafePointInv clientId responses s)
    (hstate : s.safePoint.datamanState = .read) (now) :
    SafePointInv clientId responses (s.requestMetadata now) := by
  have hloading := h.toLoading (by rw [hstate]; nofun)
  unfold MissionRouteCache.requestMetadata
  dsimp only
  split
  · rename_i client request hread
    obtain ⟨-, rfl, -⟩ := DatamanClient.readAsync_eq_some hread
    apply Loading.goTo
    · exact { hloading with }
    · exact fun _ => ⟨rfl, rfl⟩
    · nofun
  · exact Loading.fail { hloading with }

theorem stocked_loadSafePoints (h : c.Stocked clientId responses) (item rounds index) :
    (loadSafePoints item rounds index c).1.Stocked clientId responses := by
  induction rounds generalizing index c with
  | zero => exact h
  | succ rounds ih =>
    rw [loadSafePoints]
    split
    · exact ih (h.load item index) (index + 1)
    · exact h.load item index

theorem Loading.resize (h : Loading clientId responses s) (allocated) :
    Loading clientId responses (s.resizeSafePoints allocated) ∧
      (s.resizeSafePoints allocated).datamanClientSafepoint.state = .idle := by
  have hcleared := s.datamanCacheSafepoint.stocked_invalidate s.datamanClientSafepoint clientId
    responses
  unfold resizeSafePoints
  dsimp only
  split
  · obtain hclient | hclient := client_resize
      (s.datamanCacheSafepoint.invalidate s.datamanClientSafepoint).1
      (s.datamanCacheSafepoint.invalidate s.datamanClientSafepoint).2
      s.safePoint.readStats.numItems.toNat allocated <;>
    · rw [hclient]
      exact ⟨⟨h.clientId_eq, hcleared.resize _ _ _, rfl, h.not_requested⟩, rfl⟩
  · exact ⟨⟨h.clientId_eq, hcleared, rfl, h.not_requested⟩, rfl⟩

theorem Loading.queue (h : Loading clientId responses s)
    (hidle : s.datamanClientSafepoint.state = .idle)
    (hdescribed : Described clientId responses s.safePointSource s.safePoint.readStats) :
    SafePointInv clientId responses s.queueSafePoints := by
  unfold queueSafePoints
  dsimp only
  split
  · exact h.fail
  have hloaded : Loading clientId responses { s with datamanCacheSafepoint :=
      (loadSafePoints (ofId s.safePoint.readStats.datamanId)
        s.safePoint.readStats.numItems.toNat 0 s.datamanCacheSafepoint).1 } :=
    { h with stocked := stocked_loadSafePoints h.stocked _ _ _ }
  split
  · split
    · exact hloaded.goTo nofun fun _ => ⟨.of_idle hidle, hdescribed⟩
    · rename_i hempty
      refine hloaded.complete hdescribed fun index hindex => ?_
      have hzero : ¬0 < s.safePoint.readStats.numItems.toNat :=
        fun hpos => hempty (UInt16.lt_iff_toNat_lt.mpr hpos)
      exact absurd (Nat.zero_lt_of_lt hindex) hzero
  · exact hloaded.fail

theorem described_of_valid (hr : r ∈ responses) (hread : ReadFrom r clientId safePointsState.id 0)
    (hstats : .ofBytes (r.data.take missionStatsEntrySize) = s.safePoint.readStats)
    (hvalid : s.readStatsValid) :
    Described clientId responses s.safePointSource s.safePoint.readStats := by
  unfold readStatsValid at hvalid
  simp only [Bool.and_eq_true, Bool.or_eq_true, decide_eq_true_eq] at hvalid
  refine ⟨⟨r, hr, hread, hstats⟩, hvalid.1.2, fun hne => ?_⟩
  obtain ⟨hid, hitems⟩ := hvalid.2.resolve_left hne
  exact ⟨hid, hitems.imp_right .inl⟩

theorem Loading.metadataRead (h : Loading clientId responses s) (hdescribed : s.readStatsValid →
      Described clientId responses s.safePointSource s.safePoint.readStats) (allocated) :
    SafePointInv clientId responses (s.metadataRead allocated) := by
  unfold MissionRouteCache.metadataRead
  split
  · rename_i hvalid
    have hmatch : s.safePointCacheMatchesReadStats = false := by
      unfold safePointCacheMatchesReadStats
      simp [h.not_ready]
    rw [hmatch]
    obtain ⟨hresized, hidle⟩ := h.resize allocated
    exact hresized.queue hidle (hdescribed hvalid)
  · exact h.fail

section

variable (h : SafePointInv clientId responses s)
include h

section

variable (hstate : s.safePoint.datamanState = .readWait)
include hstate

variable {response : Option Dataman.Response}

/-- The response that the client accepts while it waits for the metadata. -/
theorem SafePointInv.metadata_readFrom
    (hresponse : s.datamanClientSafepoint.accepted response = some r)
    (hstatus : r.status = .success) : r ∈ response ∧ ReadFrom r clientId safePointsState.id 0 := by
  obtain ⟨hsent, hactive⟩ := h.reading hstate
  unfold DatamanClient.accepted at hresponse
  rw [if_pos hsent, Option.filter_eq_some_iff] at hresponse
  obtain ⟨rfl, hexpects⟩ := hresponse
  have hkey := of_decide_eq_true hexpects
  rw [hactive, h.clientId_eq, Key.mk.injEq] at hkey
  obtain ⟨hclient, htype, hitem, hindex⟩ := hkey
  exact ⟨rfl, hclient, htype, congrArg DmItem.id hitem, hindex, hstatus⟩

theorem SafePointInv.awaitMetadata (inputs) :
    SafePointInv clientId (responses ++ inputs.response.toList) (s.awaitMetadata inputs) := by
  have hmono := h.mono (subset_append_left responses inputs.response.toList)
  have hloading := hmono.toLoading (by rw [hstate]; nofun)
  obtain ⟨hsent, hactive⟩ := h.reading hstate
  unfold MissionRouteCache.awaitMetadata DatamanClient.update
  cases hresponse : s.datamanClientSafepoint.accepted inputs.response with
  | none =>
    have hcompleted : s.datamanClientSafepoint.lastOperationCompleted =
        (s.datamanClientSafepoint, none) := if_neg (by rw [hsent]; nofun)
    have hcopy : s.copyResponse s.datamanClientSafepoint.activeRequest none = s := by
      rw [hactive]
      rfl
    dsimp only
    rw [hcompleted, hcopy]
    exact hmono
  | some r =>
    have hcompleted : ({ s.datamanClientSafepoint with
        state := .responseReceived, responseStatus := r.status } :
          DatamanClient).lastOperationCompleted =
        ({ s.datamanClientSafepoint with state := .idle, responseStatus := r.status },
          some (decide (r.status = .success))) := rfl
    have hcopy : s.copyResponse s.datamanClientSafepoint.activeRequest (some r.data) =
        { s with safePoint := { s.safePoint with
          readStats := .ofBytes (r.data.take missionStatsEntrySize) } } := by
      rw [hactive]
      rfl
    dsimp only
    rw [hcompleted, hcopy]
    by_cases hstatus : r.status = .success
    · obtain ⟨hr, hread⟩ := h.metadata_readFrom hstate hresponse hstatus
      rw [decide_eq_true hstatus]
      apply Loading.metadataRead
      · exact { hloading with }
      · exact fun hvalid => described_of_valid
          (mem_append_right responses (Option.mem_toList.mpr hr)) hread rfl hvalid
    · rw [decide_eq_false hstatus]
      apply Loading.fail
      exact { hloading with }

end

/-! ### The items -/

theorem SafePointInv.awaitSafePoints (hstate : s.safePoint.datamanState = .load) (inputs : Inputs) :
    SafePointInv clientId (responses ++ inputs.response.toList) (s.awaitSafePoints inputs) := by
  have hloading := h.toLoading (by rw [hstate]; nofun)
  obtain ⟨hattached, hdescribed⟩ := h.loading hstate
  have hdescribed' := hdescribed.mono (subset_append_left responses inputs.response.toList)
  obtain ⟨hattached', hclient⟩ := hattached.update inputs.now inputs.response inputs.expired
  have hstocked := (h.clientId_eq ▸ h.stocked).update hattached inputs.now inputs.response_size
    inputs.expired
  rw [h.clientId_eq] at hstocked hclient
  unfold MissionRouteCache.awaitSafePoints
  dsimp only
  split
  · exact ⟨hclient, hstocked, h.requested, h.ready_state,
      fun hreading => absurd (hstate.symm.trans hreading) nofun,
      fun _ => ⟨hattached', hdescribed'⟩,
      fun hready => absurd (hstate.symm.trans (h.ready_state hready)) nofun⟩
  · split
    · rename_i hloaded
      apply Loading.complete
      · exact ⟨hclient, hstocked, hloading.not_ready, hloading.not_requested⟩
      · exact hdescribed'
      · unfold safePointCacheFullyLoaded at hloaded
        rw [all_eq_true] at hloaded
        exact fun index hindex => hloaded index (mem_range.mpr hindex)
    · apply Loading.fail
      exact ⟨hclient, hstocked, hloading.not_ready, hloading.not_requested⟩

theorem SafePointInv.retry (now) : SafePointInv clientId responses' (s.retrySafePoints now) := by
  have hreset : SafePointInv clientId responses' (s.resetSafePointCacheState false) :=
    .reset h.clientId_eq false
  exact { hreset with }

theorem SafePointInv.loadStep (inputs) :
    SafePointInv clientId (responses ++ inputs.response.toList) (s.loadStep inputs) := by
  have hmono := h.mono (subset_append_left responses inputs.response.toList)
  unfold MissionRouteCache.loadStep
  cases hstate : s.safePoint.datamanState with
  | updateRequestWait =>
    dsimp only
    split
    · rename_i hdue
      apply Loading.goTo
      · exact ⟨hmono.clientId_eq, hmono.stocked, (h.requested hdue.1).2, rfl⟩
      · nofun
      · nofun
    · exact hmono
  | read => exact hmono.requestMetadata hstate inputs.now
  | readWait => exact h.awaitMetadata hstate inputs
  | load => exact h.awaitSafePoints hstate inputs
  | error => exact h.retry inputs.now

end

theorem SafePointInv.update (hclient : s.datamanClientSafepoint.clientId = clientId)
    (mission inputs) (h : s.safePointSource = Navigator.safePointSource mission →
      SafePointInv clientId responses s) :
    SafePointInv clientId (responses ++ inputs.response.toList)
        (s.updateSafePointCache mission inputs) ∧
      (s.updateSafePointCache mission inputs).safePointSource =
        Navigator.safePointSource mission := by
  obtain ⟨hreplaced, hsource⟩ := SafePointInv.replace hclient mission h
  exact ⟨hreplaced.loadStep inputs, (congrArg Prod.snd (given_loadStep _)).trans hsource⟩

end SafePoints

/-! ## Runs -/

/-- Both parts are from the responses of their generation. -/
structure RouteInv (safepointId landItemId : UInt8) (es : List RouteEvent) (s : MissionRouteCache) :
    Prop where
  land : LandInv landItemId (landResponses (generation Navigator.landSource s.landSource es)) s
  safePoints : SafePointInv safepointId
    (safePointResponses (generation Navigator.safePointSource s.safePointSource es)) s

section Runs

variable {safepointId landItemId : UInt8} {es : List RouteEvent} {s : MissionRouteCache}

theorem routeInv_init :
    RouteInv safepointId landItemId [] (init safepointId landItemId) where
  land := ⟨rfl, .of_none nofun, .of_idle rfl, nofun, nofun, nofun⟩
  safePoints := ⟨rfl, .of_none nofun, fun _ => ⟨rfl, rfl⟩, nofun, nofun, nofun, nofun⟩

section

variable (h : RouteInv safepointId landItemId es s)
include h

theorem RouteInv.update_land {mission : Mission} {land safePoints} :
    LandInv landItemId (landResponses (generation Navigator.landSource
        (Navigator.landSource mission) (es ++ [.update mission land safePoints])))
        (s.update mission land safePoints) ∧
      (s.update mission land safePoints).landSource = Navigator.landSource mission := by
  have hbefore (hsource : s.landSource = Navigator.landSource mission) : LandInv landItemId
      (landResponses (generation Navigator.landSource (Navigator.landSource mission) es)) s := by
    rw [← hsource]
    exact h.land
  have hkept := landPart_updateSafePointCache (s.updateMissionLandItemCache mission land) mission
    safePoints
  obtain ⟨hinv, hsource⟩ := LandInv.update h.land.clientId_eq mission land hbefore
  rw [generation_update, landResponses_update]
  exact ⟨hinv.of_landPart hkept, (landSource_of_landPart hkept).trans hsource⟩

theorem RouteInv.update_safePoints {mission : Mission} {land safePoints} :
    SafePointInv safepointId (safePointResponses (generation Navigator.safePointSource
        (Navigator.safePointSource mission) (es ++ [.update mission land safePoints])))
        (s.update mission land safePoints) ∧
      (s.update mission land safePoints).safePointSource = Navigator.safePointSource mission := by
  -- the land item is updated first, which leaves the safe points alone
  have hkept := safePointPart_updateMissionLandItemCache s mission land
  have hland := h.safePoints.of_safePointPart hkept
  have hbefore (hsource : (s.updateMissionLandItemCache mission land).safePointSource =
      Navigator.safePointSource mission) : SafePointInv safepointId (safePointResponses
        (generation Navigator.safePointSource (Navigator.safePointSource mission) es))
        (s.updateMissionLandItemCache mission land) := by
    rw [← hsource, safePointSource_of_safePointPart hkept]
    exact hland
  rw [generation_update, safePointResponses_update]
  exact SafePointInv.update hland.clientId_eq mission safePoints hbefore

theorem RouteInv.invalidate :
    RouteInv safepointId landItemId (es ++ [.invalidate]) s.invalidate where
  land := LandLoaded.clear h.land.clientId_eq rfl nofun
  safePoints := .reset h.safePoints.clientId_eq true

end

theorem routeInv_after (safepointId landItemId es) :
    RouteInv safepointId landItemId es (Run.after step (init safepointId landItemId) es) := by
  apply Run.after_of_history routeInv_init
  rintro pre (⟨mission, land, safePoints⟩ | _) post - h
  · obtain ⟨hland, hlandSource⟩ := h.update_land
    obtain ⟨hsafePoints, hsource⟩ := h.update_safePoints
    constructor
    · rw [step, hlandSource]
      exact hland
    · rw [step, hsource]
      exact hsafePoints
  · exact h.invalidate

/-- The safe points that are served are those of the source. -/
theorem SafePointInv.serves
    (h : SafePointInv clientId responses s) (hready : s.safePointsReady) :
    Described clientId responses s.safePointSource s.safePoint.cachedStats ∧
      s.safePointCount = s.safePoint.cachedStats.numItems.toNat ∧
      ∀ index < s.safePointCount, ∃ item, s.loadSafePointItem index = some item ∧
        ∃ r ∈ responses, ReadFrom r clientId s.safePointSource.2 index ∧
          item = r.data.take missionItemSize := by
  have hcount : s.safePointCount = s.safePoint.cachedStats.numItems.toNat := if_pos hready
  have hstate : s.safePoint.ready := by
    unfold safePointsReady at hready
    rw [Bool.and_eq_true, Bool.and_eq_true] at hready
    exact hready.1.1
  obtain ⟨hdescribed, hloaded⟩ := h.served hstate
  refine ⟨hdescribed, hcount, fun index hindex => ?_⟩
  rw [hcount] at hindex
  have hload : s.loadSafePointItem index =
      cacheOnlyLoad s.datamanCacheSafepoint s.safePoint.cachedStats.datamanId index := by
    unfold loadSafePointItem
    rw [hready, if_pos (by simp [hindex])]
  obtain ⟨item, hitem⟩ := Option.isSome_iff_exists.mp (hloaded index hindex)
  have hne : s.safePoint.cachedStats.numItems ≠ 0 := by
    rintro hzero
    rw [hzero] at hindex
    cases hindex
  obtain ⟨hid, hholds⟩ := hdescribed.datamanId_eq hne
  obtain ⟨r, hr, hread, hdata⟩ := cacheOnlyLoad_readFrom h.stocked hholds hitem
  rw [hid] at hread
  exact ⟨item, hload.trans hitem, r, hr, hread, hdata⟩

/-- The land item that is served is the one of the source. -/
theorem LandInv.serves (h : LandInv clientId responses s) (hready : s.missionLandItemReady) :
    ∃ item, s.getMissionLandItem = some (s.missionLand.index, item) ∧
      isLandingCmd (navCmd item) ∧
      ∃ r ∈ responses,
        ReadFrom r clientId s.missionLand.datamanId s.missionLand.index.toNat ∧
          item = r.data.take missionItemSize := by
  have hstate := hready
  unfold missionLandItemReady at hstate
  rw [Bool.and_eq_true, Bool.and_eq_true, decide_eq_true_iff] at hstate
  obtain ⟨item, hitem, hlanding⟩ := h.served hstate.1.1
  refine ⟨item, ?_, hlanding, cacheOnlyLoad_readFrom h.stocked (h.valid hstate.1.2) hitem⟩
  unfold getMissionLandItem
  rw [if_pos hready, hitem, Option.bind_some, if_pos hlanding]

end Runs

/-- After an update, the safe points that are served were loaded for metadata that fits the mission,
and the land item is the one at its `land_index`; all comes from responses since the last change of
what the mission says of it. -/
theorem serves_current_generation (safepointId landItemId : UInt8) (es : List RouteEvent)
    (mission : Mission) (land safePoints : Inputs) :
    let events := es ++ [.update mission land safePoints]
    let s := Run.after step (init safepointId landItemId) events
    let responses := safePointResponses
      (generation Navigator.safePointSource (Navigator.safePointSource mission) events)
    (s.safePointsReady = true →
      (∃ r ∈ responses, ReadFrom r safepointId safePointsState.id 0 ∧
        .ofBytes (r.data.take missionStatsEntrySize) = s.safePoint.cachedStats) ∧
      s.safePoint.cachedStats.opaqueId = mission.safePointsId ∧
      (s.safePoint.cachedStats.numItems ≠ 0 →
        s.safePoint.cachedStats.datamanId = mission.safepointDatamanId) ∧
      s.safePointCount = s.safePoint.cachedStats.numItems.toNat ∧
      ∀ index < s.safePointCount, ∃ item, s.loadSafePointItem index = some item ∧
        ∃ r ∈ responses, ReadFrom r safepointId mission.safepointDatamanId index ∧
          item = r.data.take missionItemSize) ∧
    (s.missionLandItemReady = true →
      ∃ item, s.getMissionLandItem = some (mission.landIndex, item) ∧
        isLandingCmd (navCmd item) ∧
        ∃ r ∈ landResponses (generation Navigator.landSource (Navigator.landSource mission) events),
          ReadFrom r landItemId mission.missionDatamanId mission.landIndex.toNat ∧
            item = r.data.take missionItemSize) := by
  intro events s responses
  have h := routeInv_after safepointId landItemId es
  have hs : s = (Run.after step (init safepointId landItemId) es).update mission land safePoints :=
    Run.after_append step _ es _
  obtain ⟨hland, hlandSource⟩ := h.update_land
  obtain ⟨hsafePoints, hsource⟩ := h.update_safePoints
  rw [← hs] at hland hlandSource hsafePoints hsource
  refine ⟨fun hready => ?_, fun hready => ?_⟩
  · obtain ⟨hdescribed, hcount, hitems⟩ := hsafePoints.serves hready
    rw [hsource] at hdescribed hitems
    exact ⟨hdescribed.response, hdescribed.opaqueId_eq,
      fun hne => (hdescribed.datamanId_eq hne).1, hcount, hitems⟩
  · obtain ⟨item, hitem, hlanding, hread⟩ := hland.serves hready
    have hindex : s.missionLand.index = landIndex mission :=
      congrArg (fun source => source.2.2.2) hlandSource
    have hid : s.missionLand.datamanId = mission.missionDatamanId :=
      congrArg (fun source => source.2.2.1) hlandSource
    have hnonneg : 0 ≤ landIndex mission := by
      unfold missionLandItemReady at hready
      rw [Bool.and_eq_true, Bool.and_eq_true, decide_eq_true_iff] at hready
      exact hindex ▸ hready.1.2
    rw [hid, hindex, (landIndex_valid hnonneg).1] at hread
    rw [hindex, (landIndex_valid hnonneg).1] at hitem
    exact ⟨item, hitem, hlanding, hread⟩

/-- Five updates load a safe point and the land item. -/
example :
    let mission : Mission := ⟨6, 1, 2, 1, 7, 9⟩
    let land := padded (replicate 44 0 ++ [21])
    let metadata := padded [9, 0, 0, 0, 1, 0, 1, 0]
    let s := Run.after step (init 3 4) [.update mission { now := 1 } { now := 1 }, .update mission
          { now := 2, answer := some ⟨⟨4, .read, .waypointsOffboard0, 1, .success, land⟩, rfl⟩ }
          { now := 2 },
        .update mission { now := 3 }
          { now := 3, answer := some ⟨⟨3, .read, .safePointsState, 0, .success, metadata⟩, rfl⟩ },
        .update mission { now := 4 } { now := 4 },
        .update mission { now := 5 }
          { now := 5, answer := some ⟨⟨3, .read, .safePoints1, 0, .success, padded []⟩, rfl⟩ }]
    s.safePointsReady = true ∧ s.safePointCount = 1 ∧ s.missionLandItemReady = true := by
  decide +kernel

end MissionRouteCache

end Px4.Navigator
