import Px4.Mavlink.MissionManager
import Mathlib.Tactic.SplitIfs

/-!
# What a step of the mission manager can do

The properties of the mission protocol depend on a part of the state only, `Core`. `Move` lists
everything that a handler can do to it, and `handler_move` says that a handler does nothing else.

The `Guards` of a move are the situations, in the context before the event, that some moves need.
-/

namespace Px4.Mavlink

variable {ι G : Type*}

/-- The members that describe an upload. They mean something in the state `getlist` only. -/
structure Upload where
  missionType : MavMissionType
  bank : DmItem
  count : UInt16
  seq : UInt16
  crc32 : UInt32
  currentSeq : ℤ
  markers : ℤ × ℤ

structure Active where
  bank : DmItem
  count : UInt16
  crc32 : UInt32
deriving DecidableEq

/-- The part of the context that the properties are about. -/
structure Core (G : Type*) where
  active : Active
  flag : Bool
  items : DmItem → ℕ → Option (MissionItemS G)
  published : List MissionS
  writes : List ItemWrite
  state : WpmState
  upload : Upload
  markers : ℤ × ℤ

def Ctx.core (c : Ctx G) : Core G where
  active := ⟨c.shared.missionDatamanId, c.shared.count.mission, c.shared.crc32.mission⟩
  flag := c.shared.transferInProgress
  items := c.dataman.items
  published := c.published
  writes := c.writes
  state := c.me.state
  upload :=
    { missionType := c.me.missionType
      bank := c.me.transferDatamanId
      count := c.me.transferCount
      seq := c.me.transferSeq
      crc32 := c.me.transferCurrentCrc32
      currentSeq := c.me.transferCurrentSeq
      markers := (c.me.transferLandStartMarker, c.me.transferLandMarker) }
  markers := (c.me.landStartMarker, c.me.landMarker)

/-- The mission that a published `mission_s` is about. -/
def MissionS.active (m : MissionS) : Active := ⟨m.missionDatamanId, m.count, m.missionId⟩

/-- The land indices of a published `mission_s`. -/
def MissionS.markers (m : MissionS) : ℤ × ℤ := (m.landStartIndex, m.landIndex)

/-- The banks of the mission. -/
def DmItem.IsWaypoints (id : DmItem) : Prop :=
  id = .waypointsOffboard0 ∨ id = .waypointsOffboard1

namespace Core

/-- Nothing happens to the missions. -/
structure Same (x y : Core G) : Prop where
  active_eq : y.active = x.active
  items_eq : y.items = x.items
  published_eq : y.published = x.published
  markers_eq : y.markers = x.markers
  writes_eq : y.writes = x.writes

/-- The active mission is published, once or more often. -/
def Announces (x y : Core G) : Prop :=
  ∃ ms, ms ≠ [] ∧ y.published = x.published ++ ms ∧
    ∀ m ∈ ms, MissionS.active m = y.active ∧ MissionS.markers m = y.markers

/-- The active mission stays and is published again. -/
structure Announced (x y : Core G) : Prop where
  active_eq : y.active = x.active
  items_eq : y.items = x.items
  markers_eq : y.markers = x.markers
  announces : x.Announces y
  writes_eq : y.writes = x.writes

/-- The mission is cleared, and that is published. -/
structure Cleared (x y : Core G) : Prop where
  active_eq : y.active = ⟨otherMissionBank x.active.bank, 0, 0⟩
  items_eq : y.items = x.items
  markers_eq : y.markers = (-1, -1)
  announces : x.Announces y
  writes_eq : y.writes = x.writes

def nextWrite (x : Core G) : ItemWrite :=
  ⟨x.upload.bank, x.upload.seq.toNat, x.active.bank, x.active.count⟩

/-- At most the next item of the upload is written. -/
def Wrote (x y : Core G) : Prop :=
  y.writes = x.writes ∨ y.writes = x.writes ++ [x.nextWrite]

/-- The next item of the upload is at most written in vain. -/
structure Tried (x y : Core G) : Prop where
  active_eq : y.active = x.active
  items_eq : y.items = x.items
  published_eq : y.published = x.published
  markers_eq : y.markers = x.markers
  wrote : x.Wrote y

theorem Wrote.of_eq {x y z : Core G} (h : x.Wrote y) (heq : z.writes = y.writes) : x.Wrote z := by
  unfold Wrote at h ⊢
  rwa [heq]

theorem Same.tried {x y : Core G} (h : x.Same y) : x.Tried y :=
  ⟨h.1, h.2, h.3, h.4, .inl h.5⟩

/-- The storage after the next item of the upload has been written. -/
def written (x : Core G) (item : MissionItemS G) : DmItem → ℕ → Option (MissionItemS G) :=
  Function.update x.items x.upload.bank
    (Function.update (x.items x.upload.bank) x.upload.seq.toNat (some item))

end Core

/-- The upload after its next item, with the given checksum and current item. -/
def Upload.next (u : Upload) (cmd : NavCmd) (crc32 : UInt32) (currentSeq : ℤ) : Upload :=
  { u with
    seq := u.seq + 1
    crc32
    currentSeq
    markers := if u.missionType = .mission then Ctx.landMarkers u.markers u.seq.toNat cmd
      else u.markers }

/-- The next item of the upload is stored, and it is not the last one. -/
structure Core.Progressed (x y : Core G) (item : MissionItemS G) (crc32 : UInt32) : Prop where
  state_eq : y.state = .getlist
  flag_eq : y.flag = x.flag
  active_eq : y.active = x.active
  published_eq : y.published = x.published
  markers_eq : y.markers = x.markers
  items_mission : x.upload.missionType = .mission → y.items = x.written item
  items_other : x.upload.missionType ≠ .mission →
    ∀ bank, bank ≠ x.upload.bank → y.items bank = x.items bank
  upload_eq : ∃ currentSeq, y.upload = x.upload.next item.navCmd crc32 currentSeq
  seq_ne : y.upload.seq ≠ y.upload.count
  wrote : x.Wrote y

/-- The last item is stored, and the mission becomes active unless it has the same checksum. -/
structure Core.Finished (x y : Core G) (item : MissionItemS G) (crc32 : UInt32) : Prop where
  state_eq : y.state = .idle
  flag_eq : y.flag = false
  items_eq : y.items = x.written item
  markers_eq : y.markers = Ctx.landMarkers x.upload.markers x.upload.seq.toNat item.navCmd
  active_eq : y.active = if crc32 ≠ x.active.crc32 then ⟨x.upload.bank, x.upload.count, crc32⟩
    else x.active
  announces : if crc32 ≠ x.active.crc32 then x.Announces y else y.published = x.published
  wrote : x.Wrote y

/-- The situations in which the guarded moves are possible. -/
structure Guards (G : Type*) where
  expires : Prop
  republishes : Prop
  clears : Prop
  starts : Prop
  stores : MissionItemS G → UInt32 → Prop
  completes : MissionItemS G → UInt32 → Prop

/-- No guarded move is possible. -/
def Guards.none : Guards G where
  expires := False
  republishes := False
  clears := False
  starts := False
  stores _ _ := False
  completes _ _ := False

/-- Everything that a handler can do. -/
inductive Move (g : Guards G) (x y : Core G) : Prop where
  /-- nothing that matters -/
  | keep (same : x.Same y) (flag_eq : y.flag = x.flag)
      (state_iff : y.state = .getlist ↔ x.state = .getlist)
      (upload_eq : x.state = .getlist → y.upload = x.upload)
  /-- the active mission is published again, with the markers of this instance -/
  | announce (guard : g.republishes) (announced : x.Announced y) (idle : x.state = .idle)
      (state_eq : y.state = .idle) (flag_eq : y.flag = x.flag)
  /-- the mission is cleared -/
  | clear (guard : g.clears) (cleared : x.Cleared y) (idle : x.state = .idle)
      (state_eq : y.state = .idle) (flag_eq : y.flag = x.flag)
  /-- an upload begins -/
  | start (guard : g.starts) (same : x.Same y) (idle : x.state = .idle) (free : x.flag = false)
      (state_eq : y.state = .getlist) (flag_eq : y.flag = true) (count_pos : 0 < y.upload.count)
      (seq_eq : y.upload.seq = 0) (markers_init : y.upload.markers = (-1, -1))
      (bank_mission : y.upload.missionType = .mission →
        y.upload.bank = otherMissionBank x.active.bank)
      (bank_other : y.upload.missionType ≠ .mission → ¬ y.upload.bank.IsWaypoints)
  /-- an upload is aborted -/
  | stop (tried : x.Tried y) (busy : x.state = .getlist) (state_eq : y.state = .idle)
      (flag_eq : y.flag = false)
  /-- a download is given up, and the transfer flag is cleared with it -/
  | expire (guard : g.expires) (same : x.Same y) (busy : x.state = .sendlist)
      (state_eq : y.state = .idle) (flag_eq : y.flag = false)
  /-- an item is stored and the next one requested -/
  | progress (item : MissionItemS G) (crc32 : UInt32) (guard : g.stores item crc32)
      (busy : x.state = .getlist) (progressed : x.Progressed y item crc32)
  /-- the last item of a mission is stored -/
  | finish (item : MissionItemS G) (crc32 : UInt32) (guard : g.completes item crc32)
      (busy : x.state = .getlist) (mission : x.upload.missionType = .mission)
      (last : x.upload.seq + 1 = x.upload.count) (finished : x.Finished y item crc32)
  /-- the last item of another list is stored -/
  | finishOther (busy : x.state = .getlist) (other : x.upload.missionType ≠ .mission)
      (state_eq : y.state = .idle) (flag_eq : y.flag = false)
      (items_eq : ∀ bank, bank ≠ x.upload.bank → y.items bank = x.items bank)
      (active_eq : y.active = x.active) (markers_eq : y.markers = x.markers)
      (announces : y.published = x.published ∨ g.republishes ∧ x.Announces y) (wrote : x.Wrote y)
  /-- the instance takes over the mission that was published last -/
  | refresh (m : MissionS) (last : x.published.getLast? = some m) (state_eq : y.state = x.state)
      (upload_eq : y.upload = x.upload) (flag_eq : y.flag = x.flag) (items_eq : y.items = x.items)
      (published_eq : y.published = x.published) (active_eq : y.active = m.active)
      (markers_eq : y.markers = m.markers) (writes_eq : y.writes = x.writes)

/-! ## Handlers that do not touch the core -/

namespace Ctx

variable (c : Ctx G)

@[simp]
theorem core_emit (o) : (c.emit o).core = c.core := rfl

variable {text : String} {io : DatamanResults} {seq count : UInt16} {status : Option VehicleStatusS}
  {now : UInt64} {sysid compid : UInt8} {missionType : MavMissionType} {opaqueId : UInt32}
  {cfg : Config G}

@[simp]
theorem core_notifyFilesystemError : (c.notifyFilesystemError text).core = c.core := by
  unfold notifyFilesystemError
  split_ifs <;> rfl

@[simp]
theorem core_switchToIdleState : c.switchToIdleState.core = { c.core with state := .idle } := rfl

@[simp]
theorem core_loadGeofenceStats : (c.loadGeofenceStats io).core = c.core := by
  unfold loadGeofenceStats
  split <;> rfl

@[simp]
theorem core_loadSafepointStats (io) : (c.loadSafepointStats io).core = c.core := by
  unfold loadSafepointStats
  split <;> rfl

@[simp]
theorem core_sendMissionAck (sysid compid type opaqueId) :
    (c.sendMissionAck sysid compid type opaqueId).core = c.core := rfl

@[simp]
theorem core_ackPartner (type opaqueId) :
    (c.ackPartner type opaqueId).core = c.core := rfl

@[simp]
theorem core_updateMissionState (status) : (c.updateMissionState status).core = c.core := by
  cases status <;> rfl

@[simp]
theorem core_sendMissionCurrent :
    (c.sendMissionCurrent seq status).core = c.core := by
  unfold sendMissionCurrent
  simp

@[simp]
theorem core_sendMissionCount :
    (c.sendMissionCount now sysid compid count missionType opaqueId).core = c.core := rfl

@[simp]
theorem core_sendMissionItem (now sysid compid seq io) :
    (c.sendMissionItem now sysid compid seq io).core = c.core := by
  unfold sendMissionItem
  dsimp only
  split
  · split_ifs <;> rfl
  · rw [core_notifyFilesystemError]
    split_ifs <;> rfl

@[simp]
theorem core_sendMissionRequest (cfg now sysid compid seq) :
    (c.sendMissionRequest cfg now sysid compid seq).core = c.core := by
  unfold sendMissionRequest
  split_ifs <;> rfl

@[simp]
theorem core_requestNext :
    (c.requestNext cfg now).core = c.core := by
  unfold requestNext
  simp

end Ctx

/-! ## Rules for moves -/

section Moves

theorem Core.Same.refl (x : Core G) : x.Same x := ⟨rfl, rfl, rfl, rfl, rfl⟩

variable {g : Guards G} {x y : Core G}

theorem Move.of_eq (h : y = x) : Move g x y :=
  .keep (h ▸ .refl x) (h ▸ rfl) (h ▸ Iff.rfl) (fun _ => h ▸ rfl)

/-- A handler that leaves the state `getlist` alone and does not touch the missions. -/
theorem Move.of_not_getlist (same : x.Same y) (flag_eq : y.flag = x.flag)
    (hx : x.state ≠ .getlist) (hy : y.state ≠ .getlist) : Move g x y :=
  .keep same flag_eq (iff_of_false hy hx) fun h => absurd h hx

/-- Clearing lists in the idle state, with the flag as it was before. -/
theorem Move.of_clear {P : Prop} {b : Bool}
    (h : x.Cleared y ∧ g.clears ∨ x.Same y ∨ x.Announced y ∧ P)
    (hg : P → g.republishes) (hidle : x.state = .idle) (hstate : y.state = .idle)
    (hflag : b = x.flag) : Move g x { y with flag := b } := by
  rcases h with ⟨h, hclears⟩ | h | ⟨h, hp⟩
  · exact .clear hclears { h with } hidle hstate hflag
  · exact .of_not_getlist { h with } hflag (by simp [hidle]) (by simp [hstate])
  · exact .announce (hg hp) { h with } hidle hstate hflag

end Moves

/-! ## Sequences of publications -/

section Announced

variable {x y z : Core G}

section

variable (h : x.Same y)
include h

theorem Core.Same.trans (h' : y.Same z) : x.Same z :=
  ⟨h'.1.trans h.1, h'.2.trans h.2, h'.3.trans h.3, h'.4.trans h.4, h'.5.trans h.5⟩

theorem Core.Announces.of_same (h' : y.Announces z) : x.Announces z := by
  obtain ⟨ms, hne, heq, hms⟩ := h'
  exact ⟨ms, hne, by rw [heq, h.published_eq], hms⟩

theorem Core.Announced.of_same (h' : y.Announced z) : x.Announced z :=
  ⟨h'.1.trans h.1, h'.2.trans h.2, h'.3.trans h.4, h'.4.of_same h, h'.5.trans h.5⟩

theorem Core.Cleared.of_same (h' : y.Cleared z) : x.Cleared z :=
  ⟨h'.1.trans (by rw [h.1]), h'.2.trans h.2, h'.3, h'.4.of_same h, h'.5.trans h.5⟩

end

theorem Core.Cleared.same (h : x.Cleared y) (h' : y.Same z) : x.Cleared z := by
  obtain ⟨ms, hne, heq, hms⟩ := h.announces
  refine ⟨h'.1.trans h.1, h'.2.trans h.2, h'.4.trans h.3, ⟨ms, hne, h'.3.trans heq, ?_⟩,
    h'.5.trans h.5⟩
  rw [h'.active_eq, h'.markers_eq]
  exact hms

theorem Core.Cleared.announced (h : x.Cleared y) (h' : y.Announced z) : x.Cleared z := by
  obtain ⟨ms, hne, heq, hms⟩ := h.announces
  obtain ⟨ms', -, heq', hms'⟩ := h'.announces
  refine ⟨h'.1.trans h.1, h'.2.trans h.2, h'.3.trans h.3, ⟨ms ++ ms', by simp [hne], ?_, ?_⟩,
    h'.5.trans h.5⟩
  · rw [heq', heq, List.append_assoc]
  · intro m hm
    rcases List.mem_append.mp hm with hm | hm
    · rw [h'.active_eq, h'.markers_eq]
      exact hms m hm
    · exact hms' m hm

end Announced

/-! ## Commits -/

namespace Ctx

theorem updateActiveMission_core (c : Ctx G) (now id count seq crc32 writeOk) :
    let y := (c.updateActiveMission now id count seq crc32 writeOk).core
    y.active = ⟨id, count, crc32⟩ ∧ y.items = c.core.items ∧ y.markers = c.core.markers ∧
      c.core.Announces y ∧ y.writes = c.core.writes ∧ y.state = c.core.state ∧
      y.flag = c.core.flag := by
  cases writeOk
  · exact ⟨rfl, rfl, rfl, ⟨[_], by simp, rfl, by simpa using ⟨rfl, rfl⟩⟩, rfl, rfl, rfl⟩
  · exact ⟨rfl, rfl, rfl, ⟨[_], by simp, rfl, by simpa using ⟨rfl, rfl⟩⟩, rfl, rfl, rfl⟩

/-- A commit of another list publishes the active mission again, if it succeeds. -/
theorem updateGeofenceCount_core (c : Ctx G) (now id count crc32 io) :
    let y := (c.updateGeofenceCount now id count crc32 io).1.core
    (io.fenceStateWrite ∧ c.core.Announced y ∨ c.core.Same y) ∧
      y.state = c.core.state ∧ y.flag = c.core.flag := by
  unfold updateGeofenceCount
  cases io.fenceStateWrite with
  | false =>
    simp only [Bool.false_eq_true, if_false, core_notifyFilesystemError]
    exact ⟨.inr ⟨rfl, rfl, rfl, rfl, rfl⟩, rfl, rfl⟩
  | true =>
    exact ⟨.inl ⟨rfl, rfl, rfl, rfl, ⟨[_], by simp, rfl, by simpa using ⟨rfl, rfl⟩⟩, rfl⟩, rfl, rfl⟩

theorem updateSafepointCount_core (c : Ctx G) (now id count crc32 io) :
    let y := (c.updateSafepointCount now id count crc32 io).1.core
    (io.safePointsStateWrite ∧ c.core.Announced y ∨ c.core.Same y) ∧
      y.state = c.core.state ∧ y.flag = c.core.flag := by
  unfold updateSafepointCount
  cases io.safePointsStateWrite with
  | false =>
    simp only [Bool.false_eq_true, if_false, core_notifyFilesystemError]
    exact ⟨.inr ⟨rfl, rfl, rfl, rfl, rfl⟩, rfl, rfl⟩
  | true =>
    exact ⟨.inl ⟨rfl, rfl, rfl, rfl, ⟨[_], by simp, rfl, by simpa using ⟨rfl, rfl⟩⟩, rfl⟩, rfl, rfl⟩

/-- The banks, counts and checksums. -/
def stats (c : Ctx G) :=
  (c.shared.fenceDatamanId, c.shared.safepointDatamanId, c.me.myMissionDatamanId,
    c.me.myFenceDatamanId, c.me.mySafepointDatamanId, c.shared.count, c.shared.crc32)

theorem stats_notifyFilesystemError (c : Ctx G) (text) :
    (c.notifyFilesystemError text).stats = c.stats := by
  unfold notifyFilesystemError
  split_ifs <;> rfl

/-- The bank is replaced before the statistics are written, and not put back. -/
theorem failed_commit_changes_nothing (c : Ctx G) (now : UInt64) (id : DmItem) (count : UInt16)
    (crc32 : UInt32) (io : DatamanResults) :
    let fence := c.updateGeofenceCount now id count crc32 io
    let rally := c.updateSafepointCount now id count crc32 io
    ((fence.2 = false → fence.1.stats = c.stats) ↔
      io.fenceStateWrite ∨ id = c.shared.fenceDatamanId ∧ id = c.me.myFenceDatamanId) ∧
    ((rally.2 = false → rally.1.stats = c.stats) ↔
      io.safePointsStateWrite ∨
        id = c.shared.safepointDatamanId ∧ id = c.me.mySafepointDatamanId) := by
  unfold updateGeofenceCount updateSafepointCount
  constructor
  · cases io.fenceStateWrite with
    | false =>
      simp only [Bool.false_eq_true, if_false, stats_notifyFilesystemError]
      simp [stats]
    | true => simp
  · cases io.safePointsStateWrite with
    | false =>
      simp only [Bool.false_eq_true, if_false, stats_notifyFilesystemError]
      simp [stats]
    | true => simp

/-- The next `mission_s` names the new bank with the checksum of the old one. -/
theorem failed_commit_replaces_bank :
    let c : Ctx Unit := ⟨{ crc32 := ⟨0, 7, 0⟩ }, ⟨fun _ _ => none, none, none, none⟩, {}, [], [],
      []⟩
    let r := c.updateGeofenceCount 0 .fencePoints1 2 9 { fenceStateWrite := false }
    r.2 = false ∧ c.shared.fenceDatamanId = .fencePoints0 ∧
      (r.1.missionMessage 1).fenceDatamanId = .fencePoints1 ∧
      (r.1.missionMessage 1).geofenceId = 7 := by
  decide

end Ctx

end Px4.Mavlink
