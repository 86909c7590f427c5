import Px4.Mavlink.MissionCore

/-!
# The moves of an upload

An expected item is parsed, stored and counted; the last one commits the upload.
-/

namespace Px4.Mavlink

open Upload

variable {G : Type*}

namespace Ctx

variable {item : MissionItemS G} {x : Core G} {now : UInt64} {index : ℕ} {cfg : Config G}
  {msg : Message} {int b : Bool} {g : Guards G}

theorem writeItem_core {c : Ctx G} {io : DatamanResults} :
    (c.writeItem c.me.transferSeq.toNat item io).core =
      { c.core with
        items := if io.itemWrite then c.core.written item else c.core.items
        writes := c.core.writes ++ [c.core.nextWrite] } := by
  unfold writeItem
  cases io.itemWrite <;> rfl

/-- What storing an item does to the core. -/
structure StoreEffect (x y : Core G) (item : MissionItemS G) : Prop where
  active_eq : y.active = x.active
  flag_eq : y.flag = x.flag
  published_eq : y.published = x.published
  state_eq : y.state = x.state
  markers_eq : y.markers = x.markers
  upload_eq : y.upload = { x.upload with markers := (x.upload.next item.navCmd 0 0).markers }
  items_mission : x.upload.missionType = .mission → y.items = x.written item
  items_other : x.upload.missionType ≠ .mission →
    ∀ bank, bank ≠ x.upload.bank → y.items bank = x.items bank
  wrote : x.Wrote y

/-- An item of another list goes to the bank of the transfer. -/
theorem StoreEffect.of_written {item point : MissionItemS G} {b : Bool}
    (htype : x.upload.missionType ≠ .mission) :
    StoreEffect x { x with
      items := if b then x.written point else x.items
      writes := x.writes ++ [x.nextWrite] } item := by
  refine ⟨rfl, rfl, rfl, rfl, rfl, ?_, fun h => absurd h htype, fun _ bank hbank => ?_, .inr rfl⟩
  · simp [Upload.next, htype]
  · cases b
    · rfl
    · exact Function.update_of_ne hbank _ _

theorem core_markLanding {c : Ctx G} {seq cmd} :
    (c.markLanding seq cmd).core = { c.core with
      upload := { c.core.upload with markers := landMarkers c.core.upload.markers seq cmd } } :=
  rfl

variable {io : DatamanResults} {c : Ctx G} {wp : MavlinkMissionItem} {item : MissionItemS G}

theorem writeResult_eq_ok (h : writeResult io = .ok) : io.itemWrite := by
  unfold writeResult at h
  split_ifs at h with hio
  exact hio

section

variable (hseq : wp.seq = c.me.transferSeq)
include hseq

theorem storeMissionItem_ok
    (htype : c.me.missionType = .mission) (hok : (c.storeMissionItem wp item io).2 = .ok) :
    StoreEffect c.core (c.storeMissionItem wp item io).1.core item ∧
      wrongMissionItem item.navCmd = false ∧ io.itemWrite := by
  unfold storeMissionItem at hok ⊢
  split_ifs at hok ⊢ with hwrong
  have hio := writeResult_eq_ok hok
  have hmission : c.core.upload.missionType = .mission := htype
  refine ⟨?_, by simpa using hwrong, hio⟩
  rw [hseq, core_markLanding, writeItem_core, if_pos hio]
  refine ⟨rfl, rfl, rfl, rfl, rfl, ?_, fun _ => rfl, fun h => absurd hmission h, .inr rfl⟩
  simp only [Upload.next, hmission, if_true]
  rfl

theorem storeFencePoint_ok
    (htype : c.me.missionType = .fence) (hok : (c.storeFencePoint wp item io).2 = .ok) :
    StoreEffect c.core (c.storeFencePoint wp item io).1.core item := by
  unfold storeFencePoint at hok ⊢
  split_ifs at hok ⊢ with hcheck
  rw [hseq, writeItem_core]
  exact .of_written (by simp [core, htype])

theorem storeItem_ok (hok : (c.storeItem wp item io).2 = .ok) :
    StoreEffect c.core (c.storeItem wp item io).1.core item ∧
      (c.me.missionType = .mission → wrongMissionItem item.navCmd = false ∧
        io.itemWrite) := by
  unfold storeItem at hok ⊢
  cases htype : c.me.missionType with
  | mission =>
    rw [htype] at hok
    obtain ⟨heffect, hrest⟩ := storeMissionItem_ok hseq htype hok
    exact ⟨heffect, fun _ => hrest⟩
  | fence =>
    rw [htype] at hok
    exact ⟨storeFencePoint_ok hseq htype hok, nofun⟩
  | rally =>
    refine ⟨?_, nofun⟩
    rw [hseq, writeItem_core]
    exact .of_written (by simp [core, htype])
  | _ =>
    have hne : c.core.upload.missionType ≠ .mission := by simp [core, htype]
    refine ⟨⟨rfl, rfl, rfl, rfl, rfl, ?_, fun h => absurd h hne, fun _ _ _ => rfl, .inl rfl⟩, nofun⟩
    simp [Upload.next, hne]

end

theorem storeItem_failed (c : Ctx G) (wp : MavlinkMissionItem) (item : MissionItemS G)
    (io : DatamanResults) (hseq : wp.seq = c.me.transferSeq)
    (hfail : (c.storeItem wp item io).2 ≠ .ok) : c.core.Tried (c.storeItem wp item io).1.core := by
  have hwrite : ∀ point, writeResult io ≠ .ok →
      c.core.Tried (c.writeItem wp.seq.toNat point io).core := by
    intro point hio
    have hio : io.itemWrite = false := by
      unfold writeResult at hio
      simpa using hio
    rw [hseq, writeItem_core, hio]
    exact ⟨rfl, rfl, rfl, rfl, .inr rfl⟩
  unfold storeItem at hfail ⊢
  cases htype : c.me.missionType with
  | mission =>
    rw [htype] at hfail
    unfold storeMissionItem at hfail ⊢
    split_ifs at hfail ⊢ with hwrong
    · exact (Core.Same.refl _).tried
    · have hsame := hwrite item hfail
      exact { hsame with }
  | fence =>
    rw [htype] at hfail
    unfold storeFencePoint at hfail ⊢
    split_ifs at hfail ⊢ with hcheck
    · exact (Core.Same.refl _).tried
    · exact hwrite _ hfail
  | rally =>
    rw [htype] at hfail
    exact hwrite item hfail
  | _ =>
    rw [htype] at hfail
    exact absurd rfl hfail

theorem core_finishTransfer : (c.finishTransfer now io).core =
      { (c.commitTransfer now io).1.core with state := .idle, flag := false } := by
  unfold finishTransfer
  dsimp only
  split_ifs <;> rfl

/-- The end of the upload of a mission; it becomes active unless it has the same checksum. -/
theorem finishTransfer_mission (now io) (htype : c.me.missionType = .mission) :
    let y := (c.finishTransfer now io).core
    y.state = .idle ∧ y.flag = false ∧ y.items = c.core.items ∧ y.writes = c.core.writes ∧
      y.markers = c.core.upload.markers ∧
      (y.active = if c.core.upload.crc32 ≠ c.core.active.crc32 then
        ⟨c.core.upload.bank, c.core.upload.count, c.core.upload.crc32⟩ else c.core.active) ∧
      (if c.core.upload.crc32 ≠ c.core.active.crc32 then c.core.Announces y
        else y.published = c.core.published) := by
  rw [core_finishTransfer]
  refine ⟨rfl, rfl, ?_⟩
  unfold commitTransfer
  rw [htype]
  by_cases hcrc : c.me.transferCurrentCrc32 = c.shared.crc32.mission
  · have hcrc' : ¬ c.core.upload.crc32 ≠ c.core.active.crc32 := not_not.mpr hcrc
    simp only [if_neg hcrc', ne_eq, hcrc, not_true, if_false]
    exact ⟨rfl, rfl, rfl, rfl, rfl⟩
  · have hcrc' : c.core.upload.crc32 ≠ c.core.active.crc32 := hcrc
    simp only [if_pos hcrc', ne_eq, hcrc, not_false_eq_true, if_true]
    obtain ⟨hactive, hitems, hmarkers, hannounces, hwrites, -, -⟩ := updateActiveMission_core
      { c with
        me.landStartMarker := c.me.transferLandStartMarker
        me.landMarker := c.me.transferLandMarker } now c.me.transferDatamanId
      c.me.transferCount c.me.transferCurrentSeq c.me.transferCurrentCrc32 io.missionStateWrite
    exact ⟨hitems, hwrites, hmarkers, hactive, hannounces⟩

theorem finishTransfer_other (now io) (htype : c.me.missionType ≠ .mission) :
    let y := (c.finishTransfer now io).core
    y.state = .idle ∧ y.flag = false ∧
      (c.core.Same y ∨ c.core.Announced y ∧
        (c.me.missionType = .fence ∧ c.me.transferCurrentCrc32 ≠ c.shared.crc32.fence ∧
            io.fenceStateWrite ∨
          c.me.missionType = .rally ∧ c.me.transferCurrentCrc32 ≠ c.shared.crc32.rally ∧
            io.safePointsStateWrite)) := by
  rw [core_finishTransfer]
  refine ⟨rfl, rfl, ?_⟩
  unfold commitTransfer
  cases hfence : c.me.missionType with
  | mission => exact absurd hfence htype
  | fence =>
    dsimp only
    split_ifs with hcrc
    · obtain ⟨⟨hok, h⟩ | h, -⟩ := c.updateGeofenceCount_core now c.me.transferDatamanId
        c.me.transferCount c.me.transferCurrentCrc32 io
      · exact .inr ⟨{ h with }, .inl ⟨rfl, hcrc, hok⟩⟩
      · exact .inl { h with }
    · exact .inl ⟨rfl, rfl, rfl, rfl, rfl⟩
  | rally =>
    dsimp only
    split_ifs with hcrc
    · obtain ⟨⟨hok, h⟩ | h, -⟩ := c.updateSafepointCount_core now c.me.transferDatamanId
        c.me.transferCount c.me.transferCurrentCrc32 io
      · exact .inr ⟨{ h with }, .inr ⟨rfl, hcrc, hok⟩⟩
      · exact .inl { h with }
    · exact .inl ⟨rfl, rfl, rfl, rfl, rfl⟩
  | _ => exact .inl ⟨rfl, rfl, rfl, rfl, rfl⟩

variable (c)

theorem writeItem_shared : (c.writeItem index item io).shared = c.shared := by
  unfold writeItem
  cases io.itemWrite <;> rfl

theorem storeItem_shared : (c.storeItem wp item io).1.shared = c.shared := by
  unfold storeItem
  cases c.me.missionType with
  | mission =>
    unfold storeMissionItem
    split_ifs
    · rfl
    · exact c.writeItem_shared ..
  | fence =>
    unfold storeFencePoint
    split_ifs
    · rfl
    · exact c.writeItem_shared ..
  | rally => exact c.writeItem_shared ..
  | _ => rfl

/-- Whether an item of a list is stored. -/
def storeStatus (missionType : MavMissionType) (item : MissionItemS G) (io : DatamanResults) :
    Stored :=
  match missionType with
  | .mission => if wrongMissionItem item.navCmd then .checkFailed else writeResult io
  | .fence =>
    if polygonVertex item.navCmd ∧ item.vertexCount < 3 then .checkFailed else writeResult io
  | .rally => writeResult io
  | _ => .ok

theorem storeItem_snd (wp item io) :
    (c.storeItem wp item io).2 = storeStatus c.me.missionType item io := by
  unfold storeItem storeStatus
  cases c.me.missionType with
  | mission =>
    unfold storeMissionItem
    split_ifs <;> rfl
  | fence =>
    unfold storeFencePoint
    split_ifs <;> rfl
  | _ => rfl

/-- The message is the item that the current upload waits for. -/
structure IsNextItem (c : Ctx G) (cfg : Config G) (msg : Message) (wp : MavlinkMissionItem) :
    Prop where
  forUs : checkSysidCompid cfg msg = true
  partner : c.fromPartner msg = true
  sameType : wp.missionType = c.me.missionType
  getlist : c.me.state = .getlist
  expected : wp.seq = c.me.transferSeq

instance (c : Ctx G) (cfg : Config G) (msg : Message) (wp : MavlinkMissionItem) :
    Decidable (c.IsNextItem cfg msg wp) :=
  decidable_of_iff (checkSysidCompid cfg msg = true ∧ c.fromPartner msg = true ∧
      wp.missionType = c.me.missionType ∧ c.me.state = .getlist ∧ wp.seq = c.me.transferSeq)
    ⟨fun ⟨h₁, h₂, h₃, h₄, h₅⟩ => ⟨h₁, h₂, h₃, h₄, h₅⟩,
      fun ⟨h₁, h₂, h₃, h₄, h₅⟩ => ⟨h₁, h₂, h₃, h₄, h₅⟩⟩

/-- The item that the message adds to the current upload. -/
def storedItem (cfg : Config G) (msg : Message) (int : Bool)
    (wp : MavlinkMissionItem) (io : DatamanResults) : Option (MissionItemS G) :=
  if c.IsNextItem cfg msg wp then
    (cfg.parse int c.me.vehicleTypeBitmask wp).toOption.filter
      fun item => storeStatus c.me.missionType item io = .ok
  else none

/-- The item with which the message completes the current upload. -/
def completion (cfg : Config G) (msg : Message) (int : Bool)
    (wp : MavlinkMissionItem) (io : DatamanResults) : Option (MissionItemS G) :=
  if wp.seq + 1 = c.me.transferCount then c.storedItem cfg msg int wp io else none

variable {c}

theorem storedItem_eq_some :
    c.storedItem cfg msg int wp io = some item ↔ c.IsNextItem cfg msg wp ∧
      cfg.parse int c.me.vehicleTypeBitmask wp = .ok item ∧
      storeStatus c.me.missionType item io = .ok := by
  unfold storedItem
  cases cfg.parse int c.me.vehicleTypeBitmask wp with
  | error => simp [Except.toOption]
  | ok => simp [Except.toOption]

/-- The form of the message comes with it, not from the last one. -/
theorem storedItem_intMode (c : Ctx G) (b cfg msg int wp io) :
    storedItem { c with me.intMode := b } cfg msg int wp io = c.storedItem cfg msg int wp io := by
  unfold storedItem
  congr 1
  exact propext ⟨fun h => { h with }, fun h => { h with }⟩

theorem completion_eq_none
    (h : c.storedItem cfg msg int wp io = none) : c.completion cfg msg int wp io = none := by
  unfold completion
  rw [h, ite_self]

theorem completion_intMode :
    completion { c with me.intMode := b } cfg msg int wp io = c.completion cfg msg int wp io := by
  unfold completion
  rw [storedItem_intMode]

/-- The upload of a geofence or of rally points ends with a commit. -/
def CommitsOther (c : Ctx G) (crc32 : UInt32) (io : DatamanResults) : Prop :=
  (c.me.missionType = .fence ∧ crc32 ≠ c.shared.crc32.fence ∧ io.fenceStateWrite) ∨
    (c.me.missionType = .rally ∧ crc32 ≠ c.shared.crc32.rally ∧ io.safePointsStateWrite)

section Advance

variable {x : Core G} {c : Ctx G} {wp : MavlinkMissionItem} {item : MissionItemS G} {crc32 : UInt32}

variable (hseq : wp.seq = x.upload.seq)
  (heffect : StoreEffect { x with upload := { x.upload with crc32 } } c.core item)
include heffect

theorem transferCount_eq : c.me.transferCount = x.upload.count :=
  congrArg count heffect.upload_eq

include hseq

theorem upload_moveOn :
    (c.moveOn wp).core.upload =
      x.upload.next item.navCmd crc32 (c.moveOn wp).me.transferCurrentSeq := by
  have hmoved : (c.moveOn wp).core.upload = { c.core.upload with
    seq := wp.seq + 1, currentSeq := (c.moveOn wp).me.transferCurrentSeq } := rfl
  rw [hmoved, heffect.upload_eq, hseq]
  rfl

variable (cfg : Config G) (now : UInt64)

theorem advance_progressed
    (hget : x.state = .getlist) (hmore : wp.seq + 1 ≠ x.upload.count) :
    x.Progressed ((c.moveOn wp).advance cfg now io).core item crc32 := by
  have hmore' : (c.moveOn wp).me.transferSeq ≠ (c.moveOn wp).me.transferCount :=
    fun h => hmore (transferCount_eq heffect ▸ h)
  unfold advance
  rw [if_neg hmore', core_requestNext]
  exact { heffect with
    state_eq := heffect.state_eq.trans hget
    upload_eq := ⟨_, upload_moveOn hseq heffect⟩
    seq_ne := hmore' }

theorem advance_finished
    (hmission : x.upload.missionType = .mission) (hlast : wp.seq + 1 = x.upload.count) :
    x.Finished ((c.moveOn wp).advance cfg now io).core item crc32 := by
  have hupload := upload_moveOn hseq heffect
  have htype : c.me.missionType = x.upload.missionType :=
    congrArg missionType heffect.upload_eq
  have hlast' : (c.moveOn wp).me.transferSeq = (c.moveOn wp).me.transferCount :=
    hlast.trans (transferCount_eq heffect).symm
  unfold advance
  rw [if_pos hlast']
  obtain ⟨hstate, hflag, hitems, hwrites, hmarkers, hactive, hannounces⟩ :=
    finishTransfer_mission now io (c := c.moveOn wp) (htype.trans hmission)
  have hcrc : (c.moveOn wp).core.upload.crc32 = crc32 := by rw [hupload]; rfl
  rw [show (c.moveOn wp).core.active = x.active from heffect.active_eq] at hactive
  rw [hcrc, show (c.moveOn wp).core.active = x.active from heffect.active_eq] at hannounces
  refine ⟨hstate, hflag, hitems.trans (heffect.items_mission hmission), ?_, ?_, ?_,
    heffect.wrote.of_eq hwrites⟩
  · rw [hmarkers, hupload]
    simp [Upload.next, hmission]
  · rw [hactive, hupload]
    rfl
  · split_ifs at hannounces ⊢
    · obtain ⟨ms, hne, hms, hall⟩ := hannounces
      exact ⟨ms, hne, by rw [hms]; exact congrArg (· ++ ms) heffect.published_eq, hall⟩
    · exact hannounces.trans heffect.published_eq

theorem advance_move
    (hget : x.state = .getlist) (hstores : g.stores item crc32)
    (hcompletes : wp.seq + 1 = x.upload.count → g.completes item crc32)
    (hrepublishes : wp.seq + 1 = x.upload.count → c.CommitsOther crc32 io → g.republishes) :
    Move g x ((c.moveOn wp).advance cfg now io).core := by
  by_cases hlast : wp.seq + 1 = x.upload.count
  case neg =>
    exact .progress item crc32 hstores hget (advance_progressed hseq heffect cfg now hget hlast)
  by_cases hmission : x.upload.missionType = .mission
  · exact .finish item crc32 (hcompletes hlast) hget hmission (hseq ▸ hlast)
      (advance_finished hseq heffect cfg now hmission hlast)
  -- another list is complete; it concerns the mission only if the active one is published again
  have htype : c.me.missionType = x.upload.missionType :=
    congrArg missionType heffect.upload_eq
  have hcrc : c.me.transferCurrentCrc32 = crc32 := congrArg Upload.crc32 heffect.upload_eq
  have hitems := heffect.items_other hmission
  unfold advance
  rw [if_pos (show (c.moveOn wp).me.transferSeq = (c.moveOn wp).me.transferCount from
    hlast.trans (transferCount_eq heffect).symm)]
  obtain ⟨hstate, hflag, hrest⟩ :=
    finishTransfer_other now io (c := c.moveOn wp) fun h => hmission (htype ▸ h)
  rcases hrest with h | ⟨h, hcommits⟩
  · exact .finishOther hget hmission hstate hflag
      (fun bank hb => (congrFun h.items_eq bank).trans (hitems bank hb))
      (h.active_eq.trans heffect.active_eq) (h.markers_eq.trans heffect.markers_eq)
      (.inl (h.published_eq.trans heffect.published_eq)) (heffect.wrote.of_eq h.writes_eq)
  · obtain ⟨ms, hne, hms, hall⟩ := h.announces
    refine .finishOther hget hmission hstate hflag
      (fun bank hb => (congrFun h.items_eq bank).trans (hitems bank hb))
      (h.active_eq.trans heffect.active_eq) (h.markers_eq.trans heffect.markers_eq)
      (.inr ⟨hrepublishes hlast ?_, ms, hne, ?_, hall⟩) (heffect.wrote.of_eq h.writes_eq)
    · rw [← hcrc]
      exact hcommits
    · rw [hms]
      exact congrArg (· ++ ms) heffect.published_eq

end Advance

theorem receiveItem_stored (now)
    (hparse : cfg.parse c.me.intMode c.me.vehicleTypeBitmask wp = .ok item)
    (hstatus : storeStatus c.me.missionType item io = .ok) :
    c.receiveItem cfg now wp io =
      (((c.addToCrc32 cfg wp).storeItem wp item io).1.moveOn wp).advance cfg now io := by
  have hstored := (storeItem_snd (c.addToCrc32 cfg wp) wp item io).trans hstatus
  unfold receiveItem
  rw [hparse]
  dsimp only
  rw [hstored]

/-- An expected item is stored, or the upload is aborted. -/
theorem receiveItem_move (cfg : Config G) (now wp io) (hget : c.me.state = .getlist)
    (hseq : wp.seq = c.me.transferSeq)
    (hitem : ∀ item, cfg.parse c.me.intMode c.me.vehicleTypeBitmask wp = .ok item →
    storeStatus c.me.missionType item io = .ok →
    let crc32 := crc32ForMissionItem cfg wp c.me.transferCurrentCrc32
    g.stores item crc32 ∧ (wp.seq + 1 = c.me.transferCount → g.completes item crc32 ∧
    (c.CommitsOther crc32 io → g.republishes))) :
    Move g c.core (c.receiveItem cfg now wp io).core := by
  cases hparse : cfg.parse c.me.intMode c.me.vehicleTypeBitmask wp with
  | error e =>
    unfold receiveItem
    rw [hparse]
    exact .stop ⟨rfl, rfl, rfl, rfl, .inl rfl⟩ hget rfl rfl
  | ok item =>
    have hsnd := storeItem_snd (c.addToCrc32 cfg wp) wp item io
    by_cases hstatus : storeStatus c.me.missionType item io = .ok
    · obtain ⟨heffect, -⟩ := storeItem_ok (c := c.addToCrc32 cfg wp) hseq (hsnd.trans hstatus)
      have htype := congrArg missionType heffect.upload_eq
      rw [receiveItem_stored now hparse hstatus]
      obtain ⟨hstores, hlasts⟩ := hitem item hparse hstatus
      refine advance_move hseq heffect cfg now hget hstores (fun hlast => (hlasts hlast).1)
        fun hlast hcommits => (hlasts hlast).2 ?_
      -- storing the item changes neither the active lists nor the type of the upload
      unfold CommitsOther at hcommits
      rw [storeItem_shared, show ((c.addToCrc32 cfg wp).storeItem wp item io).1.me.missionType
        = c.me.missionType from htype] at hcommits
      exact hcommits
    · have hfailed : ((c.addToCrc32 cfg wp).storeItem wp item io).2 ≠ .ok :=
        fun h => hstatus (hsnd.symm.trans h)
      have htried := storeItem_failed (c.addToCrc32 cfg wp) wp item io hseq hfailed
      unfold receiveItem
      rw [hparse]
      dsimp only
      cases hstored : ((c.addToCrc32 cfg wp).storeItem wp item io).2 with
      | ok => exact absurd hstored hfailed
      | writeFailed =>
        exact .stop { htried with } hget rfl rfl
      | checkFailed =>
        exact .stop { htried with } hget rfl rfl

theorem handleMissionItemBoth_move (cfg now msg wp io) (hus : checkSysidCompid cfg msg)
    (hstores : ∀ item, c.storedItem cfg msg c.me.intMode wp io = some item →
      g.stores item (crc32ForMissionItem cfg wp c.me.transferCurrentCrc32))
    (hcompletes : ∀ item, c.completion cfg msg c.me.intMode wp io = some item →
      g.completes item (crc32ForMissionItem cfg wp c.me.transferCurrentCrc32))
    (hrepublishes : ∀ item, c.completion cfg msg c.me.intMode wp io = some item →
      c.CommitsOther (crc32ForMissionItem cfg wp c.me.transferCurrentCrc32) io → g.republishes) :
    Move g c.core (c.handleMissionItemBoth cfg now msg wp io).core := by
  unfold handleMissionItemBoth
  by_cases hpartner : c.fromPartner msg
  case neg =>
    rw [if_neg hpartner]
    exact .of_eq rfl
  rw [if_pos hpartner]
  by_cases htype : wp.missionType = c.me.missionType
  case neg =>
    rw [if_pos htype]
    exact .of_eq rfl
  rw [if_neg (not_not.mpr htype)]
  cases hstate : c.me.state with
  | getlist =>
    by_cases hseq : wp.seq = c.me.transferSeq
    · rw [if_neg (not_not.mpr hseq)]
      have hnext : c.IsNextItem cfg msg wp := ⟨hus, hpartner, htype, hstate, hseq⟩
      refine receiveItem_move (c := { c with me.timeLastRecv := now }) cfg now wp io hstate hseq
        fun item hparse hok => ?_
      have hstored := storedItem_eq_some.mpr ⟨hnext, hparse, hok⟩
      exact ⟨hstores item hstored, fun hlast => ⟨hcompletes item ((if_pos hlast).trans hstored),
        hrepublishes item ((if_pos hlast).trans hstored)⟩⟩
    · rw [if_pos hseq]
      exact .of_eq rfl
  | idle =>
    split_ifs <;> exact .of_eq rfl
  | sendlist => exact .of_eq rfl

theorem handleMissionItemBoth_next (h : c.IsNextItem cfg msg wp) :
    c.handleMissionItemBoth cfg now msg wp io =
      ({ c with me.timeLastRecv := now } : Ctx G).receiveItem cfg now wp io := by
  unfold handleMissionItemBoth
  rw [if_pos h.partner, if_neg (not_not.mpr h.sameType), h.getlist]
  exact if_neg (not_not.mpr h.expected)

/-- The item that an upload of a mission waits for, once it is stored. -/
theorem handleMissionItemBoth_stored (now) (hmission : c.me.missionType = .mission)
    (hstored : c.storedItem cfg msg c.me.intMode wp io = some item) :
    let y := (c.handleMissionItemBoth cfg now msg wp io).core
    let crc32 := crc32ForMissionItem cfg wp c.me.transferCurrentCrc32
    (wp.seq + 1 ≠ c.me.transferCount → c.core.Progressed y item crc32) ∧
      (wp.seq + 1 = c.me.transferCount → c.core.Finished y item crc32) := by
  obtain ⟨hnext, hparse, hstatus⟩ := storedItem_eq_some.mp hstored
  let d : Ctx G := { c with me.timeLastRecv := now }
  rw [handleMissionItemBoth_next hnext, receiveItem_stored (c := d) now hparse hstatus]
  have hok : ((d.addToCrc32 cfg wp).storeItem wp item io).2 = .ok :=
    (storeItem_snd ..).trans hstatus
  obtain ⟨heffect, -⟩ := storeItem_ok (c := d.addToCrc32 cfg wp) hnext.expected hok
  constructor
  · intro hmore
    exact advance_progressed hnext.expected heffect cfg now hnext.getlist hmore
  · intro hlast
    exact advance_finished hnext.expected heffect cfg now hmission hlast

end Ctx

end Px4.Mavlink
