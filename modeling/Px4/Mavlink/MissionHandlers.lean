import Px4.Mavlink.MissionCore

/-!
# The moves of the mission handlers

Every handler of a message other than `MISSION_ITEM` makes a move.
-/

namespace Px4.Mavlink

variable {G : Type*}

namespace Ctx

variable {g : Guards G}

section

variable (c : Ctx G)

variable {cfg : Config G} {now : UInt64} {msg : Message} {type : MavMissionResult}
  {missionType : MavMissionType} {io : DatamanResults}

theorem handleMissionAck_move :
    Move g c.core (c.handleMissionAck cfg now msg type missionType).core := by
  unfold handleMissionAck
  split_ifs with hpartner hsend hget hunsupported hcancel
  · refine .of_not_getlist ⟨rfl, rfl, rfl, rfl, rfl⟩ rfl ?_ ?_
    · simp [core, hsend.1]
    · simp
  · exact .of_eq (core_requestNext _)
  · exact .stop ⟨rfl, rfl, rfl, rfl, .inl rfl⟩ hget rfl rfl
  · exact .of_eq rfl
  · exact .of_eq rfl
  · exact .of_eq rfl

section

variable (now : UInt64)

variable {seq : UInt16}

theorem handleMissionSetCurrent_move
    (hg : c.me.state = .idle → seq < c.shared.count.mission → g.republishes) :
    Move g c.core (c.handleMissionSetCurrent now seq io).core := by
  unfold handleMissionSetCurrent
  dsimp only
  split_ifs with hidle hseq
  · obtain ⟨hactive, hitems, hmarkers, hannounces, hwrites, hstate, hflag⟩ :=
      updateActiveMission_core { c with me.timeLastRecv := now } now c.shared.missionDatamanId
        c.shared.count.mission seq.toNat c.shared.crc32.mission io.missionStateWrite
    exact .announce (hg hidle hseq) ⟨hactive, hitems, hmarkers, hannounces, hwrites⟩ hidle
      (hstate.trans hidle) hflag
  · exact .of_eq rfl
  · exact .of_eq rfl

theorem startDownload_core :
    let d := (c.startDownload now msg missionType io).core
    c.core.Same d ∧ d.flag = c.core.flag ∧ d.state = .sendlist := by
  have hload : ∀ d e : Ctx G, e.core = d.core → d.me.state = .sendlist →
      e.core.Same d.core ∧ e.core.flag = d.core.flag ∧ e.core.state = .sendlist := by
    intro d e heq hd
    rw [heq]
    exact ⟨.refl _, rfl, hd⟩
  cases missionType with
  | fence =>
    obtain ⟨hsame, hflag, hstate⟩ := hload _ _ (core_loadGeofenceStats
      { c with me.timeLastRecv := now, me.state := .sendlist, me.missionType := .fence }) rfl
    exact ⟨⟨hsame.1.symm, hsame.2.symm, hsame.3.symm, hsame.4.symm, hsame.5.symm⟩, hflag, hstate⟩
  | rally =>
    obtain ⟨hsame, hflag, hstate⟩ := hload _ _ (core_loadSafepointStats
      { c with me.timeLastRecv := now, me.state := .sendlist, me.missionType := .rally } io) rfl
    exact ⟨⟨hsame.1.symm, hsame.2.symm, hsame.3.symm, hsame.4.symm, hsame.5.symm⟩, hflag, hstate⟩
  | _ => exact ⟨⟨rfl, rfl, rfl, rfl, rfl⟩, rfl, rfl⟩

theorem handleMissionRequestList_move :
    Move g c.core (c.handleMissionRequestList now msg missionType io).core := by
  unfold handleMissionRequestList
  dsimp only
  split_ifs with hdone hstart hstart
  · obtain ⟨hsame, hflag, hstate⟩ := startDownload_core c.switchToIdleState now
    refine .of_not_getlist { hsame with } hflag ?_ ?_
    · simp [core, hdone.1]
    · simp [hstate]
  · exact absurd (.inl rfl) hstart
  · obtain ⟨hsame, hflag, hstate⟩ := startDownload_core c now
    refine .of_not_getlist hsame hflag ?_ ?_
    · intro hget
      change c.me.state = .getlist at hget
      simp [hget] at hstart
    · simp [hstate]
  · exact .of_eq rfl

theorem sendRequested_move
    (hstate : c.me.state = .sendlist) : Move g c.core (c.sendRequested now seq io).core := by
  have hsend : c.core.state ≠ .getlist := by simp [core, hstate]
  have hreject : ∀ d : Ctx G, c.core.Same d.core → d.core.flag = c.core.flag →
      Move g c.core d.rejectRequest.core := fun d hsame hflag =>
    .of_not_getlist { hsame with } hflag hsend
      (by simp [rejectRequest])
  unfold sendRequested
  dsimp only
  split_ifs with hnext hexpected hitem hitem
  · rw [core_sendMissionItem]
    exact .of_not_getlist ⟨rfl, rfl, rfl, rfl, rfl⟩ rfl hsend hsend
  · exact hreject _ ⟨rfl, rfl, rfl, rfl, rfl⟩ rfl
  · rw [core_sendMissionItem]
    exact .of_eq rfl
  · exact hreject _ ⟨rfl, rfl, rfl, rfl, rfl⟩ rfl
  · exact hreject _ ⟨rfl, rfl, rfl, rfl, rfl⟩ rfl

theorem handleMissionRequestBoth_move (msg seq missionType io) :
    Move g c.core (c.handleMissionRequestBoth now msg seq missionType io).core := by
  unfold handleMissionRequestBoth
  by_cases hpartner : c.fromPartner msg
  · rw [if_pos hpartner]
    cases hstate : c.me.state with
    | sendlist =>
      split_ifs
      · exact .of_eq rfl
      · exact c.sendRequested_move now hstate
    | idle => exact .of_eq rfl
    | getlist => exact .of_eq rfl
  · rw [if_neg hpartner]
    exact .of_eq rfl

theorem clearMission_core :
    let y := (c.clearMission now io).core
    c.core.Cleared y ∧ y.state = c.core.state ∧ y.flag = c.core.flag := by
  obtain ⟨hactive, hitems, hmarkers, hannounces, hwrites, hstate, hflag⟩ := updateActiveMission_core
    { c with me.landStartMarker := -1, me.landMarker := -1 } now
    (otherMissionBank c.shared.missionDatamanId) 0 0 0 io.missionStateWrite
  exact ⟨⟨hactive, hitems, hmarkers, hannounces, hwrites⟩, hstate, hflag⟩

end

/-- Clearing one list: the mission is cleared, or stays and may be published again. -/
theorem clearList_core {x : Core G} (hsame : x.Same c.core) (now io missionType) :
    let y := (c.clearList now io missionType).1.core
    (x.Cleared y ∧ missionType = .mission ∨ x.Same y ∨ x.Announced y ∧
      (missionType = .fence ∧ io.fenceStateWrite ∨
        missionType = .rally ∧ io.safePointsStateWrite)) ∧
    y.state = c.core.state ∧ y.flag = c.core.flag := by
  cases missionType with
  | mission =>
    obtain ⟨hcleared, hrest⟩ := c.clearMission_core now
    exact ⟨.inl ⟨hcleared.of_same hsame, rfl⟩, hrest⟩
  | fence =>
    obtain ⟨⟨hok, h⟩ | h, hrest⟩ := c.updateGeofenceCount_core now
      (otherFenceBank c.shared.fenceDatamanId) 0 0 io
    · exact ⟨.inr (.inr ⟨h.of_same hsame, .inl ⟨rfl, hok⟩⟩), hrest⟩
    · exact ⟨.inr (.inl (hsame.trans h)), hrest⟩
  | rally =>
    obtain ⟨⟨hok, h⟩ | h, hrest⟩ := c.updateSafepointCount_core now
      (otherSafePointBank c.shared.safepointDatamanId) 0 0 io
    · exact ⟨.inr (.inr ⟨h.of_same hsame, .inr ⟨rfl, hok⟩⟩), hrest⟩
    · exact ⟨.inr (.inl (hsame.trans h)), hrest⟩
  | _ => exact ⟨.inr (.inl hsame), rfl, rfl⟩

theorem clearAll_core (now io) :
    let y := (c.clearAll now io).1.core
    c.core.Cleared y ∧ y.state = c.core.state ∧ y.flag = c.core.flag := by
  obtain ⟨hcleared, hstate, hflag⟩ := c.clearMission_core now
  obtain ⟨hfence, hstate', hflag'⟩ := (c.clearMission now io).updateGeofenceCount_core now
    (otherFenceBank (c.clearMission now io).shared.fenceDatamanId) 0 0 io
  obtain ⟨hrally, hstate'', hflag''⟩ := ((c.clearMission now io).clearFence now io).1
    |>.updateSafepointCount_core now (otherSafePointBank
      ((c.clearMission now io).clearFence now io).1.shared.safepointDatamanId) 0 0 io
  have hcleared' := hfence.elim (fun h => hcleared.announced h.2) hcleared.same
  have hcleared'' := hrally.elim (fun h => hcleared'.announced h.2) hcleared'.same
  exact ⟨hcleared'', hstate''.trans (hstate'.trans hstate), hflag''.trans (hflag'.trans hflag)⟩

theorem handleMissionClearAll_move (hclears : g.clears)
    (hg : c.me.state = .idle → (missionType = .fence ∧ io.fenceStateWrite ∨
      missionType = .rally ∧ io.safePointsStateWrite) → g.republishes) :
    Move g c.core (c.handleMissionClearAll now msg missionType io).core := by
  unfold handleMissionClearAll
  split_ifs with hidle hall
  · obtain ⟨h, hstate, hflag⟩ := clearAll_core
      { c with me.timeLastRecv := now, me.missionType := missionType } now io
    exact .clear hclears { h with } hidle (hstate.trans hidle) hflag
  · obtain ⟨h, hstate, hflag⟩ := clearList_core (x := c.core)
      { c with me.timeLastRecv := now, me.missionType := missionType } ⟨rfl, rfl, rfl, rfl, rfl⟩
      now io missionType
    exact Move.of_clear (h.imp_left (.imp_right fun _ => hclears)) (hg hidle) hidle
      (hstate.trans hidle) hflag
  · exact .of_eq rfl

end

variable {c : Ctx G}

variable {missionType : MavMissionType} {bank : DmItem} {count : UInt16} {x : Core G}
  {cfg : Config G} {now : UInt64} {msg : Message} {io : DatamanResults}

/-- An upload goes to the inactive bank of its list. -/
theorem uploadBank_spec (h : c.uploadBank missionType = some bank) :
    (missionType = .mission → bank = otherMissionBank c.core.active.bank) ∧
      (missionType ≠ .mission → ¬ bank.IsWaypoints) := by
  cases missionType with
  | mission =>
    obtain rfl : otherMissionBank c.shared.missionDatamanId = bank := Option.some.inj h
    exact ⟨fun _ => rfl, fun hne => absurd rfl hne⟩
  | fence =>
    obtain rfl : otherFenceBank c.shared.fenceDatamanId = bank := Option.some.inj h
    unfold otherFenceBank
    split_ifs <;> simp [DmItem.IsWaypoints]
  | rally =>
    obtain rfl : otherSafePointBank c.shared.safepointDatamanId = bank := Option.some.inj h
    unfold otherSafePointBank
    split_ifs <;> simp [DmItem.IsWaypoints]
  | _ => cases h

theorem startUpload_move (hstarts : g.starts) (hsame : x.Same c.core) (hidle : x.state = .idle)
    (hfree : x.flag = false) (hflag : c.core.flag) (hpos : 0 < count)
    (hbank : c.uploadBank c.me.missionType = some bank) :
    Move g x (c.startUpload cfg now bank count).core := by
  obtain ⟨hmission, hother⟩ := uploadBank_spec hbank
  rw [hsame.active_eq] at hmission
  unfold startUpload
  rw [core_requestNext]
  exact .start hstarts { hsame with } hidle hfree rfl hflag hpos
    rfl rfl hmission hother

theorem countIdle_move (c : Ctx G)
    (hidle : c.me.state = .idle) (hclears : count = 0 → g.clears)
    (hstarts : count ≠ 0 → c.shared.transferInProgress = false → g.starts)
    (hg : count = 0 → c.shared.transferInProgress = false →
      (missionType = .fence ∧ io.fenceStateWrite ∨
        missionType = .rally ∧ io.safePointsStateWrite) → g.republishes) :
    Move g c.core (c.countIdle cfg now msg count missionType io).core := by
  have hx : c.core.state ≠ .getlist := by simp [core, hidle]
  unfold countIdle
  by_cases hflag : c.shared.transferInProgress
  · rw [if_pos hflag]
    exact .of_eq rfl
  have hfree : c.shared.transferInProgress = false := by simpa using hflag
  dsimp only
  split_ifs with hmax hzero
  · -- too many items: the flag is set and cleared again
    exact .of_not_getlist ⟨rfl, rfl, rfl, rfl, rfl⟩ hfree.symm hx hx
  · obtain ⟨h, hstate, -⟩ := clearList_core (x := c.core)
      { c with
        shared.transferInProgress := true
        me.timeLastRecv := now
        me.transferPartnerSysid := msg.sysid
        me.transferPartnerCompid := msg.compid
        me.missionType := missionType
        me.transferCurrentCrc32 := 0
        me.lastReached := -1 } ⟨rfl, rfl, rfl, rfl, rfl⟩ now io missionType
    exact Move.of_clear (h.imp_left (.imp_right fun _ => hclears hzero)) (hg hzero hfree)
      hidle (hstate.trans hidle) hfree.symm
  · split
    · exact .of_not_getlist ⟨rfl, rfl, rfl, rfl, rfl⟩ hfree.symm hx hx
    next bank hbank =>
      exact startUpload_move (hstarts hzero hfree) ⟨rfl, rfl, rfl, rfl, rfl⟩
        hidle hfree rfl (UInt16.pos_iff_ne_zero.mpr hzero) hbank

theorem handleMissionCount_move (c : Ctx G)
    (hclears : count = 0 → g.clears)
    (hstarts : c.me.state = .idle → count ≠ 0 → c.shared.transferInProgress = false → g.starts)
    (hg : c.me.state = .idle → count = 0 → c.shared.transferInProgress = false →
      (missionType = .fence ∧ io.fenceStateWrite ∨
        missionType = .rally ∧ io.safePointsStateWrite) → g.republishes) :
    Move g c.core (c.handleMissionCount cfg now msg count missionType io).core := by
  unfold handleMissionCount
  cases hstate : c.me.state with
  | idle =>
    exact c.countIdle_move hstate hclears (hstarts hstate)
      (hg hstate)
  | getlist =>
    dsimp only
    split_ifs
    · exact .of_eq rfl
    · exact .of_eq (core_requestNext _)
    · exact .of_eq rfl
  | sendlist => exact .of_eq rfl

/-! ### The announcement of a mission -/

theorem core_handleMissionCount_of_ne_idle (h : c.me.state ≠ .idle) :
    (c.handleMissionCount cfg now msg count missionType io).core = c.core := by
  unfold handleMissionCount
  cases hstate : c.me.state with
  | idle => exact absurd hstate h
  | getlist =>
    dsimp only
    split_ifs
    · rfl
    · exact core_requestNext _
    · rfl
  | sendlist => rfl

theorem core_countIdle_busy (h : c.shared.transferInProgress) :
    (c.countIdle cfg now msg count missionType io).core = c.core := by
  unfold countIdle
  rw [if_pos h]
  rfl

/-- An upload of a mission begins, or there is no space for it. -/
theorem core_countIdle_mission (h : c.shared.transferInProgress = false) (hpos : 0 < count) :
    let y := (c.countIdle cfg now msg count .mission io).core
    (y = { c.core with
      upload := { c.core.upload with missionType := .mission, crc32 := 0 } }) ∨
    y = { c.core with
      flag := true
      state := .getlist
      upload :=
        { missionType := .mission
          bank := otherMissionBank c.core.active.bank
          count
          seq := 0
          crc32 := 0
          currentSeq := -1
          markers := (-1, -1) } } := by
  unfold countIdle
  dsimp only
  rw [if_neg (by simp [h])]
  split_ifs with hmax hzero
  · exact .inl (by rw [← h]; rfl)
  · exact absurd hzero (UInt16.pos_iff_ne_zero.mp hpos)
  · exact .inr (core_requestNext ..)

end Ctx

end Px4.Mavlink
