import Px4.Mavlink.MissionBanks

/-!
# Accepted uploads

A `MISSION_ITEM` is answered with `MAV_MISSION_ACCEPTED` when it completes the upload, and when it
arrives in the idle state with the number before `_transfer_seq`, as a repetition of the last item;
so also after an upload that was aborted, which leaves `_transfer_seq` behind.

`UploadLog` records what the last `MISSION_COUNT` announced and what came of it.
-/

namespace Px4.Mavlink

open Function List MissionSystem Option

variable {G : Type*}

/-- The acknowledgement `MAV_MISSION_ACCEPTED`. -/
def Output.isAccepted : Output G → Bool
  | .missionAck _ _ .accepted _ _ => true
  | _ => false

open Output

/-! ## The log of an upload -/

/-- What the last `MISSION_COUNT` announced, the items received and stored since, and whether the
upload is complete. -/
structure UploadLog (G : Type*) where
  count : UInt16
  bank : DmItem
  received : List (MavlinkMissionItem × MissionItemS G) := []
  committed : Bool := false

namespace UploadLog

/-- The checksum of the items that were received. -/
def crc32 (cfg : Config G) (l : UploadLog G) : UInt32 :=
  l.received.foldl (fun crc32 p => crc32ForMissionItem cfg p.1 crc32) 0

/-- The items were received in order, and they are stored in the bank of the upload. -/
structure Written (l : UploadLog G) (items : DmItem → ℕ → Option (MissionItemS G)) : Prop where
  seqs : l.received.map (·.1.seq.toNat) = range l.received.length
  items : ∀ k p, l.received[k]? = some p → items l.bank k = some p.2

/-- The upload has become the active mission, or the active mission has the same checksum. -/
def Activated (l : UploadLog G) (cfg : Config G) (a : Active) : Prop :=
  a.bank = l.bank ∧ a.count.toNat = l.received.length ∨ a.crc32 = l.crc32 cfg

/-- All announced items were received in order and stored, and the upload was committed. -/
structure Complete (l : UploadLog G) (cfg : Config G) (s : MissionSystem Unit G) : Prop where
  seqs : l.received.map (·.1.seq.toNat) = range l.count.toNat
  items : ∀ k p, l.received[k]? = some p → s.dataman.items l.bank k = some p.2
  committed : l.committed = true
  activated : l.Activated cfg s.active

/-- A `MISSION_COUNT` that is taken up: it begins an upload, lacks space, or repeats the
announcement of an upload that waits for its first item. -/
def announce (log : Option (UploadLog G)) (c : Ctx G) (cfg : Config G) (msg : Message)
    (count : UInt16) : Option (UploadLog G) :=
  if checkSysidCompid cfg msg then
    match c.me.state with
    | .idle =>
      if c.shared.transferInProgress then log
      else some { count, bank := otherMissionBank c.shared.missionDatamanId }
    | .getlist =>
      if c.fromPartner msg ∧ c.me.transferSeq = 0 then log.map ({ · with count }) else log
    | .sendlist => log
  else log

/-- An item that is added to the upload. -/
def record (log : Option (UploadLog G)) (c : Ctx G) (cfg : Config G) (msg : Message) (int : Bool)
    (wp : MavlinkMissionItem) (io : DatamanResults) : Option (UploadLog G) :=
  match c.storedItem cfg msg int wp io with
  | some item => log.map fun l => { l with
      received := l.received ++ [(wp, item)]
      committed := decide (wp.seq + 1 = c.me.transferCount) }
  | none => log

def next (log : Option (UploadLog G)) (c : Ctx G) (cfg : Config G) :
    MissionEvent Unit → Option (UploadLog G)
  | .message _ _ msg io =>
    match msg.payload with
    | .missionCount count _ => announce log c cfg msg count
    | .missionItem int wp => record log c cfg msg int wp io
    | _ => log
  | _ => log

end UploadLog

/-- A vehicle with one link, and the log of its uploads. -/
structure LoggedSystem (G : Type*) where
  system : MissionSystem Unit G
  log : Option (UploadLog G) := none

namespace LoggedSystem

def step (cfg : Config G) (s : LoggedSystem G) (e : MissionEvent Unit) : LoggedSystem G where
  system := s.system.step cfg e
  log := UploadLog.next s.log (s.system.ctx ()) cfg e

end LoggedSystem

/-- The messages of uploads: counts of at least one item, items, and acknowledgements. -/
def Payload.IsUpload : Payload → Prop
  | .missionCount count missionType => 0 < count ∧ missionType = .mission
  | .missionItem _ wp => wp.missionType = .mission
  | .missionAck .. => True
  | _ => False

/-- The messages of mission uploads, and everything that the link does by itself. -/
def UploadTraffic : MissionEvent Unit → Prop
  | .message _ _ msg _ => msg.payload.IsUpload
  | _ => True

namespace Ctx

/-- The item is taken for a repetition of the last item of the upload before. -/
structure TakenForDuplicate (c : Ctx G) (cfg : Config G) (msg : Message)
    (wp : MavlinkMissionItem) : Prop where
  forUs : checkSysidCompid cfg msg = true
  partner : c.fromPartner msg = true
  sameType : wp.missionType = c.me.missionType
  idle : c.me.state = .idle
  previous : c.me.transferSeq.toNat = wp.seq.toNat + 1

end Ctx

open Ctx

namespace LoggedSystem

/-- A `MISSION_ITEM` is answered with `MAV_MISSION_ACCEPTED` only if the upload is complete. -/
def AcceptsComplete (cfg : Config G) (s : LoggedSystem G) : MissionEvent Unit → Prop
  | .message i now msg io =>
    match msg.payload with
    | .missionItem .. =>
      (s.system.outputs cfg (.message i now msg io)).any isAccepted = true →
        ∃ l, (s.step cfg (.message i now msg io)).log = some l ∧
          l.Complete cfg (s.step cfg (.message i now msg io)).system
    | _ => True
  | _ => True

/-- An item is taken for a repetition of the last one only if the upload that was announced last has
been received to its end, and for the last one only if it is the last of those announced. -/
def NoFalseEnd (cfg : Config G) (s : LoggedSystem G) : MissionEvent Unit → Prop
  | .message _ _ msg io =>
    match msg.payload with
    | .missionItem int wp =>
      ((s.system.ctx ()).TakenForDuplicate cfg msg wp →
        ∃ l, s.log = some l ∧ l.committed = true ∧ l.received.length = l.count.toNat) ∧
      (((s.system.ctx ()).completion cfg msg int wp io).isSome →
        ∃ l, s.log = some l ∧ l.count = (s.system.instances ()).transferCount)
    | _ => True
  | _ => True

end LoggedSystem

/-! ## The log describes the upload -/

/-- A move that does nothing to an upload but, possibly, end it. -/
structure Core.Quiet (x y : Core G) : Prop where
  items_eq : y.items = x.items
  active_eq : y.active = x.active
  published : y.published = x.published ∨ x.Announces y
  upload : y.state = .getlist → x.state = .getlist ∧ y.upload = x.upload

theorem Move.quiet {g : Guards G} {x y : Core G} (h : Move g x y)
    (hlast : ∀ m, x.published.getLast? = some m → m.active = x.active)
    (hmission : x.state = .getlist → x.upload.missionType = .mission) (hclears : ¬ g.clears)
    (hstarts : ¬ g.starts) (hstores : ∀ item crc32, ¬ g.stores item crc32)
    (hcompletes : ∀ item crc32, ¬ g.completes item crc32) : x.Quiet y := by
  have hidle : y.state = .idle → y.state = .getlist → x.state = .getlist ∧ y.upload = x.upload :=
    fun h h' => nomatch h.symm.trans h'
  cases h with
  | keep same _ hiff hupload =>
    exact ⟨same.items_eq, same.active_eq, .inl same.published_eq,
      fun hy => ⟨hiff.mp hy, hupload (hiff.mp hy)⟩⟩
  | announce _ announced _ hstate =>
    exact ⟨announced.items_eq, announced.active_eq, .inr announced.announces, hidle hstate⟩
  | clear hguard => exact absurd hguard hclears
  | start hguard => exact absurd hguard hstarts
  | stop tried _ hstate =>
    exact ⟨tried.items_eq, tried.active_eq, .inl tried.published_eq, hidle hstate⟩
  | expire _ same _ hstate =>
    exact ⟨same.items_eq, same.active_eq, .inl same.published_eq, hidle hstate⟩
  | progress item crc32 hguard => exact absurd hguard (hstores item crc32)
  | finish item crc32 hguard => exact absurd hguard (hcompletes item crc32)
  | finishOther hbusy hother => exact absurd (hmission hbusy) hother
  | refresh m hm hstate hupload _ hitems hpublished hactive =>
    exact ⟨hitems, hactive.trans (hlast m hm), .inl hpublished,
      fun hy => ⟨hstate.symm.trans hy, hupload⟩⟩

variable {item : MissionItemS G}

theorem Core.Finished.last {crc32 : UInt32} {x y : Core G} (h : x.Finished y item crc32)
    (hlast : ∀ m, x.published.getLast? = some m → m.active = x.active) :
    ∀ m, y.published.getLast? = some m → m.active = y.active := by
  have hactive := h.active_eq
  have hannounces := h.announces
  split_ifs at hactive hannounces
  · exact fun m hm => (hannounces.last hm).1
  · rw [hannounces, hactive]
    exact hlast

namespace UploadLog

/-- The upload is as far as the log says. -/
structure Tracks (l : UploadLog G) (cfg : Config G)
    (items : DmItem → ℕ → Option (MissionItemS G)) (u : Upload) : Prop
    extends l.Written items where
  mission : u.missionType = .mission
  bank_eq : u.bank = l.bank
  seq_eq : u.seq.toNat = l.received.length
  seq_lt : u.seq.toNat < u.count.toNat
  crc32_eq : u.crc32 = l.crc32 cfg
  uncommitted : l.committed = false

/-- The log is right about the upload that is going on, or about the one that was completed. -/
structure Consistent (log : Option (UploadLog G)) (cfg : Config G) (x : Core G) : Prop where
  last : ∀ m, x.published.getLast? = some m → m.active = x.active
  uploading : x.state = .getlist → ∃ l, log = some l ∧ l.Tracks cfg x.items x.upload
  ended : x.state ≠ .getlist → ∀ l, log = some l → l.committed = true →
    l.Written x.items ∧ l.Activated cfg x.active

variable {log : Option (UploadLog G)} {l : UploadLog G} {cfg : Config G} {x y : Core G}

section

variable (h : Consistent log cfg x)
include h

theorem Consistent.mission (hx : x.state = .getlist) : x.upload.missionType = .mission := by
  obtain ⟨l, -, htracks⟩ := h.uploading hx
  exact htracks.mission

theorem Consistent.quiet (hquiet : x.Quiet y) : Consistent log cfg y := by
  refine ⟨fun m hm => ?_, fun hy => ?_, fun hy l hl hcommitted => ?_⟩
  · rcases hquiet.published with hpublished | hannounces
    · rw [hquiet.active_eq]
      exact h.last m (hpublished ▸ hm)
    · exact (hannounces.last hm).1
  · obtain ⟨hx, hupload⟩ := hquiet.upload hy
    rw [hquiet.items_eq, hupload]
    exact h.uploading hx
  · rw [hquiet.items_eq, hquiet.active_eq]
    apply h.ended ?_ l hl hcommitted
    -- an upload that has just ended this way was not committed
    intro hx
    obtain ⟨l', hl', htracks⟩ := h.uploading hx
    obtain rfl : l' = l := some.inj (hl'.symm.trans hl)
    simp [htracks.uncommitted] at hcommitted

/-- Moves that are not guarded, or that only let an upload expire. -/
theorem Consistent.move {e : Prop}
    (hmove : Move { Guards.none with expires := e } x y) : Consistent log cfg y :=
  h.quiet (hmove.quiet h.last h.mission id id (fun _ _ => id) (fun _ _ => id))

end

/-! ### An item is added -/

theorem crc32_append {received p b} :
    crc32 cfg { l with received := received ++ [p], committed := b } =
      crc32ForMissionItem cfg p.1 (crc32 cfg { l with received }) := by
  unfold crc32
  rw [foldl_append]
  rfl

variable {wp : MavlinkMissionItem} {c : Ctx G}

theorem Tracks.written (h : l.Tracks cfg x.items x.upload) (hseq : wp.seq = x.upload.seq) (item b) :
    Written { l with received := l.received ++ [(wp, item)], committed := b } (x.written item) := by
  have hlen : wp.seq.toNat = l.received.length := hseq ▸ h.seq_eq
  refine ⟨?_, fun k p hp => ?_⟩
  · rw [map_append, h.seqs, length_append, length_singleton, range_succ]
    simp [hlen]
  · change update x.items x.upload.bank _ l.bank k = _
    rw [← h.bank_eq, update_self, h.seq_eq]
    by_cases hk : k = l.received.length
    · subst hk
      rw [List.getElem?_append_right (Nat.le_refl _), Nat.sub_self] at hp
      obtain rfl : (wp, item) = p := some.inj hp
      exact update_self ..
    · rw [update_of_ne hk, h.bank_eq]
      apply h.items k p
      have hlt : k < l.received.length := by
        have := (List.getElem?_eq_some_iff.mp hp).1
        rw [length_append, length_singleton] at this
        omega
      rwa [List.getElem?_append_left hlt] at hp

variable {wp : MavlinkMissionItem} {item : MissionItemS G}

section

variable (h : l.Tracks cfg x.items x.upload) (hseq : wp.seq = x.upload.seq)
include h hseq

theorem Tracks.progressed (hy : x.Progressed y item (crc32ForMissionItem cfg wp x.upload.crc32)) :
    Tracks { l with received := l.received ++ [(wp, item)], committed := false } cfg y.items
      y.upload := by
  obtain ⟨currentSeq, hupload⟩ := hy.upload_eq
  have hne := hy.seq_ne
  have hsucc := toNat_succ h.seq_lt
  rw [hupload] at hne
  have hlt : (x.upload.seq + 1).toNat ≠ x.upload.count.toNat :=
    fun heq => hne (UInt16.toNat_inj.mp heq)
  rw [hy.items_mission h.mission, hupload]
  refine { h.written hseq item false with
    mission := h.mission, bank_eq := h.bank_eq, seq_eq := ?_, seq_lt := ?_, crc32_eq := ?_,
    uncommitted := rfl }
  · rw [length_append, ← h.seq_eq]
    exact hsucc
  · change (x.upload.seq + 1).toNat < x.upload.count.toNat
    have := h.seq_lt
    omega
  · rw [crc32_append]
    change crc32ForMissionItem cfg wp x.upload.crc32 = _
    rw [h.crc32_eq]

theorem Tracks.finished (hlast : x.upload.seq + 1 = x.upload.count)
    (hy : x.Finished y item (crc32ForMissionItem cfg wp x.upload.crc32)) :
    let l' := { l with received := l.received ++ [(wp, item)], committed := true }
    Written l' y.items ∧ Activated l' cfg y.active := by
  refine ⟨?_, ?_⟩
  · rw [hy.items_eq]
    exact h.written hseq item true
  · have hcrc : crc32 cfg { l with received := l.received ++ [(wp, item)], committed := true } =
        crc32ForMissionItem cfg wp x.upload.crc32 := by
      rw [crc32_append, h.crc32_eq]
    have hactive := hy.active_eq
    split_ifs at hactive with hne
    · refine .inl ⟨?_, ?_⟩
      · rw [hactive]
        exact h.bank_eq
      · rw [hactive, length_append, length_singleton, ← h.seq_eq, ← toNat_succ h.seq_lt, hlast]
    · refine .inr ?_
      rw [hactive, hcrc]
      exact (not_not.mp hne).symm

/-- The last item is the one that makes up the number that the instance counts to. -/
theorem Tracks.received_length
    (hlast : wp.seq + 1 = x.upload.count) : l.received.length + 1 = x.upload.count.toNat := by
  rw [← hlast, hseq, toNat_succ h.seq_lt, h.seq_eq]

end

/-! ### The events -/

theorem Consistent.announce (h : Consistent log cfg c.core) (now msg) {count} (hpos : 0 < count)
    (io) :
    Consistent (UploadLog.announce log c cfg msg count) cfg (c.ifForUs cfg msg fun c =>
      c.handleMissionCount cfg now msg count .mission io).core := by
  unfold UploadLog.announce ifForUs
  by_cases hus : checkSysidCompid cfg msg
  case neg =>
    rw [if_neg hus, if_neg hus]
    exact h
  rw [if_pos hus, if_pos hus]
  cases hstate : c.me.state with
  | idle =>
    have hidle : c.handleMissionCount cfg now msg count .mission io =
        c.countIdle cfg now msg count .mission io := by
      unfold handleMissionCount
      rw [hstate]
    dsimp only
    rw [hidle]
    by_cases hflag : c.shared.transferInProgress
    · rw [if_pos hflag, core_countIdle_busy hflag]
      exact h
    rw [if_neg hflag]
    rcases core_countIdle_mission (by simpa using hflag) hpos with hcore | hcore
    · -- no space
      rw [hcore]
      refine ⟨h.last, fun hget => ?_, fun _ l hl hcommitted => ?_⟩
      · cases hget.symm.trans hstate
      · obtain rfl := some.inj hl
        cases hcommitted
    · rw [hcore]
      refine ⟨h.last, fun _ => ⟨_, rfl, ?_⟩, fun hne => absurd rfl hne⟩
      exact
        { seqs := rfl, items := nofun, mission := rfl, bank_eq := rfl, seq_eq := rfl
          seq_lt := hpos, crc32_eq := rfl, uncommitted := rfl }
  | getlist =>
    rw [core_handleMissionCount_of_ne_idle (by simp [hstate])]
    dsimp only
    split_ifs with hagain
    · -- the announcement is repeated
      refine ⟨h.last, fun hget => ?_, fun hne => absurd hstate hne⟩
      obtain ⟨l, hl, htracks⟩ := h.uploading hget
      rw [hl]
      exact ⟨_, rfl, { htracks with seqs := htracks.seqs, items := htracks.items }⟩
    · exact h
  | sendlist =>
    rw [core_handleMissionCount_of_ne_idle (by simp [hstate])]
    exact h

theorem Consistent.record (h : Consistent log cfg c.core) (now : UInt64) (msg int wp io) :
    Consistent (UploadLog.record log c cfg msg int wp io) cfg
      ({ c with me.intMode := int }.ifForUs cfg msg fun c =>
        c.handleMissionItemBoth cfg now msg wp io).core := by
  unfold UploadLog.record ifForUs
  rw [← storedItem_intMode c int]
  by_cases hus : checkSysidCompid cfg msg
  case neg =>
    rw [if_neg hus]
    have hnone : storedItem { c with me.intMode := int } cfg msg int wp io = none :=
      if_neg fun hnext => hus hnext.forUs
    rw [hnone]
    exact h
  rw [if_pos hus]
  cases hstored : storedItem { c with me.intMode := int } cfg msg int wp io with
  | none =>
    -- nothing is stored, and so nothing is completed
    have hcompletion := completion_eq_none hstored
    have hmove := handleMissionItemBoth_move (g := .none)
      cfg now msg wp io hus (fun item hitem => nomatch hstored.symm.trans hitem)
      (fun item hitem => nomatch hcompletion.symm.trans hitem)
      (fun item hitem => nomatch hcompletion.symm.trans hitem)
    exact h.move hmove
  | some item =>
    obtain ⟨hnext, -, -⟩ := storedItem_eq_some.mp hstored
    obtain ⟨l, rfl, htracks⟩ := h.uploading hnext.getlist
    obtain ⟨hprogressed, hfinished⟩ := handleMissionItemBoth_stored
      (c := { c with me.intMode := int }) now htracks.mission hstored
    have hexpected : wp.seq = c.core.upload.seq := hnext.expected
    by_cases hlast : wp.seq + 1 = c.me.transferCount
    · have hy := hfinished hlast
      have hended := htracks.finished hexpected (hexpected ▸ hlast) hy
      refine ⟨hy.last h.last, fun hget => ?_, fun _ l' hl' _ => ?_⟩
      · cases hy.state_eq.symm.trans hget
      · obtain rfl := some.inj hl'
        rw [decide_eq_true hlast]
        exact hended
    · have hy := hprogressed hlast
      refine ⟨?_, fun _ => ⟨_, rfl, ?_⟩, fun hne => absurd hy.state_eq hne⟩
      · rw [hy.published_eq, hy.active_eq]
        exact h.last
      · rw [decide_eq_false hlast]
        exact htracks.progressed hexpected hy

end UploadLog

/-! ## The answers to an item -/

namespace Ctx

variable {c : Ctx G} {cfg : Config G} {msg : Message} {wp : MavlinkMissionItem}
  {io : DatamanResults}

theorem out_storeItem (h : c.me.missionType = .mission) (wp item io) :
    (c.storeItem wp item io).1.out = c.out := by
  unfold storeItem
  rw [h]
  unfold storeMissionItem writeItem
  split_ifs <;> rfl

variable {now : UInt64} {sysid compid : UInt8} {missionType : MavMissionType} {opaqueId : UInt32}

theorem out_requestNext : (c.requestNext cfg now).out.any isAccepted = c.out.any isAccepted := by
  unfold requestNext sendMissionRequest
  split_ifs <;> simp [emit, isAccepted]

/-- The end of the upload of a mission is always acknowledged. -/
theorem accepted_finishTransfer (h : c.me.missionType = .mission) (now io) :
    (c.finishTransfer now io).out.any isAccepted := by
  have hcommit : (c.commitTransfer now io).2 := by
    unfold commitTransfer
    rw [h]
    dsimp only
    split_ifs <;> rfl
  unfold finishTransfer
  dsimp only
  rw [hcommit]
  simp [ackPartner, sendMissionAck, emit, isAccepted]

theorem accepted_error {e : ParseError} :
    (missionAck (G := G) sysid compid e.result missionType opaqueId).isAccepted = false := by
  cases e <;> rfl

/-- An item that is stored is accepted exactly if it completes the upload. -/
theorem accepted_stored (hout : c.out = []) (hmission : c.me.missionType = .mission)
    (hstored : c.storedItem cfg msg c.me.intMode wp io = some item) :
    (c.handleMissionItemBoth cfg now msg wp io).out.any isAccepted =
      decide (wp.seq + 1 = c.me.transferCount) := by
  obtain ⟨hnext, hparse, hstatus⟩ := storedItem_eq_some.mp hstored
  let d : Ctx G := { c with me.timeLastRecv := now }
  have hok : ((d.addToCrc32 cfg wp).storeItem wp item io).2 = .ok :=
    (storeItem_snd ..).trans hstatus
  obtain ⟨heffect, -⟩ := storeItem_ok (c := d.addToCrc32 cfg wp) hnext.expected hok
  rw [handleMissionItemBoth_next hnext, receiveItem_stored (c := d) now hparse hstatus]
  have htype := congrArg Upload.missionType heffect.upload_eq
  have hcount := congrArg Upload.count heffect.upload_eq
  have hout' := out_storeItem (c := d.addToCrc32 cfg wp) hmission wp item io
  generalize ((d.addToCrc32 cfg wp).storeItem wp item io).1 = d' at htype hcount hout' ⊢
  have hiff : (d'.moveOn wp).me.transferSeq = (d'.moveOn wp).me.transferCount ↔
      wp.seq + 1 = c.me.transferCount :=
    ⟨fun h => h.trans hcount, fun h => h.trans hcount.symm⟩
  unfold advance
  by_cases hlast : wp.seq + 1 = c.me.transferCount
  · rw [if_pos (hiff.mpr hlast), decide_eq_true hlast]
    exact accepted_finishTransfer (c := d'.moveOn wp) (htype.trans hmission) now io
  · rw [if_neg (hiff.not.mpr hlast), decide_eq_false hlast, out_requestNext]
    exact (congrArg (·.any isAccepted) (hout'.trans hout)).trans rfl

theorem accepted_receiveItem (now : UInt64) (hout : c.out = [])
    (hmission : c.me.missionType = .mission)
    (hstored : ∀ item, cfg.parse c.me.intMode c.me.vehicleTypeBitmask wp = .ok item →
      storeStatus c.me.missionType item io ≠ .ok) :
    (c.receiveItem cfg now wp io).out.any isAccepted = false := by
  unfold receiveItem
  cases hparse : cfg.parse c.me.intMode c.me.vehicleTypeBitmask wp with
  | error e =>
    simp [ackPartner, sendMissionAck, emit, abortTransfer, switchToIdleState, hout, accepted_error]
    rfl
  | ok item =>
    have hsnd := storeItem_snd (c.addToCrc32 cfg wp) wp item io
    have hout' := (out_storeItem (c := c.addToCrc32 cfg wp) hmission wp item io).trans hout
    dsimp only
    cases hfailed : ((c.addToCrc32 cfg wp).storeItem wp item io).2 with
    | ok => exact absurd (hsnd.symm.trans hfailed) (hstored item hparse)
    | writeFailed =>
      simp [ackPartner, sendMissionAck, emit, abortTransfer, switchToIdleState, hout', isAccepted]
    | checkFailed =>
      simp [ackPartner, sendMissionAck, emit, abortTransfer, switchToIdleState, hout', isAccepted]

/-- An item that is not stored is accepted exactly if it is taken for a repetition. -/
theorem accepted_not_stored (now) (hout : c.out = []) (hus : checkSysidCompid cfg msg)
    (hmission : c.me.state = .getlist → c.me.missionType = .mission)
    (hstored : c.storedItem cfg msg c.me.intMode wp io = none) :
    (c.handleMissionItemBoth cfg now msg wp io).out.any isAccepted ↔
      c.TakenForDuplicate cfg msg wp := by
  by_cases hnext : c.IsNextItem cfg msg wp
  · rw [handleMissionItemBoth_next hnext]
    have hnone : ∀ item, cfg.parse c.me.intMode c.me.vehicleTypeBitmask wp = .ok item →
        storeStatus c.me.missionType item io ≠ .ok := by
      intro item hparse hstatus
      cases hstored.symm.trans (storedItem_eq_some.mpr ⟨hnext, hparse, hstatus⟩)
    rw [accepted_receiveItem (c := { c with me.timeLastRecv := now }) now hout
      (hmission hnext.getlist) hnone]
    exact ⟨nofun, fun h => nomatch hnext.getlist.symm.trans h.idle⟩
  unfold handleMissionItemBoth
  by_cases hpartner : c.fromPartner msg
  case neg =>
    rw [if_neg hpartner]
    exact ⟨fun h => by simp [emit, hout, isAccepted] at h, fun h => absurd h.partner hpartner⟩
  rw [if_pos hpartner]
  by_cases htype : wp.missionType = c.me.missionType
  case neg =>
    rw [if_pos htype]
    exact ⟨fun h => by simp [ackPartner, sendMissionAck, emit, hout, isAccepted] at h,
      fun h => absurd h.sameType htype⟩
  rw [if_neg (not_not.mpr htype)]
  cases hstate : c.me.state with
  | getlist =>
    have hseq : wp.seq ≠ c.me.transferSeq := fun h => hnext ⟨hus, hpartner, htype, hstate, h⟩
    rw [if_pos hseq]
    exact ⟨fun h => by simp [hout] at h, fun h => nomatch hstate.symm.trans h.idle⟩
  | idle =>
    split_ifs with hprevious
    · exact ⟨fun _ => ⟨hus, hpartner, htype, hstate, hprevious⟩,
        fun _ => by simp [ackPartner, sendMissionAck, emit, isAccepted]⟩
    · exact ⟨fun h => by simp [ackPartner, sendMissionAck, emit, hout, isAccepted] at h,
        fun h => absurd h.previous hprevious⟩
  | sendlist =>
    exact ⟨fun h => by simp [ackPartner, sendMissionAck, emit, hout, isAccepted] at h,
      fun h => nomatch hstate.symm.trans h.idle⟩

theorem core_duplicate (h : c.TakenForDuplicate cfg msg wp) (now io) :
    (c.handleMissionItemBoth cfg now msg wp io).core = c.core := by
  unfold handleMissionItemBoth
  rw [if_pos h.partner, if_neg (not_not.mpr h.sameType), h.idle]
  rw [if_pos h.previous]
  rfl

end Ctx

/-! ## Runs -/

namespace LoggedSystem

open UploadLog

variable {cfg : Config G} {s : LoggedSystem G} {e : MissionEvent Unit}

/-- The core of the only link. -/
abbrev core (s : LoggedSystem G) : Core G := (s.system.ctx ()).core

theorem consistent_exec (h : Consistent s.log cfg s.core) (he : UploadTraffic e) :
    Consistent (s.step cfg e).log cfg (s.system.exec cfg e).core := by
  cases e with
  | message i now msg io =>
    change Consistent (UploadLog.next s.log (s.system.ctx ()) cfg (.message i now msg io)) cfg
      ((s.system.ctx ()).handleMessage cfg now msg io).core
    unfold handleMessage
    dsimp only [UploadLog.next, UploadTraffic] at he ⊢
    cases hpayload : msg.payload with
    | missionCount count missionType =>
      rw [hpayload] at he
      obtain ⟨hpos, rfl⟩ := he
      exact h.announce now msg hpos io
    | missionItem int wp => exact h.record now msg int wp io
    | missionAck type missionType =>
      have hmove : Move .none s.core ((s.system.ctx ()).ifForUs cfg msg fun c =>
          c.handleMissionAck cfg now msg type missionType).core :=
        ifForUs_move rfl fun _ => handleMissionAck_move _
      exact h.move hmove
    | _ =>
      rw [hpayload] at he
      exact he.elim
  | send i now result slow status io =>
    have hmove := (s.system.ctx ()).send_move (g := { Guards.none with expires := True }) cfg now
      result slow status io fun _ _ _ => trivial
    exact h.move hmove
  | checkActiveMission i io =>
    have hmove := (s.system.ctx ()).checkActiveMission_move (g := .none) io
    exact h.move hmove

theorem consistent_step (h : Consistent s.log cfg s.core) (he : UploadTraffic e) :
    Consistent (s.step cfg e).log cfg (s.step cfg e).core := by
  have hexec := consistent_exec h he
  have hcore : (s.step cfg e).core = { (s.system.exec cfg e).core with writes := [] } :=
    s.system.core_step_self
  rw [hcore]
  exact { hexec with }

variable {t : MissionSystem Unit G}

/-- Of an upload that has ended, the log tells whether it is complete. -/
theorem complete_iff {l : UploadLog G}
    (h : l.committed → l.Written t.dataman.items ∧ l.Activated cfg t.active) :
    l.Complete cfg t ↔ l.committed ∧ l.received.length = l.count.toNat := by
  refine ⟨fun hcomplete => ⟨hcomplete.committed, ?_⟩, fun ⟨hcommitted, hcount⟩ => ?_⟩
  · simpa using congrArg length hcomplete.seqs
  · obtain ⟨hwritten, hactivated⟩ := h hcommitted
    exact ⟨hcount ▸ hwritten.seqs, hwritten.items, hcommitted, hactivated⟩

section Item

variable {msg : Message} {int : Bool} {wp : MavlinkMissionItem}

variable {now : UInt64} {io : DatamanResults} {l : UploadLog G}

theorem exec_item (hpayload : msg.payload = .missionItem int wp) :
    s.system.exec cfg (.message () now msg io) =
      ({ s.system.ctx () with me.intMode := int } : Ctx G).ifForUs cfg msg fun c =>
        c.handleMissionItemBoth cfg now msg wp io := by
  change (s.system.ctx ()).handleMessage cfg now msg io = _
  unfold handleMessage
  rw [hpayload]

theorem log_item (hpayload : msg.payload = .missionItem int wp) :
    (s.step cfg (.message () now msg io)).log =
      record s.log (s.system.ctx ()) cfg msg int wp io := by
  change UploadLog.next s.log (s.system.ctx ()) cfg (.message () now msg io) = _
  dsimp only [UploadLog.next]
  rw [hpayload]

variable {item : MissionItemS G}

theorem log_last (hpayload : msg.payload = .missionItem int wp) (now io) (hl : s.log = some l)
    (hstored : (s.system.ctx ()).storedItem cfg msg int wp io = some item)
    (hlast : wp.seq + 1 = (s.system.ctx ()).me.transferCount) :
    (s.step cfg (.message () now msg io)).log = some { l with
      received := l.received ++ [(wp, item)], committed := true } := by
  rw [log_item hpayload]
  unfold UploadLog.record
  rw [hstored, hl]
  dsimp only [map_some]
  rw [decide_eq_true hlast]

variable (h : Consistent s.log cfg s.core) (hpayload : msg.payload = .missionItem int wp)
  (now : UInt64) (io : DatamanResults)
include h hpayload

section

variable (hstored : (s.system.ctx ()).storedItem cfg msg int wp io = some item)
  (he : UploadTraffic (.message () now msg io))
include hstored he

/-- The last item completes the upload exactly if the instance counts to what was announced. -/
theorem complete_of_last (hlast : wp.seq + 1 = (s.system.ctx ()).me.transferCount) :
    (∃ l, (s.step cfg (.message () now msg io)).log = some l ∧
        l.Complete cfg (s.step cfg (.message () now msg io)).system) ↔
      ∃ l, s.log = some l ∧ l.count = (s.system.instances ()).transferCount := by
  obtain ⟨hnext, -, -⟩ := storedItem_eq_some.mp hstored
  obtain ⟨l, hl, htracks⟩ := h.uploading hnext.getlist
  have hlog := log_last hpayload now io hl hstored hlast
  have hidle : (s.system.exec cfg (.message () now msg io)).core.state ≠ .getlist := by
    have hstored' := (storedItem_intMode (s.system.ctx ()) int cfg msg int wp io).trans hstored
    have hfinished := (handleMissionItemBoth_stored
      (c := { s.system.ctx () with me.intMode := int }) now htracks.mission hstored').2 hlast
    rw [exec_item hpayload]
    unfold ifForUs
    rw [if_pos hnext.forUs, hfinished.state_eq]
    nofun
  have hcomplete := complete_iff (t := (s.step cfg (.message () now msg io)).system)
    ((consistent_exec h he).ended hidle _ hlog)
  rw [length_append, length_singleton, htracks.received_length hnext.expected hlast,
    UInt16.toNat_inj] at hcomplete
  rw [hlog, hl]
  constructor
  · rintro ⟨l', hl', hl''⟩
    obtain rfl := some.inj hl'
    exact ⟨l, rfl, (hcomplete.mp hl'').2.symm⟩
  · rintro ⟨l', hl', hl''⟩
    obtain rfl := some.inj hl'
    exact ⟨_, rfl, hcomplete.mpr ⟨rfl, hl''.symm⟩⟩

/-- A stored item is accepted if it completes the upload; then all that was announced is there. -/
theorem acceptsComplete_stored :
    s.AcceptsComplete cfg (.message () now msg io) ↔ s.NoFalseEnd cfg (.message () now msg io) := by
  obtain ⟨hnext, -, -⟩ := storedItem_eq_some.mp hstored
  obtain ⟨l, hl, htracks⟩ := h.uploading hnext.getlist
  have haccepted : (s.system.outputs cfg (.message () now msg io)).any isAccepted =
      decide (wp.seq + 1 = (s.system.instances ()).transferCount) := by
    have hstored' := (storedItem_intMode (s.system.ctx ()) int cfg msg int wp io).trans hstored
    change (s.system.exec cfg _).out.any _ = _
    rw [exec_item hpayload]
    unfold ifForUs
    rw [if_pos hnext.forUs]
    exact accepted_stored rfl htracks.mission hstored'
  have hcompletion : ((s.system.ctx ()).completion cfg msg int wp io).isSome ↔
      wp.seq + 1 = (s.system.instances ()).transferCount := by
    unfold completion
    rw [hstored]
    by_cases hlast : wp.seq + 1 = (s.system.ctx ()).me.transferCount
    · rw [if_pos hlast]
      exact ⟨fun _ => hlast, fun _ => rfl⟩
    · rw [if_neg hlast]
      exact ⟨nofun, fun h => absurd h hlast⟩
  have hiff := complete_of_last h hpayload now io hstored he
  simp only [AcceptsComplete, NoFalseEnd, hpayload]
  rw [haccepted, hcompletion, decide_eq_true_iff]
  constructor
  · intro h'
    refine ⟨fun hdup => ?_, fun hlast => (hiff hlast).mp (h' hlast)⟩
    -- an item is taken for a repetition only while no upload is going on
    cases hnext.getlist.symm.trans hdup.idle
  · intro h' hlast
    exact (hiff hlast).mpr (h'.2 hlast)

end

/-- An item not stored is accepted as a repetition; then the upload must have been completed. -/
theorem acceptsComplete_not_stored (hstored : (s.system.ctx ()).storedItem cfg msg int wp io = none)
    (he : UploadTraffic (.message () now msg io)) :
    s.AcceptsComplete cfg (.message () now msg io) ↔ s.NoFalseEnd cfg (.message () now msg io) := by
  have hstored' := (storedItem_intMode (s.system.ctx ()) int cfg msg int wp io).trans hstored
  have hcompletion : ((s.system.ctx ()).completion cfg msg int wp io).isSome = false := by
    rw [completion_eq_none hstored]
    rfl
  have haccepted : (s.system.outputs cfg (.message () now msg io)).any isAccepted ↔
      (s.system.ctx ()).TakenForDuplicate cfg msg wp := by
    change (s.system.exec cfg _).out.any _ ↔ _
    rw [exec_item hpayload]
    unfold ifForUs
    split_ifs with hus
    · have hiff := accepted_not_stored (c := { s.system.ctx () with me.intMode := int }) now rfl
        hus h.mission hstored'
      exact hiff.trans ⟨fun h => { h with }, fun h => { h with }⟩
    · exact ⟨fun h => by simp [ctx] at h, fun h => absurd h.forUs hus⟩
  have hlog : (s.step cfg (.message () now msg io)).log = s.log := by
    rw [log_item hpayload]
    unfold UploadLog.record
    rw [hstored]
  have hiff : (s.system.ctx ()).TakenForDuplicate cfg msg wp → ∀ l, s.log = some l →
      (l.Complete cfg (s.step cfg (.message () now msg io)).system ↔
        l.committed ∧ l.received.length = l.count.toNat) := by
    intro hdup l hl
    have hcore : (s.system.exec cfg (.message () now msg io)).core = s.core := by
      rw [exec_item hpayload]
      unfold ifForUs
      rw [if_pos hdup.forUs]
      exact core_duplicate (c := { s.system.ctx () with me.intMode := int })
        { hdup with } now io
    apply complete_iff
    apply (consistent_exec h he).ended ?_ l (hlog.trans hl)
    rw [hcore]
    exact fun hget => nomatch hget.symm.trans hdup.idle
  simp only [AcceptsComplete, NoFalseEnd, hpayload]
  rw [haccepted, hcompletion, hlog]
  refine ⟨fun h' => ⟨fun hdup => ?_, nofun⟩, fun h' hdup => ?_⟩
  · obtain ⟨l, hl, hcomplete⟩ := h' hdup
    exact ⟨l, hl, (hiff hdup l hl).mp hcomplete⟩
  · obtain ⟨l, hl, hcomplete⟩ := h'.1 hdup
    exact ⟨l, hl, (hiff hdup l hl).mpr hcomplete⟩

end Item

/-- An answer to an item is justified exactly if the log justifies it. -/
theorem acceptsComplete_iff (h : Consistent s.log cfg s.core) (he : UploadTraffic e) :
    s.AcceptsComplete cfg e ↔ s.NoFalseEnd cfg e := by
  cases e with
  | send => exact Iff.rfl
  | checkActiveMission => exact Iff.rfl
  | message i now msg io =>
    cases hpayload : msg.payload with
    | missionItem int wp =>
      cases hstored : (s.system.ctx ()).storedItem cfg msg int wp io with
      | none => exact acceptsComplete_not_stored h hpayload now io hstored he
      | some item => exact acceptsComplete_stored h hpayload now io hstored he
    | _ => simp [AcceptsComplete, NoFalseEnd, hpayload]

/-- **An accepted upload is the active mission**, exactly in the runs in which an item is taken for
the last one, or for its repetition, only if it is the last one of the upload that was announced. -/
theorem accepted_upload_is_active (cfg : Config G) (dataman : Dataman G) (iridium : Unit → Bool)
    (now : UInt64) (readOk : Bool) (io : DatamanResults) (es : List (MissionEvent Unit))
    (hes : ∀ e ∈ es, UploadTraffic e) :
    Run.Along (step cfg) (AcceptsComplete cfg) ⟨.boot () dataman iridium now readOk io, none⟩ es ↔
      Run.Along (step cfg) (NoFalseEnd cfg) ⟨.boot () dataman iridium now readOk io, none⟩ es := by
  apply Run.along_iff_of_invariant (I := fun s => Consistent s.log cfg s.core)
  · exact fun s e h he => consistent_step h he
  · exact fun s e h he => acceptsComplete_iff h he
  · have hidle := boot_state () dataman iridium now readOk io ()
    refine ⟨?_, fun hget => (nomatch hidle.symm.trans hget), fun _ l hl => (nomatch hl)⟩
    exact boot_last
  · exact hes

/-- The last item of an upload is repeated, because its acknowledgement was lost. -/
def repeatedItem : List (MissionEvent Unit) :=
  [fromGcs () 1 (.missionCount 1 .mission), fromGcs () 2 (waypoint 0), fromGcs () 3 (waypoint 0)]

theorem accepted_upload_is_active_repeated :
    (∀ e ∈ repeatedItem, UploadTraffic e) ∧
      Run.Along (step demoConfig) (AcceptsComplete demoConfig) ⟨demoBoot (), none⟩
        repeatedItem := by
  have htraffic : ∀ e ∈ repeatedItem, UploadTraffic e := by
    simp [repeatedItem, UploadTraffic, fromGcs, waypoint, Payload.IsUpload]
  refine ⟨htraffic, ?_⟩
  apply (accepted_upload_is_active demoConfig _ _ 0 true {} repeatedItem htraffic).mpr
  refine ⟨trivial, ⟨fun hdup => ?_, fun _ => ⟨_, rfl, rfl⟩⟩,
    ⟨fun _ => ⟨_, rfl, rfl, rfl⟩, fun h => ?_⟩, trivial⟩
  · cases hdup.idle
  · cases h

/-- An upload of two items is cancelled after the first one, which is then sent again. -/
theorem accepted_after_cancellation :
    ¬ Run.Along (step demoConfig) (AcceptsComplete demoConfig) ⟨demoBoot (), none⟩
      [fromGcs () 1 (.missionCount 2 .mission), fromGcs () 2 (waypoint 0),
        fromGcs () 3 (.missionAck .operationCancelled .mission), fromGcs () 4 (waypoint 0)] := by
  intro h
  obtain ⟨l, hl, hcomplete⟩ := h.2.2.2.1 (by decide)
  have hlength := congrArg length hcomplete.seqs
  have hl' := congrArg (Option.map fun l => (l.received.length, l.count.toNat)) hl
  rw [show Option.map _ _ = some (1, 2) by decide] at hl'
  -- one of two items
  obtain ⟨hone, htwo⟩ := Prod.mk.inj (some.inj hl')
  rw [length_map, ← hone, ← htwo] at hlength
  cases hlength

end LoggedSystem

end Px4.Mavlink
