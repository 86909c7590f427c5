import Px4.Mavlink.MissionBanks

/-!
# The published land indices

A published mission carries two indices: where its landing sequence starts, and where it lands. Each
instance has a copy, which `check_active_mission` brings up to date if the checksum or the bank of
the mission has changed; but the checksum is shared by all instances, and the bank is the same again
after two changes. An instance that is out of date publishes its old indices with the new mission.

`SyncedSystem` records which instances are up to date.
-/

namespace Px4.Mavlink

open Function List NavCmd Option

variable {ι G : Type*}

/-! ## The land indices of a mission -/

/-- The index of the first element with the property, or `-1`. -/
def firstIndex {α : Type*} (p : α → Bool) (l : List α) : ℤ :=
  (l.findIdx? p).elim (-1) (fun k => (k : ℤ))

variable {α : Type*} {p q : α → Bool} {l : List α} {a : α}

theorem firstIndex_concat : firstIndex p (l ++ [a]) =
      if firstIndex p l = -1 ∧ p a then (l.length : ℤ) else firstIndex p l := by
  unfold firstIndex
  rw [findIdx?_append]
  cases hl : l.findIdx? p with
  | some k => simp
  | none => cases ha : p a <;> simp [ha]

/-- A weaker property comes first. -/
theorem firstIndex_eq_neg_one (h : ∀ a, q a → p a) (hp : firstIndex p l = -1) :
    firstIndex q l = -1 := by
  have hnone : l.findIdx? p = none := by
    unfold firstIndex at hp
    cases hl : l.findIdx? p with
    | none => rfl
    | some k =>
      rw [hl] at hp
      simp only [elim_some] at hp
      omega
  have hnone' : l.findIdx? q = none := by
    rw [findIdx?_eq_none_iff] at hnone ⊢
    intro a ha
    have := hnone a ha
    cases hq : q a
    · rfl
    · rw [h a hq] at this
      cases this
  unfold firstIndex
  rw [hnone']
  rfl

/-- The commands that land. -/
def NavCmd.isLanding (cmd : NavCmd) : Bool :=
  cmd = .vtolLand || cmd = .land

/-- The commands that start a landing sequence, if no other has done so before. -/
def NavCmd.startsLanding (cmd : NavCmd) : Bool :=
  cmd = .doLandStart || cmd.isLanding

theorem NavCmd.isLanding_iff {cmd : NavCmd} :
    cmd.isLanding ↔ cmd = .vtolLand ∨ cmd = .land := by
  simp [isLanding]

theorem NavCmd.startsLanding_iff {cmd : NavCmd} :
    cmd.startsLanding ↔ cmd = .doLandStart ∨ cmd.isLanding := by
  simp [startsLanding]

/-- The index of the first command with the property among the first `count` items of a bank. -/
def storedIndex (p : NavCmd → Bool) (items : DmItem → ℕ → Option (MissionItemS G)) (bank : DmItem)
    (count : ℕ) : ℤ :=
  firstIndex (fun item => item.any fun item => p item.navCmd) ((range count).map (items bank))

/-- The land indices of the mission that is stored in the first `count` items of a bank. -/
def storedMarkers (items : DmItem → ℕ → Option (MissionItemS G)) (bank : DmItem) (count : ℕ) :
    ℤ × ℤ :=
  (storedIndex startsLanding items bank count, storedIndex isLanding items bank count)

variable {items items' : DmItem → ℕ → Option (MissionItemS G)}

variable {bank : DmItem} {n : ℕ} {item : MissionItemS G} {p : NavCmd → Bool}

theorem storedIndex_succ (h : items bank n = some item) :
    storedIndex p items bank (n + 1) =
      if storedIndex p items bank n = -1 ∧ p item.navCmd then (n : ℤ)
      else storedIndex p items bank n := by
  unfold storedIndex
  rw [range_succ, map_append, map_singleton, h, firstIndex_concat, length_map,
    length_range, any_some]

theorem storedMarkers_congr {count} (h : ∀ k < count, items' bank k = items bank k) :
    storedMarkers items' bank count = storedMarkers items bank count := by
  have hmission : (range count).map (items' bank) = (range count).map (items bank) :=
    map_congr_left fun k hk => h k (mem_range.mp hk)
  unfold storedMarkers storedIndex
  rw [hmission]

theorem storedMarkers_succ (h : items bank n = some item) :
    storedMarkers items bank (n + 1) =
      Ctx.landMarkers (storedMarkers items bank n) n item.navCmd := by
  -- a landing sequence starts at the landing, if not before
  have hstart : storedIndex startsLanding items bank n = -1 →
      storedIndex isLanding items bank n = -1 := by
    apply firstIndex_eq_neg_one
    intro o ho
    cases o with
    | none => cases ho
    | some i =>
      rw [any_some] at ho ⊢
      simp [startsLanding, ho]
  unfold storedMarkers
  rw [storedIndex_succ h, storedIndex_succ h]
  unfold Ctx.landMarkers
  simp only [← isLanding_iff, startsLanding_iff]
  grind

/-! ## Moves -/

/-- The land indices of an upload are those of the items that it has stored. -/
def Upload.Marked (u : Upload) (items : DmItem → ℕ → Option (MissionItemS G)) : Prop :=
  u.missionType = .mission →
    u.seq.toNat < u.count.toNat ∧ u.markers = storedMarkers items u.bank u.seq.toNat

namespace Core

/-- The land indices of the active mission. -/
def landIndices (x : Core G) : ℤ × ℤ :=
  storedMarkers x.items x.active.bank x.active.count.toNat

variable {x y : Core G} {item : MissionItemS G} {crc32 : UInt32}

theorem written_markers (h : x.upload.Marked x.items) (hmission : x.upload.missionType = .mission) :
    storedMarkers (x.written item) x.upload.bank (x.upload.seq + 1).toNat =
      Ctx.landMarkers x.upload.markers x.upload.seq.toNat item.navCmd := by
  obtain ⟨hlt, hmarkers⟩ := h hmission
  have hitem : x.written item x.upload.bank x.upload.seq.toNat = some item := by
    unfold written
    rw [update_self, update_self]
  have hframe : ∀ k < x.upload.seq.toNat,
      x.written item x.upload.bank k = x.items x.upload.bank k := by
    intro k hk
    unfold written
    rw [update_self, update_of_ne (Nat.ne_of_lt hk)]
  rw [toNat_succ hlt, storedMarkers_succ hitem, storedMarkers_congr hframe, hmarkers]

theorem Progressed.marked (h : x.Progressed y item crc32) (hx : x.upload.Marked x.items) :
    y.upload.Marked y.items := by
  obtain ⟨currentSeq, hupload⟩ := h.upload_eq
  have hne := h.seq_ne
  rw [hupload] at hne ⊢
  intro (hmission : x.upload.missionType = .mission)
  rw [h.items_mission hmission]
  refine ⟨?_, ?_⟩
  · have hlt := (hx hmission).1
    have hsucc := toNat_succ hlt
    have hne' : (x.upload.seq + 1).toNat ≠ x.upload.count.toNat :=
      fun heq => hne (UInt16.toNat_inj.mp heq)
    change (x.upload.seq + 1).toNat < x.upload.count.toNat
    omega
  · refine Eq.trans ?_ (written_markers hx hmission).symm
    exact if_pos hmission

/-- The instance that has uploaded the active mission knows its indices. -/
theorem Finished.markers (h : x.Finished y item crc32) (hx : x.upload.Marked x.items)
    (hmission : x.upload.missionType = .mission) (hlast : x.upload.seq + 1 = x.upload.count)
    (hne : y.active ≠ x.active) : y.markers = y.landIndices := by
  have hactive := h.active_eq
  split_ifs at hactive
  · unfold landIndices
    rw [h.markers_eq, h.items_eq, hactive, ← hlast]
    exact (written_markers hx hmission).symm
  · exact absurd hactive hne

end Core

section Moves

variable {g : Guards G} {x y : Core G}

/-- A move does not touch the items of the active mission. -/
theorem Move.landIndices_eq (h : Move g x y) (hbank : x.active.Banked)
    (hapart : x.state = .getlist → x.upload.Apart x.active) (hactive : y.active = x.active) :
    y.landIndices = x.landIndices := by
  unfold Core.landIndices
  rw [hactive]
  rcases h.wrote with ⟨-, hitems⟩ | ⟨hbusy, -, hitems⟩
  · rw [hitems]
  rcases (hapart hbusy).bank_ne hbank with hne | hcount
  · rw [storedMarkers_congr fun k _ => congrFun (hitems _ hne.symm) k]
  · rw [hcount]
    rfl

/-- What a move does to the land indices, the published ones and those of the instance. -/
structure Core.Landing (g : Guards G) (x y : Core G) : Prop where
  published : y.published = x.published ∧ y.active = x.active ∨
    x.Announces y ∧ y.markers = y.landIndices
  changed : y.active ≠ x.active → y.markers = y.landIndices
  kept : y.active = x.active → y.markers = x.markers ∨ y.markers = x.landIndices ∨
    (∃ item crc32, g.completes item crc32) ∧ x.upload.missionType = .mission
  marked : y.state = .getlist → y.upload.Marked y.items

theorem Move.landing (h : Move g x y)
    (hlast : ∀ m, x.published.getLast? = some m → m.active = x.active ∧ m.markers = x.landIndices)
    (hbank : x.active.Banked) (hapart : x.state = .getlist → x.upload.Apart x.active)
    (hmarked : x.state = .getlist → x.upload.Marked x.items)
    (hsynced : g.republishes → x.markers = x.landIndices) : x.Landing g y := by
  have hframe := h.landIndices_eq hbank hapart
  -- of a move that neither changes the active mission nor the indices of the instance
  have hsame : y.active = x.active → y.markers = x.markers → y.published = x.published →
      (y.state = .getlist → y.upload.Marked y.items) → x.Landing g y :=
    fun hactive hmarkers hpublished hy =>
      ⟨.inl ⟨hpublished, hactive⟩, fun hne => absurd hactive hne, fun _ => .inl hmarkers, hy⟩
  have hidle : y.state = .idle → y.state = .getlist → y.upload.Marked y.items :=
    fun h h' => nomatch h.symm.trans h'
  cases h with
  | keep same _ hiff hupload =>
    refine hsame same.active_eq same.markers_eq same.published_eq fun hy => ?_
    rw [hupload (hiff.mp hy), same.items_eq]
    exact hmarked (hiff.mp hy)
  | announce hguard announced _ hstate =>
    refine ⟨.inr ⟨announced.announces, ?_⟩, fun hne => absurd announced.active_eq hne,
      fun _ => .inl announced.markers_eq, hidle hstate⟩
    rw [hframe announced.active_eq, announced.markers_eq]
    exact hsynced hguard
  | clear _ cleared _ hstate =>
    have hcleared : y.markers = y.landIndices := by
      unfold Core.landIndices
      rw [cleared.markers_eq, cleared.active_eq]
      rfl
    refine ⟨.inr ⟨cleared.announces, hcleared⟩, fun _ => hcleared, fun hactive => ?_, hidle hstate⟩
    exact .inr (.inl (hcleared.trans (hframe hactive)))
  | start _ same _ _ _ _ hcount hseq hmarkers =>
    refine hsame same.active_eq same.markers_eq same.published_eq fun _ _ => ?_
    rw [hseq, hmarkers]
    exact ⟨hcount, rfl⟩
  | stop tried _ hstate =>
    exact hsame tried.active_eq tried.markers_eq tried.published_eq (hidle hstate)
  | expire _ same _ hstate =>
    exact hsame same.active_eq same.markers_eq same.published_eq (hidle hstate)
  | progress _ _ _ hbusy progressed =>
    exact hsame progressed.active_eq progressed.markers_eq progressed.published_eq
      fun _ => progressed.marked (hmarked hbusy)
  | finish item crc32 hguard hbusy hmission hend finished =>
    have hchanged := finished.markers (hmarked hbusy) hmission hend
    refine ⟨?_, hchanged, fun _ => .inr (.inr ⟨⟨item, crc32, hguard⟩, hmission⟩),
      hidle finished.state_eq⟩
    have hannounces := finished.announces
    have hactive := finished.active_eq
    split_ifs at hannounces hactive with hcrc
    · refine .inr ⟨hannounces, hchanged fun heq => hcrc ?_⟩
      rw [← heq, hactive]
    · exact .inl ⟨hannounces, hactive⟩
  | finishOther _ _ hstate _ _ hactive hmarkers hannounces =>
    refine ⟨?_, fun hne => absurd hactive hne, fun _ => .inl hmarkers, hidle hstate⟩
    refine hannounces.imp (⟨·, hactive⟩) fun ⟨hguard, hms⟩ => ⟨hms, ?_⟩
    rw [hframe hactive, hmarkers]
    exact hsynced hguard
  | refresh m hm hstate hupload _ hitems hpublished hactive hmarkers =>
    obtain ⟨hm_active, hm_markers⟩ := hlast m hm
    refine ⟨.inl ⟨hpublished, hactive.trans hm_active⟩,
      fun hne => absurd (hactive.trans hm_active) hne,
      fun _ => .inr (.inl (hmarkers.trans hm_markers)), fun hy => ?_⟩
    rw [hupload, hitems]
    exact hmarked (hstate.symm.trans hy)

end Moves

/-! ## Who is up to date -/

namespace Ctx

/-- The land indices of the mission whose upload the event completes. -/
def completedMarkers (c : Ctx G) (cfg : Config G) : MissionEvent ι → Option (ℤ × ℤ)
  | .message _ _ msg io =>
    if c.me.missionType = .mission then
      (c.completes cfg msg io).map fun p =>
        landMarkers (c.me.transferLandStartMarker, c.me.transferLandMarker) c.me.transferSeq.toNat
          p.1.navCmd
    else none
  | _ => none

/-- The event makes `check_active_mission` take over the mission that was published last. -/
def refreshes (c : Ctx G) : MissionEvent ι → Bool
  | .checkActiveMission .. => !c.me.iridium && c.me.missionSubSeen != c.published.length &&
    c.published.getLast?.any c.missionOutdated
  | _ => false

variable {c : Ctx G} {e : MissionEvent ι}

variable {cfg : Config G} {markers : ℤ × ℤ} {crc32 : UInt32} {m m' : MissionS} {io : DatamanResults}

/-- The mission of which an upload is completed is the one whose indices the instance keeps. -/
theorem markers_of_completed (h : c.completedMarkers cfg e = some markers) :
    (MissionSystem.handler cfg c e).core.markers = markers := by
  cases e with
  | send => cases h
  | checkActiveMission => cases h
  | message i now msg io =>
    unfold completedMarkers at h
    split_ifs at h with hmission
    unfold completes itemWith at h
    dsimp only at h
    change (c.handleMessage cfg now msg io).core.markers = markers
    unfold handleMessage
    cases hpayload : msg.payload with
    | missionItem int wp =>
      rw [hpayload] at h
      obtain ⟨p, hp, rfl⟩ := map_eq_some_iff.mp h
      obtain ⟨item, hitem, rfl⟩ := map_eq_some_iff.mp hp
      unfold completion at hitem
      split_ifs at hitem with hlast
      have hstored := (storedItem_intMode c int cfg msg int wp io).trans hitem
      obtain ⟨hnext, -, -⟩ := storedItem_eq_some.mp hstored
      have hfinished := (handleMissionItemBoth_stored (c := { c with me.intMode := int }) now
        hmission hstored).2 hlast
      dsimp only
      unfold ifForUs
      rw [if_pos hnext.forUs]
      exact hfinished.markers_eq
    | _ => simp [hpayload] at h

theorem completedMarkers_ne_none (h : (c.guards cfg e).completes item crc32)
    (hmission : c.me.missionType = .mission) : c.completedMarkers cfg e ≠ none := by
  cases e with
  | send => exact h.elim
  | checkActiveMission => exact h.elim
  | message i now msg io =>
    have hcompletes : c.completes cfg msg io = some (item, crc32) := h
    unfold completedMarkers
    simp [hmission, hcompletes]

/-- Taking over the other lists does not make the mission look out of date. -/
theorem missionOutdated_refreshFence :
    (c.refreshFence m io).missionOutdated m' = c.missionOutdated m' := by
  unfold refreshFence loadGeofenceStats
  split_ifs <;> rfl

theorem missionOutdated_refreshSafePoints :
    (c.refreshSafePoints m io).missionOutdated m' = c.missionOutdated m' := by
  unfold refreshSafePoints loadSafepointStats
  split_ifs <;> rfl

theorem markers_of_refreshes (h : c.refreshes e) :
    ∃ m, c.published.getLast? = some m ∧
      (MissionSystem.handler cfg c e).core.markers = MissionS.markers m := by
  cases e with
  | send => cases h
  | message => cases h
  | checkActiveMission i io =>
    change ∃ m, _ ∧ (c.checkActiveMission io).core.markers = MissionS.markers m
    unfold refreshes at h
    simp only [Bool.and_eq_true, Bool.not_eq_true', bne_iff_ne] at h
    obtain ⟨⟨hiridium, hseen⟩, houtdated⟩ := h
    cases hlast : c.published.getLast? with
    | none =>
      rw [hlast] at houtdated
      cases houtdated
    | some m =>
      rw [hlast] at houtdated
      refine ⟨m, rfl, ?_⟩
      unfold checkActiveMission
      rw [if_neg (by simp [hiridium]), hlast]
      dsimp only
      rw [if_neg hseen]
      unfold refreshMission
      rw [missionOutdated_refreshSafePoints, missionOutdated_refreshFence, if_pos]
      · rfl
      · exact houtdated

end Ctx

instance decidableCommitsOther (c : Ctx G) (crc32 : UInt32) (io : DatamanResults) :
    Decidable (c.CommitsOther crc32 io) :=
  inferInstanceAs (Decidable (_ ∨ _))

instance decidableRepublishesOn (c : Ctx G) (cfg : Config G) (msg : Message)
    (io : DatamanResults) : (p : Payload) → Decidable (c.RepublishesOn cfg msg io p)
  | .missionSetCurrent _ => inferInstanceAs (Decidable (_ ∧ _))
  | .missionClearAll _ => inferInstanceAs (Decidable (_ ∧ _))
  | .missionCount .. => inferInstanceAs (Decidable (_ ∧ _))
  | .missionItem .. => inferInstanceAs (Decidable (_ ∧ _))
  | .missionAck .. => isFalse id
  | .missionRequestList .. => isFalse id
  | .missionRequest .. => isFalse id

instance decidableRepublishes (c : Ctx G) (cfg : Config G) :
    (e : MissionEvent ι) → Decidable (c.Republishes cfg e)
  | .message .. => inferInstanceAs (Decidable (_ ∧ _))
  | .send .. => isFalse id
  | .checkActiveMission .. => isFalse id

/-- A system, and which of its instances keep the land indices of the active mission. -/
structure SyncedSystem (ι G : Type*) where
  system : MissionSystem ι G
  synced : ι → Bool

namespace MissionSystem

/-- The land indices of the active mission. -/
def landIndices (s : MissionSystem ι G) : ℤ × ℤ :=
  storedMarkers s.dataman.items s.active.bank s.active.count.toNat

end MissionSystem

namespace SyncedSystem

open MissionSystem

variable [DecidableEq ι]

/-- The instance that changes the active mission is up to date, and no other one. If it stays, an
instance is up to date after it has taken over the published mission, or uploaded one with the same
checksum and the same land indices. -/
def nextSynced (cfg : Config G) (s : SyncedSystem ι G) (e : MissionEvent ι) (i : ι) : Bool :=
  if (s.system.step cfg e).active ≠ s.system.active then i = actor e
  else if i = actor e then
    match (s.system.ctx i).completedMarkers cfg e with
    | some markers => markers = s.system.landIndices
    | none => s.synced i || (s.system.ctx i).refreshes e
  else s.synced i

def step (cfg : Config G) (s : SyncedSystem ι G) (e : MissionEvent ι) : SyncedSystem ι G where
  system := s.system.step cfg e
  synced := s.nextSynced cfg e

/-- The first instance has loaded the stored indices; the others are right if there are none. -/
def boot (first : ι) (dataman : Dataman G) (iridium : ι → Bool) (now : UInt64) (readOk : Bool)
    (io : DatamanResults) : SyncedSystem ι G where
  system := .boot first dataman iridium now readOk io
  synced i := i = first ||
    (MissionSystem.boot first dataman iridium now readOk io).landIndices = (-1, -1)

/-- No download expires while an instance is uploading, and an instance publishes the active mission
again only if it is up to date. -/
def InSync (cfg : Config G) (s : SyncedSystem ι G) (e : MissionEvent ι) : Prop :=
  s.system.NoForeignTimeout e ∧
    ((s.system.ctx (actor e)).Republishes cfg e → s.synced (actor e) = true)

/-- Every mission that the step publishes carries the land indices of the one in its bank. -/
def PublishesLandIndices (cfg : Config G) (s : SyncedSystem ι G) (e : MissionEvent ι) : Prop :=
  ∀ m ∈ (s.step cfg e).system.published.drop s.system.published.length,
    m.markers = storedMarkers (s.step cfg e).system.dataman.items m.missionDatamanId m.count.toNat
deriving Decidable

/-! ## Runs -/

/-- Published indices, those computed in an upload and those of an up-to-date instance are right. -/
structure Marked (s : SyncedSystem ι G) : Prop extends Buffered s.system where
  lastMarkers : ∀ m, s.system.published.getLast? = some m → m.markers = s.system.landIndices
  uploadMarkers : ∀ i, (s.system.instances i).state = .getlist →
    (s.system.ctx i).core.upload.Marked s.system.dataman.items
  syncedMarkers : ∀ i, s.synced i = true → (s.system.ctx i).core.markers = s.system.landIndices

variable {s : SyncedSystem ι G} {e : MissionEvent ι} {cfg : Config G}

omit [DecidableEq ι] in
theorem Marked.landing (h : s.Marked) (hsync : s.InSync cfg e) :
    (s.system.ctx (actor e)).core.Landing ((s.system.ctx (actor e)).guards cfg e)
      (s.system.exec cfg e).core := by
  apply (s.system.exec_move cfg e).landing
  · exact fun m hm => ⟨h.last m hm, h.lastMarkers m hm⟩
  · exact h.bank
  · exact h.apart (actor e)
  · exact h.uploadMarkers (actor e)
  · intro hguard
    apply h.syncedMarkers (actor e)
    exact hsync.2 ((Ctx.guards_republishes ..).mp hguard)

variable (h : s.Marked)
include h

theorem Marked.publishes (hsync : s.InSync cfg e) : s.PublishesLandIndices cfg e := by
  intro m hm
  rcases (h.landing hsync).published with ⟨hpublished, -⟩ | ⟨⟨ms, -, hms, hall⟩, hmarkers⟩
  · change m ∈ (s.system.exec cfg e).core.published.drop _ at hm
    rw [hpublished, show (s.system.ctx (actor e)).core.published = s.system.published from rfl,
      drop_length] at hm
    cases hm
  · change m ∈ (s.system.exec cfg e).core.published.drop _ at hm
    rw [hms, show (s.system.ctx (actor e)).core.published = s.system.published from rfl,
      drop_left] at hm
    obtain ⟨hm_active, hm_markers⟩ := hall m hm
    rw [hm_markers, hmarkers]
    unfold Core.landIndices
    rw [← hm_active]
    rfl

theorem Marked.landIndices_eq (hactive : (s.system.step cfg e).active = s.system.active) :
    (s.system.step cfg e).landIndices = s.system.landIndices :=
  (s.system.exec_move cfg e).landIndices_eq h.bank (h.apart (actor e)) hactive

/-- An instance that counts as up to date after a step keeps the right indices. -/
theorem Marked.synced_step (hsync : s.InSync cfg e) (i) (hi : s.nextSynced cfg e i) :
    ((s.system.step cfg e).ctx i).core.markers = (s.system.step cfg e).landIndices := by
  have hlanding := h.landing hsync
  unfold nextSynced at hi
  split_ifs at hi with hchanged hactor
  · -- this instance has changed the active mission
    rw [of_decide_eq_true hi, core_step_self]
    exact hlanding.changed hchanged
  · have hactive : (s.system.step cfg e).active = s.system.active := not_not.mp hchanged
    rw [h.landIndices_eq hactive, hactor, core_step_self]
    rw [hactor] at hi
    cases hcompleted : (s.system.ctx (actor e)).completedMarkers cfg e with
    | some markers =>
      rw [hcompleted] at hi
      exact (Ctx.markers_of_completed hcompleted).trans (of_decide_eq_true hi)
    | none =>
      rw [hcompleted] at hi
      rcases Bool.or_eq_true_iff.mp hi with hsynced | hrefreshes
      · have hkept := h.syncedMarkers (actor e) hsynced
        rcases hlanding.kept hactive with hsame | hright | ⟨⟨item, crc32, hguard⟩, hmission⟩
        · exact hsame.trans hkept
        · exact hright
        · exact absurd hcompleted (Ctx.completedMarkers_ne_none hguard hmission)
      · obtain ⟨m, hm, hmarkers⟩ := Ctx.markers_of_refreshes hrefreshes
        exact hmarkers.trans (h.lastMarkers m hm)
  · have hactive : (s.system.step cfg e).active = s.system.active := not_not.mp hchanged
    rw [h.landIndices_eq hactive]
    unfold ctx
    rw [s.system.instances_step_of_ne hactor]
    exact h.syncedMarkers i hi

theorem Marked.step (hsync : s.InSync cfg e) : (s.step cfg e).Marked := by
  have hlanding := h.landing hsync
  refine { h.toBuffered.step cfg hsync.1 with
    lastMarkers := ?_, uploadMarkers := ?_, syncedMarkers := h.synced_step hsync }
  · intro m hm
    rcases hlanding.published with ⟨hpublished, hactive⟩ | ⟨hannounces, hmarkers⟩
    · change (s.system.exec cfg e).core.published.getLast? = some m at hm
      rw [hpublished] at hm
      exact (h.lastMarkers m hm).trans (h.landIndices_eq hactive).symm
    · exact (hannounces.last hm).2.trans hmarkers
  · intro i hi
    change ((s.system.step cfg e).ctx i).core.upload.Marked (s.system.exec cfg e).core.items
    rcases uploading_of_step hi with ⟨rfl, hstep⟩ | ⟨hne, hbefore⟩
    · rw [core_step_self]
      exact hlanding.marked hstep
    -- another upload, so this instance has written nothing
    unfold ctx
    rw [s.system.instances_step_of_ne hne]
    rcases (s.system.exec_move cfg e).wrote with ⟨-, hitems⟩ | ⟨hbusy, -, -⟩
    · rw [hitems]
      exact h.uploadMarkers i hbefore
    · exact absurd (h.unique i _ hbefore hbusy) hne

end SyncedSystem

/-- What is read as the mission state carries the land indices of the stored mission. It does not
if it has never been written, or since the storage was created: both indices are 0 then. -/
def Dataman.NamesLandIndices (dataman : Dataman G) : Prop :=
  let m := dataman.missionState.getD .zeros
  m.markers = storedMarkers dataman.items m.missionDatamanId m.count.toNat

namespace SyncedSystem

open MissionSystem

variable [DecidableEq ι]

theorem boot_marked (first : ι) {dataman : Dataman G} (hbank : dataman.NamesMissionBank)
    (iridium : ι → Bool) (now : UInt64) {readOk : Bool}
    (hland : readOk = true → dataman.NamesLandIndices) (io : DatamanResults) :
    (boot first dataman iridium now readOk io).Marked := by
  have hloaded := construct_loaded dataman (iridium first) now readOk io
  have hmarkers : (construct dataman (iridium first) now readOk io).core.markers =
      (construct dataman (iridium first) now readOk io).core.landIndices := by
    unfold Core.landIndices
    rw [hloaded.items_eq]
    rcases hloaded.active with ⟨-, hactive, hmarkers⟩ | ⟨hread, hactive, hmarkers⟩
    · rw [hactive, hmarkers]
      rfl
    · rw [hactive, hmarkers]
      exact hland hread
  refine { boot_buffered hbank with
    lastMarkers := ?_, uploadMarkers := ?_, syncedMarkers := ?_ }
  · intro m hm
    obtain ⟨m', hpublished, -, hm'⟩ := hloaded.published
    change (construct dataman (iridium first) now readOk io).core.published.getLast? = some m at hm
    rw [hpublished] at hm
    rw [← some.inj hm]
    exact hm'.trans hmarkers
  · intro i hi
    cases (boot_state first dataman iridium now readOk io i).symm.trans hi
  · intro i hi
    change ((MissionSystem.boot first dataman iridium now readOk io).ctx i).core.markers = _
    unfold ctx
    by_cases hfirst : i = first
    · rw [show (MissionSystem.boot first dataman iridium now readOk io).instances i = _ from
        if_pos hfirst]
      exact hmarkers
    · have hnone := hi
      unfold boot at hnone
      dsimp only at hnone
      rw [decide_eq_false hfirst] at hnone
      rw [show (MissionSystem.boot first dataman iridium now readOk io).instances i = _ from
        if_neg hfirst]
      exact (of_decide_eq_true hnone).symm

/-- **The published land indices are those of the stored mission**, in a run in which no download
expires while an instance is uploading and only instances that are up to date publish the active
mission again. -/
theorem published_land_indices (cfg : Config G) (first : ι) (dataman : Dataman G)
    (iridium : ι → Bool) (now : UInt64) (readOk : Bool) (io : DatamanResults)
    (es : List (MissionEvent ι)) (hbank : dataman.NamesMissionBank)
    (hland : readOk = true → dataman.NamesLandIndices)
    (hsync : Run.Along (step cfg) (InSync cfg) (boot first dataman iridium now readOk io) es) :
    (∀ m ∈ (boot first dataman iridium now readOk io).system.published,
      m.markers = storedMarkers dataman.items m.missionDatamanId m.count.toNat) ∧
    Run.Along (step cfg) (PublishesLandIndices cfg) (boot first dataman iridium now readOk io)
      es := by
  have hboot := boot_marked first hbank iridium now hland io
  refine ⟨fun m hm => ?_, ?_⟩
  · have hloaded := construct_loaded dataman (iridium first) now readOk io
    obtain ⟨m', hpublished, hactive, -⟩ := hloaded.published
    have hsystem : (boot first dataman iridium now readOk io).system.published = [m'] := hpublished
    rw [hsystem, mem_singleton] at hm
    subst hm
    rw [hboot.lastMarkers m (by rw [hsystem]; rfl)]
    change (construct dataman (iridium first) now readOk io).core.landIndices = _
    unfold Core.landIndices
    rw [hloaded.items_eq, ← hactive]
    rfl
  · apply Run.along_of_invariant (I := Marked)
    · exact fun s e h hstep => h.step hstep
    · exact fun s e h hstep => h.publishes hstep
    · exact hboot
    · exact hsync

instance [Fintype ι] (cfg : Config G) (s : SyncedSystem ι G) (e : MissionEvent ι) :
    Decidable (s.InSync cfg e) :=
  inferInstanceAs (Decidable (_ ∧ _))

def landing (seq : UInt16) : Payload :=
  .missionItem true { seq, frame := 3, command := 21 }

/-- Link `true` uploads a mission of one landing; `false` takes it over and clears the geofence. -/
def refreshedFence : List (MissionEvent Bool) :=
  [fromGcs true 1 (.missionCount 1 .mission), fromGcs true 2 (landing 0),
    .checkActiveMission false {}, fromGcs false 3 (.missionClearAll .fence)]

theorem published_land_indices_refreshed :
    Run.Along (step demoConfig) (InSync demoConfig)
        (boot true clearedStorage (fun _ => false) 0 true {}) refreshedFence ∧
      Run.Along (step demoConfig) (PublishesLandIndices demoConfig)
        (boot true clearedStorage (fun _ => false) 0 true {}) refreshedFence := by
  have hbank : clearedStorage.NamesMissionBank := by
    intro m hm
    cases hm
    exact .inl rfl
  have hland : clearedStorage.NamesLandIndices := rfl
  refine ⟨?hsync, (published_land_indices demoConfig true _ _ 0 true {} refreshedFence hbank
    (fun _ => hland) ?hsync).2⟩
  decide +kernel

/-- Link `true` uploads two missions; link `false` finds the bank as it was and clears the
geofence. -/
theorem published_land_indices_stale :
    ¬ Run.Along (step demoConfig) (PublishesLandIndices demoConfig)
      (boot true clearedStorage (fun _ => false) 0 true {})
      ([fromGcs true 1 (.missionCount 1 .mission), fromGcs true 2 (landing 0),
        fromGcs true 3 (.missionCount 2 .mission), fromGcs true 4 (waypoint 0),
        fromGcs true 5 (landing 1), .checkActiveMission false {}] ++
      [fromGcs false 6 (.missionClearAll .fence)]) := by
  intro h
  exact absurd (Run.along_append.mp h).2.1 (by decide +kernel)

end SyncedSystem

end Px4.Mavlink
