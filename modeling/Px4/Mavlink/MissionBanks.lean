import Px4.Mavlink.MissionExclusion

/-!
# The active mission is never overwritten

An upload goes to the bank that is not active, and a commit switches the banks. As long as uploads
exclude each other, no write reaches an item of the mission that is active when it is issued.
-/

namespace Px4.Mavlink

variable {ι G : Type*}

/-- The write hits an item of the mission that is active when it is issued. -/
def ItemWrite.HitsActive (w : ItemWrite) : Prop :=
  w.item = w.activeBank ∧ w.index < w.activeCount.toNat
deriving Decidable

theorem otherMissionBank_ne {id} (h : id.IsWaypoints) : otherMissionBank id ≠ id := by
  rcases h with rfl | rfl <;> decide

theorem otherMissionBank_isWaypoints {id} : (otherMissionBank id).IsWaypoints := by
  unfold otherMissionBank
  split_ifs
  · exact .inr rfl
  · exact .inl rfl

theorem toNat_succ {a b : UInt16} (h : a.toNat < b.toNat) : (a + 1).toNat = a.toNat + 1 := by
  have := b.toNat_lt
  rw [UInt16.toNat_add]
  exact Nat.mod_eq_of_lt (by rw [show (1 : UInt16).toNat = 1 from rfl]; omega)

/-! ## The bank of an upload -/

/-- The mission is in a bank of the mission, or has no items. -/
def Active.Banked (a : Active) : Prop := a.bank.IsWaypoints ∨ a.count = 0

/-- The bank of an upload belongs to its list, and no item of the active mission is in it. -/
structure Upload.Apart (u : Upload) (a : Active) : Prop where
  mission : u.missionType = .mission → u.bank.IsWaypoints ∧ (u.bank ≠ a.bank ∨ a.count = 0)
  other : u.missionType ≠ .mission → ¬ u.bank.IsWaypoints

variable {a b : Active}

theorem Upload.Apart.bank_ne {u : Upload} (h : u.Apart a) (ha : a.Banked) :
    u.bank ≠ a.bank ∨ a.count = 0 := by
  by_cases hmission : u.missionType = .mission
  · exact (h.mission hmission).2
  · exact ha.imp_left fun ha heq => h.other hmission (heq ▸ ha)

/-- Clearing the mission does not get in the way of an upload. -/
theorem Upload.Apart.of_count_eq_zero {u : Upload} (h : u.Apart a) (hb : b.count = 0) : u.Apart b :=
  ⟨fun hmission => ⟨(h.mission hmission).1, .inr hb⟩, h.other⟩

/-! ## Moves -/

section Moves

variable {g : Guards G} {x y : Core G}

variable {m : MissionS}

theorem Core.Announces.last (h : x.Announces y)
    (hm : y.published.getLast? = some m) : m.active = y.active ∧ m.markers = y.markers := by
  obtain ⟨ms, hne, heq, hall⟩ := h
  rw [heq, List.getLast?_append_of_ne_nil _ hne] at hm
  exact hall m (List.mem_of_getLast? hm)

variable (h : Move g x y)
include h

/-- The active mission under a move: it stays, is cleared, or is the upload of this instance. -/
theorem Move.active (hlast : ∀ m, x.published.getLast? = some m → m.active = x.active) :
    y.active = x.active ∧ (y.published = x.published ∨ x.Announces y) ∨
    x.Announces y ∧ y.state = .idle ∧ y.active.bank.IsWaypoints ∧ y.active.count = 0 ∨
    x.Announces y ∧ y.state = .idle ∧ x.state = .getlist ∧ x.upload.missionType = .mission ∧
      y.active.bank = x.upload.bank := by
  cases h with
  | keep same => exact .inl ⟨same.active_eq, .inl same.published_eq⟩
  | announce _ announced => exact .inl ⟨announced.active_eq, .inr announced.announces⟩
  | clear _ cleared _ hstate =>
    refine .inr (.inl ⟨cleared.announces, hstate, ?_, ?_⟩)
    · rw [cleared.active_eq]
      exact otherMissionBank_isWaypoints
    · rw [cleared.active_eq]
  | start _ same => exact .inl ⟨same.active_eq, .inl same.published_eq⟩
  | stop tried => exact .inl ⟨tried.active_eq, .inl tried.published_eq⟩
  | expire _ same => exact .inl ⟨same.active_eq, .inl same.published_eq⟩
  | progress _ _ _ _ h => exact .inl ⟨h.active_eq, .inl h.published_eq⟩
  | finish _ _ _ hbusy hmission _ h =>
    have hactive := h.active_eq
    have hannounces := h.announces
    split_ifs at hactive hannounces
    · exact .inr (.inr ⟨hannounces, h.state_eq, hbusy, hmission, by rw [hactive]⟩)
    · exact .inl ⟨hactive, .inl hannounces⟩
  | finishOther _ _ _ _ _ hactive _ hannounces =>
    exact .inl ⟨hactive, hannounces.imp_right And.right⟩
  | refresh m hm _ _ _ _ hpublished hactive =>
    exact .inl ⟨hactive.trans (hlast m hm), .inl hpublished⟩

/-- The bank of an upload is chosen when it begins. -/
theorem Move.upload_apart (hbank : x.active.Banked)
    (hactive : y.active = x.active) (hy : y.state = .getlist)
    (hx : x.state = .getlist → x.upload.Apart x.active) : y.upload.Apart y.active := by
  rw [hactive]
  cases h with
  | keep _ _ hiff hupload =>
    rw [hupload (hiff.mp hy)]
    exact hx (hiff.mp hy)
  | start _ _ _ _ _ _ _ _ _ hmission hother =>
    refine ⟨fun htype => ?_, hother⟩
    rw [hmission htype]
    exact ⟨otherMissionBank_isWaypoints, hbank.imp_left otherMissionBank_ne⟩
  | progress _ _ _ hbusy h =>
    obtain ⟨_, hupload⟩ := h.upload_eq
    rw [hupload]
    exact ⟨(hx hbusy).mission, (hx hbusy).other⟩
  | refresh _ _ hstate hupload =>
    rw [hupload]
    exact hx (hstate.symm.trans hy)
  | announce _ _ _ hstate => rw [hstate] at hy; cases hy
  | clear _ _ _ hstate => rw [hstate] at hy; cases hy
  | stop _ _ hstate => rw [hstate] at hy; cases hy
  | expire _ _ _ hstate => rw [hstate] at hy; cases hy
  | finish _ _ _ _ _ _ h => rw [h.state_eq] at hy; cases hy
  | finishOther _ _ hstate => rw [hstate] at hy; cases hy

/-- Only an upload writes items, and only into its own bank. -/
theorem Move.wrote :
    (y.writes = x.writes ∧ y.items = x.items) ∨
    (x.state = .getlist ∧ x.Wrote y ∧
      ∀ bank, bank ≠ x.upload.bank → y.items bank = x.items bank) := by
  have hwritten : ∀ item bank, bank ≠ x.upload.bank → x.written item bank = x.items bank :=
    fun _ _ hne => Function.update_of_ne hne ..
  cases h with
  | keep same => exact .inl ⟨same.writes_eq, same.items_eq⟩
  | announce _ announced => exact .inl ⟨announced.writes_eq, announced.items_eq⟩
  | clear _ cleared => exact .inl ⟨cleared.writes_eq, cleared.items_eq⟩
  | start _ same => exact .inl ⟨same.writes_eq, same.items_eq⟩
  | stop tried hbusy => exact .inr ⟨hbusy, tried.wrote, fun bank _ => congrFun tried.items_eq bank⟩
  | expire _ same => exact .inl ⟨same.writes_eq, same.items_eq⟩
  | progress item _ _ hbusy h =>
    refine .inr ⟨hbusy, h.wrote, fun bank hne => ?_⟩
    by_cases htype : x.upload.missionType = .mission
    · rw [h.items_mission htype]
      exact hwritten item bank hne
    · exact h.items_other htype bank hne
  | finish item _ _ hbusy _ _ h =>
    refine .inr ⟨hbusy, h.wrote, fun bank hne => ?_⟩
    rw [h.items_eq]
    exact hwritten item bank hne
  | finishOther hbusy _ _ _ hitems _ _ _ hwrote => exact .inr ⟨hbusy, hwrote, hitems⟩
  | refresh _ _ _ _ _ hitems _ _ _ hwrites => exact .inl ⟨hwrites, hitems⟩

end Moves

/-! ## The invariant -/

/-- The stored mission is in a bank of the mission, if there is one. -/
def Dataman.NamesMissionBank (dataman : Dataman G) : Prop :=
  ∀ m, dataman.missionState = some m → m.missionDatamanId.IsWaypoints

namespace MissionSystem

def active (s : MissionSystem ι G) : Active :=
  ⟨s.shared.missionDatamanId, s.shared.count.mission, s.shared.crc32.mission⟩

/-- Uploads exclude each other and spare the active mission, the one published last. -/
structure Buffered (s : MissionSystem ι G) : Prop extends Exclusive s where
  bank : s.active.Banked
  last : ∀ m, s.published.getLast? = some m → m.active = s.active
  apart : ∀ i, (s.instances i).state = .getlist → (s.ctx i).core.upload.Apart s.active

/-- No write of the step hits an item of the mission active before it, the storage keeps them, and
another mission becomes active only by being published. -/
structure KeepsActive [DecidableEq ι] (cfg : Config G) (s : MissionSystem ι G)
    (e : MissionEvent ι) : Prop where
  writes : ∀ w ∈ s.writes cfg e, ¬ w.HitsActive
  items : ∀ k < s.active.count.toNat,
    (s.step cfg e).dataman.items s.active.bank k = s.dataman.items s.active.bank k
  switch : (s.step cfg e).active ≠ s.active →
    ∃ ms m, (s.step cfg e).published = s.published ++ ms ∧ ms.getLast? = some m ∧
      m.active = (s.step cfg e).active

variable [DecidableEq ι] {s : MissionSystem ι G} {e : MissionEvent ι}

variable {i : ι} {cfg : Config G}

/-- An upload that the step does not touch. -/
theorem Buffered.apart_of_ne (h : s.Buffered) (hne : i ≠ actor e)
    (hi : (s.instances i).state = .getlist) :
    ((s.step cfg e).ctx i).core.upload.Apart s.active := by
  unfold ctx
  rw [s.instances_step_of_ne hne]
  exact h.apart i hi

theorem Buffered.step (h : s.Buffered) (cfg : Config G) (hexpires : s.NoForeignTimeout e) :
    (s.step cfg e).Buffered := by
  have hmove := s.exec_move cfg e
  have hexclusive := h.toExclusive.step cfg hexpires
  rcases hmove.active h.last with ⟨hactive, hpublished⟩ | ⟨hannounces, hidle, hbank, hcount⟩ |
    ⟨hannounces, hidle, hbusy, hmission, hbank⟩
  · -- the same mission is active
    have hactive' : (s.step cfg e).active = s.active := hactive
    refine { hexclusive with bank := hactive' ▸ h.bank, last := ?_, apart := ?_ }
    · intro m hm
      rcases hpublished with hpublished | hannounces
      · have hpublished' : (s.step cfg e).published = s.published := hpublished
        rw [hpublished'] at hm
        rw [hactive']
        exact h.last m hm
      · exact (hannounces.last hm).1
    · intro i hi
      rcases uploading_of_step hi with ⟨rfl, hstep⟩ | ⟨hne, hbefore⟩
      · unfold ctx
        rw [instances_step_self]
        exact hmove.upload_apart h.bank hactive hstep (h.apart (actor e))
      · rw [hactive']
        exact h.apart_of_ne hne hbefore
  · -- the mission has been cleared
    refine { hexclusive with
      bank := .inl hbank, last := fun m hm => (hannounces.last hm).1, apart := ?_ }
    intro i hi
    rcases uploading_of_step hi with ⟨-, hi⟩ | ⟨hne, hi⟩
    · cases hi.symm.trans hidle
    · exact (h.apart_of_ne hne hi).of_count_eq_zero hcount
  · -- the only upload has been committed
    have hupload := ((h.apart _ hbusy).mission hmission).1
    refine { hexclusive with
      bank := ?_, last := fun m hm => (hannounces.last hm).1, apart := ?_ }
    · change (s.exec cfg e).core.active.Banked
      unfold Active.Banked
      rw [hbank]
      exact .inl hupload
    · intro i hi
      rcases uploading_of_step hi with ⟨-, hi⟩ | ⟨hne, hi⟩
      · cases hi.symm.trans hidle
      · exact absurd (h.unique i _ hi hbusy) hne

theorem Buffered.keepsActive (h : s.Buffered) : s.KeepsActive cfg e := by
  have hmove := s.exec_move cfg e
  refine ⟨fun w hw => ?_, fun k hk => ?_, fun hne => ?_⟩
  · rcases hmove.wrote with ⟨hwrites, -⟩ | ⟨hbusy, hwrites | hwrites, -⟩
    · -- no write at all
      rw [show s.writes cfg e = [] from hwrites] at hw
      cases hw
    · rw [show s.writes cfg e = [] from hwrites] at hw
      cases hw
    · rw [show s.writes cfg e = [(s.ctx (actor e)).core.nextWrite] from hwrites,
        List.mem_singleton] at hw
      subst hw
      rintro ⟨hitem, hindex⟩
      rcases (h.apart _ hbusy).bank_ne h.bank with hbank | hcount
      · exact hbank hitem
      · change _ < s.active.count.toNat at hindex
        simp [hcount] at hindex
  · rcases hmove.wrote with ⟨-, hitems⟩ | ⟨hbusy, -, hitems⟩
    · exact congrFun (congrFun hitems _) k
    · rcases (h.apart _ hbusy).bank_ne h.bank with hbank | hcount
      · exact congrFun (hitems _ hbank.symm) k
      · simp [hcount] at hk
  · have hannounces : (s.ctx (actor e)).core.Announces (s.exec cfg e).core := by
      rcases hmove.active h.last with ⟨hactive, -⟩ | ⟨hannounces, -⟩ | ⟨hannounces, -⟩
      · exact absurd hactive hne
      · exact hannounces
      · exact hannounces
    obtain ⟨ms, hms, hpublished, hall⟩ := hannounces
    refine ⟨ms, ms.getLast hms, hpublished, List.getLast?_eq_getLast_of_ne_nil hms, ?_⟩
    exact (hall _ (List.getLast_mem hms)).1

theorem boot_last {first : ι} {dataman : Dataman G} {iridium : ι → Bool} {now : UInt64}
    {readOk : Bool} {io : DatamanResults} :
    ∀ m, (boot first dataman iridium now readOk io).published.getLast? = some m →
      m.active = (boot first dataman iridium now readOk io).active := by
  intro m hm
  obtain ⟨m', hpublished, hactive, -⟩ :=
    (construct_loaded dataman (iridium first) now readOk io).published
  change (construct dataman (iridium first) now readOk io).core.published.getLast? = some m at hm
  rw [hpublished] at hm
  rw [← Option.some.inj hm]
  exact hactive

theorem boot_buffered {first : ι} {dataman : Dataman G} (hbank : dataman.NamesMissionBank)
    {iridium : ι → Bool} {now : UInt64} {readOk : Bool} {io : DatamanResults} :
    (boot first dataman iridium now readOk io).Buffered := by
  have hloaded := construct_loaded dataman (iridium first) now readOk io
  refine { boot_exclusive with
    bank := ?_, last := boot_last, apart := ?_ }
  · change (construct dataman (iridium first) now readOk io).core.active.Banked
    rcases hloaded.active with ⟨-, hactive, -⟩ | ⟨-, hactive, -⟩
    · rw [hactive]
      exact .inl (.inl rfl)
    · rw [hactive]
      cases hm : dataman.missionState with
      | none => exact .inr rfl
      | some m => exact .inl (hbank m hm)
  · intro i hi
    rw [boot_state] at hi
    cases hi

/-- **The active mission is immutable** in every run in which no download expires while an instance
is uploading. -/
theorem active_mission_immutable (cfg : Config G) (first : ι) (dataman : Dataman G)
    (iridium : ι → Bool) (now : UInt64) (readOk : Bool) (io : DatamanResults)
    (es : List (MissionEvent ι)) (hbank : dataman.NamesMissionBank)
    (hexpires : Run.Along (step cfg) NoForeignTimeout
      (boot first dataman iridium now readOk io) es) :
    Run.Along (step cfg) (KeepsActive cfg) (boot first dataman iridium now readOk io) es := by
  apply Run.along_of_invariant (I := Buffered)
  · exact fun s e h hstep => h.step cfg hstep
  · exact fun s e h _ => h.keepsActive
  · exact boot_buffered hbank
  · exact hexpires

/-- Two uploads in turn, while the other link is downloading. -/
def twoUploads : List (MissionEvent Bool) :=
  [fromGcs true 1 (.missionCount 2 .mission), fromGcs false 2 (.missionRequestList .mission),
    fromGcs true 3 (waypoint 0), fromGcs true 4 (waypoint 1),
    fromGcs true 5 (.missionCount 1 .mission), sendAt false 6, fromGcs true 6 (waypoint 0)]

theorem active_mission_immutable_two_uploads :
    Run.Along (step demoConfig) NoForeignTimeout (demoBoot true) twoUploads ∧
      Run.Along (step demoConfig) (KeepsActive demoConfig) (demoBoot true) twoUploads := by
  refine ⟨?hexpires,
    active_mission_immutable demoConfig true _ _ 0 true {} twoUploads (fun m hm => ?_) ?hexpires⟩
  · decide +kernel
  · cases hm
    exact .inl rfl

/-- The upload of link `true` is committed while the one of link `false` goes on, to the same
bank. -/
theorem active_mission_overwritten :
    ¬ Run.Along (step demoConfig) (KeepsActive demoConfig) (demoBoot true)
      (staleDownload ++ [fromGcs true 9 (waypoint 0), fromGcs true 10 (waypoint 1)] ++
        [fromGcs false 11 (waypoint 0)]) := by
  intro h
  have hlast := (Run.along_append.mp h).2.1
  apply hlast.writes ⟨.waypointsOffboard1, 0, .waypointsOffboard1, 2⟩
  · decide +kernel
  · decide

/-- The instance on which the event happens is not uploading to the bank. -/
def NotUploadedTo (bank : DmItem) (s : MissionSystem ι G) (e : MissionEvent ι) : Prop :=
  ¬ ((s.instances (actor e)).state = .getlist ∧ (s.instances (actor e)).transferDatamanId = bank)
deriving Decidable

/-- **Only an upload changes the items of its bank**: downloads, clearing, timeouts and uploads of
other lists leave them as they are, on any number of links and from any state. -/
theorem items_kept_without_upload (cfg : Config G) (s : MissionSystem ι G)
    (es : List (MissionEvent ι)) (bank : DmItem)
    (h : Run.Along (step cfg) (NotUploadedTo bank) s es) :
    (Run.after (step cfg) s es).dataman.items bank = s.dataman.items bank := by
  refine Run.after_of_invariant
    (I := fun r : MissionSystem ι G => r.dataman.items bank = s.dataman.items bank)
    (fun r e hr he => ?_) rfl h
  rcases (r.exec_move cfg e).wrote with ⟨-, hitems⟩ | ⟨hbusy, -, hothers⟩
  · exact (congrFun hitems bank).trans hr
  · exact (hothers bank fun hbank => he ⟨hbusy, hbank.symm⟩).trans hr

theorem items_kept_without_upload_twoUploads :
    (Run.after (step demoConfig) (demoBoot true) twoUploads).dataman.items .fencePoints0 =
      (demoBoot true).dataman.items .fencePoints0 :=
  items_kept_without_upload demoConfig _ twoUploads _ (by decide +kernel)

end MissionSystem

end Px4.Mavlink
