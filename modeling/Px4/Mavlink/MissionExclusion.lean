import Px4.Common.Run
import Px4.Mavlink.MissionMoves
import Mathlib.Data.Fintype.Basic

/-!
# Mutual exclusion of mission uploads

The static `_transfer_in_progress` is a lock: an instance takes it when an upload begins and gives
it back when the upload ends. A download does not take it, but `send` clears it when a download runs
into the protocol timeout as well.
-/

namespace Px4.Mavlink

variable {ι G : Type*}

namespace Ctx

instance decidableExpires (c : Ctx G) : (e : MissionEvent ι) → Decidable (c.Expires e)
  | .send .. => inferInstanceAs (Decidable (_ ∧ _))
  | .message .. => isFalse id
  | .checkActiveMission .. => isFalse id

/-- A download that expires clears the transfer flag. -/
theorem Expires.flag_eq {c : Ctx G} {e : MissionEvent ι} (h : c.Expires e) (cfg : Config G) :
    (MissionSystem.handler cfg c e).shared.transferInProgress = false := by
  cases e with
  | message => exact h.elim
  | checkActiveMission => exact h.elim
  | send i now result slow status io =>
    obtain ⟨hiridium, -, htimeout⟩ := h
    have hharmless := c.reportProgress_harmless now result slow status io
    have htimeout' : timedOut (c.reportProgress now result slow status io).me now := by
      unfold timedOut at htimeout ⊢
      rwa [hharmless.state_eq, hharmless.timeLastRecv_eq]
    change (c.send cfg now result slow status io).shared.transferInProgress = false
    unfold send checkTimeouts
    rw [if_neg (by simp [hiridium]), if_pos htimeout']
    rfl

end Ctx

/-! ## Steps of the system -/

namespace MissionSystem

theorem exec_move (cfg : Config G) (s : MissionSystem ι G) (e : MissionEvent ι) :
    Move ((s.ctx (actor e)).guards cfg e) (s.ctx (actor e)).core (s.exec cfg e).core :=
  handler_move

variable [DecidableEq ι]

variable {cfg : Config G} {e : MissionEvent ι} {i : ι}

theorem instances_step_self {s : MissionSystem ι G} :
    (s.step cfg e).instances (actor e) = (s.exec cfg e).me :=
  Function.update_self ..

theorem core_step_self {cfg : Config G} (s : MissionSystem ι G) {e} :
    ((s.step cfg e).ctx (actor e)).core = { (s.exec cfg e).core with writes := [] } := by
  unfold ctx
  rw [instances_step_self]
  rfl

theorem instances_step_of_ne (s : MissionSystem ι G)
    (h : i ≠ actor e) : (s.step cfg e).instances i = s.instances i :=
  Function.update_of_ne h ..

/-- An upload after a step is that of the instance that acted, or was not touched. -/
theorem uploading_of_step {s : MissionSystem ι G}
    (hi : ((s.step cfg e).instances i).state = .getlist) :
    (i = actor e ∧ (s.exec cfg e).core.state = .getlist) ∨
      (i ≠ actor e ∧ (s.instances i).state = .getlist) := by
  by_cases hne : i = actor e
  · rw [hne, instances_step_self] at hi
    exact .inl ⟨hne, hi⟩
  · rw [s.instances_step_of_ne hne] at hi
    exact .inr ⟨hne, hi⟩

end MissionSystem

/-! ## The start -/

namespace MissionSystem

/-- The first instance has loaded the stored mission, if it could read it, and has published it. -/
structure Loaded (dataman : Dataman G) (readOk : Bool) (x : Core G) : Prop where
  state_eq : x.state = .idle
  items_eq : x.items = dataman.items
  active : readOk = false ∧ x.active = ⟨.waypointsOffboard0, 0, 0⟩ ∧ x.markers = (-1, -1) ∨
    readOk = true ∧ x.active = (dataman.missionState.getD .zeros).active ∧
      x.markers = (dataman.missionState.getD .zeros).markers
  published : ∃ m, x.published = [m] ∧ MissionS.active m = x.active ∧
    MissionS.markers m = x.markers

theorem Loaded.of_core {dataman : Dataman G} {readOk : Bool} {c : Ctx G} (now : UInt64)
    (hstate : c.core.state = .idle) (hitems : c.core.items = dataman.items)
    (hactive : readOk = false ∧ c.core.active = ⟨.waypointsOffboard0, 0, 0⟩ ∧
        c.core.markers = (-1, -1) ∨
      readOk = true ∧ c.core.active = (dataman.missionState.getD .zeros).active ∧
        c.core.markers = (dataman.missionState.getD .zeros).markers)
    (hpublished : c.core.published = []) :
    Loaded dataman readOk (c.updateActiveMission now c.shared.missionDatamanId
      c.shared.count.mission c.shared.currentSeq c.shared.crc32.mission false).core :=
  ⟨hstate, hitems, hactive, c.missionMessage now, congrArg (· ++ [c.missionMessage now]) hpublished,
    rfl, rfl⟩

theorem construct_loaded (dataman : Dataman G) (iridium : Bool) (now : UInt64) (readOk : Bool)
    (io : DatamanResults) :
    Loaded dataman readOk (construct dataman iridium now readOk io).core := by
  unfold construct
  cases readOk with
  | false => exact Loaded.of_core now rfl rfl (.inl ⟨rfl, rfl, rfl⟩) rfl
  | true =>
    -- the statistics of the other lists are not part of the core
    have hcore := Ctx.core_loadSafepointStats ((Ctx.initOffboardMission
      { shared := {}, dataman, me := { iridium }, published := [] }
      (dataman.missionState.getD .zeros)).loadGeofenceStats io) io
    rw [Ctx.core_loadGeofenceStats] at hcore
    apply Loaded.of_core
    · exact congrArg Core.state hcore
    · exact congrArg Core.items hcore
    · rw [if_pos rfl, hcore]
      exact .inr ⟨rfl, rfl, rfl⟩
    · exact congrArg Core.published hcore

variable [DecidableEq ι]

theorem boot_state (first : ι) (dataman : Dataman G) (iridium : ι → Bool) (now : UInt64)
    (readOk : Bool) (io : DatamanResults) (i : ι) :
    ((boot first dataman iridium now readOk io).instances i).state = .idle := by
  unfold boot
  dsimp only
  split_ifs
  · exact (construct_loaded dataman (iridium first) now readOk io).state_eq
  · rfl

end MissionSystem

/-! ## The lock -/

/-- The lock under a move: it stays, is taken, or is given up, also by a download's expiry. -/
theorem Move.lock {g : Guards G} {x y : Core G} (h : Move g x y) :
    y.flag = x.flag ∧ (y.state = .getlist ↔ x.state = .getlist) ∨
    x.flag = false ∧ y.flag ∨
    (x.state = .getlist ∨ g.expires) ∧ y.state ≠ .getlist := by
  cases h with
  | keep _ hflag hstate _ => exact .inl ⟨hflag, hstate⟩
  | announce _ _ hidle hstate hflag => exact .inl ⟨hflag, by simp [hidle, hstate]⟩
  | clear _ _ hidle hstate hflag => exact .inl ⟨hflag, by simp [hidle, hstate]⟩
  | start _ _ _ hfree _ hflag => exact .inr (.inl ⟨hfree, hflag⟩)
  | stop _ hbusy hstate => exact .inr (.inr ⟨.inl hbusy, by simp [hstate]⟩)
  | expire hguard _ _ hstate => exact .inr (.inr ⟨.inr hguard, by simp [hstate]⟩)
  | progress _ _ _ hbusy h => exact .inl ⟨h.flag_eq, by simp [hbusy, h.state_eq]⟩
  | finish _ _ _ hbusy _ _ h => exact .inr (.inr ⟨.inl hbusy, by simp [h.state_eq]⟩)
  | finishOther hbusy _ hstate => exact .inr (.inr ⟨.inl hbusy, by simp [hstate]⟩)
  | refresh _ _ hstate _ hflag => exact .inl ⟨hflag, by rw [hstate]⟩

namespace MissionSystem

/-- At most one instance is uploading, and only while the transfer flag is set. -/
structure Exclusive (s : MissionSystem ι G) : Prop where
  unique : ∀ i j, (s.instances i).state = .getlist → (s.instances j).state = .getlist → i = j
  flag : ∀ i, (s.instances i).state = .getlist → s.shared.transferInProgress = true

/-- No download expires while an instance is uploading. -/
def NoForeignTimeout (s : MissionSystem ι G) (e : MissionEvent ι) : Prop :=
  ∀ i, (s.instances i).state = .getlist → ¬ (s.ctx (actor e)).Expires e

instance [Fintype ι] (s : MissionSystem ι G) (e : MissionEvent ι) :
    Decidable (s.NoForeignTimeout e) :=
  Fintype.decidableForallFintype

variable [DecidableEq ι] {s : MissionSystem ι G} {e : MissionEvent ι}

theorem Exclusive.step (h : s.Exclusive) (cfg : Config G) (hexpires : s.NoForeignTimeout e) :
    (s.step cfg e).Exclusive := by
  rcases (s.exec_move cfg e).lock with ⟨hflag, hstate⟩ | ⟨hfree, hflag⟩ | ⟨hrelease, hstate⟩
  · -- whoever is uploading was uploading before
    have hback : ∀ i, ((s.step cfg e).instances i).state = .getlist →
        (s.instances i).state = .getlist := by
      intro i hi
      rcases uploading_of_step hi with ⟨rfl, hstep⟩ | ⟨-, hbefore⟩
      · exact hstate.mp hstep
      · exact hbefore
    refine ⟨fun i j hi hj => h.unique i j (hback i hi) (hback j hj), fun i hi => ?_⟩
    exact hflag.trans (h.flag i (hback i hi))
  · -- the flag was clear, so nobody was uploading
    have hactor : ∀ i, ((s.step cfg e).instances i).state = .getlist → i = actor e := by
      intro i hi
      rcases uploading_of_step hi with ⟨rfl, -⟩ | ⟨-, hi⟩
      · rfl
      · have hset := h.flag i hi
        have hclear : s.shared.transferInProgress = false := hfree
        simp [hclear] at hset
    refine ⟨fun i j hi hj => ?_, fun i _ => hflag⟩
    rw [hactor i hi, hactor j hj]
  · -- nobody is uploading any more
    have hnone : ∀ i, ((s.step cfg e).instances i).state ≠ .getlist := by
      intro i hi
      rcases uploading_of_step hi with ⟨-, hi⟩ | ⟨hne, hi⟩
      · exact hstate hi
      · rcases hrelease with hbusy | hexp
        · exact hne (h.unique i _ hi hbusy)
        · exact hexpires i hi ((Ctx.guards_expires ..).mp hexp)
    exact ⟨fun i _ hi => absurd hi (hnone i), fun i hi => absurd hi (hnone i)⟩

/-- A download that expires while an instance is uploading takes its lock away. -/
theorem Exclusive.of_step (cfg : Config G) (h : (s.step cfg e).Exclusive) :
    s.NoForeignTimeout e := by
  intro i hi hexpires
  have hne : i ≠ actor e := by
    intro heq
    have hsend : (s.instances (actor e)).state = .sendlist := by
      cases e with
      | send => exact hexpires.2.1
      | message => exact hexpires.elim
      | checkActiveMission => exact hexpires.elim
    rw [heq, hsend] at hi
    cases hi
  have hset := h.flag i (by rw [s.instances_step_of_ne hne]; exact hi)
  have hclear : (s.step cfg e).shared.transferInProgress = false := hexpires.flag_eq cfg
  simp [hclear] at hset

theorem boot_exclusive {first : ι} {dataman : Dataman G} {iridium : ι → Bool} {now : UInt64}
    {readOk : Bool} {io : DatamanResults} :
    (boot first dataman iridium now readOk io).Exclusive := by
  have hidle := boot_state first dataman iridium now readOk io
  refine ⟨fun i _ hi => ?_, fun i hi => ?_⟩
  · rw [hidle] at hi
    cases hi
  · rw [hidle] at hi
    cases hi

/-- **Uploads exclude each other exactly in the runs in which no download expires while an instance
is uploading.** -/
theorem upload_exclusion (cfg : Config G) (first : ι) (dataman : Dataman G) (iridium : ι → Bool)
    (now : UInt64) (readOk : Bool) (io : DatamanResults) (es : List (MissionEvent ι)) :
    Run.Always (step cfg) Exclusive (boot first dataman iridium now readOk io) es ↔
      Run.Along (step cfg) NoForeignTimeout (boot first dataman iridium now readOk io) es := by
  apply Run.always_iff_along
  · intro s e h
    exact ⟨Exclusive.of_step cfg, h.step cfg⟩
  · exact boot_exclusive

end MissionSystem

/-! ## A vehicle with two links -/

/-- `Nat.rec` on the argument, so that the kernel evaluates it before it goes on. -/
def strictly {α : Type*} (f : ℕ → α) : ℕ → α
  | 0 => f 0
  | n + 1 => f (n + 1)

/-- The last `n` of the eight bits of a byte of a CRC-32. -/
def crc32Bits : ℕ → ℕ → ℕ
  | 0, crc => crc
  | n + 1, crc => strictly (crc32Bits n) (if crc % 2 = 1 then crc / 2 ^^^ 0xEDB88320 else crc / 2)

def crc32Bytes : List UInt8 → ℕ → ℕ
  | [], crc => crc
  | byte :: bytes, crc => strictly (crc32Bytes bytes) (crc32Bits 8 (crc ^^^ byte.toNat))

/-- `crc32part` of the C library, without its table. -/
def crc32part (bytes : List UInt8) (crc : UInt32) : UInt32 :=
  (crc32Bytes bytes crc.toNat).toUInt32

/-- A vehicle whose parser knows waypoints, landings and the start of a landing sequence. -/
def demoConfig : Config Unit where
  sysid := 1
  compid := 1
  missionMax := 500
  parse _ _ wp :=
    if wp.frame = 3 ∧ (wp.command = 16 ∨ wp.command = NavCmd.land) ∨
      wp.frame = 2 ∧ wp.command = NavCmd.doLandStart then .ok ⟨wp.command, 0, ()⟩
    else .error .unsupported
  crc32part := crc32part

/-- The storage of a vehicle whose lists have been cleared. -/
def clearedStorage : Dataman Unit where
  items := fun _ _ => none
  missionState := some
    ⟨0, .waypointsOffboard0, .fencePoints0, .safePoints0, 0, 0, -1, -1, 0, 0, 0⟩
  fencePointsState := some ⟨0, 0, .fencePoints0⟩
  safePointsState := some ⟨0, 0, .safePoints0⟩

def demoBoot {ι : Type*} [DecidableEq ι] (first : ι) : MissionSystem ι Unit :=
  .boot first clearedStorage (fun _ => false) 0 true {}

/-- A message of a ground station on link `i`, at a time in seconds. -/
def fromGcs {ι : Type*} (i : ι) (seconds : UInt64) (payload : Payload) (io : DatamanResults := {}) :
    MissionEvent ι :=
  .message i (seconds * 1000000) ⟨255, 190, 1, 1, payload⟩ io

def waypoint (seq : UInt16) : Payload :=
  .missionItem true { seq, frame := 3, command := 16 }

/-- The periodic part of link `i`, at a time in seconds. -/
def sendAt {ι : Type*} (i : ι) (seconds : UInt64) : MissionEvent ι :=
  .send i (seconds * 1000000) none false none {}

namespace MissionSystem

/-- A download on link `false` expires during an upload on `true`; a second upload begins. -/
def staleDownload : List (MissionEvent Bool) :=
  [fromGcs false 1 (.missionRequestList .mission), fromGcs true 4 (.missionCount 2 .mission),
    sendAt false 7, fromGcs false 8 (.missionCount 2 .mission)]

/-- Two uploads at the same time. -/
theorem upload_exclusion_violated :
    ¬ Run.Always (step demoConfig) Exclusive (demoBoot true) staleDownload := by
  intro h
  have hfirst : ((Run.after (step demoConfig) (demoBoot true) staleDownload).instances true).state
      = .getlist := by decide
  have hsecond : ((Run.after (step demoConfig) (demoBoot true) staleDownload).instances false).state
      = .getlist := by decide
  cases h.last.unique true false hfirst hsecond

end MissionSystem

end Px4.Mavlink
