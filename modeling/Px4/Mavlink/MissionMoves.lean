import Px4.Mavlink.MissionHandlers
import Px4.Mavlink.MissionItems

/-!
# Every step of the mission manager is a move

The periodic part of the manager, and `handler_move`, which collects the moves of all handlers.
-/

namespace Px4.Mavlink

variable {ι G : Type*}

/-! ## The periodic part -/

namespace Ctx

/-- What `send` does before it looks at the timeouts. -/
structure Harmless (c d : Ctx G) : Prop where
  same : c.core.Same d.core
  flag_eq : d.core.flag = c.core.flag
  state_eq : d.me.state = c.me.state
  upload_eq : c.me.state = .getlist → d.core.upload = c.core.upload
  timeLastRecv_eq : d.me.timeLastRecv = c.me.timeLastRecv

theorem Harmless.refl (c : Ctx G) : Harmless c c :=
  ⟨.refl _, rfl, rfl, fun _ => rfl, rfl⟩

variable {c d : Ctx G}

theorem Harmless.trans {e : Ctx G} (h : Harmless c d) (h' : Harmless d e) : Harmless c e :=
  ⟨h.same.trans h'.same, h'.flag_eq.trans h.flag_eq, h'.state_eq.trans h.state_eq,
    fun hget => (h'.upload_eq (h.state_eq.trans hget)).trans (h.upload_eq hget),
    h'.timeLastRecv_eq.trans h.timeLastRecv_eq⟩

theorem Harmless.of_core_eq (h : d.core = c.core)
    (ht : d.me.timeLastRecv = c.me.timeLastRecv) : Harmless c d :=
  ⟨h ▸ .refl _, h ▸ rfl, congrArg Core.state h, fun _ => h ▸ rfl, ht⟩

theorem sendMissionCurrent_harmless (c : Ctx G) (seq status) :
    Harmless c (c.sendMissionCurrent seq status) :=
  .of_core_eq (core_sendMissionCurrent c) (by cases status <;> rfl)

variable {p : Prop} {result : MissionResultS} {status : Option VehicleStatusS} {now : UInt64}
  {sysid compid : UInt8} {seq : UInt16} {io : DatamanResults} {g : Guards G} {cfg : Config G}
  {m : MissionS} {x : Core G} {msg : Message} {body : Ctx G → Ctx G}

theorem Harmless.ite {e} [Decidable p] (hd : Harmless c d) (he : Harmless c e) :
    Harmless c (if p then d else e) := by
  split_ifs
  · exact hd
  · exact he

variable (c)

theorem reportCurrent_harmless : Harmless c (c.reportCurrent result status) := by
  have htake : Harmless c { c with
      shared.currentSeq := result.seqCurrent.toNat
      me.lastFinished := result.finished } :=
    ⟨⟨rfl, rfl, rfl, rfl, rfl⟩, rfl, rfl, fun _ => rfl, rfl⟩
  have htext : ∀ (p : Prop) [Decidable p] (o : Output G), Harmless c (if p then
      ({ c with
        shared.currentSeq := result.seqCurrent.toNat
        me.lastFinished := result.finished } : Ctx G).emit o
      else { c with
        shared.currentSeq := result.seqCurrent.toNat
        me.lastFinished := result.finished }) :=
    fun p _ o => .ite (htake.trans (.of_core_eq rfl rfl)) htake
  exact .ite ((htext _ _).trans (sendMissionCurrent_harmless _ _ status)) (htext _ _)

theorem reportReached_harmless : Harmless c (c.reportReached result) := by
  unfold reportReached
  split_ifs
  · exact .refl c
  · exact .of_core_eq rfl rfl
  · exact .of_core_eq rfl rfl

theorem timeLastRecv_sendMissionItem :
    (c.sendMissionItem now sysid compid seq io).me.timeLastRecv = c.me.timeLastRecv := by
  unfold sendMissionItem notifyFilesystemError
  dsimp only
  split
  · split_ifs <;> rfl
  · split_ifs <;> rfl

theorem resendJump_harmless : Harmless c (c.resendJump now result io) := by
  unfold resendJump
  split_ifs with hjump
  · have hcore := core_sendMissionItem { c with me.missionType := .mission } now
      c.me.transferPartnerSysid c.me.transferPartnerCompid result.itemChangedIndex io
    refine ⟨?_, ?_, ?_, fun hget => ?_, timeLastRecv_sendMissionItem ..⟩
    · rw [hcore]
      exact ⟨rfl, rfl, rfl, rfl, rfl⟩
    · rw [hcore]
      rfl
    · exact congrArg Core.state hcore
    · rw [hjump.2.2.2] at hget
      cases hget
  · exact .refl c

theorem handleMissionResult_harmless :
    Harmless c (c.handleMissionResult now result status io) := by
  refine Harmless.trans (d := { c with me.missionResult := result }) (.of_core_eq rfl rfl) ?_
  exact ((reportCurrent_harmless _).trans (reportReached_harmless _)).trans
    (resendJump_harmless _)

theorem sendSlow_harmless : Harmless c (c.sendSlow status) := by
  have hsend := c.sendMissionCurrent_harmless (toUInt16 c.shared.currentSeq) status
  exact .ite (hsend.trans (.of_core_eq rfl rfl)) hsend

variable {c}

/-- After something harmless, the timeouts: an upload or a download may be given up. -/
theorem checkTimeouts_move (h : Harmless c d)
    (hg : c.me.state = .sendlist → timedOut c.me now → g.expires) :
    Move g c.core (d.checkTimeouts cfg now).core := by
  have hkeep : ∀ e : Ctx G, e.core = d.core → Move g c.core e.core := by
    intro e heq
    rw [heq]
    exact .keep h.same h.flag_eq (by rw [show d.core.state = c.core.state from h.state_eq])
      h.upload_eq
  unfold checkTimeouts
  split_ifs with htimeout
  · -- the same test on the state before the event
    have htimeout' : timedOut c.me now := by
      unfold timedOut at htimeout ⊢
      rwa [h.state_eq, h.timeLastRecv_eq] at htimeout
    have hsame : c.core.Same
        (d.emit (.statustextCritical "Mission sync timeout\t")).abortTransfer.core :=
      ⟨h.same.1, h.same.2, h.same.3, h.same.4, h.same.5⟩
    cases hstate : c.me.state with
    | idle => simp [timedOut, hstate] at htimeout'
    | sendlist => exact .expire (hg hstate htimeout') hsame hstate rfl rfl
    | getlist => exact .stop hsame.tried hstate rfl rfl
  · exact hkeep _ (core_requestNext d)
  · exact hkeep _ (core_sendMissionCount ..)
  · exact hkeep _ rfl
  · exact hkeep _ rfl

variable (c)

theorem reportProgress_harmless (now : UInt64) (result slow status io) :
    Harmless c (c.reportProgress now result slow status io) := by
  cases result with
  | some result => exact c.handleMissionResult_harmless
  | none => exact .ite c.sendSlow_harmless (.refl c)

theorem send_move (cfg now result slow status io)
    (hg : c.me.iridium = false → c.me.state = .sendlist → timedOut c.me now → g.expires) :
    Move g c.core (c.send cfg now result slow status io).core := by
  unfold send
  split_ifs with hiridium
  · exact .of_eq rfl
  · exact checkTimeouts_move (c.reportProgress_harmless now result slow status io)
      (hg (by simpa using hiridium))

@[simp]
theorem core_refreshFence :
    (c.refreshFence m io).core = c.core := by
  unfold refreshFence
  split_ifs <;> simp

@[simp]
theorem core_refreshSafePoints (m io) : (c.refreshSafePoints m io).core = c.core := by
  unfold refreshSafePoints
  split_ifs <;> simp

theorem refreshMission_move (hcore : d.core = x)
    (hlast : x.published.getLast? = some m) : Move g x (d.refreshMission m).core := by
  subst hcore
  unfold refreshMission
  split_ifs
  · exact .refresh m hlast rfl rfl rfl rfl rfl rfl rfl rfl
  · exact .of_eq rfl

theorem checkActiveMission_move (io) : Move g c.core (c.checkActiveMission io).core := by
  unfold checkActiveMission
  by_cases hiridium : c.me.iridium
  · rw [if_pos hiridium]
    exact .of_eq rfl
  rw [if_neg hiridium]
  cases hlast : c.published.getLast? with
  | none => exact .of_eq rfl
  | some m =>
    dsimp only
    by_cases hseen : c.me.missionSubSeen = c.published.length
    · rw [if_pos hseen]
      exact .of_eq rfl
    rw [if_neg hseen]
    -- the statistics of the other lists are not part of the core
    have hcore := core_refreshSafePoints
      (refreshFence { c with me.missionSubSeen := c.published.length } m io) m io
    rw [core_refreshFence] at hcore
    exact refreshMission_move hcore hlast

/-! ## Every step is a move -/

/-- The event makes `send` give up a download. -/
def Expires : MissionEvent ι → Prop
  | .send _ now .. => c.me.iridium = false ∧ c.me.state = .sendlist ∧ timedOut c.me now = true
  | _ => False

/-- The message makes the instance publish again: a new current item or another list. -/
def RepublishesOn (cfg : Config G) (msg : Message) (io : DatamanResults) :
    Payload → Prop
  | .missionSetCurrent seq => c.me.state = .idle ∧ seq < c.shared.count.mission
  | .missionClearAll missionType => c.me.state = .idle ∧
    (missionType = .fence ∧ io.fenceStateWrite ∨ missionType = .rally ∧ io.safePointsStateWrite)
  | .missionCount count missionType => c.me.state = .idle ∧ count = 0 ∧
    c.shared.transferInProgress = false ∧
    (missionType = .fence ∧ io.fenceStateWrite ∨ missionType = .rally ∧ io.safePointsStateWrite)
  | .missionItem int wp => (c.completion cfg msg int wp io).isSome ∧
    c.CommitsOther (crc32ForMissionItem cfg wp c.me.transferCurrentCrc32) io
  | _ => False

/-- The event makes the instance publish the active mission again. -/
def Republishes (cfg : Config G) : MissionEvent ι → Prop
  | .message _ _ msg io =>
    checkSysidCompid cfg msg = true ∧ c.RepublishesOn cfg msg io msg.payload
  | _ => False

/-- The item that the message adds to the upload, with the checksum after it, if accepted. -/
def itemWith (cfg : Config G) (msg : Message)
    (accept : Bool → MavlinkMissionItem → Option (MissionItemS G)) :
    Option (MissionItemS G × UInt32) :=
  match msg.payload with
  | .missionItem int wp =>
    (accept int wp).map (·, crc32ForMissionItem cfg wp c.me.transferCurrentCrc32)
  | _ => none

/-- The item that the message adds to the upload, and the checksum of the upload with it. -/
def stores (cfg : Config G) (msg : Message) (io : DatamanResults) :
    Option (MissionItemS G × UInt32) :=
  c.itemWith cfg msg fun int wp => c.storedItem cfg msg int wp io

/-- The last item of the upload that the message completes, and the checksum of the upload. -/
def completes (cfg : Config G) (msg : Message) (io : DatamanResults) :
    Option (MissionItemS G × UInt32) :=
  c.itemWith cfg msg fun int wp => c.completion cfg msg int wp io

/-- The message asks for the deletion of a list. -/
def Clears (msg : Message) : Prop :=
  match msg.payload with
  | .missionClearAll _ => True
  | .missionCount count _ => count = 0
  | _ => False

/-- The message announces an upload, and no other one is in progress. -/
def Starts (cfg : Config G) (msg : Message) : Prop :=
  checkSysidCompid cfg msg = true ∧ c.me.state = .idle ∧ c.shared.transferInProgress = false ∧
  match msg.payload with
  | .missionCount count _ => count ≠ 0
  | _ => False

/-- The guards of the moves for an event. -/
def guards (cfg : Config G) : MissionEvent ι → Guards G
  | .message i now msg io =>
    { expires := False
      republishes := c.Republishes cfg (.message i now msg io)
      clears := Clears msg
      starts := c.Starts cfg msg
      stores := fun item crc32 => c.stores cfg msg io = some (item, crc32)
      completes := fun item crc32 => c.completes cfg msg io = some (item, crc32) }
  | .send i now result slow status io =>
    { Guards.none with expires := c.Expires (.send i now result slow status io) }
  | .checkActiveMission .. => Guards.none

theorem guards_expires {e : MissionEvent ι} : (c.guards cfg e).expires ↔ c.Expires e := by
  cases e <;> exact Iff.rfl

theorem guards_republishes {e : MissionEvent ι} :
    (c.guards cfg e).republishes ↔ c.Republishes cfg e := by
  cases e <;> exact Iff.rfl

variable {c}

theorem ifForUs_move
    (hx : c.core = x) (h : checkSysidCompid cfg msg → Move g x (body c).core) :
    Move g x (c.ifForUs cfg msg body).core := by
  unfold ifForUs
  split_ifs with hus
  · exact h hus
  · exact .of_eq hx

theorem handleMessage_move {i : ι} (c : Ctx G) :
    Move (c.guards cfg (.message i now msg io)) c.core (c.handleMessage cfg now msg io).core := by
  unfold handleMessage
  cases hpayload : msg.payload with
  | missionAck type missionType =>
    exact ifForUs_move rfl fun _ => c.handleMissionAck_move
  | missionSetCurrent seq =>
    refine ifForUs_move rfl fun hus => ?_
    refine c.handleMissionSetCurrent_move now fun hidle hseq => ?_
    simp only [guards, Republishes, hpayload]
    exact ⟨hus, hidle, hseq⟩
  | missionRequestList missionType =>
    exact ifForUs_move rfl fun _ => c.handleMissionRequestList_move now
  | missionRequest int seq missionType =>
    exact ifForUs_move rfl fun _ =>
      handleMissionRequestBoth_move { c with me.intMode := int } now msg seq missionType io
  | missionCount count missionType =>
    refine ifForUs_move rfl fun hus => ?_
    apply c.handleMissionCount_move
    · intro hzero
      simp only [guards, Clears, hpayload]
      exact hzero
    · intro hidle hpos hfree
      simp only [guards, Starts, hpayload]
      exact ⟨hus, hidle, hfree, hpos⟩
    · intro hidle hzero hfree hother
      simp only [guards, Republishes, hpayload]
      exact ⟨hus, hidle, hzero, hfree, hother⟩
  | missionItem int wp =>
    refine ifForUs_move rfl fun hus => ?_
    apply handleMissionItemBoth_move (c := { c with me.intMode := int }) cfg now msg wp io hus
    · intro item h
      simp only [guards, stores, itemWith, hpayload]
      rw [← storedItem_intMode c int, h]
      rfl
    · intro item h
      simp only [guards, completes, itemWith, hpayload]
      rw [← completion_intMode, h]
      rfl
    · intro item h hcommits
      simp only [guards, Republishes, RepublishesOn, hpayload]
      rw [← completion_intMode, h]
      exact ⟨hus, rfl, hcommits⟩
  | missionClearAll missionType =>
    refine ifForUs_move rfl fun hus => ?_
    apply c.handleMissionClearAll_move
    · simp [guards, Clears, hpayload]
    · intro hidle hother
      simp only [guards, Republishes, hpayload]
      exact ⟨hus, hidle, hother⟩

end Ctx

/-- **Every step is a move** of the instance on which it happens. -/
theorem MissionSystem.handler_move {cfg : Config G} {c : Ctx G} {e : MissionEvent ι} :
    Move (c.guards cfg e) c.core (handler cfg c e).core := by
  cases e with
  | message i now msg io => exact c.handleMessage_move
  | send i now result slow status io =>
    exact c.send_move cfg now result slow status io fun hiridium hstate htimeout =>
      ⟨hiridium, hstate, htimeout⟩
  | checkActiveMission i io => exact c.checkActiveMission_move io

end Px4.Mavlink
