import Px4.Commander.ExternalChecks

/-!
# Isolation of external registrations

`checkAndReport` takes the registration of a reply from the id inside the reply buffer. Before its
first reply, the buffer of a slot is either zeroed, and then names slot 0, or holds the last reply
of an earlier registration. Apart from this a slot speaks for its own registration only.
-/

namespace Px4.Commander

open BitVec Function

/-- The checks, and the last reply that was accepted for the current registration of each slot. -/
structure TrackedChecks where
  checks : ExternalChecks := {}
  answers : Slot → Option ReplyContent := fun _ => none

namespace Registration

/-- The registration is for the mode, replaces it, or is a generic arming check. -/
def Concerns (reg : Registration) (mode : NavMode) : Prop :=
  reg.navModeId = none ∨ reg.navModeId = some mode ∨ reg.replacesNavState = some mode

/-- What a registration may add to the report: nothing without a buffer, else what its last answer
says; without an answer, that it cannot run. -/
def ownContribution (reg : Registration) (answer : Option ReplyContent)
    (acc : Report × NavModes) : Report × NavModes :=
  if reg.reply.isSome then reg.contribution (answer.getD {}) acc else acc

end Registration

/-! ## The bits of a mode -/

/-- The arming bits, mode requirements and unresponsive modes agree at the mode. -/
structure SameModeBits (mode : NavMode) (x y : Report × NavModes) : Prop where
  canArm : x.1.canArm.getLsbD mode = y.1.canArm.getLsbD mode
  modeReq : ∀ requirement, (x.1.failsafeFlags.modeReq requirement).getLsbD mode =
    (y.1.failsafeFlags.modeReq requirement).getLsbD mode
  modeReqOther : x.1.failsafeFlags.modeReqOther.getLsbD mode =
    y.1.failsafeFlags.modeReqOther.getLsbD mode
  unresponsive : x.2.getLsbD mode = y.2.getLsbD mode

theorem Report.getLsbD_getModeGroup {mode mode' : NavMode} :
    (getModeGroup mode).getLsbD mode' = decide (mode = mode') := by
  unfold getModeGroup
  rw [getLsbD_twoPow, decide_eq_true mode.isLt]
  exact decide_eq_decide.mpr Fin.val_inj

open Report

theorem Report.getLsbD_clearArmingBits (r : Report) (modes : NavModes) (mode : NavMode) :
    (r.clearArmingBits modes).canArm.getLsbD mode =
      (r.canArm.getLsbD mode && !modes.getLsbD mode) := by
  unfold clearArmingBits
  rw [getLsbD_and, getLsbD_not, decide_eq_true mode.isLt, Bool.true_and]

variable {navState mode : NavMode} {replacesNavState : Option NavMode} {requirementSet : Bool}
  {bits : NavModes}

theorem getLsbD_setOrClearRequirementBits (hnav : navState ≠ mode)
    (hreplaces : replacesNavState ≠ some mode) :
    (setOrClearRequirementBits requirementSet navState replacesNavState bits).getLsbD mode =
      bits.getLsbD mode := by
  have hset :
      (if requirementSet then bits ||| getModeGroup navState else bits).getLsbD mode =
        bits.getLsbD mode := by
    split_ifs
    · rw [getLsbD_or, getLsbD_getModeGroup, decide_eq_false hnav, Bool.or_false]
    · rfl
  unfold setOrClearRequirementBits
  cases replacesNavState with
  | none => exact hset
  | some replaced =>
    have hne : replaced ≠ mode := fun h => hreplaces (congrArg some h)
    split_ifs at hset ⊢
    · rw [getLsbD_or, hset, getLsbD_getModeGroup, decide_eq_false hne, Bool.or_false]
    · rw [getLsbD_and, getLsbD_not, getLsbD_getModeGroup, decide_eq_false hne]
      simp

namespace Registration

variable {reg : Registration}

variable (reg)

theorem getLsbD_modes {mode : NavMode} : reg.modes.getLsbD mode ↔ reg.Concerns mode := by
  unfold modes Concerns
  cases hnav : reg.navModeId with
  | none =>
    rw [getLsbD_allOnes]
    simp
  | some navMode =>
    cases hreplaces : reg.replacesNavState with
    | none =>
      rw [getLsbD_getModeGroup]
      simp
    | some replaced =>
      rw [getLsbD_or, getLsbD_getModeGroup, getLsbD_getModeGroup]
      simp

theorem reportReply_canArm {reply r} :
    (reg.reportReply reply r).canArm =
      if reply.canArmAndRun then r.canArm else r.canArm &&& ~~~reg.modes := by
  have hrequirements : (reg.requirements reply r).canArm = r.canArm := by
    unfold requirements
    split
    · rfl
    · split_ifs <;> rfl
  unfold reportReply
  split_ifs <;> simp [addExternalEvents, setHealth, clearArmingBits, hrequirements]

theorem reportReply_failsafeFlags {reply r} :
    (reg.reportReply reply r).failsafeFlags = (reg.requirements reply r).failsafeFlags := by
  unfold reportReply
  split_ifs <;> rfl

variable {reg}

theorem contribution_sameModeBits (h : ¬ reg.Concerns mode) {reply : ReplyContent} {acc} :
    SameModeBits mode (reg.contribution reply acc) acc := by
  obtain ⟨hgeneric, hnav, hreplaces⟩ : reg.navModeId ≠ none ∧ reg.navModeId ≠ some mode ∧
      reg.replacesNavState ≠ some mode := by
    unfold Concerns at h
    push Not at h
    exact h
  obtain ⟨navMode, hmode⟩ := Option.ne_none_iff_exists'.mp hgeneric
  have hne : navMode ≠ mode := fun heq => hnav (hmode.trans (congrArg some heq))
  unfold contribution
  split_ifs with hunresponsive
  · unfold reportUnresponsive
    rw [hmode]
    have hnone : (none : Option NavMode) ≠ some mode := (Option.some_ne_none mode).symm
    refine ⟨rfl, fun _ => rfl, getLsbD_setOrClearRequirementBits hne hnone, ?_⟩
    rw [getLsbD_or, getLsbD_getModeGroup, decide_eq_false hne, Bool.or_false]
  · refine ⟨?_, fun requirement => ?_, ?_, rfl⟩
    · have hmodes : reg.modes.getLsbD mode = false :=
        Bool.eq_false_iff.mpr ((getLsbD_modes reg).not.mpr h)
      rw [reportReply_canArm]
      split_ifs
      · rfl
      · rw [getLsbD_and, getLsbD_not, hmodes]
        simp
    · rw [reportReply_failsafeFlags]
      unfold requirements
      rw [hmode]
      split_ifs
      · exact getLsbD_setOrClearRequirementBits hne hreplaces
      · exact getLsbD_setOrClearRequirementBits hne hreplaces
    · rw [reportReply_failsafeFlags]
      unfold requirements
      rw [hmode]
      split_ifs
      · rfl
      · exact getLsbD_setOrClearRequirementBits hne hreplaces

theorem contribution_of_unresponsive (h : reg.unresponsive) {reply reply'} :
    reg.contribution reply = reg.contribution reply' := by
  funext acc
  unfold contribution
  rw [if_pos h, if_pos h]

end Registration

/-! ## The accepted replies -/

namespace TrackedChecks

open ExternalChecks

variable {t : TrackedChecks} {s : ExternalChecks} {answers : Slot → Option ReplyContent} {i : Slot}

/-- The answers after a reply. -/
def recordAnswer (s : ExternalChecks) (now : HrtAbstime) (answers : Slot → Option ReplyContent)
    (reply : ArmingCheckReply) : Slot → Option ReplyContent :=
  match s.acceptedFor now reply with
  | none => answers
  | some i => Function.update answers i (some reply.content)

/-- The answers after an event: a new registration has none. -/
def nextAnswers (t : TrackedChecks) : Event → Slot → Option ReplyContent
  | .addRegistration navModeId replacesNavState allocated =>
    match (t.checks.addRegistration navModeId replacesNavState allocated).2 with
    | none => t.answers
    | some i => Function.update t.answers i none
  | .update now replies =>
    (replies.take replyQueueLength).foldl (recordAnswer t.checks now) t.answers
  | _ => t.answers

def step (t : TrackedChecks) (e : Event) : TrackedChecks where
  checks := t.checks.step e
  answers := t.nextAnswers e

/-- Unless it waits for its first response, the buffer has the last answer and names the slot. -/
structure SlotTracked (i : Slot) (reg : Registration) (answer : Option ReplyContent) : Prop where
  answered : reg.waitingForFirstResponse = false →
    ∃ content, answer = some content ∧
      ∀ stored, reg.reply = some stored → stored = { registrationId := i, content }
  waiting : reg.waitingForFirstResponse = true → answer = none

/-- `SlotTracked` for all slots, whether they are registered or not. -/
def Tracked (s : ExternalChecks) (answers : Slot → Option ReplyContent) : Prop :=
  ∀ i, SlotTracked i (s.registrations i) (answers i)

variable {reg reg' : Registration} {answer : Option ReplyContent} {now : HrtAbstime}
  {reply reply' : ArmingCheckReply}

/-- A change that concerns neither the buffer nor what the slot is waiting for. -/
theorem SlotTracked.congr (h : SlotTracked i reg answer) (hreply : reg'.reply = reg.reply)
    (hwaiting : reg'.waitingForFirstResponse = reg.waitingForFirstResponse) :
    SlotTracked i reg' answer where
  answered := by
    rw [hwaiting, hreply]
    exact h.answered
  waiting := by
    rw [hwaiting]
    exact h.waiting

theorem Tracked.set (h : Tracked s answers) (hreg : SlotTracked i reg answer) :
    Tracked (s.setRegistration i reg) (Function.update answers i answer) := by
  intro j
  change SlotTracked j (Function.update s.registrations i reg j) _
  by_cases hji : j = i
  · subst hji
    rw [update_self, update_self]
    exact hreg
  · rw [update_of_ne hji, update_of_ne hji]
    exact h j

theorem Tracked.add (h : Tracked t.checks t.answers) (navModeId replacesNavState allocated) :
    let r := t.step (.addRegistration navModeId replacesNavState allocated)
    Tracked r.checks r.answers := by
  unfold step nextAnswers ExternalChecks.step addRegistration
  cases (List.finRange maxNumRegistrations).find? fun i => !t.checks.registrationValid i with
  | none => exact h
  | some i =>
    -- the new registration is waiting
    apply Tracked.set h
    exact ⟨nofun, fun _ => rfl⟩

theorem SlotTracked.received (i reg content) :
    SlotTracked i (received reg i content) (some content) where
  answered := by
    intro _
    refine ⟨content, rfl, fun stored hstored => ?_⟩
    obtain ⟨_, _, rfl⟩ := Option.map_eq_some_iff.mp hstored
    rfl
  waiting := nofun

theorem acceptedFor_receiveReply :
    (receiveReply now s reply).acceptedFor now reply' = s.acceptedFor now reply' := by
  unfold receiveReply
  split
  · rfl
  · rfl

theorem Tracked.receive (h : Tracked s answers) (now : HrtAbstime)
    (replies : List ArmingCheckReply) :
    Tracked (replies.foldl (receiveReply now) s) (replies.foldl (recordAnswer s now) answers) := by
  induction replies generalizing s answers with
  | nil => exact h
  | cons reply replies ih =>
    have hnext : Tracked (receiveReply now s reply) (recordAnswer s now answers reply) := by
      unfold receiveReply recordAnswer
      cases s.acceptedFor now reply with
      | none => exact h
      | some i => exact Tracked.set h (.received i _ _)
    have hrecord : recordAnswer (receiveReply now s reply) now = recordAnswer s now := by
      funext answers' reply'
      unfold recordAnswer
      rw [acceptedFor_receiveReply]
    have hrest := ih hnext
    rw [hrecord] at hrest
    exact hrest

theorem registrationValid_of_mask_eq_zero (hmask : s.activeRegistrationsMask = 0) :
    s.registrationValid i = false := by
  unfold registrationValid
  rw [hmask]
  simp

theorem recordAnswer_of_mask_eq_zero (hmask : s.activeRegistrationsMask = 0) (now reply) :
    recordAnswer s now answers reply = answers := by
  have hnone : s.acceptedFor now reply = none := by
    unfold acceptedFor
    by_cases hrange : reply.registrationId.toNat < maxNumRegistrations
    · rw [dif_pos hrange]
      refine if_neg fun h => ?_
      cases (registrationValid_of_mask_eq_zero hmask).symm.trans h.1
    · rw [dif_neg hrange]
  unfold recordAnswer
  rw [hnone]

theorem Tracked.missedReply (h : Tracked s answers) (i) : Tracked (s.missedReply i) answers := by
  have hset : ∀ reg : Registration, reg.reply = (s.registrations i).reply →
      reg.waitingForFirstResponse = (s.registrations i).waitingForFirstResponse →
      Tracked (s.setRegistration i reg) answers := by
    intro reg hreply hwaiting
    have hnext := h.set ((h i).congr hreply hwaiting)
    rwa [update_eq_self] at hnext
  unfold ExternalChecks.missedReply
  dsimp only
  generalize (if (s.registrations i).waitingForFirstResponse then
    numNoReplyUntilUnresponsiveInit else numNoReplyUntilUnresponsive) = maxNumNoReply
  split_ifs
  · exact h
  · split
    · -- a generic check is removed, which does not concern its slot
      unfold removeRegistration
      split_ifs
      · exact hset _ rfl rfl
      · exact hset _ rfl rfl
    · exact hset _ rfl rfl
  · exact hset _ rfl rfl

theorem Tracked.checkTimeout (h : Tracked s answers) (now) :
    Tracked (s.checkTimeout now) answers := by
  unfold ExternalChecks.checkTimeout
  split_ifs
  · unfold handleTimeout
    have hstart : Tracked { s with hadTimeout := true } answers := h
    generalize { s with hadTimeout := true } = s' at hstart ⊢
    induction List.finRange maxNumRegistrations generalizing s' with
    | nil => exact hstart
    | cons i is ih =>
      rw [List.foldl_cons]
      split_ifs
      · exact ih _ (hstart.missedReply i)
      · exact ih _ hstart
  · exact h

theorem Tracked.update (h : Tracked t.checks t.answers) (now : HrtAbstime)
    (replies : List ArmingCheckReply) :
    Tracked (t.step (.update now replies)).checks (t.step (.update now replies)).answers := by
  have hreceived := h.receive now (replies.take replyQueueLength)
  unfold step nextAnswers ExternalChecks.step ExternalChecks.update
  dsimp only
  split_ifs with hnone
  · rw [List.foldl_fixed' (recordAnswer_of_mask_eq_zero hnone now)]
    exact h
  · unfold startRequest
    split_ifs
    · exact hreceived.checkTimeout now
    · exact hreceived.checkTimeout now

theorem Tracked.step (h : Tracked t.checks t.answers) (e) :
    Tracked (t.step e).checks (t.step e).answers := by
  cases e with
  | addRegistration navModeId replacesNavState allocated => exact h.add _ _ _
  | removeRegistration i navModeId =>
    unfold TrackedChecks.step ExternalChecks.step removeRegistration
    dsimp only
    split_ifs
    · exact h
    · exact h
  | update now replies => exact h.update now replies
  | checkAndReport => exact h
  | setExternalNavStates => exact h

theorem tracked_init : Tracked ({} : TrackedChecks).checks ({} : TrackedChecks).answers :=
  fun _ => ⟨nofun, fun _ => rfl⟩

/-! ## Isolation -/

/-- In a report, the slot adds what its own answer allows, and only for the modes it concerns. -/
def Isolated (i : Slot) (t : TrackedChecks) : Event → Prop
  | .checkAndReport .. => t.checks.registrationValid i = true → ∀ acc,
    t.checks.contribute acc i = (t.checks.registrations i).ownContribution (t.answers i) acc ∧
    ∀ mode, ¬ (t.checks.registrations i).Concerns mode →
      SameModeBits mode (t.checks.contribute acc i) acc
  | _ => True

/-- In a report, the slot is not waiting for its first response; or its buffer names the slot, and
the slot is unresponsive or its buffer is still zeroed. -/
def Ready (i : Slot) (t : TrackedChecks) : Event → Prop
  | .checkAndReport .. => t.checks.registrationValid i = true →
    (t.checks.registrations i).waitingForFirstResponse = false ∨
    ∀ stored, (t.checks.registrations i).reply = some stored → stored.registrationId = i ∧
      ((t.checks.registrations i).unresponsive = true ∨ stored.content = {})
  | _ => True

theorem contribute_eq_ownContribution (h : SlotTracked i (s.registrations i) (answers i))
    (hvalid : s.registrationValid i) (hready : (s.registrations i).waitingForFirstResponse = false ∨
      ∀ stored, (s.registrations i).reply = some stored → stored.registrationId = i ∧
      ((s.registrations i).unresponsive ∨ stored.content = {})) (acc) :
    s.contribute acc i = (s.registrations i).ownContribution (answers i) acc := by
  unfold contribute Registration.ownContribution
  rw [if_pos hvalid]
  cases hreply : (s.registrations i).reply with
  | none => rfl
  | some stored =>
    rw [if_pos (Option.isSome_some ..)]
    cases hwaiting : (s.registrations i).waitingForFirstResponse with
    | false =>
      obtain ⟨content, hanswer, hstored⟩ := h.answered hwaiting
      rw [hstored stored hreply, hanswer]
      rfl
    | true =>
      have hnotfalse : (s.registrations i).waitingForFirstResponse ≠ false := by simp [hwaiting]
      obtain ⟨hid, hor⟩ := hready.resolve_left hnotfalse stored hreply
      dsimp only
      rw [hid, h.waiting hwaiting]
      rcases hor with hunresponsive | hzero
      · rw [Registration.contribution_of_unresponsive hunresponsive]
      · rw [hzero]
        rfl

/-- **Registrations do not interfere**: in a run in which a slot is ready whenever a report is made,
it speaks for its own registration only, and from the replies that were received for it. -/
theorem contribution_isolated (i : Slot) (es : List Event)
    (hready : Run.Along step (Ready i) {} es) : Run.Along step (Isolated i) {} es := by
  apply Run.along_of_invariant (I := fun t : TrackedChecks => Tracked t.checks t.answers)
    (C := Ready i)
  · exact fun t e h _ => h.step e
  · intro t e h hready
    cases e with
    | checkAndReport userIntention failsafeFlags =>
      intro hvalid acc
      have hown := contribute_eq_ownContribution (h i) hvalid (hready hvalid) acc
      refine ⟨hown, fun mode hmode => ?_⟩
      rw [hown]
      unfold Registration.ownContribution
      split_ifs
      · exact Registration.contribution_sameModeBits hmode
      · exact ⟨rfl, fun _ => rfl, rfl, rfl⟩
    | addRegistration => trivial
    | removeRegistration => trivial
    | update => trivial
    | setExternalNavStates => trivial
  · exact tracked_init
  · exact hready

def twoModes : List Event :=
  [.setExternalNavStates 23 30, .addRegistration (some 23) none true,
    .addRegistration (some 24) none true]

/-- The modes answer the first request, and are reported. -/
def answeredModes : List Event :=
  twoModes ++ [.update 400000 [],
    .update 410000 [
      { timestamp := 405000, requestId := 1, registrationId := 1,
        content := { canArmAndRun := true } }],
    .checkAndReport 24 {}]

theorem contribution_isolated_answered :
    Run.Along step (Ready 1) {} answeredModes ∧ Run.Along step (Isolated 1) {} answeredModes := by
  have hready : Run.Along step (Ready 1) {} answeredModes := by
    refine ⟨trivial, trivial, trivial, trivial, trivial, fun _ => .inl ?_, trivial⟩
    decide +kernel
  exact ⟨hready, contribution_isolated 1 answeredModes hready⟩

/-- Before any reply, the second slot clears the arming bit of the first mode, not of its own. -/
theorem contribution_interferes :
    ¬ Run.Along step (Isolated 1) {} (twoModes ++ [.checkAndReport 24 {}]) := by
  intro h
  have hlast := (Run.along_append.mp h).2.1
  obtain ⟨hown, -⟩ := hlast (by decide +kernel) (Report.reset {}, 0)
  have hbit := congrArg (fun acc => acc.1.canArm.getLsbD 24) hown
  revert hbit
  decide +kernel

end TrackedChecks

end Px4.Commander
