import Px4.Commander.ExternalIsolation

/-!
# Arming of modes that have not answered

A newly registered mode should not be armable before its first reply. What `checkAndReport` clears
for such a mode depends on what is left in the reply buffers.
-/

namespace Px4.Commander

open Report

namespace ExternalChecks

variable {s : ExternalChecks} {mode : NavMode}

variable (s)

/-- The slot clears the arming bit of the mode: its buffer names it as unresponsive, or denies
arming. -/
def Blocks (i : Slot) (mode : NavMode) : Prop :=
  s.registrationValid i = true ∧ ∃ stored, (s.registrations i).reply = some stored ∧
    let reg := s.registrations stored.registrationId
    (reg.unresponsive = true ∧ reg.navModeId = some mode ∨
      reg.unresponsive = false ∧ stored.content.canArmAndRun = false ∧ reg.Concerns mode)

/-- The arming bit of the mode is set, and the mode is not unresponsive. -/
def Open (mode : NavMode) (acc : Report × NavModes) : Prop :=
  acc.1.canArm.getLsbD mode = true ∧ acc.2.getLsbD mode = false

theorem open_reportUnresponsive {reg : Registration} {acc} :
    Open mode (reg.reportUnresponsive acc) ↔ Open mode acc ∧ reg.navModeId ≠ some mode := by
  unfold Registration.reportUnresponsive
  cases hnav : reg.navModeId with
  | none => simp
  | some navMode =>
    have hbits : (acc.2 ||| getModeGroup navMode).getLsbD mode =
        (acc.2.getLsbD mode || decide (navMode = mode)) := by
      rw [BitVec.getLsbD_or, getLsbD_getModeGroup]
    change (acc.1.canArm.getLsbD mode ∧ (acc.2 ||| _).getLsbD mode = false) ↔ _
    rw [hbits, Bool.or_eq_false_iff, ← and_assoc]
    simp [Open]

theorem open_reportReply {reg : Registration} {reply acc} :
    Open mode (reg.reportReply reply acc.1, acc.2) ↔
      Open mode acc ∧ ¬ (reply.canArmAndRun = false ∧ reg.Concerns mode) := by
  unfold Open
  rw [reg.reportReply_canArm]
  cases hcan : reply.canArmAndRun with
  | true => simp
  | false =>
    have hbits : (acc.1.canArm &&& ~~~reg.modes).getLsbD mode =
        (acc.1.canArm.getLsbD mode && !reg.modes.getLsbD mode) :=
      acc.1.getLsbD_clearArmingBits reg.modes mode
    rw [if_neg Bool.false_ne_true, hbits, Bool.and_eq_true_iff, Bool.not_eq_true',
      ← Bool.not_eq_true, reg.getLsbD_modes]
    constructor
    · rintro ⟨⟨hbit, hnot⟩, hresponsive⟩
      exact ⟨⟨hbit, hresponsive⟩, fun h => hnot h.2⟩
    · rintro ⟨⟨hbit, hresponsive⟩, hnot⟩
      exact ⟨⟨hbit, fun h => hnot ⟨rfl, h⟩⟩, hresponsive⟩

variable {acc : Report × NavModes} {i : Slot} {userIntention : NavMode} {r : Report}

theorem open_contribute : Open mode (s.contribute acc i) ↔ Open mode acc ∧ ¬ s.Blocks i mode := by
  unfold contribute Blocks
  by_cases hvalid : s.registrationValid i
  · rw [if_pos hvalid]
    cases hreply : (s.registrations i).reply with
    | none => simp
    | some stored =>
      dsimp only
      unfold Registration.contribution
      cases hunresponsive : (s.registrations stored.registrationId).unresponsive with
      | true =>
        rw [if_pos rfl, open_reportUnresponsive]
        simp [hvalid, hunresponsive]
      | false =>
        rw [if_neg Bool.false_ne_true, open_reportReply]
        simp [hvalid, hunresponsive]
  · simp [hvalid]

theorem open_foldl {is : List Slot} :
    Open mode (is.foldl s.contribute acc) ↔ Open mode acc ∧ ∀ i ∈ is, ¬ s.Blocks i mode := by
  induction is generalizing acc with
  | nil => simp
  | cons i is ih =>
    rw [List.foldl_cons, ih, open_contribute, and_assoc, List.forall_mem_cons]

variable {s}

/-- The modes without registration are not those of a registration. -/
theorem not_mem_nonRegisteredModes (hvalid : s.registrationValid i)
    (hmode : (s.registrations i).navModeId = some mode) : mode ∉ s.nonRegisteredModes := by
  have hregistered : s.registered mode := by
    apply List.any_eq_true.mpr
    exact ⟨i, List.mem_finRange i, by simp [hvalid, hmode]⟩
  unfold nonRegisteredModes
  simp [hregistered]

/-- `checkNonRegisteredModes` only clears arming bits of modes without registration. -/
theorem checkNonRegisteredModes_canArm (h : mode ∉ s.nonRegisteredModes) :
    (s.checkNonRegisteredModes userIntention r).canArm.getLsbD mode = r.canArm.getLsbD mode := by
  have hclear : ∀ (r : Report) (mode' : NavMode), mode' ∈ s.nonRegisteredModes →
      (r.clearArmingBits (getModeGroup mode')).canArm.getLsbD mode = r.canArm.getLsbD mode := by
    intro r mode' hmode'
    have hne : mode' ≠ mode := fun heq => h (heq ▸ hmode')
    rw [getLsbD_clearArmingBits, getLsbD_getModeGroup, decide_eq_false hne,
      Bool.not_false, Bool.and_true]
  have hfold : ∀ modes : List NavMode, (∀ mode' ∈ modes, mode' ∈ s.nonRegisteredModes) →
      ∀ r : Report,
        (modes.foldl (fun r mode' =>
          (r.clearArmingBits (getModeGroup mode')).mapModeReqOther
            (setOrClearRequirementBits true mode' none)) r).canArm.getLsbD mode =
        r.canArm.getLsbD mode := by
    intro modes
    induction modes with
    | nil => exact fun _ _ => rfl
    | cons mode' modes ih =>
      intro hmodes r
      obtain ⟨hhead, htail⟩ := List.forall_mem_cons.mp hmodes
      exact (ih htail _).trans (hclear r mode' hhead)
  unfold checkNonRegisteredModes
  split_ifs with huser
  · exact (hclear _ userIntention huser).trans (hfold _ (fun _ h => h) r)
  · exact hfold _ (fun _ h => h) r

theorem canArmIn_finalize {r : Report} : r.finalize.canArmIn mode = r.canArm.getLsbD mode := by
  unfold canArmIn finalize getModeGroup
  rw [Bool.true_and, BitVec.and_twoPow]
  split_ifs with hbit
  · rw [hbit, bne_iff_ne]
    intro hzero
    have hself := congrArg (·.getLsbD mode) hzero
    simp at hself
  · simpa using hbit

/-- After the loop, the bits of the unresponsive modes are cleared. -/
theorem canArm_reportFailure :
    (if acc.2 ≠ 0 then acc.1.armingCheckFailure acc.2 .externalModesUnresponsive
      else acc.1).canArm.getLsbD mode ↔ Open mode acc := by
  unfold Open
  split_ifs with hmodes
  · have hbits := acc.1.getLsbD_clearArmingBits acc.2 mode
    change (acc.1.clearArmingBits acc.2).canArm.getLsbD mode ↔ _
    rw [hbits, Bool.and_eq_true_iff, Bool.not_eq_true']
  · have hzero : acc.2 = 0 := not_not.mp hmodes
    simp [hzero]

/-- A registered mode cannot be armed after a report exactly if a slot blocks it. -/
theorem canArmIn_checkAndReport (hvalid : s.registrationValid i)
    (hmode : (s.registrations i).navModeId = some mode) {userIntention : NavMode} {failsafeFlags} :
    (s.checkAndReport userIntention (.reset failsafeFlags)).finalize.canArmIn mode = false ↔
      ∃ j, s.Blocks j mode := by
  have hmask : s.activeRegistrationsMask ≠ 0 := by
    intro hzero
    cases (TrackedChecks.registrationValid_of_mask_eq_zero hzero).symm.trans hvalid
  have hstart : Open mode (s.checkNonRegisteredModes userIntention (.reset failsafeFlags), 0) := by
    refine ⟨?_, BitVec.getLsbD_zero⟩
    rw [checkNonRegisteredModes_canArm (not_mem_nonRegisteredModes hvalid hmode)]
    exact BitVec.getLsbD_allOnes.trans (decide_eq_true mode.isLt)
  have hopen : (s.checkAndReport userIntention (.reset failsafeFlags)).canArm.getLsbD mode ↔
      ∀ j, ¬ s.Blocks j mode := by
    unfold checkAndReport
    rw [if_neg hmask, canArm_reportFailure, open_foldl, and_iff_right hstart]
    exact ⟨fun h j => h j (List.mem_finRange j), fun h j _ => h j⟩
  rw [canArmIn_finalize, ← Bool.not_eq_true, hopen]
  push Not
  rfl

end ExternalChecks

namespace TrackedChecks

open ExternalChecks

/-- In a report, no registered mode can be armed for which no reply has been accepted. -/
def UnansweredNotArmable (t : TrackedChecks) : Event → Prop
  | .checkAndReport userIntention failsafeFlags => ∀ i mode,
    t.checks.registrationValid i = true → (t.checks.registrations i).navModeId = some mode →
      t.answers i = none →
      (t.checks.checkAndReport userIntention (.reset failsafeFlags)).finalize.canArmIn mode = false
  | _ => True

/-- In a report, every registered mode for which no reply has been accepted is blocked by a slot. -/
def UnansweredBlocked (t : TrackedChecks) : Event → Prop
  | .checkAndReport .. => ∀ i mode,
    t.checks.registrationValid i = true → (t.checks.registrations i).navModeId = some mode →
      t.answers i = none → ∃ j, t.checks.Blocks j mode
  | _ => True

theorem unansweredNotArmable_iff {t : TrackedChecks} {e} :
    t.UnansweredNotArmable e ↔ t.UnansweredBlocked e := by
  cases e with
  | checkAndReport userIntention failsafeFlags =>
    constructor
    · intro h i mode hvalid hmode hanswer
      exact (canArmIn_checkAndReport hvalid hmode).mp (h i mode hvalid hmode hanswer)
    · intro h i mode hvalid hmode hanswer
      exact (canArmIn_checkAndReport hvalid hmode).mpr (h i mode hvalid hmode hanswer)
  | addRegistration => exact Iff.rfl
  | removeRegistration => exact Iff.rfl
  | update => exact Iff.rfl
  | setExternalNavStates => exact Iff.rfl

/-- **A mode that has never answered cannot be armed** in the reports of a run exactly if each such
mode is blocked by a slot whenever a report is made. -/
theorem unanswered_modes_blocked (es : List Event) :
    Run.Along step UnansweredNotArmable {} es ↔ Run.Along step UnansweredBlocked {} es := by
  apply Run.along_iff_of_invariant (I := fun _ => True)
  · exact fun _ _ _ _ => trivial
  · exact fun t e _ _ => unansweredNotArmable_iff
  · trivial
  · exact fun _ _ => trivial

/-- The zeroed buffer of the second mode names the first slot, and no slot blocks the second
mode. -/
theorem unanswered_mode_armable :
    ¬ Run.Along step UnansweredNotArmable {} (twoModes ++ [.checkAndReport 24 {}]) := by
  intro h
  have hlast := (Run.along_append.mp h).2.1
  have harmable := hlast 1 24 (by decide +kernel) (by decide +kernel) (by decide +kernel)
  revert harmable
  decide +kernel

end TrackedChecks

end Px4.Commander
