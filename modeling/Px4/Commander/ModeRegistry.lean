import Mathlib.Algebra.Group.Nat.Defs
import Px4.Commander.ModeManagement

/-!
# The registry of external modes

The references between the modes, the executors and the registrations are consistent as long as
every component is removed with the ids that it was given. A message of `checkUnregistrations`
carries ids of its own: the arming check is removed before the name of the mode is compared, and the
executor by the id in the message.
-/

namespace Px4.Commander

open BitVec Bool Function List Option

namespace ExternalChecks

variable {s s' : ExternalChecks} {i j : Slot} {mode : NavMode}

variable (s)

/-- The registration is active, and for the mode. -/
def Names (i : Slot) (mode : NavMode) : Prop :=
  s.registrationValid i = true ∧ (s.registrations i).navModeId = some mode

/-- Only bits of slots are set in the mask. -/
def LowMask : Prop := s.activeRegistrationsMask.toNat < 2 ^ maxNumRegistrations

theorem slot_lt : (i : ℕ) < 32 := i.isLt.trans (by decide)

theorem slotBit_lt : ∀ i : Slot, (slotBit i).toNat < 2 ^ maxNumRegistrations := by
  decide

theorem registrationValid_eq : s.registrationValid i = s.activeRegistrationsMask.getLsbD i := by
  have hone : twoPow 32 (i : ℕ) ≠ 0#32 := by
    intro h
    have hbit := congrArg (getLsbD · i) h
    simp [slot_lt] at hbit
  unfold registrationValid slotBit
  rw [twoPow_and]
  cases hbit : s.activeRegistrationsMask.getLsbD i with
  | false => rfl
  | true => simpa using hone

variable {s}

theorem exists_not_valid (hlow : s.LowMask) (hfree : s.activeRegistrationsMask ≠ 0xff) :
    ∃ i, s.registrationValid i = false := by
  by_contra hall
  push Not at hall
  have hfull : ∀ n < 2 ^ maxNumRegistrations, (∀ i : Slot, n.testBit i) → n = 0xff := by
    decide +kernel
  refine hfree (eq_of_toNat_eq (hfull _ hlow fun i => ?_))
  have hvalid := eq_true_of_not_eq_false (hall i)
  rwa [registrationValid_eq] at hvalid

theorem addRegistration_spec (hfree : ∃ i, s.registrationValid i = false)
    (navModeId replacesNavState allocated) :
    let r := s.addRegistration navModeId replacesNavState allocated
    ∃ slot, r.2 = some slot ∧ (∀ mode, navModeId = some mode → Names r.1 slot mode) ∧
      ∀ i mode, Names s i mode → Names r.1 i mode := by
  unfold addRegistration
  cases hfind : (finRange maxNumRegistrations).find? fun i => !s.registrationValid i with
  | none =>
    obtain ⟨i, hi⟩ := hfree
    have hall := find?_eq_none.mp hfind i (mem_finRange i)
    simp [hi] at hall
  | some slot =>
    have hslot : s.registrationValid slot = false := by simpa using find?_some hfind
    refine ⟨slot, rfl, fun mode hmode => ?_, fun i mode hi => ?_⟩
    · refine ⟨?_, ?_⟩
      · rw [registrationValid_eq]
        simp [setRegistration, slotBit, slot_lt]
      · simp [setRegistration, newRegistration, hmode]
    · have hne : i ≠ slot := by
        rintro rfl
        cases hslot.symm.trans hi.1
      have hvalid := hi.1
      rw [registrationValid_eq] at hvalid
      refine ⟨?_, ?_⟩
      · rw [registrationValid_eq]
        simp [setRegistration, hvalid]
      · simp [setRegistration, hne, hi.2]

theorem addRegistration_lowMask (hlow : s.LowMask) (navModeId replacesNavState allocated) :
    (s.addRegistration navModeId replacesNavState allocated).1.LowMask := by
  unfold addRegistration
  split
  · exact hlow
  · exact (toNat_or ..).trans_lt (Nat.or_lt_two_pow hlow (slotBit_lt _))

variable {navModeId : Option NavMode} {s'' : ExternalChecks} {α : Type*} {reg : Registration}

theorem removeRegistration_lowMask (hlow : s.LowMask) :
    (s.removeRegistration i navModeId).1.LowMask := by
  unfold removeRegistration
  split_ifs
  · exact (toNat_and ..).trans_lt (Nat.and_le_left.trans_lt hlow)
  · exact hlow

theorem Names.removeRegistration (h : Names s j mode) (hother : j ≠ i ∨ navModeId ≠ some mode) :
    Names (s.removeRegistration i navModeId).1 j mode := by
  unfold ExternalChecks.removeRegistration
  split_ifs with hremove
  · have hne : j ≠ i := by
      rintro rfl
      rcases hother with hother | hother
      · exact hother rfl
      · exact hother (hremove.2.symm.trans h.2)
    refine ⟨?_, h.2⟩
    have hvalid := h.1
    have hji : (j : ℕ) ≠ i := fun hji => hne (Fin.ext hji)
    rw [registrationValid_eq] at hvalid ⊢
    simp [slotBit, hvalid, slot_lt, hji]
  · exact h

/-- The registrations of modes are kept. -/
structure Keeps (s s' : ExternalChecks) : Prop where
  names : ∀ i mode, Names s i mode → Names s' i mode
  lowMask : s.LowMask → s'.LowMask

theorem Keeps.refl (s) : Keeps s s := ⟨fun _ _ h => h, id⟩

theorem Keeps.trans (h : Keeps s s') (h' : Keeps s' s'') : Keeps s s'' :=
  ⟨fun i mode hi => h'.names i mode (h.names i mode hi), fun hlow => h'.lowMask (h.lowMask hlow)⟩

theorem Keeps.foldl {f}
    (hf : ∀ s a, Keeps s (f s a)) (s : ExternalChecks) (as : List α) : Keeps s (as.foldl f s) := by
  induction as generalizing s with
  | nil => exact .refl s
  | cons a as ih => exact (hf s a).trans (ih (f s a))

theorem keeps_setRegistration (hmask : s'.activeRegistrationsMask = s.activeRegistrationsMask)
    (hregistrations : s'.registrations = s.registrations)
    (hnav : reg.navModeId = (s.registrations i).navModeId) :
    Keeps s (s'.setRegistration i reg) := by
  refine ⟨fun j mode hj => ⟨?_, ?_⟩, fun hlow => ?_⟩
  · have hvalid := hj.1
    rw [registrationValid_eq] at hvalid ⊢
    simpa [setRegistration, hmask] using hvalid
  · unfold setRegistration
    by_cases hji : j = i
    · subst hji
      simp [hnav, hj.2]
    · simp [hji, hregistrations, hj.2]
  · unfold LowMask setRegistration
    rw [hmask]
    exact hlow

theorem keeps_receiveReply (now s reply) : Keeps s (receiveReply now s reply) := by
  unfold receiveReply
  split
  · exact .refl s
  · exact keeps_setRegistration rfl rfl rfl

variable (s)

theorem keeps_missedReply : Keeps s (s.missedReply i) := by
  unfold missedReply
  dsimp only
  generalize (if (s.registrations i).waitingForFirstResponse then
    numNoReplyUntilUnresponsiveInit else numNoReplyUntilUnresponsive) = maxNumNoReply
  split_ifs
  · exact .refl s
  · split
    · -- only a registration that is no mode is removed
      have hcounted : Keeps s (s.setRegistration i
          { s.registrations i with numNoResponse := (s.registrations i).numNoResponse + 1 }) :=
        keeps_setRegistration rfl rfl rfl
      refine hcounted.trans ⟨fun j mode hj => hj.removeRegistration (.inr ?_), fun hlow => ?_⟩
      · exact (some_ne_none mode).symm
      · exact removeRegistration_lowMask hlow
    · exact keeps_setRegistration rfl rfl rfl
  · exact keeps_setRegistration rfl rfl rfl

theorem keeps_handleTimeout : Keeps s s.handleTimeout := by
  have hflagged : Keeps s { s with hadTimeout := true } := ⟨fun _ _ h => h, id⟩
  refine hflagged.trans (Keeps.foldl (fun s i => ?_) _ _)
  split_ifs
  · exact keeps_missedReply s
  · exact .refl s

variable (now : HrtAbstime)

theorem keeps_checkTimeout : Keeps s (s.checkTimeout now) := by
  unfold checkTimeout
  split_ifs
  · exact keeps_handleTimeout s
  · exact .refl s

theorem keeps_startRequest : Keeps s (s.startRequest now).1 := by
  unfold startRequest
  split_ifs
  · exact ⟨fun _ _ h => h, id⟩
  · exact .refl s

theorem keeps_update (replies : List ArmingCheckReply) : Keeps s (s.update now replies).1 := by
  unfold update
  split_ifs
  · exact .refl s
  · have hreceived := Keeps.foldl (keeps_receiveReply now) s (replies.take replyQueueLength)
    exact (hreceived.trans (keeps_checkTimeout _ now)).trans (keeps_startRequest _ now)

end ExternalChecks

namespace ModeManagement

open ExternalChecks

variable {m m' : ModeManagement} {i j : ModeIdx}

structure Consistent (m : ModeManagement) : Prop where
  /-- a mode names an active registration for it -/
  registered : ∀ i, (m.modes i).valid = true → ∃ slot,
    (m.modes i).armingCheckRegistrationId = some slot ∧
      m.externalChecks.Names slot (navModeOf i)
  /-- an executor owns a mode that names it -/
  owned : ∀ e, (m.modeExecutors e).valid = true → ∃ i,
    (m.modeExecutors e).ownedNavState = some i ∧ (m.modes i).valid = true ∧
      (m.modes i).modeExecutorRegistrationId = some e
  inCharge : ∀ e, m.modeExecutorInCharge = some e → (m.modeExecutors e).valid = true
  replaces : ∀ i j, (m.modes i).valid = true → (m.modes j).valid = true →
    (m.modes i).replacesNavState = (m.modes j).replacesNavState →
    (m.modes i).replacesNavState ≠ replacesNavStateNone → i = j

/-- What is kept by the steps: besides, the executor that a mode names owns it. -/
structure Inv (m : ModeManagement) : Prop extends Consistent m where
  lowMask : m.externalChecks.LowMask
  owns : ∀ i e, (m.modes i).valid = true → (m.modes i).modeExecutorRegistrationId = some e →
    (m.modeExecutors e).valid = true ∧ (m.modeExecutors e).ownedNavState = some i

theorem navModeOf_injective : Function.Injective navModeOf := by
  intro i j h
  exact Fin.ext (Nat.add_left_cancel (congrArg Fin.val h))

variable {s : ExternalChecks} {mode : Mode} {n : ℕ} {w : Option UInt32} {name : Name} {slot : Slot}
  {userIntendedNavState : NavState} {change : ChangeRequest} {requests : List UnregisterRequest}
  {e : Event}

theorem Inv.setChecks (h : Inv m) (hlow : s.LowMask)
    (hnames : ∀ i slot, (m.modes i).valid →
      (m.modes i).armingCheckRegistrationId = some slot →
      m.externalChecks.Names slot (navModeOf i) → s.Names slot (navModeOf i)) :
    Inv { m with externalChecks := s } where
  __ := h
  registered i hi := by
    obtain ⟨slot, hslot, hnamed⟩ := h.registered i hi
    exact ⟨slot, hslot, hnames i slot hi hslot hnamed⟩
  lowMask := hlow

/-- A mode is removed, with the executor that it names. -/
structure Removed (m : ModeManagement) (i : ModeIdx) (m' : ModeManagement) : Prop where
  valid : (m.modes i).valid = true
  modes : m'.modes = Function.update m.modes i { m.modes i with valid := false }
  owned : ∀ e, (m'.modeExecutors e).ownedNavState = (m.modeExecutors e).ownedNavState
  executors : ∀ e, (m'.modeExecutors e).valid = true ↔
    (m.modeExecutors e).valid = true ∧ (m.modes i).modeExecutorRegistrationId ≠ some e
  inCharge : ∀ e, m'.modeExecutorInCharge = some e →
    m.modeExecutorInCharge = some e ∧ (m.modes i).modeExecutorRegistrationId ≠ some e
  lowMask : m'.externalChecks.LowMask
  names : ∀ j slot, j ≠ i → m.externalChecks.Names slot (navModeOf j) →
    m'.externalChecks.Names slot (navModeOf j)

theorem Removed.other (h : Removed m i m') (hj : j ≠ i) : m'.modes j = m.modes j := by
  rw [h.modes, update_of_ne hj]

theorem Removed.ne (h : Removed m i m') (hj : (m'.modes j).valid) : j ≠ i := by
  rintro rfl
  rw [h.modes, update_self] at hj
  cases hj

theorem Inv.remove (h : Inv m) (hremoved : Removed m i m') : Inv m' := by
  refine ⟨⟨fun j hj => ?_, fun e he => ?_, fun e he => ?_, fun j k hj hk => ?_⟩, hremoved.lowMask,
    fun j e hj he => ?_⟩
  · have hji := hremoved.ne hj
    rw [hremoved.other hji] at hj ⊢
    obtain ⟨slot, hslot, hnamed⟩ := h.registered j hj
    exact ⟨slot, hslot, hremoved.names j slot hji hnamed⟩
  · obtain ⟨hvalid, hother⟩ := (hremoved.executors e).mp he
    obtain ⟨j, hj, hjvalid, hje⟩ := h.owned e hvalid
    have hji : j ≠ i := by
      rintro rfl
      exact hother hje
    refine ⟨j, (hremoved.owned e).trans hj, ?_⟩
    rw [hremoved.other hji]
    exact ⟨hjvalid, hje⟩
  · obtain ⟨hold, hother⟩ := hremoved.inCharge e he
    exact (hremoved.executors e).mpr ⟨h.inCharge e hold, hother⟩
  · have hji := hremoved.ne hj
    have hki := hremoved.ne hk
    rw [hremoved.other hji] at hj ⊢
    rw [hremoved.other hki] at hk ⊢
    exact h.replaces j k hj hk
  · have hji := hremoved.ne hj
    rw [hremoved.other hji] at hj he
    obtain ⟨hvalid, howner⟩ := h.owns j e hj he
    refine ⟨(hremoved.executors e).mpr ⟨hvalid, fun hie => hji ?_⟩, (hremoved.owned e).trans howner⟩
    -- the executor that the removed mode names owns no other one
    exact some_injective _ (howner.symm.trans (h.owns i e hremoved.valid hie).2)

/-- A mode is added, with the executor that it names. -/
structure Added (m : ModeManagement) (i : ModeIdx) (mode : Mode) (m' : ModeManagement) : Prop where
  free : (m.modes i).valid = false
  modes : m'.modes = Function.update m.modes i mode
  valid : mode.valid = true
  new : ∀ e, mode.modeExecutorRegistrationId = some e → (m.modeExecutors e).valid = false ∧
    m'.modeExecutors e = { ownedNavState := some i, valid := true }
  old : ∀ e, mode.modeExecutorRegistrationId ≠ some e → m'.modeExecutors e = m.modeExecutors e
  inCharge : m'.modeExecutorInCharge = m.modeExecutorInCharge
  replaces : mode.replacesNavState ≠ replacesNavStateNone → ∀ j, (m.modes j).valid = true →
    (m.modes j).replacesNavState ≠ mode.replacesNavState
  keeps : Keeps m.externalChecks m'.externalChecks
  registered : ∃ slot, mode.armingCheckRegistrationId = some slot ∧
    m'.externalChecks.Names slot (navModeOf i)

namespace Added

variable {mode : Mode}

variable (h : Added m i mode m')
include h

theorem self : m'.modes i = mode := by
  rw [h.modes, update_self]

theorem other (hj : j ≠ i) : m'.modes j = m.modes j := by
  rw [h.modes, update_of_ne hj]

theorem ne (hj : (m.modes j).valid) : j ≠ i := by
  rintro rfl
  cases h.free.symm.trans hj

theorem kept {e : ExecutorIdx}
    (he : (m.modeExecutors e).valid) : m'.modeExecutors e = m.modeExecutors e := by
  refine h.old e fun hnamed => ?_
  cases (h.new e hnamed).1.symm.trans he

variable {k : ModeIdx}

theorem replaces_injective (hinv : Inv m)
    (hj : (m'.modes j).valid) (hk : (m'.modes k).valid)
    (heq : (m'.modes j).replacesNavState = (m'.modes k).replacesNavState)
    (hsome : (m'.modes j).replacesNavState ≠ replacesNavStateNone) : j = k := by
  by_cases hji : j = i <;> by_cases hki : k = i
  · exact hji.trans hki.symm
  · subst hji
    rw [h.self] at heq hsome
    rw [h.other hki] at hk heq
    exact absurd heq.symm (h.replaces hsome k hk)
  · subst hki
    rw [h.other hji] at hj heq hsome
    rw [h.self] at heq
    exact absurd heq (h.replaces (heq ▸ hsome) j hj)
  · rw [h.other hji] at hj heq hsome
    rw [h.other hki] at hk heq
    exact hinv.replaces j k hj hk heq hsome

end Added

theorem Inv.add (h : Inv m) (hadded : Added m i mode m') : Inv m' := by
  refine ⟨⟨fun j hj => ?_, fun e he => ?_, fun e he => ?_,
    fun j k hj hk heq hsome => hadded.replaces_injective h hj hk heq hsome⟩,
    hadded.keeps.lowMask h.lowMask, fun j e hj he => ?_⟩
  · by_cases hji : j = i
    · subst hji
      rw [hadded.self]
      exact hadded.registered
    · rw [hadded.other hji] at hj ⊢
      obtain ⟨slot, hslot, hnamed⟩ := h.registered j hj
      exact ⟨slot, hslot, hadded.keeps.names _ _ hnamed⟩
  · by_cases hie : mode.modeExecutorRegistrationId = some e
    · rw [(hadded.new e hie).2]
      refine ⟨i, rfl, ?_⟩
      rw [hadded.self]
      exact ⟨hadded.valid, hie⟩
    · rw [hadded.old e hie] at he ⊢
      obtain ⟨j, hj, hjvalid, hje⟩ := h.owned e he
      refine ⟨j, hj, ?_⟩
      rw [hadded.other (hadded.ne hjvalid)]
      exact ⟨hjvalid, hje⟩
  · rw [hadded.inCharge] at he
    have hevalid := h.inCharge e he
    rwa [hadded.kept hevalid]
  · by_cases hji : j = i
    · subst hji
      rw [hadded.self] at he
      rw [(hadded.new e he).2]
      exact ⟨rfl, rfl⟩
    · rw [hadded.other hji] at hj he
      obtain ⟨hevalid, howner⟩ := h.owns j e hj he
      rw [hadded.kept hevalid]
      exact ⟨hevalid, howner⟩

/-! ## Registration -/

theorem exists_find?_not_valid {valid : Fin n → Bool}
    (hfree : ((finRange n).any fun i => !valid i)) :
    ∃ i, (finRange n).find? (fun i => !valid i) = some i ∧ valid i = false := by
  obtain ⟨j, hj, hinvalid⟩ := any_eq_true.mp hfree
  have hsome : ((finRange n).find? fun i => !valid i).isSome :=
    find?_isSome.mpr ⟨j, hj, hinvalid⟩
  obtain ⟨i, hi⟩ := isSome_iff_exists.mp hsome
  exact ⟨i, hi, by simpa using find?_some hi⟩

/-- What `addExternalMode` may choose: a free index, and what its parameter is set to. -/
inductive Choice (m : ModeManagement) (hash : UInt32) (i : ModeIdx) : Option UInt32 → Prop where
  /-- The mode was registered before. -/
  | again (hfree : (m.modes i).valid = false) (hhash : m.modeHashes i = hash) : Choice m hash i none
  /-- It is still registered, and there is an unused index. -/
  | unused {j : ModeIdx} (hfree : (m.modes i).valid = false) (hhash : m.modeHashes j = hash)
      (hvalid : (m.modes j).valid = true) : Choice m hash i none
  /-- It is still registered, and there is no unused index. -/
  | reset {j : ModeIdx} (hfree : (m.modes i).valid = false) (hhash : m.modeHashes j = hash)
      (hvalid : (m.modes j).valid = true) : Choice m hash i (some 0)
  /-- The mode registers for the first time. -/
  | first (hfree : (m.modes i).valid = false) (hnew : ∀ j, m.modeHashes j ≠ hash)
      (hunused : ∀ j, (m.modes j).valid = false → m.modeHashes j = 0 → m.modeHashes i = 0) :
      Choice m hash i (some hash)

theorem Choice.free {hash : UInt32} (h : Choice m hash i w) : (m.modes i).valid = false := by
  cases h <;> assumption

theorem newModeIdx_choice (hfree : m.hasFreeExternalModes) :
    ∃ i w, m.newModeIdx name = (some i, w) ∧ Choice m (modeNameHash name) i w := by
  obtain ⟨k, hk, hkvalid⟩ := exists_find?_not_valid hfree
  unfold newModeIdx
  rw [hk]
  cases hfirst : (finRange maxNumModes).find? fun i =>
    !(m.modes i).valid && m.modeHashes i == 0 with
  | none =>
    have hnone : ∀ j, (m.modes j).valid = false → m.modeHashes j ≠ 0 := by
      simpa using hfirst
    simp only [isSome_none, false_eq_true, if_false]
    cases hmatch : (finRange maxNumModes).reverse.find? fun i =>
      m.modeHashes i == modeNameHash name with
    | none =>
      exact ⟨k, _, rfl, .first hkvalid (by simpa using hmatch)
        fun j hj hzero => absurd hzero (hnone j hj)⟩
    | some j =>
      have hj : m.modeHashes j = modeNameHash name := by simpa using find?_some hmatch
      dsimp only
      split_ifs with hvalid
      · exact ⟨k, _, rfl, .reset hkvalid hj hvalid⟩
      · exact ⟨j, _, rfl, .again (eq_false_iff.mpr hvalid) hj⟩
  | some i =>
    obtain ⟨hi, hzero⟩ : (m.modes i).valid = false ∧ m.modeHashes i = 0 := by
      simpa using find?_some hfirst
    simp only [isSome_some, if_true]
    cases hmatch : (finRange maxNumModes).reverse.find? fun i =>
      m.modeHashes i == modeNameHash name with
    | none => exact ⟨i, _, rfl, .first hi (by simpa using hmatch) fun _ _ _ => hzero⟩
    | some j =>
      have hj : m.modeHashes j = modeNameHash name := by simpa using find?_some hmatch
      dsimp only
      split_ifs with hvalid
      · exact ⟨i, _, rfl, .unused hi hj hvalid⟩
      · exact ⟨j, _, rfl, .again (eq_false_iff.mpr hvalid) hj⟩

theorem addExternalMode_spec (hfree : m.hasFreeExternalModes) :
    ∃ i w, Choice m (modeNameHash mode.name) i w ∧ m.addExternalMode mode =
      ({ m with modeHashes := w.elim m.modeHashes (Function.update m.modeHashes i) }.setMode i
        { mode with valid := true }, some i) := by
  obtain ⟨i, w, hidx, hchoice⟩ := newModeIdx_choice hfree
  refine ⟨i, w, hchoice, ?_⟩
  rw [addExternalMode, hidx]
  dsimp only
  rw [if_neg (by rw [hchoice.free]; exact false_ne_true)]

theorem addExecutor_spec (hfree : m.hasFreeExecutors) (executor : ModeExecutor) :
    ∃ e, (m.modeExecutors e).valid = false ∧
      m.addExecutor executor = (m.setExecutor e { executor with valid := true }, some e) := by
  obtain ⟨e, he, hvalid⟩ := exists_find?_not_valid hfree
  refine ⟨e, hvalid, ?_⟩
  rw [addExecutor, he]

variable {request : RegisterRequest}

theorem registerExecutor_spec
    (hfree : request.registerModeExecutor → m.hasFreeExecutors)
    (hnone : (m.modes i).modeExecutorRegistrationId = none) :
    let r := (m.registerExecutor request (some i)).1
    ∃ x, r.modes = Function.update m.modes i { m.modes i with modeExecutorRegistrationId := x } ∧
      (∀ e, x = some e → (m.modeExecutors e).valid = false ∧
        r.modeExecutors e = { ownedNavState := some i, valid := true }) ∧
      (∀ e, x ≠ some e → r.modeExecutors e = m.modeExecutors e) ∧
      r.modeExecutorInCharge = m.modeExecutorInCharge ∧ r.externalChecks = m.externalChecks := by
  unfold registerExecutor
  split_ifs with hexecutor
  · obtain ⟨e, he, hadd⟩ := addExecutor_spec (hfree hexecutor) { ownedNavState := some i }
    rw [hadd]
    refine ⟨some e, rfl, fun e' he' => ?_, fun e' he' => ?_, rfl, rfl⟩
    · obtain rfl := some_injective _ he'
      exact ⟨he, by simp [setMode, setExecutor]⟩
    · have hne : e' ≠ e := fun h => he' (h ▸ rfl)
      simp [setMode, setExecutor, hne]
  · refine ⟨none, ?_, fun e he => (by cases he), fun _ _ => rfl, rfl, rfl⟩
    rw [← hnone]
    exact (update_eq_self i m.modes).symm

theorem registerArmingCheck_spec (hcheck : request.registerArmingCheck)
    (hlow : m.externalChecks.LowMask)
    (hfree : ∃ slot, m.externalChecks.registrationValid slot = false) :
    let r := (m.registerArmingCheck request (some i)).1
    ∃ slot, r.modes =
        Function.update m.modes i { m.modes i with armingCheckRegistrationId := some slot } ∧
      r.modeExecutors = m.modeExecutors ∧ r.modeExecutorInCharge = m.modeExecutorInCharge ∧
      Keeps m.externalChecks r.externalChecks ∧ r.externalChecks.Names slot (navModeOf i) := by
  obtain ⟨slot, hslot, hnamed, hkept⟩ := addRegistration_spec hfree (some (navModeOf i))
    (replacedMode request) request.allocated
  unfold registerArmingCheck
  rw [if_pos hcheck]
  refine ⟨slot, ?_, rfl, rfl, ⟨hkept, fun _ => ?_⟩, hnamed _ rfl⟩
  · dsimp only [setMode]
    rw [map_some, hslot]
  · exact addRegistration_lowMask hlow _ _ _

/-- No mode replaces what a new mode replaces. -/
theorem not_replaced
    (hreplaced : request.enableReplaceInternalMode = false ∨
      m.alreadyReplaced request.replaceInternalMode = false)
    (hsome : (requestedMode request).replacesNavState ≠ replacesNavStateNone)
    (hj : (m.modes j).valid) :
    (m.modes j).replacesNavState ≠ (requestedMode request).replacesNavState := by
  unfold requestedMode at hsome ⊢
  split_ifs at hsome ⊢ with henable
  · have hnot := hreplaced.resolve_left (by simp [henable])
    have hmode := any_eq_false.mp hnot j (mem_finRange j)
    simpa [hj] using hmode
  · exact absurd rfl hsome

theorem exists_free_slot (hlow : m.externalChecks.LowMask)
    (hspace : m.hasSpaceFor request) (hcheck : request.registerArmingCheck) :
    ∃ slot, m.externalChecks.registrationValid slot = false := by
  refine exists_not_valid hlow fun hfull => ?_
  simp [hasSpaceFor, hasFreeRegistrations, hcheck, hfull] at hspace

/-- A registration with a mode: the mode, its executor if there is one, and its check are added. -/
theorem Inv.register_mode (h : Inv m) (hvalid : requestValid request)
    (hspace : m.hasSpaceFor request) (hmode : request.registerMode)
    (hcheck : request.registerArmingCheck) : Inv (m.register request).1 := by
  have hslot := exists_free_slot h.lowMask hspace hcheck
  have hspace₀ := hspace
  simp only [hasSpaceFor, hmode, Bool.true_and, Bool.and_eq_true, Bool.not_eq_true',
    Bool.or_eq_false_iff, Bool.not_eq_false', Bool.and_eq_false_iff] at hspace
  obtain ⟨⟨-, hfreeModes, hreplaced⟩, hfreeExecutors⟩ := hspace
  obtain ⟨i, w, hchoice, hadd⟩ := addExternalMode_spec hfreeModes
  generalize w.elim m.modeHashes (Function.update m.modeHashes i) = hashes at hadd
  set m₁ := { m with modeHashes := hashes }.setMode i { requestedMode request with valid := true }
  have hself : m₁.modes i = { requestedMode request with valid := true } :=
    update_self ..
  have hfreeExecutors₁ : request.registerModeExecutor → m₁.hasFreeExecutors :=
    fun hexecutor => (hfreeExecutors.resolve_left (by simp [hexecutor]) :
      m.hasFreeExecutors)
  obtain ⟨x, hmodes₂, hnew, hold, hcharge, hchecks⟩ :=
    registerExecutor_spec hfreeExecutors₁ (by rw [hself]; rfl)
  set m₂ := (m₁.registerExecutor request (some i)).1
  have hchecks' : m₂.externalChecks = m.externalChecks := hchecks
  obtain ⟨slot, hmodes₃, hexecutors₃, hcharge₃, hkeeps, hnamed⟩ :=
    registerArmingCheck_spec hcheck (hchecks' ▸ h.lowMask) (hchecks' ▸ hslot)
  have hregister : (m.register request).1 = (m₂.registerArmingCheck request (some i)).1 := by
    rw [ModeManagement.register, if_pos (and_eq_true_iff.mpr ⟨hvalid, hspace₀⟩)]
    rw [registerMode, if_pos hmode, hadd]
  rw [hregister]
  have hmodes : (m₂.registerArmingCheck request (some i)).1.modes = Function.update m.modes i
      { requestedMode request with
        valid := true
        modeExecutorRegistrationId := x
        armingCheckRegistrationId := some slot } := by
    rw [hmodes₃, hmodes₂, update_idem, update_self, hself]
    exact update_idem ..
  exact h.add {
    free := hchoice.free
    modes := hmodes
    valid := rfl
    new := fun e he => by
      rw [hexecutors₃]
      exact hnew e he
    old := fun e he => by
      rw [hexecutors₃]
      exact hold e he
    inCharge := hcharge₃.trans hcharge
    replaces := fun hsome j hj => not_replaced hreplaced hsome hj
    keeps := hchecks' ▸ hkeeps
    registered := ⟨slot, rfl, hnamed⟩ }

theorem Inv.register_check (h : Inv m) (hvalid : requestValid request)
    (hspace : m.hasSpaceFor request) (hmode : request.registerMode = false)
    (hexecutor : request.registerModeExecutor = false) : Inv (m.register request).1 := by
  have hregister : (m.register request).1 = (m.registerArmingCheck request none).1 := by
    simp [ModeManagement.register, hvalid, hspace, registerMode, hmode, registerExecutor, hexecutor]
  rw [hregister, registerArmingCheck]
  split_ifs with hcheck
  · obtain ⟨slot, -, -, hkept⟩ := addRegistration_spec
      (exists_free_slot h.lowMask hspace hcheck) none (replacedMode request) request.allocated
    exact h.setChecks (addRegistration_lowMask h.lowMask _ _ _)
      fun i slot _ _ hnamed => hkept slot _ hnamed
  · exact h

theorem Inv.register (h : Inv m) (request) : Inv (m.register request).1 := by
  by_cases hregister : (requestValid request && m.hasSpaceFor request)
  · obtain ⟨hvalid, hspace⟩ := and_eq_true_iff.mp hregister
    cases hmode : request.registerMode with
    | true =>
      have hcheck : request.registerArmingCheck := by
        simpa [requestValid, hmode] using hvalid
      exact h.register_mode hvalid hspace hmode hcheck
    | false =>
      have hexecutor : request.registerModeExecutor = false := by
        simpa [requestValid, hmode] using hvalid
      exact h.register_check hvalid hspace hmode hexecutor
  · rw [ModeManagement.register, if_neg hregister]
    exact h

theorem Inv.checkNewRegistrations (h : Inv m) (change requests) :
    Inv (m.checkNewRegistrations change requests).1 := by
  induction requests generalizing m change with
  | nil => exact h
  | cons request requests ih =>
    unfold ModeManagement.checkNewRegistrations
    split_ifs
    · exact h
    · exact ih (h.register request) _

/-! ## Removal -/

/-- The executor is removed, and not in charge any more. -/
structure WithoutExecutor (m : ModeManagement) (x : Option ExecutorIdx) (m' : ModeManagement) :
    Prop where
  modes : m'.modes = m.modes
  externalChecks : m'.externalChecks = m.externalChecks
  owned : ∀ e, (m'.modeExecutors e).ownedNavState = (m.modeExecutors e).ownedNavState
  valid : ∀ e, (m'.modeExecutors e).valid = true ↔ (m.modeExecutors e).valid = true ∧ x ≠ some e
  inCharge : ∀ e, m'.modeExecutorInCharge = some e → m.modeExecutorInCharge = some e ∧ x ≠ some e

theorem removeModeExecutor_spec (m x) : WithoutExecutor m x (m.removeModeExecutor x) := by
  cases x with
  | none =>
    have hnone : ∀ e : ExecutorIdx, none ≠ some e := fun e => (some_ne_none e).symm
    exact ⟨rfl, rfl, fun _ => rfl, fun e => (and_iff_left (hnone e)).symm,
      fun e he => ⟨he, hnone e⟩⟩
  | some e₀ =>
    have hcharge : ∀ e, (if m.modeExecutorInCharge = some e₀ then
        { m with modeExecutorInCharge := none } else m).modeExecutorInCharge = some e →
        m.modeExecutorInCharge = some e ∧ some e₀ ≠ some e := fun e he => by
      split_ifs at he with hin
      exact ⟨he, fun heq => hin (heq ▸ he)⟩
    unfold removeModeExecutor
    dsimp only
    generalize hm₁ : (if m.modeExecutorInCharge = some e₀ then
      { m with modeExecutorInCharge := none } else m) = m₁ at hcharge ⊢
    have hmodes : m₁.modes = m.modes := by rw [← hm₁]; split_ifs <;> rfl
    have hchecks : m₁.externalChecks = m.externalChecks := by rw [← hm₁]; split_ifs <;> rfl
    have hexecutors : m₁.modeExecutors = m.modeExecutors := by rw [← hm₁]; split_ifs <;> rfl
    split_ifs with hvalid
    · refine ⟨hmodes, hchecks, fun e => ?_, fun e => ?_, hcharge⟩
      · by_cases he : e = e₀
        · subst he
          simp [setExecutor, hexecutors]
        · simp [setExecutor, he, hexecutors]
      · by_cases he : e = e₀
        · subst he
          simp [setExecutor]
        · simp [setExecutor, he, hexecutors, Ne.symm he]
    · refine ⟨hmodes, hchecks, fun e => by rw [hexecutors], fun e => ?_, hcharge⟩
      rw [hexecutors] at hvalid ⊢
      refine ⟨fun he => ⟨he, fun heq => hvalid ?_⟩, fun he => he.1⟩
      rwa [some_injective _ heq]

/-- Unresponsive modes are removed with their own ids. -/
theorem Inv.removeIfUnresponsive (h : Inv m) (userIntendedNavState i) :
    Inv (m.removeIfUnresponsive userIntendedNavState i) := by
  unfold ModeManagement.removeIfUnresponsive
  dsimp only
  split
  · exact h
  next slot hslot =>
  split_ifs with hremove
  · obtain ⟨hi, -, -⟩ := hremove
    set s := (m.externalChecks.removeRegistration slot (some (navModeOf i))).1
    have hspec := removeModeExecutor_spec { m with externalChecks := s }
      (m.modes i).modeExecutorRegistrationId
    generalize { m with externalChecks := s }.removeModeExecutor
      (m.modes i).modeExecutorRegistrationId = m₁ at hspec
    have hmodes : m₁.modes = m.modes := hspec.modes
    have hchecks : m₁.externalChecks = s := hspec.externalChecks
    rw [removeExternalMode, if_pos ⟨by rw [hmodes]; exact hi, by rw [hmodes]⟩]
    exact h.remove {
      valid := hi
      modes := by rw [setMode, hmodes]
      owned := hspec.owned
      executors := hspec.valid
      inCharge := hspec.inCharge
      lowMask := hchecks ▸ removeRegistration_lowMask h.lowMask
      names := fun j slot' hji hnamed => by
        refine hchecks ▸ hnamed.removeRegistration (.inr fun hnav => hji ?_)
        exact (navModeOf_injective (some_injective _ hnav)).symm }
  · exact h

theorem Inv.handleRegistrations (h : Inv m) (u) : Inv (m.handleRegistrations u).1 := by
  refine Inv.checkNewRegistrations ?_ _ _
  induction finRange maxNumModes generalizing m with
  | nil => exact h
  | cons i is ih => exact ih (h.removeIfUnresponsive u.userIntendedNavState i)

/-- A message removes nothing but what belongs to the mode that it names: if it names a mode by its
name, then with the executor of the mode, and else not with the arming check of the mode. -/
def Faithful (m : ModeManagement) (request : UnregisterRequest) : Prop :=
  ∀ i, modeIdx? request.modeId.toUInt8 = some i → (m.modes i).valid = true →
    (terminated request.name = (m.modes i).name →
      (executorIdx? request.modeExecutorId).filter (fun e => (m.modeExecutors e).valid) =
        (m.modes i).modeExecutorRegistrationId) ∧
    (terminated request.name ≠ (m.modes i).name →
      slot? request.armingCheckId ≠ (m.modes i).armingCheckRegistrationId)

theorem toUInt8_toNat {id : Int8} (h : 0 ≤ id.toInt) : id.toUInt8.toNat = id.toInt.toNat := by
  have hcond := toInt_eq_toNat_cond id.toBitVec
  have htoInt : id.toInt = id.toBitVec.toInt := rfl
  have htoNat : id.toUInt8.toNat = id.toBitVec.toNat := rfl
  split_ifs at hcond <;> omega

instance decidableFaithful (m : ModeManagement) (request : UnregisterRequest) :
    Decidable (Faithful m request) := by
  unfold Faithful
  infer_instance

theorem modeIdx?_of_navModeId? {id : Int8} (h : navModeId? id = some (some (navModeOf i))) :
    modeIdx? id.toUInt8 = some i := by
  have hi := i.isLt
  unfold navModeId? at h
  split_ifs at h with hnone hmode
  · cases some_injective _ h
  have hval : id.toInt.toNat = firstExternalNavState + i :=
    congrArg Fin.val (some_injective _ (some_injective _ h))
  have htoNat : id.toUInt8.toNat = firstExternalNavState + i := (toUInt8_toNat hmode.1).trans hval
  unfold modeIdx?
  rw [dif_pos (by rw [htoNat]; exact ⟨Nat.le_add_right _ _, Nat.add_lt_add_left hi _⟩)]
  refine congrArg some (Fin.ext ?_)
  dsimp only
  rw [htoNat, Nat.add_sub_cancel_left]

theorem removeCheck_eq (m : ModeManagement) (request) :
    m.removeCheck request =
      { m with externalChecks := (m.removeCheck request).externalChecks } := by
  unfold removeCheck removeRegistration
  split_ifs
  · split <;> rfl
  · rfl

theorem removeCheck_lowMask (hlow : m.externalChecks.LowMask) {request} :
    (m.removeCheck request).externalChecks.LowMask := by
  unfold removeCheck removeRegistration
  split_ifs
  · split
    · exact removeRegistration_lowMask hlow
    · exact hlow
  · exact hlow

/-- A registration is kept, unless the message has its id and that of its mode. -/
theorem removeCheck_names {request}
    (hother : slot? request.armingCheckId ≠ some slot ∨ modeIdx? request.modeId.toUInt8 ≠ some i)
    (hnamed : m.externalChecks.Names slot (navModeOf i)) :
    (m.removeCheck request).externalChecks.Names slot (navModeOf i) := by
  unfold removeCheck removeRegistration
  split_ifs
  · split
    · next slot' navModeId hslot hnav =>
      refine hnamed.removeRegistration ?_
      rcases hother with hother | hother
      · exact .inl fun heq => hother (heq ▸ hslot)
      · exact .inr fun heq => hother (modeIdx?_of_navModeId? (heq ▸ hnav))
    · exact hnamed
  · exact hnamed

theorem Inv.removeCheck (h : Inv m) {request}
    (hother : ∀ i, modeIdx? request.modeId.toUInt8 = some i → (m.modes i).valid →
      slot? request.armingCheckId ≠ (m.modes i).armingCheckRegistrationId) :
    Inv (m.removeCheck request) := by
  rw [removeCheck_eq]
  refine h.setChecks (removeCheck_lowMask h.lowMask) fun i slot hi hslot hnamed => ?_
  refine removeCheck_names ?_ hnamed
  by_cases hidx : modeIdx? request.modeId.toUInt8 = some i
  · exact .inl (hslot ▸ hother i hidx hi)
  · exact .inr hidx

/-- The mode that the message names is removed, with its executor. -/
theorem Inv.removeNamed (h : Inv m) {request}
    (hidx : modeIdx? request.modeId.toUInt8 = some i) (hi : (m.modes i).valid)
    (hexecutor : (executorIdx? request.modeExecutorId).filter
      (fun e => (m.modeExecutors e).valid) = (m.modes i).modeExecutorRegistrationId) :
    Inv (((m.removeCheck request).setMode i { m.modes i with valid := false }).removeModeExecutor
      (executorIdx? request.modeExecutorId)) := by
  have hspec := removeModeExecutor_spec
    ((m.removeCheck request).setMode i { m.modes i with valid := false })
    (executorIdx? request.modeExecutorId)
  have hsame := removeCheck_eq m request
  have hmodes : (m.removeCheck request).modes = m.modes := by rw [hsame]
  have hexecutors : (m.removeCheck request).modeExecutors = m.modeExecutors := by rw [hsame]
  have hcharge : (m.removeCheck request).modeExecutorInCharge = m.modeExecutorInCharge := by
    rw [hsame]
  have hnamed : ∀ e, (m.modeExecutors e).valid →
      (executorIdx? request.modeExecutorId = some e ↔
        (m.modes i).modeExecutorRegistrationId = some e) := fun e he => by
    rw [← hexecutor, filter_eq_some_iff]
    exact (and_iff_left he).symm
  exact h.remove {
    valid := hi
    modes := by rw [hspec.modes, setMode, hmodes]
    owned := fun e => by rw [hspec.owned, setMode, hexecutors]
    executors := fun e => by
      rw [hspec.valid, setMode, hexecutors]
      exact and_congr_right fun he => not_congr (hnamed e he)
    inCharge := fun e he => by
      obtain ⟨hin, hother⟩ := hspec.inCharge e he
      rw [setMode, hcharge] at hin
      exact ⟨hin, fun hie => hother ((hnamed e (h.owns i e hi hie).1).mpr hie)⟩
    lowMask := by
      rw [hspec.externalChecks]
      exact removeCheck_lowMask h.lowMask
    names := fun j slot hji hslot => by
      rw [hspec.externalChecks]
      refine removeCheck_names (.inr fun hj => hji ?_) hslot
      exact some_injective _ (hj.symm.trans hidx) }

theorem Inv.unregister (h : Inv m) {request} (hfaithful : Faithful m request) :
    Inv (m.unregister request) := by
  have hmodes : (m.removeCheck request).modes = m.modes := by rw [removeCheck_eq]
  unfold ModeManagement.unregister
  dsimp only
  split_ifs with hmode
  · split
    · next hidx =>
      exact h.removeCheck fun i hi => by cases hidx.symm.trans hi
    · next i hidx =>
      rw [removeExternalMode, hmodes]
      by_cases hremove :
          (m.modes i).valid ∧ terminated request.name = (m.modes i).name
      · rw [if_pos hremove]
        exact h.removeNamed hidx hremove.1 ((hfaithful i hidx hremove.1).1 hremove.2)
      rw [if_neg hremove]
      refine h.removeCheck fun j hj hvalid => ?_
      obtain rfl := some_injective _ (hidx.symm.trans hj)
      exact (hfaithful i hidx hvalid).2 fun hname => hremove ⟨hvalid, hname⟩
  · refine h.removeCheck fun i hi => ?_
    rw [not_not.mp hmode] at hi
    cases hi

/-! ## Runs -/

/-- The messages that `checkUnregistrations` comes to are faithful. -/
def AllFaithful (userIntendedNavState : NavState) : ModeManagement → ChangeRequest →
    List UnregisterRequest → Prop
  | _, _, [] => True
  | m, change, request :: requests =>
    change.isSome = true ∨ (Faithful m request ∧
      AllFaithful userIntendedNavState (m.unregister request)
        (holdIfCurrent userIntendedNavState request) requests)

instance decidableAllFaithful (userIntendedNavState : NavState) : (m : ModeManagement) →
    (change : ChangeRequest) → (requests : List UnregisterRequest) →
    Decidable (AllFaithful userIntendedNavState m change requests)
  | _, _, [] => isTrue trivial
  | m, _, request :: requests =>
    have : Decidable (AllFaithful userIntendedNavState (m.unregister request)
      (holdIfCurrent userIntendedNavState request) requests) := decidableAllFaithful ..
    inferInstanceAs (Decidable (_ ∨ _))

theorem Inv.checkUnregistrations (h : Inv m)
    (hfaithful : AllFaithful userIntendedNavState m change requests) :
    Inv (checkUnregistrations userIntendedNavState m change requests).1 := by
  induction requests generalizing m change with
  | nil => exact h
  | cons request requests ih =>
    unfold ModeManagement.checkUnregistrations
    split_ifs with hchange
    · exact h
    · obtain ⟨hfirst, hrest⟩ := hfaithful.resolve_left hchange
      exact ih (h.unregister hfirst) hrest

/-- The messages of a step are faithful, when they are handled. -/
def FaithfulStep (m : ModeManagement) : Event → Prop
  | .update u =>
    (u.armed && !u.allowUpdateWhileArmed) = true ∨
      let registered := { m with
        externalChecks := (m.externalChecks.update u.now u.replies).1 }.handleRegistrations u
      AllFaithful u.userIntendedNavState registered.1 registered.2 (u.unregistrations.take 5)
  | .onUserIntendedNavStateChange .. => True

instance decidableFaithfulStep (m : ModeManagement) : (e : Event) → Decidable (FaithfulStep m e)
  | .update _ => inferInstanceAs (Decidable (_ ∨ _))
  | .onUserIntendedNavStateChange .. => isTrue trivial

theorem Inv.onUserIntendedNavStateChange (h : Inv m) (source userIntendedNavState) :
    Inv (m.onUserIntendedNavStateChange source userIntendedNavState) := by
  unfold ModeManagement.onUserIntendedNavStateChange
  dsimp only
  split
  · split_ifs
    · exact { h with inCharge := fun e he => (by cases he) }
    · exact h
  · next e hexecutor =>
    obtain ⟨i, -, hi⟩ := bind_eq_some_iff.mp hexecutor
    split_ifs at hi with hvalid
    refine { h with inCharge := fun e' he' => ?_ }
    obtain rfl := some_injective _ he'
    exact (h.owns i e hvalid hi).1

theorem Inv.step (h : Inv m) (hfaithful : FaithfulStep m e) : Inv (m.step e) := by
  cases e with
  | onUserIntendedNavStateChange source userIntendedNavState =>
    exact h.onUserIntendedNavStateChange source userIntendedNavState
  | update u =>
    have hkeeps := keeps_update m.externalChecks u.now u.replies
    have hchecks := h.setChecks (hkeeps.lowMask h.lowMask)
      fun i slot _ _ hnamed => hkeeps.names slot _ hnamed
    unfold ModeManagement.step ModeManagement.update
    dsimp only
    split_ifs with hrejected
    · exact hchecks
    · exact (hchecks.handleRegistrations u).checkUnregistrations (hfaithful.resolve_left hrejected)

theorem inv_construct {modeHashes} : Inv (construct modeHashes) where
  registered _ hi := by cases hi
  owned _ he := by cases he
  inCharge _ he := by cases he
  replaces _ _ hi := by cases hi
  lowMask := (by decide : 0 < 2 ^ maxNumRegistrations)
  owns _ _ hi := by cases hi

/-- **The registry of external modes stays consistent** in every run in which the messages of
`checkUnregistrations` are faithful. -/
theorem registry_consistent (modeHashes : ModeIdx → UInt32) (es : List Event)
    (hfaithful : Run.Along step FaithfulStep (construct modeHashes) es) :
    Run.Always step Consistent (construct modeHashes) es := by
  apply Run.always_of_invariant (I := Inv)
  · exact fun m e h hm => h.step hm
  · exact fun m h => h.toConsistent
  · exact inv_construct
  · exact hfaithful

/-- A mode registers, and then a message with its ids but another name comes in. -/
def otherName : List Event :=
  [.update { registrations := [
      { name := [65], registerArmingCheck := true, registerMode := true }] },
   .update { unregistrations := [
      { name := [66], armingCheckId := 0, modeId := 23, modeExecutorId := -1 }] }]

/-- The arming check is removed, the mode is not. -/
theorem mode_without_check : ¬ Run.Always step Consistent (construct fun _ => 0) otherName := by
  intro h
  obtain ⟨slot, hslot, hnamed, -⟩ := h.2.2.registered ⟨0, by decide⟩ (by decide +kernel)
  revert slot
  decide +kernel

/-- A mode registers with an executor, is selected, and is removed with the ids it was given. -/
def ownIds : List Event :=
  [.update { registrations := [
      { name := [65], registerArmingCheck := true, registerMode := true,
        registerModeExecutor := true }] },
   .onUserIntendedNavStateChange .user 23,
   .update { unregistrations := [
      { name := [65], armingCheckId := 0, modeId := 23, modeExecutorId := 1 }] }]

theorem registry_consistent_ownIds :
    Run.Always step Consistent (construct fun _ => 0) ownIds ∧
      (Run.after step (construct fun _ => 0) (ownIds.take 2)).modeExecutorInCharge.isSome = true ∧
      (Run.after step (construct fun _ => 0) ownIds).modeExecutorInCharge = none :=
  ⟨registry_consistent _ ownIds (by decide +kernel), by decide +kernel, by decide +kernel⟩

end ModeManagement

end Px4.Commander
