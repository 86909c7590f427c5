import Mathlib.Algebra.Group.Nat.Defs
import Px4.Common.Run

/-!
# The pilot's input

`src/modules/manual_control/ManualControlSelector.{hpp,cpp}` chooses one of the sources of manual
control, as `COM_RC_IN_MODE` says.
-/

namespace Px4.ManualControl

/-- `manual_control_setpoint_s`, with the sticks and buttons as they are. -/
structure ManualControlSetpoint (π : Type*) where
  timestamp : UInt64
  timestampSample : UInt64
  valid : Bool
  dataSource : UInt8
  controls : π

def sourceUnknown : UInt8 := 0

def sourceRc : UInt8 := 1

/-- `SOURCE_MAVLINK_0` to `SOURCE_MAVLINK_5`. -/
def sourcesMavlink : List UInt8 := [2, 3, 4, 5, 6, 7]

def sources : List UInt8 := sourceRc :: sourcesMavlink

inductive RcInMode where
  | rcOnly
  | mavLinkOnly
  | rcOrMavlinkWithFallback
  | rcOrMavlinkKeepFirst
  | disableManualControl
  | priorityRcThenMavlinkAscending
  | priorityMavlinkAscendingThenRc
  | priorityRcThenMavlinkDescending
  | priorityMavlinkDescendingThenRc

/-- The cast of the parameter, if its value is an enumerator. -/
def RcInMode.ofInt (value : ℤ) : Option RcInMode :=
  if value < 0 then none
  else [rcOnly, mavLinkOnly, rcOrMavlinkWithFallback, rcOrMavlinkKeepFirst, disableManualControl,
    priorityRcThenMavlinkAscending, priorityMavlinkAscendingThenRc,
    priorityRcThenMavlinkDescending, priorityMavlinkDescendingThenRc][value.toNat]?

def isRc (source : UInt8) : Bool := source = sourceRc

def isMavlink (source : UInt8) : Bool := source ∈ sourcesMavlink

/-- The switch of `isInputValid`: the source fits the mode, given the selected and the first. -/
def matchesMode (mode : Option RcInMode) (valid : Bool) (current first source : UInt8) : Bool :=
  match mode with
  | some .rcOnly => isRc source
  | some .mavLinkOnly => isMavlink source && (source = current || !valid)
  | some .rcOrMavlinkWithFallback => source = current || !valid
  | some .rcOrMavlinkKeepFirst => source = first || first = sourceUnknown
  | some .priorityRcThenMavlinkAscending => !valid || source ≤ current
  | some .priorityMavlinkAscendingThenRc =>
    !valid || isRc source && isRc current || isMavlink source && (isRc current || source ≤ current)
  | some .priorityRcThenMavlinkDescending =>
    !valid || isRc source || isMavlink source && isMavlink current && source ≥ current
  | some .priorityMavlinkDescendingThenRc => !valid || source ≥ current
  | some .disableManualControl | none => false

structure ManualControlSelector (π : Type*) where
  setpoint : ManualControlSetpoint π
  timeout : UInt64 := 0
  rcInMode : Option RcInMode := some .disableManualControl
  chosen : ℤ := -1
  firstValidSource : UInt8 := sourceUnknown

namespace ManualControlSelector

variable {π : Type*} (s : ManualControlSelector π)

def isInputValid (input : ManualControlSetpoint π) (now : UInt64) : Bool :=
  now < input.timestampSample + s.timeout && input.valid &&
    matchesMode s.rcInMode s.setpoint.valid s.setpoint.dataSource s.firstValidSource
      input.dataSource

def updateValidityOfChosenInput (now : UInt64) : ManualControlSelector π :=
  if s.isInputValid s.setpoint now then s else { s with setpoint.valid := false, chosen := -1 }

/-- `updateWithNewInputSample`, after the selected setpoint has been checked. -/
def accept (now : UInt64) (input : ManualControlSetpoint π) (inst : ℤ) : ManualControlSelector π :=
  { s with
    setpoint := { input with valid := true, timestamp := now }
    chosen := inst
    firstValidSource :=
      if s.firstValidSource = sourceUnknown then input.dataSource else s.firstValidSource }

def updateWithNewInputSample (now : UInt64) (input : ManualControlSetpoint π) (inst : ℤ) :
    ManualControlSelector π :=
  let s := s.updateValidityOfChosenInput now
  if s.isInputValid input now then s.accept now input inst else s

end ManualControlSelector

/-! ## What the modes mean -/

/-- The sources that a mode admits, given the first one that was accepted. -/
def admissible : Option RcInMode → (first : UInt8) → List UInt8
  | some .rcOnly, _ => [sourceRc]
  | some .mavLinkOnly, _ => sourcesMavlink
  | some .rcOrMavlinkKeepFirst, first => [first]
  | some .disableManualControl, _ | none, _ => []
  | some _, _ => sources

/-- The sources in the order of a priority mode, the first one first. -/
def priorities : Option RcInMode → List UInt8
  | some .priorityRcThenMavlinkAscending => sources
  | some .priorityMavlinkAscendingThenRc => sourcesMavlink ++ [sourceRc]
  | some .priorityRcThenMavlinkDescending => sourceRc :: sourcesMavlink.reverse
  | some .priorityMavlinkDescendingThenRc => sourcesMavlink.reverse ++ [sourceRc]
  | _ => []

/-- The source has a higher priority. -/
def Precedes (mode : Option RcInMode) (source source' : UInt8) : Prop :=
  source' ∈ priorities mode ∧ (priorities mode).idxOf source < (priorities mode).idxOf source'
deriving Decidable

variable {mode : Option RcInMode}

/-- What the switch means, by all its cases. -/
theorem matchesMode_spec : ∀ first ∈ sourceUnknown :: sources,
    ∀ current ∈ sourceUnknown :: sources, ∀ source ∈ sources, ∀ valid,
    (source ∈ admissible mode first → matchesMode mode true source first source) ∧
    (matchesMode mode valid current first source →
      source ∈ admissible mode (if first = sourceUnknown then source else first) ∧
      (valid → current ∈ sources → current ∈ admissible mode first →
        source = current ∨ Precedes mode source current)) := by
  rcases mode with _ | mode
  · decide +kernel
  · cases mode <;> decide +kernel

/-! ## Runs -/

inductive SelectorCall (π : Type*) where
  | sample (now : UInt64) (input : ManualControlSetpoint π) (inst : ℤ)
  | validity (now : UInt64)

namespace SelectorCall

variable {π : Type*}

def now : SelectorCall π → UInt64
  | .sample now _ _ | .validity now => now

/-- A sample has a source and is not from the future. -/
def InScope : SelectorCall π → Prop
  | .sample now input _ => input.dataSource ∈ sources ∧ input.timestampSample ≤ now
  | .validity _ => True

end SelectorCall

/-- A selector with the first source of which it accepted a sample. -/
structure SelectorTrace (π : Type*) extends selector : ManualControlSelector π where
  firstAccepted : Option UInt8 := none

namespace SelectorTrace

variable {π : Type*} {t : SelectorTrace π} {now : UInt64} {mode : Option RcInMode}
  {timeout : UInt64} {sp input : ManualControlSetpoint π}

variable (t)

/-- The trace after `updateValidityOfChosenInput`. -/
def check (now : UInt64) : SelectorTrace π :=
  { t with selector := t.selector.updateValidityOfChosenInput now }

/-- The trace with a sample that has been accepted. -/
def accept (now : UInt64) (input : ManualControlSetpoint π) (inst : ℤ) :
    SelectorTrace π where
  selector := t.selector.accept now input inst
  firstAccepted := t.firstAccepted.or (some input.dataSource)

def step : SelectorCall π → SelectorTrace π
  | .sample now input inst => {
      selector := t.selector.updateWithNewInputSample now input inst
      firstAccepted := if (t.check now).isInputValid input now then
          t.firstAccepted.or (some input.dataSource)
        else t.firstAccepted }
  | .validity now => t.check now

variable {t}

theorem step_sample : t.step (.sample now input inst) =
    if (t.check now).isInputValid input now then (t.check now).accept now input inst
    else t.check now := by
  unfold step ManualControlSelector.updateWithNewInputSample accept check
  dsimp only
  split_ifs <;> rfl

/-- The setpoint that is selected, if it is valid. -/
def selected (t : SelectorTrace π) : Option (ManualControlSetpoint π) :=
  if t.setpoint.valid then some t.setpoint else none

theorem mem_selected : sp ∈ t.selected ↔ t.setpoint.valid ∧ t.setpoint = sp := by
  unfold selected
  split_ifs with h <;> simp [h]

/-- The sample is older than the timeout. -/
def TimedOut (timeout : UInt64) (sample : ManualControlSetpoint π) (now : UInt64) : Prop :=
  sample.timestampSample.toNat + timeout.toNat ≤ now.toNat

/-- A call leaves a fresh setpoint of a source that the mode admits, and changes the source only
after a timeout or to one of higher priority. -/
def Configured (mode : Option RcInMode) (timeout now : UInt64) (t t' : SelectorTrace π) : Prop :=
  ∀ new ∈ t'.selected, ¬TimedOut timeout new now ∧
    new.dataSource ∈ admissible mode (t'.firstAccepted.getD sourceUnknown) ∧
    ∀ old ∈ t.selected, new.dataSource ≠ old.dataSource →
      TimedOut timeout old now ∨ Precedes mode new.dataSource old.dataSource

def start (value : ℤ) (timeout : UInt64) (controls : π) : SelectorTrace π where
  setpoint := ⟨0, 0, false, sourceUnknown, controls⟩
  timeout
  rcInMode := RcInMode.ofInt value

structure Inv (mode : Option RcInMode) (timeout : UInt64) (t : SelectorTrace π) : Prop where
  mode_eq : t.rcInMode = mode
  timeout_eq : t.timeout = timeout
  first_eq : t.firstValidSource = t.firstAccepted.getD sourceUnknown
  first_mem : ∀ source ∈ t.firstAccepted, source ∈ sources
  current_mem : t.setpoint.dataSource ∈ sourceUnknown :: sources
  /-- The time of an accepted sample and the timeout can be added. -/
  selected : ∀ sp ∈ t.selected, sp.timestampSample.toNat + timeout.toNat < 2 ^ 64 ∧
    sp.dataSource ∈ sources ∧ sp.dataSource ∈ admissible mode (t.firstAccepted.getD sourceUnknown)

theorem selected_check : (t.check now).selected =
    if t.isInputValid t.setpoint now then t.selected else none := by
  unfold check ManualControlSelector.updateValidityOfChosenInput
  split_ifs <;> rfl

section

variable (h : t.Inv mode timeout)
include h

theorem Inv.getD_mem : t.firstAccepted.getD sourceUnknown ∈ sourceUnknown :: sources := by
  cases hfirst : t.firstAccepted with
  | none => exact List.mem_cons_self ..
  | some first => exact List.mem_cons_of_mem _ (h.first_mem first hfirst)

theorem Inv.isInputValid_iff (hsp : sp ∈ t.selected) :
    t.isInputValid sp now ↔ ¬TimedOut timeout sp now := by
  obtain ⟨hsum, hsource, hadmits⟩ := h.selected sp hsp
  obtain ⟨hvalid, rfl⟩ := mem_selected.mp hsp
  have hmatch := ((matchesMode_spec _ h.getD_mem _ h.current_mem _ hsource true).1 hadmits)
  rw [ManualControlSelector.isInputValid, h.mode_eq, h.timeout_eq, h.first_eq, hvalid, hmatch,
    Bool.and_true, Bool.and_true, decide_eq_true_iff, UInt64.lt_iff_toNat_lt, UInt64.toNat_add,
    Nat.mod_eq_of_lt hsum, TimedOut, Nat.not_le]

theorem Inv.mem_check :
    sp ∈ (t.check now).selected ↔ sp ∈ t.selected ∧ ¬TimedOut timeout sp now := by
  rw [selected_check]
  constructor
  · intro hsp
    split_ifs at hsp with hinput
    · obtain rfl := (mem_selected.mp hsp).2
      exact ⟨hsp, (h.isInputValid_iff hsp).mp hinput⟩
    · cases hsp
  · rintro ⟨hsp, hnot⟩
    rw [if_pos]
    · exact hsp
    · rw [(mem_selected.mp hsp).2]
      exact (h.isInputValid_iff hsp).mpr hnot

theorem Inv.check (now) : (t.check now).Inv mode timeout := by
  have hselected := fun sp (hsp : sp ∈ (t.check now).selected) =>
    h.selected sp (h.mem_check.mp hsp).1
  unfold SelectorTrace.check ManualControlSelector.updateValidityOfChosenInput at *
  split_ifs at *
  · exact { h with selected := hselected }
  · exact { h with selected := hselected }

theorem Inv.accept (hsource : input.dataSource ∈ sources) (hle : input.timestampSample ≤ now)
    (hvalid : t.isInputValid input now) (inst) :
    (t.accept now input inst).Inv mode timeout ∧ ¬TimedOut timeout input now ∧ ∀ old ∈ t.selected,
      input.dataSource = old.dataSource ∨ Precedes mode input.dataSource old.dataSource := by
  simp only [ManualControlSelector.isInputValid, Bool.and_eq_true, decide_eq_true_eq, h.mode_eq,
    h.timeout_eq, h.first_eq] at hvalid
  obtain ⟨⟨hfresh, -⟩, hmatch⟩ := hvalid
  rw [UInt64.lt_iff_toNat_lt, UInt64.toNat_add] at hfresh
  rw [UInt64.le_iff_toNat_le] at hle
  -- a sum that overflows would be before the sample
  have hsum : input.timestampSample.toNat + timeout.toNat < 2 ^ 64 := by
    have := timeout.toNat_lt
    omega
  have hfirst : (t.firstAccepted.or (some input.dataSource)).getD sourceUnknown =
      if t.firstAccepted.getD sourceUnknown = sourceUnknown then input.dataSource
      else t.firstAccepted.getD sourceUnknown := by
    cases heq : t.firstAccepted with
    | none => rfl
    | some first =>
      have hne : ∀ source ∈ sources, source ≠ sourceUnknown := by decide +kernel
      exact (if_neg (hne first (h.first_mem first heq))).symm
  obtain ⟨hadmits, hprior⟩ := (matchesMode_spec _ h.getD_mem _ h.current_mem _ hsource _).2 hmatch
  refine ⟨⟨h.mode_eq, h.timeout_eq, ?_, ?_, List.mem_cons_of_mem _ hsource, ?_⟩, ?_, ?_⟩
  · rw [← h.first_eq] at hfirst
    exact hfirst.symm
  · intro source hmem
    obtain hmem | ⟨-, hmem⟩ := Option.or_eq_some_iff.mp hmem
    · exact h.first_mem source hmem
    · cases hmem
      exact hsource
  · intro sp hsp
    obtain ⟨-, rfl⟩ := mem_selected.mp hsp
    exact ⟨hsum, hsource, hfirst ▸ hadmits⟩
  · rw [TimedOut]
    omega
  · intro old hold
    obtain ⟨-, hmem, hold'⟩ := h.selected old hold
    obtain ⟨hvalid, rfl⟩ := mem_selected.mp hold
    exact hprior hvalid hmem hold'

variable {e : SelectorCall π}

theorem Inv.step (he : e.InScope) :
    (t.step e).Inv mode timeout ∧ Configured mode timeout e.now t (t.step e) := by
  have hcheck := h.check e.now
  have hkept : Configured mode timeout e.now t (t.check e.now) := by
    intro new hnew
    obtain ⟨hmem, hfresh⟩ := h.mem_check.mp hnew
    refine ⟨hfresh, (h.selected new hmem).2.2, fun old hold hne => ?_⟩
    exact absurd (congrArg _ (Option.mem_unique hmem hold)) hne
  cases e with
  | validity now => exact ⟨hcheck, hkept⟩
  | sample now input inst =>
    rw [step_sample]
    split_ifs with hvalid
    · obtain ⟨hinv, hfresh, hprior⟩ := hcheck.accept he.1 he.2 hvalid inst
      refine ⟨hinv, fun new hnew => ?_⟩
      have hadmits := (hinv.selected new hnew).2.2
      obtain ⟨-, rfl⟩ := mem_selected.mp hnew
      refine ⟨hfresh, hadmits, fun old hold hne => or_iff_not_imp_left.mpr fun hnot => ?_⟩
      exact (hprior old (h.mem_check.mpr ⟨hold, hnot⟩)).resolve_left hne
    · exact ⟨hcheck, hkept⟩

end

end SelectorTrace

open SelectorTrace in
/-- **The source of the pilot's input changes only as configured.** -/
theorem source_changes_as_configured {π : Type*} (value : ℤ) (timeout : UInt64) (controls : π)
    {es : List (SelectorCall π)} (hes : ∀ e ∈ es, e.InScope) :
    Run.Along SelectorTrace.step
      (fun t e => Configured (RcInMode.ofInt value) timeout e.now t (t.step e))
      (start value timeout controls) es :=
  Run.along_of_invariant (I := Inv (RcInMode.ofInt value) timeout)
    (fun _ _ h he => (h.step he).1) (fun _ _ h he => (h.step he).2)
    ⟨rfl, rfl, rfl, nofun, List.mem_cons_self .., nofun⟩ (Run.along_of_forall hes)

/-- A joystick is used until the radio control sends, which has the higher priority. -/
def takenOver : List (SelectorCall Unit) :=
  [.sample 100 ⟨0, 90, true, 2, ()⟩ 0, .sample 200 ⟨0, 190, true, 1, ()⟩ 1,
    .sample 300 ⟨0, 290, true, 2, ()⟩ 0]

open SelectorTrace in
theorem source_changes_as_configured_taken_over :
    Run.Along SelectorTrace.step (fun t e =>
      Configured (some .priorityRcThenMavlinkAscending) 500 e.now t (t.step e))
      (start 5 500 ()) takenOver :=
  source_changes_as_configured 5 500 () (by simp [takenOver, SelectorCall.InScope]; decide +kernel)

end Px4.ManualControl
