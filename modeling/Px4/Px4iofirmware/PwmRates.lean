import Px4.Common.Run

/-!
# The PWM rates of the IO processor

The registers `PX4IO_P_SETUP_PWM_RATES`, `PWM_DEFAULTRATE` and `PWM_ALTRATE` of
`src/modules/px4iofirmware/registers.c`. `mask` has the channels of the rate groups.
-/

namespace Px4.Px4iofirmware

/-- The registers, the rates of the groups, and whether a write has been accepted. -/
structure PwmSetup where
  pwmRates : UInt16 := 0
  pwmDefaultrate : UInt16 := 50
  pwmAltrate : UInt16 := 200
  pwmError : Bool := false
  groupRate : Fin 8 → UInt16
  configured : Bool := false

namespace PwmSetup

variable (mask : Fin 8 → UInt32)

/-- The channels of a group that a map has. -/
def alt (map : UInt16) (group : Fin 8) : UInt32 := map.toUInt32 &&& mask group

/-- No group has channels of both kinds. -/
def Legal (map : UInt16) : Prop := ∀ group, alt mask map group = 0 ∨ alt mask map group = mask group

instance : Decidable (Legal mask map) := inferInstanceAs (Decidable (∀ _, _))

/-- The first pass is the condition; the second sets the rates of the registers, written last. -/
def pwmConfigureRates (s : PwmSetup) (map defaultrate altrate : UInt16) : PwmSetup :=
  if Legal mask map then
    { s with
      groupRate := fun group =>
        if mask group = 0 then s.groupRate group
        else if alt mask map group ≠ 0 then s.pwmAltrate else s.pwmDefaultrate
      pwmRates := map, pwmDefaultrate := defaultrate, pwmAltrate := altrate, configured := true }
  else { s with pwmError := true }

inductive Write where
  | rates (value : UInt16)
  | defaultrate (value : UInt16)
  | altrate (value : UInt16)

def constrainRate (value : UInt16) : UInt16 :=
  if value < 25 then 25 else if value > 400 then 400 else value

/-- The rate 0 selects Oneshot. -/
def constrainAltrate (value : UInt16) : UInt16 := if value ≠ 0 then constrainRate value else value

def registersSetOne (s : PwmSetup) : Write → PwmSetup
  | .rates value => s.pwmConfigureRates mask (value &&& 0xff) s.pwmDefaultrate s.pwmAltrate
  | .defaultrate value =>
    s.pwmConfigureRates mask s.pwmRates (constrainRate value) s.pwmAltrate
  | .altrate value =>
    s.pwmConfigureRates mask s.pwmRates s.pwmDefaultrate (constrainAltrate value)

/-- After a write has been accepted, every group with channels has the rate of its register. -/
def Follows (s : PwmSetup) : Prop := s.configured → ∀ group, mask group ≠ 0 →
  s.groupRate group =
    if alt mask s.pwmRates group = mask group then s.pwmAltrate else s.pwmDefaultrate

/-- The write of a rate does not change it, or no group has it. -/
def KeepsRates (s : PwmSetup) : Write → Prop
  | .rates _ => True
  | .defaultrate value => constrainRate value = s.pwmDefaultrate ∨
      ∀ group, mask group ≠ 0 → alt mask s.pwmRates group ≠ 0
  | .altrate value => constrainAltrate value = s.pwmAltrate ∨
      ∀ group, mask group ≠ 0 → alt mask s.pwmRates group = 0

variable {mask} {s : PwmSetup}

variable {map defaultrate altrate : UInt16} {w : Write}

theorem Follows.pwmConfigureRates (h : s.Follows mask)
    (hdefault : ∀ group, mask group ≠ 0 → alt mask map group = 0 → defaultrate = s.pwmDefaultrate)
    (halt : ∀ group, mask group ≠ 0 → alt mask map group ≠ 0 → altrate = s.pwmAltrate) :
    (s.pwmConfigureRates mask map defaultrate altrate).Follows mask := by
  unfold PwmSetup.pwmConfigureRates
  split
  next hlegal =>
    intro _ group hgroup
    dsimp only
    rw [if_neg hgroup]
    rcases hlegal group with hnone | hall
    · rw [hdefault group hgroup hnone, hnone, if_neg (not_not.mpr rfl), if_neg hgroup.symm]
    · rw [halt group hgroup (hall ▸ hgroup), hall, if_pos hgroup, if_pos rfl]
  · exact h

theorem Follows.registersSetOne (h : s.Follows mask) (hw : s.KeepsRates mask w) :
    (s.registersSetOne mask w).Follows mask := by
  cases w with
  | rates value => exact h.pwmConfigureRates (fun _ _ _ => rfl) fun _ _ _ => rfl
  | defaultrate value =>
    refine h.pwmConfigureRates (fun group hgroup hnone => ?_) fun _ _ _ => rfl
    exact hw.resolve_right fun hall => hall group hgroup hnone
  | altrate value =>
    refine h.pwmConfigureRates (fun _ _ _ => rfl) fun group hgroup hall => ?_
    exact hw.resolve_right fun hnone => hall (hnone group hgroup)

/-- **The PWM rates follow the registers** from the first accepted write on, if no write changes a
rate that a group has. A write that splits a group is refused. -/
theorem rates_follow_registers (mask : Fin 8 → UInt32) (groupRate : Fin 8 → UInt16)
    (writes : List Write)
    (h : Run.Along (registersSetOne mask) (KeepsRates mask) { groupRate } writes) :
    let s := Run.after (registersSetOne mask) { groupRate } writes
    s.Follows mask ∧ ∀ value, ¬Legal mask (value &&& 0xff) →
      s.registersSetOne mask (.rates value) = { s with pwmError := true } := by
  refine ⟨?_, fun value hvalue => if_neg hvalue⟩
  exact Run.after_of_invariant (fun _ _ hs hw => hs.registersSetOne hw) nofun h

/-- One group of two channels. -/
def oneGroup (group : Fin 8) : UInt32 := if group.val = 0 then 3 else 0

theorem rates_follow_registers_oneshot :
    Follows oneGroup (Run.after (registersSetOne oneGroup) { groupRate := fun _ => 0 }
      [.rates 0, .altrate 0]) :=
  (rates_follow_registers _ _ [.rates 0, .altrate 0] ⟨trivial, .inr (by decide), trivial⟩).1

/-- The group keeps the old rate. -/
theorem defaultrate_not_set :
    let s := Run.after (registersSetOne oneGroup) { groupRate := fun _ => 0 }
      [.rates 0, .defaultrate 100]
    s.configured ∧ s.pwmDefaultrate = 100 ∧
      ∀ group, oneGroup group ≠ 0 → s.groupRate group = 50 := by
  decide

/-! ## The range of the rates -/

def InRange (rate : UInt16) : Prop := 25 ≤ rate ∧ rate ≤ 400

/-- No group is split, and the rates are in the range that the outputs can have, or Oneshot. -/
structure Safe (mask : Fin 8 → UInt32) (s : PwmSetup) : Prop where
  legal : Legal mask s.pwmRates
  default : InRange s.pwmDefaultrate
  alt : s.pwmAltrate = 0 ∨ InRange s.pwmAltrate
  group : s.configured → ∀ group, mask group ≠ 0 →
    s.groupRate group = 0 ∨ InRange (s.groupRate group)

theorem inRange_constrainRate (value) : InRange (constrainRate value) := by
  unfold constrainRate InRange
  split_ifs <;> grind

theorem Safe.pwmConfigureRates (h : s.Safe mask) (hdefault : InRange defaultrate)
    (halt : altrate = 0 ∨ InRange altrate) :
    (s.pwmConfigureRates mask map defaultrate altrate).Safe mask := by
  unfold PwmSetup.pwmConfigureRates
  split
  next hlegal =>
    refine ⟨hlegal, hdefault, halt, fun _ group hgroup => ?_⟩
    dsimp only
    rw [if_neg hgroup]
    split_ifs
    · exact h.alt
    · exact .inr h.default
  · exact { h with }

/-- **The outputs never get a rate that is out of range**, whatever is written to the registers, and
although a write sets the rates of the registers before it. -/
theorem rates_in_range (mask : Fin 8 → UInt32) (groupRate : Fin 8 → UInt16)
    (writes : List Write) : (Run.after (registersSetOne mask) { groupRate } writes).Safe mask := by
  refine Run.after_of_invariant (C := fun _ _ => True) (fun s w hs _ => ?_)
    ⟨fun _ => .inl UInt32.zero_and, inRange_constrainRate 50, .inr (inRange_constrainRate 200),
      nofun⟩ (Run.along_of_forall fun _ _ => trivial)
  cases w with
  | rates value => exact hs.pwmConfigureRates hs.default hs.alt
  | defaultrate value => exact hs.pwmConfigureRates (inRange_constrainRate value) hs.alt
  | altrate value =>
    refine hs.pwmConfigureRates hs.default ?_
    unfold constrainAltrate
    split_ifs with hzero
    · exact .inr (inRange_constrainRate value)
    · exact .inl (not_not.mp hzero)

end PwmSetup

end Px4.Px4iofirmware
