import Px4.Parameters.ParamFile
import Px4.Tinybson.Document

/-!
# Unsaved changes

A successful save clears all flags of `params_unsaved`, setting a parameter writes its flag anew
from whether the value changes, and resetting leaves it alone. So a flag is lost when a value is set
twice, and not raised by a reset.
-/

namespace Px4.Parameters

open Function Params Tinybson

/-- The calls of other modules. -/
inductive ParamOp where
  | paramSet (param : ParamT) (val : ParamValue)
  | paramSetNoNotification (param : ParamT) (val : ParamValue)
  | paramReset (param : ParamT)
  | paramSaveDefault (target : SaveTarget)

/-- A call is about integer parameters. -/
def ParamOp.Int32 (table : ParamTable) : ParamOp → Prop
  | paramSet param _ | paramSetNoNotification param _ | paramReset param =>
    table.paramType param = some .int32
  | paramSaveDefault _ => True

/-- The parameters, with the effective values at the last successful save. -/
structure Tracked where
  params : Params
  saved : ParamT → ParamValue

variable (fw : Firmware) (build : Build)

/-- A value that is set takes effect. -/
def Params.Writable (s : Params) (param : ParamT) : Prop :=
  ¬s.paramIsReadonly fw param ∧ s.userConfig.HasRoom fw.alloc param

namespace Tracked

/-- The parameters right after they were loaded. -/
def loaded (s : Params) : Tracked := ⟨s, s.effective fw⟩

def step (t : Tracked) : ParamOp → Tracked
  | .paramSet param val | .paramSetNoNotification param val =>
    { t with params := (t.params.paramSet fw param val).1 }
  | .paramReset param => { t with params := t.params.paramResetInternal fw param }
  | .paramSaveDefault target =>
    match t.params.paramSaveDefault fw build target with
    | (params, true) => ⟨params, params.effective fw⟩
    | (params, false) => { t with params }

/-- A parameter that differs from what was saved is flagged. -/
def Flagged (t : Tracked) : Prop :=
  ∀ p, fw.table.handleInRange p → t.params.effective fw p ≠ t.saved p →
    t.params.paramValueUnsaved fw p

/-- What keeps the flags: a parameter is not set to the value that it has, unless this value is
saved, and it is not reset to a value that is not saved, unless it is flagged already. -/
def KeepsFlags (t : Tracked) : ParamOp → Prop
  | .paramSet param val | .paramSetNoNotification param val =>
    t.params.Writable fw param → t.params.effective fw param = val → t.saved param = val
  | .paramReset param =>
    ¬t.params.paramIsReadonly fw param → t.params.runtimeDefault fw param ≠ t.saved param →
      t.params.paramValueUnsaved fw param
  | .paramSaveDefault _ => True

end Tracked

variable {fw build}

namespace Params

variable {s : Params} {param : ParamT}

variable {p : ParamT} {type : ParamType}

theorem paramValueUnsaved_eq (hp : fw.table.handleInRange p) :
    s.paramValueUnsaved fw p = s.paramsUnsaved p := if_pos hp

theorem handleInRange_of_paramType
    (htype : fw.table.paramType param = some type) : fw.table.handleInRange param := by
  obtain ⟨info, hinfo, -⟩ := Option.map_eq_some_iff.mp htype
  exact Option.isSome_iff_exists.mpr ⟨info, hinfo⟩

variable (h : s.Valid fw)
include h

section

variable (htype : fw.table.paramType param = some .int32)
include htype

variable {val : ParamValue}

/-- Setting a writable integer parameter changes its value and writes its flag. -/
theorem Valid.paramSet_writable
    (hwritable : s.Writable fw param) (hp : fw.table.handleInRange p) :
    (s.paramSet fw param val).1.effective fw p =
        update (s.effective fw) param val p ∧
      (s.paramSet fw param val).1.paramsUnsaved p =
        update s.paramsUnsaved param (decide (s.effective fw param ≠ val)) p := by
  obtain ⟨s', stored, hset, hstored, hvalid, hkeeps, hmap, hunsaved⟩ :=
    h.paramSetInternal_spec htype hwritable.1 val false
  obtain rfl : stored := by
    rw [← hstored, h.user.store_iff]
    exact hwritable.2
  rw [paramSet, hset, hvalid.effective_eq hp, hmap, hunsaved, if_pos rfl]
  refine ⟨?_, rfl⟩
  by_cases heq : p = param
  · subst heq
    rw [update_self, update_self, Option.getD_some]
  · rw [update_of_ne heq, update_of_ne heq, hkeeps.runtimeDefault_eq, h.effective_eq hp]

/-- Setting a parameter that is not writable changes nothing that can be seen. -/
theorem Valid.paramSet_not_writable (hwritable : ¬s.Writable fw param)
    (hp : fw.table.handleInRange p) :
    (s.paramSet fw param val).1.effective fw p = s.effective fw p ∧
      (s.paramSet fw param val).1.paramsUnsaved p = s.paramsUnsaved p := by
  by_cases hreadonly : s.paramIsReadonly fw param
  · rw [paramSet, Params.paramSetInternal, htype]
    dsimp only
    rw [if_pos hreadonly]
    exact ⟨rfl, rfl⟩
  · obtain ⟨s', stored, hset, hstored, hvalid, hkeeps, hmap, hunsaved⟩ :=
      h.paramSetInternal_spec htype hreadonly val false
    obtain rfl : stored = false := by
      rw [← hstored, ← Bool.not_eq_true, h.user.store_iff]
      exact fun hroom => hwritable ⟨hreadonly, hroom⟩
    rw [paramSet, hset, hvalid.effective_eq hp, hmap, hunsaved, hkeeps.runtimeDefault_eq,
      h.effective_eq hp]
    exact ⟨rfl, rfl⟩

end

theorem Valid.effective_paramResetInternal
    (hreadonly : ¬s.paramIsReadonly fw param) (hp : fw.table.handleInRange p) :
    (s.paramResetInternal fw param).effective fw p =
      update (s.effective fw) param (s.runtimeDefault fw param) p := by
  obtain ⟨hvalid, hkeeps, hmap, -⟩ := h.paramResetInternal_spec param
  rw [hvalid.effective_eq hp, hmap, if_neg hreadonly, hkeeps.runtimeDefault_eq]
  by_cases heq : p = param
  · subst heq
    rw [update_self, update_self, Option.getD_none]
  · rw [update_of_ne heq, update_of_ne heq, h.effective_eq hp]

end Params

namespace Tracked

variable {t : Tracked}

theorem flagged_iff : t.Flagged fw ↔ ∀ p, fw.table.handleInRange p →
    t.params.effective fw p ≠ t.saved p → t.params.paramsUnsaved p := by
  refine forall_congr' fun p => forall_congr' fun hp => ?_
  rw [paramValueUnsaved_eq hp]

variable {param : ParamT} {val : ParamValue} {flag : Bool} {s : Params} {target : SaveTarget}
  {op : ParamOp}

/-- If only one parameter is touched, only its flag counts. -/
theorem Flagged.update_iff (h : t.Flagged fw) (hparam : fw.table.handleInRange param)
    (heffective : ∀ p, fw.table.handleInRange p →
      s.effective fw p = update (t.params.effective fw) param val p)
    (hunsaved : ∀ p, fw.table.handleInRange p →
      s.paramsUnsaved p = update t.params.paramsUnsaved param flag p) :
    Flagged fw ⟨s, t.saved⟩ ↔ (val ≠ t.saved param → flag) := by
  rw [flagged_iff] at h ⊢
  constructor
  · intro hflagged
    have := hflagged param hparam
    rwa [heffective param hparam, hunsaved param hparam, update_self, update_self] at this
  · intro hflag p hp
    rw [heffective p hp, hunsaved p hp]
    by_cases heq : p = param
    · subst heq
      rwa [update_self, update_self]
    · rw [update_of_ne heq, update_of_ne heq]
      exact h p hp

theorem Flagged.congr
    (heffective : ∀ p, fw.table.handleInRange p → s.effective fw p = t.params.effective fw p)
    (hunsaved : ∀ p, fw.table.handleInRange p → s.paramsUnsaved p = t.params.paramsUnsaved p) :
    Flagged fw ⟨s, t.saved⟩ ↔ t.Flagged fw := by
  rw [flagged_iff, flagged_iff]
  refine forall_congr' fun p => forall_congr' fun hp => ?_
  rw [heffective p hp, hunsaved p hp]

section

variable (h : t.params.Valid fw)
include h

theorem valid_step : (t.step fw build op).params.Valid fw := by
  cases op with
  | paramSet param val => exact (h.paramSetInternal param val false).1
  | paramSetNoNotification param val => exact (h.paramSetInternal param val false).1
  | paramReset param => exact (h.paramResetInternal_spec param).1
  | paramSaveDefault target =>
    unfold step paramSaveDefault
    dsimp only
    split_ifs
    · exact { h with }
    · exact h

theorem flagged_paramSet_iff (hflagged : t.Flagged fw)
    (htype : fw.table.paramType param = some .int32) :
    Flagged fw ⟨(t.params.paramSet fw param val).1, t.saved⟩ ↔
      (t.params.Writable fw param → t.params.effective fw param = val → t.saved param = val) := by
  by_cases hwritable : t.params.Writable fw param
  · rw [hflagged.update_iff (handleInRange_of_paramType htype)
      (fun p hp => (h.paramSet_writable htype hwritable hp).1)
      (fun p hp => (h.paramSet_writable htype hwritable hp).2), decide_eq_true_iff]
    constructor
    · intro hchanged _ heq
      by_contra hne
      exact hchanged (Ne.symm hne) heq
    · intro hkeeps hne heq
      exact hne (hkeeps hwritable heq).symm
  · rw [Flagged.congr (fun p hp => (h.paramSet_not_writable htype hwritable hp).1)
      (fun p hp => (h.paramSet_not_writable htype hwritable hp).2)]
    exact ⟨fun _ hw => absurd hw hwritable, fun _ => hflagged⟩

theorem flagged_paramReset_iff (hflagged : t.Flagged fw)
    (htype : fw.table.paramType param = some .int32) :
    Flagged fw ⟨t.params.paramResetInternal fw param, t.saved⟩ ↔
      (¬t.params.paramIsReadonly fw param → t.params.runtimeDefault fw param ≠ t.saved param →
        t.params.paramValueUnsaved fw param) := by
  have hparam := handleInRange_of_paramType htype
  have hunsaved := (h.paramResetInternal_spec param).2.2.2
  rw [paramValueUnsaved_eq hparam]
  by_cases hreadonly : t.params.paramIsReadonly fw param
  · have hsame : t.params.paramResetInternal fw param = t.params := if_pos hreadonly
    rw [hsame]
    exact ⟨fun _ hw => absurd hreadonly hw, fun _ => hflagged⟩
  · rw [hflagged.update_iff hparam (fun p hp => h.effective_paramResetInternal hreadonly hp)
      (fun p _ => by rw [hunsaved, update_eq_self])]
    exact ⟨fun hflag _ => hflag, fun hflag => hflag hreadonly⟩

end

theorem flagged_paramSaveDefault (hflagged : t.Flagged fw) :
    Flagged fw (t.step fw build (.paramSaveDefault target)) := by
  unfold step paramSaveDefault
  dsimp only
  split_ifs
  · exact fun p _ hne => absurd rfl hne
  · exact hflagged

/-- A call keeps the flags if and only if it meets the condition. -/
theorem flagged_step_iff (h : t.params.Valid fw) (hflagged : t.Flagged fw)
    (hop : op.Int32 fw.table) : Flagged fw (t.step fw build op) ↔ t.KeepsFlags fw op := by
  cases op with
  | paramSet param val => exact flagged_paramSet_iff h hflagged hop
  | paramSetNoNotification param val => exact flagged_paramSet_iff h hflagged hop
  | paramReset param => exact flagged_paramReset_iff h hflagged hop
  | paramSaveDefault target =>
    exact iff_of_true (flagged_paramSaveDefault hflagged) trivial

end Tracked

/-- In a run of calls from a loaded state, every parameter that differs from what was saved last is
flagged, if and only if no call sets a parameter to the unsaved value that it has and no call resets
one without a flag to a value that is not saved. -/
theorem unsaved_flagged_iff (fw : Firmware) (build : Build) (s : Params) (hs : s.Valid fw)
    (ops : List ParamOp) (hops : ∀ op ∈ ops, op.Int32 fw.table) :
    Run.Always (Tracked.step fw build) (Tracked.Flagged fw) (.loaded fw s) ops ↔
      Run.Along (Tracked.step fw build) (Tracked.KeepsFlags fw) (.loaded fw s) ops := by
  apply Run.always_iff_along_of_invariant (I := fun t => t.params.Valid fw)
  · exact fun t op ht _ => Tracked.valid_step ht
  · exact fun t op ht hop hflagged => Tracked.flagged_step_iff ht hflagged hop
  · exact hs
  · exact fun p _ hne => absurd rfl hne
  · exact hops

/-- The default file, on a disk that works. -/
def goodFile : SaveTarget := .file fun _ => { disk := some healthyDisk, reopen := some }

/-- A parameter is set, set back, set to another value, and saved. -/
theorem unsaved_flagged_back_and_forth :
    Run.Always (Tracked.step twoParams ⟨true⟩) (Tracked.Flagged twoParams)
      (.loaded twoParams (.init 0 1))
      [.paramSet 0 5, .paramSet 0 10, .paramSetNoNotification 0 6, .paramReset 0,
        .paramSaveDefault goodFile, .paramReset 0] :=
  (unsaved_flagged_iff twoParams ⟨true⟩ (.init 0 1) (init_valid ..) _
    (by simp [ParamOp.Int32, show twoParams.table.paramType 0 = some .int32 from rfl])).mpr
    ⟨fun _ => by decide +kernel, fun _ => by decide +kernel, fun _ => by decide +kernel,
      fun _ => by decide +kernel, trivial, fun _ => by decide +kernel, trivial⟩

/-- The second call of `param_set` with the same value takes the flag back. A reset after a save
raises no flag. -/
theorem unsaved_flag_missing :
    (let t := Run.after (Tracked.step twoParams ⟨true⟩) (.loaded twoParams (.init 0 1))
      [.paramSet 0 5, .paramSet 0 5]
    t.params.effective twoParams 0 = 5 ∧ t.saved 0 = 10 ∧
      t.params.paramValueUnsaved twoParams 0 = false) ∧
    let t := Run.after (Tracked.step twoParams ⟨true⟩) (.loaded twoParams (.init 0 1))
      [.paramSet 0 5, .paramSaveDefault goodFile, .paramReset 0]
    t.params.effective twoParams 0 = 10 ∧ t.saved 0 = 5 ∧
      t.params.paramValueUnsaved twoParams 0 = false := by
  decide +kernel

end Px4.Parameters
