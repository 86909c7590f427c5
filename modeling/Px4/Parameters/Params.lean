import Px4.Parameters.LayerStore
import Px4.Tinybson.Encoder

/-!
# Parameters

`src/lib/parameters/parameters.cpp` and `parameters_common.cpp`: `user_config` lies over
`runtime_defaults`, and this over the defaults of the firmware. The functions here run one at a
time. What they notify, and when they ask for an autosave, is left out.
-/

namespace Px4.Tinybson

/-- The bytes by which `strcmp` compares; a string that ends first is smaller. -/
def CString.key (s : CString) : List ℕ := s.1.map UInt8.toNat

end Px4.Tinybson

namespace Px4.Parameters

open Function List Tinybson UInt16

/-- `param_value_u`: the bits of an `int32_t` or of a `float`. -/
abbrev ParamValue := BitVec 32

/-- `param_type_t` of a parameter in the table. -/
inductive ParamType where
  | int32
  | float
deriving DecidableEq

/-- A parameter, from `px4::parameters`, `parameters_type` and `parameters_readonly`. -/
structure ParamInfo where
  name : CString
  type : ParamType
  val : ParamValue
  readonly : Bool

/-- The generated table, sorted by name; the last `uint16_t` is `PARAM_INVALID`. -/
structure ParamTable where
  infos : List ParamInfo
  sorted : infos.Pairwise (·.name.key < ·.name.key)
  length_lt : infos.length < 65535

namespace ParamTable

variable (table : ParamTable)

/-- The entry of a parameter. There is one if `handle_in_range`. -/
def info (param : ParamT) : Option ParamInfo := table.infos[param.toNat]?

def handleInRange (param : ParamT) : Bool := (table.info param).isSome

/-- `param_type`; `none` is `PARAM_TYPE_UNKNOWN`. -/
def paramType (param : ParamT) : Option ParamType := (table.info param).map (·.type)

/-- `firmware_defaults.get`. -/
def firmwareDefault (param : ParamT) : ParamValue :=
  match table.info param with
  | some info => info.val
  | none => 0

/-- `for (param_t param = 0; handle_in_range(param); param++)`. -/
def params : List ParamT := (range table.infos.length).map ofNat

/-- The loop of `param_find_internal`, in at most `fuel` rounds. -/
def findLoop (name : CString) : ℕ → ℕ → ℕ → Option ParamT
  | 0, _, _ => none
  | fuel + 1, front, last =>
    if front ≤ last then
      let middle := front + (last - front) / 2
      match table.infos[middle]? with
      | none => none
      | some info =>
        if name.key = info.name.key then some (ofNat middle)
        else if middle = front then none
        else if name.key < info.name.key then findLoop name fuel front middle
        else findLoop name fuel middle last
    else none

/-- `param_find_internal`; `none` is `PARAM_INVALID`. Every round makes the range smaller. -/
def find (name : CString) : Option ParamT :=
  table.findLoop name (table.infos.length + 1) 0 table.infos.length

variable {table}

variable {param : ParamT}

theorem handleInRange_iff : table.handleInRange param ↔ param.toNat < table.infos.length := by
  simp [handleInRange, info]

theorem ne_paramUnused (h : table.handleInRange param) : param ≠ paramUnused := by
  rintro rfl
  have hlt := handleInRange_iff.mp h
  have := table.length_lt
  change 65535 < _ at hlt
  omega

end ParamTable

/-- Floating point: `fabsf(a - b)` against `FLT_EPSILON`, and the conversions. -/
structure FloatOps where
  exceeds : ParamValue → ParamValue → Bool
  within : ParamValue → ParamValue → Bool
  toDouble : ParamValue → BitVec 64
  ofDouble : BitVec 64 → ParamValue

/-- The firmware: its table and the libraries that it is linked with. -/
structure Firmware where
  table : ParamTable
  qsort : Qsort ParamValue
  alloc : Allocator ParamValue
  floats : FloatOps

structure Params where
  userConfig : Layer ParamValue
  runtimeDefaults : Layer ParamValue
  paramsUnsaved : ParamT → Bool
  paramsLocked : Bool

namespace Params

variable (fw : Firmware) (s : Params)

/-- The parameters at the start, with the arrays that the layers were given. -/
def init (userSlots runtimeSlots : Addr) : Params where
  userConfig := .construct 32 4 userSlots
  runtimeDefaults := .construct 32 4 runtimeSlots
  paramsUnsaved := fun _ => false
  paramsLocked := false

/-- `runtime_defaults.get`. -/
def runtimeDefault (param : ParamT) : ParamValue :=
  s.runtimeDefaults.get fw.table.firmwareDefault param

/-- `user_config.get`, the effective value. -/
def effective (param : ParamT) : ParamValue :=
  s.userConfig.get (s.runtimeDefault fw) param

/-- `param_get`; nothing if it returns an error. -/
def paramGet (param : ParamT) : Option ParamValue :=
  if fw.table.handleInRange param then some (s.effective fw param) else none

def paramValueUnsaved (param : ParamT) : Bool :=
  if fw.table.handleInRange param then s.paramsUnsaved param else false

def paramIsReadonly (param : ParamT) : Bool :=
  s.paramsLocked && (fw.table.info param).any (·.readonly)

/-- `param_changed` in `param_set_internal`. -/
def paramChanged (type : ParamType) (old new : ParamValue) : Bool :=
  match type with
  | .int32 => old ≠ new
  | .float => fw.floats.exceeds old new

/-- `param_set_internal`; the result says whether it returns `PX4_OK`. -/
def paramSetInternal (param : ParamT) (val : ParamValue) (markSaved : Bool) : Params × Bool :=
  match fw.table.paramType param with
  | none => (s, false)
  | some type =>
    if s.paramIsReadonly fw param then (s, false)
    else
      match s.userConfig.store fw.qsort fw.alloc param val with
      | (userConfig, true) =>
        ({ s with
          userConfig
          paramsUnsaved := update s.paramsUnsaved param
            (!markSaved && paramChanged fw type (s.effective fw param) val) }, true)
      | (userConfig, false) => ({ s with userConfig }, false)

/-- `param_set` and `param_set_no_notification`. -/
def paramSet (param : ParamT) (val : ParamValue) : Params × Bool :=
  s.paramSetInternal fw param val false

def paramResetInternal (param : ParamT) : Params :=
  if s.paramIsReadonly fw param then s
  else if fw.table.handleInRange param then
    { s with userConfig := s.userConfig.reset fw.qsort param }
  else s

/-! ## The layers as maps -/

/-- The invariant of the parameters: `user_config` holds parameters of the table only. -/
structure Valid (s : Params) : Prop where
  user : s.userConfig.Ready
  runtime : s.runtimeDefaults.Ready
  inRange : ∀ param, (s.userConfig.map param).isSome → fw.table.handleInRange param

/-- What setting and resetting leave alone. The array of `user_config` does not shrink. -/
structure Keeps (s s' : Params) : Prop where
  runtimeDefaults_eq : s'.runtimeDefaults = s.runtimeDefaults
  paramsLocked_eq : s'.paramsLocked = s.paramsLocked
  nSlots_le : s.userConfig.nSlots ≤ s'.userConfig.nSlots

variable {fw s}

theorem Keeps.refl (s : Params) : s.Keeps s := ⟨rfl, rfl, le_rfl⟩

variable {s' : Params} {param : ParamT} {type : ParamType}

theorem Keeps.runtimeDefault_eq (h : s.Keeps s') : s'.runtimeDefault fw = s.runtimeDefault fw := by
  funext param
  rw [runtimeDefault, runtimeDefault, h.runtimeDefaults_eq]

theorem init_valid (fw userSlots runtimeSlots) : (init userSlots runtimeSlots).Valid fw := by
  refine ⟨.construct .., .construct .., fun param hsome => ?_⟩
  cases hsome

variable (h : s.Valid fw)
include h

/-- The effective value is the user's, or else the default. -/
theorem Valid.effective_eq (hp : fw.table.handleInRange param) :
    s.effective fw param = (s.userConfig.map param).getD (s.runtimeDefault fw param) :=
  h.user.wf.get_eq (ParamTable.ne_paramUnused hp)

/-- Setting a parameter stores its value and its flag, or changes no value. -/
theorem Valid.paramSetInternal_spec (htype : fw.table.paramType param = some type)
    (hreadonly : ¬s.paramIsReadonly fw param) (val markSaved) :
    ∃ s' stored, s.paramSetInternal fw param val markSaved = (s', stored) ∧
      (s.userConfig.store fw.qsort fw.alloc param val).2 = stored ∧ s'.Valid fw ∧ s.Keeps s' ∧
      s'.userConfig.map =
        (if stored then update s.userConfig.map param (some val) else s.userConfig.map) ∧
      s'.paramsUnsaved =
        if stored then update s.paramsUnsaved param
          (!markSaved && paramChanged fw type (s.effective fw param) val)
        else s.paramsUnsaved := by
  have hp : fw.table.handleInRange param := by
    rw [ParamTable.handleInRange, Option.isSome_iff_exists]
    obtain ⟨info, hinfo, -⟩ := Option.map_eq_some_iff.mp htype
    exact ⟨info, hinfo⟩
  obtain ⟨l, stored, hstore, hready, hslots, hmap⟩ :=
    h.user.store fw.qsort fw.alloc (ParamTable.ne_paramUnused hp) val
  have hrange : ∀ p, (l.map p).isSome → fw.table.handleInRange p := by
    intro p hsome
    rw [hmap] at hsome
    by_cases heq : p = param
    · exact heq ▸ hp
    split at hsome
    · rw [update_of_ne heq] at hsome
      exact h.inRange p hsome
    · exact h.inRange p hsome
  unfold paramSetInternal
  rw [htype]
  dsimp only
  rw [if_neg hreadonly, hstore]
  cases stored with
  | true => exact ⟨_, true, rfl, rfl, ⟨hready, h.runtime, hrange⟩, ⟨rfl, rfl, hslots⟩, hmap, rfl⟩
  | false =>
    exact ⟨_, false, rfl, rfl, ⟨hready, h.runtime, hrange⟩, ⟨rfl, rfl, hslots⟩, hmap, rfl⟩

theorem Valid.paramSetInternal (param : ParamT) (val markSaved) :
    let r := (s.paramSetInternal fw param val markSaved).1
    r.Valid fw ∧ s.Keeps r := by
  cases htype : fw.table.paramType param with
  | none =>
    rw [Params.paramSetInternal, htype]
    exact ⟨h, .refl s⟩
  | some type =>
    by_cases hreadonly : s.paramIsReadonly fw param
    · rw [Params.paramSetInternal, htype]
      dsimp only
      rw [if_pos hreadonly]
      exact ⟨h, .refl s⟩
    · obtain ⟨s', stored, hset, -, hvalid, hkeeps, -⟩ :=
        h.paramSetInternal_spec htype hreadonly val markSaved
      rw [hset]
      exact ⟨hvalid, hkeeps⟩

/-- Resetting a parameter that is not read-only removes it. -/
theorem Valid.paramResetInternal_spec (param : ParamT) :
    let r := s.paramResetInternal fw param
    r.Valid fw ∧ s.Keeps r ∧
      r.userConfig.map = (if s.paramIsReadonly fw param then s.userConfig.map
        else update s.userConfig.map param none) ∧
      r.paramsUnsaved = s.paramsUnsaved := by
  unfold paramResetInternal
  split_ifs with hreadonly hp
  · exact ⟨h, .refl s, rfl, rfl⟩
  · obtain ⟨hready, hslots, hmap⟩ := h.user.reset fw.qsort (ParamTable.ne_paramUnused hp)
    refine ⟨⟨hready, h.runtime, fun p hsome => ?_⟩, ⟨rfl, rfl, hslots.ge⟩, hmap, rfl⟩
    rw [hmap] at hsome
    by_cases heq : p = param
    · exact heq ▸ hp
    · rw [update_of_ne heq] at hsome
      exact h.inRange p hsome
  · -- a handle that is not in range is not stored
    refine ⟨h, .refl s, ?_, rfl⟩
    have hnone : s.userConfig.map param = none := by
      rw [← Option.not_isSome_iff_eq_none]
      exact fun hsome => hp (h.inRange param hsome)
    rw [← hnone, update_eq_self]

end Params

/-- A firmware with the two parameters `A` and `B`. -/
def twoParams : Firmware where
  table :=
    { infos := [⟨⟨[65], by decide⟩, .int32, 10, false⟩, ⟨⟨[66], by decide⟩, .int32, 20, true⟩]
      sorted := by decide
      length_lt := by decide }
  qsort := .insertion _
  alloc := .single _ 2
  floats := ⟨fun _ _ => false, fun _ _ => true, fun _ => 0, fun _ => 0⟩

end Px4.Parameters
