import Mathlib.Data.List.Range
import Mathlib.Logic.Function.Iterate
import Mathlib.Tactic.SplitIfs

/-!
# Counting and listing the parameters of a CAN node

The parameter service of `src/drivers/uavcan/uavcan_main.cpp`, for list requests to one node and
calls that succeed. The number of parameters and the index are a `uint8_t`.
-/

namespace Px4.Uavcan

open Function List

/-- A response of `GetSet`. The name is empty behind the last parameter. -/
structure Response (V : Type*) where
  name : List UInt8
  value : V

/-- The name as it is published. -/
def Response.paramId (response : Response V) : List UInt8 :=
  (response.name.take 16).takeWhile (· ≠ 0)

/-- `uavcan_parameter_value_s`. -/
structure ParameterValue (V : Type*) where
  nodeId : UInt8
  paramId : List UInt8
  paramIndex : UInt8
  paramCount : UInt8
  value : V

/-- The members of the service, the outstanding call (node and index) and the publications. -/
structure ParamService (V : Type*) where
  paramCounts : UInt8 → UInt8 := fun _ => 0
  countInProgress : Bool := false
  countIndex : UInt8 := 0
  paramInProgress : Bool := false
  paramIndex : UInt8 := 0
  paramListInProgress : Bool := false
  paramListNodeId : UInt8 := 1
  call : Option (UInt8 × UInt8) := none
  published : List (ParameterValue V) := []

namespace ParamService

variable {V : Type*} (s : ParamService V)

def paramCount (node : UInt8) : ParamService V :=
  { s with countInProgress := true, countIndex := 0, call := some (node, 0) }

/-- `cb_getset`; `result` is `none` if the call was not successful. -/
def cbGetset (node : UInt8) (result : Option (Response V)) : ParamService V :=
  if s.countInProgress then
    match result with
    | some response =>
      if response.name ≠ [] then
        let index := s.countIndex + 1
        { s with
          countIndex := index, paramCounts := update s.paramCounts node index
          call := some (node, index) }
      else { s with countInProgress := false, countIndex := 0 }
    | none =>
      { s with
        paramCounts := update s.paramCounts node 0, countInProgress := false, countIndex := 0 }
  else
    { s with
      published := s.published ++ result.toList.map fun response =>
        { nodeId := node, paramId := response.paramId, paramIndex := s.paramIndex
          paramCount := s.paramCounts node, value := response.value }
      paramInProgress := false
      paramIndex := s.paramIndex + 1 }

def handleRequest (node : UInt8) : ParamService V :=
  if s.paramCounts node ≠ 0 then
    { s with paramIndex := 0, paramListInProgress := true, paramListNodeId := node }
  else s.paramCount node

def listing : Bool := s.paramListInProgress && !s.paramInProgress && !s.countInProgress

/-- The end of a list. -/
def advanceList : ParamService V :=
  if s.listing && s.paramIndex ≥ s.paramCounts s.paramListNodeId then
    { s with paramListInProgress := false }
  else s

def requestNext : ParamService V :=
  if s.listing then
    { s with paramInProgress := true, call := some (s.paramListNodeId, s.paramIndex) }
  else s

/-- The parameter service in `Run`; `request` is the node of a new list request. -/
def handleRequests (request : Option UInt8) : ParamService V :=
  let busy := s.paramListInProgress || s.paramInProgress || s.countInProgress
  let s := match request, busy with
    | some node, false => s.handleRequest node
    | _, _ => s
  s.advanceList.requestNext

/-- A round of `Run` that finds the response to the outstanding call, if there is one. The node has
`param i` at the index `i`. -/
def round (param : ℕ → Response V) (s : ParamService V) : ParamService V :=
  match s.call with
  | some (node, index) =>
    ({ s with call := none }.cbGetset node (some (param index.toNat))).handleRequests none
  | none => s.handleRequests none

/-! ## Rounds -/

variable (node : UInt8) (param : ℕ → Response V)

/-- The call for the index `t` is outstanding, and so many parameters have been found. -/
def counting (t : ℕ) : ParamService V :=
  { s with
    countInProgress := true, countIndex := .ofNat t, call := some (node, .ofNat t)
    paramCounts := if t = 0 then s.paramCounts else update s.paramCounts node (.ofNat t) }

def counted (t : ℕ) : ParamService V :=
  { s.counting node t with countInProgress := false, countIndex := 0, call := none }

/-- The first `j` of `n` parameters of the node, as they are published. -/
def values (n j : ℕ) : List (ParameterValue V) :=
  (range j).map fun i => ⟨node, (param i).paramId, .ofNat i, .ofNat n, (param i).value⟩

/-- The first `j` parameters are published, and the call for the next one is outstanding. -/
def listed (n j : ℕ) : ParamService V :=
  { s with
    paramListNodeId := node, paramIndex := .ofNat j
    paramListInProgress := j < n, paramInProgress := j < n
    call := if j < n then some (node, .ofNat j) else none
    published := s.published ++ values node param n j }

structure Idle : Prop where
  count : ¬s.countInProgress
  param : ¬s.paramInProgress
  list : ¬s.paramListInProgress

variable {s node param}

variable {t n j : ℕ}

theorem round_counting (h : s.Idle) : (s.counting node t).round param =
      if (param (t % 256)).name = [] then s.counted node t else s.counting node (t + 1) := by
  have hupdate : update (s.counting node t).paramCounts node (.ofNat t + 1) =
      update s.paramCounts node (.ofNat t + 1) := by
    unfold counting
    split_ifs <;> simp
  by_cases hname : (param (t % 256)).name = []
  · simp [round, cbGetset, handleRequests, advanceList, requestNext, listing, counting, counted,
      h.list, hname]
  · simpa [round, cbGetset, handleRequests, advanceList, requestNext, listing, counting, h.list,
      hname] using hupdate

theorem iterate_counting (h : s.Idle) (hname : ∀ i < t, (param (i % 256)).name ≠ []) :
    (round param)^[t] (s.paramCount node) = s.counting node t := by
  induction t with
  | zero => rfl
  | succ t ih =>
    rw [iterate_succ_apply', ih fun i hi => hname i (by omega), round_counting h,
      if_neg (hname t t.lt_succ_self)]

theorem round_listed (h : s.Idle) (hn : n ≤ 255) (hcount : s.paramCounts node = .ofNat n)
    (hj : j < n) : (s.listed node param n j).round param = s.listed node param n (j + 1) := by
  have hmod : j % 256 = j := by omega
  have hle : UInt8.ofNat n ≤ .ofNat j + 1 ↔ ¬j + 1 < n := by
    rw [UInt8.le_iff_toNat_le, UInt8.toNat_add, UInt8.toNat_ofNat', UInt8.toNat_ofNat']
    change _ ≤ (j % 256 + 1) % 256 ↔ _
    omega
  by_cases hlast : j + 1 < n <;>
  simp [round, cbGetset, handleRequests, advanceList, requestNext, listing, listed, values,
    range_succ, h.count, hj, hmod, hcount, hlast, hle]

theorem iterate_listed (h : s.Idle) (hn : n ≤ 255) (hcount : s.paramCounts node = .ofNat n)
    (hj : j ≤ n) :
    (round param)^[j] (s.listed node param n 0) = s.listed node param n j := by
  induction j with
  | zero => rfl
  | succ j ih => rw [iterate_succ_apply', ih (by omega), round_listed h hn hcount hj]

theorem handleRequests_list (h : s.Idle) (hpos : 1 ≤ n) (hn : n ≤ 255)
    (hcount : s.paramCounts node = .ofNat n) :
    s.handleRequests (some node) = s.listed node param n 0 := by
  have hzero : UInt8.ofNat n ≠ 0 := by
    rw [ne_eq, ← UInt8.toNat_inj, UInt8.toNat_ofNat']
    change ¬n % 256 = 0
    omega
  simp [handleRequests, handleRequest, advanceList, requestNext, listing, listed, values, h.count,
    h.param, h.list, hcount, hzero, show 0 < n from hpos]

/-- The count ends with the number of the parameters, and then a list has each of them once. -/
def CountsAndLists (s : ParamService V) (node : UInt8) (param : ℕ → Response V) (n : ℕ) : Prop :=
  ∃ rounds, let c := (round param)^[rounds] (s.paramCount node)
    c.countInProgress = false ∧ (c.paramCounts node).toNat = n ∧
      ∃ rounds, let l := (round param)^[rounds] (c.handleRequests (some node))
        l.paramListInProgress = false ∧ l.published = s.published ++ values node param n n

/-- **Counting and listing ends** with all parameters if and only if there are less than 256. -/
theorem countsAndLists_iff (h : s.Idle) (hpos : 1 ≤ n)
    (hname : ∀ i, (param i).name = [] ↔ n ≤ i) : s.CountsAndLists node param n ↔ n ≤ 255 := by
  constructor
  · rintro ⟨rounds, hcount, -⟩
    by_contra hlarge
    -- the index is never one behind the last parameter
    rw [iterate_counting h fun i _ => (hname _).not.mpr (by omega)] at hcount
    cases hcount
  · intro hn
    have hcounted : (s.counted node n).paramCounts node = .ofNat n := by
      simp [counted, counting, Nat.ne_of_gt hpos]
    have hidle : (s.counted node n).Idle := ⟨Bool.false_ne_true, h.param, h.list⟩
    have hcount : (round param)^[n + 1] (s.paramCount node) = s.counted node n := by
      rw [iterate_succ_apply', iterate_counting h fun i _ => (hname _).not.mpr (by omega),
        round_counting h, if_pos ((hname _).mpr (by omega))]
    refine ⟨n + 1, ?_⟩
    rw [hcount]
    refine ⟨rfl, by rw [hcounted, UInt8.toNat_ofNat']; omega, n, ?_⟩
    rw [handleRequests_list hidle hpos hn hcounted, iterate_listed hidle hn hcounted le_rfl]
    exact ⟨by simp [listed], rfl⟩

/-- A node with `n` parameters. -/
def parameters (n i : ℕ) : Response Unit := ⟨if i < n then [97] else [], ()⟩

theorem countsAndLists_three : ({} : ParamService Unit).CountsAndLists 9 (parameters 3) 3 :=
  (countsAndLists_iff ⟨by decide, by decide, by decide⟩ (by decide) fun i => by
    simp [parameters]).mpr (by decide)

/-- The index is 0 again behind the last parameter. -/
theorem count_starts_again :
    let s := (round (parameters 256))^[257] (({} : ParamService Unit).paramCount 9)
    s.countInProgress = true ∧ s.countIndex = 1 ∧ s.call = some (9, 1) := by
  decide +kernel

end ParamService

end Px4.Uavcan
