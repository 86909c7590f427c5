import Mathlib.Data.List.Nodup
import Px4.Common.Run

/-!
# Multi-instance advertisers

`uORBDeviceMaster.cpp` and `uORBManager.cpp`: `DeviceMaster::advertise` looks for a number that has
no node, or one that nobody has advertised, and `Manager::node_open` opens the path with the number
it is left with.

A handle is the node it points to, named by its place in the list of nodes, as nodes are never
deleted. Topic names are short enough for their paths, and there are files to open. `M` stands for
`ORB_MULTI_MAX_INSTANCES`.
-/

namespace Px4.Uorb

open List Option Run

/-- What a node of the topic is registered with. -/
structure TopicNode where
  path : ℕ
  instanceNumber : ℕ
  advertised : Bool

def eexist : ℕ := 17

def einval : ℕ := 22

namespace DeviceMaster

variable (M : ℕ) (nodes : List TopicNode)

/-- The node at a path. -/
def getDev (path : ℕ) : Option ℕ := nodes.findIdx? fun node => node.path = path

def getDeviceNodeLocked (inst : ℕ) : Option ℕ :=
  nodes.findIdx? fun node => node.instanceNumber = inst

def isAdvertised (handle : ℕ) : Bool := (nodes[handle]?.map (·.advertised)).getD false

def setAdvertised (handle : ℕ) (advertised : Bool) : List TopicNode :=
  nodes.modify handle fun node => { node with advertised }

/-- One turn of the loop of `advertise`: a new node is registered, or an existing one is taken. -/
def tryInstance (isAdvertiser : Bool) (groupTries : ℕ) : Option (List TopicNode) :=
  if (getDev nodes groupTries).isSome then
    match getDeviceNodeLocked nodes groupTries with
    | none => none
    | some existing =>
      if !isAdvertised nodes existing || !isAdvertiser then
        some (if isAdvertiser then setAdvertised nodes existing true else nodes)
      else none
  else some (nodes ++ [⟨groupTries, groupTries, isAdvertiser⟩])

/-- The loop of `advertise`, with the tries left: the nodes, `*instance`, and whether it is OK. -/
def tryInstances (isAdvertiser : Bool) (inst groupTries : ℕ) : ℕ → List TopicNode × ℕ × Bool
  | 0 => (nodes, inst, false)
  | left + 1 =>
    match tryInstance nodes isAdvertiser groupTries with
    | some nodes' => (nodes', groupTries, true)
    | none => tryInstances isAdvertiser groupTries (groupTries + 1) left

/-- `DeviceMaster::advertise` with an instance pointer. -/
def advertise (isAdvertiser : Bool) (inst : ℕ) : List TopicNode × ℕ × Bool :=
  if inst ≥ M then (nodes, inst, false)
  else tryInstances nodes isAdvertiser inst inst (M - inst)

/-- `Manager::node_open` with an instance pointer: the opened node, `*instance`, and the nodes. -/
def nodeOpen (advertiser : Bool) (inst errno : ℕ) : Option (ℕ × ℕ) × List TopicNode :=
  let inst := if advertiser then 0 else inst
  match if advertiser then none else getDev nodes inst with
  | some fd => (some (fd, inst), nodes)
  | none =>
    -- the path that a subscriber could not open
    let errno := if advertiser then errno else einval
    let (nodes, inst, ok) := advertise M nodes advertiser inst
    if ok || errno = eexist then
      match getDev nodes inst with
      | none => (none, nodes)
      | some fd => (some (fd, inst), if advertiser then setAdvertised nodes fd true else nodes)
    else (none, nodes)

/-- `Manager::orb_advertise_multi`: the handle and `*instance`. -/
def orbAdvertiseMulti (errno : ℕ) (published : Bool) : Option (ℕ × ℕ) × List TopicNode :=
  let (fd, nodes) := nodeOpen M nodes true 0 errno
  (if published then fd else none, nodes)

/-- The topic, and the handles that have been obtained and not been returned. -/
structure System where
  nodes : List TopicNode := []
  handles : List ℕ := []

inductive Event where
  /-- `orb_advertise_multi` with `errno` on entry, and whether an initial publication succeeds -/
  | advertise (errno : ℕ) (published : Bool)
  | unadvertise (handle : ℕ)
  /-- `orb_subscribe_multi` -/
  | subscribe (inst errno : ℕ)

def step (s : System) : Event → System
  | .advertise errno published =>
    let result := orbAdvertiseMulti M s.nodes errno published
    { nodes := result.2, handles := s.handles ++ (result.1.map (·.1)).toList }
  | .unadvertise handle =>
    if handle ∈ s.handles then
      { nodes := setAdvertised s.nodes handle false, handles := s.handles.erase handle }
    else s
  | .subscribe inst errno => { s with nodes := (nodeOpen M s.nodes false inst errno).2 }

/-- The number is advertised. -/
def Taken (nodes : List TopicNode) (k : ℕ) : Prop :=
  ∃ node ∈ nodes, node.instanceNumber = k ∧ node.advertised = true

def AllAdvertised (nodes : List TopicNode) : Prop :=
  ∀ k < M, Taken nodes k

/-! ## Nodes and their numbers -/

section Nodes

variable {M} {nodes} {nodes' : List TopicNode} {h k : ℕ}

/-- Each number has at most one node, at the path with this number. -/
structure WellFormed (M : ℕ) (nodes : List TopicNode) : Prop where
  path : ∀ node ∈ nodes, node.path = node.instanceNumber
  lt : ∀ node ∈ nodes, node.instanceNumber < M
  unique : ∀ (i j : ℕ) node node', nodes[i]? = some node → nodes[j]? = some node' →
    node.instanceNumber = node'.instanceNumber → i = j

variable {node node' : TopicNode} {j errno : ℕ} {advertised : Bool} {α : Type*} {p q : α → Bool}

theorem getElem?_setAdvertised_self (hnode : nodes[h]? = some node) (advertised) :
    (setAdvertised nodes h advertised)[h]? = some { node with advertised } := by
  rw [setAdvertised, getElem?_modify_eq, hnode]
  rfl

theorem getElem?_setAdvertised_other (hj : j ≠ h) :
    (setAdvertised nodes h advertised)[j]? = nodes[j]? :=
  getElem?_modify_ne _ _ (Ne.symm hj)

theorem getElem?_append_other (hj : j ≠ nodes.length) : (nodes ++ [node])[j]? = nodes[j]? := by
  rcases Nat.lt_or_ge j nodes.length with hlt | hge
  · exact getElem?_append_left hlt
  · rw [getElem?_eq_none (by simp; omega), getElem?_eq_none hge]

theorem isAdvertised_iff :
    isAdvertised nodes h ↔ ∃ node, nodes[h]? = some node ∧ node.advertised := by
  rw [isAdvertised]
  cases nodes[h]? with
  | none => simp
  | some node => simp

theorem WellFormed.getDeviceNodeLocked_eq_some_iff (hwf : WellFormed M nodes) :
    getDeviceNodeLocked nodes k = some h ↔
      ∃ node, nodes[h]? = some node ∧ node.instanceNumber = k := by
  rw [getDeviceNodeLocked, findIdx?_eq_some_iff_getElem]
  constructor
  · rintro ⟨hlt, hk, -⟩
    exact ⟨nodes[h], getElem?_eq_getElem hlt, of_decide_eq_true hk⟩
  · rintro ⟨node, hnode, rfl⟩
    obtain ⟨hlt, rfl⟩ := List.getElem?_eq_some_iff.mp hnode
    refine ⟨hlt, decide_eq_true rfl, fun j hj hsame => ?_⟩
    have hjh : j = h := hwf.unique j h nodes[j] nodes[h]
      (getElem?_eq_getElem (Nat.lt_trans hj hlt)) hnode (of_decide_eq_true hsame)
    omega

theorem findIdx?_congr {xs : List α} (hpq : ∀ x ∈ xs, p x = q x) :
    xs.findIdx? p = xs.findIdx? q := by
  induction xs with
  | nil => rfl
  | cons x xs ih =>
    rw [findIdx?_cons, findIdx?_cons, hpq x (mem_cons_self ..),
      ih fun y hy => hpq y (mem_cons_of_mem _ hy)]

/-- A node is found by its path as it is found by its number. -/
theorem WellFormed.getDev_eq (hwf : WellFormed M nodes) :
    getDev nodes k = getDeviceNodeLocked nodes k :=
  findIdx?_congr fun node hnode => by rw [hwf.path node hnode]

/-- A node is registered or changed, and its number is no other node's one. -/
theorem WellFormed.update (hwf : WellFormed M nodes)
    (hnode : nodes'[h]? = some node') (hother : ∀ j ≠ h, nodes'[j]? = nodes[j]?)
    (hpath : node'.path = node'.instanceNumber) (hlt : node'.instanceNumber < M)
    (hnew : ∀ (j : ℕ) node, nodes[j]? = some node →
      node.instanceNumber = node'.instanceNumber → j = h) : WellFormed M nodes' := by
  have hcases : ∀ (j : ℕ) node, nodes'[j]? = some node →
      j = h ∧ node = node' ∨ j ≠ h ∧ nodes[j]? = some node := fun j node hj => by
    by_cases hjh : j = h
    · exact .inl ⟨hjh, some.inj (hj.symm.trans (hjh ▸ hnode))⟩
    · exact .inr ⟨hjh, hother j hjh ▸ hj⟩
  refine ⟨fun node hmem => ?_, fun node hmem => ?_, fun i j node node'' hi hj hsame => ?_⟩
  · obtain ⟨j, hj⟩ := mem_iff_getElem?.mp hmem
    rcases hcases j node hj with ⟨-, rfl⟩ | ⟨-, hold⟩
    · exact hpath
    · exact hwf.path node (mem_iff_getElem?.mpr ⟨j, hold⟩)
  · obtain ⟨j, hj⟩ := mem_iff_getElem?.mp hmem
    rcases hcases j node hj with ⟨-, rfl⟩ | ⟨-, hold⟩
    · exact hlt
    · exact hwf.lt node (mem_iff_getElem?.mpr ⟨j, hold⟩)
  · rcases hcases i node hi with ⟨rfl, rfl⟩ | ⟨hih, hiold⟩ <;>
      rcases hcases j node'' hj with ⟨rfl, rfl⟩ | ⟨hjh, hjold⟩
    · rfl
    · exact absurd (hnew j node'' hjold hsame.symm) hjh
    · exact absurd (hnew i node hiold hsame) hih
    · exact hwf.unique i j node node'' hiold hjold hsame

/-- The node `h` gets the number `k` and is advertised, which it was not before. -/
structure Claimed (nodes nodes' : List TopicNode) (h k : ℕ) : Prop where
  node : nodes'[h]? = some ⟨k, k, true⟩
  other : ∀ j ≠ h, nodes'[j]? = nodes[j]?
  free : isAdvertised nodes h = false

section

variable (hwf : WellFormed M nodes)
include hwf

theorem tryInstance_eq_none (htry : tryInstance nodes true k = none) : Taken nodes k := by
  rw [tryInstance, hwf.getDev_eq] at htry
  split at htry
  · next hsome =>
    obtain ⟨h, hh⟩ := isSome_iff_exists.mp hsome
    obtain ⟨node, hnode, hk⟩ := hwf.getDeviceNodeLocked_eq_some_iff.mp hh
    rw [hh] at htry
    refine ⟨node, mem_iff_getElem?.mpr ⟨h, hnode⟩, hk, ?_⟩
    simpa [isAdvertised, hnode] using htry
  · cases htry

theorem tryInstance_eq_some (hk : k < M) (htry : tryInstance nodes true k = some nodes') :
    WellFormed M nodes' ∧ (∃ h, Claimed nodes nodes' h k) ∧ ¬ Taken nodes k := by
  rw [tryInstance, hwf.getDev_eq] at htry
  split at htry
  · -- a node that is not advertised is taken
    next hsome =>
    obtain ⟨h, hh⟩ := isSome_iff_exists.mp hsome
    obtain ⟨node, hnode, rfl⟩ := hwf.getDeviceNodeLocked_eq_some_iff.mp hh
    rw [hh] at htry
    dsimp only at htry
    split at htry
    · next hfree =>
      obtain rfl := some.inj htry
      have hfree' : isAdvertised nodes h = false := by simpa using hfree
      have hmem := mem_iff_getElem?.mpr ⟨h, hnode⟩
      have hnode' : (setAdvertised nodes h true)[h]? =
          some ⟨node.instanceNumber, node.instanceNumber, true⟩ := by
        rw [getElem?_setAdvertised_self hnode, ← hwf.path node hmem]
      have hother : ∀ j ≠ h, (setAdvertised nodes h true)[j]? = nodes[j]? := fun j hj =>
        getElem?_setAdvertised_other hj
      refine ⟨hwf.update hnode' hother rfl hk fun j n hj hn => ?_, ⟨h, hnode', hother, hfree'⟩, ?_⟩
      · exact hwf.unique j h n node hj hnode hn
      · rintro ⟨n, hn, hsame, hadvertised⟩
        obtain ⟨j, hj⟩ := mem_iff_getElem?.mp hn
        obtain rfl := hwf.unique j h n node hj hnode hsame
        rw [isAdvertised, hj] at hfree'
        exact Bool.false_ne_true (hfree'.symm.trans hadvertised)
    · cases htry
  · -- a new node is registered
    next hnone =>
    obtain rfl := some.inj htry
    have hnew : ∀ node ∈ nodes, node.instanceNumber ≠ k := fun node hmem hsame => by
      obtain ⟨j, hj⟩ := mem_iff_getElem?.mp hmem
      rw [hwf.getDeviceNodeLocked_eq_some_iff.mpr ⟨node, hj, hsame⟩] at hnone
      exact hnone rfl
    have hnode' : (nodes ++ [⟨k, k, true⟩])[nodes.length]? = some ⟨k, k, true⟩ :=
      getElem?_concat_length
    have hother : ∀ j ≠ nodes.length, (nodes ++ [⟨k, k, true⟩])[j]? = nodes[j]? := fun j hj =>
      getElem?_append_other hj
    refine ⟨hwf.update hnode' hother rfl hk fun j node hj hsame => ?_,
      ⟨nodes.length, hnode', hother, ?_⟩, ?_⟩
    · exact absurd hsame (hnew node (mem_iff_getElem?.mpr ⟨j, hj⟩))
    · rw [isAdvertised, getElem?_eq_none (Nat.le_refl _)]
      rfl
    · rintro ⟨node, hmem, hsame, -⟩
      exact hnew node hmem hsame

/-- The loop takes a number that is not advertised, or has tried only advertised ones. -/
theorem tryInstances_spec (inst) :
    ∀ left groupTries, groupTries + left ≤ M →
    ((∃ nodes' k, tryInstances nodes true inst groupTries left = (nodes', k, true) ∧ k < M ∧
        WellFormed M nodes' ∧ (∃ h, Claimed nodes nodes' h k) ∧ ¬ Taken nodes k) ∨
      (∃ k, tryInstances nodes true inst groupTries left = (nodes, k, false)) ∧
        ∀ k, groupTries ≤ k → k < groupTries + left → Taken nodes k) := by
  intro left
  induction left generalizing inst with
  | zero => exact fun groupTries _ => .inr ⟨⟨inst, rfl⟩, fun k hle hlt => absurd hlt (by omega)⟩
  | succ left ih =>
    intro groupTries hle
    rw [tryInstances]
    cases htry : tryInstance nodes true groupTries with
    | some nodes' =>
      obtain ⟨hwf', hclaimed, hfree⟩ := tryInstance_eq_some hwf (by omega) htry
      exact .inl ⟨nodes', groupTries, rfl, by omega, hwf', hclaimed, hfree⟩
    | none =>
      have htaken := tryInstance_eq_none hwf htry
      refine (ih groupTries (groupTries + 1) (by omega)).imp_right fun ⟨hfail, hall⟩ =>
        ⟨hfail, fun k hk hlt => ?_⟩
      rcases Nat.eq_or_lt_of_le hk with rfl | hk
      · exact htaken
      · exact hall k hk (by omega)

theorem advertise_spec :
    ((∃ nodes' k, advertise M nodes true 0 = (nodes', k, true) ∧
        WellFormed M nodes' ∧ (∃ h, Claimed nodes nodes' h k) ∧ ¬ AllAdvertised M nodes) ∨
      (∃ k, advertise M nodes true 0 = (nodes, k, false)) ∧ AllAdvertised M nodes) := by
  rw [advertise]
  split
  · exact .inr ⟨⟨0, rfl⟩, fun k hk => absurd hk (by omega)⟩
  rcases tryInstances_spec hwf 0 (M - 0) 0 (by omega) with
    ⟨nodes', k, heq, hk, hwf', hclaimed, hfree⟩ | ⟨hfail, hall⟩
  · exact .inl ⟨nodes', k, heq, hwf', hclaimed, fun hall => hfree (hall k hk)⟩
  · exact .inr ⟨hfail, fun k hk => hall k (Nat.zero_le k) (by omega)⟩

/-- `orb_advertise_multi` fails when all numbers are advertised, if `errno` is not stale, and else
takes a free one. -/
theorem orbAdvertiseMulti_spec (herrno : errno = eexist → ¬ AllAdvertised M nodes) :
    ((∃ nodes' h k, orbAdvertiseMulti M nodes errno true = (some (h, k), nodes') ∧
        WellFormed M nodes' ∧ Claimed nodes nodes' h k ∧ ¬ AllAdvertised M nodes) ∨
      orbAdvertiseMulti M nodes errno true = (none, nodes) ∧ AllAdvertised M nodes) := by
  rcases advertise_spec hwf with ⟨nodes', k, heq, hwf', ⟨h, hclaimed⟩, hfree⟩ | ⟨⟨k, heq⟩, hall⟩
  · have hdev : getDev nodes' k = some h := by
      rw [hwf'.getDev_eq, hwf'.getDeviceNodeLocked_eq_some_iff]
      exact ⟨_, hclaimed.node, rfl⟩
    -- the node has been marked before it is opened
    have hmark : setAdvertised nodes' h true = nodes' := by
      refine ext_getElem? fun j => ?_
      by_cases hjh : j = h
      · rw [hjh, getElem?_setAdvertised_self hclaimed.node, hclaimed.node]
      · exact getElem?_setAdvertised_other hjh
    refine .inl ⟨nodes', h, k, ?_, hwf', hclaimed, hfree⟩
    simp [orbAdvertiseMulti, nodeOpen, heq, hdev, hmark]
  · refine .inr ⟨?_, hall⟩
    have hne : errno ≠ eexist := fun he => herrno he hall
    simp [orbAdvertiseMulti, nodeOpen, heq, hne]

end

/-- A subscriber registers the node of its number, if there is none. -/
theorem nodeOpen_subscriber : (nodeOpen M nodes false inst errno).2 =
      if (getDev nodes inst).isSome ∨ M ≤ inst then nodes
      else nodes ++ [⟨inst, inst, false⟩] := by
  cases hdev : getDev nodes inst with
  | some fd => simp [nodeOpen, hdev]
  | none =>
    by_cases hlt : M ≤ inst
    · simp [nodeOpen, hdev, advertise, hlt]
    obtain ⟨left, hleft⟩ : ∃ left, M - inst = left + 1 := ⟨M - inst - 1, by omega⟩
    have hadvertise : advertise M nodes false inst =
        (nodes ++ [⟨inst, inst, false⟩], inst, true) := by
      rw [advertise, if_neg hlt, hleft, tryInstances, tryInstance, hdev]
      rfl
    cases hnew : getDev (nodes ++ [⟨inst, inst, false⟩]) inst <;>
      simp [nodeOpen, hdev, hadvertise, hlt, hnew]

theorem Claimed.isAdvertised_iff (hclaimed : Claimed nodes nodes' h k) :
    isAdvertised nodes' j ↔ isAdvertised nodes j ∨ j = h := by
  by_cases hj : j = h
  · rw [hj, isAdvertised, hclaimed.node]
    exact iff_of_true rfl (.inr rfl)
  · rw [isAdvertised, hclaimed.other j hj]
    exact (or_iff_left hj).symm

end Nodes

/-! ## Runs -/

section Runs

variable {M} {s : System}

/-- An advertiser fails if and only if all instances are advertised; else it gets a node that no
outstanding handle refers to, and its number. -/
def Correct (M : ℕ) (s : System) : Event → Prop
  | .advertise errno published =>
    ((orbAdvertiseMulti M s.nodes errno published).1 = none ↔ AllAdvertised M s.nodes) ∧
    ∀ handle inst, (orbAdvertiseMulti M s.nodes errno published).1 = some (handle, inst) →
      handle ∉ s.handles ∧
      ∃ node, (step M s (.advertise errno published)).nodes[handle]? = some node ∧
        node.instanceNumber = inst
  | _ => True

/-- `errno` is not `EEXIST` with all instances advertised; an initial publication succeeds. -/
def NotStale (M : ℕ) (s : System) : Event → Prop
  | .advertise errno published =>
    published = true ∧ (errno = eexist → ¬ AllAdvertised M s.nodes)
  | _ => True

instance (nodes : List TopicNode) : Decidable (AllAdvertised M nodes) :=
  inferInstanceAs (Decidable (∀ k < M, ∃ node ∈ nodes, node.instanceNumber = k ∧ _))

instance : (e : Event) → Decidable (NotStale M s e)
  | .advertise .. => inferInstanceAs (Decidable (_ ∧ _))
  | .unadvertise _ | .subscribe .. => isTrue trivial

/-- The outstanding handles are the nodes that are advertised, each of them once. -/
structure Inv (M : ℕ) (s : System) : Prop where
  wf : WellFormed M s.nodes
  nodup : s.handles.Nodup
  advertised : ∀ handle, handle ∈ s.handles ↔ isAdvertised s.nodes handle = true

section

variable (h : Inv M s)
include h

variable {errno : ℕ} {published : Bool} {e : Event}

theorem Inv.advertise (hstale : NotStale M s (.advertise errno published)) :
    Inv M (step M s (.advertise errno published)) ∧ Correct M s (.advertise errno published) := by
  obtain ⟨rfl, herrno⟩ := hstale
  rw [Correct, step]
  rcases orbAdvertiseMulti_spec h.wf herrno with ⟨nodes', handle, k, heq, hwf, hclaimed, hfree⟩ |
    ⟨heq, hall⟩
  · have hnew : handle ∉ s.handles := fun hmem =>
      Bool.false_ne_true (hclaimed.free.symm.trans ((h.advertised handle).mp hmem))
    rw [heq]
    refine ⟨⟨hwf, ?_, fun j => ?_⟩, iff_of_false (fun hnone => by cases hnone) hfree,
      fun handle' inst hresult => ?_⟩
    · refine nodup_append.mpr ⟨h.nodup, nodup_singleton _, fun a ha b hb hab => hnew ?_⟩
      rwa [← show b = handle from mem_singleton.mp hb, ← hab]
    · rw [hclaimed.isAdvertised_iff, ← h.advertised]
      exact mem_append.trans (or_congr_right mem_singleton)
    · cases hresult
      exact ⟨hnew, _, hclaimed.node, rfl⟩
  · rw [heq]
    refine ⟨⟨h.wf, ?_, ?_⟩, iff_of_true rfl hall, fun _ _ hresult => by cases hresult⟩
    · exact (append_nil s.handles).symm ▸ h.nodup
    · exact (append_nil s.handles).symm ▸ h.advertised

theorem Inv.unadvertise (handle : ℕ) : Inv M (step M s (.unadvertise handle)) := by
  rw [step]
  split
  · next hmem =>
    obtain ⟨node, hnode, -⟩ := isAdvertised_iff.mp ((h.advertised handle).mp hmem)
    have hin := mem_iff_getElem?.mpr ⟨handle, hnode⟩
    have hself := getElem?_setAdvertised_self hnode false
    refine ⟨h.wf.update hself (fun j hj => getElem?_setAdvertised_other hj)
      (h.wf.path node hin) (h.wf.lt node hin) fun j node' hj hsame => ?_, h.nodup.erase handle,
      fun j => ?_⟩
    · exact h.wf.unique j handle node' node hj hnode hsame
    · rw [h.nodup.mem_erase_iff, h.advertised]
      by_cases hj : j = handle
      · refine iff_of_false (fun hne => hne.1 hj) fun hadvertised => ?_
        rw [isAdvertised, hj, hself] at hadvertised
        cases hadvertised
      · rw [and_iff_right hj, isAdvertised, isAdvertised, getElem?_setAdvertised_other hj]
  · exact h

theorem Inv.subscribe (inst errno) : Inv M (step M s (.subscribe inst errno)) := by
  rw [step, nodeOpen_subscriber]
  split
  · exact h
  next hnew =>
  obtain ⟨hnone, hlt⟩ := not_or.mp hnew
  have hself : (s.nodes ++ [⟨inst, inst, false⟩])[s.nodes.length]? = some ⟨inst, inst, false⟩ :=
    getElem?_concat_length
  refine ⟨h.wf.update hself (fun j hj => getElem?_append_other hj) rfl (Nat.lt_of_not_le hlt)
    fun j node hj hsame => ?_, h.nodup, fun j => ?_⟩
  · rw [h.wf.getDev_eq, h.wf.getDeviceNodeLocked_eq_some_iff.mpr ⟨node, hj, hsame⟩] at hnone
    exact absurd rfl hnone
  · rw [h.advertised]
    by_cases hj : j = s.nodes.length
    · rw [hj, isAdvertised, isAdvertised, hself, getElem?_eq_none (Nat.le_refl _)]
      rfl
    · rw [isAdvertised, isAdvertised, getElem?_append_other hj]

theorem Inv.step (he : NotStale M s e) : Inv M (DeviceMaster.step M s e) ∧ Correct M s e := by
  cases e with
  | advertise errno published => exact h.advertise he
  | unadvertise handle => exact ⟨h.unadvertise handle, trivial⟩
  | subscribe inst errno => exact ⟨h.subscribe inst errno, trivial⟩

end

theorem inv_start : Inv M {} where
  wf := ⟨nofun, nofun,
    fun _ _ _ _ hi => by cases hi⟩
  nodup := nodup_nil
  advertised _ := iff_of_false not_mem_nil fun h => by cases h

/-- Outstanding handles refer to different nodes, the returned number is the one of the node, and a
call fails if and only if all instances are advertised, if `errno` is not `EEXIST` when an
advertiser finds all instances advertised. -/
theorem instances_not_shared (M : ℕ) (es : List Event) (h : Run.Along (step M) (NotStale M) {} es) :
    Run.Along (step M) (Correct M) {} es ∧ (after (step M) {} es).handles.Nodup := by
  have hinv : Inv M (after (step M) {} es) :=
    after_of_invariant (fun _ _ hs he => (hs.step he).1) inv_start h
  exact ⟨along_of_invariant (fun _ _ hs he => (hs.step he).1) (fun _ _ hs he => (hs.step he).2)
    inv_start h, hinv.nodup⟩

/-- A subscriber has registered the second instance; `errno` is stale while instances are free. -/
def fourAdvertisers : List Event :=
  [.subscribe 1 0, .advertise 17 true, .advertise 17 true, .unadvertise 1, .advertise 0 true,
    .advertise 17 true, .advertise 17 true, .advertise 0 true]

theorem instances_not_shared_fourAdvertisers :
    Run.Along (step 4) (Correct 4) {} fourAdvertisers ∧
      (after (step 4) {} fourAdvertisers).handles.Nodup :=
  instances_not_shared 4 fourAdvertisers (by decide)

/-- As many advertisers as there are instances. -/
def tenAdvertisers : List Event := replicate 10 (.advertise 0 true)

/-- With all instances advertised, a call with a stale `EEXIST` in `errno` is successful and gives
the node of the last advertiser once more. -/
theorem last_instance_shared :
    AllAdvertised 10 (after (step 10) {} tenAdvertisers).nodes ∧
    (orbAdvertiseMulti 10 (after (step 10) {} tenAdvertisers).nodes eexist true).1 =
      some (9, 9) ∧
    (after (step 10) {} (tenAdvertisers ++ [.advertise eexist true])).handles =
      [0, 1, 2, 3, 4, 5, 6, 7, 8, 9, 9] := by
  decide +kernel

end Runs

end DeviceMaster

end Px4.Uorb
