import Mathlib.Data.List.Range
import Mathlib.Logic.Function.Iterate

/-!
# Parameters in a replay

The main loop of `src/modules/replay/Replay.cpp`. A position is the index of a message in the data
section of a well-formed file.
-/

namespace Px4

open Function List

inductive ULogMessage where
  | data (msgId timestamp : ℕ)
  /-- the two parts of its key -/
  | parameter (type name : String)
  | other
  deriving DecidableEq

/-- The names in the override file and the schedule file, and those that `param_find` finds. -/
structure ReplayParams where
  overriddenParams : List String := []
  dynamicParameters : List String := []
  known : List String

/-- A data message, with the parameter messages that had been applied when it was published. -/
structure Publication where
  position : ℕ
  applied : List ℕ

/-- `next` has the position and the time of the next message of a subscription. -/
structure Replay where
  next : ℕ → Option (ℕ × ℕ)
  lastAdditionalMessagePos : ℕ := 0
  applied : List ℕ := []
  published : List Publication := []

namespace Replay

variable (params : ReplayParams) (file : List ULogMessage) (fileStartTime subscriptions : ℕ)

/-- The first message of a subscription from a position on. -/
def nextDataMessage (msgId position : ℕ) : Option (ℕ × ℕ) :=
  (range' position (file.length - position)).findSome? fun (i : ℕ) =>
    match file[i]? with
    | some (.data fileMsgId timestamp) =>
      if msgId = fileMsgId then some (i, timestamp) else none
    | _ => none

/-- Whether `readAndApplyParameter` comes to `param_set`. -/
def readAndApplyParameter (type name : String) : Bool :=
  if name ∈ params.overriddenParams ∨ name ∈ params.dynamicParameters then false
  else if type ≠ "int32_t" ∧ type ≠ "float" then false
  else name ∈ params.known

def applies : ULogMessage → Bool
  | .parameter type name => readAndApplyParameter params type name
  | _ => false

/-- The messages of a kind between two positions. -/
def messages (p : ULogMessage → Bool) (position endPosition : ℕ) : List ℕ :=
  (range' position (endPosition - position)).filter fun i => file[i]?.any p

/-- The messages that are applied. -/
def readAndHandleAdditionalMessages (position endPosition : ℕ) : List ℕ :=
  messages file (applies params) position endPosition

def start : Replay := { next := fun msgId => nextDataMessage file msgId 0 }

/-- The subscription that has the next message in time, with the position and the time. -/
def selected (s : Replay) : Option (ℕ × ℕ × ℕ) :=
  (range subscriptions).foldl
    (fun best msgId => match s.next msgId with
      | some (position, timestamp) =>
        if best.all fun b => timestamp < b.2.2 then some (msgId, position, timestamp) else best
      | none => best) none

/-- A round of the loop in `run`. -/
def step (s : Replay) : Replay :=
  match s.selected subscriptions with
  | none => s
  | some (msgId, position, timestamp) =>
    let next := update s.next msgId (nextDataMessage file msgId (position + 1))
    if timestamp = 0 ∨ timestamp < fileStartTime then { s with next }
    else
      let applied := s.applied ++
        readAndHandleAdditionalMessages params file s.lastAdditionalMessagePos position
      { next, applied, lastAdditionalMessagePos := position
        published := s.published ++ [⟨position, applied⟩] }

/-- A message that is published lies behind the one before it. -/
def InFileOrder (s : Replay) : Prop :=
  ∀ m ∈ s.selected subscriptions, ¬(m.2.2 = 0 ∨ m.2.2 < fileStartTime) →
    s.lastAdditionalMessagePos ≤ m.2.1

/-- The messages of a kind before the last position are applied, once and in order, and those before
a published message were applied before it. -/
structure AppliesOnce (p : ULogMessage → Bool) (s : Replay) : Prop where
  applied_eq : s.applied = messages file p 0 s.lastAdditionalMessagePos
  published : ∀ q ∈ s.published,
    q.applied = messages file p 0 q.position ∧ q.position ≤ s.lastAdditionalMessagePos

variable {params file fileStartTime subscriptions} {p : ULogMessage → Bool} {s : Replay}

/-- Two ranges that meet are one. -/
theorem messages_append {a b : ℕ} (h : a ≤ b) :
    messages file p 0 a ++ messages file p a b = messages file p 0 b := by
  rw [messages, messages, messages, ← filter_append]
  have hrange := range'_append_1 (s := 0) (m := a) (n := b - a)
  rw [Nat.zero_add, Nat.add_sub_cancel' h] at hrange
  rw [Nat.sub_zero, Nat.sub_zero, hrange]

/-- A round applies what can be applied up to the message that it publishes. -/
theorem AppliesOnce.step (h : AppliesOnce file (applies params) s)
    (horder : s.InFileOrder fileStartTime subscriptions) :
    AppliesOnce file (applies params) (s.step params file fileStartTime subscriptions) := by
  unfold Replay.step
  cases hselected : s.selected subscriptions with
  | none => exact h
  | some m =>
    dsimp only
    split
    · exact { h with }
    next hpublish =>
      have hle := horder m hselected hpublish
      rw [readAndHandleAdditionalMessages, h.applied_eq, messages_append hle]
      refine ⟨rfl, fun q hq => ?_⟩
      rcases mem_append.mp hq with hq | hq
      · exact ⟨(h.published q hq).1, (h.published q hq).2.trans hle⟩
      · obtain rfl := mem_singleton.mp hq
        exact ⟨rfl, le_rfl⟩

def isParameter : ULogMessage → Bool
  | .parameter .. => true
  | _ => false

/-- **Each parameter change is applied once**, as long as messages are published in the order of the
file, and if none of the changes is one that is skipped. -/
theorem appliesOnce_iterate (params : ReplayParams) (file : List ULogMessage)
    (fileStartTime subscriptions k : ℕ)
    (horder : ∀ j < k, ((step params file fileStartTime subscriptions)^[j]
      (start file)).InFileOrder fileStartTime subscriptions)
    (happlies : ∀ type name, .parameter type name ∈ file →
      readAndApplyParameter params type name) :
    AppliesOnce file isParameter
      ((step params file fileStartTime subscriptions)^[k] (start file)) := by
  have honce : AppliesOnce file (applies params)
      ((step params file fileStartTime subscriptions)^[k] (start file)) := by
    induction k with
    | zero => exact ⟨rfl, nofun⟩
    | succ k ih =>
      rw [iterate_succ_apply']
      exact (ih fun j hj => horder j (Nat.lt_succ_of_lt hj)).step (horder k k.lt_succ_self)
  have hkind (m : ULogMessage) (hm : m ∈ file) : applies params m = isParameter m := by
    cases m with
    | parameter type name => exact happlies type name hm
    | _ => rfl
  have hmessages (a b : ℕ) :
      messages file (applies params) a b = messages file isParameter a b := by
    refine filter_congr fun i _ => ?_
    cases hm : file[i]? with
    | none => rfl
    | some m => exact hkind m (mem_of_getElem? hm)
  obtain ⟨happlied, hpublished⟩ := honce
  simp only [hmessages] at happlied hpublished
  exact ⟨happlied, hpublished⟩

/-- A file with a change of a parameter between two messages of its only subscription. -/
def changedBetween : List ULogMessage := [.data 0 1, .parameter "float" "A", .data 0 2]

theorem appliesOnce_two :
    AppliesOnce changedBetween isParameter
      ((step { known := ["A"] } changedBetween 0 1)^[2] (start changedBetween)) := by
  refine appliesOnce_iterate _ _ 0 1 2 (by unfold InFileOrder; decide) fun type name h => ?_
  obtain ⟨rfl, rfl⟩ : type = "float" ∧ name = "A" := by simpa [changedBetween] using h
  decide

/-- The message in the beginning of the file is published second. A change of a parameter that is
overridden is skipped. -/
theorem parameter_applied_twice :
    let file := [.data 1 2, .parameter "float" "A", .data 0 1, .data 1 3]
    ((step { known := ["A"] } file 0 2)^[3] (start file)).applied = [1, 1] ∧
      ((step { overriddenParams := ["A"], known := ["A"] } changedBetween 0 1)^[2]
        (start changedBetween)).applied = [] := by
  decide

end Replay

end Px4
