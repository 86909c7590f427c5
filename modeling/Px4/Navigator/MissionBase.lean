import Mathlib.Data.Int.Notation
import Mathlib.Data.Nat.Notation
import Mathlib.Logic.Function.Basic

/-!
# Walking along a mission

The part of `src/modules/navigator/mission_base.cpp` that finds the next mission item, for the mode
`Mission` (its `setNextMissionItem` is `goToNextItem`). The items are those that dataman holds, with
the counters of the `DO_JUMP` items; whether dataman can be read and written is decided from
outside, for each round of a loop.
-/

namespace Px4.Navigator

def navCmdDoJump : UInt16 := 177

def maxJumpIteration : ℕ := 10

/-- `mission_item_s`: what the walk uses, and the rest of it. -/
structure MissionItem (δ : Type) where
  navCmd : UInt16
  doJumpMissionIndex : ℤ
  doJumpRepeatCount : ℕ
  doJumpCurrentCount : ℕ
  rest : δ

def MissionItem.isJump {δ : Type} (item : MissionItem δ) : Bool := item.navCmd = navCmdDoJump

inductive MissionTraversalType where
  | followMissionControlFlow
  | ignoreDoJump
deriving DecidableEq

/-- Whether dataman reads and writes in a round of a loop. -/
structure DatamanAccess where
  reads : ℕ → Bool := fun _ => true
  writes : ℕ → Bool := fun _ => true

/-- The mission: `_mission.count`, the items and `_mission.current_seq`. -/
structure MissionBase (δ : Type) where
  count : ℕ
  items : ℤ → MissionItem δ
  currentSeq : ℤ := 0

variable {δ : Type}

/-- What `getNonJumpItem` does: the items after it, the jumps on the way, and what it finds. -/
structure Walk (δ : Type) where
  items : ℤ → MissionItem δ
  passed : List (ℤ × Bool) := []
  result : Option (ℤ × Option (MissionItem δ))

/-- The loop of `getNonJumpItem` from round `jumpCount` on, with the rounds to come. -/
def jumpLoop (count : ℕ) (traversalType : MissionTraversalType) (writeJumps backward : Bool)
    (dataman : DatamanAccess) : ℕ → ℕ → (ℤ → MissionItem δ) → ℤ → Option (MissionItem δ) → Walk δ
  | 0, _, items, index, last => { items, result := some (index, last) }
  | rounds + 1, jumpCount, items, index, _ =>
    -- `loadMissionItemFromCache`
    if ¬(0 ≤ index ∧ index < count ∧ dataman.reads jumpCount) then
      { items, result := none }
    else
      let item := items index
      if item.isJump then
        if item.doJumpMissionIndex ≥ count ∨ item.doJumpMissionIndex < 0 then
          { items, result := none }
        else if item.doJumpCurrentCount < item.doJumpRepeatCount ∧
            traversalType = .followMissionControlFlow then
          let counted := { item with
            doJumpCurrentCount := item.doJumpCurrentCount + (if writeJumps then 1 else 0) }
          let walk := jumpLoop count traversalType writeJumps backward dataman rounds
            (jumpCount + 1)
            (if writeJumps ∧ dataman.writes jumpCount then Function.update items index counted
              else items) item.doJumpMissionIndex (some counted)
          { walk with passed := (index, true) :: walk.passed }
        else
          let walk := jumpLoop count traversalType writeJumps backward dataman rounds
            (jumpCount + 1) items (if backward then index - 1 else index + 1) (some item)
          { walk with passed := (index, false) :: walk.passed }
      else { items, result := some (index, some item) }

namespace MissionBase

variable (m : MissionBase δ)

def getNonJumpItem (missionIndex : ℤ) (traversalType : MissionTraversalType)
    (writeJumps backward : Bool) (dataman : DatamanAccess) : Walk δ :=
  if missionIndex ≥ m.count ∨ missionIndex < 0 then { items := m.items, result := none }
  else
    jumpLoop m.count traversalType writeJumps backward dataman maxJumpIteration 0 m.items
      missionIndex none

def setMissionIndex (index : ℤ) : MissionBase δ := { m with currentSeq := index }

/-- `goToItem`, with whether it returns `PX4_OK`. -/
def goToItem (index : ℤ) (traversalType : MissionTraversalType) (backward : Bool)
    (dataman : DatamanAccess) : MissionBase δ × Bool :=
  let walk := m.getNonJumpItem index traversalType true backward dataman
  match walk.result with
  | some (index, _) => ({ m with items := walk.items }.setMissionIndex index, true)
  | none => ({ m with items := walk.items }, false)

def goToNextItem (traversalType : MissionTraversalType) (dataman : DatamanAccess) :
    MissionBase δ × Bool :=
  if m.currentSeq + 1 ≥ m.count then (m, false)
  else m.goToItem (m.currentSeq + 1) traversalType false dataman

/-- The loop of `resetMissionJumpCounter` from an item on, with the rounds to come. -/
def resetLoop (count : ℕ) (dataman : DatamanAccess) :
    ℕ → ℕ → (ℤ → MissionItem δ) → ℤ → MissionItem δ
  | 0, _, items => items
  | rounds + 1, index, items =>
    if index < count ∧ dataman.reads index then
      if (items index).isJump then
        if dataman.writes index then
          resetLoop count dataman rounds (index + 1)
            (Function.update items index { items index with doJumpCurrentCount := 0 })
        else items
      else resetLoop count dataman rounds (index + 1) items
    else items

def resetMissionJumpCounter (dataman : DatamanAccess) : MissionBase δ :=
  { m with items := resetLoop m.count dataman m.count 0 m.items }

/-- `advance_mission`, with `_is_current_planned_mission_item_valid`; it is called without a work
item, in a mission. -/
def advanceMission (dataman reset : DatamanAccess) : MissionBase δ × Bool :=
  let next := m.goToNextItem .followMissionControlFlow dataman
  if next.2 then next
  else if next.1.currentSeq + 1 = next.1.count then (next.1.resetMissionJumpCounter reset, false)
  else next

/-- `checkMissionRestart`, if the system was disarmed after the mission had been active. -/
def checkMissionRestart (reset : DatamanAccess) : MissionBase δ :=
  if m.count > 0 ∧ m.currentSeq + 1 = m.count then
    (m.setMissionIndex 0).resetMissionJumpCounter reset
  else m

end MissionBase

end Px4.Navigator
