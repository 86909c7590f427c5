import Px4.Navigator.MissionLookahead

/-!
# The order of takeoff and waypoints

The part of `src/modules/navigator/MissionFeasibility/FeasibilityChecker.cpp` that
`_checks_failed.takeoff_failed` depends on. The commands have the numbers of `navigation.h`.
-/

namespace Px4.Navigator

open List

variable {δ : Type}

/-- The commands that `checkMissionItemValidity` supports. -/
def supportedCommands : List UInt16 :=
  [0, 16, 17, 19, 20, 21, 22, 31, 84, 85, 93, 4501, 42600, 211, 212, 177, 178, 179, 189, 2003, 203,
    400, 2000, 2001, 2500, 2501, 200, 204, 205, 1000, 1001, 187, 201, 195, 196, 197, 206, 260, 214,
    530, 534, 531, 532, 3000]

/-- The commands that are no item with a position for `checkTakeoff`. -/
def commandsWithoutPosition : List UInt16 :=
  [0, 93, 177, 178, 179, 189, 2003, 203, 2000, 2001, 2500, 2501, 200, 204, 205, 1000, 1001, 201,
    195, 196, 197, 206, 260, 214, 530, 534, 531, 532, 3000]

/-- A takeoff, also of a VTOL. -/
def MissionItem.isTakeoff (item : MissionItem δ) : Bool := item.navCmd = 22 || item.navCmd = 84

/-- What the checks read besides the commands: `PX4_ISFINITE(_home_alt_msl)`, `_is_landed`, and of
an item `altitude_is_relative` and whether its altitude above home is below `FLT_EPSILON`. -/
structure FeasibilityData (δ : Type) where
  homeAltFinite : Bool
  isLanded : Bool
  altitudeIsRelative : MissionItem δ → Bool
  tooLow : MissionItem δ → Bool

structure FeasibilityChecker where
  missionValidityFailed : Bool := false
  takeoffFailed : Bool := false
  foundItemWithPosition : Bool := false

namespace FeasibilityChecker

variable (data : FeasibilityData δ) (c : FeasibilityChecker)

def checkMissionItemValidity (item : MissionItem δ) (currentIndex : ℕ) : Bool :=
  if data.altitudeIsRelative item && !data.homeAltFinite && missionItemContainsPosition item then
    false
  else if item.navCmd ∉ supportedCommands then false
  else !(currentIndex = 0 && item.navCmd = 21 && data.isLanded)

def checkTakeoff (item : MissionItem δ) : FeasibilityChecker × Bool :=
  if item.isTakeoff && (data.tooLow item || c.foundItemWithPosition) then (c, false)
  else
    ({ c with foundItemWithPosition :=
        c.foundItemWithPosition || item.navCmd ∉ commandsWithoutPosition }, true)

def processNextItem (item : MissionItem δ) (currentIndex : ℕ) : FeasibilityChecker :=
  let c := if currentIndex = 0 then {} else c
  let c := { c with missionValidityFailed :=
    c.missionValidityFailed || !checkMissionItemValidity data item currentIndex }
  if c.missionValidityFailed || c.takeoffFailed then c
  else
    let checked := c.checkTakeoff data item
    { checked.1 with takeoffFailed := !checked.2 }

/-- The checks of a mission. -/
def process (items : List (MissionItem δ)) : FeasibilityChecker :=
  items.zipIdx.foldl (fun c item => c.processNextItem data item.1 item.2) {}

/-- No takeoff after an item of the kind. -/
def TakeoffFirst (kind : MissionItem δ → Bool) (items : List (MissionItem δ)) : Prop :=
  items.Pairwise fun item item' => kind item → item'.isTakeoff = false

/-- The item counts as one with a position for `checkTakeoff`. -/
def counts (item : MissionItem δ) : Bool := item.navCmd ∉ commandsWithoutPosition

/-- One of the supported commands without a position that `checkTakeoff` does not know. -/
def unlisted (item : MissionItem δ) : Bool :=
  item.navCmd ∈ [20, 187, 211, 212, 400, 4501, 42600]

/-- The items so far are valid, and the check has failed if a takeoff follows one that counts. -/
structure Inv (items : List (MissionItem δ)) (c : FeasibilityChecker) : Prop where
  valid : c.missionValidityFailed = false
  failed : c.takeoffFailed = false ↔ TakeoffFirst counts items
  found : c.takeoffFailed = false → c.foundItemWithPosition = items.any counts

variable {data} {c} {items : List (MissionItem δ)} {item : MissionItem δ} {i : ℕ}

/-- The items that count are those with a position and the unlisted ones. -/
theorem counts_iff (hvalid : checkMissionItemValidity data item i) :
    counts item ↔ missionItemContainsPosition item ∨ unlisted item := by
  have hsupported : item.navCmd ∈ supportedCommands := by
    by_contra h
    simp [checkMissionItemValidity, h] at hvalid
  have hall : supportedCommands.all fun cmd => (cmd ∉ commandsWithoutPosition ↔
      cmd ∈ [16, 17, 19, 21, 22, 31, 84, 85] ∨ cmd ∈ [20, 187, 211, 212, 400, 4501, 42600]) := by
    decide +kernel
  have hcmd := of_decide_eq_true (all_eq_true.mp hall _ hsupported)
  unfold counts missionItemContainsPosition unlisted
  rw [decide_eq_true_iff, decide_eq_true_iff, decide_eq_true_iff]
  exact hcmd

/-- One item more keeps the invariant. -/
theorem Inv.step (h : Inv items c) (hi : i = 0 → c = {})
    (hvalid : checkMissionItemValidity data item i)
    (hlow : item.isTakeoff → data.tooLow item = false) :
    Inv (items ++ [item]) (c.processNextItem data item i) := by
  have hlast : TakeoffFirst counts (items ++ [item]) ↔ TakeoffFirst counts items ∧
      (items.any counts → item.isTakeoff = false) := by
    simp [TakeoffFirst, pairwise_append]
  have hreset : (if i = 0 then {} else c) = c := ite_eq_right_iff.mpr fun h => (hi h).symm
  unfold processNextItem checkTakeoff
  simp only [hreset, hvalid, h.valid, Bool.not_true, Bool.or_false, Bool.false_or]
  cases hfailed : c.takeoffFailed with
  | true =>
    have hbad : ¬TakeoffFirst counts items := fun hfirst => by
      simp [h.failed.mpr hfirst] at hfailed
    exact ⟨rfl, by simp [hlast, hbad], by simp⟩
  | false =>
    have hfirst := h.failed.mp hfailed
    have hfound := h.found hfailed
    by_cases hreject : item.isTakeoff ∧ c.foundItemWithPosition
    · refine ⟨?_, ?_, ?_⟩ <;> simp [hreject, hlast, ← hfound]
    have hfree (hpos : c.foundItemWithPosition) : item.isTakeoff = false :=
      Bool.eq_false_iff.mpr fun htakeoff => hreject ⟨htakeoff, hpos⟩
    have hpass : (item.isTakeoff && (data.tooLow item || c.foundItemWithPosition)) = false := by
      cases htakeoff : item.isTakeoff with
      | false => rfl
      | true => simpa [hlow htakeoff, htakeoff] using hfree
    refine ⟨?_, ?_, fun _ => ?_⟩
    · simp [hpass]
    · simpa [hpass, hlast, hfirst, ← hfound] using hfree
    · simp [hpass, ← hfound, counts]

/-- The invariant holds for a whole mission. -/
theorem inv_process (hvalid : ∀ item ∈ items.zipIdx, checkMissionItemValidity data item.1 item.2)
    (hlow : ∀ item ∈ items, item.isTakeoff → data.tooLow item = false) :
    Inv items (process data items) := by
  induction items using List.reverseRecOn with
  | nil => exact ⟨rfl, iff_of_true rfl .nil, by simp [process]⟩
  | append_singleton items item ih =>
    rw [zipIdx_append] at hvalid
    simp only [mem_append, or_imp, forall_and] at hvalid hlow
    have h := ih hvalid.1 hlow.1
    rw [process, zipIdx_append, foldl_append]
    refine h.step (fun hi => ?_) (hvalid.2 _ (mem_singleton_self _))
      (hlow.2 _ (mem_singleton_self _))
    obtain rfl : items = [] := length_eq_zero_iff.mp (by omega)
    rfl

/-- In a valid mission, no takeoff follows an item that counts exactly if none follows one with a
position or an unlisted one. -/
theorem takeoffFirst_counts
    (hvalid : ∀ item ∈ items.zipIdx, checkMissionItemValidity data item.1 item.2) :
    TakeoffFirst counts items ↔
      TakeoffFirst missionItemContainsPosition items ∧ TakeoffFirst unlisted items := by
  unfold TakeoffFirst
  rw [← pairwise_and_iff]
  refine Pairwise.iff_of_mem fun {item item'} hitem _ => ?_
  obtain ⟨i, hi, rfl⟩ := getElem_of_mem hitem
  have hmem := mk_mem_zipIdx_iff_getElem?.mpr (getElem?_eq_getElem hi)
  rw [counts_iff (hvalid _ hmem), or_imp]

/-- **The check rejects a mission for a takeoff after an item with a position, and only for that,
exactly if** no takeoff comes after an unlisted item, or one comes after an item with a position. -/
theorem takeoff_failed_iff (data : FeasibilityData δ) (items : List (MissionItem δ))
    (hvalid : ∀ item ∈ items.zipIdx, checkMissionItemValidity data item.1 item.2 = true)
    (hlow : ∀ item ∈ items, item.isTakeoff → data.tooLow item = false) :
    ((process data items).takeoffFailed = true ↔
        ¬TakeoffFirst missionItemContainsPosition items) ↔
      TakeoffFirst unlisted items ∨ ¬TakeoffFirst missionItemContainsPosition items := by
  have hfailed := (inv_process hvalid hlow).failed
  rw [takeoffFirst_counts hvalid] at hfailed
  rw [← Bool.not_eq_false, hfailed]
  tauto

def ofCommand (navCmd : UInt16) : MissionItem Unit := ⟨navCmd, 0, 0, 0, ()⟩

/-- Home is known, and all altitudes are above it. -/
def aboveHome : FeasibilityData Unit := ⟨true, true, fun _ => false, fun _ => false⟩

theorem takeoff_failed_iff_waypoint :
    (process aboveHome ([178, 22, 187, 16, 22].map ofCommand)).takeoffFailed = true ↔
      ¬TakeoffFirst missionItemContainsPosition ([178, 22, 187, 16, 22].map ofCommand) :=
  (takeoff_failed_iff _ _ (by decide) (by decide)).mpr (.inr (by unfold TakeoffFirst; decide))

/-- An actuator is set before the takeoff, which is no position. -/
theorem takeoff_failed_without_position :
    let items := [187, 22].map ofCommand
    (∀ item ∈ items.zipIdx, checkMissionItemValidity aboveHome item.1 item.2 = true) ∧
      TakeoffFirst missionItemContainsPosition items ∧
      (process aboveHome items).takeoffFailed = true := by
  unfold TakeoffFirst
  decide

end FeasibilityChecker

end Px4.Navigator
