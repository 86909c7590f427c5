import Mathlib.Data.Finite.Prod
import Mathlib.Data.Int.Interval
import Px4.Common.Cycles
import Px4.Navigator.MissionBase

/-!
# Looking ahead in a mission

`getNonJumpItem` gives up after ten jumps, and returns the last one then. The other searches do not
count the jumps that they follow.
-/

namespace Px4.Navigator

variable {δ : Type}

/-- `mission_item_contains_position`, with the numbers of `navigation.h`: waypoint, the three
loiters, land, takeoff, and the two of a VTOL. -/
def missionItemContainsPosition (item : MissionItem δ) : Bool :=
  item.navCmd ∈ [16, 17, 19, 21, 22, 31, 84, 85]

namespace MissionBase

variable (m : MissionBase δ)

/-- `loadTraversalItem`, with dataman accesses that succeed. -/
def loadTraversalItem (missionIndex : ℤ) (traversalType : MissionTraversalType) (backward : Bool) :
    Option (ℤ × MissionItem δ) :=
  if traversalType = .followMissionControlFlow then
    match (m.getNonJumpItem missionIndex .followMissionControlFlow false backward {}).result with
    | some (index, some item) => some (index, item)
    | _ => none
  else if 0 ≤ missionIndex ∧ missionIndex < m.count then some (missionIndex, m.items missionIndex)
  else none

/-- A search from an index on: the index that is found, within the iterations to come. -/
def findPositionIndex (traversalType : MissionTraversalType) (backward : Bool) :
    ℕ → ℤ → Option (Option ℤ)
  | 0, _ => none
  | fuel + 1, missionIndex =>
    if if backward then 0 ≤ missionIndex else missionIndex < m.count then
      match m.loadTraversalItem missionIndex traversalType backward with
      | none => some none
      | some (index, item) =>
        if missionItemContainsPosition item then some (some index)
        else findPositionIndex traversalType backward fuel
          (if backward then index - 1 else index + 1)
    else some none

def findNextPositionIndex (fuel : ℕ) (startIndex : ℤ) (traversalType : MissionTraversalType) :
    Option (Option ℤ) :=
  m.findPositionIndex traversalType false fuel startIndex

def findPreviousPositionIndex (fuel : ℕ) (startIndex : ℤ) (traversalType : MissionTraversalType) :
    Option (Option ℤ) :=
  m.findPositionIndex traversalType true fuel (startIndex - 1)

end MissionBase

/-! ## The item that is returned -/

/-- An item of the mission that is not a jump. -/
structure IsRealItem (count : ℕ) (items : ℤ → MissionItem δ) (index : ℤ) : Prop where
  nonneg : 0 ≤ index
  lt_count : index < count
  not_jump : (items index).isJump = false

section

variable (count : ℕ) (traversalType : MissionTraversalType) (writeJumps backward : Bool)
  (dataman : DatamanAccess)

/-- The stored items and the index behind the jump at an index, which is taken and counted if it has
not been repeated often enough; nothing if there is no jump to an item of the mission. -/
def jumpFrom (jumpCount : ℕ) (items : ℤ → MissionItem δ) (index : ℤ) :
    Option ((ℤ → MissionItem δ) × ℤ) :=
  let item := items index
  if 0 ≤ index ∧ index < count ∧ item.isJump ∧ 0 ≤ item.doJumpMissionIndex ∧
      item.doJumpMissionIndex < count then
    if item.doJumpCurrentCount < item.doJumpRepeatCount ∧
        traversalType = .followMissionControlFlow then
      some (if writeJumps ∧ dataman.writes jumpCount then
          Function.update items index
            { item with doJumpCurrentCount := item.doJumpCurrentCount + 1 }
        else items, item.doJumpMissionIndex)
    else some (items, if backward then index - 1 else index + 1)
  else none

/-- The stored items and the index behind a chain of so many jumps, if there is one. -/
def jumpChain : ℕ → ℕ → (ℤ → MissionItem δ) → ℤ → Option ((ℤ → MissionItem δ) × ℤ)
  | 0, _, items, index => some (items, index)
  | n + 1, jumpCount, items, index =>
    (jumpFrom count traversalType writeJumps backward dataman jumpCount items index).bind
      fun s => jumpChain n (jumpCount + 1) s.1 s.2

end

/-- What a walk returns: a real item with its index, or what is behind a chain of jumps, with the
last one of them. -/
def Walk.Returns (w : Walk δ) (count : ℕ) (chain : Option ((ℤ → MissionItem δ) × ℤ))
    (r : ℤ × Option (MissionItem δ)) : Prop :=
  match chain with
  | none => IsRealItem count w.items r.1 ∧ r.2 = some (w.items r.1)
  | some s => w.items = s.1 ∧ r.1 = s.2 ∧ ∃ jump ∈ r.2, jump.isJump

variable {count : ℕ} {traversalType : MissionTraversalType} {writeJumps backward : Bool}
  {dataman : DatamanAccess} {w : Walk δ} {r : ℤ × Option (MissionItem δ)}

/-- The loop follows the chain of jumps, and gives up at its end. -/
theorem jumpLoop_returns {rounds jumpCount : ℕ} {items : ℤ → MissionItem δ} {index : ℤ}
    {last : Option (MissionItem δ)} (hlast : rounds = 0 → ∃ jump ∈ last, jump.isJump)
    (hw : w = jumpLoop count traversalType writeJumps backward dataman rounds jumpCount items index
      last) (hr : w.result = some r) :
    w.Returns count (jumpChain count traversalType writeJumps backward dataman rounds jumpCount
      items index) r := by
  induction rounds generalizing jumpCount items index last w with
  | zero =>
    subst hw
    obtain rfl := Option.some.inj hr
    exact ⟨rfl, rfl, hlast rfl⟩
  | succ rounds ih =>
    rw [jumpLoop] at hw
    -- a round that comes across a jump leaves the result to the next ones
    have hnext {jumpCount items items' index index' jump w'} {p : ℤ × Bool}
        (hjump : MissionItem.isJump jump)
        (hw' : w' = jumpLoop count traversalType writeJumps backward dataman rounds (jumpCount + 1)
          items' index' (some jump)) (hw : w = { w' with passed := p :: w'.passed })
        (hfrom : jumpFrom count traversalType writeJumps backward dataman jumpCount items index =
          some (items', index')) :
        w.Returns count (jumpChain count traversalType writeJumps backward dataman (rounds + 1)
          jumpCount items index) r := by
      subst hw
      rw [jumpChain, hfrom]
      exact ih (w := w') (fun _ => ⟨jump, rfl, hjump⟩) hw' hr
    by_cases hload : 0 ≤ index ∧ index < count ∧ dataman.reads jumpCount
    · rw [if_neg (not_not.mpr hload)] at hw
      obtain ⟨hnonneg, hlt, -⟩ := hload
      by_cases hjump : (items index).isJump
      · rw [if_pos hjump] at hw
        split at hw
        · cases hw ▸ hr
        next htarget =>
          obtain ⟨htarget, htarget'⟩ := not_or.mp htarget
          have hinside : 0 ≤ index ∧ index < count ∧ (items index).isJump ∧
              0 ≤ (items index).doJumpMissionIndex ∧ (items index).doJumpMissionIndex < count :=
            ⟨hnonneg, hlt, hjump, not_lt.mp htarget', not_le.mp htarget⟩
          split at hw
          next htaken =>
            refine hnext ?_ rfl hw ?_
            · exact hjump
            · rw [jumpFrom, if_pos hinside, if_pos htaken]
              cases writeJumps <;> simp
          next htaken =>
            refine hnext hjump rfl hw ?_
            rw [jumpFrom, if_pos hinside, if_neg htaken]
      · rw [if_neg hjump] at hw
        subst hw
        obtain rfl := Option.some.inj hr
        have hfrom : jumpFrom count traversalType writeJumps backward dataman jumpCount items
            index = none := if_neg fun h => hjump h.2.2.1
        rw [jumpChain, hfrom]
        exact ⟨⟨hnonneg, hlt, Bool.eq_false_iff.mpr hjump⟩, rfl⟩
    · rw [if_pos hload] at hw
      cases hw ▸ hr

namespace MissionBase

variable {m : MissionBase δ} {missionIndex : ℤ}

theorem getNonJumpItem_returns
    (hw : w = m.getNonJumpItem missionIndex traversalType writeJumps backward dataman)
    (hr : w.result = some r) :
    w.Returns m.count (jumpChain m.count traversalType writeJumps backward dataman maxJumpIteration
      0 m.items missionIndex) r := by
  rw [getNonJumpItem] at hw
  split_ifs at hw
  · cases hw ▸ hr
  · exact jumpLoop_returns nofun hw hr

variable (m)

/-- **The item that is returned is no jump**, and the one at the returned index, exactly if no chain
of ten jumps begins at the index; `goToItem` stays on the items of the mission exactly if such a
chain leads to one. -/
theorem getNonJumpItem_real_iff (missionIndex : ℤ)
    (traversalType : MissionTraversalType) (writeJumps backward : Bool) (dataman : DatamanAccess) :
    let w := m.getNonJumpItem missionIndex traversalType writeJumps backward dataman
    let next := m.goToItem missionIndex traversalType backward dataman
    (∀ r ∈ w.result, (IsRealItem m.count w.items r.1 ∧ r.2 = some (w.items r.1)) ↔
        jumpChain m.count traversalType writeJumps backward dataman 10 0 m.items missionIndex =
          none) ∧
      (next.2 = true → (IsRealItem next.1.count next.1.items next.1.currentSeq ↔
        ∀ s ∈ jumpChain m.count traversalType true backward dataman 10 0 m.items missionIndex,
          IsRealItem m.count s.1 s.2)) := by
  intro w next
  refine ⟨fun r hr => ?_, fun hok => ?_⟩
  · have hresult := getNonJumpItem_returns (m := m) rfl hr
    unfold Walk.Returns maxJumpIteration at hresult
    split at hresult
    next hchain => exact iff_of_true hresult hchain
    next s hchain =>
      obtain ⟨-, -, jump, hjump, hisJump⟩ := hresult
      rw [hchain]
      refine iff_of_false (fun ⟨hreal, hitem⟩ => ?_) nofun
      obtain rfl : w.items r.1 = jump := Option.some.inj (hitem ▸ hjump)
      exact Bool.false_ne_true (hreal.not_jump.symm.trans hisJump)
  · obtain ⟨w', hw'⟩ : ∃ w', w' = m.getNonJumpItem missionIndex traversalType true backward
      dataman := ⟨_, rfl⟩
    cases hr : w'.result with
    | none =>
      simp only [next, goToItem, ← hw', hr] at hok
      cases hok
    | some r =>
      have hnext : next.1 = { m with items := w'.items }.setMissionIndex r.1 := by
        simp only [next, goToItem, ← hw', hr]
      have hresult := getNonJumpItem_returns hw' hr
      rw [hnext]
      unfold Walk.Returns maxJumpIteration at hresult
      split at hresult
      next hchain =>
        rw [hchain]
        exact iff_of_true { hresult.1 with } nofun
      next s hchain =>
        obtain ⟨hitems, hindex, -⟩ := hresult
        rw [hchain]
        change IsRealItem m.count w'.items r.1 ↔ _
        rw [hitems, hindex]
        simp

/-- Ten jumps that are not to be taken, to the end of the mission. -/
def tenJumps : MissionBase Unit where
  count := 10
  items := fun _ => ⟨navCmdDoJump, 0, 0, 0, ()⟩

/-- The index is beyond the mission, and the item is a jump. -/
theorem getNonJumpItem_not_real :
    ((tenJumps.getNonJumpItem 0 .followMissionControlFlow true false {}).result.map fun r =>
        (r.1, r.2.map MissionItem.isJump)) = some (10, some true) ∧
      (tenJumps.goToItem 0 .followMissionControlFlow false {}).2 = true ∧
      (tenJumps.goToItem 0 .followMissionControlFlow false {}).1.currentSeq = 10 := by
  decide +kernel

/-! ## The searches -/

/-- The next index in the direction of a search. -/
def behind (backward : Bool) (i : ℤ) : ℤ := if backward then i - 1 else i + 1

/-- Where a search goes on, from an index that it has come to after `jumps` jumps in a row, by the
stored items alone. It ends at an item with a position, and outside of the mission. At the tenth
jump, the item behind it is passed over. -/
def passOn (backward : Bool) : ℤ × ℕ → Option (ℤ × ℕ)
  | (i, jumps) =>
    let item := m.items i
    if ¬(0 ≤ i ∧ i < m.count) then none
    else if item.isJump then
      if item.doJumpMissionIndex ≥ m.count ∨ item.doJumpMissionIndex < 0 then none
      else
        let j := if item.doJumpCurrentCount < item.doJumpRepeatCount then item.doJumpMissionIndex
          else behind backward i
        if jumps + 1 < maxJumpIteration then some (j, jumps + 1) else some (behind backward j, 0)
    else if missionItemContainsPosition item then none
    else some (behind backward i, 0)

def PassesOn (backward : Bool) (s s' : ℤ × ℕ) : Prop := m.passOn backward s = some s'

/-- A search returns after finitely many iterations. -/
def Ends (backward : Bool) (i : ℤ) : Prop :=
  ∃ fuel, (m.findPositionIndex .followMissionControlFlow backward fuel i).isSome

/-- Where the search goes on behind the item that `getNonJumpItem` finds, from the middle of its
loop. -/
def goesOn (backward : Bool) : ℤ × ℕ → Option ℤ
  | (i, jumps) =>
    match (jumpLoop m.count .followMissionControlFlow false backward {} (maxJumpIteration - jumps)
      jumps m.items i none).result with
    | some (index, some item) =>
      if missionItemContainsPosition item then none else some (behind backward index)
    | _ => none

variable {m}

theorem behind_mem {lo hi i : ℤ} (hlo : lo ≤ i) (hhi : i ≤ hi) :
    lo - 1 ≤ behind backward i ∧ behind backward i ≤ hi + 1 := by
  unfold behind
  split <;> omega

/-- A step stays near the mission. -/
theorem passOn_some {s s' : ℤ × ℕ} (h : m.passOn backward s = some s') :
    -2 ≤ s'.1 ∧ s'.1 ≤ m.count + 1 ∧ (s'.2 = 0 ∨ s'.2 = s.2 + 1 ∧ s'.2 < maxJumpIteration) := by
  unfold passOn at h
  split at h
  next i jumps =>
    have hbehind := @behind_mem backward 0 (m.count - 1) i
    dsimp only at h
    split_ifs at h <;> obtain rfl := Option.some.inj h
    · exact ⟨by omega, by omega, .inr ⟨rfl, by omega⟩⟩
    · exact ⟨by omega, by omega, .inr ⟨rfl, by omega⟩⟩
    · have := @behind_mem backward 0 (m.count - 1) (m.items i).doJumpMissionIndex
      exact ⟨by omega, by omega, .inl rfl⟩
    · have := @behind_mem backward (-1) m.count (behind backward i)
      exact ⟨by omega, by omega, .inl rfl⟩
    · exact ⟨by omega, by omega, .inl rfl⟩

/-- A jump has no position. -/
theorem not_position_of_isJump {item : MissionItem δ} (h : item.isJump) :
    missionItemContainsPosition item = false := by
  have hcmd : item.navCmd = navCmdDoJump := by simpa [MissionItem.isJump] using h
  rw [missionItemContainsPosition, hcmd]
  decide

/-- The round of the loop at a jump: the jump is followed, or it is the last one. -/
theorem goesOn_jump {j : ℤ} {jumps : ℕ} {last : MissionItem δ} (hlast : last.isJump) :
    (match (jumpLoop m.count .followMissionControlFlow false backward {}
        (maxJumpIteration - (jumps + 1)) (jumps + 1) m.items j (some last)).result with
      | some (index, some item) =>
        if missionItemContainsPosition item then none else some (behind backward index)
      | _ => none) =
      if jumps + 1 < maxJumpIteration then m.goesOn backward (j, jumps + 1)
      else some (behind backward j) := by
  split_ifs with hlt
  · obtain ⟨rounds, hrounds⟩ : ∃ rounds, maxJumpIteration - (jumps + 1) = rounds + 1 :=
      ⟨maxJumpIteration - (jumps + 1) - 1, by omega⟩
    rw [goesOn, hrounds, jumpLoop, jumpLoop]
  · rw [show maxJumpIteration - (jumps + 1) = 0 by omega]
    simp [jumpLoop, not_position_of_isJump hlast]

/-- A step of the search is one round of the loop of `getNonJumpItem`. -/
theorem goesOn_eq {i : ℤ} {jumps : ℕ} (hjumps : jumps < maxJumpIteration) :
    m.goesOn backward (i, jumps) = match m.passOn backward (i, jumps) with
      | none => none
      | some (j, 0) => some j
      | some (j, jumps' + 1) => m.goesOn backward (j, jumps' + 1) := by
  have hrounds : maxJumpIteration - jumps = maxJumpIteration - (jumps + 1) + 1 := by omega
  rw [goesOn, hrounds, jumpLoop, passOn]
  by_cases hmem : 0 ≤ i ∧ i < m.count
  · have hload : ¬¬(0 ≤ i ∧ i < m.count ∧ ({} : DatamanAccess).reads jumps) := by simpa using hmem
    rw [if_neg hload, if_neg (not_not.mpr hmem)]
    dsimp only
    by_cases hjump : (m.items i).isJump
    · rw [if_pos hjump, if_pos hjump]
      by_cases htarget : (m.items i).doJumpMissionIndex ≥ m.count ∨
          (m.items i).doJumpMissionIndex < 0
      · rw [if_pos htarget, if_pos htarget]
      · rw [if_neg htarget, if_neg htarget]
        simp only [and_true, Bool.false_eq_true, if_false, Nat.add_zero, ← behind.eq_1]
        split_ifs <;> simp only [goesOn_jump hjump, *, if_true, if_false]
    · rw [if_neg hjump, if_neg hjump]
      dsimp only
      split <;> rfl
  · simp [hmem]

/-- An iteration of a search leaves to the next ones what is behind the item that it finds. -/
theorem findPositionIndex_succ {fuel : ℕ} {i : ℤ} :
    (m.findPositionIndex .followMissionControlFlow backward (fuel + 1) i).isSome ↔
      ∀ j ∈ m.goesOn backward (i, 0),
        (m.findPositionIndex .followMissionControlFlow backward fuel j).isSome := by
  rw [findPositionIndex, loadTraversalItem, if_pos rfl, getNonJumpItem, goesOn]
  by_cases hmem : 0 ≤ i ∧ i < m.count
  · have hin : if backward then 0 ≤ i else i < m.count := by
      split
      exacts [hmem.1, hmem.2]
    rw [if_pos hin, if_neg (by omega)]
    cases (jumpLoop m.count .followMissionControlFlow false backward {} maxJumpIteration 0 m.items i
      none).result with
    | none => simp
    | some found =>
      obtain ⟨index, _ | item⟩ := found
      · simp
      · cases hposition : missionItemContainsPosition item <;> simp [hposition, behind]
  · have hout : i ≥ m.count ∨ i < 0 := by omega
    have hload : jumpLoop m.count .followMissionControlFlow false backward {} maxJumpIteration 0
        m.items i none = { items := m.items, result := none } := if_pos fun h => hmem ⟨h.1, h.2.1⟩
    rw [if_pos hout, Nat.sub_zero, hload]
    split <;> simp

/-- A search that ends cannot pass on for ever. -/
theorem acc_of_goesOn {i : ℤ} {jumps : ℕ} (hjumps : jumps < maxJumpIteration)
    (h : ∀ j ∈ m.goesOn backward (i, jumps), Acc (flip (m.PassesOn backward)) (j, 0)) :
    Acc (flip (m.PassesOn backward)) (i, jumps) := by
  -- by induction on the jumps that the loop may still follow
  induction hrounds : maxJumpIteration - jumps generalizing i jumps with
  | zero => omega
  | succ rounds ih =>
    rw [goesOn_eq hjumps] at h
    refine ⟨_, fun s' hs' => ?_⟩
    obtain ⟨j, jumps'⟩ := s'
    replace hs' : m.passOn backward (i, jumps) = some (j, jumps') := hs'
    rw [hs'] at h
    obtain ⟨-, -, hjumps'⟩ := passOn_some hs'
    cases jumps' with
    | zero => exact h j rfl
    | succ jumps' => exact ih (by omega) h (by omega)

/-- A search that ends passes on finitely often. -/
theorem acc_of_ends {i : ℤ} (h : m.Ends backward i) :
    Acc (flip (m.PassesOn backward)) (i, 0) := by
  obtain ⟨fuel, hfuel⟩ := h
  induction fuel generalizing i with
  | zero => cases hfuel
  | succ fuel ih =>
    exact acc_of_goesOn (by decide) fun j hj => ih (findPositionIndex_succ.mp hfuel j hj)

/-- A search ends if it ends behind the next item. -/
theorem ends_of_goesOn {i : ℤ} (h : ∀ j ∈ m.goesOn backward (i, 0), m.Ends backward j) :
    m.Ends backward i := by
  cases hgoes : m.goesOn backward (i, 0) with
  | none => exact ⟨1, findPositionIndex_succ.mpr fun j hj => by rw [hgoes] at hj; cases hj⟩
  | some j =>
    obtain ⟨fuel, hfuel⟩ := h j hgoes
    refine ⟨fuel + 1, findPositionIndex_succ.mpr fun j' hj' => ?_⟩
    obtain rfl := Option.some.inj (hgoes.symm.trans hj')
    exact hfuel

/-- The search ends wherever the loop goes on. -/
theorem ends_of_acc {s : ℤ × ℕ} (hs : Acc (flip (m.PassesOn backward)) s)
    (hjumps : s.2 < maxJumpIteration) : ∀ j ∈ m.goesOn backward s, m.Ends backward j := by
  induction hs with
  | intro s _ ih =>
    obtain ⟨i, jumps⟩ := s
    intro j hj
    rw [goesOn_eq hjumps] at hj
    split at hj
    · cases hj
    next hpass =>
      obtain rfl := Option.some.inj hj
      exact ends_of_goesOn (ih _ hpass (Nat.succ_pos 9))
    next hpass =>
      obtain ⟨-, -, hjumps'⟩ := passOn_some hpass
      exact ih _ hpass (hjumps'.resolve_left (Nat.succ_ne_zero _)).2 j hj

/-- A search comes across finitely many indices. -/
theorem finite_passesOn (i : ℤ) :
    {s | Relation.ReflTransGen (m.PassesOn backward) (i, 0) s}.Finite := by
  refine Set.Finite.subset (((Set.finite_Icc (-2) (m.count + 1 : ℤ)).prod
    (Set.finite_Iio maxJumpIteration)).insert (i, 0)) fun s hs => ?_
  rcases Relation.ReflTransGen.cases_tail hs with rfl | ⟨s', -, hs⟩
  · exact .inl rfl
  · obtain ⟨hle, hle', hjumps⟩ := passOn_some hs
    exact .inr ⟨⟨hle, hle'⟩, hjumps.elim (fun h => h ▸ by decide) And.right⟩

theorem ends_iff_noneFrom {i : ℤ} :
    m.Ends backward i ↔ Cycles.NoneFrom (m.PassesOn backward) (i, 0) := by
  rw [← Cycles.acc_iff_noneFrom (finite_passesOn i)]
  exact ⟨acc_of_ends, fun h => ends_of_goesOn (ends_of_acc h (Nat.succ_pos 9))⟩

/-- **Looking ahead ends** exactly if the stored items do not lead from the start into a cycle of
jumps and items without a position. -/
theorem lookahead_ends_iff (m : MissionBase δ) (startIndex : ℤ) :
    ((∃ fuel, (m.findNextPositionIndex fuel startIndex .followMissionControlFlow).isSome) ↔
        Cycles.NoneFrom (m.PassesOn false) (startIndex, 0)) ∧
      ((∃ fuel, (m.findPreviousPositionIndex fuel startIndex .followMissionControlFlow).isSome) ↔
        Cycles.NoneFrom (m.PassesOn true) (startIndex - 1, 0)) :=
  ⟨ends_iff_noneFrom, ends_iff_noneFrom⟩

/-- A change of the speed, and a jump back to it. -/
def speedAgain (repeats : ℕ) : MissionBase Unit where
  count := 2
  items := fun i => if i = 1 then ⟨navCmdDoJump, 0, repeats, 0, ()⟩ else ⟨178, 0, 0, 0, ()⟩

/-- The jump is never counted, and the search goes around. -/
theorem lookahead_goes_around :
    ¬∃ fuel, ((speedAgain 1).findNextPositionIndex fuel 0 .followMissionControlFlow).isSome := by
  have hnone (fuel : ℕ) :
      (speedAgain 1).findNextPositionIndex fuel 0 .followMissionControlFlow = none ∧
        (speedAgain 1).findNextPositionIndex fuel 1 .followMissionControlFlow = none := by
    induction fuel with
    | zero => exact ⟨rfl, rfl⟩
    | succ fuel ih => exact ⟨ih.2, ih.2⟩
  simp [hnone]

end MissionBase

end Px4.Navigator
