import Mathlib.Algebra.Order.BigOperators.Group.Finset
import Px4.Navigator.MissionBase

/-!
# Jumps of a mission

How often the `DO_JUMP` items of a mission are taken, and that a completed mission can be flown
again, if its last item is not a jump: only then is a mission without a next item at its last item,
where the counters are reset.
-/

namespace Px4.Navigator

open Function List MissionBase Nat

variable {δ : Type}

/-! ## The loop -/

/-- The jumps stay in the mission, and its last item is none. -/
structure Jumps (count : ℕ) (items : ℤ → MissionItem δ) : Prop where
  target : ∀ i : ℤ, 0 ≤ i → i < count → (items i).isJump →
    0 ≤ (items i).doJumpMissionIndex ∧ (items i).doJumpMissionIndex < count
  last : (items (count - 1)).isJump = false

/-- The counters after these jumps. -/
def counted (items : ℤ → MissionItem δ) (passed : List (ℤ × Bool)) : ℤ → MissionItem δ := fun i =>
  { items i with doJumpCurrentCount := (items i).doJumpCurrentCount + passed.count (i, true) }

section

variable (items : ℤ → MissionItem δ)

theorem counted_nil : counted items [] = items := by
  funext i
  simp [counted]

variable {passed passed' : List (ℤ × Bool)} {index : ℤ}

theorem counted_append :
    counted items (passed ++ passed') = counted (counted items passed) passed' := by
  funext i
  simp [counted, add_assoc]

theorem counted_cons_true :
    counted items ((index, true) :: passed) =
      counted (update items index { items index with
        doJumpCurrentCount := (items index).doJumpCurrentCount + 1 }) passed := by
  funext i
  by_cases h : i = index
  · subst h
    simp [counted, add_assoc, add_comm 1]
  · simp [counted, update_of_ne h, Ne.symm h]

theorem counted_cons_false :
    counted items ((index, false) :: passed) = counted items passed := by
  funext i
  simp [counted]

end

variable {count : ℕ} {items : ℤ → MissionItem δ}

theorem Jumps.counted (h : Jumps count items) (passed) : Jumps count (counted items passed) :=
  ⟨h.target, h.last⟩

/-- A jump is taken as often as its repeat count allows: each time until that is reached. -/
def TakenAsAllowed (items : ℤ → MissionItem δ) (passed : List (ℤ × Bool)) : Prop := ∀ i,
  (items i).doJumpCurrentCount ≤ (items i).doJumpRepeatCount →
    passed.count (i, true) = min (passed.countP fun p => p.1 = i)
      ((items i).doJumpRepeatCount - (items i).doJumpCurrentCount)

variable {passed passed' : List (ℤ × Bool)} {taken : Bool} {index index' : ℤ} {rounds : ℕ}
  {w : Walk δ}

theorem TakenAsAllowed.append
    (h : TakenAsAllowed items passed) (h' : TakenAsAllowed (counted items passed) passed') :
    TakenAsAllowed items (passed ++ passed') := by
  intro i hi
  have hfirst := h i hi
  have hsecond := h' i
  simp only [counted] at hsecond
  rw [count_append, countP_append]
  omega

theorem takenAsAllowed_single
    (h : taken = decide ((items index).doJumpCurrentCount < (items index).doJumpRepeatCount)) :
    TakenAsAllowed items [(index, taken)] := by
  intro i hi
  by_cases heq : index = i
  · subst heq
    rcases taken with _ | _
    · have := of_decide_eq_false h.symm
      simp
      omega
    · have := of_decide_eq_true h.symm
      simp
      omega
  · simp [heq]

/-- What the loop does if dataman can be accessed. -/
structure WalkOk (count : ℕ) (items : ℤ → MissionItem δ) (index : ℤ) (rounds : ℕ) (w : Walk δ) :
    Prop where
  items_eq : w.items = counted items w.passed
  taken : TakenAsAllowed items w.passed
  passed : ∀ p ∈ w.passed, 0 ≤ p.1 ∧ p.1 < count ∧ (items p.1).isJump
  found : w.result ≠ none
  next : w.passed.length < rounds → ∀ r ∈ w.result, 0 ≤ r.1 ∧ r.1 < count ∧
    ((∃ j, (j, true) ∈ w.passed) ∨ index ≤ r.1)

theorem WalkOk.cons {taken}
    (hw : WalkOk count (counted items [(index, taken)]) index' rounds w) (hlow : 0 ≤ index)
    (hhigh : index < count) (hjump : (items index).isJump)
    (htaken : taken = decide ((items index).doJumpCurrentCount < (items index).doJumpRepeatCount))
    (hindex : taken ∨ index ≤ index') :
    WalkOk count items index (rounds + 1) { w with passed := (index, taken) :: w.passed } := by
  refine ⟨?_, ?_, fun p hp => ?_, hw.found, fun hlength r hr => ?_⟩
  · exact hw.items_eq.trans (counted_append items).symm
  · exact (takenAsAllowed_single htaken).append hw.taken
  · rcases mem_cons.mp hp with rfl | hp
    · exact ⟨hlow, hhigh, hjump⟩
    · exact hw.passed p hp
  · obtain ⟨hlow', hhigh', hnext⟩ := hw.next (lt_of_succ_lt_succ hlength) r hr
    refine ⟨hlow', hhigh', ?_⟩
    rcases hindex with rfl | hle
    · exact .inl ⟨index, mem_cons_self ..⟩
    · exact hnext.imp (fun ⟨j, hj⟩ => ⟨j, mem_cons_of_mem _ hj⟩) hle.trans

theorem jumpLoop_ok : ∀ {jumpCount : ℕ} {items : ℤ → MissionItem δ}
    {index : ℤ} {last : Option (MissionItem δ)}, Jumps count items → 0 ≤ index → index < count →
    WalkOk count items index rounds (jumpLoop count .followMissionControlFlow true false {} rounds
      jumpCount items index last) := by
  induction rounds with
  | zero =>
    intro jumpCount items index last h hlow hhigh
    rw [jumpLoop]
    exact ⟨(counted_nil items).symm, fun i _ => by simp, nofun, nofun, nofun⟩
  | succ rounds ih =>
    intro jumpCount items index last h hlow hhigh
    rw [jumpLoop, if_neg (by simp [hlow, hhigh])]
    by_cases hjump : (items index).isJump
    · obtain ⟨htlow, hthigh⟩ := h.target index hlow hhigh hjump
      rw [if_pos hjump, if_neg (by omega)]
      by_cases htake : (items index).doJumpCurrentCount < (items index).doJumpRepeatCount
      · have hone : counted items [(index, true)] = update items index { items index with
            doJumpCurrentCount := (items index).doJumpCurrentCount + 1 } := by
          rw [counted_cons_true, counted_nil]
        rw [if_pos ⟨htake, rfl⟩]
        refine (?_ : WalkOk count (counted items [(index, true)]) (items index).doJumpMissionIndex
          rounds _).cons hlow hhigh hjump (decide_eq_true htake).symm (.inl rfl)
        have hrest := h.counted [(index, true)]
        rw [hone] at hrest ⊢
        exact ih hrest htlow hthigh
      · -- A jump is not the last item.
        have hnext : index + 1 < count := by
          by_contra hge
          have heq : index = count - 1 := by omega
          rw [heq, h.last] at hjump
          cases hjump
        rw [if_neg fun h => htake h.1]
        refine (?_ : WalkOk count (counted items [(index, false)]) (index + 1) rounds _).cons hlow
          hhigh hjump (decide_eq_false htake).symm (.inr (by omega))
        rw [counted_cons_false]
        exact ih h (by omega) hnext
    · rw [if_neg hjump]
      refine ⟨(counted_nil items).symm, fun i _ => by simp, nofun, nofun, fun _ r hr => ?_⟩
      obtain rfl := Option.mem_some_iff.mp hr
      exact ⟨hlow, hhigh, .inr (Int.le_refl _)⟩

/-! ## The reset -/

theorem resetLoop_eq : ∀ {index : ℕ} {items : ℤ → MissionItem δ},
    index + rounds = count → resetLoop count {} rounds index items = fun i : ℤ =>
      if index ≤ i ∧ i < count ∧ (items i).isJump then { items i with doJumpCurrentCount := 0 }
      else items i := by
  induction rounds with
  | zero =>
    intro index items hcount
    funext i
    rw [resetLoop, if_neg (by omega)]
  | succ rounds ih =>
    intro index items hcount
    rw [resetLoop, if_pos ⟨by omega, rfl⟩]
    by_cases hjump : (items index).isJump
    · rw [if_pos hjump, if_pos rfl, ih (by omega)]
      funext i
      by_cases heq : i = index
      · subst heq
        rw [if_neg (by omega), if_pos ⟨Int.le_refl _, by omega, hjump⟩, update_self]
      · have hle : ((index + 1 : ℕ) : ℤ) ≤ i ↔ (index : ℤ) ≤ i := by omega
        simp only [update_of_ne heq, hle]
    · rw [if_neg hjump, ih (by omega)]
      funext i
      by_cases heq : i = index
      · subst heq
        rw [if_neg (by omega), if_neg fun h => hjump h.2.2]
      · have hle : ((index + 1 : ℕ) : ℤ) ≤ i ↔ (index : ℤ) ≤ i := by omega
        simp only [hle]

namespace MissionBase

/-! ## Runs -/

/-- `advance_mission`, with dataman accesses that succeed. -/
def advance (m : MissionBase δ) : MissionBase δ × Bool := m.advanceMission {} {}

/-- The mission after that many calls of `advance_mission`. -/
def run (m : MissionBase δ) (k : ℕ) : MissionBase δ := (fun m => (advance m).1)^[k] m

/-- The walk of the next call. -/
def nextWalk (m : MissionBase δ) : Walk δ :=
  m.getNonJumpItem (m.currentSeq + 1) .followMissionControlFlow true false {}

/-- The chain of jumps before the next item is short enough. -/
def ShortChain (m : MissionBase δ) : Prop := m.nextWalk.passed.length < maxJumpIteration

instance (m : MissionBase δ) : Decidable m.ShortChain := inferInstanceAs (Decidable (_ < _))

/-- The jumps that the first calls come across. -/
def passes (m : MissionBase δ) (k : ℕ) : List (ℤ × Bool) :=
  (range k).flatMap fun j => (m.run j).nextWalk.passed

/-- The first calls find a next item. -/
def Flying (m : MissionBase δ) (k : ℕ) : Prop := ∀ j < k, (m.run j).advance.2 = true

instance (m : MissionBase δ) (k : ℕ) : Decidable (m.Flying k) :=
  inferInstanceAs (Decidable (∀ j < k, (m.run j).advance.2 = true))

theorem flying_zero (m : MissionBase δ) : m.Flying 0 := nofun

variable {m m₀ : MissionBase δ} {passed : List (ℤ × Bool)}

theorem flying_succ {k : ℕ} (hfound : m.advance.2)
    (h : m.advance.1.Flying k) : m.Flying (k + 1) := by
  intro j hj
  cases j with
  | zero => exact hfound
  | succ j => exact h j (lt_of_succ_lt_succ hj)

theorem Flying.mono {k n : ℕ} (h : m.Flying k) (hn : n ≤ k) : m.Flying n :=
  fun j hj => h j (lt_of_lt_of_le hj hn)

theorem run_succ {k : ℕ} (m : MissionBase δ) : m.run (k + 1) = (m.run k).advance.1 :=
  iterate_succ_apply' ..

theorem passes_succ {k : ℕ} : m.passes (k + 1) = m.passes k ++ (m.run k).nextWalk.passed := by
  rw [passes, range_succ, flatMap_append, flatMap_singleton]
  rfl

/-- A mission some way along its run. -/
structure Underway (m₀ : MissionBase δ) (passed : List (ℤ × Bool)) (m : MissionBase δ) : Prop where
  count_eq : m.count = m₀.count
  items_eq : m.items = counted m₀.items passed
  taken : TakenAsAllowed m₀.items passed
  passed : ∀ p ∈ passed, 0 ≤ p.1 ∧ p.1 < m₀.count ∧ (m₀.items p.1).isJump
  seq_nonneg : 0 ≤ m.currentSeq
  seq_lt : m.currentSeq < m.count

theorem advance_of_not_lt (hseq : ¬m.currentSeq + 1 < m.count) : m.advance =
    (if m.currentSeq + 1 = m.count then m.resetMissionJumpCounter {} else m, false) := by
  have hgo : m.goToNextItem .followMissionControlFlow {} = (m, false) := by
    rw [goToNextItem, if_pos (by omega)]
  simp only [advance, advanceMission, hgo, Bool.false_eq_true, if_false]
  split_ifs <;> rfl

section

variable (h : Underway m₀ passed m)
include h

theorem Underway.advance_next (hjumps : Jumps m₀.count m₀.items)
    (hseq : m.currentSeq + 1 < m.count) :
    WalkOk m.count m.items (m.currentSeq + 1) maxJumpIteration m.nextWalk ∧
      ∃ r, m.nextWalk.result = some r ∧
        m.advance = ({ m with items := m.nextWalk.items, currentSeq := r.1 }, true) := by
  have hm : Jumps m.count m.items := by
    rw [h.count_eq, h.items_eq]
    exact hjumps.counted passed
  have hlow := h.seq_nonneg
  have hwalk : WalkOk m.count m.items (m.currentSeq + 1) maxJumpIteration m.nextWalk := by
    rw [nextWalk, getNonJumpItem, if_neg (by omega)]
    exact jumpLoop_ok hm (by omega) hseq
  obtain ⟨r, hr⟩ := Option.ne_none_iff_exists'.mp hwalk.found
  have hgo : m.goToNextItem .followMissionControlFlow {} =
      ({ m with items := m.nextWalk.items, currentSeq := r.1 }, true) := by
    unfold nextWalk at hr
    rw [goToNextItem, if_neg (by omega), goToItem, hr]
    rfl
  exact ⟨hwalk, r, hr, by rw [advance, advanceMission, hgo, if_pos rfl]⟩

theorem Underway.step (hjumps : Jumps m₀.count m₀.items)
    (hseq : m.currentSeq + 1 < m.count) (hshort : m.ShortChain) :
    m.advance.2 ∧ Underway m₀ (passed ++ m.nextWalk.passed) m.advance.1 ∧
      ((∃ j, (j, true) ∈ m.nextWalk.passed) ∨ m.currentSeq < m.advance.1.currentSeq) := by
  obtain ⟨hwalk, r, hr, hadvance⟩ := h.advance_next hjumps hseq
  obtain ⟨hlow, hhigh, hnext⟩ := hwalk.next hshort r hr
  have hitems := h.items_eq
  rw [hadvance]
  refine ⟨rfl, ⟨h.count_eq, ?_, ?_, ?_, hlow, hhigh⟩, ?_⟩
  · rw [counted_append, ← hitems]
    exact hwalk.items_eq
  · exact h.taken.append (hitems ▸ hwalk.taken)
  · intro p hp
    rcases mem_append.mp hp with hp | hp
    · exact h.passed p hp
    · obtain ⟨hplow, hphigh, hjump⟩ := hwalk.passed p hp
      rw [hitems] at hjump
      exact ⟨hplow, h.count_eq ▸ hphigh, hjump⟩
  · exact hnext.imp_right fun hle => by dsimp only; omega

theorem Underway.advance_last (hseq : ¬m.currentSeq + 1 < m.count) :
    m.advance = (m.resetMissionJumpCounter {}, false) := by
  have hlt := h.seq_lt
  rw [advance_of_not_lt hseq, if_pos (by omega)]

theorem Underway.seq_next (hfound : m.advance.2) : m.currentSeq + 1 < m.count := by
  by_contra hseq
  rw [h.advance_last hseq] at hfound
  cases hfound

end

/-- A mission before its first call: the counters of its jumps are zero. -/
structure Fresh (m : MissionBase δ) : Prop where
  seq_eq : m.currentSeq = 0
  zero : ∀ i : ℤ, 0 ≤ i → i < m.count → (m.items i).isJump → (m.items i).doJumpCurrentCount = 0

theorem Fresh.underway (h : m.Fresh) (hcount : 0 < m.count) :
    Underway m [] m where
  count_eq := rfl
  items_eq := (counted_nil _).symm
  taken := fun i _ => by simp
  passed := nofun
  seq_nonneg := by rw [h.seq_eq]
  seq_lt := by
    rw [h.seq_eq]
    exact Int.ofNat_lt.mpr hcount

section Runs

variable {m₀ m : MissionBase δ}

theorem Underway.reset (h : Underway m₀ passed m) (hfresh : m₀.Fresh) :
    (m.resetMissionJumpCounter {}).items = m₀.items := by
  rw [resetMissionJumpCounter]
  dsimp only
  rw [resetLoop_eq (zero_add _), h.items_eq, h.count_eq]
  funext i
  split_ifs with hi
  · have hzero := hfresh.zero i hi.1 hi.2.1 hi.2.2
    simp [counted, ← hzero]
  · have hnone : passed.count (i, true) = 0 := by
      rw [count_eq_zero]
      exact fun hmem => hi (h.passed _ hmem)
    simp only [counted, hnone, add_zero]

theorem Underway.current_le (h : Underway m₀ passed m) (hfresh : m₀.Fresh) {i : ℤ} (hlow : 0 ≤ i)
    (hhigh : i < m₀.count) (hjump : (m₀.items i).isJump) :
    (m.items i).doJumpCurrentCount ≤ (m.items i).doJumpRepeatCount := by
  have hzero := hfresh.zero i hlow hhigh hjump
  have htaken := h.taken i (by omega)
  rw [h.items_eq]
  simp only [counted]
  omega

/-- The jumps that are still to be taken. -/
def remaining (m : MissionBase δ) : ℕ :=
  ∑ i ∈ Finset.range m.count, ((m.items i).doJumpRepeatCount - (m.items i).doJumpCurrentCount)

/-- What decreases from call to call. -/
def toFly (m : MissionBase δ) : ℕ := m.remaining * (m.count + 1) + (m.count - m.currentSeq.toNat)

variable {i j : ℤ}

theorem counted_remaining_le :
    (counted items passed i).doJumpRepeatCount - (counted items passed i).doJumpCurrentCount ≤
      (items i).doJumpRepeatCount - (items i).doJumpCurrentCount := by
  simp only [counted]
  omega

/-- A jump that is taken is one less to be taken. -/
theorem Underway.remaining_lt (h : Underway m₀ passed m) (hfresh : m₀.Fresh)
    (hw : WalkOk m.count m.items index rounds w) (hj : (j, true) ∈ w.passed) (seq : ℤ) :
    ({ m with items := w.items, currentSeq := seq } : MissionBase δ).remaining < m.remaining := by
  obtain ⟨hlow, hhigh, hjump⟩ := hw.passed _ hj
  have hjump₀ : (m₀.items j).isJump := by
    rw [h.items_eq] at hjump
    exact hjump
  have hle := h.current_le hfresh hlow (h.count_eq ▸ hhigh) hjump₀
  have hpos := count_pos_iff.mpr hj
  have htaken := hw.taken j hle
  simp only [remaining, hw.items_eq]
  apply Finset.sum_lt_sum
  · exact fun i _ => counted_remaining_le
  · obtain ⟨n, rfl⟩ := Int.eq_ofNat_of_zero_le hlow
    refine ⟨n, Finset.mem_range.mpr (Int.ofNat_lt.mp hhigh), ?_⟩
    simp only [counted]
    omega

theorem remaining_le {w : Walk δ} (hitems : w.items = counted m.items w.passed) (seq) :
    ({ m with items := w.items, currentSeq := seq } : MissionBase δ).remaining ≤ m.remaining := by
  simp only [remaining, hitems]
  exact Finset.sum_le_sum fun i _ => counted_remaining_le

/-- Either a jump was taken, or the mission is further on. -/
theorem Underway.toFly_lt (h : Underway m₀ passed m) (hfresh : m₀.Fresh)
    (hjumps : Jumps m₀.count m₀.items) (hseq : m.currentSeq + 1 < m.count)
    (hshort : m.ShortChain) : m.advance.1.toFly < m.toFly := by
  obtain ⟨hwalk, r, hr, hadvance⟩ := h.advance_next hjumps hseq
  obtain ⟨hlow, hhigh, hnext⟩ := hwalk.next hshort r hr
  have hlow' := h.seq_nonneg
  rw [hadvance]
  rw [toFly, toFly]
  dsimp only
  rcases hnext with ⟨j, hj⟩ | hle
  · have hlt := h.remaining_lt hfresh hwalk hj r.1
    have hmul := mul_le_mul_right (m.count + 1) (succ_le_of_lt hlt)
    rw [succ_mul] at hmul
    omega
  · have hmul := mul_le_mul_right (m.count + 1) (remaining_le hwalk.items_eq r.1)
    omega

theorem Underway.ends (hfresh : m₀.Fresh) (hjumps : Jumps m₀.count m₀.items) :
    ∀ (N : ℕ) {m : MissionBase δ} {passed : List (ℤ × Bool)}, Underway m₀ passed m →
      (∀ k, m.Flying k → (m.run k).ShortChain) → m.toFly < N →
      ∃ k, m.Flying k ∧ (m.run k).advance.2 = false := by
  intro N
  induction N with
  | zero => exact nofun
  | succ N ih =>
    intro m passed h hshort hlt
    have hfirst : m.ShortChain := hshort 0 m.flying_zero
    by_cases hseq : m.currentSeq + 1 < m.count
    · obtain ⟨hfound, hnext, -⟩ := h.step hjumps hseq hfirst
      have hfly := h.toFly_lt hfresh hjumps hseq hfirst
      obtain ⟨k, hk, hend⟩ := ih hnext
        (fun k hk => hshort (k + 1) (flying_succ hfound hk)) (by omega)
      exact ⟨k + 1, flying_succ hfound hk, hend⟩
    · exact ⟨0, m.flying_zero, congrArg Prod.snd (h.advance_last hseq)⟩

theorem Underway.run {k : ℕ} (hstart : Underway m [] m) (hjumps : Jumps m.count m.items)
    (hshort : ∀ k, m.Flying k → (m.run k).ShortChain) (hk : m.Flying k) :
    Underway m (m.passes k) (m.run k) := by
  induction k with
  | zero => exact hstart
  | succ k ih =>
    have hbefore := hk.mono (le_succ k)
    have h := ih hbefore
    have hfound := hk k (lt_succ_self k)
    have hseq := h.seq_next hfound
    rw [run_succ, passes_succ]
    exact (h.step hjumps hseq (hshort k hbefore)).2.1

/-- At the end of a run, the mission is the one before it, at its last item. -/
theorem Underway.run_last (h : Underway m₀ passed m) (hfresh : m₀.Fresh)
    (hend : m.advance.2 = false) (hjumps : Jumps m₀.count m₀.items) (hshort : m.ShortChain) :
    m.nextWalk.passed = [] ∧
      m.advance.1 = { m₀ with currentSeq := (m₀.count : ℤ) - 1 } := by
  have hseq : ¬m.currentSeq + 1 < m.count := by
    intro hseq
    rw [(h.step hjumps hseq hshort).1] at hend
    cases hend
  have hlt := h.seq_lt
  have hcount := h.count_eq
  refine ⟨?_, ?_⟩
  · rw [nextWalk, getNonJumpItem, if_pos (by omega)]
  · rw [h.advance_last hseq]
    have hitems := h.reset hfresh
    rw [resetMissionJumpCounter] at hitems ⊢
    rw [mk.injEq]
    exact ⟨hcount, hitems, by omega⟩

end Runs

variable {m : MissionBase δ}

theorem Fresh.reset_eq (h : m.Fresh) (hcount : 0 < m.count) : m.resetMissionJumpCounter {} = m := by
  have hitems := (h.underway hcount).reset h
  rw [resetMissionJumpCounter] at hitems ⊢
  dsimp only at hitems
  rw [hitems]

theorem Fresh.advance_empty (h : m.Fresh) (hcount : m.count = 0) : m.advance = (m, false) := by
  have hseq := h.seq_eq
  rw [advance_of_not_lt (by omega), if_neg (by omega)]

/-- The run of a mission with items, to its end. -/
theorem Fresh.flight (hfresh : m.Fresh) (hcount : 0 < m.count)
    (hjumps : Jumps m.count m.items) (hshort : ∀ k, m.Flying k → (m.run k).ShortChain) :
    ∃ k, m.Flying k ∧ (m.run k).advance.2 = false ∧
      (∀ n ≤ k + 1, TakenAsAllowed m.items (m.passes n)) ∧
      m.run (k + 1) = { m with currentSeq := (m.count : ℤ) - 1 } := by
  have hstart := hfresh.underway hcount
  obtain ⟨k, hk, hend⟩ := Underway.ends hfresh hjumps (m.toFly + 1) hstart hshort
    (lt_succ_self _)
  have hunderway := hstart.run hjumps hshort hk
  obtain ⟨hpassed, hrun⟩ := hunderway.run_last hfresh hend hjumps (hshort k hk)
  refine ⟨k, hk, hend, fun n hn => ?_, m.run_succ.trans hrun⟩
  rcases lt_or_eq_of_le hn with hlt | rfl
  · exact (hstart.run hjumps hshort (hk.mono (le_of_lt_succ hlt))).taken
  · rw [passes_succ, hpassed, append_nil]
    exact hunderway.taken

/-- A mission from its first item on, with the counters at zero and a last item that is not a jump:
each jump is taken until its repeat count is reached, the run comes to an end, and the counters are
zero again then. -/
theorem mission_can_be_flown_again {m : MissionBase δ} (hfresh : m.Fresh)
    (htarget : ∀ i : ℤ, 0 ≤ i → i < m.count → (m.items i).isJump →
      0 ≤ (m.items i).doJumpMissionIndex ∧ (m.items i).doJumpMissionIndex < m.count)
    (hlast : 0 < m.count → (m.items (m.count - 1)).isJump = false)
    (hshort : ∀ k, m.Flying k → (m.run k).ShortChain) :
    ∃ k, m.Flying k ∧ (m.run k).advance.2 = false ∧
      (∀ n ≤ k + 1, ∀ i : ℤ, 0 ≤ i → i < m.count → (m.items i).isJump →
        (m.passes n).count (i, true) =
          min ((m.passes n).countP fun p => p.1 = i) (m.items i).doJumpRepeatCount) ∧
      (∀ i : ℤ, 0 ≤ i → i < m.count → (m.items i).isJump →
        ((m.run (k + 1)).items i).doJumpCurrentCount = 0) ∧
      (m.run (k + 1)).setMissionIndex 0 = m ∧
      (0 < m.count → (m.run (k + 1)).checkMissionRestart {} = m) ∧
      ∀ j, (((m.run (k + 1)).setMissionIndex 0).run j).currentSeq = (m.run j).currentSeq := by
  rcases Nat.eq_zero_or_pos m.count with hcount | hcount
  · have hadvance := hfresh.advance_empty hcount
    have hrun : m.run 1 = m := congrArg Prod.fst hadvance
    have hagain : (m.run 1).setMissionIndex 0 = m := by
      rw [hrun, setMissionIndex, ← hfresh.seq_eq]
    refine ⟨0, m.flying_zero, congrArg Prod.snd hadvance, fun n _ i hlow hhigh => ?_,
      fun i hlow hhigh => ?_, hagain, fun hpos => ?_, fun j => by rw [hagain]⟩ <;> omega
  · obtain ⟨k, hk, hend, htaken, hrun⟩ := hfresh.flight hcount ⟨htarget, hlast hcount⟩ hshort
    have hagain : (m.run (k + 1)).setMissionIndex 0 = m := by
      rw [hrun, setMissionIndex, ← hfresh.seq_eq]
    refine ⟨k, hk, hend, fun n hn i hlow hhigh hjump => ?_, fun i hlow hhigh hjump => ?_, hagain,
      fun _ => ?_, fun j => by rw [hagain]⟩
    · have hzero := hfresh.zero i hlow hhigh hjump
      have h := htaken n hn i (by omega)
      rw [hzero] at h
      exact h
    · rw [hrun]
      exact hfresh.zero i hlow hhigh hjump
    · rw [checkMissionRestart, if_pos (by rw [hrun]; exact ⟨hcount, by simp⟩), hagain]
      exact hfresh.reset_eq hcount

/-- A mission of waypoints, with a jump back to the first item as the third one. -/
def jumpBack (count : ℕ) : MissionBase Unit where
  count := count
  items := fun i => if i = 2 then ⟨navCmdDoJump, 0, 1, 0, ()⟩ else ⟨16, 0, 0, 0, ()⟩

theorem jumpBack_fresh : (jumpBack count).Fresh where
  seq_eq := rfl
  zero := by
    intro i _ _ _
    dsimp only [jumpBack]
    split_ifs <;> rfl

theorem mission_can_be_flown_again_jumpBack :
    (jumpBack 4).Fresh ∧ ((jumpBack 4).items 3).isJump = false ∧
      ∃ k, (jumpBack 4).Flying k ∧ ((jumpBack 4).run k).advance.2 = false ∧
        ((jumpBack 4).run (k + 1)).setMissionIndex 0 = jumpBack 4 := by
  have htarget : ∀ i : ℤ, 0 ≤ i → i < (jumpBack 4).count → ((jumpBack 4).items i).isJump →
      0 ≤ ((jumpBack 4).items i).doJumpMissionIndex ∧
        ((jumpBack 4).items i).doJumpMissionIndex < (jumpBack 4).count := by
    intro i _ _ _
    dsimp only [jumpBack]
    split_ifs <;> decide
  have hshort : ∀ k, (jumpBack 4).Flying k → ((jumpBack 4).run k).ShortChain := by
    have hfirst : ∀ k < 5, ((jumpBack 4).run k).ShortChain := by decide +kernel
    intro k hk
    apply hfirst k
    by_contra hge
    exact absurd (hk 4 (by omega)) (by decide +kernel)
  obtain ⟨k, hk, hend, -, -, hagain, -⟩ :=
    mission_can_be_flown_again jumpBack_fresh htarget (by decide) hshort
  exact ⟨jumpBack_fresh, rfl, k, hk, hend, hagain⟩

/-- With the jump as the last item, the mission ends at the item before it: the counter is not
reset, and the second run is shorter. -/
theorem mission_not_flown_again :
    (∀ k < 5, ((jumpBack 3).run k).ShortChain) ∧ (jumpBack 3).Flying 3 ∧
      ((jumpBack 3).run 3).advance.2 = false ∧
      (((jumpBack 3).run 4).items 2).doJumpCurrentCount = 1 ∧
      (range 4).map (fun k => ((jumpBack 3).run k).currentSeq) = [0, 1, 0, 1] ∧
      (((jumpBack 3).run 4).setMissionIndex 0).Flying 1 ∧
      ((((jumpBack 3).run 4).setMissionIndex 0).run 1).advance.2 = false := by
  decide +kernel

end MissionBase

end Px4.Navigator
