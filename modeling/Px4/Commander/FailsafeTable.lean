import Mathlib.Data.Set.Finite.Lemmas
import Mathlib.Data.Set.Finite.List
import Px4.Common.KeyedSlots
import Px4.Commander.Failsafe

/-!
# The failsafe table and the failing checks

The table has eight places for about twenty checks. A failing check whose caller has no action and
for which there is neither an unused place nor a less severe action is dropped, which is harmless as
long as one of the actions it was compared with stays.

`TableStep` is all that a check can do to the table.
-/

namespace Px4.Commander

open Function List Option Run

/-- `removeAction` keeps the action. -/
def ActionOptions.Latched (deferring : Bool) (a : ActionOptions) : Prop :=
  a.clearCondition ≠ .whenConditionClears ∧ ¬ (deferring = true ∧ a.canBeDeferred = true)

open ActionOptions

theorem ActionOptions.valid_iff {a : ActionOptions} : a.valid ↔ a.id ≠ none := by
  exact isSome_iff_ne_none

namespace FailsafeBase

variable {deferring : Bool} {failActT : FailActT} {c d : Check} {t t' t₀ : ActionTable}
  {M : Action} {k : CallerId}

variable {a : ActionOptions} {i : Fin maxNumActions}

theorem removeAction_latched (h : a.Latched deferring) :
    removeAction deferring a = { a with stateFailure := false } := by
  refine if_neg fun hor => ?_
  rcases hor with hclears | hdeferred
  · exact h.1 hclears
  · exact h.2 (Bool.and_eq_true_iff.mp hdeferred)

theorem removeAction_not_latched (h : ¬ a.Latched deferring) :
    removeAction deferring a = a.setInvalid := by
  refine if_pos ?_
  by_contra hor
  rw [not_or, Bool.and_eq_true_iff] at hor
  exact h hor

theorem removeAction_action : (removeAction deferring a).action = a.action := by
  by_cases h : a.Latched deferring
  · rw [removeAction_latched h]
  · rw [removeAction_not_latched h]
    rfl

theorem removeAction_id (h : (removeAction deferring a).id = some k) :
    a.id = some k ∧ a.Latched deferring := by
  by_cases hlatched : a.Latched deferring
  · rw [removeAction_latched hlatched] at h
    exact ⟨h, hlatched⟩
  · rw [removeAction_not_latched hlatched] at h
    cases h

/-! ## What a check does to the table -/

/-- The table after a check that is no longer failing. -/
def clearCaller (deferring : Bool) (callerId : CallerId) (t : ActionTable) : ActionTable := fun i =>
  if (t i).id = some callerId then removeAction deferring (t i) else t i

/-- A check updates the action of its caller, adds one in a place that is unused or has a less
severe action, is dropped, or clears the action of its caller. -/
inductive TableStep (deferring : Bool) (failActT : FailActT) (c : Check) (t : ActionTable) :
    ActionTable → Prop
  | again (i : Fin maxNumActions) : c.curStateFailure = true → (t i).id = some c.callerId →
    TableStep deferring failActT c t (Function.update t i (failAgain (t i) c.options.action))
  | add (i : Fin maxNumActions) : c.curStateFailure = true → (∀ j, (t j).id ≠ some c.callerId) →
    (t i).id = none ∨ (t i).action < c.options.action →
    TableStep deferring failActT c t (Function.update t i (newAction failActT c))
  | drop : c.curStateFailure = true → (∀ j, (t j).id ≠ some c.callerId) →
    (∀ j, (t j).id ≠ none ∧ c.options.action ≤ (t j).action) →
    TableStep deferring failActT c t t
  | clear : c.curStateFailure = false → c.lastStateFailure = true →
    TableStep deferring failActT c t (clearCaller deferring c.callerId t)
  | keep : c.curStateFailure = false → c.lastStateFailure = false →
    TableStep deferring failActT c t t

variable {is : List (Fin maxNumActions)} {found : Fin maxNumActions}
  {free free' : Option (Fin maxNumActions)} {b : ActionOptions} {u : UpdateInput} {e : Event}

theorem searchLoop_found {free i} (h : searchLoop t k is free = (i, some found)) :
    (t found).id = some k := by
  induction is generalizing free with
  | nil => cases h
  | cons j is ih =>
    unfold searchLoop at h
    split_ifs at h with hvalid hid
    · exact ih h
    · cases h
      exact hid
    · exact ih h

theorem searchLoop_not_found (h : searchLoop t k is free = (free', none)) :
    (∀ i ∈ is, (t i).id ≠ some k) ∧
      ((free' = free ∧ ∀ i ∈ is, (t i).id ≠ none) ∨ ∃ i, free' = some i ∧ (t i).id = none) := by
  induction is generalizing free with
  | nil =>
    cases h
    exact ⟨nofun, .inl ⟨rfl, nofun⟩⟩
  | cons j is ih =>
    unfold searchLoop at h
    split_ifs at h with hinvalid hid
    · -- an unused place is remembered
      have hj : (t j).id = none := by
        simpa [valid] using hinvalid
      obtain ⟨hids, hfree⟩ := ih h
      refine ⟨forall_mem_cons.mpr ⟨by rw [hj]; exact nofun, hids⟩, .inr ?_⟩
      rcases hfree with ⟨rfl, -⟩ | hfree
      · exact ⟨j, rfl, hj⟩
      · exact hfree
    · cases h
    · have hj : (t j).id ≠ none := by
        simpa [valid, isSome_iff_ne_none] using hinvalid
      obtain ⟨hids, hfree⟩ := ih h
      refine ⟨forall_mem_cons.mpr ⟨hid, hids⟩, hfree.imp_left ?_⟩
      exact fun ⟨hsame, hvalid⟩ => ⟨hsame, forall_mem_cons.mpr ⟨hj, hvalid⟩⟩

theorem replaceLoop_spec (t action is free) :
    (replaceLoop t action is free = free ∧ ∀ i ∈ is, action ≤ (t i).action) ∨
      ∃ i, replaceLoop t action is free = some i ∧ (t i).action < action := by
  induction is generalizing free with
  | nil => exact .inl ⟨rfl, nofun⟩
  | cons j is ih =>
    unfold replaceLoop
    by_cases hj : action > (t j).action
    · rw [if_pos hj]
      rcases ih (some j) with ⟨hsame, -⟩ | hless
      · exact .inr ⟨j, hsame, hj⟩
      · exact .inr hless
    · rw [if_neg hj]
      refine (ih free).imp_left ?_
      exact fun ⟨hsame, hle⟩ => ⟨hsame, forall_mem_cons.mpr ⟨not_lt.mp hj, hle⟩⟩

theorem checkFailsafe_step (f : FailsafeBase) (c) :
    TableStep f.deferring f.failActT c f.actions (f.checkFailsafe c).actions := by
  unfold checkFailsafe
  by_cases hcur : c.curStateFailure
  · rw [if_pos hcur]
    split
    case h_1 _ i hsearch => exact .again i hcur (searchLoop_found hsearch)
    case h_2 free hsearch =>
      obtain ⟨hids, hfree⟩ := searchLoop_not_found hsearch
      have hnew : ∀ j, (f.actions j).id ≠ some c.callerId := fun j => hids j (List.mem_finRange j)
      rcases hfree with ⟨rfl, hvalid⟩ | ⟨i, rfl, hi⟩
      · -- the table is full
        unfold placeFor
        rcases replaceLoop_spec f.actions c.options.action (List.finRange maxNumActions) none with
          ⟨hnone, hle⟩ | ⟨i, hsome, hless⟩
        · rw [hnone]
          exact .drop hcur hnew fun j =>
            ⟨hvalid j (List.mem_finRange j), hle j (List.mem_finRange j)⟩
        · rw [hsome]
          exact .add i hcur hnew (.inr hless)
      · exact .add i hcur hnew (.inl hi)
  · rw [if_neg hcur]
    have hcur' : c.curStateFailure = false := Bool.eq_false_iff.mpr hcur
    by_cases hlast : c.lastStateFailure
    · rw [if_pos hlast]
      exact .clear hcur' hlast
    · rw [if_neg hlast]
      exact .keep hcur' (Bool.eq_false_iff.mpr hlast)

theorem checkFailsafe_deferring {f : FailsafeBase} {c} :
    (f.checkFailsafe c).deferring = f.deferring := by
  unfold checkFailsafe
  split_ifs
  · split
    · rfl
    · split <;> rfl
  · rfl
  · rfl

theorem after_deferring (f : FailsafeBase) (cs) :
    (after checkFailsafe f cs).deferring = f.deferring := by
  induction cs generalizing f with
  | nil => rfl
  | cons c cs ih => exact (ih (f.checkFailsafe c)).trans checkFailsafe_deferring

theorem TableStep.unique (h : TableStep deferring failActT c t t')
    (hunique : KeyedSlots.Unique ActionOptions.id t) : KeyedSlots.Unique ActionOptions.id t' := by
  cases h with
  | again i _ hid =>
    refine hunique.update fun j k hj hk hjk => hj ?_
    exact hunique j i k hjk hk
  | add i _ hnew _ =>
    refine hunique.update fun j k _ hk => ?_
    have hk' : c.callerId = k := some_injective _ hk
    exact hk' ▸ hnew j
  | drop => exact hunique
  | clear =>
    refine hunique.of_forgets fun i k hk => ?_
    unfold clearCaller at hk
    split_ifs at hk
    · exact (removeAction_id hk).1
    · exact hk
  | keep => exact hunique

/-! ## Checks that are recorded -/

/-- There is an unused place, or an action that is less severe. -/
def Room (t : ActionTable) (M : Action) : Prop :=
  ∃ i, (t i).id = none ∨ (t i).action < M

/-- The caller has an action in the table. -/
def Known (t : ActionTable) (c : Check) : Prop :=
  ∃ i, (t i).id = some c.callerId

/-- The failing check of the caller `k` is recorded with the action `M`. -/
def RecordedBy (k : CallerId) (M : Action) (t : ActionTable) : Prop :=
  ∃ i, (t i).id = some k ∧ (t i).activated = true ∧ (t i).action = M

section

variable (h : TableStep deferring failActT c t t')
include h

theorem TableStep.records (hcur : c.curStateFailure)
    (hroom : Room t c.options.action ∨ Known t c) : RecordedBy c.callerId c.options.action t' := by
  cases h with
  | again i _ hid => exact ⟨i, by simp [failAgain, hid]⟩
  | add i => exact ⟨i, by simp [newAction]⟩
  | drop _ hnew hle =>
    rcases hroom with ⟨i, hnone | hless⟩ | ⟨i, hid⟩
    · exact absurd hnone (hle i).1
    · exact absurd hless (not_lt.mpr (hle i).2)
    · exact absurd hid (hnew i)
  | clear hnot => cases hnot.symm.trans hcur
  | keep hnot => cases hnot.symm.trans hcur

/-- A recorded check stays recorded while the other checks are not more severe. -/
theorem TableStep.recordedBy (hne : c.callerId ≠ k)
    (hle : c.curStateFailure → c.options.action ≤ M) (hrec : RecordedBy k M t) :
    RecordedBy k M t' := by
  obtain ⟨i, hid, hactivated, haction⟩ := hrec
  have hother : some c.callerId ≠ (t i).id := fun hc =>
    hne (some_injective _ (hc.trans hid))
  refine ⟨i, ?_⟩
  cases h with
  | again j _ hj =>
    have hij : i ≠ j := fun hij => hother (by rw [hij, hj])
    rw [update_of_ne hij]
    exact ⟨hid, hactivated, haction⟩
  | add j hcur _ hplace =>
    have hij : i ≠ j := by
      rintro rfl
      rcases hplace with hnone | hless
      · cases hid.symm.trans hnone
      · exact absurd (hless.trans_le (hle hcur)) (haction ▸ lt_irrefl _)
    rw [update_of_ne hij]
    exact ⟨hid, hactivated, haction⟩
  | drop => exact ⟨hid, hactivated, haction⟩
  | clear =>
    unfold clearCaller
    rw [if_neg hother.symm]
    exact ⟨hid, hactivated, haction⟩
  | keep => exact ⟨hid, hactivated, haction⟩

theorem TableStep.room
    (hlt : c.curStateFailure → c.options.action < M) (hroom : Room t M) : Room t' M := by
  obtain ⟨i, hi⟩ := hroom
  refine ⟨i, ?_⟩
  cases h with
  | again j hcur _ =>
    by_cases hij : i = j
    · rw [hij, Function.update_self]
      exact .inr (hlt hcur)
    · rwa [update_of_ne hij]
  | add j hcur _ _ =>
    by_cases hij : i = j
    · rw [hij, update_self]
      exact .inr (hlt hcur)
    · rwa [update_of_ne hij]
  | drop => exact hi
  | clear =>
    unfold clearCaller
    split_ifs with hid
    · rcases hi with hnone | hless
      · cases hid.symm.trans hnone
      · exact .inr (by rwa [removeAction_action])
    · exact hi
  | keep => exact hi

end

/-! ## Actions that no check has touched -/

/-- Equal in the fields that decide how long an action stays. -/
structure Same (a b : ActionOptions) : Prop where
  id_eq : a.id = b.id
  action_eq : a.action = b.action
  activated_eq : a.activated = b.activated
  clearCondition_eq : a.clearCondition = b.clearCondition
  canBeDeferred_eq : a.canBeDeferred = b.canBeDeferred

theorem Same.refl (a) : Same a a := ⟨rfl, rfl, rfl, rfl, rfl⟩

theorem Same.trans {b c} (hab : Same a b) (hbc : Same b c) : Same a c where
  id_eq := hab.id_eq.trans hbc.id_eq
  action_eq := hab.action_eq.trans hbc.action_eq
  activated_eq := hab.activated_eq.trans hbc.activated_eq
  clearCondition_eq := hab.clearCondition_eq.trans hbc.clearCondition_eq
  canBeDeferred_eq := hab.canBeDeferred_eq.trans hbc.canBeDeferred_eq

theorem Same.latched_iff (h : Same a b) : a.Latched deferring ↔ b.Latched deferring := by
  unfold ActionOptions.Latched
  rw [h.clearCondition_eq, h.canBeDeferred_eq]

theorem same_removeAction (h : a.Latched deferring) : Same (removeAction deferring a) a := by
  rw [removeAction_latched h]
  exact ⟨rfl, rfl, rfl, rfl, rfl⟩

/-- The check fails or clears an action of the table. -/
def Touches (deferring : Bool) (t : ActionTable) (c : Check) : Prop :=
  ∃ i, (t i).id = some c.callerId ∧ (c.curStateFailure = true ∨
    c.lastStateFailure = true ∧ ¬ (t i).Latched deferring)

section

variable (h : TableStep deferring failActT c t t')
include h

/-- A check that touches no action of a table without room leaves it as it is. -/
theorem TableStep.same (hroom : ¬ Room t M) (hle : c.curStateFailure → c.options.action ≤ M)
    (htouches : ¬ Touches deferring t c) (i) : Same (t' i) (t i) := by
  cases h with
  | again j hcur hid => exact absurd ⟨j, hid, .inl hcur⟩ htouches
  | add j hcur _ hplace =>
    exact absurd ⟨j, hplace.imp_right (·.trans_le (hle hcur))⟩ hroom
  | drop => exact .refl _
  | clear _ hlast =>
    unfold clearCaller
    split_ifs with hid
    · apply same_removeAction
      by_contra hlatched
      exact htouches ⟨i, hid, .inr ⟨hlast, hlatched⟩⟩
    · exact .refl _
  | keep => exact .refl _

/-- A check that touches an action makes room, or is recorded itself. -/
theorem TableStep.touched (hle : c.curStateFailure → c.options.action ≤ M)
    (htouches : Touches deferring t c) : Room t' M ∨ RecordedBy c.callerId M t' := by
  obtain ⟨i, hid, hor⟩ := htouches
  by_cases hcur : c.curStateFailure
  · obtain ⟨j, hj, hactivated, haction⟩ := h.records hcur (.inr ⟨i, hid⟩)
    rcases (hle hcur).lt_or_eq with hlt | heq
    · exact .inl ⟨j, .inr (haction ▸ hlt)⟩
    · exact .inr ⟨j, hj, hactivated, haction.trans heq⟩
  · obtain ⟨hlast, hlatched⟩ := hor.resolve_left hcur
    refine .inl ⟨i, .inl ?_⟩
    cases h with
    | again _ hcur' => exact absurd hcur' hcur
    | add _ hcur' => exact absurd hcur' hcur
    | drop hcur' => exact absurd hcur' hcur
    | clear =>
      unfold clearCaller
      rw [if_pos hid, removeAction_not_latched hlatched]
      rfl
    | keep _ hlast' => cases hlast'.symm.trans hlast

end

/-! ## The checks of an update -/

variable {g : FailsafeBase} {cs pre post : List Check}

theorem checkFailsafe_step_after (g : FailsafeBase) (pre c) :
    let r := after checkFailsafe g pre
    TableStep g.deferring r.failActT c r.actions (r.checkFailsafe c).actions := by
  have hstep := checkFailsafe_step (after checkFailsafe g pre) c
  rwa [after_deferring] at hstep

theorem unique_after (hunique : KeyedSlots.Unique ActionOptions.id g.actions) (cs) :
    KeyedSlots.Unique ActionOptions.id (after checkFailsafe g cs).actions := by
  apply after_of_history
    (P := fun _ (f : FailsafeBase) => KeyedSlots.Unique ActionOptions.id f.actions) hunique
  exact fun pre c _ _ h => (checkFailsafe_step_after g pre c).unique h

theorem callerId_ne_of_nodup (hnodup : (cs.map (·.callerId)).Nodup) (hcs : cs = pre ++ c :: post)
    (hd : d ∈ pre ++ post) : c.callerId ≠ d.callerId := by
  subst hcs
  have hperm : ((pre ++ c :: post).map (·.callerId)).Perm
      (c.callerId :: (pre ++ post).map (·.callerId)) :=
    perm_middle.map _
  have hnotin := (nodup_cons.mp (hperm.nodup_iff.mp hnodup)).1
  intro heq
  exact hnotin (heq ▸ mem_map_of_mem hd)

/-- A check of severity `M` is recorded, or the next one will be. -/
def Ready (M : Action) (done : List Check) (t : ActionTable) : Prop :=
  Room t M ∨ ∃ d ∈ done, RecordedBy d.callerId M t

theorem Ready.step (hready : Ready M pre t) (h : TableStep deferring failActT c t t')
    (hle : c.curStateFailure → c.options.action ≤ M)
    (hne : ∀ d ∈ pre, c.callerId ≠ d.callerId) : Ready M (pre ++ [c]) t' := by
  rcases hready with hroom | ⟨d, hd, hrec⟩
  · by_cases hworst : c.curStateFailure ∧ c.options.action = M
    · obtain ⟨hcur, rfl⟩ := hworst
      exact .inr ⟨c, by simp, h.records hcur (.inl hroom)⟩
    · refine .inl (h.room (fun hcur => ?_) hroom)
      exact (hle hcur).lt_of_ne fun heq => hworst ⟨hcur, heq⟩
  · exact .inr ⟨d, mem_append_left _ hd, h.recordedBy (hne d hd) hle hrec⟩

/-- No check so far has changed the table, which has no room. -/
structure Untouched (M : Action) (g : FailsafeBase) (done : List Check) (t : ActionTable) :
    Prop where
  full : ¬ Room g.actions M
  same : ∀ i, Same (t i) (g.actions i)
  untouched : ∀ e ∈ done, ¬ Touches g.deferring g.actions e

section

variable (h : Untouched M g pre t)
include h

theorem Untouched.not_room : ¬ Room t M := by
  rintro ⟨i, hi⟩
  rw [(h.same i).id_eq, (h.same i).action_eq] at hi
  exact h.full ⟨i, hi⟩

theorem Untouched.known_iff : Known t c ↔ Known g.actions c :=
  exists_congr fun i => by rw [(h.same i).id_eq]

theorem Untouched.touches_iff : Touches g.deferring t c ↔ Touches g.deferring g.actions c :=
  exists_congr fun i => by rw [(h.same i).id_eq, (h.same i).latched_iff]

end

theorem Untouched.step (huntouched : Untouched M g pre t)
    (h : TableStep g.deferring failActT c t t')
    (hle : c.curStateFailure → c.options.action ≤ M)
    (htouches : ¬ Touches g.deferring g.actions c) : Untouched M g (pre ++ [c]) t' where
  full := huntouched.full
  same := fun i =>
    (h.same huntouched.not_room hle (huntouched.touches_iff.not.mpr htouches) i).trans
      (huntouched.same i)
  untouched := by
    intro e he
    rcases mem_append.mp he with he | he
    · exact huntouched.untouched e he
    · rwa [mem_singleton.mp he]

theorem ready_or_untouched (hle : ∀ d ∈ cs, d.curStateFailure → d.options.action ≤ M)
    (hnodup : (cs.map (·.callerId)).Nodup) :
    Ready M cs (after checkFailsafe g cs).actions ∨
      Untouched M g cs (after checkFailsafe g cs).actions := by
  apply after_of_history (P := fun done (f : FailsafeBase) =>
    Ready M done f.actions ∨ Untouched M g done f.actions)
  · by_cases hroom : Room g.actions M
    · exact .inl (.inl hroom)
    · exact .inr ⟨hroom, fun i => .refl _, fun e he => absurd he not_mem_nil⟩
  · intro pre c post hcs h
    have hstep := checkFailsafe_step_after g pre c
    have hlec := hle c (by simp [hcs])
    rcases h with hready | huntouched
    · refine .inl (hready.step hstep hlec fun d hd => ?_)
      exact callerId_ne_of_nodup hnodup hcs (mem_append_left _ hd)
    by_cases htouches : Touches g.deferring g.actions c
    · refine .inl ((hstep.touched hlec (huntouched.touches_iff.mpr htouches)).imp_right ?_)
      exact fun hrec => ⟨c, by simp, hrec⟩
    · exact .inr (huntouched.step hstep hlec htouches)

theorem recordedBy_after (hrec : RecordedBy k M g.actions)
    (hcs : ∀ d ∈ cs, d.callerId ≠ k ∧ (d.curStateFailure → d.options.action ≤ M)) :
    RecordedBy k M (after checkFailsafe g cs).actions := by
  apply after_of_invariant (I := fun f : FailsafeBase => RecordedBy k M f.actions)
    (C := fun _ (d : Check) => d.callerId ≠ k ∧ (d.curStateFailure → d.options.action ≤ M))
  · exact fun f d hrec hd => (checkFailsafe_step f d).recordedBy hd.1 hd.2 hrec
  · exact hrec
  · exact along_of_forall hcs

/-- A check of highest severity is recorded if there is room, or it is known or follows a touch. -/
theorem exists_recordedBy (hle : ∀ d ∈ cs, d.curStateFailure → d.options.action ≤ M)
    (hnodup : (cs.map (·.callerId)).Nodup) (hcs : cs = pre ++ c :: post)
    (hcur : c.curStateFailure) (hM : c.options.action = M)
    (h : Room g.actions M ∨ Known g.actions c ∨ ∃ e ∈ pre, Touches g.deferring g.actions e) :
    ∃ k, RecordedBy k M (after checkFailsafe g cs).actions := by
  have hlepre : ∀ d ∈ pre, d.curStateFailure → d.options.action ≤ M := fun d hd =>
    hle d (by simp [hcs, hd])
  have hpre : (pre.map (·.callerId)).Nodup := by
    rw [hcs, map_append] at hnodup
    exact hnodup.of_append_left
  have hstep := checkFailsafe_step_after g pre c
  have hrec : ∃ d ∈ pre ++ [c], RecordedBy d.callerId M
      ((after checkFailsafe g pre).checkFailsafe c).actions := by
    rcases ready_or_untouched hlepre hpre with (hroom | ⟨d, hd, hrec⟩) | huntouched
    · exact ⟨c, by simp, hM ▸ hstep.records hcur (.inl (hM ▸ hroom))⟩
    · refine ⟨d, mem_append_left _ hd, hstep.recordedBy ?_ (fun _ => hM.le) hrec⟩
      exact callerId_ne_of_nodup hnodup hcs (mem_append_left _ hd)
    · rcases h with hroom | hknown | ⟨e, he, htouches⟩
      · exact absurd hroom huntouched.full
      · exact ⟨c, by simp, hM ▸ hstep.records hcur (.inr (huntouched.known_iff.mpr hknown))⟩
      · exact absurd htouches (huntouched.untouched e he)
  obtain ⟨d, hd, hrec⟩ := hrec
  have hcs' : cs = (pre ++ [c]) ++ post := by simp [hcs]
  refine ⟨d.callerId, ?_⟩
  rw [hcs', after_append, after_append]
  refine recordedBy_after hrec fun e he => ⟨fun heq => ?_, hle e (by simp [hcs, he])⟩
  -- the ids before and after are distinct
  have hsplit := hnodup
  rw [hcs', map_append] at hsplit
  exact disjoint_of_nodup_append hsplit (mem_map_of_mem hd) (heq ▸ mem_map_of_mem he)

theorem TableStep.same_at (h : TableStep deferring failActT c t t')
    (hvalid : (t i).id ≠ none) (hsevere : M ≤ (t i).action) (hlatched : (t i).Latched deferring)
    (hle : c.curStateFailure → c.options.action ≤ M)
    (hne : c.curStateFailure → (t i).id ≠ some c.callerId) : Same (t' i) (t i) := by
  cases h with
  | again j hcur hid =>
    have hij : i ≠ j := fun hij => hne hcur (hij ▸ hid)
    rw [update_of_ne hij]
    exact .refl _
  | add j hcur _ hplace =>
    have hij : i ≠ j := by
      rintro rfl
      rcases hplace with hnone | hless
      · exact hvalid hnone
      · exact absurd (hsevere.trans_lt (hless.trans_le (hle hcur))) (lt_irrefl _)
    rw [update_of_ne hij]
    exact .refl _
  | drop => exact .refl _
  | clear =>
    unfold clearCaller
    split_ifs
    · exact same_removeAction hlatched
    · exact .refl _
  | keep => exact .refl _

theorem same_after (hvalid : (g.actions i).id ≠ none)
    (hsevere : M ≤ (g.actions i).action) (hlatched : (g.actions i).Latched g.deferring)
    (hle : ∀ d ∈ cs, d.curStateFailure → d.options.action ≤ M)
    (hne : ∀ d ∈ cs, d.curStateFailure → (g.actions i).id ≠ some d.callerId) :
    Same ((after checkFailsafe g cs).actions i) (g.actions i) := by
  apply after_of_history (P := fun _ (f : FailsafeBase) => Same (f.actions i) (g.actions i))
  · exact .refl _
  · intro pre c post hcs hsame
    have hc : c ∈ cs := by simp [hcs]
    refine ((checkFailsafe_step_after g pre c).same_at ?_ ?_ ?_ (hle c hc) ?_).trans hsame
    · rwa [hsame.id_eq]
    · rwa [hsame.action_eq]
    · exact hsame.latched_iff.mpr hlatched
    · rw [hsame.id_eq]
      exact hne c hc

/-! ## Checks that are dropped -/

/-- Every action as severe as `M` was there before the checks, and its own check is not failing. -/
def Survives (M : Action) (g : FailsafeBase) (done : List Check) (t : ActionTable) : Prop :=
  ∀ i, (t i).id ≠ none → M ≤ (t i).action → Same (t i) (g.actions i) ∧
    ∀ d ∈ done, d.curStateFailure = true → (t i).id ≠ some d.callerId

/-- The actions as severe as `M` are old ones, and no failing check is theirs. -/
theorem Survives.of_step (hsurvives : Survives M g pre t)
    (hold : ∀ i, (t' i).id ≠ none → M ≤ (t' i).action → Same (t' i) (t i) ∧
      (c.curStateFailure → (t i).id ≠ some c.callerId)) :
    Survives M g (pre ++ [c]) t' := by
  intro i hvalid hsevere
  obtain ⟨hsame, hne⟩ := hold i hvalid hsevere
  rw [hsame.id_eq] at hvalid
  rw [hsame.action_eq] at hsevere
  obtain ⟨hsame', hdone⟩ := hsurvives i hvalid hsevere
  refine ⟨hsame.trans hsame', fun d hd hcur => ?_⟩
  rw [hsame.id_eq]
  rcases mem_append.mp hd with hd | hd
  · exact hdone d hd hcur
  · obtain rfl := mem_singleton.mp hd
    exact hne hcur

theorem TableStep.survives (h : TableStep deferring failActT c t t')
    (hunique : KeyedSlots.Unique ActionOptions.id t)
    (hlt : c.curStateFailure → c.options.action < M) (hsurvives : Survives M g pre t) :
    Survives M g (pre ++ [c]) t' := by
  apply hsurvives.of_step
  intro i hvalid hsevere
  cases h with
  | again j hcur hid =>
    by_cases hij : i = j
    · rw [hij, Function.update_self] at hsevere
      exact absurd hsevere (not_le.mpr (hlt hcur))
    · rw [update_of_ne hij]
      exact ⟨.refl _, fun _ hi => hij (hunique i j c.callerId hi hid)⟩
  | add j hcur hnew _ =>
    by_cases hij : i = j
    · rw [hij, update_self] at hsevere
      exact absurd hsevere (not_le.mpr (hlt hcur))
    · rw [update_of_ne hij]
      exact ⟨.refl _, fun _ => hnew i⟩
  | drop _ hnew _ => exact ⟨.refl _, fun _ => hnew i⟩
  | clear hnot _ =>
    refine ⟨?_, fun hcur => nomatch hnot.symm.trans hcur⟩
    unfold clearCaller at hvalid ⊢
    split_ifs at hvalid ⊢ with hid
    · obtain ⟨k, hk⟩ := ne_none_iff_exists'.mp hvalid
      exact same_removeAction (removeAction_id hk).2
    · exact .refl _
  | keep hnot _ => exact ⟨.refl _, fun hcur => nomatch hnot.symm.trans hcur⟩

/-- Unknown checks of severity `M` before those that touch a full table are not recorded. -/
theorem survives_after (hunique : KeyedSlots.Unique ActionOptions.id g.actions)
    (hle : ∀ d ∈ cs, d.curStateFailure → d.options.action ≤ M)
    (hfull : ¬ Room g.actions M)
    (hdropped : ∀ pre c post, cs = pre ++ c :: post → c.curStateFailure →
      c.options.action = M → ¬ Known g.actions c ∧ ∀ e ∈ pre, ¬ Touches g.deferring g.actions e) :
    Survives M g cs (after checkFailsafe g cs).actions := by
  suffices h : Survives M g cs (after checkFailsafe g cs).actions ∧
      ((∀ e ∈ cs, ¬ Touches g.deferring g.actions e) →
        Untouched M g cs (after checkFailsafe g cs).actions) from h.1
  apply after_of_history (P := fun done (f : FailsafeBase) => Survives M g done f.actions ∧
    ((∀ e ∈ done, ¬ Touches g.deferring g.actions e) → Untouched M g done f.actions))
  · refine ⟨fun i _ _ => ⟨.refl _, fun d hd => absurd hd not_mem_nil⟩, fun h => ?_⟩
    exact ⟨hfull, fun i => .refl _, h⟩
  intro pre c post hcs ⟨hsurvives, huntouched⟩
  have hstep := checkFailsafe_step_after g pre c
  have hlec := hle c (by simp [hcs])
  constructor
  · by_cases hworst : c.curStateFailure ∧ c.options.action = M
    · -- the check finds the table as it was, and is dropped
      obtain ⟨hcur, hM⟩ := hworst
      obtain ⟨hunknown, hpre⟩ := hdropped pre c post hcs hcur hM
      have hsame := huntouched hpre
      have hnew : ¬ Touches g.deferring (after checkFailsafe g pre).actions c := by
        rw [hsame.touches_iff]
        exact fun ⟨i, hid, _⟩ => hunknown ⟨i, hid⟩
      refine hsurvives.of_step fun i _ _ => ⟨hstep.same hsame.not_room hlec hnew i, fun _ hi => ?_⟩
      exact hunknown (hsame.known_iff.mp ⟨i, hi⟩)
    · refine hstep.survives (unique_after hunique pre) (fun hcur => ?_) hsurvives
      exact (hlec hcur).lt_of_ne fun heq => hworst ⟨hcur, heq⟩
  · intro htouches
    refine (huntouched fun e he => htouches e (mem_append_left _ he)).step hstep hlec ?_
    exact htouches c (by simp)

/-! ## The end of an update -/

theorem endOfUpdate_action : (endOfUpdate deferring a).action = a.action := by
  unfold endOfUpdate
  split_ifs
  · exact removeAction_action
  · rfl

/-- An update ends with the actions that a check has activated and the latched ones. -/
theorem endOfUpdate_id :
    (endOfUpdate deferring a).id = some k ↔
      a.id = some k ∧ (a.activated ∨ a.Latched deferring) := by
  unfold endOfUpdate
  by_cases hremoved : (a.valid && !a.activated)
  · rw [if_pos hremoved]
    have hactivated : a.activated = false := by simpa using (Bool.and_eq_true_iff.mp hremoved).2
    constructor
    · intro h
      exact ⟨(removeAction_id h).1, .inr (removeAction_id h).2⟩
    · rintro ⟨hid, hor⟩
      have hlatched := hor.resolve_left (by rw [hactivated]; exact Bool.false_ne_true)
      rw [removeAction_latched hlatched]
      exact hid
  · rw [if_neg hremoved]
    refine ⟨fun hid => ⟨hid, .inl ?_⟩, fun h => h.1⟩
    have hvalid : a.valid := valid_iff.mpr (by rw [hid]; exact nofun)
    simpa [hvalid] using hremoved

/-! ## The worst action -/

theorem Selection.consider_action {s : Selection} {a} :
    (s.consider a).action = if a.valid then max s.action a.action else s.action := by
  unfold consider
  by_cases hvalid : a.valid
  · rw [if_neg (by simp [hvalid]), if_pos hvalid]
    by_cases hnone : a.action = .none
    · rw [if_pos hnone, hnone, max_eq_left Action.none_le]
    rw [if_neg hnone]
    dsimp only
    split_ifs with hgt
    · rw [max_eq_right hgt.le]
    · rw [max_eq_left (not_lt.mp hgt)]
  · rw [if_pos (by simpa using hvalid), if_neg hvalid]

theorem Selection.le_consider (s : Selection) :
    s.action ≤ (s.consider a).action := by
  rw [consider_action]
  split_ifs
  · exact le_max_left _ _
  · exact le_rfl

theorem Selection.action_le_consider (s : Selection) (hvalid : a.valid) :
    a.action ≤ (s.consider a).action := by
  rw [consider_action, if_pos hvalid]
  exact le_max_right _ _

theorem le_worstAction (hvalid : (t i).valid) : (t i).action ≤ (worstAction t).action := by
  suffices h : ∀ (is : List (Fin maxNumActions)) (s : Selection),
      s.action ≤ (is.foldl (fun s i => s.consider (t i)) s).action ∧
        (i ∈ is → (t i).action ≤ (is.foldl (fun s i => s.consider (t i)) s).action) from
    (h _ {}).2 (List.mem_finRange i)
  intro is
  induction is with
  | nil => exact fun s => ⟨le_rfl, nofun⟩
  | cons j is ih =>
    intro s
    obtain ⟨hle, hmem⟩ := ih (s.consider (t j))
    refine ⟨s.le_consider.trans hle, fun hi => ?_⟩
    rcases mem_cons.mp hi with rfl | hi
    · exact (s.action_le_consider hvalid).trans hle
    · exact hmem hi

/-! ## Which updates keep the failing checks -/

/-- A table between two updates. -/
structure Fresh (t : ActionTable) : Prop where
  unique : KeyedSlots.Unique ActionOptions.id t
  idle : ∀ i, (t i).activated = false

/-- The check is failing, and none of the failing ones is more severe. -/
structure Worst (cs : List Check) (c : Check) : Prop where
  mem : c ∈ cs
  failing : c.curStateFailure = true
  max : ∀ d ∈ cs, d.curStateFailure = true → d.options.action ≤ c.options.action

/-- When the checks begin, there is an unused place, an action less severe than the worst check `c`,
or a latched action whose own check is not failing; or one of the worst checks is of a caller that
has an action, or comes after a check that fails or clears an action. -/
def Accommodated (g : FailsafeBase) (cs : List Check) (c : Check) : Prop :=
  Room g.actions c.options.action ∨
  (∃ i, (g.actions i).Latched g.deferring ∧
    ∀ d ∈ cs, d.curStateFailure = true → (g.actions i).id ≠ some d.callerId) ∨
  ∃ pre d post, cs = pre ++ d :: post ∧ Worst cs d ∧
    (Known g.actions d ∨ ∃ e ∈ pre, Touches g.deferring g.actions e)

/-- The condition on an update. -/
def Accommodates (f : FailsafeBase) : Event → Prop
  | .update u => ∀ c, Worst u.checks c → Accommodated (f.beforeChecks u) u.checks c
  | _ => True

/-- A valid action of the table is at least as severe. -/
def Covered (t : ActionTable) (action : Action) : Prop :=
  ∃ i, (t i).valid = true ∧ action ≤ (t i).action

/-- After `removeNonActivatedActions` the ids are distinct, and every failing check has an action at
least as severe. -/
def KeepsFailing (f : FailsafeBase) : Event → Prop
  | .update u =>
    KeyedSlots.Unique ActionOptions.id (f.afterChecks u).actions ∧
    ∀ c ∈ u.checks, c.curStateFailure = true →
      Covered (f.afterChecks u).actions c.options.action ∧
      c.options.action ≤ (worstAction (f.afterChecks u).actions).action
  | _ => True

theorem exists_worst (hc : c ∈ cs) (hcur : c.curStateFailure) : ∃ d, Worst cs d := by
  obtain ⟨d, ⟨hd, hfailing⟩, hmax⟩ := Set.exists_max_image
    {d | d ∈ cs ∧ d.curStateFailure = true} (·.options.action)
    ((finite_toSet cs).subset fun d hd => hd.1) ⟨c, hc, hcur⟩
  exact ⟨d, hd, hfailing, fun e he hecur => hmax e ⟨he, hecur⟩⟩

theorem covered_of_accommodated (hworst : Worst cs c) (hnodup : (cs.map (·.callerId)).Nodup)
    (h : Accommodated g cs c) :
    Covered (after checkFailsafe g cs).removeNonActivatedActions.actions c.options.action := by
  have hrecorded : ∀ k, RecordedBy k c.options.action (after checkFailsafe g cs).actions →
      Covered (after checkFailsafe g cs).removeNonActivatedActions.actions c.options.action := by
    rintro k ⟨i, hid, hactivated, haction⟩
    refine ⟨i, valid_iff.mpr ?_, ?_⟩
    · exact ne_none_iff_exists'.mpr ⟨k, endOfUpdate_id.mpr ⟨hid, .inl hactivated⟩⟩
    · exact (endOfUpdate_action.trans haction).ge
  by_cases hroom : Room g.actions c.options.action
  · obtain ⟨pre, post, hcs⟩ := append_of_mem hworst.mem
    obtain ⟨k, hk⟩ := exists_recordedBy hworst.max hnodup hcs hworst.failing rfl (.inl hroom)
    exact hrecorded k hk
  rcases h with h | ⟨i, hlatched, hne⟩ | ⟨pre, d, post, hcs, hd, h⟩
  · exact absurd h hroom
  · -- the latched action is as severe as the check, and stays
    have hvalid : (g.actions i).id ≠ none := fun hnone => hroom ⟨i, .inl hnone⟩
    have hsevere : c.options.action ≤ (g.actions i).action :=
      not_lt.mp fun hless => hroom ⟨i, .inr hless⟩
    have hsame := same_after hvalid hsevere hlatched hworst.max hne
    obtain ⟨k, hk⟩ := ne_none_iff_exists'.mp hvalid
    have hlatched' : ((after checkFailsafe g cs).actions i).Latched
        (after checkFailsafe g cs).deferring := by
      rw [after_deferring]
      exact hsame.latched_iff.mpr hlatched
    refine ⟨i, valid_iff.mpr (ne_none_iff_exists'.mpr ⟨k, ?_⟩), ?_⟩
    · exact endOfUpdate_id.mpr ⟨hsame.id_eq.trans hk, .inr hlatched'⟩
    · exact hsevere.trans (endOfUpdate_action.trans hsame.action_eq).ge
  · have haction : d.options.action = c.options.action :=
      le_antisymm (hworst.max d hd.mem hd.failing) (hd.max c hworst.mem hworst.failing)
    obtain ⟨k, hk⟩ := exists_recordedBy hworst.max hnodup hcs hd.failing haction (.inr h)
    exact hrecorded k hk

theorem accommodated_of_covered (hfresh : Fresh g.actions) (hworst : Worst cs c)
    (h : Covered (after checkFailsafe g cs).removeNonActivatedActions.actions
      c.options.action) : Accommodated g cs c := by
  by_cases hroom : Room g.actions c.options.action
  · exact .inl hroom
  refine .inr ?_
  by_contra hnot
  rw [not_or] at hnot
  have hdropped : ∀ pre d post, cs = pre ++ d :: post → d.curStateFailure →
      d.options.action = c.options.action →
      ¬ Known g.actions d ∧ ∀ e ∈ pre, ¬ Touches g.deferring g.actions e := by
    intro pre d post hcs hcur haction
    have hd : Worst cs d :=
      ⟨by simp [hcs], hcur, fun e he hecur => haction ▸ hworst.max e he hecur⟩
    constructor
    · exact fun hknown => hnot.2 ⟨pre, d, post, hcs, hd, .inl hknown⟩
    · exact fun e he htouches => hnot.2 ⟨pre, d, post, hcs, hd, .inr ⟨e, he, htouches⟩⟩
  have hsurvives := survives_after hfresh.unique hworst.max hroom hdropped
  -- the covering action was there before, is not activated, and so it is latched
  obtain ⟨i, hvalid, hle⟩ := h
  obtain ⟨k, hk⟩ := ne_none_iff_exists'.mp (valid_iff.mp hvalid)
  obtain ⟨hid, hor⟩ := endOfUpdate_id.mp hk
  have hsevere := hle.trans endOfUpdate_action.le
  obtain ⟨hsame, hne⟩ := hsurvives i (ne_none_iff_exists'.mpr ⟨k, hid⟩) hsevere
  have hidle := hsame.activated_eq.trans (hfresh.idle i)
  have hlatched := hor.resolve_left (by rw [hidle]; exact Bool.false_ne_true)
  rw [after_deferring] at hlatched
  refine hnot.1 ⟨i, hsame.latched_iff.mp hlatched, fun d hd hcur => ?_⟩
  rw [← hsame.id_eq]
  exact hne d hd hcur

/-! ## Runs -/

variable {f : FailsafeBase}

theorem Fresh.removeActions (h : Fresh t) (condition) :
    Fresh (removeActions condition t) where
  unique := h.unique.of_forgets fun i k hk => by
    unfold FailsafeBase.removeActions at hk
    split_ifs at hk
    · cases hk
    · exact hk
  idle := fun i => by
    unfold FailsafeBase.removeActions
    split_ifs
    · exact h.idle i
    · exact h.idle i

theorem Fresh.clearOnEvents (h : Fresh f.actions) : Fresh (f.clearOnEvents u).actions := by
  unfold FailsafeBase.clearOnEvents
  by_cases harmed : f.lastArmed ≠ u.state.armed
  · rw [if_pos harmed]
    exact (h.removeActions _).removeActions _
  · rw [if_neg harmed]
    exact h

theorem beforeChecks_actions :
    let r := f.clearOnEvents u
    (f.beforeChecks u).actions =
    if r.modeUpdated u || r.userTakeoverActive then
      removeActions .onModeChangeOrDisarm r.actions
    else r.actions := by
  unfold beforeChecks updateDelay
  dsimp only
  split_ifs <;> rfl

theorem Fresh.beforeChecks (h : Fresh f.actions) : Fresh (f.beforeChecks u).actions := by
  rw [beforeChecks_actions]
  split_ifs
  · exact h.clearOnEvents.removeActions _
  · exact h.clearOnEvents

theorem update_actions : (f.update u).1.actions = (f.afterChecks u).actions := by
  unfold update finishUpdate updateStartDelay updateFailsafeDeferState clearDelayIfNeeded
  dsimp only
  split_ifs <;> rfl

theorem Fresh.step (h : Fresh f.actions) (e) : Fresh (f.step e).actions := by
  cases e with
  | update u =>
    change Fresh (f.update u).1.actions
    rw [update_actions]
    have hunique := unique_after (h.beforeChecks (u := u)).unique u.checks
    exact ⟨hunique.of_forgets fun i k hk => (endOfUpdate_id.mp hk).1, fun i => rfl⟩
  | deferFailsafes enabled timeoutS =>
    change Fresh (f.deferFailsafes enabled timeoutS).1.actions
    unfold deferFailsafes
    split_ifs <;> exact h
  | updateParams failActT => exact h

theorem keepsFailing_iff (h : Fresh f.actions) :
    f.KeepsFailing e ↔ f.Accommodates e := by
  cases e with
  | update u =>
    have hfresh := h.beforeChecks (u := u)
    constructor
    · rintro ⟨-, hkeeps⟩ c hworst
      exact accommodated_of_covered hfresh hworst (hkeeps c hworst.mem hworst.failing).1
    · intro haccommodates
      have hnext := h.step (.update u)
      change Fresh (f.update u).1.actions at hnext
      rw [update_actions] at hnext
      refine ⟨hnext.unique, fun c hc hcur => ?_⟩
      obtain ⟨d, hd⟩ := exists_worst hc hcur
      obtain ⟨i, hvalid, hle⟩ := covered_of_accommodated hd u.distinct (haccommodates d hd)
      have hle' := (hd.max c hc hcur).trans hle
      exact ⟨⟨i, hvalid, hle'⟩, hle'.trans (le_worstAction hvalid)⟩
  | deferFailsafes => exact Iff.rfl
  | updateParams => exact Iff.rfl

/-- **The table keeps the failing checks of every update of a run** exactly if every update
accommodates the worst of them. -/
theorem failing_conditions_kept (failActT : FailActT) (es : List Event) :
    Run.Along step KeepsFailing (construct failActT) es ↔
      Run.Along step Accommodates (construct failActT) es := by
  apply along_iff_of_invariant (I := fun f : FailsafeBase => Fresh f.actions)
  · exact fun f e h _ => h.step e
  · exact fun f e h _ => keepsFailing_iff h
  · exact ⟨fun i j k hi => (nomatch hi), fun i => rfl⟩
  · exact fun _ _ => trivial

/-- A check that asks for a return. -/
def returnCheck (callerId : CallerId) (lastStateFailure curStateFailure : Bool) : Check :=
  { callerId, lastStateFailure, curStateFailure, options := { action := .rtl } }

/-- Eight checks fail in one update and clear in the next, in which a ninth one fails first. -/
theorem failing_condition_dropped :
    ¬ Run.Along step KeepsFailing (construct { delay := 0, exceedsTenth := false })
      [.update {
        timeUs := 1
        state := { armed := true }
        checks := (range 8).map fun id => returnCheck id false true
        distinct := by decide },
      .update {
        timeUs := 2
        state := { armed := true }
        checks := returnCheck 8 false true :: (range 8).map fun id => returnCheck id true false
        distinct := by decide }] := by
  intro h
  obtain ⟨i, hvalid, -⟩ := (h.2.1.2 (returnCheck 8 false true) (mem_cons_self ..) rfl).1
  revert i
  decide +kernel

/-! ## No action outlives its condition -/

/-- Every action that is activated is the one of a failing check. -/
def FromChecks (cs : List Check) (t : ActionTable) : Prop :=
  ∀ i k, (t i).id = some k → (t i).activated = true →
    ∃ c ∈ cs, c.callerId = k ∧ c.curStateFailure = true

theorem TableStep.fromChecks (h : TableStep deferring failActT c t t') (ht : FromChecks cs t) :
    FromChecks (cs ++ [c]) t' := by
  have hold : FromChecks (cs ++ [c]) t := fun i k hk hactivated =>
    let ⟨d, hd, hfails⟩ := ht i k hk hactivated
    ⟨d, mem_append_left _ hd, hfails⟩
  have hset : ∀ i a, a.id = some c.callerId → c.curStateFailure = true →
      FromChecks (cs ++ [c]) (Function.update t i a) := by
    intro i a ha hcur j k hk hactivated
    by_cases hj : j = i
    · subst hj
      rw [update_self, ha] at hk
      exact ⟨c, by simp, some.inj hk, hcur⟩
    · rw [update_of_ne hj] at hk hactivated
      exact hold j k hk hactivated
  cases h with
  | again i hcur hid => exact hset i _ hid hcur
  | add i hcur => exact hset i _ rfl hcur
  | drop | keep => exact hold
  | clear =>
    intro i k hk hactivated
    unfold clearCaller at hk hactivated
    split_ifs at hk hactivated
    · obtain ⟨hid, hlatched⟩ := removeAction_id hk
      rw [removeAction_latched hlatched] at hactivated
      exact hold i k hid hactivated
    · exact hold i k hk hactivated

/-- After the update every action that `removeAction` would not keep is of a check that failed. -/
def NoneStale (f : FailsafeBase) : Event → Prop
  | .update u => ∀ i k, ((f.update u).1.actions i).id = some k →
      (∃ c ∈ u.checks, c.callerId = k ∧ c.curStateFailure = true) ∨
        ((f.update u).1.actions i).Latched (f.beforeChecks u).deferring
  | _ => True

theorem noneStale (h : Fresh f.actions) (e) : f.NoneStale e := by
  cases e with
  | update u =>
    intro i k hk
    have hchecks : FromChecks u.checks (after checkFailsafe (f.beforeChecks u) u.checks).actions :=
      after_of_history (P := fun cs (g : FailsafeBase) => FromChecks cs g.actions)
        (fun i k _ hactivated => by
          rw [h.beforeChecks.idle i] at hactivated
          cases hactivated)
        fun pre c _ _ hpre => (checkFailsafe_step_after _ pre c).fromChecks hpre
    rw [update_actions] at hk ⊢
    obtain ⟨hid, hactivated | hlatched⟩ := endOfUpdate_id.mp hk
    · exact .inl (hchecks i k hid hactivated)
    · rw [after_deferring] at hlatched
      refine .inr ?_
      unfold afterChecks removeNonActivatedActions endOfUpdate
      dsimp only
      rw [after_deferring]
      split_ifs
      · rw [removeAction_latched hlatched]
        exact hlatched
      · exact hlatched
  | deferFailsafes | updateParams => trivial

/-- **No action outlives its condition**, in any run, with deferred failsafes and with a full
table: after an update every action is of a check that failed in it, or is one to be kept. -/
theorem no_stale_action (failActT : FailActT) (es : List Event) :
    Run.Along step NoneStale (construct failActT) es := by
  apply along_of_invariant (I := fun f : FailsafeBase => Fresh f.actions) (C := fun _ _ => True)
  · exact fun f e h _ => h.step e
  · exact fun f e h _ => noneStale h e
  · exact ⟨fun i j k hi => (nomatch hi), fun i => rfl⟩
  · exact along_of_forall fun _ _ => trivial

end FailsafeBase

end Px4.Commander
