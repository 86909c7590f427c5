import Px4.Commander.FailsafeTable

/-!
# How long the actions of the failsafe table stay

A caller has at most one action in the table, `actionOf`. `entryOf_update` says what an update makes
of it when failsafes are not deferred and the table has a place for every failing check. From this
the clear conditions follow for whole runs.
-/

namespace Px4.Commander.FailsafeBase

open ActionOptions Function List Option Run

variable {t t' : ActionTable} {k : CallerId} {a : ActionOptions}

/-- The action of a caller. -/
def actionOf (t : ActionTable) (k : CallerId) : Option ActionOptions :=
  ((finRange maxNumActions).find? fun i => (t i).id = some k).map t

theorem actionOf_eq_none_iff : actionOf t k = none ↔ ∀ i, (t i).id ≠ some k := by
  rw [actionOf]
  simp

theorem actionOf_eq_some (h : actionOf t k = some a) : ∃ i, t i = a ∧ a.id = some k := by
  obtain ⟨i, hi, rfl⟩ := map_eq_some_iff.mp h
  exact ⟨i, rfl, by simpa using find?_some hi⟩

variable {i : Fin maxNumActions} {t'' : ActionTable} {g : ActionOptions → ActionOptions}
  {condition : ClearCondition} {cs : List Check} {us : List UpdateInput}

theorem actionOf_of_id (hunique : KeyedSlots.Unique ActionOptions.id t)
    (hi : (t i).id = some k) : actionOf t k = some (t i) := by
  cases h : actionOf t k with
  | none => exact absurd hi (actionOf_eq_none_iff.mp h i)
  | some a =>
    obtain ⟨j, rfl, hj⟩ := actionOf_eq_some h
    rw [hunique i j k hi hj]

theorem actionOf_id (h : actionOf t k = some a) : a.id = some k := by
  obtain ⟨_, rfl, hi⟩ := actionOf_eq_some h
  exact hi

/-- Two tables with the same actions of a caller. -/
def SameFor (k : CallerId) (t t' : ActionTable) : Prop :=
  ∀ i, (t i).id = some k ∨ (t' i).id = some k → t' i = t i

theorem SameFor.trans (h : SameFor k t t') (h' : SameFor k t' t'') : SameFor k t t'' := by
  rintro i (hi | hi)
  · have htt' := h i (.inl hi)
    rw [h' i (.inl (htt' ▸ hi)), htt']
  · have htt' := h' i (.inr hi)
    rw [htt', h i (.inr (htt' ▸ hi))]

theorem SameFor.actionOf_eq (h : SameFor k t t') : actionOf t' k = actionOf t k := by
  have hid : ∀ i, (t' i).id = some k ↔ (t i).id = some k := fun i =>
    ⟨fun hi => h i (.inr hi) ▸ hi, fun hi => (h i (.inl hi)).symm ▸ hi⟩
  have hfind : (finRange maxNumActions).find? (fun i => (t' i).id = some k) =
      (finRange maxNumActions).find? fun i => (t i).id = some k := by
    simp [hid]
  rw [actionOf, actionOf, hfind]
  cases hi : (finRange maxNumActions).find? fun i => (t i).id = some k with
  | none => rfl
  | some i =>
    have hk : (t i).id = some k := by simpa using find?_some hi
    rw [map_some, map_some, h i (.inl hk)]

theorem actionOf_map (hunique : KeyedSlots.Unique ActionOptions.id t)
    (hg : ∀ a, (g a).id = some k → a.id = some k) :
    actionOf (fun i => g (t i)) k = ((actionOf t k).map g).filter fun a => a.id = some k := by
  cases h : actionOf t k with
  | none =>
    refine actionOf_eq_none_iff.mpr fun i hi => ?_
    exact actionOf_eq_none_iff.mp h i (hg (t i) hi)
  | some a =>
    obtain ⟨i, rfl, hi⟩ := actionOf_eq_some h
    rw [map_some, filter_some]
    split
    · next hgi =>
      cases hgt : actionOf (fun i => g (t i)) k with
      | none => exact absurd (of_decide_eq_true hgi) (actionOf_eq_none_iff.mp hgt i)
      | some b =>
        obtain ⟨j, rfl, hj⟩ := actionOf_eq_some hgt
        rw [hunique j i k (hg _ hj) hi]
    · next hgi =>
      refine actionOf_eq_none_iff.mpr fun j hj => hgi ?_
      rw [← hunique j i k (hg _ hj) hi]
      exact decide_eq_true hj

/-! ## The events at the start of an update -/

variable {f g : FailsafeBase} {u : UpdateInput} {c : Check}

/-- The update brings the event that a clear condition waits for. -/
def releases (f : FailsafeBase) (u : UpdateInput) : ClearCondition → Bool
  | .onDisarm => f.lastArmed ≠ u.state.armed
  | .onModeChangeOrDisarm => f.lastArmed ≠ u.state.armed || f.modeUpdated u || f.userTakeoverActive
  | .whenConditionClears | .never => false

theorem actionOf_removeActions (hunique : KeyedSlots.Unique ActionOptions.id t) :
    actionOf (removeActions condition t) k =
      (actionOf t k).filter fun a => a.stateFailure || a.clearCondition ≠ condition := by
  have hmap := actionOf_map (k := k) hunique (g := fun a =>
    if a.valid && !a.stateFailure && decide (a.clearCondition = condition) then a.setInvalid
    else a) fun a ha => by
      split at ha
      · cases ha
      · exact ha
  refine hmap.trans ?_
  cases h : actionOf t k with
  | none => rfl
  | some a =>
    have hid := actionOf_id h
    by_cases hremoved : a.stateFailure = false ∧ a.clearCondition = condition
    · simp [valid, hid, hremoved, setInvalid, filter_some]
    have hkept :
        (a.valid && !a.stateFailure && decide (a.clearCondition = condition)) = false := by
      cases hfailure : a.stateFailure <;> simp_all
    have hkept' : (a.stateFailure || decide (a.clearCondition ≠ condition)) := by
      cases hfailure : a.stateFailure <;> simp_all
    simp only [map_some, hkept, Bool.false_eq_true, if_false, filter_some, hkept',
      if_true, hid, decide_true]

theorem clearOnEvents_actions : (f.clearOnEvents u).actions =
    if f.lastArmed ≠ u.state.armed then
      removeActions .onModeChangeOrDisarm (removeActions .onDisarm f.actions)
    else f.actions := by
  unfold clearOnEvents
  dsimp only
  split_ifs <;> rfl

theorem clearOnEvents_userTakeoverActive : (f.clearOnEvents u).userTakeoverActive =
    (decide (f.lastArmed = u.state.armed) && f.userTakeoverActive) := by
  unfold clearOnEvents
  by_cases harmed : f.lastArmed = u.state.armed <;> simp [harmed]

theorem clearOnEvents_modeUpdated : (f.clearOnEvents u).modeUpdated u = f.modeUpdated u := by
  unfold clearOnEvents modeUpdated
  dsimp only
  split_ifs <;> rfl

/-- An update starts with removing the actions that are not failing and whose event it brings. -/
theorem actionOf_beforeChecks (h : Fresh f.actions) :
    actionOf (f.beforeChecks u).actions k =
      (actionOf f.actions k).filter fun a => a.stateFailure || !f.releases u a.clearCondition := by
  have hdisarm := h.removeActions .onDisarm
  rw [beforeChecks_actions, clearOnEvents_actions, clearOnEvents_userTakeoverActive,
    clearOnEvents_modeUpdated]
  by_cases harmed : f.lastArmed = u.state.armed
  · rw [if_neg (not_not.mpr harmed), decide_eq_true harmed, Bool.true_and]
    split
    · next hevent =>
      have hreleases : ∀ condition, f.releases u condition =
          decide (condition = .onModeChangeOrDisarm) := fun condition => by
        cases condition <;> simp [releases, harmed, hevent]
      simp [actionOf_removeActions h.unique, hreleases]
    · next hevent =>
      have hreleases : ∀ condition, f.releases u condition = false := fun condition => by
        cases condition <;> simp_all [releases]
      cases actionOf f.actions k <;> simp [hreleases, filter_some]
  · have hreleases : ∀ condition, f.releases u condition =
        (decide (condition = .onDisarm) || decide (condition = .onModeChangeOrDisarm)) :=
      fun condition => by cases condition <;> simp [releases, harmed]
    have hboth :
        actionOf (removeActions .onModeChangeOrDisarm (removeActions .onDisarm f.actions)) k =
          (actionOf f.actions k).filter fun a =>
            a.stateFailure || !f.releases u a.clearCondition := by
      rw [actionOf_removeActions hdisarm.unique, actionOf_removeActions h.unique,
        Option.filter_filter]
      congr 1
      funext a
      rw [hreleases]
      cases a.clearCondition <;> cases a.stateFailure <;> rfl
    split
    · rw [actionOf_removeActions (hdisarm.removeActions _).unique, hboth, Option.filter_filter]
      congr 1
      funext a
      rw [hreleases]
      cases a.clearCondition <;> cases a.stateFailure <;> rfl
    · exact hboth

/-! ## The checks of an update -/

/-- A failing check finds the action of its caller, or an unused place. -/
def Places (g : FailsafeBase) (c : Check) : Prop :=
  c.curStateFailure = true → Known g.actions c ∨ ∃ i, (g.actions i).id = none

instance decidablePlaces (g : FailsafeBase) (c : Check) : Decidable (Places g c) :=
  inferInstanceAs (Decidable (c.curStateFailure = true →
    (∃ i, (g.actions i).id = some c.callerId) ∨ ∃ i, (g.actions i).id = none))

/-- What a check does to the table when no action has to be replaced. -/
theorem checkFailsafe_places (hplaces : Places g c) :
    let r := (g.checkFailsafe c).actions
    (c.curStateFailure ∧ ∃ i, (g.actions i).id = some c.callerId ∧
      r = Function.update g.actions i (failAgain (g.actions i) c.options.action)) ∨
    (c.curStateFailure ∧ (∀ j, (g.actions j).id ≠ some c.callerId) ∧
      ∃ i, (g.actions i).id = none ∧ r = Function.update g.actions i (newAction g.failActT c)) ∨
    (c.curStateFailure = false ∧
      (r = g.actions ∨ r = clearCaller g.deferring c.callerId g.actions)) := by
  unfold checkFailsafe
  by_cases hcur : c.curStateFailure
  · rw [if_pos hcur]
    split
    case h_1 _ i hsearch => exact .inl ⟨hcur, i, searchLoop_found hsearch, rfl⟩
    case h_2 free hsearch =>
      obtain ⟨hids, hfree⟩ := searchLoop_not_found hsearch
      have hnew : ∀ j, (g.actions j).id ≠ some c.callerId := fun j => hids j (mem_finRange j)
      rcases hfree with ⟨rfl, hvalid⟩ | ⟨i, rfl, hi⟩
      · rcases hplaces hcur with ⟨j, hj⟩ | ⟨j, hj⟩
        · exact absurd hj (hnew j)
        · exact absurd hj (hvalid j (mem_finRange j))
      · exact .inr (.inl ⟨hcur, hnew, i, hi, rfl⟩)
  · refine .inr (.inr ⟨Bool.eq_false_iff.mpr hcur, ?_⟩)
    split_ifs
    · exact .inr rfl
    · exact .inl rfl

theorem checkFailsafe_sameFor (hplaces : Places g c) (hne : c.callerId ≠ k) :
    SameFor k g.actions (g.checkFailsafe c).actions := by
  have hne' : some c.callerId ≠ some k := fun h => hne (some_injective _ h)
  rcases checkFailsafe_places hplaces with ⟨-, j, hj, heq⟩ | ⟨-, -, j, hj, heq⟩ |
    ⟨-, heq | heq⟩ <;> rw [heq]
  · intro i hi
    by_cases hij : i = j
    · subst hij
      rw [Function.update_self] at hi
      rcases hi with hi | hi <;> exact absurd (hj.symm.trans hi) hne'
    · exact update_of_ne hij ..
  · intro i hi
    by_cases hij : i = j
    · subst hij
      rw [update_self] at hi
      rcases hi with hi | hi
      · cases hj.symm.trans hi
      · exact absurd hi hne'
    · exact update_of_ne hij ..
  · exact fun _ _ => rfl
  · intro i hi
    unfold clearCaller at hi ⊢
    split_ifs at hi ⊢ with hid
    · rcases hi with hi | hi
      · exact absurd (hid.symm.trans hi) hne'
      · exact absurd (hid.symm.trans (removeAction_id hi).1) hne'
    · rfl

theorem after_sameFor (hplaces : Run.Along checkFailsafe Places g cs)
    (hne : ∀ c ∈ cs, c.callerId ≠ k) :
    SameFor k g.actions (after checkFailsafe g cs).actions := by
  induction cs generalizing g with
  | nil => exact fun _ _ => rfl
  | cons c cs ih =>
    have hfirst := checkFailsafe_sameFor hplaces.1 (hne c (mem_cons_self ..))
    exact hfirst.trans (ih hplaces.2 fun d hd => hne d (mem_cons_of_mem _ hd))

/-! ## The entry of a caller -/

/-- What the clear conditions are about. -/
structure Entry where
  clearCondition : ClearCondition
  cause : Cause
  stateFailure : Bool
deriving DecidableEq

def entry (a : ActionOptions) : Entry := ⟨a.clearCondition, a.cause, a.stateFailure⟩

def entryOf (t : ActionTable) (k : CallerId) : Option Entry := (actionOf t k).map entry

/-- The failing check of a caller. -/
def failing (u : UpdateInput) (k : CallerId) : Option Check :=
  u.checks.find? fun c => decide (c.callerId = k) && c.curStateFailure

/-- What an update makes of the entry of a caller: removed if it is not failing and its event has
come; added or marked as failing by a failing check; else kept, unless it is only there while its
check is failing. -/
def nextEntry (released : ClearCondition → Bool) (check : Option Check) (e : Option Entry) :
    Option Entry :=
  let e := e.filter fun e => e.stateFailure || !released e.clearCondition
  match check with
  | some c =>
    some (e.elim ⟨c.options.clearCondition, c.options.cause, true⟩ fun e =>
      { e with stateFailure := true })
  | none =>
    (e.filter fun e => e.clearCondition ≠ .whenConditionClears).map fun e =>
      { e with stateFailure := false }

section NextEntry

variable {released : ClearCondition → Bool} {check : Option Check} {o : Option Entry} {e : Entry}

theorem nextEntry_stateFailure (h : nextEntry released check o = some e) :
    e.stateFailure = check.isSome := by
  cases check with
  | none =>
    obtain ⟨_, -, rfl⟩ := map_eq_some_iff.mp h
    rfl
  | some c =>
    obtain rfl := some_injective _ h
    cases o.filter fun e => e.stateFailure || !released e.clearCondition <;> rfl

theorem nextEntry_isSome (hclears : ∀ e, o = some e → e.clearCondition = .whenConditionClears) :
    (nextEntry released check o).isSome = check.isSome := by
  cases check with
  | some c => rfl
  | none =>
    cases o with
    | none => rfl
    | some e => simp [nextEntry, hclears e rfl, filter_some, apply_ite]

theorem nextEntry_none : nextEntry released check none =
    check.map fun c => ⟨c.options.clearCondition, c.options.cause, true⟩ := by
  cases check <;> rfl

theorem nextEntry_keeps (hclear : e.clearCondition ≠ .whenConditionClears)
    (hkept : e.stateFailure = false → released e.clearCondition = false) :
    nextEntry released check (some e) = some { e with stateFailure := check.isSome } := by
  have hstays : (e.stateFailure || !released e.clearCondition) := by
    cases hfailure : e.stateFailure with
    | false => simp [hkept hfailure]
    | true => rfl
  cases check <;> simp [nextEntry, filter_some, hstays, hclear]

theorem nextEntry_removes (hclear : e.stateFailure = false)
    (hreleased : released e.clearCondition) :
    nextEntry released check (some e) =
      check.map fun c => ⟨c.options.clearCondition, c.options.cause, true⟩ := by
  cases check <;> simp [nextEntry, filter_some, hclear, hreleased]

end NextEntry

/-- A caller's own check finds its action as it was, and is the last to change it. -/
theorem exists_own_check (hplaces : Run.Along checkFailsafe Places g cs)
    (hnodup : (cs.map (·.callerId)).Nodup) (hc : c ∈ cs) :
    ∃ pre, Places (after checkFailsafe g pre) c ∧
      actionOf (after checkFailsafe g pre).actions c.callerId =
        actionOf g.actions c.callerId ∧
      actionOf (after checkFailsafe g cs).actions c.callerId =
        actionOf ((after checkFailsafe g pre).checkFailsafe c).actions c.callerId := by
  obtain ⟨pre, post, rfl⟩ := append_of_mem hc
  have hne : ∀ d ∈ pre ++ post, d.callerId ≠ c.callerId := fun d hd =>
    (callerId_ne_of_nodup hnodup rfl hd).symm
  obtain ⟨hpre, hstep, hpost⟩ := along_append.mp hplaces
  have hbefore := after_sameFor hpre fun d hd => hne d (mem_append_left _ hd)
  have hafter := after_sameFor hpost fun d hd => hne d (mem_append_right _ hd)
  refine ⟨pre, hstep, hbefore.actionOf_eq, ?_⟩
  rw [after_append, after_cons, hafter.actionOf_eq]

theorem entry_after_failing (hfresh : Fresh g.actions)
    (hplaces : Run.Along checkFailsafe Places g cs) (hnodup : (cs.map (·.callerId)).Nodup)
    (hc : c ∈ cs) (hcur : c.curStateFailure) :
    ∃ b, actionOf (after checkFailsafe g cs).actions c.callerId = some b ∧
      b.activated ∧ entry b = ((actionOf g.actions c.callerId).map entry).elim
        ⟨c.options.clearCondition, c.options.cause, true⟩
        fun e => { e with stateFailure := true } := by
  obtain ⟨pre, hstep, hbefore, hafter⟩ := exists_own_check hplaces hnodup hc
  have hunique := unique_after hfresh.unique pre
  have hunique' := (checkFailsafe_step_after g pre c).unique hunique
  rw [hafter, ← hbefore]
  rcases checkFailsafe_places hstep with ⟨-, i, hi, heq⟩ | ⟨-, hnew, i, hi, heq⟩ | ⟨hnot, -⟩
  · rw [actionOf_of_id hunique hi]
    rw [heq] at hunique' ⊢
    refine ⟨_, actionOf_of_id (i := i) hunique' ?_, ?_, ?_⟩
    · rw [Function.update_self]
      exact hi
    · rw [update_self]
      rfl
    · rw [update_self]
      rfl
  · rw [actionOf_eq_none_iff.mpr hnew]
    rw [heq] at hunique' ⊢
    refine ⟨_, actionOf_of_id (i := i) hunique' ?_, ?_, ?_⟩ <;> rw [update_self] <;> rfl
  · cases hnot.symm.trans hcur

theorem actionOf_clearCaller (hunique : KeyedSlots.Unique ActionOptions.id t) {deferring} :
    actionOf (clearCaller deferring k t) k =
      ((actionOf t k).map (removeAction deferring)).filter fun a => a.id = some k := by
  have hmap := actionOf_map hunique
    (g := fun a => if a.id = some k then removeAction deferring a else a) fun a ha => by
      split_ifs at ha with hid
      · exact hid
      · exact ha
  refine hmap.trans ?_
  cases h : actionOf t k with
  | none => rfl
  | some a => rw [map_some, map_some, if_pos (actionOf_id h)]

/-- Checks of the caller that are not failing leave its action alone, or remove it. -/
theorem actionOf_after_not_failing (hfresh : Fresh g.actions)
    (hplaces : Run.Along checkFailsafe Places g cs) (hnodup : (cs.map (·.callerId)).Nodup)
    (hnot : ∀ c ∈ cs, c.callerId = k → c.curStateFailure = false) :
    actionOf (after checkFailsafe g cs).actions k = actionOf g.actions k ∨
    actionOf (after checkFailsafe g cs).actions k =
      ((actionOf g.actions k).map (removeAction g.deferring)).filter fun a => a.id = some k := by
  by_cases hex : ∃ c ∈ cs, c.callerId = k
  · obtain ⟨c, hc, rfl⟩ := hex
    have hcur := hnot c hc rfl
    obtain ⟨pre, hstep, hbefore, hafter⟩ := exists_own_check hplaces hnodup hc
    rw [hafter, ← hbefore]
    rcases checkFailsafe_places hstep with ⟨hfail, -⟩ | ⟨hfail, -⟩ | ⟨-, heq | heq⟩
    · cases hcur.symm.trans hfail
    · cases hcur.symm.trans hfail
    · exact .inl (by rw [heq])
    · right
      rw [heq, after_deferring]
      exact actionOf_clearCaller (unique_after hfresh.unique pre)
  · refine .inl (after_sameFor hplaces fun c hc hck => hex ⟨c, hc, hck⟩).actionOf_eq

/-- What `removeNonActivatedActions` makes of an action whose check was not failing. -/
theorem entry_end_of_not_activated (hid : a.id = some k) (hidle : a.activated = false) :
    (((some a).map (endOfUpdate false)).filter fun a => a.id = some k).map entry =
      ((some (entry a)).filter fun e => e.clearCondition ≠ .whenConditionClears).map fun e =>
        { e with stateFailure := false } := by
  have hvalid : a.valid := by rw [valid, hid]; rfl
  have hend : endOfUpdate false a = { removeAction false a with activated := false } := by
    rw [endOfUpdate, hvalid, hidle]
    rfl
  rw [map_some, filter_some, filter_some, hend]
  by_cases hclears : a.clearCondition = .whenConditionClears
  · have hlatched : ¬ a.Latched false := fun h => h.1 hclears
    simp [removeAction_not_latched hlatched, setInvalid, entry, hclears]
  · have hlatched : a.Latched false := ⟨hclears, fun h => Bool.false_ne_true h.1⟩
    simp [removeAction_latched hlatched, hid, entry, hclears]

theorem entry_end_of_removed (hid : a.id = some k) (hidle : a.activated = false) :
    ((((some (removeAction false a)).filter fun a => a.id = some k).map (endOfUpdate false)).filter
      fun a => a.id = some k).map entry =
      ((some (entry a)).filter fun e => e.clearCondition ≠ .whenConditionClears).map fun e =>
        { e with stateFailure := false } := by
  by_cases hclears : a.clearCondition = .whenConditionClears
  · have hlatched : ¬ a.Latched false := fun h => h.1 hclears
    simp [removeAction_not_latched hlatched, setInvalid, entry, hclears, filter_some]
  have hlatched : a.Latched false := ⟨hclears, fun h => Bool.false_ne_true h.1⟩
  rw [removeAction_latched hlatched, filter_some, if_pos (decide_eq_true hid)]
  refine (entry_end_of_not_activated (a := { a with stateFailure := false }) hid hidle).trans ?_
  simp [entry, hclears, filter_some]

theorem beforeChecks_deferring (hdeferring : f.deferring = false) :
    (f.beforeChecks u).deferring = false := by
  have hevents : (f.clearOnEvents u).deferring = false := by
    unfold clearOnEvents
    dsimp only
    split_ifs <;> exact hdeferring
  unfold beforeChecks updateDelay
  dsimp only
  split_ifs <;> first | exact hevents | rfl

section

variable (hfresh : Fresh f.actions)
include hfresh

theorem actionOf_update (hdeferring : f.deferring = false) :
    actionOf (f.update u).1.actions k =
      ((actionOf (after checkFailsafe (f.beforeChecks u) u.checks).actions k).map
        (endOfUpdate false)).filter fun a => a.id = some k := by
  have hoff : (after checkFailsafe (f.beforeChecks u) u.checks).deferring = false := by
    rw [after_deferring, beforeChecks_deferring hdeferring]
  rw [update_actions, afterChecks, removeNonActivatedActions, hoff]
  exact actionOf_map (unique_after hfresh.beforeChecks.unique u.checks)
    fun a ha => (endOfUpdate_id.mp ha).1

theorem entry_beforeChecks :
    (actionOf (f.beforeChecks u).actions k).map entry =
      (entryOf f.actions k).filter fun e => e.stateFailure || !f.releases u e.clearCondition := by
  rw [actionOf_beforeChecks hfresh, entryOf]
  cases actionOf f.actions k with
  | none => rfl
  | some a => simp [filter_some, entry]

/-- **An update does to an entry what it is to do**, without deferral and with enough places. -/
theorem entryOf_update (hdeferring : f.deferring = false)
    (hplaces : Run.Along checkFailsafe Places (f.beforeChecks u) u.checks) (k) :
    entryOf (f.update u).1.actions k =
      nextEntry (f.releases u) (failing u k) (entryOf f.actions k) := by
  have hbefore := hfresh.beforeChecks (u := u)
  rw [entryOf, actionOf_update hfresh hdeferring]
  cases hfailing : failing u k with
  | some c =>
    rw [nextEntry, ← entry_beforeChecks hfresh]
    have hc := mem_of_find?_eq_some hfailing
    obtain ⟨hck, hcur⟩ := Bool.and_eq_true_iff.mp (find?_some
      (p := fun c : Check => decide (c.callerId = k) && c.curStateFailure) hfailing)
    obtain rfl : c.callerId = k := of_decide_eq_true hck
    obtain ⟨b, hb, hactivated, hentry⟩ :=
      entry_after_failing hbefore hplaces u.distinct hc hcur
    have hbend : endOfUpdate false b = { b with activated := false } := by
      rw [endOfUpdate, hactivated]
      simp
    rw [hb, map_some, hbend, filter_some, if_pos (decide_eq_true (actionOf_id hb)), ← hentry]
    rfl
  | none =>
    rw [nextEntry, ← entry_beforeChecks hfresh]
    have hnot : ∀ c ∈ u.checks, c.callerId = k → c.curStateFailure = false := fun c hc hck => by
      have hfind := find?_eq_none.mp hfailing c hc
      simpa [hck] using hfind
    have hidle : ∀ a, actionOf (f.beforeChecks u).actions k = some a → a.activated = false :=
      fun a ha => by
        obtain ⟨i, rfl, -⟩ := actionOf_eq_some ha
        exact hbefore.idle i
    -- its checks have left the action alone, or removed it
    rcases actionOf_after_not_failing hbefore hplaces u.distinct hnot with heq | heq <;> rw [heq]
    · cases ha : actionOf (f.beforeChecks u).actions k with
      | none => rfl
      | some a => exact entry_end_of_not_activated (actionOf_id ha) (hidle a ha)
    · rw [beforeChecks_deferring hdeferring]
      cases ha : actionOf (f.beforeChecks u).actions k with
      | none => rfl
      | some a => exact entry_end_of_removed (actionOf_id ha) (hidle a ha)

end

/-! ## Runs -/

/-- The check of the caller is called with a failure. -/
def Failing (u : UpdateInput) (k : CallerId) : Prop :=
  ∃ c ∈ u.checks, c.callerId = k ∧ c.curStateFailure = true

theorem failing_isSome_iff : (failing u k).isSome ↔ Failing u k := by
  rw [failing, Failing]
  simp

/-- The clear conditions are honoured in an update, for one caller. -/
structure Honours (f : FailsafeBase) (u : UpdateInput) (k : CallerId) : Prop where
  /-- an action with `WhenConditionClears` is valid if and only if its check is failing -/
  clears : (∀ e, entryOf f.actions k = some e → e.clearCondition = .whenConditionClears) →
    ((entryOf (f.update u).1.actions k).isSome = true ↔ Failing u k)
  stateFailure : ∀ e, entryOf (f.update u).1.actions k = some e →
    (e.stateFailure = true ↔ Failing u k)
  /-- a failing check adds an action with its own clear condition and cause -/
  adds : entryOf f.actions k = none → entryOf (f.update u).1.actions k =
    (failing u k).map fun c => ⟨c.options.clearCondition, c.options.cause, true⟩
  /-- another action is kept, unless its condition is clear and the event for it comes -/
  keeps : ∀ e, entryOf f.actions k = some e → e.clearCondition ≠ .whenConditionClears →
    (e.stateFailure = false → f.releases u e.clearCondition = false) →
    ∃ e', entryOf (f.update u).1.actions k = some e' ∧ e'.cause = e.cause ∧
      e'.clearCondition = e.clearCondition
  /-- and then it is removed; only a check that is failing again adds a new one -/
  removes : ∀ e, entryOf f.actions k = some e → e.stateFailure = false →
    f.releases u e.clearCondition = true →
    entryOf (f.update u).1.actions k =
      (failing u k).map fun c => ⟨c.options.clearCondition, c.options.cause, true⟩

theorem honours (hfresh : Fresh f.actions) (hdeferring : f.deferring = false)
    (hplaces : Run.Along checkFailsafe Places (f.beforeChecks u) u.checks) (k) : Honours f u k := by
  have hupdate := entryOf_update hfresh hdeferring hplaces k
  refine ⟨fun hentry => ?_, fun e he => ?_, fun hnone => ?_, fun e he hclear hkept => ?_,
    fun e he hclear hreleased => ?_⟩
  · rw [hupdate, nextEntry_isSome hentry, failing_isSome_iff]
  · rw [nextEntry_stateFailure (hupdate.symm.trans he), failing_isSome_iff]
  · rw [hupdate, hnone, nextEntry_none]
  · rw [hupdate, he]
    exact ⟨_, nextEntry_keeps hclear hkept, rfl, rfl⟩
  · rw [hupdate, he]
    exact nextEntry_removes hclear hreleased

/-- A step of a run of updates. -/
def updated (f : FailsafeBase) (u : UpdateInput) : FailsafeBase := (f.update u).1

/-- In the update no failing check has to replace the action of another one. -/
def HasPlaces (f : FailsafeBase) (u : UpdateInput) : Prop :=
  Run.Along checkFailsafe Places (f.beforeChecks u) u.checks
deriving Decidable

theorem update_deferring (hdeferring : f.deferring = false) : (f.update u).1.deferring = false := by
  have hchecks : (f.afterChecks u).deferring = false := by
    exact (after_deferring _ _).trans (beforeChecks_deferring hdeferring)
  unfold update finishUpdate updateFailsafeDeferState updateStartDelay clearDelayIfNeeded
  dsimp only
  split_ifs <;> exact hchecks

variable {e : Entry}

/-- An action stays as long as no update starts with its condition clear and brings its event. -/
theorem entry_stays (hhonours : Run.Along updated (fun f u => ∀ k, Honours f u k) f us)
    (he : entryOf f.actions k = some e) (hclear : e.clearCondition ≠ .whenConditionClears)
    (hevent : Run.Along updated (fun f u => ∀ e', entryOf f.actions k = some e' →
      e'.stateFailure = false → f.releases u e'.clearCondition = false) f us) :
    ∃ e', entryOf (after updated f us).actions k = some e' ∧ e'.cause = e.cause ∧
      e'.clearCondition = e.clearCondition := by
  induction us generalizing f e with
  | nil => exact ⟨e, he, rfl, rfl⟩
  | cons u us ih =>
    obtain ⟨e₁, he₁, hcause₁, hclear₁⟩ := (hhonours.1 k).keeps e he hclear (hevent.1 e he)
    obtain ⟨e₂, he₂, hcause₂, hclear₂⟩ := ih hhonours.2 he₁ (hclear₁ ▸ hclear) hevent.2
    exact ⟨e₂, he₂, hcause₂.trans hcause₁, hclear₂.trans hclear₁⟩

/-- **The clear conditions are honoured** in every run of updates without deferral in which no
failing check has to replace an action. -/
theorem clear_conditions_honoured (failActT : FailActT) (us : List UpdateInput)
    (hplaces : Run.Along updated HasPlaces (construct failActT) us) :
    Run.Along updated (fun f u => ∀ k, Honours f u k) (construct failActT) us ∧
      ∀ us₁ us₂, us = us₁ ++ us₂ → ∀ k e,
        entryOf (after updated (construct failActT) us₁).actions k = some e →
        e.clearCondition ≠ .whenConditionClears →
        Run.Along updated (fun f u => ∀ e', entryOf f.actions k = some e' →
          e'.stateFailure = false → f.releases u e'.clearCondition = false)
          (after updated (construct failActT) us₁) us₂ →
        ∃ e', entryOf (after updated (construct failActT) us).actions k = some e' ∧
          e'.cause = e.cause ∧ e'.clearCondition = e.clearCondition := by
  have hhonours : Run.Along updated (fun f u => ∀ k, Honours f u k) (construct failActT) us := by
    apply along_of_invariant (I := fun f => Fresh f.actions ∧ f.deferring = false) ?_ ?_ ?_ hplaces
    · exact fun f u hinv _ => ⟨hinv.1.step (.update u), update_deferring hinv.2⟩
    · exact fun f u hinv hu => honours hinv.1 hinv.2 hu
    · exact ⟨⟨fun i j k hi => (by cases hi), fun i => rfl⟩, rfl⟩
  refine ⟨hhonours, ?_⟩
  rintro us₁ us₂ rfl k e he hclear hevent
  rw [after_append]
  exact entry_stays (along_append.mp hhonours).2 he hclear hevent

/-- A check that asks for a return until the vehicle is disarmed. -/
def returnUntilDisarmed (lastStateFailure curStateFailure : Bool) : Check :=
  { callerId := 0, lastStateFailure, curStateFailure,
    options := { action := .rtl, clearCondition := .onDisarm } }

/-- The condition of a check fails and clears; then the vehicle is disarmed. -/
def failedFlight : List UpdateInput :=
  [{ timeUs := 1, state := { armed := true }, checks := [returnUntilDisarmed false true]
     distinct := by decide },
   { timeUs := 2, state := { armed := true }, checks := [returnUntilDisarmed true false]
     distinct := by decide },
   { timeUs := 3, state := { armed := false }, checks := [returnUntilDisarmed false false]
     distinct := by decide }]

theorem clear_conditions_honoured_failedFlight :
    Run.Along updated (fun f u => ∀ k, Honours f u k)
      (construct { delay := 0, exceedsTenth := false }) failedFlight ∧
    entryOf (after updated (construct { delay := 0, exceedsTenth := false })
      (failedFlight.take 2)).actions 0 = some ⟨.onDisarm, .generic, false⟩ ∧
    entryOf (after updated (construct { delay := 0, exceedsTenth := false })
      failedFlight).actions 0 = none :=
  ⟨(clear_conditions_honoured _ failedFlight (by decide +kernel)).1, by decide +kernel,
    by decide +kernel⟩

end Px4.Commander.FailsafeBase
