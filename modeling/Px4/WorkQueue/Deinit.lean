import Px4.WorkQueue.Wakeups

/-!
# A deinitialised work item

`Deinit` clears `_wq`, takes the item out of the queue, waits until its `Run` has returned, and
detaches it. After that the item is not run any more, if no `ScheduleNow` of it has read `_wq` and
not yet queued it when `Deinit` clears `_wq`.
-/

namespace Px4.WorkQueue

open Function List Place Shared

variable {T W : Type} [DecidableEq T] [DecidableEq W]

/-- How far a call of `Deinit` for the item is: `1` before it clears `_wq`, `2` up to the removal
from the queue, `3` up to the end of the wait for `Run`, `4` in `Detach`. -/
def Place.stage (item : W) : Place W → ℕ
  | .resetWq i => if i = item then 1 else 0
  | .removeLock i true | .remove i true => if i = item then 2 else 0
  | .removeUnlock i true | .awaitRun i => if i = item then 3 else 0
  | .detachLock i | .detach i | .requestStop i | .stopGetValue i _ | .stopPost i _
  | .detachUnlock i => if i = item then 4 else 0
  | _ => 0

/-- The call is going to queue the item, without another look at `_wq`. -/
def Place.adds (item : W) : Place W → Bool
  | .addLock i | .addPush i => i = item
  | _ => false

/-- The item that the worker has popped, until its `Run` has returned. -/
def WorkerPlace.item : WorkerPlace W → Option W
  | .popped i | .unlockToRun i | .start i | .running i | .finished i => some i
  | _ => none

namespace Shared

variable {s : Shared T W} {a : Agent T} {item : W}

/-! ## Steps of the calls -/

variable {p : Place W} {request : Request W}

theorem wq_advance (s : Shared T W) :
    (s.advance a p).1.wq item = s.wq item ∨
      p = .resetWq item ∧ (s.advance a p).1.wq item = false := by
  cases p with
  | resetWq i =>
    by_cases hi : item = i
    · subst hi
      exact .inr ⟨rfl, update_self ..⟩
    · exact .inl (update_of_ne hi ..)
  | addLock _ | removeLock _ _ | clearLock | detachLock _ =>
    rw [advance, acquire]
    split <;> exact .inl rfl
  | clear =>
    rw [advance]
    split <;> exact .inl rfl
  | _ => exact .inl rfl

theorem runInProgress_advance : (s.advance a p).1.runInProgress = s.runInProgress := by
  cases p with
  | addLock _ | removeLock _ _ | clearLock | detachLock _ =>
    rw [advance, acquire]
    split <;> rfl
  | clear =>
    rw [advance]
    split <;> rfl
  | _ => rfl

theorem not_mem_advance (hadds : p.adds item = false)
    (h : item ∉ s.queue.nodes) : item ∉ (s.advance a p).1.queue.nodes := by
  cases p with
  | addPush i =>
    have hne : item ≠ i := fun heq => by simp [adds, heq] at hadds
    exact IntrusiveQueue.not_mem_push h hne
  | remove i deinit => exact fun hmem => h (mem_of_mem_erase hmem)
  | clear =>
    rw [advance]
    split
    · exact h
    · exact fun hmem => h (mem_of_mem_tail hmem)
  | addLock _ | removeLock _ _ | clearLock | detachLock _ =>
    rw [advance, acquire_queue]
    exact h
  | _ => exact h

theorem adds_advance (h : p.adds item = false) : (s.advance a p).2.adds item = false := by
  cases p with
  | addLock _ | removeLock _ _ | clearLock | detachLock _ =>
    rw [advance, acquire]
    split <;> exact h
  | clear | getValue | removeUnlock _ _ | awaitRun _ | detach _ =>
    simp only [advance]
    split <;> rfl
  | stopGetValue _ _ | stopPost _ _ =>
    simp only [advance, afterSignal]
    repeat' split
    all_goals rfl
  | _ => rfl

theorem stage_advance (s : Shared T W) :
    let r := (s.advance a p).2.stage
    r item ≤ p.stage item ∨ (p = .resetWq item ∧ r item = 2) ∨
      (p = .remove item true ∧ r item = 3) ∨
      (p = .awaitRun item ∧ r item = 4 ∧ (a = .worker ∨ s.runInProgress item = false)) := by
  cases p with
  | addLock _ | clearLock | detachLock _ =>
    rw [advance, acquire]
    split <;> exact .inl (Nat.le_refl _)
  | removeLock _ deinit =>
    rw [advance, acquire]
    split <;> cases deinit <;> exact .inl (Nat.le_refl _)
  | clear | getValue =>
    simp only [advance]
    split <;> exact .inl (Nat.le_refl _)
  | removeUnlock _ deinit => cases deinit <;> exact .inl (Nat.le_refl _)
  | detach _ =>
    simp only [advance]
    split <;> exact .inl (Nat.le_refl _)
  | stopGetValue _ _ | stopPost _ _ =>
    simp only [advance, afterSignal]
    repeat' split
    all_goals exact .inl (Nat.le_refl _)
  | resetWq i =>
    by_cases hi : i = item
    · subst hi
      exact .inr (.inl ⟨rfl, if_pos rfl⟩)
    · exact .inl (by simp [advance, stage, hi])
  | remove i deinit =>
    cases deinit with
    | false => exact .inl (Nat.le_refl _)
    | true =>
      by_cases hi : i = item
      · subst hi
        exact .inr (.inr (.inl ⟨rfl, if_pos rfl⟩))
      · exact .inl (by simp [advance, stage, hi])
  | awaitRun i =>
    simp only [advance]
    split
    · exact .inl (Nat.le_refl _)
    next hcond =>
    by_cases hi : i = item
    · subst hi
      refine .inr (.inr (.inr ⟨rfl, if_pos rfl, ?_⟩))
      by_contra hnot
      simp_all
    · exact .inl (by simp [stage, hi])
  | detachUnlock _ => exact .inl (Nat.zero_le _)
  | _ => exact .inl (Nat.le_refl _)

/-! ## The beginning of a call -/

omit [DecidableEq T]

theorem adds_begin (h : request ≠ .add item) (hwq : s.wq item = false) :
    (s.begin request).adds item = false := by
  cases request with
  | add i => exact decide_eq_false fun heq => h (heq ▸ rfl)
  | scheduleNow i =>
    rw [begin]
    split
    · next hset =>
      refine decide_eq_false fun heq => ?_
      rw [heq, hwq] at hset
      cases hset
    · rfl
  | scheduleClear i | deinit i =>
    rw [begin]
    split <;> rfl
  | _ => rfl

theorem stage_begin (s : Shared T W) (item request) :
    (s.begin request).stage item = 0 ∨
      request = .deinit item ∧ (s.begin request).stage item = 1 := by
  cases request with
  | scheduleNow i | scheduleClear i =>
    rw [begin]
    split <;> exact .inl rfl
  | deinit i =>
    rw [begin]
    split
    · by_cases hi : i = item
      · exact .inr ⟨hi ▸ rfl, if_pos hi⟩
      · exact .inl (if_neg hi)
    · exact .inl rfl
  | _ => exact .inl rfl

/-! ## Steps of the worker -/

variable {p : WorkerPlace W} {inCall : Bool}

theorem wq_work : (s.work inCall p).1.wq = s.wq := by
  cases p with
  | lock =>
    rw [work, acquire]
    split <;> rfl
  | wait | drain =>
    rw [work]
    split <;> rfl
  | _ => rfl

theorem not_mem_work (h : item ∉ s.queue.nodes) : item ∉ (s.work inCall p).1.queue.nodes := by
  cases p with
  | lock =>
    rw [work, acquire_queue]
    exact h
  | wait =>
    rw [work]
    split <;> exact h
  | drain =>
    rw [work]
    split
    · exact h
    · exact fun hmem => h (mem_of_mem_tail hmem)
  | _ => exact h

/-- The worker gets an item from the queue, and then keeps it until its `Run` has returned. -/
theorem item_work (h : (s.work inCall p).2.item = some item) :
    ((s.work inCall p).2 = .popped item ∧ item ∈ s.queue.nodes) ∨
      p.item = some item ∧ (s.work inCall p).2 ≠ .popped item := by
  cases p with
  | drain =>
    rw [work] at h ⊢
    split at h
    · cases h
    next i hfront =>
    obtain rfl : i = item := Option.some.inj h
    rw [IntrusiveQueue.front_eq] at hfront
    exact .inl ⟨rfl, mem_of_head? hfront⟩
  | popped _ | unlockToRun _ | start _ => exact .inr ⟨h, fun heq => by cases heq⟩
  | running _ =>
    cases inCall <;> exact .inr ⟨h, fun heq => by cases heq⟩
  | checkExit | wait | lock =>
    simp only [work, acquire] at h
    split at h <;> cases h
  | _ => cases h

/-- While the worker has an item, the flag of the item is set. -/
theorem runInProgress_work
    (hflag : p.item = some item → p ≠ .popped item → s.runInProgress item)
    (h : (s.work inCall p).2.item = some item) (hpopped : (s.work inCall p).2 ≠ .popped item) :
    (s.work inCall p).1.runInProgress item := by
  obtain ⟨hbefore, -⟩ := (item_work h).resolve_left fun hpop => hpopped hpop.1
  cases p with
  | popped i =>
    obtain rfl : i = item := Option.some.inj hbefore
    exact update_self ..
  | unlockToRun _ | start _ | running _ => exact hflag hbefore fun heq => by cases heq
  | finished _ => cases h
  | _ => cases hbefore

end Shared

namespace System

/-- Items are queued by `ScheduleNow`, and the item is not deinitialised in its own `Run`. -/
def Scheduled (item : W) : Event T W → Prop
  | .call _ (.add i) => i ≠ item
  | .call .worker (.deinit i) => i ≠ item
  | _ => True

/-- When `Deinit` clears `_wq`, nobody is going to queue the item. -/
def Quiet (item : W) (s : System T W) : Event T W → Prop
  | .advance a => s.places a = .resetWq item → ∀ b, (s.places b).adds item = false
  | _ => True

/-- A call of `Deinit` has come that far, or one has returned. -/
def Reached (item : W) (returned : Prop) (s : System T W) (stage : ℕ) : Prop :=
  returned ∨ ∃ a, stage ≤ (s.places a).stage item

/-- What `Deinit` has achieved when it has come to a stage. -/
structure Deinitialising (item : W) (returned : Prop) (s : System T W) : Prop extends
    Exclusive s where
  noAdd : s.shared.wq item = false → ∀ a, (s.places a).adds item = false
  reset : Reached item returned s 2 → s.shared.wq item = false
  removed : Reached item returned s 3 → item ∉ s.shared.queue.nodes ∧ s.worker ≠ .popped item
  awaited : Reached item returned s 4 → s.worker.item ≠ some item
  flagged : s.worker.item = some item → s.worker ≠ .popped item →
    s.shared.runInProgress item = true
  elsewhere : (s.places .worker).stage item = 0

variable {s : System T W} {item : W} {returned : Prop}

variable {a : Agent T}

variable {k : ℕ} {request : Request W} {e : Event T W}

omit [DecidableEq T] in
theorem Reached.mono {l} (h : Reached item returned s l) (hkl : k ≤ l) :
    Reached item returned s k :=
  h.imp_right fun ⟨a, ha⟩ => ⟨a, Nat.le_trans hkl ha⟩

theorem Reached.of_call (h : Reached item returned (s.step (.call a request)) k) (hk : 2 ≤ k) :
    Reached item returned s k := by
  refine h.imp_right fun ⟨b, hb⟩ => ⟨b, ?_⟩
  rcases s.places_call a request b with hplace | ⟨-, -, hplace⟩
  · rwa [hplace] at hb
  · rw [hplace] at hb
    rcases s.shared.stage_begin item request with hzero | ⟨-, hone⟩ <;> omega

/-- A step of a call leaves all stages as they were, or brings its own call to the next one. -/
theorem Reached.of_advance (h : Reached item returned (s.step (.advance a)) k) :
    Reached item returned s k ∨
      (k ≤ 2 ∧ s.places a = .resetWq item) ∨
      (k ≤ 3 ∧ s.places a = .remove item true) ∨
      (s.places a = .awaitRun item ∧ (a = .worker ∨ s.shared.runInProgress item = false)) := by
  rcases h with h | ⟨b, hb⟩
  · exact .inl (.inl h)
  by_cases hba : b = a
  · subst hba
    rw [places_advance_self] at hb
    rcases s.shared.stage_advance with
      hle | ⟨hp, hs⟩ | ⟨hp, hs⟩ | ⟨hp, -, hflag⟩
    · exact .inl (.inr ⟨b, Nat.le_trans hb hle⟩)
    · exact .inr (.inl ⟨hs ▸ hb, hp⟩)
    · exact .inr (.inr (.inl ⟨hs ▸ hb, hp⟩))
    · exact .inr (.inr (.inr ⟨hp, hflag⟩))
  · rw [places_advance_other _ _ hba] at hb
    exact .inl (.inr ⟨b, hb⟩)

omit [DecidableEq T] in
theorem Reached.of_place {p} (hp : s.places a = p) (hk : k ≤ p.stage item) :
    Reached item returned s k :=
  .inr ⟨a, hp ▸ hk⟩

theorem Deinitialising.call (h : Deinitialising item returned s)
    (he : Scheduled item (.call a request)) :
    Deinitialising item returned (s.step (.call a request)) := by
  refine ⟨h.toExclusive.call a request, fun hwq b => ?_, fun hk => ?_, fun hk => ?_, fun hk => ?_,
    ?_, ?_⟩
  · rw [shared_call] at hwq
    rcases s.places_call a request b with hplace | ⟨-, -, hplace⟩
    · rw [hplace]
      exact h.noAdd hwq b
    · rw [hplace]
      exact adds_begin (fun heq => by subst heq; exact he rfl) hwq
  · rw [shared_call]
    exact h.reset (hk.of_call (by omega))
  · rw [shared_call, worker_call]
    exact h.removed (hk.of_call (by omega))
  · rw [worker_call]
    exact h.awaited (hk.of_call (by omega))
  · rw [shared_call, worker_call]
    exact h.flagged
  · rcases s.places_call a request .worker with hplace | ⟨rfl, -, hplace⟩
    · rw [hplace]
      exact h.elsewhere
    · rw [hplace]
      refine (s.shared.stage_begin item request).resolve_right fun hdeinit => ?_
      rw [hdeinit.1] at he
      exact he rfl

theorem Deinitialising.work (h : Deinitialising item returned s) :
    Deinitialising item returned (s.step .work) := by
  refine ⟨h.toExclusive.work, fun hwq => ?_, fun hk => ?_, fun hk => ?_, fun hk hitem => ?_,
    runInProgress_work h.flagged, h.elsewhere⟩
  · rw [shared_work, wq_work] at hwq
    exact h.noAdd hwq
  · rw [shared_work, wq_work]
    exact h.reset hk
  · obtain ⟨hmem, -⟩ := h.removed hk
    refine ⟨not_mem_work hmem, fun hpopped => ?_⟩
    rcases item_work (congrArg WorkerPlace.item hpopped) with ⟨-, hmem'⟩ | ⟨-, hne⟩
    · exact hmem hmem'
    · exact hne hpopped
  · rcases item_work hitem with ⟨-, hmem⟩ | ⟨hbefore, -⟩
    · exact (h.removed (Reached.mono hk (by omega))).1 hmem
    · exact h.awaited hk hbefore

section Advance

variable (h : Deinitialising item returned s) {a : Agent T}
include h

theorem Deinitialising.reset_advance (hk : Reached item returned (s.step (.advance a)) 2) :
    (s.step (.advance a)).shared.wq item = false := by
  rw [shared_advance]
  rcases s.shared.wq_advance with hsame | ⟨-, hreset⟩
  · rw [hsame]
    rcases hk.of_advance with hk | ⟨-, hp⟩ | ⟨-, hp⟩ | ⟨hp, -⟩
    · exact h.reset hk
    · rw [hp] at hsame
      exact hsame.symm.trans (update_self ..)
    · exact h.reset (.of_place hp (by simp [stage]))
    · exact h.reset (.of_place hp (by simp [stage]))
  · exact hreset

theorem Deinitialising.removed_advance (hk : Reached item returned (s.step (.advance a)) 3) :
    item ∉ (s.step (.advance a)).shared.queue.nodes ∧
      (s.step (.advance a)).worker ≠ .popped item := by
  have hkeep (hk : Reached item returned s 3) : item ∉ (s.step (.advance a)).shared.queue.nodes ∧
      (s.step (.advance a)).worker ≠ .popped item := by
    obtain ⟨hmem, hpopped⟩ := h.removed hk
    have hadds := h.noAdd (h.reset (hk.mono (by omega))) a
    exact ⟨not_mem_advance hadds hmem, hpopped⟩
  rcases hk.of_advance with hk | ⟨hle, -⟩ | ⟨-, hp⟩ | ⟨hp, -⟩
  · exact hkeep hk
  · omega
  · -- the call has the lock, so the worker is not between `pop` and the flag
    refine ⟨?_, fun hpopped => ?_⟩
    · rw [shared_advance, hp]
      exact s.shared.queue.linked.nodup.not_mem_erase
    · have hholds := h.not_holds (by rw [show s.worker = .popped item from hpopped]; rfl) a
      rw [hp] at hholds
      cases hholds
  · exact hkeep (.of_place hp (by simp [stage]))

theorem Deinitialising.awaited_advance (hk : Reached item returned (s.step (.advance a)) 4) :
    s.worker.item ≠ some item := by
  rcases hk.of_advance with hk | ⟨hle, -⟩ | ⟨hle, -⟩ | ⟨hp, hflag⟩
  · exact h.awaited hk
  · omega
  · omega
  · intro hitem
    obtain ⟨-, hpopped⟩ := h.removed (.of_place hp (by simp [stage]))
    rcases hflag with rfl | hflag
    · have := h.elsewhere
      rw [hp] at this
      simp [stage] at this
    · cases hflag.symm.trans (h.flagged hitem hpopped)

theorem Deinitialising.elsewhere_advance :
    ((s.step (.advance a)).places .worker).stage item = 0 := by
  have helsewhere := h.elsewhere
  by_cases ha : Agent.worker = a
  · subst ha
    rcases s.shared.stage_advance with
      hle | ⟨hp, -⟩ | ⟨hp, -⟩ | ⟨hp, -⟩
    · exact Nat.le_zero.mp (helsewhere ▸ hle)
    all_goals
      rw [hp] at helsewhere
      simp [stage] at helsewhere
  · rw [places_advance_other _ _ ha]
    exact helsewhere

theorem Deinitialising.advance (he : Quiet item s (.advance a)) :
    Deinitialising item returned (s.step (.advance a)) := by
  refine ⟨h.toExclusive.advance a, fun hclear b => ?_, h.reset_advance, h.removed_advance,
    h.awaited_advance, ?_, h.elsewhere_advance⟩
  · have hbefore : ∀ b, (s.places b).adds item = false := by
      rcases s.shared.wq_advance with hsame | ⟨hp, -⟩
      · exact h.noAdd (hsame.symm.trans hclear)
      · exact he hp
    by_cases hba : b = a
    · subst hba
      rw [places_advance_self]
      exact adds_advance (hbefore b)
    · rw [places_advance_other _ _ hba]
      exact hbefore b
  · rw [shared_advance, runInProgress_advance]
    exact h.flagged

end Advance

theorem Deinitialising.step (h : Deinitialising item returned s)
    (he : Scheduled item e ∧ Quiet item s e) : Deinitialising item returned (s.step e) := by
  cases e with
  | call a request => exact h.call he.1
  | advance a => exact h.advance he.2
  | work => exact h.work

omit [DecidableEq T] in
theorem deinitialising_start {workItems : List W} {item} :
    Deinitialising item False (start (T := T) workItems) := by
  have hnone : ∀ k, 0 < k → ¬Reached item False (start (T := T) workItems) k := by
    rintro k hk (h | ⟨a, ha⟩)
    · exact h
    · exact absurd ha (Nat.not_le.mpr hk)
  exact ⟨exclusive_start, fun _ _ => rfl, fun h => absurd h (hnone 2 (by omega)),
    fun h => absurd h (hnone 3 (by omega)), fun h => absurd h (hnone 4 (by omega)),
    (fun h => by cases h), rfl⟩

omit [DecidableEq T] in
/-- When `Deinit` is at its end, everything it is for has been achieved. -/
theorem Deinitialising.of_reached (h : Deinitialising item False s)
    (hk : Reached item False s 4) : Deinitialising item True s where
  __ := h
  reset _ := h.reset (hk.mono (by omega))
  removed _ := h.removed (hk.mono (by omega))
  awaited _ := h.awaited hk

/-- After a `Deinit` on another thread has returned, the item is not queued, its `Run` is not in
progress and is not going to be started. -/
theorem deinitialised_not_run (workItems : List W) (item : W) (t : T) (pre post : List (Event T W))
    (hreturn : (after workItems pre).places (.thread t) = .detachUnlock item)
    (hscope : Run.Along step (fun s e => Scheduled item e ∧ Quiet item s e) (start workItems)
      (pre ++ .advance (.thread t) :: post)) :
    item ∉ (after workItems (pre ++ .advance (.thread t) :: post)).shared.queue.nodes ∧
      (after workItems (pre ++ .advance (.thread t) :: post)).worker.item ≠ some item := by
  obtain ⟨hpre, hpost⟩ := Run.along_append.mp hscope
  have hstep : ∀ returned (s : System T W) e, Deinitialising item returned s →
      Scheduled item e ∧ Quiet item s e → Deinitialising item returned (s.step e) :=
    fun _ _ _ h he => h.step he
  have hbefore := Run.after_of_invariant (hstep False) deinitialising_start hpre
  have hreached : Reached item False (after workItems pre) 4 :=
    .of_place hreturn (by simp [stage])
  have hafter := Run.after_of_invariant (hstep True) (hbefore.of_reached hreached) hpost
  rw [← Run.after_append] at hafter
  exact ⟨(hafter.removed (.inl trivial)).1, hafter.awaited (.inl trivial)⟩

/-- A thread calls `Deinit`, up to its last step. -/
def deinitialise (t : T) (item : W) : List (Event T W) :=
  .call (.thread t) (.deinit item) :: replicate 7 (.advance (.thread t))

/-- An item is scheduled, and again while it runs; then `Deinit` is called, takes it out of the
queue and waits. -/
def deinitialiseWhileRunning : List (Event Bool ℕ) :=
  .call (.thread true) (.scheduleNow 0) :: replicate 5 (.advance (.thread true)) ++
    replicate 7 .work ++
    .call (.thread true) (.scheduleNow 0) :: replicate 5 (.advance (.thread true)) ++
    .call (.thread false) (.deinit 0) :: replicate 5 (.advance (.thread false))

instance (item : W) : (e : Event T W) → Decidable (Scheduled item e)
  | .call _ (.add i) => inferInstanceAs (Decidable (i ≠ item))
  | .call .worker (.deinit i) => inferInstanceAs (Decidable (i ≠ item))
  | .call (.thread _) (.deinit _) | .call _ (.scheduleNow _) | .call _ (.remove _)
  | .call _ (.scheduleClear _) | .call _ .clear | .advance _ | .work => isTrue trivial

instance (item : W) (s : System Bool W) : (e : Event Bool W) → Decidable (Quiet item s e)
  | .advance a =>
    decidable_of_iff (s.places a = .resetWq item → (s.places .worker).adds item = false ∧
        ∀ b, (s.places (.thread b)).adds item = false)
      (forall_congr' fun _ => ⟨fun h b => match b with
        | .worker => h.1
        | .thread b => h.2 b, fun h => ⟨h _, fun _ => h _⟩⟩)
  | .call _ _ | .work => isTrue trivial

theorem deinitialised_not_run_while_running :
    let waiting := deinitialiseWhileRunning
    let pre := waiting ++ replicate 2 .work ++ replicate 3 (.advance (.thread false))
    let post := .call (.thread true) (.scheduleNow 0) :: replicate 6 .work
    (after [0, 1] (waiting.take 19)).shared.queue.nodes = [0] ∧
      (after [0, 1] waiting).worker = .running 0 ∧
      (after [0, 1] waiting).places (.thread false) = .awaitRun 0 ∧
      (after [0, 1] pre).places (.thread false) = .detachUnlock 0 ∧
      0 ∉ (after [0, 1] (pre ++ .advance (.thread false) :: post)).shared.queue.nodes ∧
      (after [0, 1] (pre ++ .advance (.thread false) :: post)).worker.item ≠ some 0 := by
  intro waiting pre post
  exact ⟨rfl, rfl, rfl, rfl, deinitialised_not_run [0, 1] 0 false pre post rfl (by decide +kernel)⟩

/-- A timer callback has found `_wq` set when `Deinit` is called on another thread. -/
def deinitialiseDuringSchedule : List (Event Bool ℕ) :=
  .call (.thread true) (.scheduleNow 0) :: deinitialise false 0

/-- The callback goes on and adds the item, and the worker runs it. -/
def addAndRun : List (Event Bool ℕ) :=
  replicate 5 (.advance (.thread true)) ++ replicate 7 .work

theorem deinitialised_item_runs :
    (∀ e ∈ deinitialiseDuringSchedule ++ addAndRun, Scheduled 0 e) ∧
    (after [0, 1] deinitialiseDuringSchedule).places (.thread false) = .detachUnlock 0 ∧
    (after [0, 1] (deinitialiseDuringSchedule ++ .advance (.thread false) :: addAndRun)).worker =
      .running 0 := by
  refine ⟨?_, rfl, rfl⟩
  simp [deinitialiseDuringSchedule, deinitialise, addAndRun, Scheduled]

end System

end Px4.WorkQueue
