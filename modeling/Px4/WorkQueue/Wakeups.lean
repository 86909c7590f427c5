import Px4.WorkQueue.WorkQueue

/-!
# No wakeup of a work queue is lost

The signal for the worker is sent after the lock has been released, and only if the semaphore reads
zero. Still a worker that waits for queued work will be woken: each thread that has queued something
since the last test is still about to send its signal, or has found or left the semaphore positive.
-/

namespace Px4.WorkQueue

open Bool IntrusiveQueue Option Run WorkerPlace

variable {T W : Type}

/-! ## Who has the lock -/

/-- The call is between `work_lock` and `work_unlock`. -/
def Place.holds : Place W → Bool
  | .addPush _ | .addUnlock | .remove _ _ | .removeUnlock _ _ | .clear | .clearUnlock => true
  | .detach _ | .requestStop _ | .stopGetValue _ _ | .stopPost _ _ | .detachUnlock _ => true
  | _ => false

/-- The worker is between `work_lock` and `work_unlock`. -/
def WorkerPlace.holds : WorkerPlace W → Bool
  | .drain | .popped _ | .unlockToRun _ | .unlock => true
  | _ => false

theorem WorkerPlace.isRunning_of_holds {p : WorkerPlace W} (h : p.holds) :
    p.isRunning = false := by
  cases p with
  | running _ => cases h
  | _ => rfl

theorem Place.eq_idle {p : Place W} (h : p.isIdle) : p = .idle := by
  cases p with
  | idle => rfl
  | _ => cases h

/-- How a step of an agent can change the owner of the lock. -/
def LockStep (a : Agent T) (before after : Option (Agent T)) : Prop :=
  after = before ∨ before = none ∧ after = some a ∨ before = some a ∧ after = none

theorem LockStep.other {a b : Agent T} {before after} (h : LockStep a before after) (hne : b ≠ a)
    (hb : before = some b) : after = some b := by
  rcases h with h | ⟨h, -⟩ | ⟨h, -⟩
  · exact h.trans hb
  · cases h.symm.trans hb
  · exact absurd (some.inj (hb.symm.trans h)) hne

variable [DecidableEq W]

namespace Shared

variable {s : Shared T W} {a : Agent T}

variable {π : Type} {here next : π} {request : Request W}

theorem lockStep_acquire (here next : π) :
    LockStep a s.lock (s.acquire a here next).1.lock := by
  rw [acquire]
  split
  · next h => exact .inr (.inl ⟨isNone_iff_eq_none.mp h, rfl⟩)
  · exact .inl rfl

theorem holds_acquire (holds : π → Bool) (h : holds here = false) :
    holds (s.acquire a here next).2 → (s.acquire a here next).1.lock = some a := by
  rw [acquire]
  split
  · exact fun _ => rfl
  · exact fun hholds => absurd (h.symm.trans hholds) false_ne_true

theorem acquire_queue (here next : π) : (s.acquire a here next).1.queue = s.queue := by
  rw [acquire]
  split <;> rfl

theorem acquire_processLock (here next : π) :
    (s.acquire a here next).1.processLock = s.processLock := by
  rw [acquire]
  split <;> rfl

theorem holds_begin : (s.begin request).holds = false := by
  cases request with
  | scheduleNow _ | scheduleClear _ | deinit _ =>
    rw [begin]
    split <;> rfl
  | _ => rfl

end Shared

variable [DecidableEq T]

namespace Shared

variable {s : Shared T W} {a : Agent T}

variable {p : Place W}

theorem lockStep_advance (h : p.holds → s.lock = some a) :
    LockStep a s.lock (s.advance a p).1.lock := by
  cases p with
  | addLock _ | removeLock _ _ | clearLock | detachLock _ => exact lockStep_acquire ..
  | addUnlock | removeUnlock _ _ | clearUnlock | detachUnlock _ => exact .inr (.inr ⟨h rfl, rfl⟩)
  | clear =>
    rw [advance]
    split <;> exact .inl rfl
  | _ => exact .inl rfl

theorem holds_advance (h : p.holds → s.lock = some a) :
    (s.advance a p).2.holds → (s.advance a p).1.lock = some a := by
  cases p with
  | addLock _ | removeLock _ _ | clearLock | detachLock _ => exact holds_acquire _ rfl
  | addPush _ | remove _ _ | detach _ | requestStop _ | stopGetValue _ _ | stopPost _ _ =>
    exact fun _ => h rfl
  | clear =>
    rw [advance]
    split <;> exact fun _ => h rfl
  | getValue | removeUnlock _ _ | awaitRun _ =>
    simp only [advance]
    split <;> exact nofun
  | idle | addUnlock | post | clearUnlock | resetWq _ | detachUnlock _ =>
    exact nofun

variable {p : WorkerPlace W} {inCall : Bool}

omit [DecidableEq T]

section

variable (h : p.holds → s.lock = some .worker)
include h

theorem lockStep_work : LockStep .worker s.lock (s.work inCall p).1.lock := by
  cases p with
  | lock => exact lockStep_acquire ..
  | unlockToRun _ | unlock => exact .inr (.inr ⟨h rfl, rfl⟩)
  | drain | wait =>
    rw [work]
    split <;> exact .inl rfl
  | _ => exact .inl rfl

theorem holds_work :
    (s.work inCall p).2.holds → (s.work inCall p).1.lock = some .worker := by
  cases p with
  | lock => exact holds_acquire _ rfl
  | popped _ => exact fun _ => h rfl
  | drain =>
    rw [work]
    split <;> exact fun _ => h rfl
  | checkExit | wait | running _ =>
    rw [work]
    split <;> exact nofun
  | unlockToRun _ | start _ | finished _ | unlock | exited =>
    exact nofun

end

theorem work_of_isRunning (h : p.isRunning) : (s.work inCall p).1 = s := by
  cases p with
  | running _ => rfl
  | _ => cases h

/-- The `Run` of an item has returned only if it was in no call. -/
theorem inCall_of_work (h : p.isRunning)
    (hnext : (s.work inCall p).2.isRunning = false) : inCall = false := by
  cases p with
  | running _ =>
    cases inCall with
    | false => rfl
    | true => exact absurd hnext (by simp [work, isRunning])
  | _ => cases h

end Shared

open Shared

namespace System

/-- The one thread in a critical section has the lock; an item's `Run` calls only while it runs. -/
structure Exclusive (s : System T W) : Prop where
  place : ∀ a, (s.places a).holds = true → s.shared.lock = some a
  worker : s.worker.holds = true → s.shared.lock = some .worker
  calling : s.worker.isRunning = false → s.places .worker = .idle

variable {s : System T W}

omit [DecidableEq T] in
theorem exclusive_start {workItems : List W} : Exclusive (start (T := T) workItems) :=
  ⟨nofun, nofun, fun _ => rfl⟩

variable (h : Exclusive s)
include h

theorem Exclusive.call (a request) : Exclusive (s.step (.call a request)) := by
  refine ⟨fun b hb => ?_, ?_, fun hrun => ?_⟩
  · rcases s.places_call a request b with hplace | ⟨-, -, hplace⟩
    · rw [hplace] at hb
      rw [shared_call]
      exact h.place b hb
    · rw [hplace, holds_begin] at hb
      cases hb
  · rw [worker_call, shared_call]
    exact h.worker
  · rw [worker_call] at hrun
    rcases s.places_call a request .worker with hplace | ⟨rfl, hcan, -⟩
    · exact hplace.trans (h.calling hrun)
    · simp [canCall, hrun] at hcan

theorem Exclusive.advance (a : Agent T) : Exclusive (s.step (.advance a)) := by
  have hlock := lockStep_advance (h.place a)
  refine ⟨fun b hb => ?_, fun hholds => ?_, fun hrun => ?_⟩
  · by_cases hba : b = a
    · subst hba
      rw [places_advance_self] at hb
      exact holds_advance (h.place b) hb
    · rw [places_advance_other _ _ hba] at hb
      exact hlock.other hba (h.place b hb)
  · by_cases hworker : Agent.worker = a
    · subst hworker
      -- the worker is not in the `Run` of an item, so it is in no call
      rw [shared_advance, h.calling (isRunning_of_holds hholds)]
      exact h.worker hholds
    · exact hlock.other hworker (h.worker hholds)
  · by_cases hworker : Agent.worker = a
    · subst hworker
      rw [places_advance_self, h.calling hrun]
      rfl
    · rw [places_advance_other _ _ hworker]
      exact h.calling hrun

theorem Exclusive.work : Exclusive (s.step .work) := by
  refine ⟨fun b hb => ?_, holds_work h.worker, fun hrun => ?_⟩
  · rw [places_work] at hb
    by_cases hworker : b = .worker
    · subst hworker
      -- the worker is in a call, so it stays in the `Run` of an item
      have hrun : s.worker.isRunning := by
        by_contra hrun
        rw [h.calling (eq_false_iff.mpr hrun)] at hb
        cases hb
      rw [shared_work, work_of_isRunning hrun]
      exact h.place _ hb
    · exact (lockStep_work h.worker).other hworker (h.place b hb)
  · by_cases hbefore : s.worker.isRunning = false
    · exact h.calling hbefore
    · have hcall := inCall_of_work (by simpa using hbefore) hrun
      exact Place.eq_idle (by simpa using hcall)

end System

/-! ## The signal -/

/-- The call has queued an item and is not yet at the end of `SignalWorkerThread`. -/
def Place.signals : Place W → Bool
  | .addUnlock | .getValue | .post => true
  | _ => false

namespace Shared

variable {s : Shared T W} {a : Agent T}

variable {p : Place W}

/-- Only a call that has the lock queues an item, and then it is going to send the signal. -/
theorem nodes_advance (h : (s.advance a p).1.queue.nodes ≠ []) :
    s.queue.nodes ≠ [] ∨ p.holds ∧ (s.advance a p).2.signals := by
  cases p with
  | addPush item => exact .inr ⟨rfl, rfl⟩
  | remove item deinit => exact .inl fun hnil => h (by simp [advance, remove, hnil])
  | clear =>
    refine .inl fun hnil => h ?_
    simp [advance, front_eq, hnil]
  | addLock _ | removeLock _ _ | clearLock | detachLock _ =>
    rw [advance, acquire_queue] at h
    exact .inl h
  | _ => exact .inl h

theorem processLock_advance : s.processLock ≤ (s.advance a p).1.processLock := by
  cases p with
  | addLock _ | removeLock _ _ | clearLock | detachLock _ =>
    exact Nat.le_of_eq (acquire_processLock ..).symm
  | clear =>
    rw [advance]
    split <;> exact Nat.le_refl _
  | post | stopPost _ _ => exact Nat.le_succ _
  | _ => exact Nat.le_refl _

omit [DecidableEq T] in
/-- The worker stops to drain the queue only when it is empty. -/
theorem empty_of_work {inCall p} (h : (s.work inCall p).2 = .unlock) :
    (s.work inCall p).1.queue.nodes = [] := by
  cases p with
  | drain =>
    rw [work] at h ⊢
    split at h
    · next hfront =>
      rw [front_eq, List.head?_eq_none_iff] at hfront
      exact hfront
    · cases h
  | checkExit | wait | lock | running _ =>
    simp only [work, acquire] at h
    split at h <;> cases h
  | _ => cases h

omit [DecidableEq T] in
/-- The worker comes to its wait from the end of the loop. -/
theorem idles_of_work {inCall p}
    (h : (s.work inCall p).2 = .checkExit ∨ (s.work inCall p).2 = .wait) :
    (p = .unlock ∨ p = .checkExit ∨ p = .wait) ∧
      (s.work inCall p).1.queue = s.queue ∧ (s.work inCall p).1.processLock = s.processLock := by
  cases p with
  | unlock => exact ⟨.inl rfl, rfl, rfl⟩
  | checkExit => exact ⟨.inr (.inl rfl), rfl, rfl⟩
  | wait =>
    simp only [work] at h ⊢
    split at h
    · next hzero => simp [hzero]
    · rcases h with h | h <;> cases h
  | drain | lock | running _ =>
    simp only [work, acquire] at h
    split at h <;> rcases h with h | h <;> cases h
  | _ => rcases h with h | h <;> cases h

/-- A call is at the end of its signal only when the semaphore is positive. -/
theorem signals_advance (h : p.signals) :
    (s.advance a p).2.signals ∨ 0 < (s.advance a p).1.processLock := by
  cases p with
  | addUnlock => exact .inl rfl
  | getValue =>
    by_cases hpost : s.needsPost
    · exact .inl (by simp [advance, hpost, Place.signals])
    · have hne : s.processLock ≠ 0 := by simpa [needsPost] using hpost
      exact .inr (Nat.pos_of_ne_zero hne)
  | post => exact .inr (Nat.succ_pos _)
  | _ => cases h

end Shared

namespace System

/-- If something is queued while the worker goes to wait, a signal has been or will be sent. -/
structure Awake (s : System T W) : Prop extends Exclusive s where
  empty : s.worker = .unlock → s.shared.queue.nodes = []
  signalled : s.worker = .checkExit ∨ s.worker = .wait → s.shared.queue.nodes ≠ [] →
    0 < s.shared.processLock ∨ ∃ a, (s.places a).signals = true

variable {s : System T W}

omit [DecidableEq T] in
theorem awake_start {workItems : List W} : Awake (start (T := T) workItems) :=
  ⟨exclusive_start, fun _ => rfl, fun _ h => absurd rfl h⟩

omit [DecidableEq T] in
theorem Exclusive.not_holds (h : Exclusive s) (hworker : s.worker.holds) (a : Agent T) :
    (s.places a).holds = false := by
  by_contra hholds
  have hlock := h.place a (by simpa using hholds)
  obtain rfl : Agent.worker = a := some.inj ((h.worker hworker).symm.trans hlock)
  rw [h.calling (isRunning_of_holds hworker)] at hholds
  exact hholds rfl

variable (h : Awake s)
include h

theorem Awake.call (a : Agent T) (request) : Awake (s.step (.call a request)) := by
  refine ⟨h.toExclusive.call a request, ?_, fun hworker hnodes => ?_⟩
  · rw [worker_call, shared_call]
    exact h.empty
  · rw [worker_call] at hworker
    rw [shared_call] at hnodes ⊢
    refine (h.signalled hworker hnodes).imp_right fun ⟨b, hb⟩ => ⟨b, ?_⟩
    rcases s.places_call a request b with hplace | ⟨rfl, hcan, -⟩
    · rwa [hplace]
    · -- a thread that is sending its signal is in a call
      rw [Place.eq_idle (and_eq_true_iff.mp hcan).1] at hb
      cases hb

theorem Awake.advance (a) : Awake (s.step (.advance a)) := by
  refine ⟨h.toExclusive.advance a, fun hworker => ?_, fun hworker hnodes => ?_⟩
  · by_contra hnodes
    rcases nodes_advance hnodes with hbefore | ⟨hholds, -⟩
    · exact hbefore (h.empty hworker)
    · have hnot := h.not_holds (by rw [show s.worker = .unlock from hworker]; rfl) a
      cases hnot.symm.trans hholds
  · rcases nodes_advance hnodes with hbefore | ⟨-, hsignals⟩
    · rcases h.signalled hworker hbefore with hpos | ⟨b, hb⟩
      · exact .inl (Nat.lt_of_lt_of_le hpos processLock_advance)
      · by_cases hba : b = a
        · subst hba
          refine (signals_advance hb).symm.imp_right fun hsignals => ⟨b, ?_⟩
          rwa [places_advance_self]
        · exact .inr ⟨b, by rwa [places_advance_other _ _ hba]⟩
    · exact .inr ⟨a, by rwa [places_advance_self]⟩

theorem Awake.work : Awake (s.step .work) := by
  refine ⟨h.toExclusive.work, empty_of_work, fun hworker hnodes => ?_⟩
  obtain ⟨hbefore, hqueue, hlock⟩ := idles_of_work hworker
  rw [shared_work, hqueue] at hnodes
  rw [shared_work, hlock]
  rcases hbefore with hbefore | hbefore
  · exact absurd (h.empty hbefore) hnodes
  · exact h.signalled hbefore hnodes

theorem Awake.step (e) : Awake (s.step e) := by
  cases e with
  | call a request => exact h.call a request
  | advance a => exact h.advance a
  | work => exact h.work

end System

/-! ## What has been added is run -/

/-- The item that the worker has popped and runs next. -/
def WorkerPlace.next : WorkerPlace W → Option W
  | .popped item | .unlockToRun item | .start item => some item
  | _ => none

namespace Shared

variable {s : Shared T W} {a : Agent T} {item : W}

variable {p : Place W}

/-- A step of a call other than `Remove` of the item and `Clear` leaves it in the queue. -/
theorem mem_advance (h : item ∈ s.queue.nodes) (hremove : ∀ deinit, p ≠ .remove item deinit)
    (hclear : p = .clear → s.queue.front ≠ some item) : item ∈ (s.advance a p).1.queue.nodes := by
  cases p with
  | addPush other => exact mem_push_of_mem h
  | remove other deinit =>
    have hne : item ≠ other := fun heq => hremove deinit (heq ▸ rfl)
    exact (List.mem_erase_of_ne hne).mpr h
  | clear =>
    rw [advance]
    split
    · exact h
    · exact mem_pop h (hclear rfl)
  | addLock _ | removeLock _ _ | clearLock | detachLock _ =>
    rw [advance, acquire_queue]
    exact h
  | _ => exact h

omit [DecidableEq T] in
/-- The worker takes an item out of the queue in order to run it. -/
theorem mem_work {inCall p} (h : item ∈ s.queue.nodes) :
    item ∈ (s.work inCall p).1.queue.nodes ∨ (s.work inCall p).2.next = some item := by
  cases p with
  | drain =>
    rw [work]
    split
    · exact .inl h
    next front hfront =>
    by_cases heq : front = item
    · exact .inr (congrArg some heq)
    · have hne : s.queue.front ≠ some item := fun h => heq (some.inj (hfront.symm.trans h))
      exact .inl (mem_pop h hne)
  | lock =>
    rw [work, acquire_queue]
    exact .inl h
  | wait =>
    rw [work]
    split <;> exact .inl h
  | _ => exact .inl h

omit [DecidableEq T] in
theorem next_work {inCall p} (h : p.next = some item) (hstart : p ≠ .start item) :
    (s.work inCall p).2.next = some item := by
  cases p with
  | popped _ | unlockToRun _ => exact h
  | start other => exact absurd (congrArg start (some.inj h)) hstart
  | _ => cases h

end Shared

namespace System

variable {s : System T W} {item : W}

/-- The event begins the `Run` of the item. -/
def Starts (item : W) (s : System T W) (e : Event T W) : Prop :=
  e = .work ∧ s.worker = .start item

/-- The event takes the item out of the queue, in `Remove` or in `Clear`. -/
def Undoes (item : W) (s : System T W) (e : Event T W) : Prop :=
  ∃ a, e = .advance a ∧ item ∈ s.shared.queue.nodes ∧
    ((∃ deinit, s.places a = .remove item deinit) ∨
      s.places a = .clear ∧ s.shared.queue.front = some item)

/-- The item is queued, or it is what the worker runs next. -/
def Pending (item : W) (s : System T W) : Prop :=
  item ∈ s.shared.queue.nodes ∨ s.worker.next = some item

variable {e : Event T W}

theorem Pending.step (h : Pending item s)
    (he : ¬Starts item s e ∧ ¬Undoes item s e) : Pending item (s.step e) := by
  obtain ⟨hstart, hundo⟩ := he
  cases e with
  | call a request =>
    rw [Pending, shared_call, worker_call]
    exact h
  | advance a =>
    rcases h with hmem | hnext
    · refine .inl (mem_advance hmem (fun deinit hplace => ?_) fun hplace hfront => ?_)
      · exact hundo ⟨a, rfl, hmem, .inl ⟨deinit, hplace⟩⟩
      · exact hundo ⟨a, rfl, hmem, .inr ⟨hplace, hfront⟩⟩
    · exact .inr hnext
  | work =>
    rcases h with hmem | hnext
    · exact mem_work hmem
    · exact .inr (next_work hnext fun hworker => hstart ⟨rfl, hworker⟩)

/-- The worker does not sleep while something is queued, unless its signal is still to come; and an
item stays queued, or next in turn, until its `Run` has begun. -/
theorem no_wakeup_lost (workItems : List W) (es : List (Event T W)) :
    ((after workItems es).shared.queue.front.isSome = true →
      0 < (after workItems es).shared.processLock ∨ (after workItems es).worker ≠ .wait ∨
        ∃ a, ((after workItems es).places a).signals = true) ∧
    ∀ pre a post item, es = pre ++ .advance a :: post →
      (after workItems pre).places a = .addPush item →
      Run.Along step (fun s e => ¬Starts item s e ∧ ¬Undoes item s e)
        (after workItems (pre ++ [.advance a])) post →
      Pending item (after workItems es) := by
  constructor
  · intro hfront
    have hawake : Awake (after workItems es) := after_of_invariant
      (fun _ e h _ => h.step e) awake_start (along_of_forall fun _ _ => trivial)
    by_cases hwait : (after workItems es).worker = .wait
    · have hnodes : (after workItems es).shared.queue.nodes ≠ [] := by
        rw [front_eq] at hfront
        simpa using hfront
      exact (hawake.signalled (.inr hwait) hnodes).imp_right .inr
    · exact .inr (.inl hwait)
  · rintro pre a post item rfl hplace halong
    have hpush : Pending item (after workItems (pre ++ [.advance a])) := by
      rw [after, after_append, ← after, after_cons, after_nil]
      refine .inl ?_
      rw [shared_advance, hplace]
      exact mem_push
    have := after_of_invariant (fun _ _ h he => h.step he) hpush halong
    rwa [after, ← after_append, List.append_assoc] at this

end System

end Px4.WorkQueue
