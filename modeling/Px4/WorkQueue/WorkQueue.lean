import Px4.Common.Run
import Px4.WorkQueue.IntrusiveQueue

/-!
# The work queue

`WorkQueue` of `platforms/common/px4_work_queue/WorkQueue.cpp` and the scheduling functions of
`WorkItem`, as a system of threads: the worker, which executes `Run`, and any other threads. The
`Run` of a work item makes calls as well, on the worker. One step of a thread is one access to what
the threads share. The semaphore `_process_lock` counts from zero. A thread that cannot go on stays
where it is; so does the worker when its wait is interrupted by a signal.

The items are attached before; what `WorkQueueRunner` does after `Run` has returned and the counters
of the lockstep scheduler and of `RunPreamble` are left out.
-/

namespace Px4.WorkQueue

open Function

/-- Who takes a step; the `Run` of an item runs as the worker. -/
inductive Agent (T : Type) where
  | worker
  | thread (t : T)
deriving DecidableEq

/-- What the threads share: the members of the queue, its lock and those of the items. -/
structure Shared (T W : Type) [DecidableEq W] where
  queue : IntrusiveQueue W := {}
  lock : Option (Agent T) := none
  processLock : ℕ := 0
  shouldExit : Bool := false
  workItems : List W
  /-- whether `_wq` of the item points to this queue -/
  wq : W → Bool
  runInProgress : W → Bool := fun _ => false

/-- What a thread can call. -/
inductive Request (W : Type) where
  /-- `WorkQueue::Add` -/
  | add (item : W)
  /-- `WorkItem::ScheduleNow` -/
  | scheduleNow (item : W)
  /-- `WorkQueue::Remove` -/
  | remove (item : W)
  /-- `WorkItem::ScheduleClear` -/
  | scheduleClear (item : W)
  /-- `WorkQueue::Clear` -/
  | clear
  /-- `WorkItem::Deinit` -/
  | deinit (item : W)

/-- The place of a thread in a call: what it does next. -/
inductive Place (W : Type) where
  | idle
  -- `Add`
  | addLock (item : W)
  | addPush (item : W)
  | addUnlock
  -- `SignalWorkerThread`
  | getValue
  | post
  -- `Remove`, also as a part of `Deinit`
  | removeLock (item : W) (deinit : Bool)
  | remove (item : W) (deinit : Bool)
  | removeUnlock (item : W) (deinit : Bool)
  -- `Clear`
  | clearLock
  | clear
  | clearUnlock
  -- `Deinit`, after it has found that `_wq` is set
  | resetWq (item : W)
  | awaitRun (item : W)
  -- `Detach`, at the end of `Deinit`; the signal is sent in `request_stop` and once more
  | detachLock (item : W)
  | detach (item : W)
  | requestStop (item : W)
  | stopGetValue (item : W) (again : Bool)
  | stopPost (item : W) (again : Bool)
  | detachUnlock (item : W)
deriving DecidableEq

/-- The place of the worker in `Run`. -/
inductive WorkerPlace (W : Type) where
  | checkExit
  | wait
  | lock
  /-- at the test for an empty queue and `pop` -/
  | drain
  | popped (item : W)
  | unlockToRun (item : W)
  /-- about to call `Run` of the item -/
  | start (item : W)
  | running (item : W)
  | finished (item : W)
  | unlock
  | exited

variable {T W : Type} [DecidableEq T] [DecidableEq W]

namespace Shared

variable (s : Shared T W)

/-- Take the lock if it is free, and then go on at `next`. -/
def acquire {π : Type} (a : Agent T) (here next : π) : Shared T W × π :=
  if s.lock.isNone then ({ s with lock := some a }, next) else (s, here)

def release : Shared T W := { s with lock := none }

/-- `px4_sem_getvalue` in `SignalWorkerThread`, and whether it is followed by a post. -/
def needsPost : Bool := s.processLock = 0

def semPost : Shared T W := { s with processLock := s.processLock + 1 }

/-- The beginning of a call, up to the first access to the queue. -/
def begin : Request W → Place W
  | .add item => .addLock item
  | .scheduleNow item => if s.wq item then .addLock item else .idle
  | .remove item => .removeLock item false
  | .scheduleClear item => if s.wq item then .removeLock item false else .idle
  | .clear => .clearLock
  | .deinit item => if s.wq item then .resetWq item else .idle

/-- Where a thread goes on in `Detach` after a signal. -/
def afterSignal (item : W) (again : Bool) : Place W :=
  if again then .stopGetValue item false else .detachUnlock item

/-- The next step of a call. -/
def advance (a : Agent T) : Place W → Shared T W × Place W
  | .idle => (s, .idle)
  | .addLock item => s.acquire a (.addLock item) (.addPush item)
  | .addPush item => ({ s with queue := s.queue.push item }, .addUnlock)
  | .addUnlock => (s.release, .getValue)
  | .getValue => (s, if s.needsPost then .post else .idle)
  | .post => (s.semPost, .idle)
  | .removeLock item deinit => s.acquire a (.removeLock item deinit) (.remove item deinit)
  | .remove item deinit =>
    ({ s with queue := s.queue.remove item }, .removeUnlock item deinit)
  | .removeUnlock item deinit => (s.release, if deinit then .awaitRun item else .idle)
  | .clearLock => s.acquire a .clearLock .clear
  | .clear =>
    if s.queue.front.isNone then (s, .clearUnlock) else ({ s with queue := s.queue.pop }, .clear)
  | .clearUnlock => (s.release, .idle)
  | .resetWq item => ({ s with wq := update s.wq item false }, .removeLock item true)
  | .awaitRun item =>
    (s, if a ≠ .worker && s.runInProgress item then .awaitRun item else .detachLock item)
  | .detachLock item => s.acquire a (.detachLock item) (.detach item)
  | .detach item =>
    ({ s with workItems := s.workItems.erase item },
      if (s.workItems.erase item).isEmpty then .requestStop item else .detachUnlock item)
  | .requestStop item => ({ s with shouldExit := true }, .stopGetValue item true)
  | .stopGetValue item again =>
    (s, if s.needsPost then .stopPost item again else afterSignal item again)
  | .stopPost item again => (s.semPost, afterSignal item again)
  | .detachUnlock _ => (s.release, .idle)

/-- The next step of `Run`. The `Run` of an item returns when it is in no call. -/
def work (inCall : Bool) : WorkerPlace W → Shared T W × WorkerPlace W
  | .checkExit => (s, if s.shouldExit then .exited else .wait)
  | .wait =>
    if s.processLock = 0 then (s, .wait)
    else ({ s with processLock := s.processLock - 1 }, .lock)
  | .lock => s.acquire .worker .lock .drain
  | .drain =>
    match s.queue.front with
    | none => (s, .unlock)
    | some item => ({ s with queue := s.queue.pop }, .popped item)
  | .popped item =>
    ({ s with runInProgress := update s.runInProgress item true }, .unlockToRun item)
  | .unlockToRun item => (s.release, .start item)
  | .start item => (s, .running item)
  | .running item => (s, if inCall then .running item else .finished item)
  | .finished item =>
    ({ s with runInProgress := update s.runInProgress item false }, .lock)
  | .unlock => (s.release, .checkExit)
  | .exited => (s, .exited)

end Shared

def Place.isIdle : Place W → Bool
  | .idle => true
  | _ => false

def WorkerPlace.isRunning : WorkerPlace W → Bool
  | .running _ => true
  | _ => false

/-- The queue with the places of all threads. -/
structure System (T W : Type) [DecidableEq W] where
  shared : Shared T W
  worker : WorkerPlace W := .checkExit
  places : Agent T → Place W := fun _ => .idle

inductive Event (T W : Type) where
  /-- a thread, or the `Run` of an item, begins a call -/
  | call (a : Agent T) (request : Request W)
  /-- a call takes its next step -/
  | advance (a : Agent T)
  /-- `Run` of the queue takes its next step -/
  | work

namespace System

/-- Whether the agent can begin a call. The worker does so only in the `Run` of an item. -/
def canCall (s : System T W) (a : Agent T) : Bool :=
  (s.places a).isIdle && (a ≠ .worker || s.worker.isRunning)

def step (s : System T W) : Event T W → System T W
  | .call a request =>
    if s.canCall a then { s with places := update s.places a (s.shared.begin request) }
    else s
  | .advance a =>
    { s with
      shared := (s.shared.advance a (s.places a)).1
      places := update s.places a (s.shared.advance a (s.places a)).2 }
  | .work =>
    { s with
      shared := (s.shared.work (!(s.places .worker).isIdle) s.worker).1
      worker := (s.shared.work (!(s.places .worker).isIdle) s.worker).2 }

section Step

variable (s : System T W) (a : Agent T) (request : Request W)

@[simp]
theorem shared_call : (s.step (.call a request)).shared = s.shared := by
  rw [step]
  split <;> rfl

@[simp]
theorem worker_call : (s.step (.call a request)).worker = s.worker := by
  rw [step]
  split <;> rfl

theorem places_call (b) :
    (s.step (.call a request)).places b = s.places b ∨ b = a ∧ s.canCall a ∧
      (s.step (.call a request)).places b = s.shared.begin request := by
  rw [step]
  split
  · next hcan =>
    by_cases hba : b = a
    · subst hba
      exact .inr ⟨rfl, hcan, update_self ..⟩
    · exact .inl (update_of_ne hba ..)
  · exact .inl rfl

@[simp]
theorem shared_advance : (s.step (.advance a)).shared = (s.shared.advance a (s.places a)).1 := rfl

@[simp]
theorem worker_advance : (s.step (.advance a)).worker = s.worker := rfl

theorem places_advance_self :
    (s.step (.advance a)).places a = (s.shared.advance a (s.places a)).2 :=
  update_self ..

variable {b : Agent T}

theorem places_advance_other (h : b ≠ a) : (s.step (.advance a)).places b = s.places b :=
  update_of_ne h ..

theorem shared_work :
    (s.step .work).shared = (s.shared.work (!(s.places .worker).isIdle) s.worker).1 := rfl

@[simp]
theorem places_work : (s.step .work).places = s.places := rfl

end Step

/-- A queue with these items, none of which is queued. -/
def start (workItems : List W) : System T W where
  shared := { workItems, wq := fun item => item ∈ workItems }

def after (workItems : List W) (es : List (Event T W)) : System T W :=
  Run.after step (start workItems) es

end System

end Px4.WorkQueue
