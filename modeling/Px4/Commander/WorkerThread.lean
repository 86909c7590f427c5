import Px4.Common.Run

/-!
# The worker thread of the commander

`src/modules/commander/worker_thread.{hpp,cpp}`: `startTask` creates a thread, and the commander
asks later if there is a result. `_state` is written by both: by `startTask` after the thread is
created, and by the thread when it is done. If the thread is done first, its result is not reported.

What a task does is left out, but for its result. The commander thread makes one call at a time.
-/

namespace Px4.Commander

inductive WorkerRequest where
  | gyroCalibration
  | magCalibration
  | rcTrimCalibration
  | accelCalibration
  | levelCalibration
  | accelCalibrationQuick
  | airspeedCalibration
  | escCalibration
  | magCalibrationQuick
  | baroCalibration
  | paramLoadDefault
  | paramSaveDefault
  | paramResetAll
  | paramResetSensorFactory
  | paramResetAllConfig
deriving DecidableEq

inductive WorkerState where
  | idle
  | running
  | finished
deriving DecidableEq

structure WorkerThread where
  state : WorkerState := .idle
  retValue : Int32 := 0
  request : WorkerRequest := .gyroCalibration

namespace WorkerThread

def isBusy (w : WorkerThread) : Bool := w.state ≠ .idle

def hasResult (w : WorkerThread) : Bool := w.state = .finished

def getResultAndReset (w : WorkerThread) : WorkerThread × Int32 :=
  ({ w with state := .idle }, w.retValue)

/-- What `threadEntry` makes of the value that is returned: blank storage is not an error. -/
def taskResult (request : WorkerRequest) (ret : Int32) : Int32 :=
  if request = .paramLoadDefault ∧ ret = 1 then 0 else ret

/-! ## The two threads -/

/-- Where the commander thread is in `startTask`. -/
inductive Starter where
  | outside
  /-- about to call `pthread_create` -/
  | creating
  /-- about to write `_state`, after `pthread_create` has returned a value -/
  | storing (ret : Int32)
deriving DecidableEq

/-- Where the created thread is in `threadEntry`. -/
inductive Entry where
  /-- about to run the task -/
  | started
  /-- about to write `_state` -/
  | storing
deriving DecidableEq

/-- The task that was started last and whose result was not fetched. -/
inductive Task where
  | none
  | running
  | done (result : Int32)
deriving DecidableEq

/-- The worker and the places of the two threads. -/
structure System where
  worker : WorkerThread := {}
  starter : Starter := .outside
  thread : Option Entry := none
  task : Task := .none

/-- A call of the commander or a step of a thread, with the result of what it calls. -/
inductive Event where
  | startTask (request : WorkerRequest)
  | create (ret : Int32)
  | store
  | runTask (ret : Int32)
  | finish
  | getResultAndReset

namespace System

/-- `startTask` up to `pthread_create`. -/
def startTask (s : System) (request : WorkerRequest) : System :=
  if s.starter = .outside ∧ !s.worker.isBusy then
    { s with worker := { s.worker with request }, starter := .creating, task := .running }
  else s

def create (s : System) (ret : Int32) : System :=
  if s.starter = .creating then
    { s with
      starter := .storing ret
      thread := if ret = 0 then some .started else s.thread }
  else s

/-- The rest of `startTask`. -/
def store (s : System) : System :=
  match s.starter with
  | .storing ret =>
    if ret = 0 then
      { s with worker := { s.worker with state := .running }, starter := .outside }
    else
      { s with
        worker := { s.worker with state := .finished, retValue := ret }
        starter := .outside
        task := .done ret }
  | _ => s

/-- `threadEntry` up to the last write. -/
def runTask (s : System) (ret : Int32) : System :=
  if s.thread = some .started then
    let result := taskResult s.worker.request ret
    { s with
      worker := { s.worker with retValue := result }
      thread := some .storing
      task := .done result }
  else s

/-- The last write of `threadEntry`. -/
def finish (s : System) : System :=
  if s.thread = some .storing then
    { s with worker := { s.worker with state := .finished }, thread := none }
  else s

/-- `getResultAndReset`. -/
def fetch (s : System) : System :=
  if s.starter = .outside then { s with worker := s.worker.getResultAndReset.1, task := .none }
  else s

def step (s : System) : Event → System
  | .startTask request => s.startTask request
  | .create ret => s.create ret
  | .store => s.store
  | .runTask ret => s.runTask ret
  | .finish => s.finish
  | .getResultAndReset => s.fetch

/-- `startTask` and `threadEntry` have returned. -/
def Returned (s : System) : Prop := s.starter = .outside ∧ s.thread = none
deriving Decidable

/-- A result is fetched after both have returned. -/
def Later (s : System) : Event → Prop
  | .getResultAndReset => s.Returned
  | _ => True

instance (s : System) : (e : Event) → Decidable (s.Later e)
  | .getResultAndReset => inferInstanceAs (Decidable s.Returned)
  | .startTask _ | .create _ | .store | .runTask _ | .finish => isTrue trivial

/-- `threadEntry` writes `_state` after `startTask` has. -/
def InOrder (s : System) : Event → Prop
  | .finish => s.starter = .outside
  | _ => True

instance (s : System) : (e : Event) → Decidable (s.InOrder e)
  | .finish => inferInstanceAs (Decidable (_ = _))
  | .startTask _ | .create _ | .store | .runTask _ | .getResultAndReset => isTrue trivial

/-- A task whose threads have returned is reported. -/
def Reported (s : System) : Prop :=
  s.Returned → s.task ≠ .none → s.worker.hasResult = true
deriving Decidable

/-- What is fetched is the result of the task, and the worker accepts the next request then. -/
def Fetches (s : System) : Event → Prop
  | .getResultAndReset =>
    (∀ result, s.task = .done result → s.worker.getResultAndReset.2 = result) ∧
      ∀ request, ((s.step .getResultAndReset).step (.startTask request)).starter = .creating
  | _ => True

/-- The configurations in which the writes are in order. -/
inductive Inv : System → Prop where
  | idle {w : WorkerThread} (hstate : w.state = .idle) :
      Inv { worker := w, starter := .outside, thread := none, task := .none }
  | creating {w : WorkerThread} (hstate : w.state = .idle) :
      Inv { worker := w, starter := .creating, thread := none, task := .running }
  | failed {w : WorkerThread} {ret : Int32} (hret : ret ≠ 0) :
      Inv { worker := w, starter := .storing ret, thread := none, task := .running }
  | early {w : WorkerThread} :
      Inv { worker := w, starter := .storing 0, thread := some .started, task := .running }
  | earlyDone {w : WorkerThread} :
      Inv { worker := w, starter := .storing 0, thread := some .storing, task := .done w.retValue }
  | running {w : WorkerThread} (hstate : w.state = .running) :
      Inv { worker := w, starter := .outside, thread := some .started, task := .running }
  | done {w : WorkerThread} (hstate : w.state = .running) :
      Inv { worker := w, starter := .outside, thread := some .storing, task := .done w.retValue }
  | finished {w : WorkerThread} (hstate : w.state = .finished) :
      Inv { worker := w, starter := .outside, thread := none, task := .done w.retValue }

variable {s : System} {e : Event}

section

variable (h : Inv s)
include h

theorem Inv.startTask (request) : Inv (s.startTask request) := by
  unfold System.startTask
  split_ifs with hstart
  · -- only an idle worker is not busy
    cases h with
    | idle hstate => exact .creating hstate
    | running hstate | done hstate | finished hstate => simp [isBusy, hstate] at hstart
    | creating | failed | early | earlyDone => simp at hstart
  · exact h

theorem Inv.create (ret) : Inv (s.create ret) := by
  unfold System.create
  split_ifs with hstarter hret
  · cases h with
    | creating =>
      subst hret
      exact .early
    | _ => cases hstarter
  · cases h with
    | creating => exact .failed hret
    | _ => cases hstarter
  · exact h

theorem Inv.store : Inv s.store := by
  cases h with
  | idle hstate => exact .idle hstate
  | creating hstate => exact .creating hstate
  | failed hret =>
    unfold System.store
    dsimp only
    rw [if_neg hret]
    exact .finished rfl
  | early => exact .running rfl
  | earlyDone => exact .done rfl
  | running hstate => exact .running hstate
  | done hstate => exact .done hstate
  | finished hstate => exact .finished hstate

theorem Inv.runTask (ret) : Inv (s.runTask ret) := by
  unfold System.runTask
  split_ifs with hthread
  · cases h with
    | early => exact .earlyDone
    | running hstate => exact .done hstate
    | _ => cases hthread
  · exact h

theorem Inv.finish (horder : s.starter = .outside) : Inv s.finish := by
  unfold System.finish
  split_ifs with hthread
  · cases h with
    | done => exact .finished rfl
    | earlyDone => cases horder
    | _ => cases hthread
  · exact h

end

theorem inv_fetch (hlater : s.Returned) : Inv s.fetch := by
  obtain ⟨hstarter, hthread⟩ := hlater
  rw [System.fetch, hstarter, hthread]
  exact .idle rfl

theorem Inv.step (h : Inv s) (hlater : s.Later e) (horder : s.InOrder e) : Inv (s.step e) := by
  cases e with
  | startTask request => exact h.startTask request
  | create ret => exact h.create ret
  | store => exact h.store
  | runTask ret => exact h.runTask ret
  | finish => exact h.finish horder
  | getResultAndReset => exact inv_fetch hlater

theorem Inv.reported (h : Inv s) : s.Reported := by
  rintro ⟨hstarter, hthread⟩ htask
  cases h with
  | idle => exact absurd rfl htask
  | finished hstate => simp [hasResult, hstate]
  | creating | failed | early | earlyDone => cases hstarter
  | running | done => cases hthread

theorem Inv.fetches (h : Inv s) (hlater : s.Later e) : s.Fetches e := by
  cases e with
  | getResultAndReset =>
    obtain ⟨hstarter, hthread⟩ := hlater
    refine ⟨fun result htask => ?_, fun request => ?_⟩
    · cases h with
      | finished | done | earlyDone =>
        cases htask
        rfl
      | _ => cases htask
    · simp [System.step, System.fetch, System.startTask, WorkerThread.getResultAndReset, isBusy,
        hstarter]
  | _ => trivial

/-- **A finished task is reported**, if `threadEntry` writes the state after `startTask` has: once
both have returned there is the result of the task until it is fetched, and then the worker accepts
the next request. -/
theorem finished_task_reported (es : List Event) (hlater : Run.Along step Later {} es)
    (horder : Run.Along step InOrder {} es) :
    Run.Always step Reported {} es ∧ Run.Along step Fetches {} es := by
  have hinit : Inv {} := .idle rfl
  refine ⟨?_, ?_⟩
  · exact Run.always_of_invariant (fun s e h he => h.step he.1 he.2) (fun s h => h.reported)
      hinit (hlater.and horder)
  · exact Run.along_of_invariant (fun s e h he => h.step he.1 he.2) (fun s e h he => h.fetches he.1)
      hinit (hlater.and horder)

/-- A task that returns 3 is started and fetched, and a second one for which there is no thread. -/
def twoTasks : List Event :=
  [.startTask .gyroCalibration, .create 0, .store, .runTask 3, .finish, .getResultAndReset,
   .startTask .paramLoadDefault, .create 11, .store]

theorem finished_task_reported_twoTasks :
    Run.Always step Reported {} twoTasks ∧
      (Run.after step {} (twoTasks.take 5)).worker.getResultAndReset.2 = 3 ∧
      (Run.after step {} twoTasks).worker.getResultAndReset.2 = 11 :=
  ⟨(finished_task_reported twoTasks (by decide) (by decide)).1, by decide, by decide⟩

/-- The thread is done before `startTask` has written the state. -/
def quickTask : List Event :=
  [.startTask .paramSaveDefault, .create 0, .runTask 0, .finish, .store]

/-- The state is `Running` for good: there is no result, and no other request is accepted. -/
theorem finished_task_lost :
    Run.Along step Later {} quickTask ∧ ¬ (Run.after step {} quickTask).Reported ∧
      (Run.after step {} quickTask).worker.isBusy = true := by
  decide

end System

end WorkerThread

end Px4.Commander
