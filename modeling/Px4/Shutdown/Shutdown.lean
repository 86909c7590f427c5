import Px4.Common.Run
import Px4.Commander.FailsafeFlags

/-!
# Shutdown

`platforms/common/shutdown.cpp`: a reboot or shutdown request sets flags and a time and queues a
worker. The worker runs again every 10 ms until the time has passed, the hooks agree and no shutdown
lock is held, or until it has waited for 5 s longer. The lock is a counter. A watchdog that is
started when the counter leaves zero sets it back to zero after 60 s.

Each function runs under `shutdown_mutex`, so it is one step. The watchdog callback is two steps,
since its work item is taken from the queue before it waits for the mutex. A call whose
`pthread_mutex_lock` fails does nothing and is left out. Both requests are available
(`CONFIG_BOARDCTL_RESET`, `BOARD_HAS_POWER_CONTROL`), and the action does not return.
-/

namespace Px4.Shutdown

open Commander (HrtAbstime)

inductive RebootRequest where
  | rebootRequest
  | rebootToBootloader
  | rebootToIsp
deriving DecidableEq

/-- What `shutdown_worker` does in the end. -/
inductive Action where
  | powerOff
  | reset (request : RebootRequest)
deriving DecidableEq

/-- The bits of `shutdown_args`. -/
structure ShutdownArgs where
  inProgress : Bool := false
  reboot : Bool := false
  toBootloader : Bool := false
  toIsp : Bool := false

/-- The action that the bits stand for. -/
def ShutdownArgs.action (args : ShutdownArgs) : Action :=
  if args.reboot then
    if args.toBootloader then .reset .rebootToBootloader
    else if args.toIsp then .reset .rebootToIsp
    else .reset .rebootRequest
  else .powerOff

def shutdownLockWatchdog : ℕ := 60000000

def shutdownTimeoutUs : HrtAbstime := 5000000

/-- The static variables. A work item is queued or not; the watchdog also has a due time, and its
callback may be on the way to the mutex. -/
structure Vars where
  shutdownLockCounter : UInt8 := 0
  shutdownLockWatchdogCbTriggered : Bool := false
  watchdogDue : Option ℕ := none
  watchdogTaken : Bool := false
  shutdownArgs : ShutdownArgs := {}
  shutdownTimeUs : HrtAbstime := 0
  workQueued : Bool := false
  executed : Option Action := none

namespace Vars

variable (s : Vars) (now : HrtAbstime)

/-! ## The lock -/

/-- `px4_shutdown_lock`, and if it returns zero. -/
def shutdownLock (queued : Bool) : Vars × Bool :=
  let locked := { s with
    shutdownLockCounter := s.shutdownLockCounter + 1
    shutdownLockWatchdogCbTriggered := false }
  if s.shutdownLockCounter = 0 then
    if queued then ({ locked with watchdogDue := some (now.toNat + shutdownLockWatchdog) }, true)
    else (s, false)
  else (locked, true)

def shutdownUnlock : Vars :=
  if s.shutdownLockCounter > 0 then
    let s := { s with shutdownLockCounter := s.shutdownLockCounter - 1 }
    if s.shutdownLockCounter = 0 then { s with watchdogDue := none } else s
  else s

/-- The work queue takes the watchdog when it is due. -/
def takeWatchdog : Vars :=
  match s.watchdogDue with
  | none => s
  | some due =>
    if due ≤ now.toNat ∧ !s.watchdogTaken then { s with watchdogDue := none, watchdogTaken := true }
    else s

def shutdownLockWatchdogCb : Vars :=
  if s.watchdogTaken then
    let s := { s with watchdogTaken := false }
    if s.shutdownLockCounter ≠ 0 then
      { s with shutdownLockCounter := 0, shutdownLockWatchdogCbTriggered := true }
    else s
  else s

/-! ## Requests -/

/-- The end of both requests: the time and the work item. -/
def schedule (delayUs : UInt32) (queued : Bool) : Vars :=
  { s with shutdownTimeUs := now + delayUs.toUInt64, workQueued := queued }

/-- The bits that `px4_reboot_request` sets. -/
def rebootArgs (args : ShutdownArgs) : RebootRequest → ShutdownArgs
  | .rebootRequest => { args with reboot := true }
  | .rebootToBootloader => { args with reboot := true, toBootloader := true }
  | .rebootToIsp => { args with reboot := true, toIsp := true }

/-- `px4_reboot_request`. It does not set `SHUTDOWN_ARG_IN_PROGRESS`. -/
def rebootRequest (request : RebootRequest) (delayUs : UInt32) (now : HrtAbstime)
    (queued : Bool) : Vars :=
  if !s.shutdownArgs.inProgress then
    { s with shutdownArgs := rebootArgs s.shutdownArgs request }.schedule now delayUs queued
  else s

def shutdownRequest (delayUs : UInt32) (now : HrtAbstime) (queued : Bool) : Vars :=
  if !s.shutdownArgs.inProgress then
    { s with shutdownArgs := { s.shutdownArgs with inProgress := true } }.schedule now delayUs
      queued
  else s

/-- The condition of `shutdown_worker`; `done` says that the hooks agree. -/
def mayExecute (done : Bool) : Bool :=
  now > s.shutdownTimeUs &&
    (done && s.shutdownLockCounter == 0 || now > s.shutdownTimeUs + shutdownTimeoutUs)

/-- `shutdown_worker`, when the work queue takes it. It queues itself again after it has released
the mutex, unless a request in between has done so. -/
def shutdownWorker (done queued : Bool) : Vars :=
  if s.workQueued then
    if s.mayExecute now done then
      { s with workQueued := false, executed := some s.shutdownArgs.action }
    else { s with workQueued := queued }
  else s

end Vars

/-! ## Runs -/

/-- A lock that a thread has taken and not given back. -/
structure Hold (T : Type*) where
  thread : T
  since : HrtAbstime
  /-- the watchdog has set the counter to zero since -/
  released : Bool := false

/-- The variables, the locks, the time, and the first accepted request: its action and time. -/
structure System (T : Type*) where
  vars : Vars := {}
  holds : List (Hold T) := []
  clock : HrtAbstime := 0
  first : Option (Action × HrtAbstime) := none

/-- A call, or something that the work queue does. -/
inductive Event (T : Type*) where
  | lock (t : T) (now : HrtAbstime) (queued : Bool)
  | unlock (t : T) (now : HrtAbstime)
  | takeWatchdog (now : HrtAbstime)
  | watchdogCb (now : HrtAbstime)
  | rebootRequest (request : RebootRequest) (delayUs : UInt32) (now : HrtAbstime) (queued : Bool)
  | shutdownRequest (delayUs : UInt32) (now : HrtAbstime) (queued : Bool)
  | worker (now : HrtAbstime) (done queued : Bool)

/-- When an event happens. -/
def Event.now {T : Type*} : Event T → HrtAbstime
  | lock _ now _ | unlock _ now | takeWatchdog now | watchdogCb now | rebootRequest _ _ now _
  | shutdownRequest _ now _ | worker now _ _ => now

namespace System

variable {T : Type*} [DecidableEq T]

/-- Note a request, if it is the first one. -/
def request (s : System T) (action : Action) (time : HrtAbstime) : Option (Action × HrtAbstime) :=
  s.first.or (some (action, time))

/-- One event, in a system that has not been shut down. -/
def stepRunning (s : System T) : Event T → System T
  | .lock t now queued =>
    let result := s.vars.shutdownLock now queued
    { s with
      vars := result.1
      holds := if result.2 then { thread := t, since := now } :: s.holds else s.holds
      clock := now }
  | .unlock t now =>
    { s with
      vars := s.vars.shutdownUnlock
      holds := s.holds.eraseP fun hold => hold.thread = t
      clock := now }
  | .takeWatchdog now => { s with vars := s.vars.takeWatchdog now, clock := now }
  | .watchdogCb now =>
    { s with
      vars := s.vars.shutdownLockWatchdogCb
      holds :=
        if s.vars.watchdogTaken ∧ s.vars.shutdownLockCounter ≠ 0 then
          s.holds.map fun hold => { hold with released := true }
        else s.holds
      clock := now }
  | .rebootRequest request delayUs now queued =>
    { s with
      vars := s.vars.rebootRequest request delayUs now queued
      clock := now
      first := s.request (.reset request) (now + delayUs.toUInt64) }
  | .shutdownRequest delayUs now queued =>
    { s with
      vars := s.vars.shutdownRequest delayUs now queued
      clock := now
      first := s.request .powerOff (now + delayUs.toUInt64) }
  | .worker now done queued =>
    { s with vars := s.vars.shutdownWorker now done queued, clock := now }

/-- One event. Nothing happens after the shutdown. -/
def step (s : System T) (e : Event T) : System T :=
  if s.vars.executed.isSome then s else s.stepRunning e

end System

end Px4.Shutdown
