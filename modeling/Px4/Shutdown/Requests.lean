import Px4.Shutdown.Shutdown

/-!
# The request that decides

`px4_shutdown_request` marks the shutdown as in progress, and later requests are ignored.
`px4_reboot_request` does not, so a request that follows one adds its bits to those of the first and
sets the time again.
-/

namespace Px4.Shutdown

open Vars

open Commander (HrtAbstime)

/-! ## What the lock leaves alone -/

namespace Vars

/-- The variables of the requests are the same. -/
structure SameRequest (v v' : Vars) : Prop where
  shutdownArgs : v'.shutdownArgs = v.shutdownArgs
  shutdownTimeUs : v'.shutdownTimeUs = v.shutdownTimeUs
  workQueued : v'.workQueued = v.workQueued
  executed : v'.executed = v.executed

variable (v : Vars)

variable {now : Commander.HrtAbstime} {queued done : Bool} {request : RebootRequest}
  {delayUs : UInt32}

theorem sameRequest_shutdownLock :
    SameRequest v (v.shutdownLock now queued).1 := by
  unfold shutdownLock
  split_ifs <;> exact ⟨rfl, rfl, rfl, rfl⟩

theorem sameRequest_shutdownUnlock : SameRequest v v.shutdownUnlock := by
  unfold shutdownUnlock
  dsimp only
  split_ifs <;> exact ⟨rfl, rfl, rfl, rfl⟩

theorem sameRequest_takeWatchdog : SameRequest v (v.takeWatchdog now) := by
  unfold takeWatchdog
  cases v.watchdogDue with
  | none => exact ⟨rfl, rfl, rfl, rfl⟩
  | some due =>
    dsimp only
    split_ifs <;> exact ⟨rfl, rfl, rfl, rfl⟩

theorem sameRequest_shutdownLockWatchdogCb : SameRequest v v.shutdownLockWatchdogCb := by
  unfold shutdownLockWatchdogCb
  dsimp only
  split_ifs <;> exact ⟨rfl, rfl, rfl, rfl⟩

theorem rebootRequest_of_inProgress (h : v.shutdownArgs.inProgress) :
    v.rebootRequest request delayUs now queued = v := by
  rw [rebootRequest, h]
  rfl

theorem shutdownRequest_of_inProgress (h : v.shutdownArgs.inProgress) :
    v.shutdownRequest delayUs now queued = v := by
  rw [shutdownRequest, h]
  rfl

theorem action_rebootArgs :
    (rebootArgs {} request).action = .reset request := by
  cases request <;> rfl

/-- The worker executes the action of its arguments or only queues itself. -/
theorem shutdownWorker_cases :
    v.workQueued ∧ v.shutdownWorker now done queued =
      { v with workQueued := false, executed := some v.shutdownArgs.action } ∨
    ∃ work, (v.workQueued = false → work = false) ∧
      v.shutdownWorker now done queued = { v with workQueued := work } := by
  unfold shutdownWorker
  split_ifs with hwork hmay
  · exact .inl ⟨hwork, rfl⟩
  · exact .inr ⟨queued, fun h => (by cases hwork.symm.trans h), rfl⟩
  · exact .inr ⟨v.workQueued, id, rfl⟩

end Vars

/-! ## The first request -/

namespace System

section Defs

variable {T : Type*}

/-- The first request decides about the action and its time. -/
structure Decides (s : System T) : Prop where
  action : ∀ a t, s.first = some (a, t) → s.vars.shutdownArgs.action = a
  time : ∀ a t, s.first = some (a, t) → s.vars.shutdownTimeUs = t
  executed : ∀ a, s.vars.executed = some a → ∃ t, s.first = some (a, t)

/-- A request comes when there was none before, or when a shutdown is in progress. -/
def NotAfterReboot (s : System T) : Event T → Prop
  | .rebootRequest .. | .shutdownRequest .. =>
    s.first = none ∨ s.vars.shutdownArgs.inProgress = true
  | _ => True

instance (s : System T) : (e : Event T) → Decidable (s.NotAfterReboot e)
  | .rebootRequest .. | .shutdownRequest .. => inferInstanceAs (Decidable (_ ∨ _))
  | .lock .. | .unlock .. | .takeWatchdog .. | .watchdogCb .. | .worker .. => isTrue trivial

/-- The invariant: before the first request nothing is set. -/
structure RequestInv (s : System T) : Prop extends Decides s where
  args_of_none : s.first = none → s.vars.shutdownArgs = {}
  work_of_none : s.first = none → s.vars.workQueued = false

variable {T : Type*} {s s' : System T} {a : Action} {t : Commander.HrtAbstime}

theorem RequestInv.of_sameRequest (h : RequestInv s) (hfirst : s'.first = s.first)
    (hsame : s.vars.SameRequest s'.vars) : RequestInv s' where
  action a t := by
    rw [hfirst, hsame.shutdownArgs]
    exact h.action a t
  time a t := by
    rw [hfirst, hsame.shutdownTimeUs]
    exact h.time a t
  executed a := by
    rw [hfirst, hsame.executed]
    exact h.executed a
  args_of_none := by
    rw [hfirst, hsame.shutdownArgs]
    exact h.args_of_none
  work_of_none := by
    rw [hfirst, hsame.workQueued]
    exact h.work_of_none

theorem RequestInv.of_first (hfirst : s.first = some (a, t))
    (haction : s.vars.shutdownArgs.action = a) (htime : s.vars.shutdownTimeUs = t)
    (hexecuted : s.vars.executed = none) : RequestInv s where
  action a' t' h := by
    cases hfirst.symm.trans h
    exact haction
  time a' t' h := by
    cases hfirst.symm.trans h
    exact htime
  executed a' h := by cases hexecuted.symm.trans h
  args_of_none h := by cases hfirst.symm.trans h
  work_of_none h := by cases hfirst.symm.trans h

theorem RequestInv.first_of_inProgress (h : RequestInv s)
    (hprogress : s.vars.shutdownArgs.inProgress) :
    s.request a t = s.first := by
  rw [request]
  cases hfirst : s.first with
  | none =>
    rw [h.args_of_none hfirst] at hprogress
    cases hprogress
  | some first => rfl

end Defs

variable {T : Type*} [DecidableEq T] {s : System T} {e : Event T}

/-- After its time the worker executes the first request, if the hooks agree and no lock is held. -/
def ExecutesFirst (s : System T) : Event T → Prop
  | .worker now done queued =>
    ∀ a t, s.first = some (a, t) → s.vars.workQueued = true → now > t → done = true →
      s.vars.shutdownLockCounter = 0 →
      (s.step (.worker now done queued)).vars.executed = some a
  | _ => True

theorem RequestInv.stepRunning (h : RequestInv s) (hrunning : s.vars.executed = none)
    (hrequest : s.NotAfterReboot e) : RequestInv (s.stepRunning e) := by
  cases e with
  | lock t now queued => exact h.of_sameRequest rfl s.vars.sameRequest_shutdownLock
  | unlock t now => exact h.of_sameRequest rfl s.vars.sameRequest_shutdownUnlock
  | takeWatchdog now => exact h.of_sameRequest rfl s.vars.sameRequest_takeWatchdog
  | watchdogCb now => exact h.of_sameRequest rfl s.vars.sameRequest_shutdownLockWatchdogCb
  | rebootRequest request delayUs now queued =>
    rcases hrequest with hnone | hprogress
    · have hargs := h.args_of_none hnone
      apply RequestInv.of_first
      · rw [System.stepRunning, System.request, hnone]
        rfl
      · rw [System.stepRunning, rebootRequest, hargs]
        exact action_rebootArgs
      · rw [System.stepRunning, rebootRequest, hargs]
        rfl
      · rw [System.stepRunning, rebootRequest, hargs]
        exact hrunning
    · refine h.of_sameRequest (h.first_of_inProgress hprogress) ?_
      rw [System.stepRunning, rebootRequest_of_inProgress _ hprogress]
      exact ⟨rfl, rfl, rfl, rfl⟩
  | shutdownRequest delayUs now queued =>
    rcases hrequest with hnone | hprogress
    · have hargs := h.args_of_none hnone
      apply RequestInv.of_first
      · rw [System.stepRunning, System.request, hnone]
        rfl
      · rw [System.stepRunning, shutdownRequest, hargs]
        rfl
      · rw [System.stepRunning, shutdownRequest, hargs]
        rfl
      · rw [System.stepRunning, shutdownRequest, hargs]
        exact hrunning
    · refine h.of_sameRequest (h.first_of_inProgress hprogress) ?_
      rw [System.stepRunning, shutdownRequest_of_inProgress _ hprogress]
      exact ⟨rfl, rfl, rfl, rfl⟩
  | worker now done queued =>
    rw [System.stepRunning]
    obtain ⟨hwork, hworker⟩ | ⟨work, hwork, hworker⟩ := s.vars.shutdownWorker_cases
    · rw [hworker]
      refine { h with executed := fun a ha => ?_, work_of_none := fun _ => rfl }
      cases hfirst : s.first with
      | none => cases (h.work_of_none hfirst).symm.trans hwork
      | some first =>
        cases ha
        exact ⟨first.2, congrArg some (Prod.ext (h.action first.1 first.2 hfirst).symm rfl)⟩
    · rw [hworker]
      exact { h with work_of_none := fun hnone => hwork (h.work_of_none hnone) }

theorem RequestInv.step (h : RequestInv s) (hrequest : s.NotAfterReboot e) :
    RequestInv (s.step e) := by
  rw [System.step]
  split_ifs with hexecuted
  · exact h
  · exact h.stepRunning (Option.not_isSome_iff_eq_none.mp hexecuted) hrequest

theorem RequestInv.executesFirst (h : RequestInv s) : ExecutesFirst s e := by
  cases e with
  | worker now done queued =>
    intro a t hfirst hwork hafter hdone hcounter
    rw [System.step]
    split_ifs with hexecuted
    · -- it has been executed before
      obtain ⟨b, hb⟩ := Option.isSome_iff_exists.mp hexecuted
      obtain ⟨t', hb'⟩ := h.executed b hb
      cases hfirst.symm.trans hb'
      exact hb
    · have hmay : s.vars.mayExecute now done := by
        rw [← h.time a t hfirst] at hafter
        simp [mayExecute, hafter, hdone, hcounter]
      rw [System.stepRunning, shutdownWorker, if_pos hwork, if_pos hmay, h.action a t hfirst]
  | _ => trivial

/-- **The first request decides**, if no request follows a reboot request: the action and its time
are those of the first request, and the first run of the worker after that time executes it, once no
lock is held and the hooks agree. -/
theorem first_request_decides (es : List (Event T))
    (hrequests : Run.Along step NotAfterReboot ({} : System T) es) :
    Run.Always step Decides ({} : System T) es ∧
      Run.Along step ExecutesFirst ({} : System T) es := by
  have hinit : RequestInv ({} : System T) :=
    { action := by rintro a t ⟨⟩
      time := by rintro a t ⟨⟩
      executed := by rintro a ⟨⟩
      args_of_none := fun _ => rfl
      work_of_none := fun _ => rfl }
  refine ⟨?_, ?_⟩
  · exact Run.always_of_invariant (fun s e h hrequest => h.step hrequest) (fun s h => h.toDecides)
      hinit hrequests
  · exact Run.along_of_invariant (fun s e h hrequest => h.step hrequest)
      (fun s e h _ => h.executesFirst) hinit hrequests

/-- A shutdown in 1 s, a reboot request that comes too late, and the worker. -/
def shutdownThenReboot : List (Event Unit) :=
  [.shutdownRequest 1000000 0 true, .rebootRequest .rebootRequest 0 500000 true,
   .worker 510000 true true, .worker 1000001 true true]

theorem first_request_decides_shutdownThenReboot :
    Run.Along step ExecutesFirst ({} : System Unit) shutdownThenReboot ∧
      (Run.after step ({} : System Unit) shutdownThenReboot).vars.executed = some .powerOff :=
  ⟨(first_request_decides shutdownThenReboot (by decide +kernel)).2, by decide +kernel⟩

/-- A reboot request, then one for the bootloader with a delay of 5 s before the worker has run. -/
def rebootTwice : List (Event Unit) :=
  [.rebootRequest .rebootRequest 0 0 true, .rebootRequest .rebootToBootloader 5000000 1000 true,
   .worker 11000 true true, .worker 5001001 true true]

/-- The second request postpones the first one and changes what is executed. -/
theorem second_request_decides :
    ¬ Run.Always step Decides ({} : System Unit) rebootTwice ∧
      ¬ Run.Along step ExecutesFirst ({} : System Unit) rebootTwice ∧
      (Run.after step ({} : System Unit) (rebootTwice.take 1)).first =
        some (.reset .rebootRequest, 0) ∧
      (Run.after step ({} : System Unit) (rebootTwice.take 3)).vars.executed = none ∧
      (Run.after step ({} : System Unit) rebootTwice).vars.executed =
        some (.reset .rebootToBootloader) := by
  refine ⟨fun h => ?_, fun h => ?_, by decide +kernel, by decide +kernel, by decide +kernel⟩
  · have haction := h.2.2.1.action (.reset .rebootRequest) 0 (by decide +kernel)
    revert haction
    decide +kernel
  · have hexecuted := h.2.2.1 (.reset .rebootRequest) 0 (by decide +kernel) (by decide +kernel)
      (by decide +kernel) rfl (by decide +kernel)
    revert hexecuted
    decide +kernel

end System

end Px4.Shutdown
