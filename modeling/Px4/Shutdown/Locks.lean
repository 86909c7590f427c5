import Px4.Shutdown.Shutdown

/-!
# Shutdown locks

The watchdog is started when the counter leaves zero, not for each lock, and sets the counter to
zero for all of them; the unlock of a lock that it has released counts for another one; and the
counter has eight bits. The locks protect their holders in the runs in which none of this matters.
-/

namespace Px4.Shutdown

open List Run Vars

open Commander (HrtAbstime)

variable {T : Type*}

/-- The lock was taken less than 60 s ago. -/
def Hold.Fresh (hold : Hold T) (now : HrtAbstime) : Prop :=
  now.toNat < hold.since.toNat + shutdownLockWatchdog
deriving Decidable

variable {now' now : Commander.HrtAbstime}

theorem Hold.Fresh.of_le {hold : Hold T} (h : hold.Fresh now')
    (hle : now ≤ now') : hold.Fresh now :=
  Nat.lt_of_le_of_lt (UInt64.le_iff_toNat_le.mp hle) h

namespace System

/-- A lock that was taken less than 60 s ago keeps the counter above zero. -/
def Protected (s : System T) : Prop :=
  (∃ hold ∈ s.holds, hold.Fresh s.clock) → 0 < s.vars.shutdownLockCounter
deriving Decidable

/-- The counter is the number of locks the watchdog has not released; those it has are old. -/
structure LockInv (s : System T) : Prop where
  count : s.vars.shutdownLockCounter.toNat = s.holds.countP fun hold => !hold.released
  old : ∀ hold ∈ s.holds, hold.released = true → ¬ hold.Fresh s.clock

variable {s s' : System T}

theorem LockInv.keeps_counter (h : LockInv s) : s.Protected := by
  rintro ⟨hold, hmem, hfresh⟩
  rw [UInt8.lt_iff_toNat_lt, h.count]
  refine countP_pos_iff.mpr ⟨hold, hmem, ?_⟩
  cases hreleased : hold.released with
  | false => rfl
  | true => exact absurd hfresh (h.old hold hmem hreleased)

theorem LockInv.of_eq (h : LockInv s)
    (hcounter : s'.vars.shutdownLockCounter = s.vars.shutdownLockCounter)
    (hholds : s'.holds = s.holds) (hclock : s.clock ≤ s'.clock) : LockInv s' := by
  refine ⟨?_, ?_⟩
  · rw [hcounter, hholds]
    exact h.count
  · rw [hholds]
    exact fun hold hmem hreleased hfresh => h.old hold hmem hreleased (hfresh.of_le hclock)

variable [DecidableEq T] {e : Event T}

/-- Time does not go back, and a thread gives back a lock that it has taken. -/
def Matched (s : System T) (e : Event T) : Prop :=
  s.clock ≤ e.now ∧
    match e with
    | .unlock t _ => ∃ hold ∈ s.holds, hold.thread = t
    | _ => True

instance (s : System T) : (e : Event T) → Decidable (s.Matched e)
  | .unlock .. => inferInstanceAs (Decidable (_ ∧ _))
  | .lock .. | .takeWatchdog _ | .watchdogCb _ | .rebootRequest ..
  | .shutdownRequest .. | .worker .. => inferInstanceAs (Decidable (_ ∧ _))

/-- One counter and one watchdog are enough: at most 255 locks are held, the watchdog does not run
while a lock younger than 60 s is held, and a lock that it has released is not given back while
another one is held. -/
def Careful (s : System T) : Event T → Prop
  | .lock .. => s.vars.shutdownLockCounter ≠ 255
  | .unlock t _ => ∀ hold ∈ s.holds.find? (fun hold => hold.thread = t),
    hold.released = true → s.vars.shutdownLockCounter = 0
  | .watchdogCb now => s.vars.watchdogTaken = true → ∀ hold ∈ s.holds, ¬ hold.Fresh now
  | _ => True

instance (s : System T) : (e : Event T) → Decidable (s.Careful e)
  | .lock .. => inferInstanceAs (Decidable (_ ≠ _))
  | .unlock .. => inferInstanceAs (Decidable (∀ hold ∈ _, _))
  | .watchdogCb _ => inferInstanceAs (Decidable (_ → _))
  | .takeWatchdog _ | .rebootRequest .. | .shutdownRequest .. | .worker .. => isTrue trivial

/-- While a lock is younger than 60 s, the worker does not shut down before the forced timeout. -/
def Waits (s : System T) : Event T → Prop
  | .worker now done queued =>
    (∃ hold ∈ s.holds, hold.Fresh now) → now ≤ s.vars.shutdownTimeUs + shutdownTimeoutUs →
      (s.step (.worker now done queued)).vars.executed = s.vars.executed
  | _ => True

theorem toNat_succ {c : UInt8} (h : c ≠ 255) : (c + 1).toNat = c.toNat + 1 := by
  have hne : c.toNat ≠ 255 := fun hc => h (UInt8.toNat_inj.mp hc)
  have hlt := c.toNat_lt
  rw [UInt8.toNat_add]
  exact Nat.mod_eq_of_lt (by simp only [UInt8.toNat_ofNat]; omega)

theorem toNat_pred {c : UInt8} (h : 0 < c) : (c - 1).toNat = c.toNat - 1 :=
  UInt8.toNat_sub_of_le c 1 (UInt8.le_iff_toNat_le.mpr (UInt8.lt_iff_toNat_lt.mp h))

theorem shutdownLock_counter (v : Vars) (now queued) :
    (v.shutdownLock now queued).1.shutdownLockCounter =
      if (v.shutdownLock now queued).2 then v.shutdownLockCounter + 1
      else v.shutdownLockCounter := by
  unfold shutdownLock
  split_ifs <;> simp_all

theorem shutdownUnlock_counter {v : Vars} :
    v.shutdownUnlock.shutdownLockCounter =
      if 0 < v.shutdownLockCounter then v.shutdownLockCounter - 1 else v.shutdownLockCounter := by
  unfold shutdownUnlock
  dsimp only
  split_ifs <;> rfl

theorem shutdownLockWatchdogCb_counter (v : Vars) :
    v.shutdownLockWatchdogCb.shutdownLockCounter =
      if v.watchdogTaken then 0 else v.shutdownLockCounter := by
  unfold shutdownLockWatchdogCb
  dsimp only
  split_ifs <;> simp_all

variable {now : HrtAbstime}

section

variable (h : LockInv s)
include h

section

variable (hclock : s.clock ≤ now)
include hclock

variable {t : T} {queued : Bool}

theorem LockInv.lock (hcounter : s.vars.shutdownLockCounter ≠ 255) :
    LockInv (s.stepRunning (.lock t now queued)) := by
  have hresult := shutdownLock_counter s.vars now queued
  rw [stepRunning]
  cases hlocked : (s.vars.shutdownLock now queued).2 with
  | false =>
    rw [hlocked] at hresult
    exact h.of_eq hresult rfl hclock
  | true =>
    rw [hlocked] at hresult
    refine ⟨?_, ?_⟩
    · rw [hresult, if_pos rfl, toNat_succ hcounter, h.count]
      simp
    · intro hold hmem hreleased hfresh
      rcases mem_cons.mp hmem with rfl | hmem
      · cases hreleased
      · exact h.old hold hmem hreleased (hfresh.of_le hclock)

theorem LockInv.unlock (hheld : ∃ hold ∈ s.holds, hold.thread = t)
    (hreleased : ∀ hold ∈ s.holds.find? (fun hold => hold.thread = t),
      hold.released → s.vars.shutdownLockCounter = 0) :
    LockInv (s.stepRunning (.unlock t now)) := by
  obtain ⟨held, hmem, hthread⟩ := hheld
  obtain ⟨hold, pre, post, hpre, hhold, hholds, herase⟩ := exists_of_eraseP
    (p := fun hold : Hold T => decide (hold.thread = t)) hmem (by simpa using hthread)
  have hfind : s.holds.find? (fun hold => hold.thread = t) = some hold := by
    rw [hholds]
    exact find?_eq_some_iff_append.mpr ⟨hhold, pre, post, rfl, by simpa using hpre⟩
  have hcount := h.count
  rw [hholds, countP_append, countP_cons] at hcount
  rw [stepRunning]
  refine ⟨?_, ?_⟩
  · rw [herase, shutdownUnlock_counter]
    cases hrel : hold.released with
    | true =>
      -- the counter is zero and stays so
      rw [hrel] at hcount
      rw [if_neg (by rw [hreleased hold hfind hrel]; decide)]
      simpa using hcount
    | false =>
      rw [hrel] at hcount
      have hpos : 0 < s.vars.shutdownLockCounter :=
        UInt8.lt_iff_toNat_lt.mpr (hcount ▸ Nat.succ_pos _)
      rw [if_pos hpos, toNat_pred hpos, hcount]
      simp
  · rw [herase]
    intro hold' hmem' hreleased' hfresh
    refine h.old hold' ?_ hreleased' (hfresh.of_le hclock)
    rw [hholds]
    exact mem_append.mpr ((mem_append.mp hmem').imp id (mem_cons_of_mem _))

theorem LockInv.watchdogCb
    (hfresh : s.vars.watchdogTaken → ∀ hold ∈ s.holds, ¬ hold.Fresh now) :
    LockInv (s.stepRunning (.watchdogCb now)) := by
  have hcounter := shutdownLockWatchdogCb_counter s.vars
  rw [stepRunning]
  by_cases hfires : s.vars.watchdogTaken ∧ s.vars.shutdownLockCounter ≠ 0
  · rw [if_pos hfires.1] at hcounter
    rw [if_pos hfires]
    refine ⟨?_, ?_⟩
    · rw [hcounter, countP_map]
      exact (countP_eq_zero.mpr fun hold _ => by simp).symm
    · intro hold hmem _
      obtain ⟨hold', hmem', rfl⟩ := mem_map.mp hmem
      exact hfresh hfires.1 hold' hmem'
  · rw [if_neg hfires]
    refine h.of_eq ?_ rfl hclock
    rw [hcounter]
    split_ifs with htaken
    · by_contra hne
      exact hfires ⟨htaken, fun hzero => hne hzero.symm⟩
    · rfl

end

variable (hmatched : Matched s e)
include hmatched

theorem LockInv.stepRunning (hcareful : Careful s e) : LockInv (s.stepRunning e) := by
  cases e with
  | lock t now queued => exact h.lock hmatched.1 hcareful
  | unlock t now => exact h.unlock hmatched.1 hmatched.2 hcareful
  | takeWatchdog now =>
    refine h.of_eq ?_ rfl hmatched.1
    rw [System.stepRunning, takeWatchdog]
    cases s.vars.watchdogDue with
    | none => rfl
    | some due =>
      dsimp only
      split_ifs <;> rfl
  | watchdogCb now => exact h.watchdogCb hmatched.1 hcareful
  | rebootRequest request delayUs now queued =>
    refine h.of_eq ?_ rfl hmatched.1
    rw [System.stepRunning, rebootRequest]
    split_ifs <;> rfl
  | shutdownRequest delayUs now queued =>
    refine h.of_eq ?_ rfl hmatched.1
    rw [System.stepRunning, shutdownRequest]
    split_ifs <;> rfl
  | worker now done queued =>
    refine h.of_eq ?_ rfl hmatched.1
    rw [System.stepRunning, shutdownWorker]
    split_ifs <;> rfl

theorem LockInv.step (hcareful : Careful s e) : LockInv (s.step e) := by
  rw [System.step]
  split_ifs
  · exact h
  · exact h.stepRunning hmatched hcareful

theorem LockInv.waits : Waits s e := by
  cases e with
  | worker now done queued =>
    rintro ⟨hold, hmem, hfresh⟩ htimeout
    have hcounter : 0 < s.vars.shutdownLockCounter :=
      h.keeps_counter ⟨hold, hmem, hfresh.of_le hmatched.1⟩
    have hmay : s.vars.mayExecute now done = false := by
      have hne : s.vars.shutdownLockCounter ≠ 0 := UInt8.pos_iff_ne_zero.mp hcounter
      simp [mayExecute, hne, htimeout]
    rw [System.step]
    split_ifs
    · rfl
    · rw [System.stepRunning, shutdownWorker]
      split_ifs with _ hmay'
      · cases hmay.symm.trans hmay'
      · rfl
      · rfl
  | _ => trivial

end

/-- **A shutdown lock protects its holder** in the runs whose events are careful. -/
theorem lock_protects (es : List (Event T)) (hmatched : Run.Along step Matched ({} : System T) es)
    (hcareful : Run.Along step Careful ({} : System T) es) :
    Run.Always step Protected ({} : System T) es ∧ Run.Along step Waits ({} : System T) es := by
  have hinit : LockInv ({} : System T) := ⟨rfl, by simp⟩
  refine ⟨?_, ?_⟩
  · exact always_of_invariant (fun s e h he => h.step he.1 he.2) (fun s h => h.keeps_counter)
      hinit (hmatched.and hcareful)
  · exact along_of_invariant (fun s e h he => h.step he.1 he.2) (fun s e h he => h.waits he.1)
      hinit (hmatched.and hcareful)

/-- Two locks, one after the other, in a shutdown, which happens after the second is given back. -/
def locksInTurn : List (Event Bool) :=
  [.lock false 0 true, .shutdownRequest 0 1000000 true, .worker 1010000 true true,
   .unlock false 2000000, .lock true 2000000 true, .worker 2010000 true true,
   .unlock true 3000000, .worker 3010000 true true]

theorem lock_protects_locksInTurn :
    Run.Always step Protected ({} : System Bool) locksInTurn ∧
      (after step ({} : System Bool) (locksInTurn.take 7)).vars.executed = none ∧
      (after step ({} : System Bool) locksInTurn).vars.executed = some .powerOff :=
  ⟨(lock_protects locksInTurn (by decide +kernel) (by decide +kernel)).1, by decide +kernel,
    by decide +kernel⟩

/-- A lock is taken 59 s after the watchdog was started for another one, which is given back. -/
def overlappingLocks : List (Event Bool) :=
  [.lock false 0 true, .lock true 59000000 true, .unlock false 59500000,
   .shutdownRequest 0 59600000 true, .takeWatchdog 60000000, .watchdogCb 60000000,
   .worker 60010000 true true]

/-- A lock that the watchdog has released is given back while another one is held. -/
def lateUnlock : List (Event Bool) :=
  [.lock false 0 true, .takeWatchdog 60000000, .watchdogCb 60000000, .lock true 61000000 true,
   .unlock false 62000000]

/-- The counter is zero while a lock is held that was taken less than 2 s ago, and the worker shuts
down. -/
theorem holder_not_protected :
    Run.Along step Matched ({} : System Bool) overlappingLocks ∧
      ¬ (after step ({} : System Bool) (overlappingLocks.take 6)).Protected ∧
      (after step ({} : System Bool) overlappingLocks).vars.executed = some .powerOff ∧
    Run.Along step Matched ({} : System Bool) lateUnlock ∧
      ¬ (after step ({} : System Bool) lateUnlock).Protected := by
  decide +kernel

end System

end Px4.Shutdown
