import Mathlib.Data.Fintype.Basic
import Mathlib.Data.Finset.Card
import Px4.Common.Run

/-!
# The shutdown lock

`param_export` and `param_save_default` in `src/lib/parameters/parameters.cpp` both take the lock
that delays a shutdown, and `file_mutex`. `param_export` takes the shutdown lock first, and returns
without giving it back if `file_mutex` is locked.
-/

namespace Px4.Parameters

inductive SaveCall where
  | paramExport
  | paramSaveDefault (blocking : Bool)
deriving DecidableEq

/-- Where a thread is; `locked` says that its `shutdown_lock_ret` is zero. -/
inductive SaveThread where
  | idle
  /-- in `param_export`, about to call `px4_shutdown_lock` -/
  | exportStart
  /-- in `param_export`, about to try `file_mutex` -/
  | exportTrylock (locked : Bool)
  /-- in `param_save_default`, about to lock or to try `file_mutex` -/
  | saveStart (blocking : Bool)
  /-- in `param_save_default` with `file_mutex`, about to call `px4_shutdown_lock` -/
  | saveLocked
  /-- with `file_mutex`, about to write files and to unlock it -/
  | working (locked : Bool)
  /-- without `file_mutex`, about to call `px4_shutdown_unlock` -/
  | unlocked (locked : Bool)
deriving DecidableEq

/-- The thread has taken the shutdown lock and will give it back. -/
def SaveThread.holds : SaveThread → Bool
  | exportTrylock locked | working locked | unlocked locked => locked
  | _ => false

/-- The locks and the threads. -/
structure SaveSystem (T : Type*) where
  shutdownLockCounter : ℕ
  fileMutex : Option T
  threads : T → SaveThread

/-- A thread calls a function, or goes on; with the result of `px4_shutdown_lock`. -/
inductive SaveEvent (T : Type*) where
  | call (t : T) (call : SaveCall)
  | advance (t : T) (shutdownLock : Bool)

namespace SaveSystem

variable {T : Type*} [DecidableEq T]

/-- No call is in progress, and the counter has some value. -/
def init (counter : ℕ) : SaveSystem T where
  shutdownLockCounter := counter
  fileMutex := none
  threads := fun _ => .idle

def go (s : SaveSystem T) (t : T) (thread : SaveThread) : SaveSystem T :=
  { s with threads := Function.update s.threads t thread }

/-- `px4_shutdown_lock`, if it returns zero. -/
def shutdownLock (s : SaveSystem T) : SaveSystem T :=
  { s with shutdownLockCounter := s.shutdownLockCounter + 1 }

def shutdownUnlock (s : SaveSystem T) : SaveSystem T :=
  if s.shutdownLockCounter > 0 then
    { s with shutdownLockCounter := s.shutdownLockCounter - 1 }
  else s

def advance (s : SaveSystem T) (t : T) (ok : Bool) : SaveThread → SaveSystem T
  | .idle => s
  | .exportStart =>
    if ok then s.shutdownLock.go t (.exportTrylock true) else s.go t (.exportTrylock false)
  | .exportTrylock locked =>
    if s.fileMutex.isSome then
      -- `PX4_ERROR` is returned at once
      s.go t .idle
    else SaveSystem.go { s with fileMutex := some t } t (.working locked)
  | .saveStart blocking =>
    if s.fileMutex.isSome then
      if blocking then s else s.go t .idle
    else SaveSystem.go { s with fileMutex := some t } t .saveLocked
  | .saveLocked =>
    if ok then s.shutdownLock.go t (.working true) else s.go t (.working false)
  | .working locked => SaveSystem.go { s with fileMutex := none } t (.unlocked locked)
  | .unlocked locked => if locked then s.shutdownUnlock.go t .idle else s.go t .idle

/-- One step of the system. A thread that is in a call does not call again. -/
def step (s : SaveSystem T) : SaveEvent T → SaveSystem T
  | .call t call =>
    match s.threads t, call with
    | .idle, .paramExport => s.go t .exportStart
    | .idle, .paramSaveDefault blocking => s.go t (.saveStart blocking)
    | _, _ => s
  | .advance t ok => s.advance t ok (s.threads t)

/-- `param_export` finds `file_mutex` locked, after it has taken the shutdown lock. -/
def Contended (s : SaveSystem T) : SaveEvent T → Prop
  | .call _ _ => False
  | .advance t _ => s.threads t = .exportTrylock true ∧ s.fileMutex.isSome

instance (s : SaveSystem T) : (e : SaveEvent T) → Decidable (s.Contended e)
  | .call .. => inferInstanceAs (Decidable False)
  | .advance .. => inferInstanceAs (Decidable (_ ∧ _))

/-- No call is in progress. -/
def Quiet (s : SaveSystem T) : Prop := ∀ t, s.threads t = .idle

instance [Fintype T] (s : SaveSystem T) : Decidable s.Quiet :=
  inferInstanceAs (Decidable (∀ t, s.threads t = .idle))

/-- The counter is the given number and the threads that will give the lock back. -/
def Counts (s : SaveSystem T) (n : ℕ) : Prop :=
  ∃ holders : Finset T, (∀ t, t ∈ holders ↔ (s.threads t).holds) ∧
    s.shutdownLockCounter = n + holders.card

variable {s : SaveSystem T} {n : ℕ}

omit [DecidableEq T] in
theorem Counts.of_quiet (h : s.Counts n) (hquiet : s.Quiet) : s.shutdownLockCounter = n := by
  obtain ⟨holders, hmem, hcount⟩ := h
  have hempty : holders = ∅ := by
    apply Finset.eq_empty_of_forall_notMem
    intro t ht
    have := (hmem t).mp ht
    rw [hquiet t] at this
    cases this
  rw [hcount, hempty, Finset.card_empty, Nat.add_zero]

omit [DecidableEq T] in
theorem Counts.congr {s' : SaveSystem T} (h : s.Counts n)
    (hcounter : s'.shutdownLockCounter = s.shutdownLockCounter)
    (hthreads : s'.threads = s.threads) :
    s'.Counts n := by
  obtain ⟨holders, hmem, hcount⟩ := h
  exact ⟨holders, by rwa [hthreads], by rwa [hcounter]⟩

variable (h : s.Counts n)
include h

variable {t : T} {thread : SaveThread} {m : ℕ} {e : SaveEvent T} {es : List (SaveEvent T)}

theorem Counts.go (hholds : thread.holds = (s.threads t).holds) : (s.go t thread).Counts n := by
  obtain ⟨holders, hmem, hcount⟩ := h
  refine ⟨holders, fun u => ?_, hcount⟩
  by_cases heq : u = t
  · subst heq
    simp [SaveSystem.go, hmem, hholds]
  · simp [SaveSystem.go, hmem, heq]

theorem Counts.lock (hnot : (s.threads t).holds = false)
    (hholds : thread.holds) : (s.shutdownLock.go t thread).Counts n := by
  obtain ⟨holders, hmem, hcount⟩ := h
  have hnew : t ∉ holders := by rw [hmem, hnot]; decide
  refine ⟨insert t holders, fun u => ?_, ?_⟩
  · by_cases heq : u = t
    · subst heq
      simp [SaveSystem.go, hholds]
    · simp [SaveSystem.go, shutdownLock, heq, hmem]
  · rw [Finset.card_insert_of_notMem hnew]
    change s.shutdownLockCounter + 1 = _
    omega

/-- A thread that holds the lock returns; if it does not give it back, the lock stays. -/
theorem Counts.release (hheld : (s.threads t).holds) {s' : SaveSystem T}
    (hthreads : s'.threads = s.threads)
    (hcounter : 0 < s.shutdownLockCounter →
      s'.shutdownLockCounter + n + 1 = s.shutdownLockCounter + m) :
    (s'.go t .idle).Counts m := by
  obtain ⟨holders, hmem, hcount⟩ := h
  have ht : t ∈ holders := (hmem t).mpr hheld
  have hpos := Finset.card_pos.mpr ⟨t, ht⟩
  refine ⟨holders.erase t, fun u => ?_, ?_⟩
  · by_cases heq : u = t
    · subst heq
      simp [SaveSystem.go, SaveThread.holds]
    · simp [SaveSystem.go, hthreads, heq, hmem]
  · rw [Finset.card_erase_of_mem ht]
    change s'.shutdownLockCounter = _
    omega

theorem Counts.call (t call) : (s.step (.call t call)).Counts n := by
  cases hthread : s.threads t with
  | idle => cases call <;> simpa [SaveSystem.step, hthread] using h.go (by rw [hthread]; rfl)
  | _ => simpa [SaveSystem.step, hthread] using h

/-- A thread that goes on keeps the count, unless it is a `param_export` that is contended. -/
theorem Counts.advance (hthread : s.threads t = thread)
    (hcontended : ¬(thread = .exportTrylock true ∧ s.fileMutex.isSome)) (ok : Bool) :
    (s.advance t ok thread).Counts n := by
  -- a thread that locks or unlocks `file_mutex` keeps the shutdown lock
  have hmove (mutex : Option T) {thread' : SaveThread} (hholds : thread'.holds = thread.holds) :
      (SaveSystem.go { s with fileMutex := mutex } t thread').Counts n :=
    (h.congr rfl rfl : Counts { s with fileMutex := mutex } n).go (hholds.trans (hthread ▸ rfl))
  cases thread with
  | idle => exact h
  | exportStart =>
    cases ok with
    | true => exact h.lock (hthread ▸ rfl) rfl
    | false => exact hmove s.fileMutex rfl
  | exportTrylock locked =>
    rw [SaveSystem.advance]
    split
    next hmutex =>
      cases locked with
      | true => exact absurd ⟨rfl, hmutex⟩ hcontended
      | false => exact hmove s.fileMutex rfl
    · exact hmove (some t) rfl
  | saveStart blocking =>
    rw [SaveSystem.advance]
    split
    · split
      · exact h
      · exact hmove s.fileMutex rfl
    · exact hmove (some t) rfl
  | saveLocked =>
    cases ok with
    | true => exact h.lock (hthread ▸ rfl) rfl
    | false => exact hmove s.fileMutex rfl
  | working locked => exact hmove none rfl
  | unlocked locked =>
    cases locked with
    | true =>
      have hthreads : s.shutdownUnlock.threads = s.threads := by
        unfold shutdownUnlock
        split <;> rfl
      refine h.release (hthread ▸ rfl) hthreads fun hpos => ?_
      rw [shutdownUnlock, if_pos hpos]
      dsimp only
      omega
    | false => exact hmove s.fileMutex rfl

theorem Counts.step (hcontended : ¬s.Contended e) : (s.step e).Counts n := by
  cases e with
  | call t call => exact h.call t call
  | advance t ok => exact h.advance rfl hcontended ok

/-- A contended `param_export` leaves a lock behind. -/
theorem Counts.step_contended (hcontended : s.Contended e) : (s.step e).Counts (n + 1) := by
  cases e with
  | call t call => cases hcontended
  | advance t ok =>
    obtain ⟨hthread, hmutex⟩ := hcontended
    have hstep : s.step (.advance t ok) = s.go t .idle := by
      change s.advance t ok (s.threads t) = _
      rw [hthread]
      exact if_pos hmutex
    rw [hstep]
    exact h.release (hthread ▸ rfl) rfl fun _ => by omega

/-- After a run without open calls the counter is the same iff no `param_export` was contended. -/
theorem Counts.balanced_iff
    (hquiet : (Run.after SaveSystem.step s es).Quiet) :
    let r := (Run.after SaveSystem.step s es).shutdownLockCounter
    n ≤ r ∧ (r = n ↔ Run.Along SaveSystem.step (fun s e => ¬s.Contended e) s es) := by
  induction es generalizing s n with
  | nil =>
    have hcounter : s.shutdownLockCounter = n := h.of_quiet hquiet
    exact ⟨hcounter.ge, iff_of_true hcounter trivial⟩
  | cons e es ih =>
    rw [Run.after_cons]
    by_cases hcontended : s.Contended e
    · obtain ⟨hle, -⟩ := ih (h.step_contended hcontended) hquiet
      exact ⟨by omega, iff_of_false (by omega) fun halong => halong.1 hcontended⟩
    · obtain ⟨hle, hiff⟩ := ih (h.step hcontended) hquiet
      exact ⟨hle, hiff.trans ⟨fun halong => ⟨hcontended, halong⟩, fun halong => halong.2⟩⟩

end SaveSystem

/-- When no call is in progress, the shutdown lock is balanced if and only if no `param_export` that
has taken it found `file_mutex` locked. -/
theorem shutdown_lock_balanced_iff {T : Type*} [DecidableEq T] (counter : ℕ)
    (es : List (SaveEvent T))
    (hquiet : (Run.after SaveSystem.step (.init counter) es : SaveSystem T).Quiet) :
    (Run.after SaveSystem.step (.init counter) es).shutdownLockCounter = counter ↔
      Run.Along SaveSystem.step (fun s e => ¬s.Contended e) (.init counter) es := by
  have hinit : SaveSystem.Counts (.init counter : SaveSystem T) counter :=
    ⟨∅, fun t => by simp [SaveSystem.init, SaveThread.holds], rfl⟩
  exact (hinit.balanced_iff hquiet).2

/-- Two calls that follow each other. -/
theorem shutdown_lock_balanced_in_turn : let es : List (SaveEvent Bool) :=
      [.call true .paramExport, .advance true true, .advance true true, .advance true true,
        .advance true true, .call false (.paramSaveDefault true), .advance false true,
        .advance false true, .advance false true, .advance false true]
    (Run.after SaveSystem.step (.init 3) es).shutdownLockCounter = 3 :=
  (shutdown_lock_balanced_iff 3 _ (by decide)).mpr (by decide)

/-- While thread `true` is in `param_save_default`, thread `false` exports, finds the mutex locked
and returns. When both calls have returned, the counter is one too high. -/
theorem contended_export_leaks :
    let s := Run.after SaveSystem.step (.init 0 : SaveSystem Bool)
      [.call true (.paramSaveDefault true), .advance true true, .call false .paramExport,
        .advance false true, .advance false true, .advance true true, .advance true true,
        .advance true true]
    s.Quiet ∧ s.shutdownLockCounter = 1 := by
  decide

end Px4.Parameters
