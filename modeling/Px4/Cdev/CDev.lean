import Mathlib.Data.Fintype.Basic
import Px4.Common.Run
import Px4.Common.SlotArray

/-!
# Poll waiters of a character device

`src/lib/cdev/CDev.cpp` in the NuttX build. The pollfds that wait for a device are in an array of
slots, which is replaced when it is full. `poll` leaves the critical section to allocate or free an
array, and compares the address of the array when it enters it again.

What a thread does between two places where others may run is one step. The allocator answers any
address that is not allocated, with any contents, or none. An access outside of an allocated array
is a fault, after which nothing is said about the device.
-/

namespace Px4.Cdev

open Function SlotArray

/-- The place of a thread in `CDev::poll`: what it does next. -/
inductive Place (A F : Type) where
  | idle
  /-- enters the critical section and looks for a free slot -/
  | setup (fds : F)
  /-- has left the critical section to allocate a larger array -/
  | allocate (fds : F) (prevPollset : Option A) (newCount : ℕ)
  /-- enters the critical section with the new array, or without one -/
  | replace (fds : F) (prevPollset : Option A) (newCount : ℕ) (newPollset : Option A)
  /-- has left the critical section to delete the array that it replaced -/
  | freePrev (fds : F) (prevPollset : Option A)
  /-- has left the critical section to delete the array that it does not need, and retries -/
  | freeNew (fds : F) (newPollset : Option A)
deriving DecidableEq

structure CDev (A F T : Type) where
  heap : A → Option (List (Option F)) := fun _ => none
  pollset : Option A := none
  maxPollwaiters : ℕ := 0
  places : T → Place A F := fun _ => .idle
  /-- the setup of the pollfd has returned OK, and it has not been torn down since -/
  ready : F → Bool := fun _ => false
  fault : Bool := false

namespace CDev

variable {A F T : Type}

section

variable [DecidableEq A] (s : CDev A F T)

/-- Changes the array at an address, or frees it. -/
def setArray (a : A) (block : Option (List (Option F))) : CDev A F T :=
  { s with heap := update s.heap a block }

theorem heap_setArray_self (a block) : (s.setArray a block).heap a = block :=
  update_self ..

variable {b a : A}

theorem heap_setArray_other (block) (h : b ≠ a) : (s.setArray a block).heap b = s.heap b :=
  update_of_ne h ..

end

section

variable [DecidableEq T] (s : CDev A F T)

def goTo (t : T) (place : Place A F) : CDev A F T :=
  { s with places := update s.places t place }

theorem places_goTo_self (t place) : (s.goTo t place).places t = place :=
  update_self ..

variable {u t : T}

theorem places_goTo_other (place) (h : u ≠ t) : (s.goTo t place).places u = s.places u :=
  update_of_ne h ..

end

variable [DecidableEq A] [DecidableEq F] [DecidableEq T] (s : CDev A F T)

/-- `_pollset[0]` to `_pollset[_max_pollwaiters - 1]`, if they can be accessed. -/
def slots : Option (List (Option F)) :=
  match s.pollset with
  | none => if s.maxPollwaiters = 0 then some [] else none
  | some a => (s.heap a).bind fun xs =>
      if s.maxPollwaiters ≤ xs.length then some (xs.take s.maxPollwaiters) else none

def setSlots (xs : List (Option F)) : CDev A F T :=
  match s.pollset with
  | none => s
  | some a => s.setArray a (some (xs ++ ((s.heap a).getD []).drop s.maxPollwaiters))

variable {xs : List (Option F)} {p : Option A}

omit [DecidableEq F] [DecidableEq T] in
theorem places_setSlots : (s.setSlots xs).places = s.places := by
  rw [setSlots]
  split <;> rfl

omit [DecidableEq F] [DecidableEq T] in
theorem ready_setSlots : (s.setSlots xs).ready = s.ready := by
  rw [setSlots]
  split <;> rfl

def setReady (fds : F) (ready : Bool) : CDev A F T :=
  { s with ready := update s.ready fds ready }

def crash : CDev A F T := { s with fault := true }

/-- `delete[]`, of a null pointer or of an array. -/
def delete (p : Option A) : CDev A F T :=
  match p with
  | none => s
  | some a =>
    if (s.heap a).isSome then s.setArray a none else s.crash

omit [DecidableEq F] [DecidableEq T] in
theorem places_delete : (s.delete p).places = s.places := by
  rw [delete.eq_def]
  split
  · rfl
  · split <;> rfl

omit [DecidableEq F] [DecidableEq T] in
theorem ready_delete : (s.delete p).ready = s.ready := by
  rw [delete.eq_def]
  split
  · rfl
  · split <;> rfl

/-- The size of the next array; `_max_pollwaiters` is a `uint8_t`. -/
def newCount : ℕ := if s.maxPollwaiters > 0 then s.maxPollwaiters * 2 % 256 else 1

/-- The head of the loop of `poll`: `store_poll_waiter`, and what precedes the allocation. -/
def trySetup (t : T) (fds : F) : CDev A F T :=
  match s.slots with
  | none => s.crash
  | some xs =>
    match store fds xs with
    | some ys => ((s.setSlots ys).setReady fds true).goTo t .idle
    | none =>
      -- `-ENOMEM`
      if s.maxPollwaiters ≥ 256 / 2 then s.goTo t .idle
      else s.goTo t (.allocate fds s.pollset s.newCount)

/-- `memset` of pointers; a negative count is a huge `size_t`. -/
def memset (xs : List (Option F)) (start : ℕ) (count : ℤ) : Option (List (Option F)) :=
  if count < 0 then none else fill xs start count.toNat none

/-- The new array with the slots of the old one and the new waiter. -/
def grow (new : List (Option F)) (count : ℕ) (fds : F) : Option (List (Option F)) :=
  if s.maxPollwaiters > 0 then
    (memset new s.maxPollwaiters (count - s.maxPollwaiters)).bind fun new =>
      s.slots.bind fun xs => (copy new xs s.maxPollwaiters).bind fun new =>
        write new s.maxPollwaiters (some fds)
  else write new s.maxPollwaiters (some fds)

/-- The part of the loop after the allocation. -/
def tryReplace (t : T) (fds : F) (prev : Option A) (count : ℕ) (new : Option A) : CDev A F T :=
  if prev = s.pollset then
    match new with
    -- `-ENOMEM`
    | none => s.goTo t .idle
    | some a =>
      match (s.heap a).bind fun block => s.grow block count fds with
      | none => s.crash
      | some xs =>
        { (s.setArray a (some xs)).goTo t (.freePrev fds prev) with
          pollset := some a
          maxPollwaiters := count }
  else s.goTo t (.freeNew fds new)

def advance (t : T) : CDev A F T :=
  match s.places t with
  | .idle | .allocate .. => s
  | .setup fds => s.trySetup t fds
  | .replace fds prev count new => s.tryReplace t fds prev count new
  | .freePrev fds prev => ((s.delete prev).setReady fds true).goTo t .idle
  | .freeNew fds new => (s.delete new).goTo t (.setup fds)

/-- The answer of the allocator; it only gives what is not allocated. -/
def allocated (t : T) (answer : Option (A × List (Option F))) : CDev A F T :=
  match s.places t with
  | .allocate fds prev count =>
    match answer with
    | none => s.goTo t (.replace fds prev count none)
    | some (a, block) =>
      if (s.heap a).isNone ∧ block.length = count then
        (s.setArray a (some block)).goTo t (.replace fds prev count (some a))
      else s
  | _ => s

/-- The teardown of a pollfd: `remove_poll_waiter` in the critical section. -/
def teardown (fds : F) : CDev A F T :=
  match s.slots with
  | none => s.crash
  | some xs =>
    match remove fds xs with
    | some ys => (s.setSlots ys).setReady fds false
    -- `-EINVAL`
    | none => s.setReady fds false

inductive Event (A F T : Type) where
  /-- a thread calls `poll` to set up a pollfd -/
  | poll (t : T) (fds : F)
  | advance (t : T)
  | allocated (t : T) (answer : Option (A × List (Option F)))
  | teardown (fds : F)

def step (e : Event A F T) : CDev A F T :=
  if s.fault then s
  else match e with
    | .poll t fds => if s.places t = .idle then s.goTo t (.setup fds) else s
    | .advance t => s.advance t
    | .allocated t answer => s.allocated t answer
    | .teardown fds => s.teardown fds

def after (es : List (Event A F T)) : CDev A F T := Run.after step {} es

/-- The pollfds that `poll_notify` hands to `poll_notify_one`, in order. -/
def pollNotify : List F := (s.slots.getD []).filterMap id

end CDev

end Px4.Cdev
