import Mathlib.Logic.Function.Basic
import Px4.Common.Run

/-!
# Blocking queues

`src/include/containers/BlockingQueue.hpp`. The threads of a queue can be interrupted between any
two accesses to its members; there is no lock. A thread that has to wait for a semaphore does not
take a step.
-/

namespace Px4.WorkQueue

open Function

variable {T α : Type}

/-- What a thread does next in `push` or `pop`. -/
inductive QueuePlace (α : Type) where
  | idle
  | store (newItem : α)
  | moveTail
  | postTail
  | load
  | moveHead (ret : α)
  | postHead (ret : α)

/-- The members, and the items that have been stored and returned. -/
structure BlockingQueue (T α : Type) where
  semHead : ℕ
  semTail : ℕ := 0
  data : ℕ → α
  head : ℕ := 0
  tail : ℕ := 0
  places : T → QueuePlace α := fun _ => .idle
  stored : List α := []
  returned : List α := []

namespace BlockingQueue

inductive Event (T α : Type) where
  /-- `px4_sem_wait` of a call of `push` -/
  | push (t : T) (newItem : α)
  /-- `px4_sem_wait` of a call of `pop` -/
  | pop (t : T)
  | advance (t : T)

variable [DecidableEq T] (n : ℕ) (q : BlockingQueue T α)

def goTo (t : T) (place : QueuePlace α) : BlockingQueue T α :=
  { q with places := update q.places t place }

/-- The next step of a call. -/
def advance (t : T) : BlockingQueue T α :=
  match q.places t with
  | .idle => q
  | .store newItem =>
    { q.goTo t .moveTail with
      data := update q.data q.tail newItem, stored := q.stored ++ [newItem] }
  | .moveTail => { q.goTo t .postTail with tail := (q.tail + 1) % n }
  | .postTail => { q.goTo t .idle with semTail := q.semTail + 1 }
  | .load => q.goTo t (.moveHead (q.data q.head))
  | .moveHead ret => { q.goTo t (.postHead ret) with head := (q.head + 1) % n }
  | .postHead ret =>
    { q.goTo t .idle with semHead := q.semHead + 1, returned := q.returned ++ [ret] }

def step : Event T α → BlockingQueue T α
  | .push t newItem =>
    match q.places t, q.semHead with
    | .idle, sem + 1 => { q.goTo t (.store newItem) with semHead := sem }
    | _, _ => q
  | .pop t =>
    match q.places t, q.semTail with
    | .idle, sem + 1 => { q.goTo t .load with semTail := sem }
    | _, _ => q
  | .advance t => q.advance n t

variable {q}

/-- What is stored and not returned while a call is at the place; `item` is in the memory. -/
def pending (item : α) : QueuePlace α → Option α
  | .idle | .store _ => none
  | .moveTail | .postTail | .load => some item
  | .moveHead ret | .postHead ret => some ret

/-- A queue of one item has one token: it is in one of the semaphores, or a call has it. -/
structure Inv (q : BlockingQueue T α) : Prop where
  head_eq : q.head = 0
  tail_eq : q.tail = 0
  token : (∀ t, q.places t = .idle) ∧ (q.semHead = 1 ∧ q.semTail = 0 ∧ q.stored = q.returned ∨
      q.semHead = 0 ∧ q.semTail = 1 ∧ q.stored = q.returned ++ [q.data 0]) ∨
    ∃ t, q.places t ≠ .idle ∧ (∀ u ≠ t, q.places u = .idle) ∧ q.semHead = 0 ∧ q.semTail = 0 ∧
      q.stored = q.returned ++ (pending (q.data 0) (q.places t)).toList

theorem Inv.advance (h : q.Inv) (t) : (q.advance 1 t).Inv := by
  obtain ⟨hhead, htail, htoken⟩ := h
  by_cases hplace : q.places t = .idle
  · rw [BlockingQueue.advance, hplace]
    exact ⟨hhead, htail, htoken⟩
  -- only the call that has the token can go on
  obtain ⟨u, hu, hidle, hsemHead, hsemTail, hstored⟩ := htoken.resolve_left fun h => hplace (h.1 t)
  obtain rfl : t = u := not_imp_comm.mp (hidle t) hplace
  unfold BlockingQueue.advance
  cases hp : q.places t <;> rw [hp] at hstored <;>
    constructor <;> simp_all [goTo, update_apply, pending]

theorem Inv.step (h : q.Inv) (e) : (q.step 1 e).Inv := by
  cases e with
  | push t newItem =>
    dsimp only [BlockingQueue.step]
    split
    next sem hplace hsem =>
      obtain ⟨hhead, htail, ⟨hidle, hfree | hfull⟩ | hheld⟩ := h
      · refine ⟨hhead, htail, .inr ⟨t, ?_⟩⟩
        simp [goTo, update_apply, hidle, pending]
        grind
      all_goals grind
    · exact h
  | pop t =>
    dsimp only [BlockingQueue.step]
    split
    next sem hplace hsem =>
      obtain ⟨hhead, htail, ⟨hidle, hfree | hfull⟩ | hheld⟩ := h
      · grind
      · refine ⟨hhead, htail, .inr ⟨t, ?_⟩⟩
        simp [goTo, update_apply, hidle, pending]
        grind
      · grind
    · exact h
  | advance t => exact h.advance t

/-- The item that has been stored and not yet been returned. -/
def content (q : BlockingQueue T α) : Option α := q.stored[q.returned.length]?

/-- To the outside the queue is an `Option`, as `createQueue` of the `WorkQueueManager`: a step
fills an empty one, returns the item of a full one and empties it, or changes nothing. -/
theorem Inv.content_step (h : q.Inv) (e : Event T α) :
    let q' := q.step 1 e
    q'.content = q.content ∧ q'.returned = q.returned ∨
      (∃ item, q.content = none ∧ q'.content = some item ∧ q'.returned = q.returned) ∨
      ∃ item, q.content = some item ∧ q'.content = none ∧ q'.returned = q.returned ++ [item] := by
  cases e with
  | push t newItem =>
    dsimp only [BlockingQueue.step]
    split <;> exact .inl ⟨rfl, rfl⟩
  | pop t =>
    dsimp only [BlockingQueue.step]
    split <;> exact .inl ⟨rfl, rfl⟩
  | advance t =>
    dsimp only [BlockingQueue.step, BlockingQueue.advance]
    -- only the call that has the token can go on
    have hstored (hplace : q.places t ≠ .idle) :
        q.stored = q.returned ++ (pending (q.data 0) (q.places t)).toList := by
      obtain ⟨u, -, hidle, -, -, hstored⟩ := h.token.resolve_left fun h => hplace (h.1 t)
      obtain rfl : t = u := not_imp_comm.mp (hidle t) hplace
      exact hstored
    cases hp : q.places t with
    | store newItem => exact .inr (.inl ⟨newItem, by simp_all [content, pending, goTo]⟩)
    | postHead ret => exact .inr (.inr ⟨ret, by simp_all [content, pending, goTo]⟩)
    | _ => exact .inl ⟨rfl, rfl⟩

/-- **A queue of one item hands over every item once and in order**, whatever threads push and pop.
One call at a time is past its wait, and when there is none the next push or the next pop can go
on. -/
theorem hands_over_in_order (data : ℕ → α) (es : List (Event T α)) :
    let q := Run.after (step 1) { semHead := 1, data } es
    (∃ item : Option α, q.stored = q.returned ++ item.toList) ∧
      (∀ t u, q.places t ≠ .idle → q.places u ≠ .idle → t = u) ∧
      ((∀ t, q.places t = .idle) → q.semHead = 1 ∧ q.stored = q.returned ∨
        q.semTail = 1 ∧ ∃ item, q.stored = q.returned ++ [item]) := by
  intro q
  have hinv : q.Inv := Run.after_of_invariant (C := fun _ _ => True) (fun _ e h _ => h.step e)
    ⟨rfl, rfl, .inl ⟨fun _ => rfl, .inl ⟨rfl, rfl, rfl⟩⟩⟩ (Run.along_of_forall fun _ _ => trivial)
  obtain ⟨hidle, hfree | hfull⟩ | ⟨t, hbusy, hidle, -, -, hstored⟩ := hinv.token
  · refine ⟨⟨none, ?_⟩, fun t _ ht => absurd (hidle t) ht, fun _ => .inl ⟨hfree.1, hfree.2.2⟩⟩
    simp [hfree.2.2]
  · refine ⟨⟨some _, hfull.2.2⟩, fun t _ ht => absurd (hidle t) ht, fun _ => .inr ?_⟩
    exact ⟨hfull.2.1, _, hfull.2.2⟩
  · refine ⟨⟨_, hstored⟩, fun u v hu hv => ?_, fun hall => absurd (hall t) hbusy⟩
    rw [not_imp_comm.mp (hidle u) hu, not_imp_comm.mp (hidle v) hv]

end BlockingQueue

end Px4.WorkQueue
