import Mathlib.Tactic.Cases
import Px4.Cdev.CDev
import Px4.Common.KeyedSlots

/-!
# The poll set loses no waiter

One invariant is about the arrays in memory, of which a thread may own one besides the poll set, the
other about the pollfds in the slots. The first is kept if no address is given out that another
thread has read as the poll set and not yet compared.
-/

namespace Px4.Cdev

open Function List Option SlotArray

variable {A F T : Type}

namespace Place

/-- The pollfd that is being set up. -/
def fds : Place A F → Option F
  | .idle => none
  | .setup fds | .allocate fds _ _ | .replace fds _ _ _ | .freePrev fds _ | .freeNew fds _ =>
    some fds

/-- The pollfd that is in a slot already. -/
def stored : Place A F → Option F
  | .freePrev fds _ => some fds
  | _ => none

/-- The array that only this thread uses. -/
def owned : Place A F → Option A
  | .replace _ _ _ new => new
  | .freePrev _ prev => prev
  | .freeNew _ new => new
  | _ => none

/-- The array that may become the poll set. -/
def newPollset : Place A F → Option A
  | .replace _ _ _ new => new
  | _ => none

/-- What was read before the critical section was left: `prev_pollset` and `new_count`. -/
def seen : Place A F → Option (Option A × ℕ)
  | .allocate _ prev count | .replace _ prev count _ => some (prev, count)
  | _ => none

def prevPollset (p : Place A F) : Option (Option A) := p.seen.map (·.1)

variable {a : A}

theorem owned_of_newPollset {p : Place A F} (h : p.newPollset = some a) : p.owned = some a := by
  cases p with
  | replace => exact h
  | _ => cases h

theorem fds_of_stored {p : Place A F} {fds} (h : p.stored = some fds) : p.fds = some fds := by
  cases p with
  | freePrev => exact h
  | _ => cases h

end Place

namespace CDev

/-! ## Arrays in memory -/

section Memory

variable {s : CDev A F T} {xs ys : List (Option F)} {t : T} {a : A}

/-- `xs` is the poll set; a thread that may replace it has read its number of slots. -/
structure Memory (s : CDev A F T) (xs : List (Option F)) : Prop where
  fault : s.fault = false
  null : s.pollset = none → xs = []
  array : ∀ a, s.pollset = some a → s.heap a = some xs
  length : xs.length = s.maxPollwaiters
  owned : ∀ t a, (s.places t).owned = some a → (s.heap a).isSome = true ∧ s.pollset ≠ some a
  disjoint : KeyedSlots.Unique Place.owned s.places
  fresh : ∀ t u a, t ≠ u → (s.places t).newPollset = some a →
    (s.places u).prevPollset ≠ some (some a)
  seen : ∀ t prev count, (s.places t).seen = some (prev, count) → prev = s.pollset →
    s.maxPollwaiters < count ∧ (s.maxPollwaiters = 0 → count = 1)
  block : ∀ t fds prev count a, s.places t = .replace fds prev count (some a) →
    ∃ block, s.heap a = some block ∧ block.length = count

theorem Memory.slots_eq (h : Memory s xs) : s.slots = some xs := by
  rw [slots, ← h.length]
  cases hp : s.pollset with
  | none => rw [h.null hp]; rfl
  | some a => simp [h.array a hp]

theorem Memory.setReady [DecidableEq F] (h : Memory s xs) (fds ready) :
    Memory (s.setReady fds ready) xs :=
  { h with }

section Arrays

variable [DecidableEq A]

variable (h : Memory s xs)
include h

/-- A change of an array that no thread owns leaves the arrays of the threads alone. -/
theorem Memory.owned_setArray (howned : ∀ t, (s.places t).owned ≠ some a) (block) :
    (∀ u b, (s.places u).owned = some b →
      ((s.setArray a block).heap b).isSome ∧ s.pollset ≠ some b) ∧
    ∀ u fds prev count b, s.places u = .replace fds prev count (some b) →
      ∃ block', (s.setArray a block).heap b = some block' ∧ block'.length = count := by
  have hother : ∀ u b, (s.places u).owned = some b → b ≠ a := fun u b hb hab =>
    howned u (hab ▸ hb)
  refine ⟨fun u b hb => ?_, fun u fds prev count b hu => ?_⟩
  · rw [heap_setArray_other _ _ (hother u b hb)]
    exact h.owned u b hb
  · have hb : (s.places u).owned = some b := by rw [hu]; rfl
    rw [heap_setArray_other _ _ (hother u b hb)]
    exact h.block u fds prev count b hu

theorem Memory.setArray (hpollset : s.pollset ≠ some a) (howned : ∀ t, (s.places t).owned ≠ some a)
    (block) : Memory (s.setArray a block) xs := by
  obtain ⟨howned', hblock⟩ := h.owned_setArray howned block
  refine { h with array := ?_, owned := howned', block := hblock }
  intro b hb
  have hba : b ≠ a := fun hba => hpollset (by rw [← hba]; exact hb)
  rw [heap_setArray_other _ _ hba]
  exact h.array b hb

theorem Memory.setSlots (hlength : ys.length = xs.length) : Memory (s.setSlots ys) ys := by
  rw [CDev.setSlots]
  cases hp : s.pollset with
  | none =>
    obtain rfl := h.null hp
    obtain rfl : ys = [] := eq_nil_of_length_eq_zero hlength
    exact h
  | some a =>
    have hrest : ys ++ ((s.heap a).getD []).drop s.maxPollwaiters = ys := by
      rw [h.array a hp, ← h.length, getD_some, drop_length, append_nil]
    dsimp only
    rw [hrest]
    obtain ⟨howned, hblock⟩ := h.owned_setArray (fun u hu => (h.owned u a hu).2 hp) (some ys)
    refine { h with
      null := ?_, array := ?_, length := hlength.trans h.length, owned := howned, block := hblock }
    · intro hnull
      cases hp.symm.trans hnull
    · intro b hb
      obtain rfl := some.inj (hp.symm.trans hb)
      exact heap_setArray_self ..

end Arrays

/-- A thread goes on with arrays of its own, of the size that goes with what it has read. -/
theorem Memory.goTo [DecidableEq T] (h : Memory s xs) {p}
    (howned : ∀ a, p.owned = some a → (s.heap a).isSome ∧ s.pollset ≠ some a ∧
      ∀ u ≠ t, (s.places u).owned ≠ some a)
    (hfresh : ∀ u ≠ t, ∀ a, p.newPollset = some a → (s.places u).prevPollset ≠ some (some a))
    (hnew : ∀ u ≠ t, ∀ a, (s.places u).newPollset = some a → p.prevPollset ≠ some (some a))
    (hseen : ∀ prev count, p.seen = some (prev, count) → prev = s.pollset →
      s.maxPollwaiters < count ∧ (s.maxPollwaiters = 0 → count = 1))
    (hblock : ∀ fds prev count a, p = .replace fds prev count (some a) →
      ∃ block, s.heap a = some block ∧ block.length = count) :
    Memory (s.goTo t p) xs where
  __ := h
  owned u a hu := by
    by_cases hut : u = t
    · rw [hut, places_goTo_self] at hu
      exact ⟨(howned a hu).1, (howned a hu).2.1⟩
    · rw [places_goTo_other _ _ hut] at hu
      exact h.owned u a hu
  disjoint := h.disjoint.update fun u a hu ha => (howned a ha).2.2 u hu
  fresh u v a huv hu hv := by
    by_cases hut : u = t
    · rw [hut, places_goTo_self] at hu
      have hvt : v ≠ t := fun hvt => huv (hut.trans hvt.symm)
      rw [places_goTo_other _ _ hvt] at hv
      exact hfresh v hvt a hu hv
    · rw [places_goTo_other _ _ hut] at hu
      by_cases hvt : v = t
      · rw [hvt, places_goTo_self] at hv
        exact hnew u hut a hu hv
      · rw [places_goTo_other _ _ hvt] at hv
        exact h.fresh u v a huv hu hv
  seen u prev count hu := by
    by_cases hut : u = t
    · rw [hut, places_goTo_self] at hu
      exact hseen prev count hu
    · rw [places_goTo_other _ _ hut] at hu
      exact h.seen u prev count hu
  block u fds prev count a hu := by
    by_cases hut : u = t
    · rw [hut, places_goTo_self] at hu
      exact hblock fds prev count a hu
    · rw [places_goTo_other _ _ hut] at hu
      exact h.block u fds prev count a hu

variable {fds : F}

/-- What `memset`, `memcpy` and the write of the new waiter make of the new array. -/
theorem Memory.grow_eq (h : Memory s xs) {block} (hlt : s.maxPollwaiters < block.length)
    (hfirst : s.maxPollwaiters = 0 → block.length = 1) :
    s.grow block block.length fds =
      some (xs ++ some fds :: replicate (block.length - s.maxPollwaiters - 1) none) := by
  rw [grow, h.slots_eq, ← h.length] at *
  split
  · have hmemset : memset block xs.length ((block.length : ℤ) - xs.length) =
        fill block xs.length (block.length - xs.length) none := by
      rw [memset, if_neg (by omega)]
      congr 1
      omega
    rw [hmemset]
    exact grown none (some fds) hlt
  · have hnil : xs = [] := eq_nil_of_length_eq_zero (by omega)
    obtain ⟨v, rfl⟩ := length_eq_one_iff.mp (hfirst (by rw [hnil]; rfl))
    rw [hnil]
    rfl

section Steps

variable [DecidableEq A] [DecidableEq T]

omit [DecidableEq A] in
theorem Memory.leave (h : Memory s xs) {p : Place A F} (howned : p.owned = none)
    (hseen : p.seen = none) : Memory (s.goTo t p) xs := by
  have hprev : p.prevPollset = none := by rw [Place.prevPollset, hseen]; rfl
  refine h.goTo (fun a ha => ?_) (fun _ _ a ha => ?_) (fun _ _ a _ hp => ?_) (fun _ _ hp => ?_)
    fun fds prev count a hp => ?_
  · cases howned.symm.trans ha
  · cases howned.symm.trans (Place.owned_of_newPollset ha)
  · cases hprev.symm.trans hp
  · cases hseen.symm.trans hp
  · rw [hp] at hseen
    cases hseen

variable (h : Memory s xs)
include h

variable {p : Place A F}

theorem Memory.delete (howned : p.owned = none)
    (hseen : p.seen = none) : Memory ((s.delete (s.places t).owned).goTo t p) xs := by
  cases hown : (s.places t).owned with
  | none => exact h.leave howned hseen
  | some a =>
    obtain ⟨hsome, hpollset⟩ := h.owned t a hown
    rw [CDev.delete, if_pos hsome]
    refine (h.leave howned hseen).setArray hpollset (fun u hu => ?_) none
    by_cases hut : u = t
    · rw [hut, places_goTo_self] at hu
      cases howned.symm.trans hu
    · rw [places_goTo_other _ _ hut] at hu
      exact hut (h.disjoint u t a hu hown)

theorem Memory.allocated {prev count block} (hplace : s.places t = .allocate fds prev count)
    (hfree : s.heap a = none) (hlength : block.length = count)
    (hfresh : ∀ u ≠ t, (s.places u).prevPollset ≠ some (some a)) :
    Memory ((s.setArray a (some block)).goTo t (.replace fds prev count (some a))) xs := by
  have hpollset : s.pollset ≠ some a := fun hp => by
    cases hfree.symm.trans (h.array a hp)
  have howned : ∀ u, (s.places u).owned ≠ some a := fun u hu => by
    have hsome := (h.owned u a hu).1
    rw [hfree] at hsome
    cases hsome
  have hset := h.setArray hpollset howned (some block)
  have hheap := heap_setArray_self s a (some block)
  refine hset.goTo (fun b hb => ?_) (fun u hu b hb => ?_) (fun u hu b hb => ?_)
    (fun p c hp => ?_) fun _ _ _ b hb => ?_
  · obtain rfl := some.inj hb
    exact ⟨by rw [hheap]; rfl, hpollset, fun u _ => howned u⟩
  · obtain rfl := some.inj hb
    exact hfresh u hu
  · have hprev := h.fresh u t b hu hb
    rwa [hplace] at hprev
  · exact h.seen t p c (by rw [hplace]; exact hp)
  · cases hb
    exact ⟨block, hheap, hlength⟩

theorem Memory.replace {count} (hplace : s.places t = .replace fds s.pollset count (some a))
    (hys : ys.length = count) :
    Memory { (s.setArray a (some ys)).goTo t (.freePrev fds s.pollset) with
      pollset := some a, maxPollwaiters := count } ys := by
  have hown : (s.places t).owned = some a := by rw [hplace]; rfl
  have hnew : (s.places t).newPollset = some a := by rw [hplace]; rfl
  have hpollset := (h.owned t a hown).2
  have hself := places_goTo_self (s.setArray a (some ys)) t (.freePrev fds s.pollset)
  have hother : ∀ u ≠ t, ((s.setArray a (some ys)).goTo t (.freePrev fds s.pollset)).places u =
      s.places u := fun u hu => places_goTo_other _ _ hu
  have howned : ∀ u ≠ t, ∀ b, (s.places u).owned = some b → b ≠ a := fun u hu b hb hba =>
    hu (h.disjoint u t a (hba ▸ hb) hown)
  refine ⟨h.fault, fun hp => (by cases hp), fun b hb => ?_, hys, fun u b hu => ?_, ?_,
    fun u v b huv hu hv => ?_, fun u prev n hu hprev => ?_, fun u f prev n b hu => ?_⟩
  · cases hb
    exact heap_setArray_self ..
  · by_cases hut : u = t
    · subst hut
      have hb : s.pollset = some b := by rw [hself] at hu; exact hu
      have hba : b ≠ a := fun hba => hpollset (hba ▸ hb)
      refine ⟨?_, fun hab => hba (some.inj hab).symm⟩
      show ((s.setArray a (some ys)).heap b).isSome
      rw [heap_setArray_other _ _ hba, h.array b hb]
      rfl
    · rw [hother u hut] at hu
      have hba := howned u hut b hu
      refine ⟨?_, fun hab => hba (some.inj hab).symm⟩
      show ((s.setArray a (some ys)).heap b).isSome
      rw [heap_setArray_other _ _ hba]
      exact (h.owned u b hu).1
  · refine h.disjoint.update fun u b _ hb hu => ?_
    exact (h.owned u b hu).2 hb
  · by_cases hut : u = t
    · rw [hut, hself] at hu
      cases hu
    · by_cases hvt : v = t
      · rw [hvt, hself] at hv
        cases hv
      · rw [hother u hut] at hu
        rw [hother v hvt] at hv
        exact h.fresh u v b huv hu hv
  · by_cases hut : u = t
    · rw [hut, hself] at hu
      cases hu
    · -- no other thread has read the address of the new poll set
      rw [hother u hut] at hu
      subst hprev
      refine absurd ?_ (h.fresh t u a (Ne.symm hut) hnew)
      rw [Place.prevPollset, hu]
      rfl
  · by_cases hut : u = t
    · rw [hut, hself] at hu
      cases hu
    · rw [hother u hut] at hu
      show ∃ block, (s.setArray a (some ys)).heap b = some block ∧ _
      rw [heap_setArray_other _ _ (howned u hut b (by rw [hu]; rfl))]
      exact h.block u f prev n b hu

end Steps

end Memory

/-! ## Pollfds in slots -/

section Waiters

variable {places : T → Place A F} {ready : F → Bool} {xs ys : List (Option F)} {t : T} {fds : F}

/-- The setup of a pollfd has been successful, and it has not been torn down. -/
def Registered (places : T → Place A F) (ready : F → Bool) (fds : F) : Prop :=
  ready fds = true ∨ ∃ t, (places t).stored = some fds

variable [DecidableEq F]

/-- A pollfd is set up by one thread at a time; after a success it is in one slot. -/
structure Waiters (places : T → Place A F) (ready : F → Bool) (xs : List (Option F)) : Prop where
  waiting : KeyedSlots.Unique Place.fds places
  unready : ∀ t fds, (places t).fds = some fds → ready fds = false
  once : ∀ fds, Registered places ready fds → xs.count (some fds) = 1
  absent : ∀ fds, ¬ Registered places ready fds → xs.count (some fds) = 0

/-- A pollfd that is being set up and not yet stored is in no slot. -/
theorem Waiters.not_registered (h : Waiters places ready xs) (hfds : (places t).fds = some fds)
    (hstored : (places t).stored = none) : ¬ Registered places ready fds := by
  rintro (hready | ⟨u, hu⟩)
  · exact Bool.false_ne_true ((h.unready t fds hfds).symm.trans hready)
  · obtain rfl := h.waiting u t fds (Place.fds_of_stored hu) hfds
    cases hstored.symm.trans hu

variable [DecidableEq T]

variable {p : Place A F}

omit [DecidableEq F] in
theorem registered_update {f} (hstored : (places t).stored = none) :
    Registered (update places t p) ready f ↔
      Registered places ready f ∨ p.stored = some f := by
  constructor
  · rintro (hready | ⟨u, hu⟩)
    · exact .inl (.inl hready)
    · by_cases hut : u = t
      · rw [hut, update_self] at hu
        exact .inr hu
      · rw [update_of_ne hut] at hu
        exact .inl (.inr ⟨u, hu⟩)
  · rintro ((hready | ⟨u, hu⟩) | hp)
    · exact .inl hready
    · refine .inr ⟨u, ?_⟩
      rwa [update_of_ne]
      rintro rfl
      cases hstored.symm.trans hu
    · exact .inr ⟨t, by rwa [update_self]⟩

section

variable (h : Waiters places ready xs)
include h

theorem Waiters.goTo (hstored : (places t).stored = none) (hp : p.stored = none)
    (hfds : ∀ fds, p.fds = some fds → ready fds = false ∧ ∀ u ≠ t, (places u).fds ≠ some fds) :
    Waiters (update places t p) ready xs := by
  have hreg : ∀ f, Registered (update places t p) ready f ↔ Registered places ready f :=
    fun f => by simp [registered_update hstored, hp]
  refine ⟨h.waiting.update fun u fds hu hf => (hfds fds hf).2 u hu, fun u f hu => ?_,
    fun f hf => h.once f ((hreg f).mp hf), fun f hf => h.absent f (mt (hreg f).mpr hf)⟩
  by_cases hut : u = t
  · rw [hut, update_self] at hu
    exact (hfds f hu).1
  · rw [update_of_ne hut] at hu
    exact h.unready u f hu

theorem Waiters.next (hstored : (places t).stored = none)
    (hp : p.stored = none) (hfds : ∀ fds, p.fds = some fds → (places t).fds = some fds) :
    Waiters (update places t p) ready xs :=
  h.goTo hstored hp fun fds hf => ⟨h.unready t fds (hfds fds hf), fun u hu hother =>
    hu (h.waiting u t fds hother (hfds fds hf))⟩

variable {ready' : F → Bool}

/-- The pollfd is stored in a slot, and the setup returns or has to delete an array before. -/
theorem Waiters.store (hfds : (places t).fds = some fds) (hstored : (places t).stored = none)
    (hcount : ∀ f, ys.count (some f) = xs.count (some f) + if fds = f then 1 else 0)
    (hp : ready' = update ready fds true ∧ p = .idle ∨ ready' = ready ∧ p.stored = some fds) :
    Waiters (update places t p) ready' ys := by
  have hreg : ∀ f, Registered (update places t p) ready' f ↔
      Registered places ready f ∨ fds = f := fun f => by
    rw [registered_update hstored]
    rcases hp with ⟨rfl, rfl⟩ | ⟨rfl, hp⟩
    · by_cases hf : fds = f
      · subst hf
        simp [Registered]
      · simp [Registered, Place.stored, update_of_ne (Ne.symm hf), hf]
    · rw [hp, some_inj]
  have hpfds : ∀ f, p.fds = some f → fds = f ∧ ready' = ready := fun f hf => by
    rcases hp with ⟨-, rfl⟩ | ⟨hready, hp⟩
    · cases hf
    · exact ⟨some.inj ((Place.fds_of_stored hp).symm.trans hf), hready⟩
  have hready : ∀ f ≠ fds, ready' f = ready f := fun f hf => by
    rcases hp with ⟨rfl, -⟩ | ⟨rfl, -⟩
    · exact update_of_ne hf ..
    · rfl
  have habsent := h.absent fds (h.not_registered hfds hstored)
  refine ⟨h.waiting.update fun u f hu hf hother => ?_, fun u f hu => ?_, fun f hf => ?_,
    fun f hf => ?_⟩
  · obtain ⟨rfl, -⟩ := hpfds f hf
    exact hu (h.waiting u t fds hother hfds)
  · by_cases hut : u = t
    · rw [hut, update_self] at hu
      obtain ⟨rfl, hsame⟩ := hpfds f hu
      rw [hsame]
      exact h.unready t fds hfds
    · rw [update_of_ne hut] at hu
      rw [hready f fun hf => hut (h.waiting u t fds (hf ▸ hu) hfds)]
      exact h.unready u f hu
  · rw [hcount]
    by_cases heq : fds = f
    · rw [if_pos heq, ← heq, habsent]
    · rw [if_neg heq, h.once f (((hreg f).mp hf).resolve_right heq)]
  · rw [hreg, not_or] at hf
    rw [hcount, if_neg hf.2, h.absent f hf.1]

theorem Waiters.finish (hplace : (places t).stored = some fds) :
    Waiters (update places t .idle) (update ready fds true) xs := by
  have hfds := Place.fds_of_stored hplace
  have hreg : ∀ f, Registered (update places t .idle) (update ready fds true) f ↔
      Registered places ready f := fun f => by
    by_cases hf : f = fds
    · subst hf
      exact iff_of_true (.inl (update_self ..)) (.inr ⟨t, hplace⟩)
    rw [Registered, update_of_ne hf]
    refine or_congr_right (exists_congr fun u => ?_)
    by_cases hut : u = t
    · subst hut
      rw [update_self, hplace]
      exact iff_of_false (fun hu => by cases hu) fun hu => hf (some.inj hu).symm
    · rw [update_of_ne hut]
  refine ⟨h.waiting.update fun _ _ _ hf => (by cases hf), fun u f hu => ?_,
    fun f hf => h.once f ((hreg f).mp hf), fun f hf => h.absent f (mt (hreg f).mpr hf)⟩
  by_cases hut : u = t
  · rw [hut, update_self] at hu
    cases hu
  rw [update_of_ne hut] at hu
  have hf : f ≠ fds := fun hf => hut (h.waiting u t fds (hf ▸ hu) hfds)
  rw [update_of_ne hf]
  exact h.unready u f hu

end

omit [DecidableEq T] in
theorem Waiters.teardown (h : Waiters places ready xs) (hfds : ∀ u, (places u).fds ≠ some fds)
    (hother : ∀ f ≠ fds, ys.count (some f) = xs.count (some f)) (hnone : ys.count (some fds) = 0) :
    Waiters places (update ready fds false) ys := by
  have hreg : ∀ f, Registered places (update ready fds false) f ↔
      Registered places ready f ∧ f ≠ fds := fun f => by
    by_cases hf : f = fds
    · subst hf
      refine iff_of_false ?_ fun hreg => hreg.2 rfl
      rintro (hready | ⟨u, hu⟩)
      · rw [update_self] at hready
        cases hready
      · exact hfds u (Place.fds_of_stored hu)
    · rw [Registered, Registered, update_of_ne hf]
      exact (and_iff_left hf).symm
  refine ⟨h.waiting, fun u f hu => ?_, fun f hf => ?_, fun f hf => ?_⟩
  · have hf : f ≠ fds := fun hf => hfds u (hf ▸ hu)
    rw [update_of_ne hf]
    exact h.unready u f hu
  · obtain ⟨hf, hne⟩ := (hreg f).mp hf
    rw [hother f hne, h.once f hf]
  · by_cases hne : f = fds
    · rw [hne, hnone]
    · rw [hother f hne]
      exact h.absent f fun hf' => hf ((hreg f).mpr ⟨hf', hne⟩)

end Waiters

/-! ## Runs -/

variable [DecidableEq A] [DecidableEq F] [DecidableEq T] {s : CDev A F T}

variable (s)

/-- Calls for one pollfd do not overlap, and it is not set up twice. -/
def Proper : Event A F T → Prop
  | .poll _ fds => s.ready fds = false ∧ ∀ u, (s.places u).fds ≠ some fds
  | .teardown fds => ∀ u, (s.places u).fds ≠ some fds
  | _ => True

/-- No address is given out that another thread has read as the poll set and will compare. -/
def Fresh : Event A F T → Prop
  | .allocated t (some (a, _)) => ∀ u ≠ t, (s.places u).prevPollset ≠ some (some a)
  | _ => True

instance [Fintype T] (s : CDev A F T) : (e : Event A F T) → Decidable (Proper s e)
  | .poll .. => inferInstanceAs (Decidable (_ ∧ _))
  | .teardown fds => inferInstanceAs (Decidable (∀ u, (s.places u).fds ≠ some fds))
  | .advance _ | .allocated .. => isTrue trivial

instance [Fintype T] (s : CDev A F T) : (e : Event A F T) → Decidable (Fresh s e)
  | .allocated t (some _) => inferInstanceAs (Decidable (∀ u ≠ t, _))
  | .allocated _ none | .poll .. | .teardown _ | .advance _ => isTrue trivial

def Inv : Prop := ∃ xs, Memory s xs ∧ Waiters s.places s.ready xs

variable {fds : F}

variable {s}

variable {t : T} {answer : Option (A × List (Option F))} {e : Event A F T}

theorem Inv.trySetup (h : Inv s) (hplace : s.places t = .setup fds) : Inv (s.trySetup t fds) := by
  obtain ⟨xs, hmem, hwait⟩ := h
  have hstored : (s.places t).stored = none := by rw [hplace]; rfl
  rw [CDev.trySetup, hmem.slots_eq]
  dsimp only
  split
  · next ys hys =>
    refine ⟨ys, ?_, ?_⟩
    · exact ((hmem.setSlots (length_store hys)).setReady fds true).leave rfl rfl
    · show Waiters (update (s.setSlots ys).places t .idle)
        (update (s.setSlots ys).ready fds true) ys
      rw [places_setSlots, ready_setSlots]
      exact hwait.store (by rw [hplace]; rfl) hstored (count_store hys) (.inl ⟨rfl, rfl⟩)
  · split
    · exact ⟨xs, hmem.leave rfl rfl, hwait.next hstored rfl fun _ hf => by cases hf⟩
    · next hmax =>
      refine ⟨xs, ?_, hwait.next hstored rfl fun _ hf => by rw [hplace]; exact hf⟩
      refine hmem.goTo (fun _ ha => by cases ha) (fun _ _ _ ha => by cases ha)
        (fun u _ a ha hp => ?_) (fun prev count hp _ => ?_) fun _ _ _ _ hp => by cases hp
      · -- the poll set is no thread's own array
        exact (hmem.owned u a (Place.owned_of_newPollset ha)).2 (some.inj hp)
      · cases hp
        rw [newCount]
        split <;> omega

theorem Inv.tryReplace (h : Inv s) {prev new count}
    (hplace : s.places t = .replace fds prev count new) :
    Inv (s.tryReplace t fds prev count new) := by
  obtain ⟨xs, hmem, hwait⟩ := h
  have hstored : (s.places t).stored = none := by rw [hplace]; rfl
  rw [CDev.tryReplace.eq_def]
  split
  · next hprev =>
    subst hprev
    cases new with
    | none => exact ⟨xs, hmem.leave rfl rfl, hwait.next hstored rfl fun _ hf => by cases hf⟩
    | some a =>
      obtain ⟨block, hblock, rfl⟩ := hmem.block t _ _ _ a hplace
      obtain ⟨hlt, hfirst⟩ := hmem.seen t s.pollset block.length (by rw [hplace]; rfl) rfl
      dsimp only
      rw [hblock, bind_some, hmem.grow_eq hlt hfirst]
      refine ⟨_, hmem.replace hplace ?_, ?_⟩
      · simp [hmem.length]
        omega
      · refine hwait.store (by rw [hplace]; rfl) hstored (fun f => ?_) (.inr ⟨rfl, rfl⟩)
        simp [count_cons, count_replicate]
  · refine ⟨xs, ?_, hwait.next hstored rfl fun _ hf => by rw [hplace]; exact hf⟩
    refine hmem.goTo (fun a ha => ?_) (fun _ _ _ ha => by cases ha) (fun _ _ _ _ hp => by cases hp)
      (fun _ _ hp => by cases hp) fun _ _ _ _ hp => by cases hp
    have hown : (s.places t).owned = some a := by rw [hplace]; exact ha
    obtain ⟨hsome, hpollset⟩ := hmem.owned t a hown
    exact ⟨hsome, hpollset, fun u hu hother => hu (hmem.disjoint u t a hother hown)⟩

theorem Inv.advance (h : Inv s) (t) : Inv (s.advance t) := by
  rw [CDev.advance]
  cases hplace : s.places t with
  | idle => exact h
  | allocate => exact h
  | setup fds => exact h.trySetup hplace
  | replace fds prev count new => exact h.tryReplace hplace
  | freePrev fds prev =>
    obtain ⟨xs, hmem, hwait⟩ := h
    refine ⟨xs, ?_, ?_⟩
    · have hdelete := hmem.delete (t := t) (p := .idle) rfl rfl
      rw [hplace] at hdelete
      exact hdelete.setReady fds true
    · show Waiters (update (s.delete prev).places t .idle)
        (update (s.delete prev).ready fds true) xs
      rw [places_delete, ready_delete]
      exact hwait.finish (by rw [hplace]; rfl)
  | freeNew fds new =>
    obtain ⟨xs, hmem, hwait⟩ := h
    refine ⟨xs, ?_, ?_⟩
    · have hdelete := hmem.delete (t := t) (p := .setup fds) rfl rfl
      rwa [hplace] at hdelete
    · show Waiters (update (s.delete new).places t (.setup fds)) (s.delete new).ready xs
      rw [places_delete, ready_delete]
      exact hwait.next (by rw [hplace]; rfl) rfl fun _ hf => by rw [hplace]; exact hf

theorem Inv.allocated (h : Inv s)
    (hfresh : Fresh s (.allocated t answer)) : Inv (s.allocated t answer) := by
  rw [CDev.allocated]
  cases hplace : s.places t with
  | allocate fds prev count =>
    obtain ⟨xs, hmem, hwait⟩ := h
    have hstored : (s.places t).stored = none := by rw [hplace]; rfl
    have hnext : ∀ new, Waiters (update s.places t (.replace fds prev count new)) s.ready
        xs := fun new => hwait.next hstored rfl fun _ hf => by rw [hplace]; exact hf
    rcases answer with _ | ⟨a, block⟩
    · refine ⟨xs, ?_, hnext none⟩
      refine hmem.goTo (fun _ ha => by cases ha) (fun _ _ _ ha => by cases ha)
        (fun u hu b hb => ?_) (fun p c hp => ?_) fun _ _ _ _ hp => by cases hp
      · have hprev := hmem.fresh u t b hu hb
        rwa [hplace] at hprev
      · exact hmem.seen t p c (by rw [hplace]; exact hp)
    · dsimp only
      split
      · next hfree =>
        exact ⟨xs, hmem.allocated hplace (isNone_iff_eq_none.mp hfree.1) hfree.2 hfresh,
          hnext (some a)⟩
      · exact ⟨xs, hmem, hwait⟩
  | _ => exact h

omit [DecidableEq T] in
theorem Inv.teardown (h : Inv s) (hproper : Proper s (.teardown fds)) : Inv (s.teardown fds) := by
  obtain ⟨xs, hmem, hwait⟩ := h
  rw [CDev.teardown, hmem.slots_eq]
  dsimp only
  split
  · next ys hys =>
    have hcount := count_remove hys
    refine ⟨ys, (hmem.setSlots (length_remove hys)).setReady fds false, ?_⟩
    show Waiters (s.setSlots ys).places (update (s.setSlots ys).ready fds false) ys
    rw [places_setSlots, ready_setSlots]
    refine hwait.teardown hproper (fun f hf => ?_) ?_
    · rw [← hcount, if_neg (Ne.symm hf), Nat.add_zero]
    · have hself := hcount fds
      rw [if_pos rfl] at hself
      by_cases hreg : Registered s.places s.ready fds
      · rw [hwait.once fds hreg] at hself
        omega
      · rw [hwait.absent fds hreg] at hself
        omega
  · next hnone =>
    refine ⟨xs, hmem.setReady fds false, hwait.teardown hproper (fun _ _ => rfl) ?_⟩
    exact count_eq_zero_of_remove hnone

theorem Inv.step (h : Inv s) (he : Proper s e ∧ Fresh s e) : Inv (s.step e) := by
  have hfault : s.fault = false := h.choose_spec.1.fault
  rw [CDev.step.eq_def, hfault, if_neg Bool.false_ne_true]
  cases e with
  | poll t fds =>
    dsimp only
    split
    · next hidle =>
      obtain ⟨xs, hmem, hwait⟩ := h
      refine ⟨xs, hmem.leave rfl rfl, hwait.goTo (by rw [hidle]; rfl) rfl fun f hf => ?_⟩
      obtain rfl := some.inj hf
      exact ⟨he.1.1, fun u _ => he.1.2 u⟩
    · exact h
  | advance t => exact h.advance t
  | allocated t answer => exact h.allocated he.2
  | teardown fds => exact h.teardown he.1

omit [DecidableEq A] [DecidableEq T] in
theorem inv_start : Inv ({} : CDev A F T) := by
  refine ⟨[], ⟨rfl, fun _ => rfl, ?_, rfl, ?_, ?_, ?_, ?_, ?_⟩, ?_, ?_, ?_, ?_⟩
  · intro a ha
    cases ha
  · intro t a ha
    cases ha
  · intro t u a ha
    cases ha
  · intro t u a _ ha
    cases ha
  · intro t prev count ht
    cases ht
  · intro t fds prev count a ht
    cases ht
  · intro t u fds ht
    cases ht
  · intro t fds ht
    cases ht
  · rintro fds (hready | ⟨t, ht⟩)
    · cases hready
    · cases ht
  · intro fds _
    rfl

omit [DecidableEq A] [DecidableEq T] in
theorem count_pollNotify {xs} (h : s.slots = some xs) :
    s.pollNotify.count fds = xs.count (some fds) := by
  rw [pollNotify, h, getD_some]
  clear h
  induction xs with
  | nil => rfl
  | cons x xs ih =>
    cases x with
    | none => simpa [count_cons] using ih
    | some f => simpa [count_cons] using ih

/-- The poll set loses no waiter, if no address is given out that another thread is about to compare
with: no access is outside an array, and a pollfd is in one slot, and reached once by `poll_notify`,
when its setup has been successful and it has not been torn down, and in none otherwise. -/
theorem no_waiter_lost (es : List (Event A F T))
    (h : Run.Along step (fun s e => Proper s e ∧ Fresh s e) {} es) :
    (after es).fault = false ∧
    ∃ xs, (after es).slots = some xs ∧ xs.length = (after es).maxPollwaiters ∧
      (∀ a, (after es).pollset = some a → (after es).heap a = some xs) ∧
      ∀ fds,
        (Registered (after es).places (after es).ready fds →
          xs.count (some fds) = 1 ∧ (after es).pollNotify.count fds = 1) ∧
        (¬ Registered (after es).places (after es).ready fds → xs.count (some fds) = 0) := by
  have hinv : Inv (after es) := Run.after_of_invariant (fun _ _ hs he => hs.step he) inv_start h
  obtain ⟨xs, hmem, hwait⟩ := hinv
  refine ⟨hmem.fault, xs, hmem.slots_eq, hmem.length, hmem.array, fun fds =>
    ⟨fun hreg => ?_, hwait.absent fds⟩⟩
  rw [count_pollNotify hmem.slots_eq]
  exact ⟨hwait.once fds hreg, hwait.once fds hreg⟩

/-- Two pollfds are set up, in an array of two slots, and the first one is torn down. -/
def twoWaiters : List (Event (Fin 3) (Fin 2) (Fin 2)) :=
  [.poll 0 0, .advance 0, .allocated 0 (some (0, [none])), .advance 0, .advance 0,
    .poll 1 1, .advance 1, .allocated 1 (some (1, [some 0, some 0])), .advance 1, .advance 1,
    .teardown 0]

theorem no_waiter_lost_twoWaiters :
    (after twoWaiters).fault = false ∧
    ∃ xs, (after twoWaiters).slots = some xs ∧ xs.length = (after twoWaiters).maxPollwaiters ∧
      (∀ a, (after twoWaiters).pollset = some a → (after twoWaiters).heap a = some xs) ∧
      ∀ fds,
        (Registered (after twoWaiters).places (after twoWaiters).ready fds →
          xs.count (some fds) = 1 ∧ (after twoWaiters).pollNotify.count fds = 1) ∧
        (¬ Registered (after twoWaiters).places (after twoWaiters).ready fds →
          xs.count (some fds) = 0) :=
  no_waiter_lost twoWaiters (by decide +kernel)

/-- Thread 1 has read an address; two others replace the array, the second at that address. -/
def addressReused : List (Event (Fin 3) (Fin 4) (Fin 4)) :=
  [.poll 0 0, .advance 0, .allocated 0 (some (0, [none])), .advance 0, .advance 0,
    .poll 1 1, .advance 1,
    .poll 2 2, .advance 2, .allocated 2 (some (1, [none, none])), .advance 2, .advance 2,
    .poll 3 3, .advance 3, .allocated 3 (some (0, [none, none, none, none])), .advance 3,
    .advance 3,
    .allocated 1 (some (2, [none, none]))]

/-- With a reused address a thread takes the poll set for the one that it has read: it is about to
move four slots to an array of two, and the write is outside of it. -/
theorem reused_address_overruns :
    Run.Along step Proper {} (addressReused ++ [.advance 1]) ∧
    (after addressReused).fault = false ∧
    (after addressReused).places 1 = .replace 1 (some 0) 2 (some 2) ∧
    (after addressReused).pollset = some 0 ∧ (after addressReused).maxPollwaiters = 4 ∧
    (after (addressReused ++ [.advance 1])).fault = true := by
  decide +kernel

end CDev

end Px4.Cdev
