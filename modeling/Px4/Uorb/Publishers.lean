import Mathlib.Data.Fintype.Basic
import Px4.Uorb.Delivery

/-!
# Concurrent publishers of a uORB topic

`DeviceNode::write` allocates the buffer of a node with the node lock held, and stores the message
in a critical section of its own. In between other threads may run: publishers of the same topic,
and subscribers, which `DeviceNode::copy` gives whatever is in the buffer.
-/

namespace Px4.Uorb

open BitVec Function List Nat Option

/-- The place of a thread in `DeviceNode::write`: what it does next. -/
inductive WritePlace where
  | idle
  /-- has found no buffer, and takes the lock to allocate one -/
  | allocate (buffer : Message)
  /-- checks the size of the message and stores it -/
  | store (buffer : Message)
deriving DecidableEq

/-- The message that the thread writes. -/
def WritePlace.buffer : WritePlace → Option Message
  | .idle => none
  | .allocate buffer | .store buffer => some buffer

structure SharedTopic (T ι : Type) where
  node : DeviceNode
  places : T → WritePlace := fun _ => .idle
  subs : ι → Subscription := fun _ => {}
  /-- the buffers that have been passed to `write` -/
  passed : List Message := []

namespace SharedTopic

variable {T ι : Type} [DecidableEq T] [DecidableEq ι]

inductive Event (T ι : Type) where
  | advertise
  /-- a thread calls `write` and looks for the buffer of the node -/
  | write (t : T) (buffer : Message)
  | allocate (t : T) (allocOk : Bool)
  | store (t : T)
  /-- `Manager::orb_add_internal_subscriber` -/
  | subscribe (i : ι)
  | copy (i : ι)
  | update (i : ι)

def goTo (s : SharedTopic T ι) (t : T) (place : WritePlace) : SharedTopic T ι :=
  { s with places := update s.places t place }

def setSub (s : SharedTopic T ι) (i : ι) (sub : Subscription) : SharedTopic T ι :=
  { s with subs := update s.subs i sub }

omit [DecidableEq ι] in
theorem places_goTo_self (s : SharedTopic T ι) (t place) : (s.goTo t place).places t = place :=
  update_self ..

variable {u t : T} {i : ι} {sub : Subscription}

omit [DecidableEq ι] in
theorem places_goTo_other (s : SharedTopic T ι) (place) (h : u ≠ t) :
    (s.goTo t place).places u = s.places u :=
  update_of_ne h ..

omit [DecidableEq T] in
theorem subs_setSub_self {s : SharedTopic T ι} : (s.setSub i sub).subs i = sub :=
  update_self ..

omit [DecidableEq T] in
theorem subs_setSub_other {s : SharedTopic T ι} {i j sub} (h : j ≠ i) :
    (s.setSub i sub).subs j = s.subs j :=
  update_of_ne h ..

def step (s : SharedTopic T ι) : Event T ι → SharedTopic T ι
  | .advertise => { s with node := { s.node with advertised := true } }
  | .write t buffer =>
    if s.places t = .idle then
      { s.goTo t (if s.node.data.isNone then .allocate buffer else .store buffer) with
        passed := s.passed ++ [buffer] }
    else s
  | .allocate t allocOk =>
    match s.places t with
    | .allocate buffer =>
      -- `-ENOMEM` if there is still no buffer
      { s.goTo t (if (s.node.allocate allocOk).data.isNone then .idle else .store buffer) with
        node := s.node.allocate allocOk }
    | _ => s
  | .store t =>
    match s.places t, s.node.data with
    | .store buffer, some data =>
      -- `-EIO`
      if s.node.orbMeta.oSize.toNat ≠ buffer.length then s.goTo t .idle
      else { s.goTo t .idle with node := s.node.store data buffer }
    | _, _ => s
  | .subscribe i => s.setSub i ((s.subs i).subscribe s.node)
  | .copy i => s.setSub i ((s.subs i).copy s.node).1
  | .update i => s.setSub i ((s.subs i).update s.node).1

/-- The message that an event gives to a subscriber. -/
def result (s : SharedTopic T ι) : Event T ι → Option Message
  | .copy i => ((s.subs i).copy s.node).2
  | .update i => ((s.subs i).update s.node).2
  | _ => none

def start (orbMeta : OrbMetadata) : SharedTopic T ι := { node := { orbMeta } }

/-- `copy` is not called between the allocation of the buffer and the first message. -/
def Filled (s : SharedTopic T ι) : Event T ι → Prop
  | .copy _ => s.node.data = none ∨ s.node.dataValid = true
  | _ => True

instance (s : SharedTopic T ι) : (e : Event T ι) → Decidable (Filled s e)
  | .copy _ => inferInstanceAs (Decidable (_ ∨ _))
  | .advertise | .write .. | .allocate .. | .store _ | .subscribe _ | .update _ =>
    isTrue trivial

/-- What an event gives to a subscriber has been passed to `write` before. -/
def Published (s : SharedTopic T ι) (e : Event T ι) : Prop :=
  ∀ message, s.result e = some message → message ∈ s.passed

end SharedTopic

/-! ## What is in the buffer -/

open DeviceNode

variable {T ι : Type} {passed : List Message} {w : ℕ}

/-- `w` messages have been stored, all of them from `passed`. -/
structure DeviceNode.Stored (node : DeviceNode) (passed : List Message) (w : ℕ) : Prop where
  queue : 0 < node.queueSize
  generation : node.generation = BitVec.ofNat 32 w
  valid : node.dataValid = true ↔ 0 < w
  empty : node.data = none → w = 0
  length : ∀ data, node.data = some data → data.length = node.queueSize
  slots : ∀ data, node.data = some data → ∀ i < w, i < node.queueSize →
    ∃ message ∈ passed, data[i]? = some message

/-- A generation that a subscriber may have: not behind the node before the buffer is full. -/
def DeviceNode.Seen (node : DeviceNode) (w : ℕ) (generation : BitVec 32) : Prop :=
  w < node.queueSize → generation.toNat ≤ w

namespace DeviceNode.Stored

variable {node : DeviceNode} {generation : BitVec 32}

variable (h : node.Stored passed w)
include h

variable {passed' : List Message} {buffer message : Message} {generation' : BitVec 32}

theorem mono (hsub : passed ⊆ passed') : node.Stored passed' w :=
  { h with
    slots := fun data hdata i hi hq => by
      obtain ⟨message, hmem, hslot⟩ := h.slots data hdata i hi hq
      exact ⟨message, hsub hmem, hslot⟩ }

theorem allocate (allocOk) : (node.allocate allocOk).Stored passed w := by
  rw [DeviceNode.allocate]
  split
  · exact h
  next hdata =>
  split
  · have hw := h.empty hdata
    refine { h with empty := fun _ => hw, length := ?_, slots := ?_ }
    · intro data hdata
      obtain rfl := some.inj hdata
      exact length_replicate
    · omega
  · exact h

theorem slot_eq (hw : w < node.queueSize) : node.slot node.generation = w := by
  have hq : node.queueSize < 2 ^ 8 := node.orbMeta.oQueue.toNat_lt
  rw [slot, h.generation, toNat_ofNat, mod_eq_of_lt (a := w) (by omega),
    mod_eq_of_lt hw]

theorem store {data} (hdata : node.data = some data) (hbuffer : buffer ∈ passed) :
    (node.store data buffer).Stored passed (w + 1) := by
  have hlength := h.length data hdata
  refine ⟨h.queue, ?_, iff_of_true rfl (succ_pos w), fun hnone => (by cases hnone), ?_, ?_⟩
  · show node.generation + 1 = _
    rw [h.generation]
    exact ofNat_add_ofNat _ _
  · intro data' hdata'
    obtain rfl := some.inj hdata'
    exact length_set.trans hlength
  · intro data' hdata' i hi hq
    obtain rfl := some.inj hdata'
    have hq' : i < node.queueSize := hq
    by_cases hslot : node.slot node.generation = i
    · refine ⟨buffer, hbuffer, ?_⟩
      rw [hslot, getElem?_set_self (by omega)]
    have hw : i < w := by
      rcases lt_or_ge i w with hlt | hge
      · exact hlt
      · exact absurd ((h.slot_eq (by omega)).trans (by omega)) hslot
    obtain ⟨message, hmem, hget⟩ := h.slots data hdata i hw hq'
    exact ⟨message, hmem, by rw [getElem?_set_ne hslot, hget]⟩

theorem getInitialGeneration : node.Seen w node.getInitialGeneration := by
  intro hw
  rw [DeviceNode.getInitialGeneration, h.generation]
  split
  · next hvalid =>
    have hpos := h.valid.mp hvalid
    bv_omega
  · bv_omega

/-- Before the buffer is full, `copy` reads a generation that has been stored. -/
theorem copyGeneration (hw : 0 < w) (hlt : w < node.queueSize) (hseen : generation.toNat ≤ w) :
    ∃ k < w, node.copyGeneration generation = BitVec.ofNat 32 k := by
  have hq : node.queueSize < 2 ^ 8 := node.orbMeta.oQueue.toNat_lt
  have hrange : ∀ k < w, isInRange (BitVec.ofNat 32 w - BitVec.ofNat 32 node.queueSize)
      (BitVec.ofNat 32 k) (BitVec.ofNat 32 w - 1) := fun k hk =>
    (isInRange_iff (by omega) hq hk (by omega)).mpr (by omega)
  obtain ⟨k, hk, hread⟩ : ∃ k < w, (if BitVec.ofNat 32 w = generation then generation - 1
      else generation) = BitVec.ofNat 32 k := by
    split
    · next heq => exact ⟨w - 1, by omega, by bv_omega⟩
    · exact ⟨generation.toNat, by bv_omega, by rw [ofNat_toNat, setWidth_eq]⟩
  refine ⟨k, hk, ?_⟩
  simp only [DeviceNode.copyGeneration, h.generation, hread, hrange k hk, Bool.not_true,
    Bool.false_eq_true, if_false]

theorem copy (hw : 0 < w) (hseen : node.Seen w generation)
    (hcopy : node.copy generation = some (message, generation')) :
    message ∈ passed ∧ node.Seen w generation' := by
  have hget : ∀ data, node.data = some data → ∀ i < w, i < node.queueSize →
      data.getD i [] ∈ passed := fun data hdata i hi hq => by
    obtain ⟨message, hmem, hslot⟩ := h.slots data hdata i hi hq
    rwa [getD_eq_getElem?_getD, hslot]
  rw [DeviceNode.copy] at hcopy
  split at hcopy
  · cases hcopy
  next data hdata =>
  split at hcopy
  · next hone =>
    have hq : node.queueSize = 1 := by rw [queueSize, hone]; rfl
    obtain ⟨rfl, rfl⟩ := Prod.mk.inj (some.inj hcopy)
    refine ⟨?_, fun hlt => absurd hlt (by omega)⟩
    rw [headD_eq_head?_getD, head?_eq_getElem?]
    exact hget data hdata 0 hw (by omega)
  · obtain ⟨rfl, rfl⟩ := Prod.mk.inj (some.inj hcopy)
    have hslot : node.slot (node.copyGeneration generation) < node.queueSize :=
      mod_lt _ h.queue
    rcases lt_or_ge w node.queueSize with hlt | hge
    · have hq : node.queueSize < 2 ^ 8 := node.orbMeta.oQueue.toNat_lt
      obtain ⟨k, hk, hread⟩ := h.copyGeneration hw hlt (hseen hlt)
      have hslot_eq : node.slot (node.copyGeneration generation) = k := by
        rw [hread, slot, toNat_ofNat, mod_eq_of_lt (by omega),
          mod_eq_of_lt (by omega)]
      refine ⟨hget data hdata _ (by omega) hslot, fun _ => ?_⟩
      bv_omega
    · exact ⟨hget data hdata _ (by omega) hslot, fun hlt => absurd hlt (by omega)⟩

end DeviceNode.Stored

namespace SharedTopic

variable {s : SharedTopic T ι}

/-- What is in the buffer, or about to get there, has been passed to `write`. -/
structure Inv (s : SharedTopic T ι) (w : ℕ) : Prop where
  stored : s.node.Stored s.passed w
  pending : ∀ t buffer, (s.places t).buffer = some buffer → buffer ∈ s.passed
  seen : ∀ i, (s.subs i).subscribed = true → s.node.Seen w (s.subs i).lastGeneration

/-! ### Publishers -/

section Publishers

variable [DecidableEq T]

variable {t : T} {place : WritePlace}

/-- A thread goes on with a message that has been passed to `write`. -/
theorem Inv.goTo (h : Inv s w) (hplace : ∀ buffer, place.buffer = some buffer → buffer ∈ s.passed) :
    Inv (s.goTo t place) w := by
  refine { h with pending := fun u buffer hu => ?_ }
  by_cases hut : u = t
  · rw [hut, places_goTo_self] at hu
    exact hplace buffer hu
  · rw [places_goTo_other _ _ hut] at hu
    exact h.pending u buffer hu

omit [DecidableEq T] in
theorem Inv.pass (h : Inv s w) (buffer) :
    Inv { s with passed := s.passed ++ [buffer] } w where
  stored := h.stored.mono (subset_append_left _ _)
  pending t message ht := mem_append_left _ (h.pending t message ht)
  seen := h.seen

variable (h : Inv s w)
include h

theorem Inv.write [DecidableEq ι] (t buffer) : Inv (s.step (.write t buffer)) w := by
  rw [step]
  split
  · refine (h.pass buffer).goTo fun message hmessage => ?_
    have hbuffer : buffer = message := by
      split at hmessage <;> exact some.inj hmessage
    exact mem_append_right _ (mem_singleton.mpr hbuffer.symm)
  · exact h

theorem Inv.allocate [DecidableEq ι] (t allocOk) : Inv (s.step (.allocate t allocOk)) w := by
  rw [step]
  split
  · next buffer hplace =>
    have hnode : Inv { s with node := s.node.allocate allocOk } w := by
      refine { h with stored := h.stored.allocate allocOk, seen := fun i hi => ?_ }
      rw [Seen, Topic.allocate_queueSize]
      exact h.seen i hi
    refine hnode.goTo fun message hmessage => h.pending t message ?_
    rw [hplace]
    split at hmessage
    · cases hmessage
    · exact hmessage
  · exact h

theorem Inv.store [DecidableEq ι] (t) : ∃ w, Inv (s.step (.store t)) w := by
  rw [step]
  split
  · next buffer data hplace hdata =>
    split
    · exact ⟨w, h.goTo fun _ hmessage => by cases hmessage⟩
    have hbuffer := h.pending t buffer (by rw [hplace]; rfl)
    have hnode : Inv { s with node := s.node.store data buffer } (w + 1) := by
      refine { h with stored := h.stored.store hdata hbuffer, seen := fun i hi hlt => ?_ }
      exact le_succ_of_le (h.seen i hi (lt_of_succ_lt hlt))
    exact ⟨w + 1, hnode.goTo fun _ hmessage => by cases hmessage⟩
  · exact ⟨w, h⟩

end Publishers

/-! ### Subscribers -/

section Subscribers

variable [DecidableEq ι]

variable {i : ι} {sub : Subscription}

theorem Inv.setSub (h : Inv s w)
    (hsub : sub.subscribed → s.node.Seen w sub.lastGeneration) : Inv (s.setSub i sub) w := by
  refine { h with seen := fun j hj => ?_ }
  by_cases hji : j = i
  · rw [hji, subs_setSub_self] at hj ⊢
    exact hsub hj
  · rw [subs_setSub_other hji] at hj ⊢
    exact h.seen j hj

omit [DecidableEq ι] in
theorem Inv.subscribe (h : Inv s w) (i) :
    s.node.Seen w ((s.subs i).subscribe s.node).lastGeneration := by
  rw [Subscription.subscribe]
  split
  · next hsub => exact h.seen i hsub
  · exact h.stored.getInitialGeneration

omit [DecidableEq ι] in
/-- A read by `orb_data_copy`; without `only_if_updated` there has to be a message. -/
theorem Inv.orbDataCopy (h : Inv s w) {i onlyIfUpdated message generation}
    (hfilled : onlyIfUpdated = false → s.node.data = none ∨ s.node.dataValid)
    (hread : orbDataCopy s.node ((s.subs i).subscribe s.node).lastGeneration onlyIfUpdated =
      some (message, generation)) : message ∈ s.passed ∧ s.node.Seen w generation := by
  have hseen := h.subscribe i
  rw [Uorb.orbDataCopy] at hread
  split at hread
  · cases hread
  split at hread
  · cases hread
  next hupdated =>
  refine h.stored.copy ?_ hseen hread
  cases onlyIfUpdated with
  | true =>
    by_contra hzero
    have hlast := hseen (by have := h.stored.queue; omega)
    have hgeneration := h.stored.generation
    refine hupdated ?_
    rw [Bool.true_and, decide_eq_true_eq, updatesAvailable]
    bv_omega
  | false =>
    rcases hfilled rfl with hnone | hvalid
    · rw [DeviceNode.copy, hnone] at hread
      cases hread
    · exact h.stored.valid.mp hvalid

theorem Inv.copy [DecidableEq T] (h : Inv s w) {i} (hfilled : Filled s (.copy i : Event T ι)) :
    Inv (s.step (.copy i)) w ∧ Published s (.copy i : Event T ι) := by
  rw [step, Published, result, Subscription.copy]
  cases hread : Uorb.orbDataCopy s.node ((s.subs i).subscribe s.node).lastGeneration false with
  | none => exact ⟨h.setSub fun _ => h.subscribe i, fun _ hmessage => by cases hmessage⟩
  | some read =>
    obtain ⟨hmem, hseen⟩ := h.orbDataCopy (fun _ => hfilled) hread
    refine ⟨h.setSub fun _ => hseen, fun message hmessage => ?_⟩
    obtain rfl := some.inj hmessage
    exact hmem

theorem Inv.update [DecidableEq T] (h : Inv s w) (i) :
    Inv (s.step (.update i)) w ∧ Published s (.update i : Event T ι) := by
  rw [step, Published, result, Subscription.update]
  cases hread : Uorb.orbDataCopy s.node ((s.subs i).subscribe s.node).lastGeneration true with
  | none => exact ⟨h.setSub fun _ => h.subscribe i, fun _ hmessage => by cases hmessage⟩
  | some read =>
    obtain ⟨hmem, hseen⟩ := h.orbDataCopy (fun hfalse => by cases hfalse) hread
    refine ⟨h.setSub fun _ => hseen, fun message hmessage => ?_⟩
    obtain rfl := some.inj hmessage
    exact hmem

end Subscribers

/-! ### Runs -/

variable [DecidableEq T] [DecidableEq ι]

variable {e : Event T ι}

theorem Inv.step (h : Inv s w) (he : Filled s e) : (∃ w, Inv (s.step e) w) ∧ Published s e := by
  cases e with
  | advertise => exact ⟨⟨w, { h with stored := { h.stored with } }⟩, fun _ hm => by cases hm⟩
  | write t buffer => exact ⟨⟨w, h.write t buffer⟩, fun _ hm => by cases hm⟩
  | allocate t allocOk => exact ⟨⟨w, h.allocate t allocOk⟩, fun _ hm => by cases hm⟩
  | store t => exact ⟨h.store t, fun _ hm => by cases hm⟩
  | subscribe i => exact ⟨⟨w, h.setSub fun _ => h.subscribe i⟩, fun _ hm => by cases hm⟩
  | copy i => exact ⟨⟨w, (h.copy he).1⟩, (h.copy he).2⟩
  | update i => exact ⟨⟨w, (h.update i).1⟩, (h.update i).2⟩

omit [DecidableEq T] [DecidableEq ι] in
theorem inv_start {orbMeta} (hq : orbMeta.oQueue ≠ 0) :
    Inv (start orbMeta : SharedTopic T ι) 0 where
  stored := by
    refine ⟨?_, rfl, iff_of_false (fun h => by cases h) (lt_irrefl 0), fun _ => rfl, ?_, ?_⟩
    · exact pos_of_ne_zero fun hzero => hq (UInt8.toNat_inj.mp hzero)
    · intro _ hdata
      cases hdata
    · intro _ hdata
      cases hdata
  pending _ _ ht := by cases ht
  seen _ hi := by cases hi

/-- A subscriber is only given messages that have been passed to `write`, in any interleaving in
which `copy` is not called between the allocation of the buffer and the first message. -/
theorem only_published_delivered (orbMeta : OrbMetadata) (hq : orbMeta.oQueue ≠ 0)
    (es : List (Event T ι)) (h : Run.Along step Filled (start orbMeta) es) :
    Run.Along step Published (start orbMeta) es :=
  Run.along_of_invariant (I := fun s => ∃ w, Inv s w) (fun _ _ ⟨_, hs⟩ he => (hs.step he).1)
    (fun _ _ ⟨_, hs⟩ he => (hs.step he).2) ⟨0, inv_start hq⟩ h

/-- A subscriber of a queue of four messages reads before and after the first one. -/
def firstMessage : List (Event ℕ ℕ) :=
  [.subscribe 0, .copy 0, .advertise, .write 0 [7], .write 1 [8], .allocate 0 true, .update 0,
    .store 0, .copy 0, .allocate 1 true, .copy 0, .store 1, .update 0]

theorem only_published_delivered_firstMessage :
    Run.Along step Published (start ⟨1, 4⟩) firstMessage :=
  only_published_delivered ⟨1, 4⟩ (by decide) firstMessage (by decide)

/-- A publisher has allocated the buffer, and has not stored its message. -/
def bufferAllocated : List (Event ℕ ℕ) :=
  [.advertise, .write 0 [7], .allocate 0 true]

/-- A subscriber that reads between the allocation of the buffer and the first message is given
zeros, whether the topic has a queue or not. -/
theorem zeros_delivered :
    (Run.after step (start ⟨1, 1⟩) bufferAllocated).passed = [[7]] ∧
    (Run.after step (start ⟨1, 1⟩) bufferAllocated).result (.copy 0) = some [0] ∧
    (Run.after step (start ⟨1, 4⟩) bufferAllocated).passed = [[7]] ∧
    (Run.after step (start ⟨1, 4⟩) bufferAllocated).result (.copy 0) = some [0] := by
  decide

end SharedTopic

end Px4.Uorb
