import Px4.Common.Run
import Px4.Common.RetainedLog
import Px4.Uorb.DeviceNode

/-!
# Delivery of queued uORB topics

A topic comes with the log of the messages whose `write` succeeded, and for every subscriber the
index of its next message. The node refines that log: its `q` slots hold the last `q` messages and
its generation is the length of the log modulo `2 ^ 32`, so that at each `update` fewer than `2 ^
32` messages may be unread.
-/

namespace Px4.Uorb

open DeviceNode Function List Option RetainedLog Run

variable {ι : Type*} [DecidableEq ι]

/-- One step of a topic: a publication or an `update` of one of its subscribers. -/
inductive TopicEvent (ι : Type*) where
  | write (allocOk : Bool) (buffer : Message)
  | update (i : ι)

/-- A node with its subscribers, and the history they are compared with. -/
structure Topic (ι : Type*) where
  node : DeviceNode
  subs : ι → Subscription := fun _ => {}
  /-- The messages of all successful writes, in order. -/
  published : List Message := []
  /-- The index of the next message for a subscriber, once it is subscribed. -/
  cursor : ι → Option ℕ := fun _ => none
  /-- The number of successful writes since the last `update` of a subscriber. -/
  sinceRead : ι → ℕ := fun _ => 0

namespace Topic

variable (t : Topic ι)

/-- A freshly advertised node without subscribers. -/
def init (orbMeta : OrbMetadata) : Topic ι :=
  { node := { orbMeta, advertised := true } }

/-- The cursor of a subscriber, where a new one starts at the last message if there is one. -/
def cursorOf (i : ι) : ℕ :=
  (t.cursor i).getD (t.published.length - 1)

/-- The number of messages that a subscriber has not been given yet. -/
def unread (i : ι) : ℕ :=
  t.published.length - t.cursorOf i

/-- What `update` of subscriber `i` returns. -/
def updateResult (i : ι) : Option Message :=
  ((t.subs i).update t.node).2

/-- The history follows the code for `write` and the abstract log for `update`. -/
def step : TopicEvent ι → Topic ι
  | .write allocOk buffer =>
    match t.node.write allocOk buffer with
    | (node, .error _) => { t with node }
    | (node, .ok _) =>
      { t with
        node
        published := t.published ++ [buffer]
        sinceRead := fun i => t.sinceRead i + 1 }
  | .update i =>
    { t with
      subs := Function.update t.subs i ((t.subs i).update t.node).1
      cursor := Function.update t.cursor i (some
        (((RetainedLog.read t.node.queueSize t.published (t.cursorOf i)).map Prod.snd).getD
          (t.cursorOf i)))
      sinceRead := Function.update t.sinceRead i 0 }

/-- `update` returns false exactly if nothing is unread, and else message `k`, the next one for this
subscriber if at most `q` messages are unread and the oldest of the last `q` if not; the subscriber
then goes on behind `k`. -/
def Delivers : TopicEvent ι → Prop
  | .write _ _ => True
  | .update i =>
    (t.updateResult i = none ↔ t.unread i = 0) ∧
    ∀ message, t.updateResult i = some message → ∃ k,
      t.published[k]? = some message ∧
      (t.unread i ≤ t.node.queueSize → k = t.cursorOf i) ∧
      (t.node.queueSize < t.unread i →
        k = t.published.length - t.node.queueSize ∧ t.cursorOf i < k) ∧
      (t.step (.update i)).cursor i = some (k + 1)

/-- Fewer than `2 ^ 32` writes have happened since the last read of a subscriber that reads. -/
def FewWrites : TopicEvent ι → Prop
  | .write _ _ => True
  | .update i => t.sinceRead i < 2 ^ 32

/-- Fewer than `2 ^ 32` messages are unread by a subscriber that reads. -/
def FewUnread : TopicEvent ι → Prop
  | .write _ _ => True
  | .update i => t.unread i < 2 ^ 32

instance (t : Topic ι) : (e : TopicEvent ι) → Decidable (t.FewWrites e)
  | .write .. => isTrue trivial
  | .update _ => inferInstanceAs (Decidable (_ < _))

instance (t : Topic ι) : (e : TopicEvent ι) → Decidable (t.FewUnread e)
  | .write .. => isTrue trivial
  | .update _ => inferInstanceAs (Decidable (_ < _))

end Topic

/-! ## The generation window -/

variable {q c n k : ℕ}

/-- With fewer than `2 ^ 32` unread messages `copy` accepts a reader exactly up to `q` behind. -/
theorem isInRange_iff (hq : 1 < q) (hq' : q < 2 ^ 8) (hc : c < n) (hn : n - c < 2 ^ 32) :
    isInRange (BitVec.ofNat 32 n - BitVec.ofNat 32 q) (BitVec.ofNat 32 c)
      (BitVec.ofNat 32 n - 1) ↔ n - c ≤ q := by
  simp only [isInRange]
  split_ifs with h
  · simp only [Bool.and_eq_true, decide_eq_true_eq]
    bv_omega
  · simp only [Bool.or_eq_true, decide_eq_true_eq]
    bv_omega

/-- The ring size divides `2 ^ 32`, so that wrapped generations have the slot of their message. -/
theorem slot_ofNat {node : DeviceNode} (hdvd : node.queueSize ∣ 2 ^ 32) :
    node.slot (BitVec.ofNat 32 k) = k % node.queueSize := by
  exact Nat.mod_mod_of_dvd k hdvd

/-! ## The node refines the log -/

namespace Topic

/-- The simulation relation between a topic and its history. -/
structure Refines (t : Topic ι) : Prop where
  advertised : t.node.advertised = true
  generation_eq : t.node.generation = BitVec.ofNat 32 t.published.length
  valid_iff : t.node.dataValid = true ↔ t.published ≠ []
  unallocated : t.node.data = none → t.published = []
  holds : ∀ data, t.node.data = some data →
    RetainedLog.Holds t.node.queueSize data t.published
  subscribed_iff : ∀ i, (t.subs i).subscribed = (t.cursor i).isSome
  cursor_le : ∀ i c, t.cursor i = some c → c ≤ t.published.length
  last_eq : ∀ i c, t.cursor i = some c → (t.subs i).lastGeneration = BitVec.ofNat 32 c

omit [DecidableEq ι] in
theorem refines_init {orbMeta} : (init orbMeta : Topic ι).Refines where
  advertised := rfl
  generation_eq := rfl
  valid_iff := by simp [init]
  unallocated := fun _ => rfl
  holds := by simp [init]
  subscribed_iff := fun _ => rfl
  cursor_le := by simp [init]
  last_eq := by simp [init]

variable {t : Topic ι} {i : ι}

omit [DecidableEq ι] in
/-- Allocating the buffer keeps the relation: an empty ring holds the empty log. -/
theorem Refines.allocate (h : t.Refines) (allocOk) :
    ({ t with node := t.node.allocate allocOk } : Topic ι).Refines := by
  cases hdata : t.node.data with
  | some data => simpa [DeviceNode.allocate, hdata] using h
  | none =>
    cases allocOk with
    | false => simpa [DeviceNode.allocate, hdata] using h
    | true =>
      have hnil := h.unallocated hdata
      refine ⟨?_, ?_, ?_, ?_, ?_, h.subscribed_iff, h.cursor_le, h.last_eq⟩
      · simpa [DeviceNode.allocate, hdata] using h.advertised
      · simpa [DeviceNode.allocate, hdata] using h.generation_eq
      · simpa [DeviceNode.allocate, hdata] using h.valid_iff
      · simp [DeviceNode.allocate, hdata]
      · intro data hsome
        simp only [DeviceNode.allocate, hdata, if_true, some.injEq] at hsome
        subst hsome
        simp only [hnil]
        refine .nil ?_
        simp [DeviceNode.allocate, hdata, queueSize]

omit [DecidableEq ι] in
theorem Refines.store (h : t.Refines) (hq : 0 < t.node.queueSize) (hdvd : t.node.queueSize ∣ 2 ^ 32)
    {data : List Message} (hdata : t.node.data = some data) (buffer sinceRead) :
    ({ t with
        node := t.node.store data buffer
        published := t.published ++ [buffer]
        sinceRead } : Topic ι).Refines where
  __ := h
  generation_eq := by
    simp only [DeviceNode.store, h.generation_eq, length_append, length_singleton]
    exact BitVec.ofNat_add_ofNat _ _
  valid_iff := by simp [DeviceNode.store]
  unallocated := by simp [DeviceNode.store]
  holds := by
    intro data' hdata'
    simp only [DeviceNode.store, some.injEq] at hdata'
    subst hdata'
    rw [h.generation_eq, slot_ofNat hdvd]
    exact (h.holds data hdata).push hq buffer
  cursor_le := by
    intro i c hc
    have := h.cursor_le i c hc
    simp only [length_append, length_singleton]
    omega

theorem allocate_queueSize (node : DeviceNode) (allocOk) :
    (node.allocate allocOk).queueSize = node.queueSize := by
  simp only [DeviceNode.allocate]
  split
  · rfl
  · split <;> rfl

theorem Refines.write (h : t.Refines) (hq : 0 < t.node.queueSize) (hdvd : t.node.queueSize ∣ 2 ^ 32)
    (allocOk : Bool) (buffer) : (t.step (.write allocOk buffer)).Refines := by
  have halloc := h.allocate allocOk
  simp only [step, DeviceNode.write]
  cases hdata : (t.node.allocate allocOk).data with
  | none => exact halloc
  | some data =>
    by_cases hsize : (t.node.allocate allocOk).orbMeta.oSize.toNat = buffer.length
    · simp only [hsize, ne_eq, not_true, if_false]
      exact halloc.store (by rwa [allocate_queueSize]) (by rwa [allocate_queueSize]) hdata buffer _
    · simp only [hsize, ne_eq, not_false_eq_true, if_true]
      exact halloc

omit [DecidableEq ι] in
theorem Refines.cursorOf_le (h : t.Refines) (i) : t.cursorOf i ≤ t.published.length := by
  cases hc : t.cursor i with
  | none => simp [cursorOf, hc]
  | some c => simpa [cursorOf, hc] using h.cursor_le i c hc

omit [DecidableEq ι] in
/-- After `subscribe` a subscriber holds its cursor as a generation. -/
theorem Refines.subscribe_eq (h : t.Refines) : (t.subs i).subscribe t.node =
      { subscribed := true, lastGeneration := BitVec.ofNat 32 (t.cursorOf i) } := by
  cases hc : t.cursor i with
  | some c =>
    have hsub : (t.subs i).subscribed := by rw [h.subscribed_iff, hc]; rfl
    have hlast := h.last_eq i c hc
    simp only [Subscription.subscribe, hsub, if_true, cursorOf, hc, getD_some]
    rw [← hsub, ← hlast]
  | none =>
    have hsub : (t.subs i).subscribed = false := by rw [h.subscribed_iff, hc]; rfl
    simp only [Subscription.subscribe, hsub, Bool.false_eq_true, if_false, getInitialGeneration,
      h.generation_eq, cursorOf, hc, getD_none, Subscription.mk.injEq, true_and]
    by_cases hnil : t.published = []
    · have hvalid : t.node.dataValid = false := by
        simpa using fun hv => h.valid_iff.mp hv hnil
      simp [hvalid, hnil]
    · have hvalid := h.valid_iff.mpr hnil
      have hpos := List.length_pos_iff.mpr hnil
      simp only [hvalid, if_true]
      bv_omega

omit [DecidableEq ι] in
/-- The generation that `copy` reads is the next index of the abstract log. -/
theorem Refines.copyGeneration_eq (h : t.Refines) (hq : 1 < t.node.queueSize)
    (hc : t.cursorOf i < t.published.length) (hfew : t.unread i < 2 ^ 32) :
    t.node.copyGeneration (BitVec.ofNat 32 (t.cursorOf i)) = BitVec.ofNat 32
        (RetainedLog.nextIndex t.node.queueSize t.published (t.cursorOf i)) := by
  have hq' : t.node.queueSize < 2 ^ 8 := t.node.orbMeta.oQueue.toNat_lt
  have hrange := isInRange_iff hq hq' hc hfew
  have hne : BitVec.ofNat 32 t.published.length ≠ BitVec.ofNat 32 (t.cursorOf i) := by
    simp only [unread] at hfew
    bv_omega
  simp only [copyGeneration, h.generation_eq, if_neg hne]
  by_cases hle : t.published.length - t.cursorOf i ≤ t.node.queueSize
  · have hnext : RetainedLog.nextIndex t.node.queueSize t.published (t.cursorOf i)
        = t.cursorOf i := by
      simp only [RetainedLog.nextIndex]
      omega
    simp only [hrange.mpr hle, hnext, Bool.not_true, Bool.false_eq_true, if_false]
  · have hnext : RetainedLog.nextIndex t.node.queueSize t.published (t.cursorOf i)
        = t.published.length - t.node.queueSize := by
      simp only [RetainedLog.nextIndex]
      omega
    have hout : isInRange (BitVec.ofNat 32 t.published.length - BitVec.ofNat 32 t.node.queueSize)
        (BitVec.ofNat 32 (t.cursorOf i)) (BitVec.ofNat 32 t.published.length - 1) = false := by
      simpa using fun hin => hle (hrange.mp hin)
    simp only [hout, hnext, Bool.not_false, if_true]
    bv_omega

section

variable (h : t.Refines) (hq : 1 < t.node.queueSize) (hdvd : t.node.queueSize ∣ 2 ^ 32)
  (hfew : t.unread i < 2 ^ 32)
include h hq hdvd hfew

omit [DecidableEq ι] in
/-- `update` reads the next message of the abstract log. -/
theorem Refines.update_eq :
    (t.subs i).update t.node =
      match RetainedLog.read t.node.queueSize t.published (t.cursorOf i) with
      | none => ({ subscribed := true, lastGeneration := BitVec.ofNat 32 (t.cursorOf i) }, none)
      | some (message, c) =>
        ({ subscribed := true, lastGeneration := BitVec.ofNat 32 c }, some message) := by
  have hcle := h.cursorOf_le i
  simp only [Subscription.update, h.subscribe_eq, orbDataCopy, h.advertised, updatesAvailable,
    h.generation_eq, Bool.not_true, Bool.false_eq_true, if_false, Bool.true_and]
  by_cases hc : t.cursorOf i < t.published.length
  · -- something is unread: the buffer exists and holds the message that is read
    have hsub : BitVec.ofNat 32 t.published.length - BitVec.ofNat 32 (t.cursorOf i) ≠ 0 := by
      simp only [unread] at hfew
      bv_omega
    obtain ⟨message, hmessage, hread⟩ :=
      read_eq_some (q := t.node.queueSize) (by omega) hc
    cases hdata : t.node.data with
    | none =>
      rw [h.unallocated hdata] at hc
      simp at hc
    | some data =>
      have hone : t.node.orbMeta.oQueue ≠ 1 := by
        intro hone
        simp [queueSize, hone] at hq
      have hslot := (h.holds data hdata).slot_eq
        (RetainedLog.nextIndex t.node.queueSize t.published (t.cursorOf i))
        (nextIndex_lt (by omega) hc) (by simp only [RetainedLog.nextIndex]; omega)
      have hget : data.getD (RetainedLog.nextIndex t.node.queueSize t.published (t.cursorOf i)
          % t.node.queueSize) [] = message := by
        rw [getD_eq_getElem?_getD, hslot, hmessage]
        rfl
      simp only [hsub, decide_false, Bool.false_eq_true, if_false, hread, copy, hdata, hone,
        h.copyGeneration_eq hq hc hfew, slot_ofNat hdvd, hget]
      exact congrArg (fun g => (({ subscribed := true, lastGeneration := g } : Subscription),
        some message)) (BitVec.ofNat_add_ofNat _ 1)
  · have heq : t.cursorOf i = t.published.length := by omega
    have hread : RetainedLog.read t.node.queueSize t.published (t.cursorOf i) = none :=
      (read_eq_none_iff (by omega)).mpr (by omega)
    simp only [hread]
    simp [heq]

theorem Refines.update : (t.step (.update i)).Refines := by
  have hupdate := h.update_eq hq hdvd hfew
  have hcle := h.cursorOf_le i
  refine { h with subscribed_iff := ?_, cursor_le := ?_, last_eq := ?_ }
  · intro j
    by_cases hj : j = i
    · subst hj
      simp only [step, update_self, isSome_some, hupdate]
      split <;> rfl
    · simpa [step, update_of_ne hj] using h.subscribed_iff j
  · intro j c hc
    by_cases hj : j = i
    · subst hj
      simp only [step, update_self, some.injEq] at hc
      subst hc
      by_cases hlt : t.cursorOf j < t.published.length
      · obtain ⟨message, -, hread⟩ := read_eq_some (q := t.node.queueSize) (by omega) hlt
        have hnext := nextIndex_lt (q := t.node.queueSize) (by omega) hlt
        simpa [step, hread] using Nat.succ_le_of_lt hnext
      · simpa [step, RetainedLog.read, hlt] using hcle
    · simp only [step, update_of_ne hj] at hc
      exact h.cursor_le j c hc
  · intro j c hc
    by_cases hj : j = i
    · subst hj
      simp only [step, update_self, some.injEq] at hc ⊢
      subst hc
      rw [hupdate]
      cases RetainedLog.read t.node.queueSize t.published (t.cursorOf j) <;> rfl
    · simp only [step, update_of_ne hj] at hc ⊢
      exact h.last_eq j c hc

omit [DecidableEq ι] in
/-- What the code returns is what the abstract log gives. -/
theorem Refines.updateResult_eq : t.updateResult i =
      (RetainedLog.read t.node.queueSize t.published (t.cursorOf i)).map Prod.fst := by
  rw [updateResult, h.update_eq hq hdvd hfew]
  cases RetainedLog.read t.node.queueSize t.published (t.cursorOf i) <;> rfl

/-- In a related state `update` with fewer than `2 ^ 32` unread messages delivers from the log. -/
theorem Refines.delivers : t.Delivers (.update i) := by
  have hresult := h.updateResult_eq hq hdvd hfew
  constructor
  · rw [hresult, map_eq_none_iff, read_eq_none_iff (by omega), unread]
    omega
  · intro message hmessage
    have hlt : t.cursorOf i < t.published.length := by
      by_contra hge
      simp [hresult, RetainedLog.read, hge] at hmessage
    obtain ⟨a, hget, hread⟩ := read_eq_some (q := t.node.queueSize) (by omega) hlt
    obtain rfl : a = message := by simpa [hresult, hread] using hmessage
    refine ⟨_, hget, ?_, ?_, ?_⟩
    · intro hle
      simp only [unread, RetainedLog.nextIndex] at hle ⊢
      omega
    · intro hlt'
      simp only [unread, RetainedLog.nextIndex] at hlt' ⊢
      omega
    · simp [step, hread]

end

variable {e : TopicEvent ι}

theorem step_queueSize (t : Topic ι) :
    (t.step e).node.queueSize = t.node.queueSize := by
  cases e with
  | update i => rfl
  | write allocOk buffer =>
    have halloc := allocate_queueSize t.node allocOk
    simp only [step, DeviceNode.write]
    cases (t.node.allocate allocOk).data with
    | none => exact halloc
    | some data =>
      by_cases hsize : (t.node.allocate allocOk).orbMeta.oSize.toNat = buffer.length
      · simp only [hsize, ne_eq, not_true, if_false]
        exact halloc
      · simp only [hsize, ne_eq, not_false_eq_true, if_true]
        exact halloc

/-- The invariant of a run: the relation, and the ring size the topic was created with. -/
structure Inv (q : ℕ) (t : Topic ι) : Prop where
  refines : t.Refines
  queueSize_eq : t.node.queueSize = q

theorem Inv.step (hq : 1 < q) (hdvd : q ∣ 2 ^ 32) (t : Topic ι) (e) (h : t.Inv q)
    (hfew : t.FewUnread e) : (t.step e).Inv q := by
  obtain ⟨href, rfl⟩ := h
  refine ⟨?_, t.step_queueSize⟩
  cases e with
  | write allocOk buffer => exact href.write (by omega) hdvd allocOk buffer
  | update i => exact href.update hq hdvd hfew

end Topic

/-- **Queued topics deliver in order**, if a subscriber that reads has fewer than `2 ^ 32` unread
messages. -/
theorem queue_delivery (orbMeta : OrbMetadata) (hq : 1 < orbMeta.oQueue.toNat)
    (hdvd : orbMeta.oQueue.toNat ∣ 2 ^ 32) (es : List (TopicEvent ι))
    (hfew : Run.Along Topic.step Topic.FewUnread (Topic.init orbMeta) es) :
    Run.Along Topic.step Topic.Delivers (Topic.init orbMeta) es := by
  refine along_of_invariant (Topic.Inv.step hq hdvd) ?_ ⟨Topic.refines_init, rfl⟩ hfew
  rintro t e ⟨href, hsize⟩ hfew
  cases e with
  | write allocOk buffer => trivial
  | update i => exact href.delivers (hsize ▸ hq) (hsize ▸ hdvd) hfew
theorem queue_delivery_late_subscriber :
    Run.Along Topic.step Topic.Delivers (Topic.init ⟨1, 2⟩ : Topic ℕ)
      [.update 0, .write true [7], .write true [8], .update 1, .write true [9], .update 0] :=
  queue_delivery ⟨1, 2⟩ (by decide) (by decide) _ (by decide)

/-! ## Why the unread messages have to be counted

A subscriber may have messages left when it stops reading, so fewer than `2 ^ 32` writes between
two of its reads do not keep the number of unread messages below `2 ^ 32`. -/

namespace Topic

variable {buffer : Message}

/-- The effect of `n` successful writes on everything a reader sees. -/
theorem after_writes {t : Topic ι} (h : t.Refines) (hq : 0 < t.node.queueSize)
    (hdvd : t.node.queueSize ∣ 2 ^ 32) (hdata : t.node.data ≠ none)
    (hsize : t.node.orbMeta.oSize.toNat = buffer.length) (n) :
    let t' := after step t (replicate n (.write true buffer))
    t'.Refines ∧ t'.published.length = t.published.length + n ∧ t'.subs = t.subs ∧
      t'.cursor = t.cursor ∧ ∀ i, t'.sinceRead i = t.sinceRead i + n := by
  induction n generalizing t with
  | zero => exact ⟨h, rfl, rfl, rfl, fun _ => rfl⟩
  | succ n ih =>
    obtain ⟨data, hsome⟩ := ne_none_iff_exists'.mp hdata
    have hstep : t.step (.write true buffer) =
        { t with
          node := t.node.store data buffer
          published := t.published ++ [buffer]
          sinceRead := fun i => t.sinceRead i + 1 } := by
      simp [step, DeviceNode.write, DeviceNode.allocate, hsome, hsize]
    have hstore := h.store hq hdvd hsome buffer (fun i => t.sinceRead i + 1)
    obtain ⟨hrefines, hlength, hsubs, hcursor, hsince⟩ :=
      ih hstore hq hdvd (by simp [DeviceNode.store]) hsize
    simp only [replicate_succ, after_cons, hstep]
    refine ⟨hrefines, ?_, hsubs, hcursor, fun i => ?_⟩
    · rw [hlength, length_append, length_singleton]
      omega
    · rw [hsince]
      show t.sinceRead i + 1 + n = t.sinceRead i + (n + 1)
      omega

omit [DecidableEq ι] in
/-- A subscriber whose generation equals that of the node is told that nothing is new. -/
theorem Refines.updateResult_eq_none {t : Topic ι} (h : t.Refines) {i}
    (hgen : BitVec.ofNat 32 t.published.length = BitVec.ofNat 32 (t.cursorOf i)) :
    t.updateResult i = none := by
  simp [updateResult, Subscription.update, h.subscribe_eq, orbDataCopy, updatesAvailable,
    h.generation_eq, hgen]

theorem along_fewWrites_writes (t : Topic ι) (n allocOk buffer) :
    Run.Along step FewWrites t (replicate n (.write allocOk buffer)) := by
  induction n generalizing t with
  | zero => trivial
  | succ n ih => exact ⟨trivial, ih _⟩

end Topic

/-- With one message left unread, `2 ^ 32 - 1` further writes let the generation come round to
that of the subscriber: `update` returns false although `2 ^ 32` messages are unread. -/
theorem queue_delivery_wraps_onto_reader :
    ¬ ∀ es : List (TopicEvent ℕ),
      Run.Along Topic.step Topic.FewWrites (Topic.init ⟨1, 2⟩) es →
        Run.Along Topic.step Topic.Delivers (Topic.init ⟨1, 2⟩) es := by
  intro hall
  -- the number of further writes stays a variable, so that nothing unfolds the long run
  obtain ⟨n, hn⟩ : ∃ n, n = 2 ^ 32 - 1 := ⟨_, rfl⟩
  let start : List (TopicEvent ℕ) :=
    [.update 0, .write true [7], .write true [8], .update 0]
  let t : Topic ℕ := after Topic.step (Topic.init ⟨1, 2⟩) start
  have hinv : t.Inv 2 :=
    after_of_invariant (Topic.Inv.step (by decide) (by decide))
      ⟨Topic.refines_init, rfl⟩ (by decide : Run.Along Topic.step Topic.FewUnread _ start)
  obtain ⟨hrefines, hlength, -, hcursor, hsince⟩ :=
    Topic.after_writes hinv.refines (by decide) (by decide) (by decide)
      (by decide : t.node.orbMeta.oSize.toNat = [(7 : UInt8)].length) n
  set t' := after Topic.step t (replicate n (.write true [7]))
  have hcursor' : t'.cursorOf 0 = 1 := by
    rw [Topic.cursorOf, hcursor]
    rfl
  have hlength' : t'.published.length = 2 ^ 32 + 1 := by
    have htwo : t.published.length = 2 := rfl
    omega
  have hfew : Run.Along Topic.step Topic.FewWrites (Topic.init ⟨1, 2⟩)
      (start ++ (replicate n (.write true [7]) ++ [.update 0])) := by
    refine along_append.mpr ⟨by decide, along_append.mpr
      ⟨Topic.along_fewWrites_writes _ _ _ _, ?_, trivial⟩⟩
    show t'.sinceRead 0 < 2 ^ 32
    have hzero : t.sinceRead 0 = 0 := rfl
    rw [hsince]
    omega
  have hdelivers : t'.Delivers (.update 0) :=
    (along_append.mp (along_append.mp (hall _ hfew)).2).2.1
  have hnone : t'.updateResult 0 = none :=
    hrefines.updateResult_eq_none (by rw [hlength', hcursor']; decide)
  have hunread : t'.unread 0 = 0 := hdelivers.1.mp hnone
  rw [Topic.unread] at hunread
  omega

end Px4.Uorb
