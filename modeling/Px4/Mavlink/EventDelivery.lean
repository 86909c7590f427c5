import Px4.Common.SequenceNumber
import Px4.Mavlink.Events

/-!
# Delivery of events

The loop of `SendProtocol::update` takes the inserted events one after the other, and sends one if
it is still among the last ones.
-/

namespace Px4.Mavlink

open EventSystem Nat SendProtocol

open SequenceNumber (nth)

/-! ## The last events -/

/-- The events have consecutive sequence numbers, from the one after `base` on. -/
def Consecutive (base : UInt16) (inserted : List Event) : Prop :=
  ∀ i, (hi : i < inserted.length) → inserted[i].sequence = nth base (i + 1)

instance (base : UInt16) (inserted : List Event) : Decidable (Consecutive base inserted) :=
  inferInstanceAs (Decidable (∀ i, (hi : i < inserted.length) → _))

/-- The last events, the newest one first. -/
def lastEvents (capacity : ℕ) (inserted : List Event) : List Event :=
  inserted.reverse.take capacity

section LastEvents

variable {base : UInt16} {inserted : List Event}

theorem Consecutive.append (h : Consecutive base inserted) {event}
    (hevent : event.sequence = nth base (inserted.length + 1)) :
    Consecutive base (inserted ++ [event]) := by
  intro i hi
  rw [List.length_append] at hi
  rcases Nat.lt_succ_iff_lt_or_eq.mp hi with hlt | rfl
  · rw [List.getElem_append_left hlt]
    exact h i hlt
  · rw [List.getElem_concat_length]
    · exact hevent
    · rfl

variable {capacity j k : ℕ} {event : Event}

theorem lastEvents_append : lastEvents capacity (inserted ++ [event]) =
      (event :: lastEvents capacity inserted).take capacity := by
  unfold lastEvents
  rw [List.reverse_append, List.reverse_singleton, List.singleton_append]
  cases capacity with
  | zero => simp
  | succ n =>
    rw [List.take_succ_cons, List.take_succ_cons, List.take_take, min_eq_left (le_succ n)]

variable (h : Consecutive base inserted)
include h

theorem Consecutive.sequence_lastEvents (hj : j < (lastEvents capacity inserted).length) :
    (lastEvents capacity inserted)[j].sequence = nth base (inserted.length - j) := by
  have hlength : j < inserted.length := by
    rw [lastEvents, List.length_take, List.length_reverse] at hj
    omega
  simp only [lastEvents, List.getElem_take, List.getElem_reverse]
  rw [h _ (by omega)]
  congr 1
  omega

/-- Among the last 65536 events, the sequence number tells which one is meant. -/
theorem Consecutive.find_lastEvents
    (hk : k < inserted.length) (hwindow : inserted.length ≤ k + 65536) :
    (lastEvents capacity inserted).find? (fun e => e.sequence = nth base (k + 1)) =
      if inserted.length ≤ k + capacity then inserted[k]? else none := by
  have hlength : (lastEvents capacity inserted).length = min capacity inserted.length := by
    rw [lastEvents, List.length_take, List.length_reverse]
  have hother : ∀ j, (hj : j < (lastEvents capacity inserted).length) →
      j < inserted.length - 1 - k →
      (lastEvents capacity inserted)[j].sequence ≠ nth base (k + 1) := by
    intro j hj hlt heq
    rw [h.sequence_lastEvents hj] at heq
    have := SequenceNumber.nth_injective (by omega) (by omega) heq.symm
    omega
  split_ifs with hkept
  · have hj : inserted.length - 1 - k < (lastEvents capacity inserted).length := by
      omega
    rw [List.getElem?_eq_getElem hk, List.find?_eq_some_iff_getElem]
    refine ⟨decide_eq_true (h k hk), _, hj, ?_, fun j hlt => ?_⟩
    · simp only [lastEvents, List.getElem_take, List.getElem_reverse]
      congr 1
      omega
    · simpa using hother j (by omega) hlt
  · rw [List.find?_eq_none]
    intro e he
    obtain ⟨j, hj, rfl⟩ := List.getElem_of_mem he
    simpa using hother j hj (by omega)

end LastEvents

/-! ## Traces -/

/-- A round of the loop: the event's number, how many there were, and what `send_event` got. -/
structure Turn where
  index : ℕ
  inserted : ℕ
  sent : Option Event
deriving DecidableEq

/-- A system with the inserted events, their number at `update`, how many had a turn, the turns. -/
structure EventTrace where
  system : EventSystem
  inserted : List Event
  entered : ℕ := 0
  handled : ℕ := 0
  turns : List Turn := []

namespace EventTrace

/-- A protocol that is created after some events. -/
def start (capacity : ℕ) (events : ℕ → Event) (before : List Event) : EventTrace :=
  let buffer := before.foldl (EventBuffer.insertEvent capacity) { events }
  { system := { buffer, protocol := create buffer }, inserted := before }

/-- When it has handled its first event, the protocol begins with the last event. -/
def step (capacity : ℕ) (t : EventTrace) (a : EventSystem.Action) : EventTrace :=
  let system := (t.system.step capacity a).1
  match a with
  | .insertEvent event => { t with system, inserted := t.inserted ++ [event] }
  | .enter .. =>
    { t with
      system := system
      entered := if t.system.running.isNone then t.inserted.length else t.entered
      handled := if t.system.protocol.firstEvent ∧ system.protocol.firstEvent = false then
        t.inserted.length - 1 else t.handled }
  | .iterate link _ =>
    if t.system.takesRound link then
      { t with
        system := system
        handled := t.handled + 1
        turns := t.turns ++ [⟨t.handled, t.inserted.length, t.system.round.2⟩] }
    else { t with system }
  | .handleRequestEvent .. | .onGcsConnected .. => { t with system }

/-- Sequence numbers are consecutive, and fewer than 65536 events are outstanding. -/
def InScope (base : UInt16) (t : EventTrace) : EventSystem.Action → Prop
  | .insertEvent event =>
    event.sequence = nth base (t.inserted.length + 1) ∧
      (t.system.protocol.firstEvent = false → t.inserted.length + 1 < t.handled + 65536)
  | _ => True

instance (base : UInt16) (t : EventTrace) : (a : EventSystem.Action) → Decidable (t.InScope base a)
  | .insertEvent _ => inferInstanceAs (Decidable (_ ∧ _))
  | .enter .. | .iterate .. | .handleRequestEvent .. | .onGcsConnected .. => isTrue trivial

/-- The protocol walks along the events. -/
structure Walking (base : UInt16) (t : EventTrace) : Prop where
  nonempty : t.inserted ≠ []
  handled_le : t.handled ≤ t.inserted.length
  outstanding : t.inserted.length < t.handled + 65536
  latest : t.system.protocol.latestSequence = nth base t.handled
  running : ∀ r, t.system.running = some r →
    r.2 = nth base t.entered ∧ t.handled ≤ t.entered ∧ t.entered ≤ t.inserted.length

/-- The protocol waits for its first event. -/
structure Waiting (t : EventTrace) : Prop where
  turns : t.turns = []
  latest : t.inserted = [] →
    t.system.protocol.latestSequence = t.system.buffer.latestSequence
  running : ∀ r, t.system.running = some r → t.system.protocol.latestSequence = r.2

/-- What the turns were. -/
structure Turns (capacity : ℕ) (t : EventTrace) : Prop where
  length_le : t.turns.length ≤ t.handled
  index_eq : t.turns.map Turn.index = List.range' (t.handled - t.turns.length) t.turns.length
  sent_eq : ∀ turn ∈ t.turns, turn.index < turn.inserted ∧ turn.inserted ≤ t.inserted.length ∧
    turn.sent = if turn.inserted ≤ turn.index + capacity then t.inserted[turn.index]? else none
  sublist : (t.turns.filterMap Turn.sent).Sublist (t.inserted.take t.handled)

structure Inv (capacity : ℕ) (base : UInt16) (t : EventTrace) : Prop where
  buffer : t.system.buffer.Represents capacity (lastEvents capacity t.inserted)
  consecutive : Consecutive base t.inserted
  waiting : t.system.protocol.firstEvent = true → t.Waiting
  walking : t.system.protocol.firstEvent = false → t.Walking base
  turns : t.Turns capacity

section Steps

variable {capacity : ℕ} {base : UInt16} {t : EventTrace}

theorem Turns.nil (h : t.turns = []) : t.Turns capacity where
  length_le := by simp [h]
  index_eq := by simp [h]
  sent_eq := by simp [h]
  sublist := by simp [h]

section

variable (h : t.Inv capacity base)
include h

theorem Inv.latestSequence (hcapacity : 1 ≤ capacity)
    (hne : t.inserted ≠ []) : t.system.buffer.latestSequence = nth base t.inserted.length := by
  have hpos := List.length_pos_iff.mpr hne
  have hlast : 0 < (lastEvents capacity t.inserted).length := by
    rw [lastEvents, List.length_take, List.length_reverse]
    omega
  rw [h.buffer.latest _ (List.head?_eq_getElem? ▸ List.getElem?_eq_getElem hlast),
    h.consecutive.sequence_lastEvents, Nat.sub_zero]

theorem Inv.of_same {system} (hbuffer : system.buffer = t.system.buffer)
    (hlatest : system.protocol.latestSequence = t.system.protocol.latestSequence)
    (hfirst : system.protocol.firstEvent = t.system.protocol.firstEvent)
    (hrunning : ∀ r, system.running = some r → t.system.running = some r) :
    Inv capacity base { t with system } where
  buffer := hbuffer ▸ h.buffer
  consecutive := h.consecutive
  waiting hwait := by
    have hw := h.waiting (hfirst ▸ hwait)
    exact ⟨hw.turns, fun hnil => by rw [hlatest, hbuffer, hw.latest hnil],
      fun r hr => hlatest ▸ hw.running r (hrunning r hr)⟩
  walking hwalk := by
    have hw := h.walking (hfirst ▸ hwalk)
    exact ⟨hw.nonempty, hw.handled_le, hw.outstanding, hlatest ▸ hw.latest,
      fun r hr => hw.running r (hrunning r hr)⟩
  turns := { h.turns with }

variable {event : Event} {link : Link}

theorem Inv.insertEvent (hscope : t.InScope base (.insertEvent event)) :
    (t.step capacity (.insertEvent event)).Inv capacity base where
  buffer := by
    have hbuffer := h.buffer.insertEvent event
    rw [← lastEvents_append] at hbuffer
    exact hbuffer
  consecutive := h.consecutive.append hscope.1
  waiting hwait := by
    have hw := h.waiting hwait
    exact ⟨hw.turns, fun hnil => absurd hnil (List.append_ne_nil_of_right_ne_nil _ nofun),
      hw.running⟩
  walking hwalk := by
    have hw := h.walking hwalk
    have hlength : (t.inserted ++ [event]).length = t.inserted.length + 1 := by simp
    refine ⟨List.append_ne_nil_of_right_ne_nil _ nofun, ?_, ?_, hw.latest, fun r hr => ?_⟩
    · exact (hw.handled_le.trans (le_succ _)).trans_eq hlength.symm
    · exact hlength.trans_lt (hscope.2 hwalk)
    · obtain ⟨hseq, hle, hentered⟩ := hw.running r hr
      exact ⟨hseq, hle, (hentered.trans (le_succ _)).trans_eq hlength.symm⟩
  turns := by
    refine ⟨h.turns.length_le, h.turns.index_eq, fun turn hturn => ?_, h.turns.sublist.trans ?_⟩
    · obtain ⟨hlt, hle, hsent⟩ := h.turns.sent_eq turn hturn
      refine ⟨hlt, hle.trans (by simp [step]), ?_⟩
      simp only [step, List.getElem?_append_left (hlt.trans_le hle)]
      exact hsent
    · simp only [step, List.take_append]
      exact List.sublist_append_left ..

theorem Inv.enter (hcapacity : 1 ≤ capacity) (now link) :
    (t.step capacity (.enter now link)).Inv capacity base := by
  by_cases hrunning : t.system.running = none
  · by_cases hfirst : t.system.protocol.firstEvent ∧
        t.system.buffer.latestSequence ≠ t.system.protocol.latestSequence
    · -- The first event: the protocol begins with the last one.
      have hwait := h.waiting hfirst.1
      have hne : t.inserted ≠ [] := fun hnil => hfirst.2 (hwait.latest hnil).symm
      have hlatest := h.latestSequence hcapacity hne
      obtain ⟨hbuffer', hlatest', hfirst', hrunning'⟩ :=
        enter_of_first now link hrunning hfirst.1 hfirst.2
      have hstep : t.step capacity (.enter now link) =
          { t with
            system := (t.system.enter now link).1
            entered := t.inserted.length
            handled := t.inserted.length - 1 } := by
        simp [step, EventSystem.step, hrunning, hfirst.1, hfirst']
      rw [hstep]
      obtain ⟨n, hn⟩ := exists_eq_add_one_of_ne_zero (List.length_pos_iff.mpr hne).ne'
      refine ⟨hbuffer' ▸ h.buffer, h.consecutive, fun hwait' => ?_, fun _ => ?_,
        Turns.nil hwait.turns⟩
      · cases hfirst'.symm.trans hwait'
      · refine ⟨hne, sub_le .., ?_, ?_, fun r hr => ?_⟩
        · dsimp only
          omega
        · rw [hlatest', hlatest, hn, SequenceNumber.nth_succ_sub_one, Nat.add_sub_cancel]
        · obtain rfl := Option.some.inj (hrunning'.symm.trans hr)
          exact ⟨hlatest, sub_le .., le_refl _⟩
    · have hstep : t.step capacity (.enter now link) =
          { t with
            system := { t.system with running := some (now, t.system.buffer.latestSequence) }
            entered := t.inserted.length } := by
        simp [step, EventSystem.step, enter_of_not_first now link hrunning hfirst, hrunning]
      rw [hstep]
      refine ⟨h.buffer, h.consecutive, fun hwait => ?_, fun hwalk => ?_,
        { h.turns with }⟩
      · have hw := h.waiting hwait
        refine ⟨hw.turns, hw.latest, fun r hr => ?_⟩
        obtain rfl := Option.some.inj hr
        by_contra hne
        exact hfirst ⟨hwait, Ne.symm hne⟩
      · have hw := h.walking hwalk
        refine { hw with running := fun r hr => ?_ }
        obtain rfl := Option.some.inj hr
        exact ⟨h.latestSequence hcapacity hw.nonempty, hw.handled_le, le_refl _⟩
  · have hstep : t.step capacity (.enter now link) = t := by
      have hsome : t.system.running.isNone = false := by
        rw [Option.isNone_eq_false_iff]
        exact Option.isSome_iff_ne_none.mpr hrunning
      simp [step, EventSystem.step, enter_of_running now link hrunning, hsome]
    rw [hstep]
    exact h

theorem Inv.handled_lt (hround : t.system.takesRound link) :
    t.system.protocol.firstEvent = false ∧ t.handled < t.entered ∧
      t.entered ≤ t.inserted.length := by
  obtain ⟨r, hr, hne, -⟩ := EventSystem.takesRound_iff.mp hround
  have hfirst : t.system.protocol.firstEvent = false := by
    by_contra hfirst
    exact hne ((h.waiting (Bool.not_eq_false _ ▸ hfirst)).running r hr)
  have hw := h.walking hfirst
  obtain ⟨hseq, hle, hentered⟩ := hw.running r hr
  refine ⟨hfirst, lt_of_le_of_ne hle fun heq => hne ?_, hentered⟩
  rw [hseq, ← heq, hw.latest]

theorem Inv.iterate (link atEnd) : (t.step capacity (.iterate link atEnd)).Inv capacity base := by
  by_cases hround : t.system.takesRound link
  · obtain ⟨hfirst, hlt, hentered⟩ := h.handled_lt hround
    have hw := h.walking hfirst
    have hlatest : t.system.protocol.latestSequence + 1 = nth base (t.handled + 1) := by
      rw [hw.latest, SequenceNumber.nth_succ]
    have hsent : t.system.round.2 =
        if t.inserted.length ≤ t.handled + capacity then t.inserted[t.handled]? else none := by
      rw [EventSystem.round, hlatest, h.buffer.getEvent_eq]
      exact h.consecutive.find_lastEvents (hlt.trans_le hentered) hw.outstanding.le
    have hstep : t.step capacity (.iterate link atEnd) =
        { t with
          system := t.system.round.1
          handled := t.handled + 1
          turns := t.turns ++ [⟨t.handled, t.inserted.length, t.system.round.2⟩] } := by
      simp [step, EventSystem.step, if_pos hround]
    rw [hstep]
    refine ⟨h.buffer, h.consecutive, fun hwait => ?_, fun _ => ?_, ?_, ?_, ?_, ?_⟩
    · cases hfirst.symm.trans hwait
    · refine ⟨hw.nonempty, hlt.trans_le hentered, ?_, hlatest, fun r hr => ?_⟩
      · exact hw.outstanding.trans (by dsimp only; omega)
      · exact ⟨(hw.running r hr).1, hlt, hentered⟩
    · simpa using h.turns.length_le
    · have hle := h.turns.length_le
      simp only [List.map_append, List.map_cons, List.map_nil, h.turns.index_eq,
        List.length_append, List.length_singleton]
      rw [Nat.add_sub_add_right, List.range'_1_concat, Nat.sub_add_cancel hle]
    · intro turn hturn
      rcases List.mem_append.mp hturn with hturn | hturn
      · exact h.turns.sent_eq turn hturn
      · obtain rfl := List.mem_singleton.mp hturn
        exact ⟨hlt.trans_le hentered, le_refl _, hsent⟩
    · have hk := hlt.trans_le hentered
      simp only [List.filterMap_append, List.take_add_one, List.getElem?_eq_getElem hk]
      refine h.turns.sublist.append ?_
      rw [hsent, List.getElem?_eq_getElem hk]
      split_ifs <;> simp
  · obtain ⟨hbuffer, hlatest, hfirst, hrunning⟩ :=
      leave_frame t.system atEnd
    have hstep : t.step capacity (.iterate link atEnd) =
        { t with system := (t.system.leave atEnd).1 } := by
      simp [step, EventSystem.step, if_neg hround]
    rw [hstep]
    exact h.of_same hbuffer hlatest hfirst fun r hr => by rw [hrunning] at hr; cases hr

end

variable {a : EventSystem.Action} {before : List Event}

theorem step_inv (hcapacity : 1 ≤ capacity) (h : t.Inv capacity base)
    (hscope : t.InScope base a) : (t.step capacity a).Inv capacity base := by
  cases a with
  | insertEvent event => exact h.insertEvent hscope
  | enter now link => exact h.enter hcapacity now link
  | iterate link atEnd => exact h.iterate link atEnd
  | handleRequestEvent sysid compid link firstSequence lastSequence => exact h
  | onGcsConnected now link =>
    exact h.of_same rfl (sendCurrentSequence_latestSequence ..)
      (sendCurrentSequence_firstEvent ..) fun _ hr => hr

theorem start_inv (hcapacity : 1 ≤ capacity) (events) (hbefore : Consecutive base before) :
    (start capacity events before).Inv capacity base := by
  have hbuffer : ∀ before : List Event,
      (before.foldl (EventBuffer.insertEvent capacity) { events }).Represents capacity
        (lastEvents capacity before) := by
    intro before
    induction before using List.reverseRecOn with
    | nil =>
      rw [lastEvents, List.reverse_nil, List.take_nil]
      exact EventBuffer.Represents.nil hcapacity events
    | append_singleton before event ih =>
      rw [List.foldl_append, lastEvents_append]
      exact ih.insertEvent event
  exact ⟨hbuffer before, hbefore, fun _ => ⟨rfl, fun _ => rfl, nofun⟩, nofun, Turns.nil rfl⟩

end Steps

def after (capacity : ℕ) (events : ℕ → Event) (before : List Event)
    (actions : List EventSystem.Action) : EventTrace :=
  Run.after (step capacity) (start capacity events before) actions

end EventTrace

open EventTrace in
/-- The events are sent in order and once. The rounds of the loop take the inserted events one after
the other, and a round sends its event if and only if that is one of the last `capacity` events.
With space in the buffer of the link, the loop goes on as long as an event that was there when
`update` was entered has not had its turn. `get_event` finds the newest one of the last `capacity`
events with that sequence number. -/
theorem events_sent_once_in_order {capacity : ℕ} (hcapacity : 1 ≤ capacity ∧ capacity ≤ 2 ^ 30)
    (events : ℕ → Event)
    {base : UInt16} {before : List Event} (hbefore : Consecutive base before)
    {actions : List EventSystem.Action}
    (hactions : Run.Along (step capacity) (InScope base) (start capacity events before) actions)
    {t : EventTrace} (ht : t = after capacity events before actions) :
    t.turns.map Turn.index = List.range' (t.handled - t.turns.length) t.turns.length ∧
    (∀ turn ∈ t.turns, turn.index < turn.inserted ∧ turn.inserted ≤ t.inserted.length ∧
      turn.sent = if turn.inserted ≤ turn.index + capacity then t.inserted[turn.index]? else none) ∧
    (t.turns.filterMap Turn.sent).Sublist t.inserted ∧
    (t.system.protocol.firstEvent = false → ∀ r link, t.system.running = some r →
      eventLen + numNonPayloadBytes ≤ link.freeTxBuf →
        (t.system.takesRound link ↔ t.handled < t.entered)) ∧
    (∀ sequence, t.system.buffer.getEvent sequence =
      (lastEvents capacity t.inserted).find? fun e => e.sequence = sequence) ∧
    ∀ k, (hk : k < t.inserted.length) → t.inserted.length ≤ k + capacity →
      t.inserted.length ≤ k + 65536 →
        t.system.buffer.getEvent t.inserted[k].sequence = some t.inserted[k] := by
  have h : t.Inv capacity base := by
    rw [ht, after]
    exact Run.after_of_invariant (I := Inv capacity base)
      (fun _ _ h hscope => step_inv hcapacity.1 h hscope) (start_inv hcapacity.1 events hbefore)
      hactions
  refine ⟨h.turns.index_eq, h.turns.sent_eq, h.turns.sublist.trans (List.take_sublist ..), ?_,
    h.buffer.getEvent_eq, fun k hk hkept hwindow => ?_⟩
  · intro hfirst r link hr hlink
    refine ⟨fun hround => (h.handled_lt hround).2.1, fun hlt => ?_⟩
    have hw := h.walking hfirst
    obtain ⟨hseq, -, hentered⟩ := hw.running r hr
    refine EventSystem.takesRound_iff.mpr ⟨r, hr, fun heq => hlt.ne ?_, hlink⟩
    rw [hseq, hw.latest] at heq
    exact SequenceNumber.nth_injective hlt.le (hentered.trans_lt hw.outstanding) heq
  · rw [h.buffer.getEvent_eq, h.consecutive k hk, h.consecutive.find_lastEvents hk hwindow,
      if_pos hkept, List.getElem?_eq_getElem hk]

/-- The protocol begins with the second event, cannot send the third, and goes on two later. -/
def overrun : List EventSystem.Action :=
  [.insertEvent { sequence := 65527 }, .enter 1 ⟨100, false⟩, .iterate ⟨100, false⟩ ⟨0, false⟩,
    .iterate ⟨100, false⟩ ⟨0, false⟩, .insertEvent { sequence := 65528 }, .enter 2 ⟨0, false⟩,
    .iterate ⟨0, false⟩ ⟨0, false⟩, .insertEvent { sequence := 65529 },
    .insertEvent { sequence := 65530 }, .enter 3 ⟨100, false⟩, .iterate ⟨100, false⟩ ⟨0, false⟩,
    .iterate ⟨100, false⟩ ⟨0, false⟩]

open EventTrace in
/-- In a buffer of two events, the third one is then not found any more. -/
theorem events_sent_once_in_order_overrun :
    Run.Along (step 2) (InScope initialEventSequence)
        (start 2 (fun _ => { sequence := 0 }) [{ sequence := 65526 }]) overrun ∧
      (after 2 (fun _ => { sequence := 0 }) [{ sequence := 65526 }] overrun).turns =
        [⟨1, 2, some { sequence := 65527 }⟩, ⟨2, 5, none⟩, ⟨3, 5, some { sequence := 65529 }⟩] ∧
      ((after 2 (fun _ => { sequence := 0 }) [{ sequence := 65526 }] overrun).turns.filterMap
        Turn.sent).Sublist
          (after 2 (fun _ => { sequence := 0 }) [{ sequence := 65526 }] overrun).inserted := by
  refine ⟨?hactions, by decide,
    (events_sent_once_in_order (by decide) _ (by decide) ?hactions rfl).2.2.1⟩
  decide

end Px4.Mavlink
