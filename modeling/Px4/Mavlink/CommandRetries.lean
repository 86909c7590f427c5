import Mathlib.Algebra.BigOperators.Fin
import Mathlib.Algebra.Order.BigOperators.Group.Finset
import Px4.Common.Run
import Px4.Mavlink.CommandSender

/-!
# How often a command is sent

Runs of `MavlinkCommandSender` over all channels. Each item that is put into the list gets a serial
number, by which its later transmissions and acknowledgements are recorded.
-/

namespace Px4.Mavlink

open CommandItem CommandSender Function List Nat Option Run TimestampedList

variable {n : ℕ} {π : Type}

/-! ## Traces -/

/-- A call of the sender. -/
inductive SenderEvent (n : ℕ) (π : Type) where
  | vehicleCommand (command : VehicleCommand π) (channel : Fin n) (now : ℕ)
  | commandAck (command : UInt16) (fromSysid fromCompid : UInt8) (channel : Fin n) (now : ℕ)
  | checkTimeout (channel : Fin n) (now : ℕ)

def SenderEvent.now : SenderEvent n π → ℕ
  | .vehicleCommand _ _ now | .commandAck _ _ _ _ now | .checkTimeout _ now => now

/-- A transmission; `again` is the serial number of the item that is sent again. -/
structure Sent (n : ℕ) where
  channel : Fin n
  timestampUs : ℕ
  time : ℕ
  again : Option ℕ := none
deriving DecidableEq

/-- An acknowledgement: the item it fits, when that was sent, its channel, and all that fit. -/
structure Acked (n : ℕ) where
  channel : Fin n
  serial : ℕ
  timestampUs : ℕ
  lastTimeSentUs : ℕ
  time : ℕ
  before : ℤ
  fitting : List (ℕ × ℤ)
deriving DecidableEq

/-- A sender with its last call, the numbers of the items, and what was sent and acknowledged. -/
structure CommandTrace (n : ℕ) (π : Type) where
  sender : CommandSender n π
  clock : ℕ := 0
  serial : Fin 3 → ℕ := fun i => i
  nextSerial : ℕ := 3
  handed : List (ℕ × Fin n) := []
  sent : List (Sent n) := []
  acks : List (Acked n) := []

namespace CommandTrace

def start (values : Fin 3 → CommandItem n π) : CommandTrace n π where
  sender := fun i => ⟨0, values i⟩

/-- The items of the list that an acknowledgement fits, with what its channel has. -/
def fitting (t : CommandTrace n π) (command : UInt16) (fromSysid fromCompid : UInt8)
    (channel : Fin n) : List (ℕ × ℤ) :=
  (t.sender.items.filter fun i =>
    (t.sender i).value.fits command fromSysid fromCompid channel).map fun i =>
      (t.serial i, (t.sender i).value.numSentPerChannel channel)

def step (t : CommandTrace n π) : SenderEvent n π → CommandTrace n π
  | .vehicleCommand command channel now =>
    if command.isInternal then { t with clock := now }
    else
      let t' := { t with
        sender := (t.sender.handleVehicleCommand command channel now).1
        clock := now
        handed := t.handed ++ [(command.timestamp, channel)]
        sent := t.sent ++ [{ channel, timestampUs := command.timestamp, time := now }] }
      match t.sender.existing command.timestamp with
      | some _ => t'
      | none => { t' with
          serial := update t.serial t.sender.slotFor t.nextSerial
          nextSerial := t.nextSerial + 1 }
  | .commandAck command fromSysid fromCompid channel now =>
    { t with
      sender := t.sender.handleMavlinkCommandAck command fromSysid fromCompid channel
      clock := now
      acks := t.acks ++
        ((t.sender.firstFit command fromSysid fromCompid channel).map fun i => {
          channel := channel
          serial := t.serial i
          timestampUs := (t.sender i).value.timestampUs
          lastTimeSentUs := (t.sender i).value.lastTimeSentUs
          time := now
          before := (t.sender i).value.numSentPerChannel channel
          fitting := t.fitting command fromSysid fromCompid channel }).toList }
  | .checkTimeout channel now =>
    { t with
      sender := (t.sender.checkTimeout channel now).1
      clock := now
      sent := t.sent ++ (t.sender.checkTimeout channel now).2.map fun r => {
        channel := channel
        timestampUs := (t.sender r.1).value.timestampUs
        time := now
        again := some (t.serial r.1) } }

/-- Time advances. -/
def InOrder (t : CommandTrace n π) (e : SenderEvent n π) : Prop := t.clock ≤ e.now
deriving Decidable

/-! ## What holds in every state -/

structure ItemOk (t : CommandTrace n π) (i : Fin 3) : Prop where
  range : ∀ c, -2 ≤ (t.sender i).value.numSentPerChannel c ∧
    (t.sender i).value.numSentPerChannel c ≤ retries
  handed : ∀ c, (t.sender i).value.numSentPerChannel c ≠ -1 →
    1 ≤ t.handed.count ((t.sender i).value.timestampUs, c)
  last_le : (t.sender i).value.lastTimeSentUs ≤ t.clock
  /-- The transmissions that did not begin a new round came after the timeout. -/
  times : ∀ r ∈ t.sent, r.again = some (t.serial i) →
    r.time ≤ (t.sender i).value.lastTimeSentUs ∨
      (t.sender i).value.lastTimeSentUs + timeoutUs < r.time

/-- An acknowledgement, unless the command has been handed to the channel again. -/
structure AckOk (t : CommandTrace n π) (a : Acked n) : Prop where
  serial_lt : a.serial < t.nextSerial
  fitting : (a.serial, a.before) ∈ a.fitting
  handed : 1 ≤ t.handed.count (a.timestampUs, a.channel)
  marked : t.handed.count (a.timestampUs, a.channel) ≤ 1 → ∀ i, t.sender.active i →
    t.serial i = a.serial → (t.sender i).value.timestampUs = a.timestampUs ∧
      (t.sender i).value.numSentPerChannel a.channel = -2
  quiet : t.handed.count (a.timestampUs, a.channel) ≤ 1 → a.time ≤ a.lastTimeSentUs + timeoutUs →
    ∀ r ∈ t.sent, r.again = some a.serial → r.time ≤ a.lastTimeSentUs

structure Inv (t : CommandTrace n π) : Prop where
  serial_injective : Function.Injective t.serial
  serial_lt : ∀ i, t.serial i < t.nextSerial
  sent_lt : ∀ r ∈ t.sent, ∀ k, r.again = some k → k < t.nextSerial
  sent_time : ∀ r ∈ t.sent, r.time ≤ t.clock
  items : ∀ i, t.sender.active i → t.ItemOk i
  acks : ∀ a ∈ t.acks, t.AckOk a
  /-- The second acknowledgement of an item on a channel has no effect. -/
  pairwise : t.acks.Pairwise fun a b => a.channel = b.channel → a.serial = b.serial →
    t.handed.count (a.timestampUs, a.channel) ≤ 1 → b.before = -2

/-! ## What a call does -/

/-- What a call does to the items that were in the list, and which ones it sends again. -/
structure Moves (t t' : CommandTrace n π) : Prop where
  clock_le : t.clock ≤ t'.clock
  nextSerial_le : t.nextSerial ≤ t'.nextSerial
  count_le : ∀ x, t.handed.count x ≤ t'.handed.count x
  /-- An acknowledgement is forgotten only if the command is handed to the channel again. -/
  keeps : ∀ j, t'.sender.active j → t.nextSerial ≤ t'.serial j ∨
    t.sender.active j ∧ t'.serial j = t.serial j ∧
      (t'.sender j).value.timestampUs = (t.sender j).value.timestampUs ∧
      ∀ c, (t.sender j).value.numSentPerChannel c = -2 →
        (t'.sender j).value.numSentPerChannel c = -2 ∨
          t.handed.count ((t.sender j).value.timestampUs, c) <
            t'.handed.count ((t.sender j).value.timestampUs, c)
  again : ∀ r ∈ t'.sent, ∀ k, r.again = some k → r ∈ t.sent ∨
    ∃ j, t.sender.active j ∧ t.serial j = k ∧ ∀ c, (t.sender j).value.numSentPerChannel c ≠ -2

variable {t t' : CommandTrace n π}

variable {a : Acked n} {i : Fin 3} {num : ℤ} {channel : Fin n} {now timestamp m : ℕ}
  {hs : List (ℕ × Fin n)} {τ : Sort*} {β α : Type*} {f : α → Option β} {c : α → ℕ}
  {e : SenderEvent n π}

theorem AckOk.moves (h : t.AckOk a) (hmoves : t.Moves t') : t'.AckOk a := by
  have hhanded := h.handed
  have hcount := hmoves.count_le (a.timestampUs, a.channel)
  refine ⟨h.serial_lt.trans_le hmoves.nextSerial_le, h.fitting, hhanded.trans hcount,
    fun hone j hj hserial => ?_, fun hone htime r hr hagain => ?_⟩
  · rcases hmoves.keeps j hj with hfresh | ⟨hj', hserial', hts, hkeep⟩
    · have := h.serial_lt
      omega
    · obtain ⟨hts', hmark⟩ := h.marked (hcount.trans hone) j hj' (hserial'.symm.trans hserial)
      refine ⟨hts.trans hts', (hkeep a.channel hmark).resolve_right ?_⟩
      rw [hts']
      omega
  · rcases hmoves.again r hr _ hagain with hr | ⟨j, hj, hserial, hnone⟩
    · exact h.quiet (hcount.trans hone) htime r hr hagain
    · exact absurd (h.marked (hcount.trans hone) j hj hserial).2 (hnone _)

theorem Inv.moves (h : t.Inv) (hmoves : t.Moves t') (hacks : t'.acks = t.acks)
    (hinjective : Function.Injective t'.serial) (hlt : ∀ i, t'.serial i < t'.nextSerial)
    (htime : ∀ r ∈ t'.sent, r.time ≤ t'.clock) (hitems : ∀ i, t'.sender.active i → t'.ItemOk i) :
    t'.Inv where
  serial_injective := hinjective
  serial_lt := hlt
  sent_lt r hr k hk := by
    rcases hmoves.again r hr k hk with hr | ⟨j, -, hserial, -⟩
    · exact (h.sent_lt r hr k hk).trans_le hmoves.nextSerial_le
    · exact hserial ▸ (h.serial_lt j).trans_le hmoves.nextSerial_le
  sent_time := htime
  items := hitems
  acks a ha := (h.acks a (hacks ▸ ha)).moves hmoves
  pairwise := by
    rw [hacks]
    exact h.pairwise.imp fun hab hchannel hserial hone =>
      hab hchannel hserial ((hmoves.count_le _).trans hone)

theorem ItemOk.frame (h : t.ItemOk i)
    (hvalue : (t'.sender i).value = (t.sender i).value) (hserial : t'.serial i = t.serial i)
    (hclock : t.clock ≤ t'.clock) (hhanded : ∀ x, t.handed.count x ≤ t'.handed.count x)
    (hsent : ∀ r ∈ t'.sent, r.again = some (t.serial i) → r ∈ t.sent ∨
      (t.sender i).value.lastTimeSentUs + timeoutUs < r.time) : t'.ItemOk i := by
  refine ⟨?_, ?_, ?_, ?_⟩
  · rw [hvalue]
    exact h.range
  · rw [hvalue]
    exact fun c hc => (h.handed c hc).trans (hhanded _)
  · rw [hvalue]
    exact h.last_le.trans hclock
  · rw [hvalue, hserial]
    exact fun r hr hagain => (hsent r hr hagain).elim (h.times r · hagain) .inr

theorem ItemOk.setSent (h : t.ItemOk i) (hnum : -2 ≤ num ∧ num ≤ retries)
    (hvalue : (t'.sender i).value = (t.sender i).value.setSent channel num)
    (hserial : t'.serial i = t.serial i) (hclock : t.clock ≤ t'.clock)
    (hhanded : ∀ x, t.handed.count x ≤ t'.handed.count x)
    (hchannel : 1 ≤ t'.handed.count ((t.sender i).value.timestampUs, channel))
    (hsent : ∀ r ∈ t'.sent, r.again = some (t.serial i) → r ∈ t.sent) : t'.ItemOk i := by
  refine ⟨fun c => ?_, fun c hc => ?_, ?_, ?_⟩
  · rw [hvalue]
    by_cases heq : c = channel
    · rwa [heq, setSent_self]
    · rw [setSent_of_ne heq]
      exact h.range c
  · rw [hvalue] at hc ⊢
    by_cases heq : c = channel
    · rwa [heq]
    · rw [setSent_of_ne heq] at hc
      exact (h.handed c hc).trans (hhanded _)
  · rw [hvalue]
    exact h.last_le.trans hclock
  · rw [hvalue, hserial]
    exact fun r hr hagain => h.times r (hsent r hr hagain) hagain

/-- A channel of an item in the list is marked, or it gets the command again. -/
theorem Inv.setSent (h : t.Inv) (hnow : t.clock ≤ now) (hi : t.sender.active i)
    (hnum : -2 ≤ num ∧ num ≤ retries) (htimestamp : (t.sender i).value.timestampUs = timestamp)
    (hcount : ∀ x, t.handed.count x ≤ hs.count x)
    (hchannel : 1 ≤ hs.count (timestamp, channel))
    (hmark : num = -2 ∨ t.handed.count (timestamp, channel) < hs.count (timestamp, channel)) {rs}
    (hsent : ∀ r ∈ rs, ∀ k, r.again = some k → r ∈ t.sent) (htime : ∀ r ∈ rs, r.time ≤ now) :
    Inv { t with
      sender := t.sender.modify i fun item => item.setSent channel num
      clock := now
      handed := hs
      sent := rs } := by
  subst htimestamp
  refine h.moves ⟨hnow, le_refl _, hcount, fun j hj => .inr ?_, fun r hr k hk =>
    .inl (hsent r hr k hk)⟩ rfl h.serial_injective h.serial_lt htime fun j hj => ?_
  · rw [active_modify] at hj
    by_cases hji : j = i
    · subst hji
      rw [modify_self]
      refine ⟨hj, rfl, rfl, fun c hc => ?_⟩
      by_cases heq : c = channel
      · subst heq
        exact hmark.imp_left (setSent_self ..).trans
      · rw [setSent_of_ne heq]
        exact .inl hc
    · simp only [modify_of_ne _ hji]
      exact ⟨hj, trivial, trivial, fun c hc => .inl hc⟩
  · rw [active_modify] at hj
    by_cases hji : j = i
    · subst hji
      exact (h.items j hj).setSent hnum (modify_self ..) rfl hnow hcount hchannel
        fun r hr => hsent r hr _
    · refine (h.items j hj).frame ?_ rfl hnow hcount fun r hr hk => .inl (hsent r hr _ hk)
      simp [modify_of_ne _ hji]

/-! ## A command is handed to a channel -/

section Hand

theorem count_le_hand (x) : t.handed.count x ≤ (t.handed ++ [(timestamp, channel)]).count x :=
  (sublist_append_left ..).count_le x

theorem count_hand_self : t.handed.count (timestamp, channel) <
    (t.handed ++ [(timestamp, channel)]).count (timestamp, channel) := by
  rw [count_append, count_singleton_self]
  exact lt_succ_self _

variable {r : Sent n} {k : ℕ}

theorem mem_sent_of_hand
    (hr : r ∈ t.sent ++ [{ channel, timestampUs := timestamp, time := now }])
    (hagain : r.again = some k) : r ∈ t.sent := by
  rcases mem_append.mp hr with hr | hr
  · exact hr
  · rw [mem_singleton.mp hr] at hagain
    cases hagain

theorem Inv.sent_time_hand (h : t.Inv) (hnow : t.clock ≤ now) :
    ∀ r ∈ t.sent ++ [{ channel, timestampUs := timestamp, time := now }],
      r.time ≤ now := by
  intro r hr
  rcases mem_append.mp hr with hr | hr
  · exact (h.sent_time r hr).trans hnow
  · rw [mem_singleton.mp hr]

theorem Inv.put (h : t.Inv) (hnow : t.clock ≤ now) (i) {command}
    (htimestamp : command.timestamp = timestamp) :
    Inv { t with
      sender := update t.sender i ⟨now, ofCommand command channel now⟩
      clock := now
      handed := t.handed ++ [(timestamp, channel)]
      sent := t.sent ++ [{ channel, timestampUs := timestamp, time := now }]
      serial := update t.serial i t.nextSerial
      nextSerial := t.nextSerial + 1 } := by
  have hother : ∀ j, j ≠ i → TimestampedList.active
      (update t.sender i ⟨now, ofCommand command channel now⟩) j = t.sender.active j := by
    intro j hji
    rw [TimestampedList.active, update_of_ne hji]
    rfl
  have hne : ∀ j, t.serial j ≠ t.nextSerial := fun j => (h.serial_lt j).ne
  refine h.moves ⟨hnow, le_succ _, count_le_hand, fun j hj => ?_, fun r hr k hk => ?_⟩ rfl
    (fun j k hjk => ?_) (fun j => ?_) (h.sent_time_hand hnow) fun j hj => ?_
  · by_cases hji : j = i
    · subst hji
      exact .inl (update_self (f := t.serial) ..).ge
    · rw [hother j hji] at hj
      simp only [update_of_ne hji]
      exact .inr ⟨hj, trivial, trivial, fun c hc => .inl hc⟩
  · exact .inl (mem_sent_of_hand hr hk)
  · by_cases hji : j = i <;> by_cases hki : k = i
    · rw [hji, hki]
    · simp only [hji, update_self, update_of_ne hki] at hjk
      exact absurd hjk.symm (hne k)
    · simp only [hki, update_self, update_of_ne hji] at hjk
      exact absurd hjk (hne j)
    · simp only [update_of_ne hji, update_of_ne hki] at hjk
      exact h.serial_injective hjk
  · by_cases hji : j = i
    · subst hji
      simp
    · simp only [update_of_ne hji]
      exact (h.serial_lt j).trans (lt_succ_self _)
  · by_cases hji : j = i
    · subst hji
      refine ⟨fun c => ?_, fun c hc => ?_, ?_, fun r hr hagain => ?_⟩
      · simp only [update_self]
        by_cases heq : c = channel
        · rw [heq, ofCommand, setSent_self]
          decide
        · rw [ofCommand, setSent_of_ne heq]
          exact (by decide : (-2 : ℤ) ≤ -1 ∧ (-1 : ℤ) ≤ retries)
      · simp only [update_self] at hc ⊢
        by_cases heq : c = channel
        · rw [heq]
          exact htimestamp ▸ one_le_of_lt count_hand_self
        · rw [ofCommand, setSent_of_ne heq] at hc
          exact absurd rfl hc
      · simp only [update_self]
        exact le_refl now
      · simp only [update_self] at hagain
        exact absurd (h.sent_lt r (mem_sent_of_hand hr hagain) _ hagain) (lt_irrefl _)
    · rw [hother j hji] at hj
      refine (h.items j hj).frame ?_ (update_of_ne hji ..) hnow count_le_hand
        fun r hr hk => .inl (mem_sent_of_hand hr hk)
      simp [update_of_ne hji]

end Hand

/-! ## The other calls -/

variable {channel : Fin n} {i : Fin 3}

section

variable (h : t.Inv)
include h

theorem Inv.tick (hnow : t.clock ≤ now) : Inv { t with clock := now } :=
  h.moves ⟨hnow, le_refl _, fun _ => le_refl _,
      fun _ hj => .inr ⟨hj, rfl, rfl, fun _ hc => .inl hc⟩, fun _ hr _ _ => .inl hr⟩ rfl
    h.serial_injective h.serial_lt (fun r hr => (h.sent_time r hr).trans hnow)
    fun i hi => (h.items i hi).frame rfl rfl hnow (fun _ => le_refl _) fun _ hr _ => .inl hr

theorem Inv.record (ha : t.AckOk a)
    (hbefore : ∀ b ∈ t.acks, b.channel = a.channel → b.serial = a.serial →
      t.handed.count (b.timestampUs, b.channel) ≤ 1 → a.before = -2) :
    Inv { t with acks := t.acks ++ [a] } where
  __ := h
  items i hi := (h.items i hi).frame rfl rfl (le_refl _) (fun _ => le_refl _)
    fun _ hr _ => .inl hr
  acks b hb := by
    have hb : t.AckOk b := by
      rcases mem_append.mp hb with hb | hb
      · exact h.acks b hb
      · rwa [mem_singleton.mp hb]
    exact { hb with }
  pairwise := by
    refine pairwise_append.mpr ⟨h.pairwise, pairwise_singleton .., ?_⟩
    intro b hb c hc
    rw [mem_singleton.mp hc]
    exact hbefore b hb

theorem Inv.ack (hnow : t.clock ≤ now) (hi : t.sender.active i)
    (hsent : (t.sender i).value.numSentPerChannel channel ≠ -1) {fitting}
    (hfitting : (t.serial i, (t.sender i).value.numSentPerChannel channel) ∈ fitting) :
    Inv { t with
      sender := t.sender.modify i fun item => item.setSent channel (-2)
      clock := now
      acks := t.acks ++ [{
          channel := channel
          serial := t.serial i
          timestampUs := (t.sender i).value.timestampUs
          lastTimeSentUs := (t.sender i).value.lastTimeSentUs
          time := now
          before := (t.sender i).value.numSentPerChannel channel
          fitting := fitting }] } := by
  have hitem := h.items i hi
  have hmarked : Inv { t with
      sender := t.sender.modify i fun item => item.setSent channel (-2)
      clock := now } :=
    h.setSent hnow hi (by decide) rfl (fun _ => le_refl _) (hitem.handed channel hsent)
      (.inl rfl) (fun _ hr _ _ => hr) fun r hr => (h.sent_time r hr).trans hnow
  refine hmarked.record ⟨h.serial_lt i, hfitting, hitem.handed channel hsent,
    fun _ j hj hserial => ?_, fun _ htime r hr hagain => ?_⟩ fun b hb hchannel hserial hone => ?_
  · obtain rfl := h.serial_injective hserial
    rw [modify_self]
    exact ⟨rfl, setSent_self ..⟩
  · -- A transmission after the timeout would be one after the acknowledgement.
    have hpast := (h.sent_time r hr).trans hnow
    exact (hitem.times r hr hagain).resolve_right (by dsimp only at htime; omega)
  · have hmark := ((h.acks b hb).marked hone i hi hserial.symm).2
    rwa [hchannel] at hmark

variable {j : Fin 3} {r : Sent n}

theorem Inv.checkTimeout_slot
    (hj : TimestampedList.active (t.sender.checkTimeout channel now).1 j) :
    let r := (t.sender j).value
    t.sender.active j ∧ (((t.sender.checkTimeout channel now).1 j).value = r ∨
      ∃ last, (last = r.lastTimeSentUs ∨ last = now) ∧
        ((t.sender.checkTimeout channel now).1 j).value =
          { r.retransmitted channel with lastTimeSentUs := last } ∧
        r.lastTimeSentUs + timeoutUs < now ∧ (∀ c, r.numSentPerChannel c ≠ -2) ∧
        0 ≤ r.numSentPerChannel channel ∧ r.numSentPerChannel channel + 1 ≤ retries) := by
  obtain ⟨hj, hsome⟩ := active_checkTimeout hj
  refine ⟨hj, ?_⟩
  rcases CommandItem.checkTimeout_cases channel now (h.items j hj).range with
    heq | heq | ⟨last, hlast, heq, hrest⟩
  · rw [heq] at hsome
    exact .inl (some.inj hsome).symm
  · rw [heq] at hsome
    cases hsome
  · rw [heq] at hsome
    exact .inr ⟨last, hlast, (some.inj hsome).symm, hrest⟩

/-- What `check_timeout` sends again: items without an acknowledgement, after the timeout. -/
theorem Inv.checkTimeout_sent (hr : r ∈ (t.step (.checkTimeout channel now)).sent) : r ∈ t.sent ∨
      r.time = now ∧ ∃ j, t.sender.active j ∧ r.again = some (t.serial j) ∧
        (t.sender j).value.lastTimeSentUs + timeoutUs < now ∧
        ∀ c, (t.sender j).value.numSentPerChannel c ≠ -2 := by
  refine (mem_append.mp hr).imp_right fun hr => ?_
  obtain ⟨x, hx, rfl⟩ := mem_map.mp hr
  obtain ⟨hj, hsome⟩ := mem_checkTimeout hx
  refine ⟨rfl, x.1, hj, rfl, ?_⟩
  rcases CommandItem.checkTimeout_cases channel now (h.items _ hj).range with
    heq | heq | ⟨last, -, -, hlate, hnone, -⟩
  · rw [heq] at hsome
    cases hsome
  · rw [heq] at hsome
    cases hsome
  · exact ⟨hlate, hnone⟩

theorem Inv.checkTimeout_item (hnow : t.clock ≤ now)
    (hj : TimestampedList.active (t.sender.checkTimeout channel now).1 j) :
    (t.step (.checkTimeout channel now)).ItemOk j := by
  obtain ⟨hactive, hvalue⟩ := h.checkTimeout_slot hj
  have hitem := h.items j hactive
  -- A transmission of this item is an old one, or one of now, after the timeout.
  have hsent : ∀ r ∈ (t.step (.checkTimeout channel now)).sent, r.again = some (t.serial j) →
      r ∈ t.sent ∨ r.time = now ∧ (t.sender j).value.lastTimeSentUs + timeoutUs < now := by
    intro r hr hagain
    refine (h.checkTimeout_sent hr).imp_right fun ⟨htime, k, _, hserial, hlate, _⟩ => ?_
    rw [h.serial_injective (some.inj (hserial.symm.trans hagain))] at hlate
    exact ⟨htime, hlate⟩
  rcases hvalue with hvalue | ⟨last, hlast, hvalue, hlate, hnone, hlow, hhigh⟩
  · refine hitem.frame hvalue rfl hnow (fun _ => le_refl _) fun r hr hagain => ?_
    exact (hsent r hr hagain).imp_right fun ⟨htime, hlate⟩ => htime ▸ hlate
  refine ⟨fun c => ?_, fun c hc => ?_, ?_, fun r hr hagain => ?_⟩
  · simp only [step, hvalue, retransmitted]
    by_cases heq : c = channel
    · rw [heq, setSent_self]
      omega
    · rw [setSent_of_ne heq]
      exact hitem.range c
  · simp only [step, hvalue, retransmitted] at hc ⊢
    refine hitem.handed c fun hc' => ?_
    by_cases heq : c = channel
    · rw [heq] at hc'
      omega
    · rw [setSent_of_ne heq] at hc
      exact hc hc'
  · simp only [step, hvalue]
    rcases hlast with rfl | rfl
    · exact hitem.last_le.trans hnow
    · exact le_refl _
  · simp only [step, hvalue]
    rcases hsent r hr hagain with hold | ⟨htime, hlate⟩
    · rcases hlast with rfl | rfl
      · exact hitem.times r hold hagain
      · exact .inl ((h.sent_time r hold).trans hnow)
    · rcases hlast with rfl | rfl
      · exact .inr (htime ▸ hlate)
      · exact .inl htime.le

theorem Inv.checkTimeout (hnow : t.clock ≤ now) (channel) :
    (t.step (.checkTimeout channel now)).Inv := by
  refine h.moves ⟨hnow, le_refl _, fun _ => le_refl _, fun j hj => .inr ?_,
    fun r hr k hk => ?_⟩ rfl h.serial_injective h.serial_lt (fun r hr => ?_)
    fun j hj => h.checkTimeout_item hnow hj
  · obtain ⟨hj, hvalue | ⟨last, -, hvalue, -, hnone, -⟩⟩ := h.checkTimeout_slot hj
    · simp only [step, hvalue]
      exact ⟨hj, trivial, trivial, fun c hc => .inl hc⟩
    · simp only [step, hvalue]
      exact ⟨hj, trivial, rfl, fun c hc => absurd hc (hnone c)⟩
  · refine (h.checkTimeout_sent hr).imp_right fun ⟨_, j, hj, hserial, _, hnone⟩ =>
      ⟨j, hj, ?_, hnone⟩
    exact some.inj (hserial.symm.trans hk)
  · rcases h.checkTimeout_sent hr with hr | ⟨htime, -⟩
    · exact (h.sent_time r hr).trans hnow
    · exact htime.le

theorem step_inv (hnow : t.InOrder e) : (t.step e).Inv := by
  cases e with
  | vehicleCommand command channel now =>
    by_cases hinternal : command.isInternal
    · simp only [step, if_pos hinternal]
      exact h.tick hnow
    rcases hexisting : t.sender.existing command.timestamp with _ | i
    · simp only [step, handleVehicleCommand, if_neg hinternal, hexisting]
      exact h.put hnow t.sender.slotFor rfl
    obtain ⟨hi, htimestamp⟩ := existing_eq_some hexisting
    simp only [step, handleVehicleCommand, if_neg hinternal, hexisting]
    exact h.setSent hnow hi (by decide) htimestamp count_le_hand
      (one_le_of_lt count_hand_self) (.inr count_hand_self)
      (fun r hr k => mem_sent_of_hand hr) (h.sent_time_hand hnow)
  | commandAck command fromSysid fromCompid channel now =>
    rcases hfit : t.sender.firstFit command fromSysid fromCompid channel with _ | i
    · simp only [step, handleMavlinkCommandAck, hfit, map_none, toList_none, append_nil]
      exact h.tick hnow
    obtain ⟨hi, hfits⟩ := firstFit_eq_some hfit
    have hfitting : (t.serial i, (t.sender i).value.numSentPerChannel channel) ∈
        t.fitting command fromSysid fromCompid channel :=
      mem_map.mpr ⟨i, mem_filter.mpr ⟨mem_items.mpr hi, hfits⟩, rfl⟩
    simp only [fits, Bool.and_eq_true, decide_eq_true_eq] at hfits
    simp only [step, handleMavlinkCommandAck, hfit, map_some, toList_some]
    exact h.ack hnow hi hfits.2 hfitting
  | checkTimeout channel now => exact h.checkTimeout hnow channel

end

theorem start_inv (values : Fin 3 → CommandItem n π) : (start values).Inv where
  serial_injective := fun i j hij => Fin.ext hij
  serial_lt := fun i => i.isLt
  sent_lt := nofun
  sent_time := nofun
  items := fun i hi => by simp [start, TimestampedList.active] at hi
  acks := nofun
  pairwise := .nil

/-! ## How often -/

/-- The retries that are left to a channel. -/
def retriesLeft (num : ℤ) : ℕ := if 0 ≤ num then (retries - num).toNat else 0

theorem retriesLeft_succ (hlow : 0 ≤ num) (hhigh : num + 1 ≤ retries) :
    retriesLeft (num + 1) + 1 = retriesLeft num := by
  unfold retriesLeft
  split_ifs <;> omega

/-- The retries that an item has left for a command on a channel. -/
def budget (timestamp : ℕ) (channel : Fin n) (slot : ListSlot (CommandItem n π)) : ℕ :=
  if slot.timestampUs ≠ 0 ∧ slot.value.timestampUs = timestamp then
    retriesLeft (slot.value.numSentPerChannel channel)
  else 0

theorem budget_setSent {slot : ListSlot (CommandItem n π)} {channel' : Fin n} :
    budget timestamp channel { slot with value := slot.value.setSent channel' num } =
      if channel = channel' then
        if slot.timestampUs ≠ 0 ∧ slot.value.timestampUs = timestamp then retriesLeft num else 0
      else budget timestamp channel slot := by
  by_cases hchannel : channel = channel'
  · subst hchannel
    simp [budget, setSent]
  · simp only [if_neg hchannel, budget, setSent_of_ne hchannel]
    rfl

/-- How often a command has been sent on a channel. -/
def numSent (t : CommandTrace n π) (timestamp : ℕ) (channel : Fin n) : ℕ :=
  t.sent.countP fun r => r.timestampUs = timestamp && r.channel = channel

/-- Each time a command is handed to a channel, it is sent once and gets its retries. -/
def WithinBudget (t : CommandTrace n π) : Prop := ∀ timestamp channel,
  t.numSent timestamp channel + ∑ i, budget timestamp channel (t.sender i) ≤
    (1 + retries.toNat) * t.handed.count (timestamp, channel)

theorem sum_update (f : τ → ℕ) (l : Fin m → τ) (i : Fin m) (a : τ) :
    ∑ j, f (update l i a j) + f (l i) = ∑ j, f (l j) + f a := by
  rw [← Finset.add_sum_erase _ _ (Finset.mem_univ i),
    ← Finset.add_sum_erase _ _ (Finset.mem_univ i)]
  have hrest : ∑ j ∈ Finset.univ.erase i, f (update l i a j) = ∑ j ∈ Finset.univ.erase i, f (l j) :=
    Finset.sum_congr rfl fun j hj => by rw [update_of_ne (Finset.ne_of_mem_erase hj)]
  rw [update_self]
  omega

/-- Each entry of a list that is counted takes one of something. -/
theorem countP_filterMap_le {p : β → Bool}
    {l : List α} (h : ∀ a ∈ l, ∀ b, f a = some b → p b → 1 ≤ c a) :
    (l.filterMap f).countP p ≤ (l.map c).sum := by
  induction l with
  | nil => exact le_refl 0
  | cons a l ih =>
    have hl := ih fun a' ha' => h a' (mem_cons_of_mem _ ha')
    rw [map_cons, sum_cons]
    rcases hfa : f a with _ | b
    · rw [filterMap_cons_none hfa]
      omega
    have hb := h a (mem_cons_self ..) b hfa
    rw [filterMap_cons_some hfa, countP_cons]
    split_ifs with hp
    · have := hb hp
      omega
    · omega

/-- A command is handed to a channel: the slot gets retries for these two only. -/
theorem WithinBudget.hand (h : t.WithinBudget) (slot : ListSlot (CommandItem n π))
    (hslot : ∀ timestamp' channel', budget timestamp' channel' slot ≤
      budget timestamp' channel' (t.sender i)) (htimestamp : slot.value.timestampUs = timestamp)
    (hsender : t'.sender =
      update t.sender i { slot with value := slot.value.setSent channel 0 })
    (hhanded : t'.handed = t.handed ++ [(timestamp, channel)])
    (hsent : t'.sent = t.sent ++ [{ channel, timestampUs := timestamp, time := now }]) :
    t'.WithinBudget := by
  intro timestamp' channel'
  have hbudget := h timestamp' channel'
  have hsum := sum_update (budget timestamp' channel') t.sender i
    { slot with value := slot.value.setSent channel 0 }
  have hnew := hslot timestamp' channel'
  have hfirst : retriesLeft 0 = retries.toNat := rfl
  rw [budget_setSent, htimestamp] at hsum
  rw [numSent] at hbudget ⊢
  rw [hsender, hhanded, hsent, countP_append, count_append]
  by_cases heq : timestamp' = timestamp ∧ channel' = channel
  · obtain ⟨rfl, rfl⟩ := heq
    rw [count_singleton_self, countP_singleton, if_pos (by simp), mul_succ]
    split_ifs at hsum <;> omega
  · have hcount : [(timestamp, channel)].count (timestamp', channel') = 0 := by
      rw [count_eq_zero, mem_singleton, Prod.mk.injEq]
      exact heq
    have hsingle : ¬(decide (timestamp = timestamp') && decide (channel = channel')) := by
      rw [Bool.and_eq_true, decide_eq_true_eq, decide_eq_true_eq]
      exact fun h => heq ⟨h.1.symm, h.2.symm⟩
    rw [hcount, countP_singleton, if_neg hsingle, add_zero, add_zero]
    split_ifs at hsum with hchannel hts
    · exact absurd ⟨hts.2.symm, hchannel⟩ heq
    · omega
    · omega

theorem WithinBudget.ack (h : t.WithinBudget)
    (hsender : t'.sender = t.sender.modify i fun item => item.setSent channel (-2))
    (hhanded : t'.handed = t.handed) (hsent : t'.sent = t.sent) : t'.WithinBudget := by
  intro timestamp' channel'
  have hbudget := h timestamp' channel'
  have hsum := sum_update (budget timestamp' channel') t.sender i
    { t.sender i with value := (t.sender i).value.setSent channel (-2) }
  have hnone : retriesLeft (-2) = 0 := rfl
  rw [budget_setSent] at hsum
  rw [numSent] at hbudget ⊢
  rw [hsender, hhanded, hsent, TimestampedList.modify]
  split_ifs at hsum <;> omega

/-- What is sent again has one retry less. -/
theorem Inv.budget_checkTimeout (h : t.Inv) (channel now timestamp' channel' i) :
    budget timestamp' channel' ((t.sender.checkTimeout channel now).1 i) +
      (if t.sender.active i ∧ ((t.sender i).value.checkTimeout channel now).2.isSome ∧
        (t.sender i).value.timestampUs = timestamp' ∧ channel = channel' then 1 else 0) ≤
      budget timestamp' channel' (t.sender i) := by
  by_cases hactive : t.sender.active i
  · rcases CommandItem.checkTimeout_cases channel now (h.items i hactive).range with
      heq | heq | ⟨last, -, heq, -, -, hlow, hhigh⟩
    · simp [CommandSender.checkTimeout, heq]
    · simp [CommandSender.checkTimeout, hactive, heq, budget]
    · have hslot : budget timestamp' channel' ((t.sender.checkTimeout channel now).1 i) =
          budget timestamp' channel' { t.sender i with
            value := (t.sender i).value.setSent channel
              ((t.sender i).value.numSentPerChannel channel + 1) } := by
        simp only [CommandSender.checkTimeout, hactive, if_true, heq]
        rfl
      have hsucc := retriesLeft_succ hlow hhigh
      rw [hslot, budget_setSent, heq]
      by_cases hchannel : channel' = channel
      · have hne : (t.sender i).timestampUs ≠ 0 := by simpa [TimestampedList.active] using hactive
        rw [if_pos hchannel]
        by_cases hts : (t.sender i).value.timestampUs = timestamp'
        · rw [if_pos ⟨hne, hts⟩, if_pos ⟨hactive, rfl, hts, hchannel.symm⟩, budget,
            if_pos ⟨hne, hts⟩, hchannel]
          exact hsucc.le
        · rw [if_neg fun h => hts h.2, if_neg fun h => hts h.2.2.1]
          exact zero_le _
      · rw [if_neg hchannel, if_neg fun h => hchannel h.2.2.2.symm]
        exact le_refl _
  · simp [CommandSender.checkTimeout, hactive]

theorem WithinBudget.checkTimeout (h : t.WithinBudget) (hinv : t.Inv) (channel : Fin n) (now : ℕ) :
    (t.step (.checkTimeout channel now)).WithinBudget := by
  intro timestamp' channel'
  have hbudget := h timestamp' channel'
  have hcount : ((t.sender.checkTimeout channel now).2.map fun r => ({
        channel := channel
        timestampUs := (t.sender r.1).value.timestampUs
        time := now
        again := some (t.serial r.1) } : Sent n)).countP
          (fun r => r.timestampUs = timestamp' && r.channel = channel') ≤
      ∑ i, if t.sender.active i ∧ ((t.sender i).value.checkTimeout channel now).2.isSome ∧
        (t.sender i).value.timestampUs = timestamp' ∧ channel = channel' then 1 else 0 := by
    rw [List.countP_map, CommandSender.checkTimeout, TimestampedList.items, List.filterMap_filter,
      Fin.sum_univ_def]
    refine countP_filterMap_le fun i _ b hb hp => ?_
    rw [ite_none_right_eq_some] at hb
    obtain ⟨hactive, hmap⟩ := hb
    obtain ⟨m, hm, rfl⟩ := map_eq_some_iff.mp hmap
    simp only [comp_apply, Bool.and_eq_true, decide_eq_true_eq] at hp
    rw [if_pos ⟨hactive, isSome_of_eq_some hm, hp⟩]
  have hsum := Finset.sum_le_sum fun i (_ : i ∈ Finset.univ) =>
    hinv.budget_checkTimeout channel now timestamp' channel' i
  rw [Finset.sum_add_distrib] at hsum
  rw [numSent] at hbudget ⊢
  simp only [step, countP_append]
  omega

theorem step_withinBudget (h : t.WithinBudget) (hinv : t.Inv) :
    (t.step e).WithinBudget := by
  cases e with
  | vehicleCommand command channel now =>
    by_cases hinternal : command.isInternal
    · simp only [step, if_pos hinternal]
      exact h
    rcases hexisting : t.sender.existing command.timestamp with _ | i
    · simp only [step, handleVehicleCommand, if_neg hinternal, hexisting]
      refine h.hand ⟨now, ⟨command.toLong, command.timestamp, now, fun _ => -1⟩⟩
        (fun timestamp' channel' => ?_) rfl rfl rfl rfl
      simp [budget, retriesLeft]
    · simp only [step, handleVehicleCommand, if_neg hinternal, hexisting]
      exact h.hand _ (fun _ _ => le_refl _) (existing_eq_some hexisting).2 rfl rfl rfl
  | commandAck command fromSysid fromCompid channel now =>
    rcases hfit : t.sender.firstFit command fromSysid fromCompid channel with _ | i
    · simp only [step, handleMavlinkCommandAck, hfit]
      exact h
    · simp only [step, handleMavlinkCommandAck, hfit]
      exact h.ack rfl rfl rfl
  | checkTimeout channel now => exact h.checkTimeout hinv channel now

end CommandTrace

/-! ## Whole runs -/

open CommandTrace in
/-- A command is sent on a channel at most `1 + RETRIES` times for each time that it is handed to
it. And if as many acknowledgements as there are items arrive on a channel before the timeout, each
of them when it fits only such items of the list, none of which has been acknowledged on the
channel, then none of the items is sent again. -/
theorem acknowledged_not_retransmitted (values : Fin 3 → CommandItem n π)
    {es : List (SenderEvent n π)} (hes : Run.Along step InOrder (start values) es)
    {t : CommandTrace n π} (ht : t = after step (start values) es) :
    (∀ timestamp channel, t.numSent timestamp channel ≤
      (1 + retries.toNat) * t.handed.count (timestamp, channel)) ∧
    ∀ (channel : Fin n) (items : List ℕ) (acks : List (Acked n)), items.Nodup →
      acks.Sublist t.acks → items.length ≤ acks.length →
      (∀ a ∈ acks, a.channel = channel ∧ a.time ≤ a.lastTimeSentUs + timeoutUs ∧
        t.handed.count (a.timestampUs, channel) ≤ 1 ∧
        ∀ fit ∈ a.fitting, fit.1 ∈ items ∧ fit.2 ≠ -2) →
      ∀ k ∈ items, ∃ a ∈ acks, a.serial = k ∧
        ∀ r ∈ t.sent, r.again = some k → r.time ≤ a.lastTimeSentUs := by
  obtain ⟨hinv, hbudget⟩ : t.Inv ∧ t.WithinBudget := by
    rw [ht]
    refine after_of_invariant (I := fun t => t.Inv ∧ t.WithinBudget)
      (fun t e h hnow => ⟨step_inv h.1 hnow, step_withinBudget h.2 h.1⟩)
      ⟨start_inv values, fun timestamp channel => ?_⟩ hes
    simp [start, numSent, budget]
  refine ⟨fun timestamp channel => (le_add_right ..).trans (hbudget timestamp channel), ?_⟩
  intro channel items acks hitems hacks hlength hfit k hk
  -- The acknowledgements are of different items, and so of all of them.
  have hnodup : (acks.map Acked.serial).Nodup := by
    refine pairwise_map.mpr ((hinv.pairwise.sublist hacks).imp_of_mem ?_)
    intro a b ha hb hab hserial
    obtain ⟨hchannel, -, hone, -⟩ := hfit a ha
    obtain ⟨hchannel', -, -, hfitting⟩ := hfit b hb
    refine (hfitting _ (hinv.acks b (hacks.subset hb)).fitting).2 ?_
    exact hab (hchannel.trans hchannel'.symm) hserial (hchannel ▸ hone)
  have hsubset : acks.map Acked.serial ⊆ items := by
    intro x hx
    obtain ⟨a, ha, rfl⟩ := mem_map.mp hx
    exact ((hfit a ha).2.2.2 _ (hinv.acks a (hacks.subset ha)).fitting).1
  have hperm : (acks.map Acked.serial).Perm items :=
    (hnodup.subperm hsubset).perm_of_length_le (by rwa [length_map])
  obtain ⟨a, ha, rfl⟩ := mem_map.mp (hperm.mem_iff.mpr hk)
  obtain ⟨hchannel, htime, hone, -⟩ := hfit a ha
  exact ⟨a, ha, rfl, (hinv.acks a (hacks.subset ha)).quiet (hchannel ▸ hone) htime⟩

def noCommands : Fin 3 → CommandItem 1 Unit := fun _ => ⟨⟨0, 0, 0, 0, ()⟩, 0, 0, fun _ => -1⟩

/-- A command to arm; another timestamp makes it another command. -/
def armCommand (timestamp : ℕ) : VehicleCommand Unit := ⟨timestamp, 400, 1, 1, 1, 0, ()⟩

/-- The first command is dropped before the second one is acknowledged. -/
def acknowledgedInTurn : List (SenderEvent 1 Unit) :=
  [.vehicleCommand (armCommand 1) 0 1, .vehicleCommand (armCommand 2) 0 400000,
    .commandAck 400 1 1 0 450000, .checkTimeout 0 500002, .commandAck 400 1 1 0 800000,
    .checkTimeout 0 900001]

open CommandTrace in
theorem acknowledged_not_retransmitted_in_turn :
    Run.Along step InOrder (start noCommands) acknowledgedInTurn ∧
      (after step (start noCommands) acknowledgedInTurn).handed = [(1, 0), (2, 0)] ∧
      ∀ k ∈ [3, 4], ∃ a ∈ (after step (start noCommands) acknowledgedInTurn).acks,
        a.serial = k ∧ ∀ r ∈ (after step (start noCommands) acknowledgedInTurn).sent,
          r.again = some k → r.time ≤ a.lastTimeSentUs := by
  have hes : Run.Along step InOrder (start noCommands) acknowledgedInTurn := by decide
  refine ⟨hes, by decide, ?_⟩
  exact (acknowledged_not_retransmitted noCommands hes rfl).2 0 [3, 4] _ (by decide)
    (List.Sublist.refl _) (by decide) (by decide)

/-- Both commands are outstanding when they are acknowledged. -/
def acknowledgedTogether : List (SenderEvent 1 Unit) :=
  [.vehicleCommand (armCommand 1) 0 1, .vehicleCommand (armCommand 2) 0 2,
    .commandAck 400 1 1 0 10, .commandAck 400 1 1 0 11, .checkTimeout 0 500003]

open CommandTrace in
/-- Both acknowledgements are for the first command, and the second one is sent again. -/
theorem acknowledged_and_retransmitted :
    Run.Along step InOrder (start noCommands) acknowledgedTogether ∧
      (after step (start noCommands) acknowledgedTogether).handed = [(1, 0), (2, 0)] ∧
      (after step (start noCommands) acknowledgedTogether).acks =
        [⟨0, 3, 1, 1, 10, 0, [(3, 0), (4, 0)]⟩, ⟨0, 3, 1, 1, 11, -2, [(3, -2), (4, 0)]⟩] ∧
      (after step (start noCommands) acknowledgedTogether).sent =
        [⟨0, 1, 1, none⟩, ⟨0, 2, 2, none⟩, ⟨0, 2, 500003, some 4⟩] := by
  decide

end Px4.Mavlink
