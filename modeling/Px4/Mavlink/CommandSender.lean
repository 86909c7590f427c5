import Mathlib.Data.List.FinRange

/-!
# Retransmission of commands

`MavlinkCommandSender` of `src/modules/mavlink/mavlink_command_sender.cpp`, which the mavlink
instances share, and its `TimestampedList` of three items. Each function runs under the lock, so
that it is one step; a `check_timeout` that does not get the lock does nothing. Time does not
advance during a call. There are `n` channels, and `π` is what the parameters of a command are.
-/

namespace Px4.Mavlink

open Function List

/-! ## `TimestampedList` -/

structure ListSlot (τ : Type) where
  /-- Zero signals inactive. -/
  timestampUs : ℕ
  value : τ

abbrev TimestampedList (τ : Type) (m : ℕ) : Type := Fin m → ListSlot τ

namespace TimestampedList

variable {τ : Type} {m : ℕ}

def active (l : TimestampedList τ m) (i : Fin m) : Bool := (l i).timestampUs ≠ 0

/-- The slots of the items that `get_next` returns in turn after `reset_to_start`. -/
def items (l : TimestampedList τ m) : List (Fin m) := (finRange m).filter l.active

def oldest (l : TimestampedList τ (m + 1)) : Fin (m + 1) :=
  (finRange (m + 1)).foldl
    (fun oldest i => if (l i).timestampUs < (l oldest).timestampUs then i else oldest) 0

/-- The slot that `put` fills: a free one, or the oldest one. -/
def slotFor (l : TimestampedList τ (m + 1)) : Fin (m + 1) :=
  ((finRange (m + 1)).find? fun i => !l.active i).getD l.oldest

def put (l : TimestampedList τ (m + 1)) (now : ℕ) (value : τ) : TimestampedList τ (m + 1) :=
  update l l.slotFor ⟨now, value⟩

/-- The item is changed through the pointer. -/
def modify (l : TimestampedList τ m) (i : Fin m) (f : τ → τ) : TimestampedList τ m :=
  update l i { l i with value := f (l i).value }

section

variable (l : TimestampedList τ m)

variable {i j : Fin m} {f : τ → τ}

@[simp]
theorem active_modify : (l.modify i f).active j = l.active j := by
  by_cases h : j = i
  · subst h
    simp [active, modify]
  · simp [active, modify, update_of_ne h]

theorem modify_self : (l.modify i f i).value = f (l i).value := by
  simp [modify]

theorem modify_of_ne (h : j ≠ i) : l.modify i f j = l j :=
  update_of_ne h ..

end

variable {i : Fin m}

theorem mem_items {l : TimestampedList τ m} : i ∈ l.items ↔ l.active i := by
  simp [items]

end TimestampedList

/-! ## Commands -/

structure VehicleCommand (π : Type) where
  timestamp : ℕ
  command : UInt32
  targetSystem : UInt8
  targetComponent : UInt8
  sourceComponent : UInt16
  confirmation : UInt8
  params : π

structure CommandLong (π : Type) where
  targetSystem : UInt8
  targetComponent : UInt8
  command : UInt16
  confirmation : UInt8
  params : π

/-- Commands that are not sent. -/
def VehicleCommand.isInternal {π : Type} (c : VehicleCommand π) : Bool :=
  c.command ≥ 65537 || c.sourceComponent ≥ 1000

def VehicleCommand.toLong {π : Type} (c : VehicleCommand π) : CommandLong π where
  targetSystem := c.targetSystem
  targetComponent := c.targetComponent
  command := c.command.toUInt16
  confirmation := c.confirmation
  params := c.params

def retries : ℤ := 3

def timeoutUs : ℕ := 500000

/-- `command_item_s`; of a channel, `-1`: it did not request, `-2`: it got an acknowledgement. -/
structure CommandItem (n : ℕ) (π : Type) where
  command : CommandLong π
  timestampUs : ℕ
  lastTimeSentUs : ℕ
  numSentPerChannel : Fin n → ℤ := fun _ => -1

namespace CommandItem

variable {n : ℕ} {π : Type}

def setSent (item : CommandItem n π) (channel : Fin n) (num : ℤ) : CommandItem n π :=
  { item with numSentPerChannel := update item.numSentPerChannel channel num }

/-- The `new_item` of a command. -/
def ofCommand (command : VehicleCommand π) (channel : Fin n) (now : ℕ) : CommandItem n π :=
  { command := command.toLong
    timestampUs := command.timestamp
    lastTimeSentUs := now : CommandItem n π }.setSent channel 0

variable {channel c : Fin n} {num : ℤ}

theorem setSent_self {item : CommandItem n π} :
    (item.setSent channel num).numSentPerChannel channel = num :=
  update_self ..

theorem setSent_of_ne {item : CommandItem n π} (h : c ≠ channel) {num} :
    (item.setSent channel num).numSentPerChannel c = item.numSentPerChannel c :=
  update_of_ne h ..

def maxSent (item : CommandItem n π) : ℤ :=
  (finRange n).foldl
    (fun m i => if item.numSentPerChannel i > m then item.numSentPerChannel i else m) 0

def minSent (item : CommandItem n π) : ℤ :=
  (finRange n).foldl
    (fun m i => if item.numSentPerChannel i ≠ -1 ∧ item.numSentPerChannel i < m then
      item.numSentPerChannel i else m) 127

/-- The item after it is sent again on a channel; its command is what is sent. -/
def retransmitted (item : CommandItem n π) (channel : Fin n) : CommandItem n π :=
  { item.setSent channel (item.numSentPerChannel channel + 1) with
    command := { item.command with
      confirmation := (item.numSentPerChannel channel + 1).toNat.toUInt8 } }

/-- A round of `check_timeout`: what becomes of the item, unless it is dropped, and what is sent. -/
def checkTimeout (channel : Fin n) (now : ℕ) (item : CommandItem n π) :
    Option (CommandItem n π) × Option (CommandLong π) :=
  if now - item.lastTimeSentUs ≤ timeoutUs then (some item, none)
  else if ∃ i, item.numSentPerChannel i = -2 then (none, none)
  else if item.numSentPerChannel channel < item.maxSent ∧ item.numSentPerChannel channel ≠ -1 then
    (some (item.retransmitted channel), some (item.retransmitted channel).command)
  else if item.numSentPerChannel channel = item.maxSent ∧ item.minSent = item.maxSent then
    if item.numSentPerChannel channel + 1 > retries then (none, none)
    else
      (some { item.retransmitted channel with lastTimeSentUs := now },
        some (item.retransmitted channel).command)
  else (some item, none)

theorem le_foldl_max (f : Fin n → ℤ) (l : List (Fin n)) (m : ℤ) :
    m ≤ l.foldl (fun m i => if f i > m then f i else m) m := by
  induction l generalizing m with
  | nil => exact Int.le_refl m
  | cons i l ih =>
    rw [foldl_cons]
    refine Int.le_trans ?_ (ih _)
    split_ifs <;> omega

theorem le_maxSent {item : CommandItem n π} : 0 ≤ item.maxSent :=
  le_foldl_max _ _ 0

theorem maxSent_le {item : CommandItem n π}
    (h : ∀ i, item.numSentPerChannel i ≤ retries) : item.maxSent ≤ retries := by
  have hfold : ∀ (l : List (Fin n)) (m : ℤ), m ≤ retries →
      l.foldl (fun m i => if item.numSentPerChannel i > m then item.numSentPerChannel i else m) m ≤
        retries := by
    intro l
    induction l with
    | nil => exact fun m hm => hm
    | cons i l ih =>
      intro m hm
      rw [foldl_cons]
      refine ih _ ?_
      split_ifs
      · exact h i
      · exact hm
  exact hfold _ 0 (by decide)

/-- Sent again: without an acknowledgement on any channel, after the timeout, with retries left. -/
theorem checkTimeout_cases (channel : Fin n) (now : ℕ) {item : CommandItem n π}
    (hrange : ∀ i, -2 ≤ item.numSentPerChannel i ∧ item.numSentPerChannel i ≤ retries) :
    item.checkTimeout channel now = (some item, none) ∨
    item.checkTimeout channel now = (none, none) ∨
    ∃ last, (last = item.lastTimeSentUs ∨ last = now) ∧
      item.checkTimeout channel now =
        (some { item.retransmitted channel with lastTimeSentUs := last },
          some (item.retransmitted channel).command) ∧
      item.lastTimeSentUs + timeoutUs < now ∧ (∀ i, item.numSentPerChannel i ≠ -2) ∧
      0 ≤ item.numSentPerChannel channel ∧ item.numSentPerChannel channel + 1 ≤ retries := by
  have hmax := maxSent_le fun i => (hrange i).2
  unfold checkTimeout
  split_ifs with hwait hacked hbehind hlevel hlast
  · exact .inl rfl
  · exact .inr (.inl rfl)
  · have hnone : ∀ i, item.numSentPerChannel i ≠ -2 := fun i hi => hacked ⟨i, hi⟩
    have hlow := (hrange channel).1
    have := hnone channel
    exact .inr (.inr ⟨_, .inl rfl, rfl, by omega, hnone, by omega, by omega⟩)
  · exact .inr (.inl rfl)
  · have hnone : ∀ i, item.numSentPerChannel i ≠ -2 := fun i hi => hacked ⟨i, hi⟩
    have hnonneg : 0 ≤ item.maxSent := le_maxSent
    exact .inr (.inr ⟨_, .inr rfl, rfl, by omega, hnone, by omega, by omega⟩)
  · exact .inl rfl

/-- The condition of `handle_mavlink_command_ack`. -/
def fits (command : UInt16) (fromSysid fromCompid : UInt8) (channel : Fin n)
    (item : CommandItem n π) : Bool :=
  item.command.command = command &&
    (item.command.targetSystem = 0 || fromSysid = item.command.targetSystem) &&
    (item.command.targetComponent = 0 || fromCompid = item.command.targetComponent) &&
    item.numSentPerChannel channel ≠ -1

end CommandItem

/-! ## The sender -/

/-- `MavlinkCommandSender`: its list of commands. -/
abbrev CommandSender (n : ℕ) (π : Type) : Type := TimestampedList (CommandItem n π) 3

namespace CommandSender

variable {n : ℕ} {π : Type}

/-- The item of a command that is in the list. -/
def existing (s : CommandSender n π) (timestamp : ℕ) : Option (Fin 3) :=
  s.items.find? fun i => (s i).value.timestampUs = timestamp

variable {s : CommandSender n π} {i : Fin 3} {channel : Fin n}

variable {timestamp now : ℕ} {command : UInt16} {fromSysid fromCompid : UInt8}
  {r : Fin 3 × CommandLong π}

theorem existing_eq_some (h : s.existing timestamp = some i) :
    s.active i ∧ (s i).value.timestampUs = timestamp := by
  refine ⟨TimestampedList.mem_items.mp (mem_of_find?_eq_some h), ?_⟩
  simpa using find?_some h

def handleVehicleCommand (s : CommandSender n π) (command : VehicleCommand π) (channel : Fin n)
    (now : ℕ) : CommandSender n π × Option (CommandLong π) :=
  if command.isInternal then (s, none)
  else
    (match s.existing command.timestamp with
      | some i => s.modify i fun item => item.setSent channel 0
      | none => s.put now (CommandItem.ofCommand command channel now), some command.toLong)

/-- The first item that fits the acknowledgement. -/
def firstFit (s : CommandSender n π) (command : UInt16) (fromSysid fromCompid : UInt8)
    (channel : Fin n) : Option (Fin 3) :=
  s.items.find? fun i => (s i).value.fits command fromSysid fromCompid channel

theorem firstFit_eq_some (h : s.firstFit command fromSysid fromCompid channel = some i) :
    s.active i ∧ (s i).value.fits command fromSysid fromCompid channel := by
  refine ⟨TimestampedList.mem_items.mp (mem_of_find?_eq_some h), ?_⟩
  simpa using find?_some h

def handleMavlinkCommandAck (s : CommandSender n π) (command : UInt16)
    (fromSysid fromCompid : UInt8) (channel : Fin n) : CommandSender n π :=
  match s.firstFit command fromSysid fromCompid channel with
  | some i => s.modify i fun item => item.setSent channel (-2)
  | none => s

/-- `check_timeout`, with what it sends and from which slots. -/
def checkTimeout (s : CommandSender n π) (channel : Fin n) (now : ℕ) :
    CommandSender n π × List (Fin 3 × CommandLong π) :=
  (fun i =>
    if s.active i then
      match ((s i).value.checkTimeout channel now).1 with
      | some item => { s i with value := item }
      | none => { s i with timestampUs := 0 }
    else s i,
    s.items.filterMap fun i => ((s i).value.checkTimeout channel now).2.map fun m => (i, m))

theorem active_checkTimeout (hi : TimestampedList.active (s.checkTimeout channel now).1 i) :
    s.active i ∧ ((s i).value.checkTimeout channel now).1 =
      some ((s.checkTimeout channel now).1 i).value := by
  unfold TimestampedList.active CommandSender.checkTimeout at hi
  unfold CommandSender.checkTimeout
  by_cases hactive : s.active i
  · refine ⟨hactive, ?_⟩
    simp only [hactive, if_true] at hi ⊢
    rcases hcheck : ((s i).value.checkTimeout channel now).1 with _ | item
    · simp [hcheck] at hi
    · rfl
  · simp only [hactive, Bool.false_eq_true, if_false] at hi
    exact absurd hi hactive

theorem mem_checkTimeout (hr : r ∈ (s.checkTimeout channel now).2) :
    s.active r.1 ∧ ((s r.1).value.checkTimeout channel now).2 = some r.2 := by
  obtain ⟨i, hi, hsome⟩ := mem_filterMap.mp hr
  obtain ⟨m, hm, rfl⟩ := Option.map_eq_some_iff.mp hsome
  exact ⟨TimestampedList.mem_items.mp hi, hm⟩

end CommandSender

end Px4.Mavlink
