import Mathlib.Data.List.Chain
import Px4.Gnss.RtcmAssembler

/-!
# Fragmented corrections are reassembled exactly

A sender cuts a message into fragments and sends them in any order, with or without the fragment
that marks the end. A message is complete if and only if the end is among the fragments that have
arrived and nothing before it is missing. Without a mark of the end, it stays in the assembler until
the next one begins.
-/

namespace Px4.Gnss

open List Run

structure Packet where
  flags : UInt8
  data : Bytes
  timestamp : UInt64

open Packet

def Packet.fragmentId (p : Packet) : ℕ := (gpsRtcmFragmentId p.flags).toNat

def Packet.sequenceId (p : Packet) : UInt8 := gpsRtcmSequenceId p.flags

/-- The packet is not later than the timeout allows. -/
def Packet.Within (p p' : Packet) : Prop :=
  p'.timestamp ≤ p.timestamp + gpsRtcmFragmentTimeoutUs

namespace GpsRtcmMessageAssembler

/-- The assembler after `addPacket` and `takeDeferredMessage`. -/
def receive (a : GpsRtcmMessageAssembler) (p : Packet) : GpsRtcmMessageAssembler :=
  (a.addPacket p.flags (some p.data) p.timestamp).1.takeDeferredMessage.1

/-- What the two calls return. -/
def outputs (a : GpsRtcmMessageAssembler) (p : Packet) : List Bytes :=
  (a.addPacket p.flags (some p.data) p.timestamp).2.toList ++
    (a.addPacket p.flags (some p.data) p.timestamp).1.takeDeferredMessage.2.toList

end GpsRtcmMessageAssembler

/-- The messages that the packets give. -/
def received (packets : List Packet) : List Bytes :=
  emitted GpsRtcmMessageAssembler.receive GpsRtcmMessageAssembler.outputs {} packets

/-! ## What is sent -/

def fragment (payload : Bytes) (i : ℕ) : Bytes :=
  (payload.drop (gpsRtcmMaxFragmentLen * i)).take gpsRtcmMaxFragmentLen

/-- How many fragments a message has, with the short or empty one that marks its end. -/
def numFragments (payload : Bytes) : ℕ :=
  min gpsRtcmMaxFragments (payload.length / gpsRtcmMaxFragmentLen + 1)

inductive Form where
  | unfragmented
  | fragmented
  /-- full fragments without a mark of the end -/
  | legacy

/-- A message with the packets in which it is sent. -/
structure Sending where
  form : Form
  sequenceId : UInt8
  payload : Bytes
  packets : List Packet

namespace Sending

/-- The packet carries the whole message. -/
structure IsWhole (s : Sending) (p : Packet) : Prop where
  flags : gpsRtcmIsFragmented p.flags = false
  sequenceId : p.sequenceId = s.sequenceId
  data : p.data = s.payload

structure IsFragment (s : Sending) (p : Packet) : Prop where
  flags : gpsRtcmIsFragmented p.flags = true
  sequenceId : p.sequenceId = s.sequenceId
  data : p.data = fragment s.payload p.fragmentId

/-- The packets are the first `n` fragments, in any order and any of them several times. -/
structure InFragments (s : Sending) (n : ℕ) : Prop where
  fragments : ∀ p ∈ s.packets, s.IsFragment p
  lossless : ∀ i, i ∈ s.packets.map fragmentId ↔ i < n

/-- The packets of the message in its form; none comes after the one that completes it. -/
def Valid (s : Sending) : Prop :=
  match s.form with
  | .unfragmented =>
    s.payload.length ≤ gpsRtcmMaxFragmentLen ∧ ∃ p, s.packets = [p] ∧ s.IsWhole p
  | .fragmented =>
    s.payload.length ≤ gpsRtcmMaxMessageLen ∧ s.InFragments (numFragments s.payload) ∧
      ∃ earlier last, s.packets = earlier ++ [last] ∧
        last.fragmentId ∉ earlier.map fragmentId
  | .legacy => ∃ n, 0 < n ∧ n < gpsRtcmMaxFragments ∧
      s.payload.length = gpsRtcmMaxFragmentLen * n ∧ s.InFragments n

end Sending

/-! ## Messages cut into fragments -/

variable {payload : Bytes} {i n : ℕ} {t' : UInt64} {a : GpsRtcmMessageAssembler} {p last : Packet}
  {held' : List ℕ} {packets : List Packet} {pending : Option Sending} {sent : List Sending}

theorem length_fragment : (fragment payload i).length =
      min gpsRtcmMaxFragmentLen (payload.length - gpsRtcmMaxFragmentLen * i) := by
  rw [fragment, length_take, length_drop]

theorem flatMap_fragment :
    (range n).flatMap (fragment payload) = payload.take (gpsRtcmMaxFragmentLen * n) := by
  induction n with
  | zero => rfl
  | succ n ih =>
    rw [range_succ, flatMap_append, ih, flatMap_singleton, fragment, Nat.mul_succ, take_add]

/-- `n` fragments, all but the last one full, are the message. -/
structure Cut (payload : Bytes) (n : ℕ) : Prop where
  pos : 0 < n
  count : n ≤ gpsRtcmMaxFragments
  full : gpsRtcmMaxFragmentLen * (n - 1) ≤ payload.length
  whole : payload.length ≤ gpsRtcmMaxFragmentLen * n

/-- The fragment tells the assembler that none comes after it. -/
def ends (payload : Bytes) (i : ℕ) : Bool :=
  (fragment payload i).length < gpsRtcmMaxFragmentLen ∨ i = gpsRtcmMaxFragments - 1

variable {payload : Bytes} {n : ℕ}

theorem cut_numFragments (h : payload.length ≤ gpsRtcmMaxMessageLen) :
    Cut payload (numFragments payload) := by
  simp only [gpsRtcmMaxMessageLen, gpsRtcmMaxFragmentLen, gpsRtcmMaxFragments] at h
  constructor <;> simp only [numFragments, gpsRtcmMaxFragments, gpsRtcmMaxFragmentLen] <;> omega

theorem ends_numFragments : ends payload (numFragments payload - 1) := by
  simp only [ends, decide_eq_true_eq, length_fragment, numFragments, gpsRtcmMaxFragments,
    gpsRtcmMaxFragmentLen]
  omega

theorem cut_full (hn : 0 < n) (hcount : n ≤ gpsRtcmMaxFragments)
    (h : payload.length = gpsRtcmMaxFragmentLen * n) : Cut payload n :=
  ⟨hn, hcount, h ▸ Nat.mul_le_mul_left _ (Nat.sub_le n 1), h.le⟩

theorem not_ends_full (h : payload.length = gpsRtcmMaxFragmentLen * n)
    (hn : n < gpsRtcmMaxFragments) (hi : i < n) : ends payload i = false := by
  simp only [gpsRtcmMaxFragmentLen, gpsRtcmMaxFragments] at h hn
  simp only [ends, decide_eq_false_iff_not, length_fragment, gpsRtcmMaxFragmentLen,
    gpsRtcmMaxFragments]
  omega

namespace Cut

variable (h : Cut payload n)
include h

theorem length_eq (hi : i + 1 < n) : (fragment payload i).length = gpsRtcmMaxFragmentLen := by
  have hfull := h.full
  simp only [gpsRtcmMaxFragmentLen] at hfull
  simp only [length_fragment, gpsRtcmMaxFragmentLen]
  omega

theorem eq_of_ends (hi : i < n) (hends : ends payload i) : i + 1 = n := by
  have hcount := h.count
  simp only [ends, decide_eq_true_eq] at hends
  rcases hends with hshort | hlast
  · by_contra hne
    have hfull := h.length_eq (i := i) (by omega)
    omega
  · omega

theorem flatMap_eq : (range n).flatMap (fragment payload) = payload := by
  rw [flatMap_fragment, take_of_length_le h.whole]

end Cut

/-! ## A message in the assembler -/

open GpsRtcmMessageAssembler

/-- The assembler with some fragments of a message, the last of which came at `timestamp`. -/
def collecting (s : Sending) (held : List ℕ) (timestamp : UInt64) : GpsRtcmMessageAssembler where
  fragments i := if i ∈ held then some (fragment s.payload i) else none
  activeSequence :=
    { sequenceId := s.sequenceId
      lastFragmentId := held.find? (ends s.payload)
      timestamp := timestamp
      active := true }

variable {s : Sending} {held : List ℕ} {t : UInt64}

theorem isSome_collecting : ((collecting s held t).fragments i).isSome = decide (i ∈ held) := by
  by_cases hi : i ∈ held <;> simp [collecting, hi]

theorem opened_eq_collecting : opened s.sequenceId none = collecting s [] 0 := by
  simp [opened, collecting]

theorem hasFragmentAfter_collecting (hheld : ∀ i ∈ held, i < n) (hi : n ≤ i + 1) :
    (collecting s held t).hasFragmentAfter i = false := by
  simp only [hasFragmentAfter, isSome_collecting, any_eq_false, Bool.and_eq_true,
    decide_eq_true_eq, not_and]
  intro j _ hij hj
  have := hheld j hj
  omega

theorem assemble_collecting (hcut : Cut s.payload n) (hheld : ∀ i < n, i ∈ held) :
    (collecting s held t).assemble n = s.payload :=
  calc (collecting s held t).assemble n = (range n).flatMap (fragment s.payload) :=
        flatMap_congr fun i hi => by simp [collecting, hheld i (mem_range.mp hi)]
    _ = s.payload := hcut.flatMap_eq

theorem fullFragments_collecting (hcount : n < gpsRtcmMaxFragments)
    (hlength : s.payload.length = gpsRtcmMaxFragmentLen * n) (hheld : ∀ i, i ∈ held ↔ i < n) :
    (collecting s held t).fullFragments = n := by
  have hfull : ∀ i, ((collecting s held t).fragments i).any (·.length = gpsRtcmMaxFragmentLen) =
      decide (i < n) := by
    intro i
    by_cases hi : i < n
    · have hends := not_ends_full hlength hcount hi
      simp only [ends, decide_eq_false_iff_not, not_or, length_fragment] at hends
      simp only [collecting, (hheld i).mpr hi, hi, if_true, Option.any_some, length_fragment,
        decide_eq_decide, iff_true]
      omega
    · simp [collecting, hheld, hi]
  have htake : ∀ n < 4, ((range 4).takeWhile fun i => decide (i < n)).length = n := by decide
  rw [fullFragments, funext hfull]
  exact htake n hcount

theorem assembleLegacy_collecting (hn : 0 < n) (hcount : n < gpsRtcmMaxFragments)
    (hlength : s.payload.length = gpsRtcmMaxFragmentLen * n) (hheld : ∀ i, i ∈ held ↔ i < n) :
    (collecting s held t).assembleLegacyExactMultipleMessage = some s.payload := by
  have hafter : (collecting s held t).hasFragmentAfter (n - 1) = false :=
    hasFragmentAfter_collecting (fun i hi => (hheld i).mp hi) (by omega)
  rw [assembleLegacyExactMultipleMessage, fullFragments_collecting hcount hlength hheld, hafter,
    assemble_collecting (cut_full hn hcount.le hlength) fun i hi => (hheld i).mpr hi]
  simp [hn.ne']

/-- The end of the message has arrived, and everything before it. -/
def Arrived (s : Sending) (n : ℕ) (held : List ℕ) : Prop :=
  ends s.payload (n - 1) = true ∧ ∀ i < n, i ∈ held

section

variable (hcut : Cut s.payload n) (hheld : ∀ i ∈ held, i < n)
include hcut hheld

theorem find_ends {last : ℕ}
    (h : held.find? (ends s.payload) = some last) : last + 1 = n ∧ last ∈ held :=
  ⟨hcut.eq_of_ends (hheld _ (mem_of_find?_eq_some h)) (find?_some h), mem_of_find?_eq_some h⟩

theorem isComplete_collecting : (collecting s held t).isComplete ↔ Arrived s n held := by
  have hpos := hcut.pos
  simp only [isComplete, isSome_collecting, all_eq_true, mem_range, decide_eq_true_eq]
  rcases hfind : held.find? (ends s.payload) with _ | last
  · -- nothing that has arrived tells the end, so the last slot is empty
    have hindex : (collecting s held t).lastFragmentIndex = gpsRtcmMaxFragments - 1 := by
      rw [lastFragmentIndex, collecting, hfind, Option.getD_none]
    rw [find?_eq_none] at hfind
    refine ⟨fun h => ?_, fun h => absurd h.1 (hfind _ (h.2 _ (by omega)))⟩
    have hlast := h (gpsRtcmMaxFragments - 1) (by omega)
    exact absurd (by simp [ends]) (hfind _ hlast)
  · obtain ⟨hlast, hmem⟩ := find_ends hcut hheld hfind
    have hindex : (collecting s held t).lastFragmentIndex = last := by
      rw [lastFragmentIndex, collecting, hfind, Option.getD_some]
    have hends : ends s.payload (n - 1) := by
      rw [← hlast]
      exact find?_some hfind
    rw [hindex, hlast]
    exact ⟨fun h => ⟨hends, h⟩, fun h => h.2⟩

theorem contradicts_collecting
    (hi : i < n) : (collecting s held t).contradicts i (fragment s.payload i) = false := by
  -- a fragment that is not full is the last one
  have hfull : (fragment s.payload i).length < gpsRtcmMaxFragmentLen → i + 1 = n := fun h =>
    hcut.eq_of_ends hi (by simp [ends, h])
  have hlast : ∀ last, held.find? (ends s.payload) = some last → last + 1 = n :=
    fun _ h => (find_ends hcut hheld h).1
  simp only [contradicts, Bool.or_eq_false_iff, Bool.and_eq_false_iff, decide_eq_false_iff_not]
  refine ⟨⟨?_, ?_⟩, ?_⟩
  · rw [Option.any_eq_false]
    intro last h
    have := hlast last h
    exact decide_eq_false (by omega)
  · rw [Option.any_eq_false]
    intro last h
    have := hlast last h
    rw [Bool.and_eq_false_iff, decide_eq_false_iff_not, decide_eq_false_iff_not]
    omega
  · by_cases hshort : (fragment s.payload i).length < gpsRtcmMaxFragmentLen
    · exact .inr (hasFragmentAfter_collecting hheld (hfull hshort).ge)
    · exact .inl hshort

end

theorem storeFragment_collecting :
    ((collecting s held t).dropDifferent i (fragment s.payload i)).storeFragment i
      (fragment s.payload i) t' = collecting s (i :: held) t' := by
  have hsame : (collecting s held t).dropDifferent i (fragment s.payload i) =
      collecting s held t := by
    by_cases hi : i ∈ held <;> simp [dropDifferent, collecting, hi]
  have hfragments : Function.update (collecting s held t).fragments i
      (some (fragment s.payload i)) = (collecting s (i :: held) t').fragments := by
    funext j
    by_cases hj : j = i
    · subst hj
      simp [collecting]
    · simp [collecting, hj]
  have hlast : (if (fragment s.payload i).length < gpsRtcmMaxFragmentLen ∨
      i = gpsRtcmMaxFragments - 1 then some i else held.find? (ends s.payload)) =
      (i :: held).find? (ends s.payload) := by
    split
    · next h =>
      have hends : ends s.payload i := decide_eq_true h
      exact (find?_cons_of_pos hends).symm
    · next h =>
      have hends : ¬ ends s.payload i := fun hends => h (of_decide_eq_true hends)
      exact (find?_cons_of_neg hends).symm
  rw [hsame, storeFragment, hfragments]
  simp [collecting, hlast]

theorem lastFragmentIndex_of_arrived (hcut : Cut s.payload n) (hheld : ∀ i ∈ held, i < n)
    (h : Arrived s n held) : (collecting s held t).lastFragmentIndex + 1 = n := by
  rcases hfind : held.find? (ends s.payload) with _ | last
  · rw [find?_eq_none] at hfind
    exact absurd h.1 (hfind _ (h.2 _ (Nat.sub_one_lt_of_lt hcut.pos)))
  · rw [collecting, hfind]
    exact (find_ends hcut hheld hfind).1

section Buffer

variable (hcut : Cut s.payload n) (hheld : ∀ j ∈ i :: held, j < n) (t' : UInt64)
include hcut hheld

theorem bufferFragment_keep (h : ¬Arrived s n (i :: held)) :
    (collecting s held t).bufferFragment i (fragment s.payload i) t' =
      (collecting s (i :: held) t', none) := by
  obtain ⟨hi, hheld'⟩ := forall_mem_cons.mp hheld
  have hcomplete := mt (isComplete_collecting (t := t') hcut hheld).mp h
  rw [bufferFragment, contradicts_collecting hcut hheld' hi, if_neg Bool.false_ne_true]
  rw [storeFragment_collecting, if_neg hcomplete]

theorem bufferFragment_complete (h : Arrived s n (i :: held)) :
    (collecting s held t).bufferFragment i (fragment s.payload i) t' = ({}, some s.payload) := by
  obtain ⟨hi, hheld'⟩ := forall_mem_cons.mp hheld
  have hcomplete := (isComplete_collecting (t := t') hcut hheld).mpr h
  rw [bufferFragment, contradicts_collecting hcut hheld' hi]
  rw [storeFragment_collecting, if_pos hcomplete, lastFragmentIndex_of_arrived hcut hheld h,
    assemble_collecting hcut h.2]
  rfl

end Buffer

/-! ## Packets -/

/-- A fragment will find these fragments, and make the pending message be returned. -/
def Ready (s : Sending) (held : List ℕ) (pending : Option Sending) (a : GpsRtcmMessageAssembler)
    (timestamp : UInt64) : Prop :=
  ∃ t, (a.dropStale timestamp).changeSequence s.sequenceId =
    (collecting s held t, pending.map (·.payload))

section Fragment

variable {a : GpsRtcmMessageAssembler} {pending : Option Sending} {p : Packet}

theorem Ready.addPacket (ha : Ready s held pending a p.timestamp) (hp : s.IsFragment p) :
    ∃ t, a.addPacket p.flags (some p.data) p.timestamp =
      ((collecting s held t).bufferFragment p.fragmentId (fragment s.payload p.fragmentId)
        p.timestamp).1.returnInOrder (pending.map (·.payload))
        ((collecting s held t).bufferFragment p.fragmentId (fragment s.payload p.fragmentId)
          p.timestamp).2 := by
  obtain ⟨t, ht⟩ := ha
  have hlength : ¬ p.data.length > gpsRtcmMaxFragmentLen := by
    rw [hp.data, length_fragment]
    omega
  refine ⟨t, ?_⟩
  rw [GpsRtcmMessageAssembler.addPacket, if_pos hp.flags, addFragment, if_neg hlength,
    ← sequenceId, hp.sequenceId, ht, ← fragmentId, hp.data]

variable (ha : Ready s held pending a p.timestamp) (hp : s.IsFragment p) (hcut : Cut s.payload n)
  (hheld : ∀ i ∈ p.fragmentId :: held, i < n)
include ha hp hcut hheld

theorem Ready.keep (h : ¬Arrived s n (p.fragmentId :: held)) :
    a.receive p = collecting s (p.fragmentId :: held) p.timestamp ∧
      a.outputs p = pending.toList.map (·.payload) := by
  obtain ⟨t, hadd⟩ := ha.addPacket hp
  rw [receive, outputs, hadd, bufferFragment_keep hcut hheld _ h]
  cases pending with
  | none => exact ⟨rfl, rfl⟩
  | some m => exact ⟨rfl, rfl⟩

theorem Ready.complete (h : Arrived s n (p.fragmentId :: held)) :
    a.receive p = {} ∧ a.outputs p = (pending.toList ++ [s]).map (·.payload) := by
  obtain ⟨t, hadd⟩ := ha.addPacket hp
  rw [receive, outputs, hadd, bufferFragment_complete hcut hheld _ h]
  cases pending with
  | none => exact ⟨rfl, rfl⟩
  | some m => exact ⟨rfl, rfl⟩

end Fragment

theorem dropStale_collecting (h : t' ≤ t + gpsRtcmFragmentTimeoutUs) :
    (collecting s held t).dropStale t' = collecting s held t :=
  if_neg fun hstale => UInt64.not_lt.mpr h hstale.2.2

theorem ready_collecting (h : t' ≤ t + gpsRtcmFragmentTimeoutUs) :
    Ready s held none (collecting s held t) t' := by
  refine ⟨t, ?_⟩
  rw [dropStale_collecting h, changeSequence]
  simp [collecting]

/-- What the assembler holds between two messages. -/
inductive Between : GpsRtcmMessageAssembler → Option Sending → Prop
  | idle : Between {} none
  | pending {s : Sending} {n : ℕ} {held : List ℕ} {p : Packet} (hn : 0 < n)
      (hcount : n < gpsRtcmMaxFragments) (hform : s.form = .legacy)
      (hlength : s.payload.length = gpsRtcmMaxFragmentLen * n) (hheld : ∀ i, i ∈ held ↔ i < n)
      (hlast : p ∈ s.packets.getLast?) : Between (collecting s held p.timestamp) (some s)

theorem Between.ready {pending} (h : Between a pending)
    (hid : ∀ m ∈ pending, m.sequenceId ≠ s.sequenceId)
    (htime : ∀ m ∈ pending, ∀ last ∈ m.packets.getLast?, last.Within p) :
    Ready s [] pending a p.timestamp := by
  refine ⟨0, ?_⟩
  cases h with
  | idle =>
    rfl
  | pending hn hcount hform hlength hheld hlast =>
    rw [dropStale_collecting (htime _ rfl _ hlast), changeSequence,
      assembleLegacy_collecting hn hcount hlength hheld, ← opened_eq_collecting]
    simp [collecting, (hid _ rfl).symm]

/-! ## Messages -/

theorem Arrived.mono (h : Arrived s n held) (hsub : held ⊆ held') : Arrived s n held' :=
  ⟨h.1, fun i hi => hsub (h.2 i hi)⟩

/-- The fragments before the last are kept; what was pending comes with the first or the last. -/
theorem Ready.collect (hcut : Cut s.payload n)
    (hpackets : ∀ p ∈ packets, s.IsFragment p ∧ p.fragmentId < n)
    (hchain : (packets ++ [last]).IsChain Packet.Within) (hheld : ∀ i ∈ held, i < n)
    (ha : ∀ p ∈ (packets ++ [last]).head?, Ready s held pending a p.timestamp)
    (h : ¬Arrived s n ((packets.map fragmentId).reverse ++ held)) :
    ∃ pending', Ready s ((packets.map fragmentId).reverse ++ held) pending'
      (after receive a packets) last.timestamp ∧
      emitted receive outputs a packets ++ pending'.toList.map (·.payload) =
        pending.toList.map (·.payload) := by
  induction packets generalizing a pending held with
  | nil => exact ⟨pending, ha last rfl, rfl⟩
  | cons p packets ih =>
    rw [map_cons, reverse_cons, append_assoc] at h ⊢
    obtain ⟨⟨hp, hid⟩, hpackets⟩ := forall_mem_cons.mp hpackets
    have hheld' : ∀ i ∈ p.fragmentId :: held, i < n := forall_mem_cons.mpr ⟨hid, hheld⟩
    obtain ⟨hnext, hout⟩ := (ha p rfl).keep hp hcut hheld' fun harrived =>
      h (harrived.mono (subset_append_right _ _))
    rw [cons_append, isChain_cons] at hchain
    rw [after_cons, emitted, hnext, hout]
    obtain ⟨pending', hready, hpending⟩ := ih hpackets hchain.2 hheld'
      (fun q hq => ready_collecting (hchain.1 q hq)) h
    refine ⟨pending', hready, ?_⟩
    rw [append_assoc, hpending]
    exact append_nil _

/-- After the packets: the pending message was returned, and this one was or is pending. -/
def Taken (s : Sending) (pending : Option Sending) (a : GpsRtcmMessageAssembler) : Prop :=
  ∃ pending', Between (after receive a s.packets) pending' ∧ pending'.toList <:+ [s] ∧
    emitted receive outputs a s.packets ++ pending'.toList.map (·.payload) =
      (pending.toList ++ [s]).map (·.payload)

section Message

variable {a : GpsRtcmMessageAssembler} {pending : Option Sending} (ha : Between a pending)
  (hid : ∀ m ∈ pending, m.sequenceId ≠ s.sequenceId)
  (hchain : s.packets.IsChain Packet.Within)
  (htime : ∀ m ∈ pending, ∀ last ∈ m.packets.getLast?, ∀ p ∈ s.packets.head?, last.Within p)

include ha htime in
theorem Between.unfragmented (hlength : s.payload.length ≤ gpsRtcmMaxFragmentLen) {p}
    (hpackets : s.packets = [p]) (hp : s.IsWhole p) : Taken s pending a := by
  have hmax : ¬ s.payload.length > gpsRtcmMaxMessageLen := by
    simp only [gpsRtcmMaxMessageLen, gpsRtcmMaxFragments, gpsRtcmMaxFragmentLen] at hlength ⊢
    omega
  rw [hpackets] at htime
  refine ⟨none, ?_⟩
  rw [hpackets, after_cons, after_nil, emitted, emitted, receive, outputs,
    addPacket, hp.flags, hp.data, if_neg Bool.false_ne_true]
  cases ha with
  | idle =>
    rw [show (dropStale {} p.timestamp).addUnfragmented s.payload = ({}, some s.payload) from
      if_neg hmax]
    exact ⟨.idle, nil_suffix, rfl⟩
  | pending hn hcount hform hlength hheld hlast =>
    rw [dropStale_collecting (htime _ rfl _ hlast _ rfl), addUnfragmented, if_neg hmax,
      assembleLegacy_collecting hn hcount hlength hheld]
    exact ⟨.idle, nil_suffix, rfl⟩

variable {earlier : List Packet}

include ha hid hchain htime in
theorem Between.collect (hcut : Cut s.payload n) (hs : s.InFragments n) {last}
    (hpackets : s.packets = earlier ++ [last]) (h : ¬Arrived s n (earlier.map fragmentId).reverse) :
    ∃ pending', Ready s (earlier.map fragmentId).reverse pending'
      (after receive a earlier) last.timestamp ∧
      emitted receive outputs a earlier ++ pending'.toList.map (·.payload) =
        pending.toList.map (·.payload) := by
  rw [hpackets] at hchain htime
  have hready : ∀ p ∈ (earlier ++ [last]).head?, Ready s [] pending a p.timestamp := fun p hp =>
    ha.ready hid fun m hm q hq => htime m hm q hq p hp
  have hall : ∀ p ∈ earlier, s.IsFragment p ∧ p.fragmentId < n := fun p hp => by
    have hmem : p ∈ s.packets := hpackets ▸ mem_append_left _ hp
    exact ⟨hs.fragments p hmem, (hs.lossless _).mp (mem_map_of_mem hmem)⟩
  simpa using Ready.collect hcut hall hchain (by simp) hready (by simpa using h)

theorem Sending.InFragments.mem_iff (hs : s.InFragments n)
    (hpackets : s.packets = earlier ++ [last]) (i) :
    i ∈ last.fragmentId :: (earlier.map fragmentId).reverse ↔ i < n := by
  rw [← hs.lossless, hpackets]
  simp [or_comm]

include ha hid hchain htime in
theorem Between.fragmented (hlength : s.payload.length ≤ gpsRtcmMaxMessageLen)
    (hs : s.InFragments (numFragments s.payload)) {last} (hpackets : s.packets = earlier ++ [last])
    (hlast : last.fragmentId ∉ earlier.map fragmentId) : Taken s pending a := by
  have hcut := cut_numFragments hlength
  have hmem := hs.mem_iff hpackets
  have hmissing : ¬Arrived s (numFragments s.payload) (earlier.map fragmentId).reverse :=
    fun h => hlast (mem_reverse.mp (h.2 _ ((hmem _).mp (mem_cons_self ..))))
  obtain ⟨pending', hready, hpending⟩ := ha.collect hid hchain htime hcut hs hpackets hmissing
  obtain ⟨hnext, hout⟩ := hready.complete
    (hs.fragments last (hpackets ▸ mem_append_right _ (mem_singleton_self _))) hcut
    (fun i => (hmem i).mp) ⟨ends_numFragments, fun i => (hmem i).mpr⟩
  refine ⟨none, ?_⟩
  rw [hpackets, after_append, emitted_append, after_cons, after_nil, emitted,
    emitted, hnext, hout, map_append, ← append_assoc, append_nil,
    ← append_assoc, hpending]
  exact ⟨.idle, nil_suffix, by simp⟩

include ha hid hchain htime in
theorem Between.legacy (hform : s.form = .legacy) (hn : 0 < n) (hcount : n < gpsRtcmMaxFragments)
    (hlength : s.payload.length = gpsRtcmMaxFragmentLen * n) (hs : s.InFragments n) :
    Taken s pending a := by
  have hcut := cut_full hn hcount.le hlength
  -- none of the fragments tells the end
  have hmissing : ∀ held, ¬Arrived s n held := fun held h =>
    absurd h.1 (by rw [not_ends_full hlength hcount (by omega)]; exact Bool.false_ne_true)
  obtain hnil | ⟨earlier, last, hpackets⟩ := eq_nil_or_concat s.packets
  · have hfirst := (hs.lossless 0).mpr hn
    rw [hnil] at hfirst
    cases hfirst
  rw [concat_eq_append] at hpackets
  have hmem := hs.mem_iff hpackets
  obtain ⟨pending', hready, hpending⟩ := ha.collect hid hchain htime hcut hs hpackets (hmissing _)
  obtain ⟨hnext, hout⟩ := hready.keep
    (hs.fragments last (hpackets ▸ mem_append_right _ (mem_singleton_self _))) hcut
    (fun i => (hmem i).mp) (hmissing _)
  refine ⟨some s, ?_, suffix_rfl, ?_⟩
  · rw [hpackets, after_append, after_cons, after_nil, hnext]
    exact .pending hn hcount hform hlength hmem (by simp [hpackets])
  · rw [hpackets, emitted_append, emitted, emitted, hout, append_nil, hpending]
    simp

include ha hid hchain htime in
theorem Between.message (hs : s.Valid) : Taken s pending a := by
  rcases hform : s.form with _ | _ | _ <;> rw [Sending.Valid, hform] at hs
  · obtain ⟨hlength, p, hpackets, hp⟩ := hs
    exact ha.unfragmented htime hlength hpackets hp
  · obtain ⟨hlength, hfragments, earlier, last, hpackets, hlast⟩ := hs
    exact ha.fragmented hid hchain htime hlength hfragments hpackets hlast
  · obtain ⟨n, hn, hcount, hlength, hfragments⟩ := hs
    exact ha.legacy hid hchain htime hform hn hcount hlength hfragments

end Message

/-- Every message comes out once, in order; only one without a mark of its end can be pending. -/
theorem Between.messages {pending} (ha : Between a pending) (hsent : ∀ s ∈ sent, s.Valid)
    (hids : (pending.toList ++ sent).IsChain fun s s' => s.sequenceId ≠ s'.sequenceId)
    (htimes : ((pending.toList ++ sent).flatMap (·.packets)).IsChain Packet.Within) :
    ∃ pending', Between (after receive a (sent.flatMap (·.packets))) pending' ∧
      pending'.toList <:+ pending.toList ++ sent ∧
      emitted receive outputs a (sent.flatMap (·.packets)) ++
        pending'.toList.map (·.payload) = (pending.toList ++ sent).map (·.payload) := by
  induction sent generalizing a pending with
  | nil => exact ⟨pending, ha, by simp, by simp [emitted]⟩
  | cons s sent ih =>
    obtain ⟨hs, hsent⟩ := forall_mem_cons.mp hsent
    obtain ⟨_, hids', hid⟩ := isChain_append.mp hids
    rw [flatMap_append] at htimes
    obtain ⟨_, htimes', htime⟩ := isChain_append.mp htimes
    obtain ⟨hchain, -, -⟩ := isChain_append.mp htimes'
    obtain ⟨next, hnext, hsuffix, hout⟩ := ha.message
      (fun m hm => hid m (by simp [Option.mem_def.mp hm]) s rfl) hchain
      (fun m hm last hlast p hp => htime last (by simpa [Option.mem_def.mp hm] using hlast) p
        (by simp [Option.mem_def.mp hp])) hs
    obtain ⟨before, hbefore⟩ := hsuffix
    -- what is pending now is this message or nothing
    have hrest : next.toList ++ sent <:+ s :: sent :=
      ⟨before, by rw [← append_assoc, hbefore, singleton_append]⟩
    have hpackets :
        (next.toList ++ sent).flatMap (·.packets) <:+ (s :: sent).flatMap (·.packets) := by
      obtain ⟨front, hfront⟩ := hrest
      exact ⟨front.flatMap (·.packets), by rw [← flatMap_append, hfront]⟩
    obtain ⟨pending', hB, hsuffix', hout'⟩ :=
      ih hnext hsent (hids'.suffix hrest) (htimes'.suffix hpackets)
    refine ⟨pending', ?_, hsuffix'.trans (hrest.trans (suffix_append _ _)), ?_⟩
    · rwa [flatMap_cons, after_append]
    · rw [flatMap_cons, emitted_append, append_assoc, hout', map_append, ← append_assoc, hout]
      simp

theorem Between.form_eq (h : Between a (some s)) : s.form = .legacy := by
  cases h with
  | pending hn hcount hform => exact hform

/-- The messages that are sent, in any mix of forms, come out of the assembler exactly: once each,
in order, and all of them but for a last one without a mark of its end. -/
theorem messages_reassembled (sent : List Sending) (hsent : ∀ s ∈ sent, s.Valid)
    (hids : sent.IsChain fun s s' => s.sequenceId ≠ s'.sequenceId)
    (htimes : (sent.flatMap (·.packets)).IsChain Packet.Within) :
    ∃ delivered pending, sent = delivered ++ pending ∧
      received (sent.flatMap (·.packets)) = delivered.map (·.payload) ∧
      (pending = [] ∨ ∃ s, pending = [s] ∧ s.form = .legacy) := by
  obtain ⟨pending, hB, ⟨delivered, hdelivered⟩, hout⟩ := Between.idle.messages hsent hids htimes
  refine ⟨delivered, pending.toList, hdelivered.symm, ?_, ?_⟩
  · rw [← hdelivered, map_append] at hout
    exact append_cancel_right hout
  · cases pending with
    | none => exact .inl rfl
    | some s => exact .inr ⟨s, rfl, hB.form_eq⟩

/-- A message of 180 bytes without a mark of its end, and the short message that flushes it. -/
def legacyThenShort : List Sending :=
  [{ form := .legacy
     sequenceId := 1
     payload := replicate 180 7
     packets := [⟨0x09, replicate 180 7, 10⟩] },
   { form := .unfragmented, sequenceId := 2, payload := [1, 2], packets := [⟨0x10, [1, 2], 20⟩] }]

theorem legacyThenShort_reassembled :
    ∃ delivered pending, legacyThenShort = delivered ++ pending ∧
      received (legacyThenShort.flatMap (·.packets)) = delivered.map (·.payload) ∧
      (pending = [] ∨ ∃ s, pending = [s] ∧ s.form = .legacy) := by
  refine messages_reassembled legacyThenShort ?_ (by simp [legacyThenShort])
    (by simp [legacyThenShort, Packet.Within]; decide)
  intro s hs
  simp only [legacyThenShort, mem_cons, not_mem_nil, or_false] at hs
  rcases hs with rfl | rfl
  · refine ⟨1, by decide, by decide, length_replicate, ?_, ?_⟩
    · intro p hp
      rw [mem_singleton] at hp
      subst hp
      exact ⟨by decide, rfl, rfl⟩
    · intro i
      have hid : fragmentId ⟨0x09, replicate 180 7, 10⟩ = 0 := rfl
      rw [map_cons, map_nil, hid, mem_singleton, Nat.lt_one_iff]
  · exact ⟨by decide, _, rfl, by decide, rfl, rfl⟩

end Px4.Gnss
