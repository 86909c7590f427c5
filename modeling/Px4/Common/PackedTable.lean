import Mathlib.Data.List.Nodup
import Mathlib.Data.List.Perm.Basic
import Mathlib.Order.Lattice

/-!
# Packed key tables

A table is a list of entries with keys, of which one entry, `empty`, marks the unused places and has
the largest key. Its `Content` does not depend on the order: how many entries are used, that the
used keys are distinct, and that an unused place holds `empty`. A `Packed` table is sorted in
addition.

The rules for one changed place are stated for a permutation `a :: rest` of the table.
-/

namespace PackedTable

open List

variable {α K : Type*} [LinearOrder K] (key : α → K) (empty : α)

def used (l : List α) : List α :=
  l.filter fun a => key a ≠ key empty

/-- The part of the table invariant that does not depend on the order. -/
structure Content (l : List α) (n : ℕ) : Prop where
  used_length : (used key empty l).length = n
  keys_nodup : ((used key empty l).map key).Nodup
  unused_eq : ∀ a ∈ l, key a = key empty → a = empty

/-- A sorted table with `n` used entries. -/
structure Packed (l : List α) (n : ℕ) : Prop extends Content key empty l n where
  sorted : l.Pairwise fun a b => key a ≤ key b

variable {key empty}

variable {l : List α} {a : α} {n : ℕ}

theorem mem_used : a ∈ used key empty l ↔ a ∈ l ∧ key a ≠ key empty := by
  simp [used]

/-! ## Content -/

variable {l' : List α} {m : ℕ} {b : α}

theorem Content.perm (h : Content key empty l n) (hp : l'.Perm l) :
    Content key empty l' n where
  used_length := by
    rw [← h.used_length]
    exact (hp.filter _).length_eq
  keys_nodup := (((hp.filter _).map key).nodup_iff).mpr h.keys_nodup
  unused_eq := fun a ha => h.unused_eq a (hp.mem_iff.mp ha)

theorem content_cons_empty : Content key empty (empty :: l) n ↔ Content key empty l n := by
  constructor
  · rintro ⟨hlen, hnodup, hunused⟩
    refine ⟨by simpa [used] using hlen, by simpa [used] using hnodup, ?_⟩
    exact fun a ha => hunused a (mem_cons_of_mem _ ha)
  · rintro ⟨hlen, hnodup, hunused⟩
    refine ⟨by simpa [used] using hlen, by simpa [used] using hnodup, fun a ha hk => ?_⟩
    rcases mem_cons.mp ha with rfl | ha
    · rfl
    · exact hunused a ha hk

theorem content_cons_used (ha : key a ≠ key empty) :
    Content key empty (a :: l) (n + 1) ↔
      Content key empty l n ∧ ∀ b ∈ l, key b ≠ key a := by
  constructor
  · rintro ⟨hlen, hnodup, hunused⟩
    simp only [used, filter_cons, ha, ne_eq, not_false_eq_true, decide_true, if_true,
      length_cons, Nat.add_right_cancel_iff, map_cons, nodup_cons,
      mem_map, not_exists, not_and] at hlen hnodup
    refine ⟨⟨hlen, hnodup.2, fun b hb => hunused b (mem_cons_of_mem _ hb)⟩, ?_⟩
    intro b hb hab
    refine hnodup.1 b (mem_filter.mpr ⟨hb, ?_⟩) hab
    simpa [hab] using ha
  · rintro ⟨⟨hlen, hnodup, hunused⟩, hne⟩
    refine ⟨?_, ?_, ?_⟩
    · simpa [used, ha] using hlen
    · simp only [used, filter_cons, ha, ne_eq, not_false_eq_true, decide_true, if_true,
        map_cons, nodup_cons, mem_map, not_exists, not_and]
      exact ⟨fun b hb => hne b (mem_filter.mp hb).1, hnodup⟩
    · intro b hb hk
      rcases mem_cons.mp hb with rfl | hb
      · exact absurd hk ha
      · exact hunused b hb hk

theorem Content.append_unused (h : Content key empty l n) :
    Content key empty (l ++ replicate m empty) n := by
  refine (?_ : Content key empty (replicate m empty ++ l) n).perm perm_append_comm
  induction m with
  | zero => exact h
  | succ m ih => exact content_cons_empty.mpr ih

theorem Content.eq_of_key_eq (h : Content key empty l n)
    (ha : a ∈ l) (hb : b ∈ l) (hk : key a = key b) (hused : key a ≠ key empty) : a = b :=
  inj_on_of_nodup_map h.keys_nodup (mem_used.mpr ⟨ha, hused⟩) (mem_used.mpr ⟨hb, hk ▸ hused⟩) hk

/-! ## Packed tables -/

/-- A sorted table is its used entries followed by unused places. -/
theorem Packed.eq_append (hmax : ∀ a, key a ≤ key empty) (h : Packed key empty l n) :
    l = used key empty l ++ replicate (l.length - n) empty := by
  obtain ⟨⟨hlen, -, hunused⟩, hsorted⟩ := h
  subst hlen
  induction l with
  | nil => rfl
  | cons a l ih =>
    have hsorted' := pairwise_cons.mp hsorted
    have hl := ih hsorted'.2 fun b hb => hunused b (mem_cons_of_mem _ hb)
    by_cases ha : key a = key empty
    · -- everything behind an unused place is unused
      obtain rfl := hunused a (mem_cons_self ..) ha
      have hnil : used key a l = [] := by
        refine filter_eq_nil_iff.mpr fun b hb => ?_
        simpa using le_antisymm (hmax b) (hsorted'.1 b hb)
      have hcons : used key a (a :: l) = [] := by simpa [used] using hnil
      rw [hnil] at hl
      rw [hcons]
      simpa [replicate_succ] using hl
    · have hcons : used key empty (a :: l) = a :: used key empty l := by simp [used, ha]
      rw [hcons]
      simpa using hl

theorem Packed.strictly_ascending (h : Packed key empty l n) :
    (used key empty l).Pairwise fun a b => key a < key b := by
  have hle : (used key empty l).Pairwise fun a b => key a ≤ key b :=
    h.sorted.sublist filter_sublist
  have hne : (used key empty l).Pairwise fun a b => key a ≠ key b :=
    pairwise_map.mp h.keys_nodup
  exact (hle.and hne).imp fun hab => lt_of_le_of_ne hab.1 hab.2

theorem Packed.le_length (h : Packed key empty l n) : n ≤ l.length := by
  rw [← h.used_length]
  exact length_filter_le ..

variable (hmax : ∀ a, key a ≤ key empty) (h : Packed key empty l n)
include hmax h

theorem Packed.take_eq : l.take n = used key empty l := by
  have happ := h.eq_append hmax
  conv_lhs => rw [happ, ← h.used_length, take_left]

theorem Packed.drop_eq : l.drop n = replicate (l.length - n) empty := by
  have happ := h.eq_append hmax
  conv_lhs => rw [happ, ← h.used_length, drop_left]
  rw [h.used_length]

end PackedTable
