import Px4.Common.PackedTable
import Px4.Parameters.DynamicSparseLayer
import Mathlib.Data.Set.Card

/-!
# The critical sections of the sparse layer as map operations

The array of a layer is a packed table, and the layer stands for the finite map of its used slots.
Each critical section acts on that map as its name says.
-/

namespace Px4.Parameters

open Function List Option PackedTable

variable {V : Type*} [Inhabited V]

/-- `qsort` as an insertion sort. -/
def Qsort.insertion (V : Type*) : Qsort V where
  sort := insertionSort (·.key ≤ ·.key)
  perm := perm_insertionSort _
  sorted := by
    exact pairwise_insertionSort _

/-- `UINT16_MAX`, the parameter of unused slots. -/
def paramUnused : ParamT := 65535

theorem Slot.key_le_unused (s : Slot V) : s.key ≤ (Slot.unused : Slot V).key := by
  have := s.param.toNat_lt
  exact Nat.le_of_lt_succ this

open Slot

theorem Slot.key_eq_unused_iff {s : Slot V} :
    s.key = (unused : Slot V).key ↔ s.param = paramUnused :=
  UInt16.toNat_inj

omit [Inhabited V] in
theorem Slot.key_eq_iff {s : Slot V} {param} : s.key = param.toNat ↔ s.param = param :=
  UInt16.toNat_inj

/-- The array of a layer with `n` slots in use. -/
abbrev Packed (slots : List (Slot V)) (n : ℕ) : Prop :=
  PackedTable.Packed Slot.key unused slots n

namespace Layer

/-- The invariant of a layer whenever the mutex is free. -/
structure WellFormed (l : Layer V) : Prop where
  live : l.heap l.slots = some l.buffer
  length_eq : l.buffer.length = l.nSlots
  packed : Packed l.buffer l.nextSlot

/-- The finite map that a layer stands for. -/
def map (l : Layer V) (param : ParamT) : Option V :=
  ((l.buffer.take l.nextSlot).find? fun s => s.param = param).map Slot.value

/-- What an operation that neither grows nor frees leaves alone. -/
structure Frame (l l' : Layer V) : Prop where
  nSlots_eq : l'.nSlots = l.nSlots
  nGrow_eq : l'.nGrow = l.nGrow
  slots_eq : l'.slots = l.slots
  heap_eq : ∀ a, a ≠ l.slots → l'.heap a = l.heap a

omit [Inhabited V] in
@[simp]
theorem setBuffer_buffer (l : Layer V) (b) : (l.setBuffer b).buffer = b := by
  simp [setBuffer, buffer]

variable {b : List (Slot V)} {n i j : ℕ} {x : Slot V}

omit [Inhabited V] in
theorem setBuffer_frame (l : Layer V) : l.Frame (l.setBuffer b) :=
  ⟨rfl, rfl, rfl, fun _ ha => update_of_ne ha _ _⟩

variable {l l' : Layer V} {param : ParamT}

/-! ## The map -/

section

variable (h : l.WellFormed)
include h

theorem WellFormed.take_eq : l.buffer.take l.nextSlot = PackedTable.used Slot.key unused l.buffer :=
  h.packed.take_eq key_le_unused

variable {v : V}

/-- A parameter has the value that is stored with it in some slot. -/
theorem WellFormed.map_eq_some_iff :
    l.map param = some v ↔ { param, value := v } ∈ l.buffer ∧ param ≠ paramUnused := by
  rw [map, h.take_eq]
  constructor
  · intro hmap
    obtain ⟨s, hfind, rfl⟩ := Option.map_eq_some_iff.mp hmap
    obtain ⟨hmem, hused⟩ := PackedTable.mem_used.mp (mem_of_find?_eq_some hfind)
    obtain rfl : s.param = param := by simpa using find?_some hfind
    exact ⟨hmem, fun hp => hused (key_eq_unused_iff.mpr hp)⟩
  · rintro ⟨hmem, hp⟩
    have hused : ({ param, value := v } : Slot V) ∈ PackedTable.used Slot.key unused l.buffer :=
      PackedTable.mem_used.mpr ⟨hmem, fun hk => hp (key_eq_unused_iff.mp hk)⟩
    cases hfind : (PackedTable.used Slot.key unused l.buffer).find?
        (fun s => s.param = param) with
    | none => exact absurd (find?_eq_none.mp hfind _ hused) (by simp)
    | some s =>
      have hs : s.param = param := by simpa using find?_some hfind
      have hmem' := (PackedTable.mem_used.mp (mem_of_find?_eq_some hfind)).1
      have heq : s = { param, value := v } :=
        h.packed.eq_of_key_eq hmem' hmem (by simp [Slot.key, hs])
          (fun hk => hp (hs ▸ key_eq_unused_iff.mp hk))
      simp [heq]

theorem WellFormed.map_eq_none_iff (hp : param ≠ paramUnused) :
    l.map param = none ↔ ∀ s ∈ l.buffer, s.param ≠ param := by
  rw [eq_none_iff_forall_not_mem]
  constructor
  · rintro hnone s hs rfl
    exact hnone s.value (h.map_eq_some_iff.mpr ⟨hs, hp⟩)
  · intro hne v hv
    exact hne _ (h.map_eq_some_iff.mp hv).1 rfl

/-- Maps are equal if their slots in use are. -/
theorem map_ext (h' : l'.WellFormed)
    (hmem : ∀ s : Slot V, s.param ≠ paramUnused → (s ∈ l'.buffer ↔ s ∈ l.buffer)) :
    l'.map = l.map := by
  funext param
  refine ext fun v => ?_
  rw [h.map_eq_some_iff, h'.map_eq_some_iff]
  constructor
  · rintro ⟨hs, hp⟩
    exact ⟨(hmem _ hp).mp hs, hp⟩
  · rintro ⟨hs, hp⟩
    exact ⟨(hmem _ hp).mpr hs, hp⟩

/-- The number of slots in use is the number of parameters that have a value. -/
theorem WellFormed.ncard_map : {param | (l.map param).isSome}.ncard = l.nextSlot := by
  let used := PackedTable.used Slot.key unused l.buffer
  have hset : {param | (l.map param).isSome} = ↑(used.map Slot.param).toFinset := by
    ext param
    simp only [Set.mem_ofPred_eq, isSome_iff_exists, h.map_eq_some_iff, Finset.mem_coe,
      List.mem_toFinset, List.mem_map, used, PackedTable.mem_used]
    constructor
    · rintro ⟨v, hs, hp⟩
      exact ⟨_, ⟨hs, fun hk => hp (key_eq_unused_iff.mp hk)⟩, rfl⟩
    · rintro ⟨s, ⟨hs, hk⟩, rfl⟩
      exact ⟨s.value, hs, fun hp => hk (key_eq_unused_iff.mpr hp)⟩
  have hnodup : (used.map Slot.param).Nodup := by
    have hkeys : ((used.map Slot.param).map UInt16.toNat).Nodup := by
      rw [List.map_map]
      exact h.packed.keys_nodup
    exact hkeys.of_map _
  rw [hset, Set.ncard_coe_finset, toFinset_card_of_nodup hnodup, length_map]
  exact h.packed.used_length

end

/-! ## The binary search -/

/-- The loop finds a parameter that lies in its range if it lies in the table at all. -/
theorem getIndexLoop_spec {slots : List (Slot V)} (param : ParamT)
    (hasc : ∀ i j, i < j → j < n → (slots.getD i .unused).key < (slots.getD j .unused).key)
    (fuel : ℕ) (left right : ℤ) (hleft : 0 ≤ left) (hright : right < n)
    (hfuel : right + 1 - left < fuel)
    (hin : ∀ i, i < n → (slots.getD i .unused).param = param → left ≤ i ∧ i ≤ right) :
    let index := getIndexLoop slots n param fuel left right
    (index < n ∧ (slots.getD index .unused).param = param) ∨
      (index = n ∧ ∀ i, i < n → (slots.getD i .unused).param ≠ param) := by
  induction fuel generalizing left right with
  | zero => exact .inr ⟨rfl, fun i hi hp => by have := hin i hi hp; omega⟩
  | succ fuel ih =>
    simp only [getIndexLoop]
    by_cases hle : left ≤ right
    · rw [if_pos hle]
      set mid := ((left + right) / 2).toNat with hmid
      have hmid_lt : mid < n := by omega
      by_cases heq : (slots.getD mid .unused).param = param
      · rw [if_pos heq]
        exact .inl ⟨hmid_lt, heq⟩
      rw [if_neg heq]
      -- the half that is dropped does not hold the parameter, the table being ascending
      by_cases hlt : (slots.getD mid .unused).param < param
      · rw [if_pos hlt]
        refine ih (mid + 1) right (by omega) hright (by omega) fun i hi hp => ?_
        have hrange := hin i hi hp
        by_contra hout
        rcases Nat.lt_or_eq_of_le (show i ≤ mid by omega) with him | rfl
        · have hkey := hasc i mid him hmid_lt
          rw [← hp] at hlt
          exact absurd (UInt16.lt_iff_toNat_lt.mp hlt) (Nat.lt_asymm hkey)
        · exact heq hp
      · rw [if_neg hlt]
        refine ih left (mid - 1) hleft (by omega) (by omega) fun i hi hp => ?_
        have hrange := hin i hi hp
        by_contra hout
        rcases Nat.lt_or_eq_of_le (show mid ≤ i by omega) with him | rfl
        · have hkey := hasc mid i him hi
          rw [← hp] at hlt
          exact hlt (UInt16.lt_iff_toNat_lt.mpr hkey)
        · exact heq hp
    · rw [if_neg hle]
      exact .inr ⟨rfl, fun i hi hp => by have := hin i hi hp; omega⟩

theorem WellFormed.nextSlot_le (h : l.WellFormed) : l.nextSlot ≤ l.nSlots :=
  h.length_eq ▸ h.packed.le_length

theorem WellFormed.getD_ascending (h : l.WellFormed) (hij : i < j) (hj : j < l.nextSlot) :
    (l.buffer.getD i .unused).key < (l.buffer.getD j .unused).key := by
  have hle := h.packed.le_length
  have hasc := h.packed.strictly_ascending
  rw [← h.take_eq, pairwise_iff_getElem] at hasc
  have := hasc i j (by simp; omega) (by simp; omega) hij
  simpa [getD_eq_getElem?_getD, show i < l.buffer.length by omega,
    show j < l.buffer.length by omega] using this

/-- `_getIndex` returns the slot of a stored parameter, and `_next_slot` for any other one. -/
theorem WellFormed.getIndex_spec (h : l.WellFormed) (hp : param ≠ paramUnused) :
    (∃ v, l.getIndex param < l.nextSlot ∧ l.map param = some v ∧
      l.buffer[l.getIndex param]? = some { param, value := v }) ∨
    (l.getIndex param = l.nextSlot ∧ l.map param = none) := by
  have hle := h.packed.le_length
  have hspec : (l.getIndex param < l.nextSlot ∧
        (l.buffer.getD (l.getIndex param) .unused).param = param) ∨
      (l.getIndex param = l.nextSlot ∧
        ∀ i, i < l.nextSlot → (l.buffer.getD i .unused).param ≠ param) :=
    getIndexLoop_spec param (fun i j => h.getD_ascending) (l.nextSlot + 1) 0 (l.nextSlot - 1)
      (by omega) (by omega) (by omega) (fun i hi _ => by omega)
  generalize l.getIndex param = index at hspec ⊢
  rcases hspec with ⟨hlt, hparam⟩ | ⟨heq, hne⟩
  · have hget : l.buffer[index]? = some (l.buffer.getD index .unused) := by
      rw [getD_eq_getElem?_getD, getElem?_eq_getElem (by omega), getD_some]
    generalize l.buffer.getD index .unused = slot at hparam hget
    subst hparam
    refine .inl ⟨slot.value, hlt, ?_⟩
    exact ⟨h.map_eq_some_iff.mpr ⟨mem_of_getElem? hget, hp⟩, hget⟩
  · refine .inr ⟨heq, (h.map_eq_none_iff hp).mpr fun s hs hsp => ?_⟩
    -- a slot with this parameter is in use, so it is among the first `_next_slot` ones
    have hused : s ∈ l.buffer.take l.nextSlot := by
      rw [h.take_eq, PackedTable.mem_used]
      exact ⟨hs, fun hk => hp (hsp ▸ key_eq_unused_iff.mp hk)⟩
    obtain ⟨i, hi, rfl⟩ := mem_iff_getElem.mp hused
    simp only [length_take, lt_inf_iff] at hi
    refine hne i hi.1 ?_
    simpa [getD_eq_getElem?_getD, hi.2] using hsp

/-! ## The operations -/

/-- The used slots change only for one parameter, which gets a value or none. -/
theorem WellFormed.map_update (h : l.WellFormed) (h' : l'.WellFormed) {value : Option V}
    (hp : param ≠ paramUnused)
    (hmem : ∀ s : Slot V, s.param ≠ paramUnused →
      (s ∈ l'.buffer ↔ (∃ v ∈ value, s = { param, value := v }) ∨
        (s ∈ l.buffer ∧ s.param ≠ param))) :
    l'.map = update l.map param value := by
  funext q
  refine ext fun w => ?_
  rw [h'.map_eq_some_iff]
  by_cases hq : q = param
  · subst hq
    rw [update_self]
    constructor
    · rintro ⟨hs, hu⟩
      obtain ⟨v, hv, heq⟩ := ((hmem _ hu).mp hs).resolve_right fun hs => hs.2 rfl
      cases heq
      exact hv
    · exact fun hw => ⟨(hmem _ hp).mpr (.inl ⟨w, hw, rfl⟩), hp⟩
  · rw [update_of_ne hq, h.map_eq_some_iff]
    constructor
    · rintro ⟨hs, hu⟩
      rcases (hmem _ hu).mp hs with ⟨v, -, heq⟩ | ⟨hs, -⟩
      · exact absurd (congrArg Slot.param heq) hq
      · exact ⟨hs, hu⟩
    · rintro ⟨hs, hu⟩
      exact ⟨(hmem _ hu).mpr (.inr ⟨hs, hq⟩), hu⟩

omit [Inhabited V] in
/-- Slot `i` and the others: writing slot `i` exchanges it and leaves the others. -/
theorem exists_rest {slots : List (Slot V)} {i} (hx : slots[i]? = some x) :
    ∃ rest, slots.Perm (x :: rest) ∧ ∀ a, (slots.set i a).Perm (a :: rest) := by
  obtain ⟨hi, rfl⟩ := List.getElem?_eq_some_iff.mp hx
  exact ⟨slots.eraseIdx i, (getElem_cons_eraseIdx_perm hi).symm,
    fun a => set_perm_cons_eraseIdx hi a⟩

section

variable (h : l.WellFormed)
include h

/-- Replacing the array by a packed one of the same length keeps a layer well-formed. -/
theorem WellFormed.of_buffer (l' : Layer V)
    (hl' : l' = { l.setBuffer b with nextSlot := n }) (hlen : b.length = l.buffer.length)
    (hpacked : Packed b n) : l'.WellFormed ∧ l.Frame l' ∧ l'.buffer = b := by
  subst hl'
  have hbuf : ({ l.setBuffer b with nextSlot := n } : Layer V).buffer = b := setBuffer_buffer l b
  refine ⟨⟨?_, ?_, ?_⟩, ⟨rfl, rfl, rfl, l.setBuffer_frame.heap_eq⟩, hbuf⟩
  · rw [hbuf]
    exact update_self ..
  · rw [hbuf, hlen]
    exact h.length_eq
  · rw [hbuf]
    exact hpacked

variable {rest new : List (Slot V)} {v : V} {parent : ParamT → V} {a : Addr}

/-- The keys that an entry in use shares a table with. -/
theorem WellFormed.rest_content (hperm : l.buffer.Perm (x :: rest)) (hx : x.param ≠ paramUnused) :
    PackedTable.Content Slot.key unused rest (l.nextSlot - 1) ∧
      (∀ s ∈ rest, s.param ≠ x.param) ∧ 0 < l.nextSlot := by
  have hused : x.key ≠ (unused : Slot V).key := fun hk => hx (key_eq_unused_iff.mp hk)
  have hpos : 0 < l.nextSlot := by
    rw [← h.packed.used_length]
    exact length_pos_of_mem (PackedTable.mem_used.mpr ⟨hperm.mem_iff.mpr (mem_cons_self ..), hused⟩)
  obtain ⟨n, hn⟩ : ∃ n, l.nextSlot = n + 1 := ⟨l.nextSlot - 1, by omega⟩
  have hcontent := h.packed.toContent.perm hperm.symm
  rw [hn, content_cons_used hused] at hcontent
  refine ⟨by rw [hn]; exact hcontent.1, fun s hs hsp => ?_, hpos⟩
  exact hcontent.2 s hs (by simp [Slot.key, hsp])

/-- Writing the parameter over a slot that is unused or its own, and sorting, sets it in the map. -/
theorem WellFormed.store_buffer (hp : param ≠ paramUnused)
    (hperm : l.buffer.Perm (x :: rest)) (hx : x.param = param ∨ x.param = paramUnused)
    (hrest : PackedTable.Content Slot.key unused rest n) (hne : ∀ s ∈ rest, s.param ≠ param)
    (hb : b.Perm ({ param, value := v } :: rest)) (hsorted : b.Pairwise (·.key ≤ ·.key))
    (hl' : l' = { l.setBuffer b with nextSlot := n + 1 }) :
    l'.WellFormed ∧ l.Frame l' ∧ l'.map = update l.map param (some v) := by
  have hnew : ({ param, value := v } : Slot V).key ≠ (unused : Slot V).key :=
    fun hk => hp (key_eq_unused_iff.mp hk)
  have hcontent : PackedTable.Content Slot.key unused b (n + 1) := by
    refine PackedTable.Content.perm ?_ hb
    refine (content_cons_used hnew).mpr ⟨hrest, fun s hs hk => ?_⟩
    exact hne s hs (key_eq_iff.mp hk)
  have hlen : b.length = l.buffer.length := by
    rw [hb.length_eq, hperm.length_eq, length_cons, length_cons]
  obtain ⟨hwf, hframe, hbuf⟩ := h.of_buffer l' hl' hlen ⟨hcontent, hsorted⟩
  refine ⟨hwf, hframe, h.map_update hwf hp fun s hs => ?_⟩
  rw [hbuf, hb.mem_iff, hperm.mem_iff, mem_cons, mem_cons]
  constructor
  · rintro (rfl | hmem)
    · exact .inl ⟨v, rfl, rfl⟩
    · exact .inr ⟨.inr hmem, hne s hmem⟩
  · rintro (⟨v, ⟨⟩, rfl⟩ | ⟨rfl | hmem, hsp⟩)
    · exact .inl rfl
    · -- the slot that was written over held nothing else
      exact absurd hx (not_or.mpr ⟨hsp, hs⟩)
    · exact .inr hmem

section

variable (qsort : Qsort V) (hp : param ≠ paramUnused)
include hp

variable {w : V}

theorem WellFormed.tryStore_stored (hlt : l.getIndex param < l.nextSlot)
    (hget : l.buffer[l.getIndex param]? = some { param, value := w }) :
    ∃ l', l.tryStore qsort param v = some l' ∧ l'.WellFormed ∧ l.Frame l' ∧
      l'.map = update l.map param (some v) := by
  obtain ⟨rest, hperm, hset⟩ := exists_rest hget
  obtain ⟨hrest, hne, hpos⟩ := h.rest_content hperm hp
  have hslot : ({ l.buffer.getD (l.getIndex param) .unused with value := v } : Slot V)
      = { param, value := v } := by
    rw [getD_eq_getElem?_getD, hget]
    rfl
  -- the keys stay, so that nothing has to be sorted
  have hkeys : (l.buffer.set (l.getIndex param) { param, value := v }).map Slot.key
      = l.buffer.map Slot.key := by
    apply ext_getElem?
    intro j
    rw [getElem?_map, getElem?_map, getElem?_set]
    split_ifs with hj hi
    · subst hj
      simp [hget, Slot.key]
    · rw [getElem?_eq_none (by omega)]
    · rfl
  have hsorted := pairwise_map.mp (hkeys ▸ pairwise_map.mpr h.packed.sorted)
  have hcount : l.nextSlot - 1 + 1 = l.nextSlot := by omega
  refine ⟨_, by rw [tryStore, if_pos hlt, hslot], ?_⟩
  apply h.store_buffer hp hperm (.inl rfl) hrest hne (hset _) hsorted
  rw [hcount]
  rfl

/-- A new parameter takes the first unused slot and is sorted in. -/
theorem WellFormed.tryStore_new (hindex : l.getIndex param = l.nextSlot)
    (hnone : l.map param = none) (hroom : l.nextSlot < l.nSlots) :
    ∃ l', l.tryStore qsort param v = some l' ∧ l'.WellFormed ∧ l.Frame l' ∧
      l'.map = update l.map param (some v) := by
  have hget : l.buffer[l.nextSlot]? = some .unused := by
    have hlt : 0 < l.buffer.length - l.nextSlot := by
      have := h.length_eq
      omega
    have hfirst : (l.buffer.drop l.nextSlot)[0]? = some .unused := by
      rw [h.packed.drop_eq key_le_unused, getElem?_replicate, if_pos hlt]
    rwa [getElem?_drop] at hfirst
  obtain ⟨rest, hperm, hset⟩ := exists_rest hget
  have hrest := content_cons_empty.mp (h.packed.toContent.perm hperm.symm)
  have hne : ∀ s ∈ rest, s.param ≠ param := fun s hs =>
    (h.map_eq_none_iff hp).mp hnone s (hperm.mem_iff.mpr (mem_cons_of_mem _ hs))
  have hsort := (qsort.perm (l.buffer.set l.nextSlot { param, value := v })).trans (hset _)
  refine ⟨_, by rw [tryStore, if_neg (by omega), if_pos hroom], ?_⟩
  apply h.store_buffer hp hperm (.inr rfl) hrest hne hsort (qsort.sorted _)
  simp [sort, setBuffer, buffer]

/-- `store` without growing: it sets the parameter, or the array is full. -/
theorem WellFormed.tryStore_spec (v) :
    (∃ l', l.tryStore qsort param v = some l' ∧ l'.WellFormed ∧ l.Frame l' ∧
      l'.map = update l.map param (some v)) ∨
    (l.tryStore qsort param v = none ∧ l.nSlots ≤ l.nextSlot) := by
  rcases h.getIndex_spec hp with ⟨w, hlt, -, hget⟩ | ⟨heq, hnone⟩
  · exact .inl (h.tryStore_stored qsort hp hlt hget)
  · by_cases hroom : l.nextSlot < l.nSlots
    · exact .inl (h.tryStore_new qsort hp heq hnone hroom)
    · exact .inr ⟨by rw [tryStore, if_neg (by omega), if_neg hroom], by omega⟩

theorem WellFormed.reset_spec :
    (l.reset qsort param).WellFormed ∧ l.Frame (l.reset qsort param) ∧
      (l.reset qsort param).map = update l.map param none := by
  rcases h.getIndex_spec hp with ⟨w, hlt, -, hget⟩ | ⟨heq, hnone⟩
  · obtain ⟨rest, hperm, hset⟩ := exists_rest hget
    obtain ⟨hrest, hne, hpos⟩ := h.rest_content hperm hp
    have hsort := (qsort.perm (l.buffer.set (l.getIndex param) .unused)).trans (hset _)
    have hpacked : Packed (qsort.sort (l.buffer.set (l.getIndex param) .unused)) (l.nextSlot - 1) :=
      ⟨(content_cons_empty.mpr hrest).perm hsort, qsort.sorted _⟩
    have hlen : (qsort.sort (l.buffer.set (l.getIndex param) .unused)).length
        = l.buffer.length := by
      simpa using (qsort.perm (l.buffer.set (l.getIndex param) .unused)).length_eq
    obtain ⟨hwf, hframe, hbuf⟩ := h.of_buffer (l.reset qsort param)
      (by simp [reset, if_pos hlt, sort, setBuffer, buffer]) hlen hpacked
    refine ⟨hwf, hframe, h.map_update hwf hp fun s hs => ?_⟩
    rw [hbuf, hsort.mem_iff, hperm.mem_iff, mem_cons, mem_cons]
    constructor
    · rintro (rfl | hmem)
      · exact absurd rfl hs
      · exact .inr ⟨.inr hmem, hne s hmem⟩
    · rintro (⟨v, ⟨⟩, -⟩ | ⟨rfl | hmem, hsp⟩)
      · exact absurd rfl hsp
      · exact .inr hmem
  · have hreset : l.reset qsort param = l := by rw [reset, if_neg (by omega)]
    rw [hreset]
    refine ⟨h, ⟨rfl, rfl, rfl, fun _ _ => rfl⟩, ?_⟩
    rw [← hnone, update_eq_self]

end

theorem WellFormed.contains_eq
    (hp : param ≠ paramUnused) : l.contains param = (l.map param).isSome := by
  rcases h.getIndex_spec hp with ⟨v, hlt, hmap, -⟩ | ⟨heq, hmap⟩
  · simp [contains, hlt, hmap]
  · simp [contains, heq, hmap]

/-- `get` asks the map, and the parent for a parameter that is not in it. -/
theorem WellFormed.get_eq (hp : param ≠ paramUnused) :
    l.get parent param = (l.map param).getD (parent param) := by
  rcases h.getIndex_spec hp with ⟨v, hlt, hmap, hget⟩ | ⟨heq, hmap⟩
  · simp [get, hlt, hmap, hget]
  · simp [get, heq, hmap]

/-- A new array of `_n_slots + _n_grow` slots takes over the old entries exactly. -/
theorem WellFormed.publish_buffer (hnew : l.heap a = some new)
    (hlen : new.length = l.nSlots + l.nGrow) :
    (l.publish a).buffer = l.buffer ++ replicate l.nGrow .unused := by
  have hbuf : (l.publish a).buffer = (l.buffer.take l.nSlots ++ new.drop l.nSlots).take l.nSlots
        ++ replicate l.nGrow .unused
        ++ (l.buffer.take l.nSlots ++ new.drop l.nSlots).drop (l.nSlots + l.nGrow) := by
    simp only [publish, buffer, update_self, getD_some, hnew]
  have hdrop : (l.buffer ++ new.drop l.nSlots).drop (l.nSlots + l.nGrow) = [] := by
    rw [drop_eq_nil_iff, length_append, length_drop, h.length_eq]
    omega
  rw [hbuf, take_of_length_le h.length_eq.le, hdrop, append_nil, ← h.length_eq, take_left]

theorem WellFormed.publish_spec (hnew : l.heap a = some new)
    (hlen : new.length = l.nSlots + l.nGrow) :
    (l.publish a).WellFormed ∧ (l.publish a).map = l.map := by
  have hbuf := h.publish_buffer hnew hlen
  have hwf : (l.publish a).WellFormed := by
    refine ⟨?_, ?_, ?_⟩
    · rw [buffer, publish]
      simp only [update_self, getD_some]
    · rw [hbuf, length_append, length_replicate, h.length_eq]
      rfl
    · rw [hbuf]
      refine ⟨h.packed.append_unused, pairwise_append.mpr ⟨h.packed.sorted, ?_, ?_⟩⟩
      · exact pairwise_replicate.mpr (.inr le_rfl)
      · intro s _ t ht
        rw [(mem_replicate.mp ht).2]
        exact s.key_le_unused
  refine ⟨hwf, map_ext h hwf fun s hs => ?_⟩
  rw [hbuf, mem_append, or_iff_left]
  rintro hunused
  rw [(mem_replicate.mp hunused).2] at hs
  exact hs rfl

/-- The invariant and the map depend on the array behind `_slots` only. -/
theorem WellFormed.congr_heap (l' : Layer V)
    (hnext : l'.nextSlot = l.nextSlot) (hn : l'.nSlots = l.nSlots) (hslots : l'.slots = l.slots)
    (hheap : l'.heap l.slots = l.heap l.slots) : l'.WellFormed ∧ l'.map = l.map := by
  have hbuf : l'.buffer = l.buffer := by rw [buffer, hslots, hheap, buffer]
  refine ⟨⟨?_, ?_, ?_⟩, ?_⟩
  · rw [hslots, hheap, hbuf, h.live]
  · rw [hbuf, hn, h.length_eq]
  · rw [hbuf, hnext]
    exact h.packed
  · funext param
    rw [map, map, hbuf, hnext]

end

theorem construct_spec {nPrealloc nGrow addr} :
    (construct nPrealloc nGrow addr : Layer V).WellFormed ∧
      (construct nPrealloc nGrow addr : Layer V).map = fun _ => none := by
  have hbuf : (construct nPrealloc nGrow addr : Layer V).buffer = replicate nPrealloc .unused := by
    simp [construct, buffer]
  refine ⟨⟨?_, ?_, ?_⟩, ?_⟩
  · rw [hbuf]
    simp [construct]
  · rw [hbuf, length_replicate]
    rfl
  · rw [hbuf]
    change Packed _ 0
    have hnil : PackedTable.Content Slot.key unused ([] : List (Slot V)) 0 :=
      ⟨rfl, nodup_nil, by simp⟩
    exact ⟨by simpa using hnil.append_unused, pairwise_replicate.mpr (.inr le_rfl)⟩
  · funext param
    simp [map, construct]

end Layer

end Px4.Parameters
