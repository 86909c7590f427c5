import Mathlib.Tactic.IntervalCases
import Px4.Dataman.Backends

/-!
# The slots of the dataman

The layout that `task_main` computes gives every index of every item a slot of its own. A memory
represents a `Store` if the entry of every index lies in its slot. A file may end before a slot,
whose entry is then empty.
-/

namespace Px4.Dataman

variable (store : Store)

open ByteFile ByteMemory Function List Nat

/-! ## Slots -/

variable {item : DmItem} {index index' : ℕ}

theorem DmItem.ofNumber_eq_some {number} :
    DmItem.ofNumber number = some item ↔ number = item.number := by
  constructor
  · intro h
    obtain ⟨hlt, rfl⟩ := List.getElem?_eq_some_iff.mp h
    change number < 10 at hlt
    interval_cases number <;> rfl
  · rintro rfl
    cases item <;> rfl

@[simp]
theorem DmItem.ofNumber_number (item) : DmItem.ofNumber item.number = some item :=
  DmItem.ofNumber_eq_some.mpr rfl

theorem DmItem.number_injective : Function.Injective DmItem.number := by
  intro item item' h
  have := DmItem.ofNumber_number item
  rwa [h, DmItem.ofNumber_number, Option.some.injEq, eq_comm] at this

-- the number of mission items
variable {N : ℕ}

def slot (numMissionItems : ℕ) (item : DmItem) (index : ℕ) : ℕ :=
  keyOffsets numMissionItems item.number + index * perItemSizeWithHdr item

theorem maxIndexAt_number : maxIndexAt N item.number = perItemMaxIndex N item := by
  simp [maxIndexAt]

theorem sizeWithHdrAt_number : sizeWithHdrAt item.number = perItemSizeWithHdr item := by
  simp [sizeWithHdrAt]

theorem slot_eq (N item index) :
    slot N item index = Segments.slot (maxIndexAt N) sizeWithHdrAt item.number index := by
  rw [Segments.slot, sizeWithHdrAt_number]
  rfl

theorem slot_succ : slot N item (index + 1) = slot N item index + perItemSizeWithHdr item := by
  rw [slot_eq, slot_eq, Segments.slot_succ, sizeWithHdrAt_number]

theorem slot_mono (h : index ≤ index') : slot N item index ≤ slot N item index' :=
  Nat.add_le_add_left (Nat.mul_le_mul_right _ h) _

variable {item' : DmItem} {number n : ℕ} {data : Bytes} {m : ByteMemory}

theorem slots_disjoint (h : index < perItemMaxIndex N item)
    (h' : index' < perItemMaxIndex N item') (hne : item ≠ item' ∨ index ≠ index') :
    slot N item index + perItemSizeWithHdr item ≤ slot N item' index' ∨
      slot N item' index' + perItemSizeWithHdr item' ≤ slot N item index := by
  simp only [slot_eq, ← sizeWithHdrAt_number]
  apply Segments.slots_disjoint
  · rwa [maxIndexAt_number]
  · rwa [maxIndexAt_number]
  · exact hne.imp_left DmItem.number_injective.ne

theorem slot_end_le_maxOffset (h : index < perItemMaxIndex N item) :
    slot N item index + perItemSizeWithHdr item ≤ maxOffset N := by
  have hmax : maxOffset N = Segments.start (maxIndexAt N) sizeWithHdrAt 10 := rfl
  rw [slot_eq, hmax, ← sizeWithHdrAt_number]
  apply Segments.slot_end_le_start
  · rwa [maxIndexAt_number]
  · cases item <;> decide

theorem checkAccess_of_none (h : DmItem.ofNumber number = none) {index count} :
    checkAccess N number index count = .error (-1) := by
  simp [checkAccess, h]

theorem calculateOffset_number : calculateOffset N item.number index =
      if index ≥ perItemMaxIndex N item then -1
      else (slot N item index : ℤ) := by
  simp [calculateOffset, slot]

theorem checkAccess_number {item index count} :
    checkAccess N item.number index count =
      if index ≥ perItemMaxIndex N item then .error (-1)
      else if count > perItemSize item then .error (-Store.E2BIG)
      else .ok (slot N item index) := by
  simp only [checkAccess, DmItem.ofNumber_number, calculateOffset_number]
  by_cases hindex : index ≥ perItemMaxIndex N item
  · simp [hindex]
  · simp [hindex, perItemSizeWithHdr]

/-! ## Representation -/

def Store.set (item : DmItem) (index : ℕ) (data : Bytes) : Store :=
  update store item (update (store item) index data)

open Store

theorem Store.set_apply : store.set item index data item' index' =
      if item' = item ∧ index' = index then data else store item' index' := by
  unfold Store.set
  by_cases hitem : item' = item
  · subst hitem
    rw [update_self, update_apply]
    simp
  · simp [hitem]

theorem Store.set_eq_self {store : Store}
    (h : store item index = data) : store.set item index data = store := by
  rw [Store.set, ← h, update_eq_self, update_eq_self]

/-- Remove the entries of an item from an index on. -/
def Store.clearFrom (item : DmItem) (index : ℕ) : Store := fun item' index' =>
  if item' = item ∧ index ≤ index' then [] else store item' index'

/-- The entries of an item are removed one by one. -/
theorem Store.clearFrom_set :
    (store.set item index []).clearFrom item (index + 1) = store.clearFrom item index := by
  funext item' index'
  simp only [clearFrom, set_apply]
  by_cases hitem : item' = item
  · simp only [hitem, true_and]
    split_ifs <;> first | rfl | omega
  · simp [hitem]

theorem Store.clearFrom_zero : store.clearFrom item 0 = update store item fun _ => [] := by
  funext item' index'
  by_cases hitem : item' = item
  · subst hitem
    simp [clearFrom]
  · simp [clearFrom, hitem]

theorem Store.clearFrom_eq {store : Store}
    (h : item' = item → index ≤ index' → store item' index' = []) :
    store.clearFrom item index item' index' = store item' index' := by
  unfold clearFrom
  split_ifs with hcleared
  · exact (h hcleared.1 hcleared.2).symm
  · rfl

/-- Every entry is in its slot: the length in the first byte, the data behind the header. -/
structure Represents (numMissionItems : ℕ) (m : ByteMemory) (store : Store) : Prop where
  length_le : ∀ {item index}, index < perItemMaxIndex numMissionItems item →
    (store item index).length ≤ perItemSize item
  length_eq : ∀ {item index}, index < perItemMaxIndex numMissionItems item →
    (m (slot numMissionItems item index)).toNat = (store item index).length
  data_eq : ∀ {item index}, index < perItemMaxIndex numMissionItems item →
    m.load (slot numMissionItems item index + sectorHdrSize) (store item index).length =
      store item index

section Represents

variable {m m' : ByteMemory} {store store' : Store} {item : DmItem} {index : ℕ}

theorem represents_zero : Represents N (fun _ => 0) fun _ _ => [] where
  length_le _ := zero_le _
  length_eq _ := rfl
  data_eq _ := rfl

variable (h : Represents N m store)
include h

theorem Represents.congr
    (hstore : ∀ item index, index < perItemMaxIndex N item →
      store' item index = store item index) : Represents N m store' where
  length_le hindex := by rw [hstore _ _ hindex]; exact h.length_le hindex
  length_eq hindex := by rw [hstore _ _ hindex]; exact h.length_eq hindex
  data_eq hindex := by rw [hstore _ _ hindex]; exact h.data_eq hindex

variable (hindex : index < perItemMaxIndex N item)
include hindex

theorem Represents.set {data : List UInt8} (hle : data.length ≤ perItemSize item)
    (hsame : ∀ a, a < slot N item index ∨
      slot N item index + perItemSizeWithHdr item ≤ a → m' a = m a)
    (hlength : (m' (slot N item index)).toNat = data.length)
    (hdata : m'.load (slot N item index + sectorHdrSize) data.length = data) :
    Represents N m' (store.set item index data) := by
  -- the bytes of another slot
  have hother : ∀ {item' index'}, index' < perItemMaxIndex N item' →
      ¬(item' = item ∧ index' = index) → ∀ i < perItemSizeWithHdr item',
      m' (slot N item' index' + i) = m (slot N item' index' + i) := by
    intro item' index' hindex' hne i hi
    apply hsame
    rcases slots_disjoint hindex hindex' (by tauto) with hle | hle <;> omega
  constructor
  · intro item' index' hindex'
    rw [set_apply]
    split_ifs with heq
    · rwa [heq.1]
    · exact h.length_le hindex'
  · intro item' index' hindex'
    rw [set_apply]
    split_ifs with heq
    · rwa [heq.1, heq.2]
    · rw [← h.length_eq hindex']
      exact congrArg _ (hother hindex' heq 0 (succ_pos _))
  · intro item' index' hindex'
    rw [set_apply]
    split_ifs with heq
    · rwa [heq.1, heq.2]
    · refine Eq.trans (map_congr_left fun i hi => ?_) (h.data_eq hindex')
      have hlt := (mem_range.mp hi).trans_le (h.length_le hindex')
      rw [add_assoc]
      exact hother hindex' heq _ (by unfold perItemSizeWithHdr; omega)

theorem Represents.write (hle : data.length ≤ perItemSize item) :
    Represents N (m.store (slot N item index) (entryBytes data)) (store.set item index data) := by
  have hbytes : (entryBytes data).length = sectorHdrSize + data.length := by
    simp only [entryBytes, sectorHdrSize, length_cons]
    omega
  refine h.set hindex hle (fun a ha => ?_) ?_ ?_
  · apply store_outside
    unfold perItemSizeWithHdr at ha
    omega
  · rw [entryBytes, store_cons_self]
    have hsize : data.length ≤ 56 := hle.trans (perItemSize_le_dataSize item)
    have hlt : data.length < 256 := by omega
    exact UInt8.toNat_ofNat_of_lt hlt
  · rw [load_eq_iff]
    intro i hi
    rw [add_assoc, store_add (by omega)]
    simp only [sectorHdrSize, add_comm 4 i]
    rfl

theorem Represents.clear :
    Represents N (m.store (slot N item index) [0]) (store.set item index []) := by
  refine h.set hindex (zero_le _) (fun a ha => ?_) ?_ rfl
  · apply store_outside
    unfold perItemSizeWithHdr sectorHdrSize at ha
    simp only [length_singleton]
    omega
  · rw [store_cons_self]
    rfl

end Represents

/-! ## Memory -/

/-- The memory holds the store, and ends where the last slot ends. -/
structure Ram.Represents (numMissionItems : ℕ) (ram : Ram) (store : Store) : Prop where
  data : Dataman.Represents numMissionItems ram.data store
  dataEnd : ram.dataEnd = maxOffset numMissionItems - 1

theorem slot_le_dataEnd (h : index < perItemMaxIndex N item) :
    slot N item index ≤ maxOffset N - 1 := by
  have := slot_end_le_maxOffset h
  unfold perItemSizeWithHdr sectorHdrSize at this
  omega

theorem Ram.clearLoop_represents {store : Store}
    (h : Dataman.Represents N m store) (hindex : index + n = perItemMaxIndex N item) :
    ∃ m', Ram.clearLoop (maxOffset N - 1) (perItemSizeWithHdr item) n
        (slot N item index) m = (m', 0) ∧
      Dataman.Represents N m' (store.clearFrom item index) := by
  induction n generalizing index m store with
  | zero =>
    refine ⟨m, rfl, h.congr fun item' index' hlt => clearFrom_eq ?_⟩
    rintro rfl hle
    omega
  | succ n ih =>
    have hlt : index < perItemMaxIndex N item := by omega
    have hnext : index + 1 + n = perItemMaxIndex N item := by omega
    obtain ⟨m', hloop, hm'⟩ := ih (h.clear hlt) hnext
    rw [clearFrom_set] at hm'
    refine ⟨m', ?_, hm'⟩
    rw [Ram.clearLoop, if_neg (not_lt.mpr (slot_le_dataEnd hlt)), ← slot_succ]
    exact hloop

/-! ## File -/

/-- The file holds the store, and no entry is cut off. -/
structure File.Represents (numMissionItems : ℕ) (f : ByteFile) (store : Store) : Prop where
  data : Dataman.Represents numMissionItems f.image store
  entry_end : ∀ {item index}, index < perItemMaxIndex numMissionItems item →
    slot numMissionItems item index < f.bytes.length →
    slot numMissionItems item index + sectorHdrSize + (store item index).length ≤ f.bytes.length

section File

variable {f : ByteFile} {store : Store} {item : DmItem} {index : ℕ}

variable (h : File.Represents N f store)
include h

section

variable (hindex : index < perItemMaxIndex N item)
include hindex

theorem File.Represents.eq_nil
    (hend : f.bytes.length ≤ slot N item index) : store item index = [] := by
  have hlength := h.data.length_eq hindex
  rw [image, getD_eq_default _ _ hend] at hlength
  exact length_eq_zero_iff.mp hlength.symm

variable {f' : ByteFile}

/-- A file that has grown by no more than one entry. -/
theorem File.Represents.set {data : Bytes}
    (hdata : Dataman.Represents N f'.image (store.set item index data))
    (hle : f.bytes.length ≤ f'.bytes.length)
    (hend : slot N item index + sectorHdrSize + data.length ≤ f'.bytes.length)
    (hgrown : f'.bytes.length ≤ max f.bytes.length (slot N item index + perItemSizeWithHdr item)) :
    File.Represents N f' (store.set item index data) := by
  refine ⟨hdata, ?_⟩
  intro item' index' hindex' hlt
  rw [set_apply]
  split_ifs with heq
  · rwa [heq.1, heq.2]
  · rcases lt_or_ge (slot N item' index') f.bytes.length with hold | hnew
    · exact (h.entry_end hindex' hold).trans hle
    · -- a slot in the gap before the entry
      rw [h.eq_nil hindex' hnew, length_nil]
      have := slots_disjoint hindex hindex' (by tauto)
      omega

theorem File.Represents.write {data} (hle : data.length ≤ perItemSize item) :
    File.Represents N ((f.seek (slot N item index)).write (entryBytes data))
      (store.set item index data) := by
  have hlength : ((f.seek (slot N item index)).write (entryBytes data)).bytes.length =
      max f.bytes.length (slot N item index + (data.length + sectorHdrSize)) :=
    length_write ..
  have himage := h.data.write hindex hle
  refine h.set hindex (by rwa [image_write]) ?_ ?_ ?_
  · omega
  · omega
  · rw [perItemSizeWithHdr]
    omega

theorem File.Represents.clear (hlt : slot N item index < f.bytes.length) :
    File.Represents N ((f.seek (slot N item index)).write [0]) (store.set item index []) := by
  have hlength : ((f.seek (slot N item index)).write [0]).bytes.length =
      max f.bytes.length (slot N item index + 1) :=
    length_write ..
  have himage := h.data.clear hindex
  have hend := h.entry_end hindex hlt
  refine h.set hindex (by rwa [image_write]) ?_ ?_ ?_
  · omega
  · rw [length_nil]
    omega
  · omega

end

variable {store' : Store} {f' : ByteFile}

theorem File.Represents.congr
    (hstore : ∀ item index, index < perItemMaxIndex N item →
      store' item index = store item index) : File.Represents N f store' where
  data := h.data.congr hstore
  entry_end hindex := by rw [hstore _ _ hindex]; exact h.entry_end hindex

theorem File.Represents.of_bytes (hbytes : f'.bytes = f.bytes) : File.Represents N f' store := by
  obtain ⟨bytes, position⟩ := f
  obtain rfl : f'.bytes = bytes := hbytes
  exact ⟨h.data, h.entry_end⟩

/-- The loop of `_file_clear` may stop at the end of the file. -/
theorem File.clearLoop_represents (hindex : index + n = perItemMaxIndex N item) :
    File.Represents N (File.clearLoop (perItemSizeWithHdr item) n (slot N item index) f)
      (store.clearFrom item index) := by
  induction n generalizing index f store with
  | zero =>
    refine h.congr fun item' index' hlt => clearFrom_eq ?_
    rintro rfl hle
    omega
  | succ n ih =>
    have hlt : index < perItemMaxIndex N item := by omega
    have hnext : index + 1 + n = perItemMaxIndex N item := by omega
    rcases lt_or_ge (slot N item index) f.bytes.length with hin | hout
    · have hread : (f.seek (slot N item index)).read 1 = [f.bytes[slot N item index]] := by
        simp [ByteFile.read, seek, take_one]
      rw [File.clearLoop, hread, ← slot_succ, ← clearFrom_set]
      dsimp only
      split_ifs with hlength
      · exact ih (h.clear hlt hin) hnext
      · have hnil : store item index = [] := by
          have hzero := h.data.length_eq hlt
          rw [image, getD_eq_getElem _ _ hin, not_not.mp hlength] at hzero
          exact length_eq_zero_iff.mp hzero.symm
        rw [set_eq_self hnil]
        exact ih (h.of_bytes rfl) hnext
    · have hread : (f.seek (slot N item index)).read 1 = [] := by
        simp [ByteFile.read, seek, hout]
      rw [File.clearLoop, hread]
      -- all the slots from here on are behind the end
      have hsame : File.Represents N (f.seek (slot N item index)) store :=
        h.of_bytes rfl
      refine hsame.congr fun item' index' hlt' => clearFrom_eq ?_
      rintro rfl hle
      exact h.eq_nil hlt' (hout.trans (slot_mono hle))

end File

end Px4.Dataman
