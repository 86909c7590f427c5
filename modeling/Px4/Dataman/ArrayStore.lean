import Px4.Common.Run
import Px4.Dataman.Slots

/-!
# The dataman is an array store

Every operation of both backends keeps the representation of an array of byte strings and returns
what the operation on that array returns.
-/

namespace Px4.Dataman

variable (numMissionItems : ℕ)

open DmItem List

-- the number of mission items
variable {N : ℕ}

/-! ## Operations -/

/-- The operations on the store. -/
def Store.step (store : Store) : Op → Store × Result
  | .write number index buf =>
    match ofNumber number with
    | none => (store, { code := -1 })
    | some item =>
      let r := store.write numMissionItems item index buf buf.length true
      (r.1, { code := r.2 })
  | .clear number =>
    match ofNumber number with
    | none => (store, { code := -1 })
    | some item =>
      -- an item without entries cannot be cleared
      if perItemMaxIndex numMissionItems item = 0 then (store, { code := -1 })
      else
        let r := store.clear item true
        (r.1, { code := r.2 })
  | .read number index _ count =>
    match ofNumber number with
    | none => (store, { code := -1 })
    | some item =>
      let r := store.read numMissionItems item index count true
      (store, { code := r.2, data := r.1 })

open Store

variable {op : Op} {β : Type*} {R : β → Store → Prop} {f : ByteFile} {store : Store} {ops : List Op}

theorem Store.step_of_none {store : Store} (hop : ofNumber op.number = none) :
    store.step N op = (store, { code := -1 }) := by
  cases op <;> simp_all [Store.step, Op.number]

theorem Store.step_read {store : Store} {number index buf count} :
    (store.step N (.read number index buf count)).1 = store := by
  simp only [Store.step]
  split <;> rfl

/-- The backend returns what the store returns, and goes on representing it. -/
def Refines (step : β → Op → β × Result) (R : β → Store → Prop) (N : ℕ) (op : Op) : Prop :=
  ∀ ⦃b store⦄, R b store →
    (step b op).2 = (store.step N op).2 ∧ R (step b op).1 (store.step N op).1

/-- A backend that refuses the other operations need only refine those on an item. -/
theorem refines_of_item {step : β → Op → β × Result}
    (hnone : ∀ b op, ofNumber op.number = none → step b op = (b, { code := -1 }))
    (hwrite : ∀ item index buf, Refines step R N (.write (number item) index buf))
    (hclear : ∀ item, Refines step R N (.clear (number item)))
    (hread : ∀ item index buf count, Refines step R N (.read (number item) index buf count)) (op) :
    Refines step R N op := by
  intro b store h
  rcases hop : ofNumber op.number with _ | item
  · rw [hnone b op hop, Store.step_of_none hop]
    exact ⟨rfl, h⟩
  rw [ofNumber_eq_some] at hop
  cases op with
  | write number index buf =>
    obtain rfl : number = item.number := hop
    exact hwrite item index buf h
  | clear number =>
    obtain rfl : number = item.number := hop
    exact hclear item h
  | read number index buf count =>
    obtain rfl : number = item.number := hop
    exact hread item index buf count h

variable (item : DmItem)

/-! ## The memory -/

theorem Ram.refines_read (index : ℕ) (buf count) :
    Refines (Ram.step N) (Ram.Represents N) N (.read item.number index buf count) := by
  intro ram store h
  refine ⟨?_, by rwa [step_read]⟩
  simp only [Ram.step, Ram.read, Store.step, Store.read, checkAccess_number, ofNumber_number,
    h.dataEnd]
  by_cases hindex : index ≥ perItemMaxIndex N item
  · simp [hindex]
  by_cases hcount : count > perItemSize item
  · simp [hindex, hcount, Store.E2BIG]
  have hlt := Nat.lt_of_not_le hindex
  have hend := Nat.not_lt.mpr (slot_le_dataEnd hlt)
  simp only [hindex, hcount, if_false, hend, h.data.length_eq hlt, h.data.data_eq hlt]
  by_cases hempty : (store item index).length > 0
  · by_cases hlong : (store item index).length > count
    · simp [hempty, hlong]
    · simp [hempty, hlong, take_memcpy]
  · have hnil := length_eq_zero_iff.mp (Nat.eq_zero_of_not_pos hempty)
    simp [hnil]

theorem Ram.refines_write (index buf) :
    Refines (Ram.step N) (Ram.Represents N) N (.write item.number index buf) := by
  intro ram store h
  simp only [Ram.step, Ram.write, Store.step, Store.write, checkAccess_number, ofNumber_number,
    h.dataEnd]
  by_cases hindex : index ≥ perItemMaxIndex N item
  · simpa [hindex] using h
  by_cases hcount : buf.length > perItemSize item
  · simpa [hindex, hcount] using h
  have hlt := Nat.lt_of_not_le hindex
  have hend := Nat.not_lt.mpr (slot_le_dataEnd hlt)
  simp only [hindex, hcount, if_false, if_true, hend, take_length, true_and]
  exact ⟨h.data.write hlt (Nat.le_of_not_lt hcount), rfl⟩

theorem Ram.refines_clear : Refines (Ram.step N) (Ram.Represents N) N (.clear item.number) := by
  intro ram store h
  simp only [Ram.step, Ram.clear, Store.step, Store.clear, calculateOffset_number,
    ofNumber_number, h.dataEnd, ← clearFrom_zero, ge_iff_le, Nat.le_zero, if_true]
  by_cases hentries : perItemMaxIndex N item = 0
  · simpa [hentries] using h
  obtain ⟨m, hloop, hm⟩ := Ram.clearLoop_represents h.data (Nat.zero_add (perItemMaxIndex N item))
  have hoffset : ¬(slot N item 0 : ℤ) < 0 := by omega
  simp only [hentries, if_false, hoffset, Int.toNat_natCast, hloop, true_and]
  exact ⟨hm, rfl⟩

theorem Ram.step_of_none (ram : Ram) (op) (hop : ofNumber op.number = none) :
    ram.step N op = (ram, { code := -1 }) := by
  cases op <;> simp_all [Ram.step, Ram.write, Ram.clear, Ram.read, checkAccess_of_none, Op.number]

theorem Ram.refines : ∀ op, Refines (Ram.step N) (Ram.Represents N) N op :=
  refines_of_item step_of_none refines_write refines_clear refines_read

/-! ## The file -/

theorem File.Represents.take_drop_read {item index count} (h : File.Represents N f store)
    (hindex : index < perItemMaxIndex N item) (hpos : 0 < (store item index).length)
    (hcount : (store item index).length ≤ count) :
    (((f.seek (slot N item index)).read (count + sectorHdrSize)).drop
      sectorHdrSize).take (store item index).length = store item index := by
  have hin : slot N item index < f.bytes.length := by
    by_contra hout
    rw [h.eq_nil hindex (Nat.le_of_not_lt hout)] at hpos
    exact Nat.lt_irrefl _ hpos
  have hload := h.data.data_eq hindex
  rw [ByteFile.load_image (h.entry_end hindex hin)] at hload
  rw [ByteFile.read, drop_take, take_take, drop_drop, Nat.add_sub_cancel, Nat.min_eq_left hcount]
  exact hload

theorem File.read_bytes {number index buf count} :
    (File.read N f number index buf count).1.bytes = f.bytes := by
  unfold File.read
  split <;> rfl

theorem File.refines_read (index : ℕ) (buf count) :
    Refines (File.step N) (File.Represents N) N (.read item.number index buf count) := by
  intro f store h
  refine ⟨?_, by rw [step_read]; exact h.of_bytes (read_bytes ..)⟩
  simp only [File.step, File.read, Store.step, Store.read, checkAccess_number, ofNumber_number]
  by_cases hindex : index ≥ perItemMaxIndex N item
  · simp [hindex]
  by_cases hcount : count > perItemSize item
  · simp [hindex, hcount, Store.E2BIG]
  have hlt := Nat.lt_of_not_le hindex
  have hlength := h.data.length_eq hlt
  have hpos : 0 < count + sectorHdrSize := Nat.succ_pos _
  rw [← ByteFile.headD_read _ hpos] at hlength
  simp only [hindex, hcount, if_false, hlength]
  by_cases hempty : (store item index).length > 0
  · by_cases hlong : (store item index).length > count
    · simp [hempty, hlong]
    · simp only [hempty, hlong, if_true, if_false, Int.toNat_natCast]
      have hread := h.take_drop_read hlt hempty (Nat.le_of_not_lt hlong)
      rw [take_memcpy (congrArg length hread), hread]
  · have hnil := length_eq_zero_iff.mp (Nat.eq_zero_of_not_pos hempty)
    simp [hnil]

theorem File.refines_write (index buf) :
    Refines (File.step N) (File.Represents N) N (.write item.number index buf) := by
  intro f store h
  simp only [File.step, File.write, Store.step, Store.write, checkAccess_number, ofNumber_number]
  by_cases hindex : index ≥ perItemMaxIndex N item
  · simpa [hindex] using h
  by_cases hcount : buf.length > perItemSize item
  · simpa [hindex, hcount] using h
  simp only [hindex, hcount, if_false, if_true, take_length, true_and]
  exact h.write (Nat.lt_of_not_le hindex) (Nat.le_of_not_lt hcount)

theorem File.refines_clear : Refines (File.step N) (File.Represents N) N (.clear item.number) := by
  intro f store h
  simp only [File.step, File.clear, Store.step, Store.clear, calculateOffset_number,
    ofNumber_number, ← clearFrom_zero, ge_iff_le, Nat.le_zero, if_true]
  by_cases hentries : perItemMaxIndex N item = 0
  · simpa [hentries] using h
  · have hoffset : ¬(slot N item 0 : ℤ) < 0 := by omega
    simp only [hentries, if_false, hoffset, Int.toNat_natCast, true_and]
    exact File.clearLoop_represents h (Nat.zero_add _)

theorem File.step_of_none (f op) (hop : ofNumber op.number = none) :
    File.step N f op = (f, { code := -1 }) := by
  cases op <;>
    simp_all [File.step, File.write, File.clear, File.read, checkAccess_of_none, Op.number]

theorem File.refines : ∀ op, Refines (File.step N) (File.Represents N) N op :=
  refines_of_item step_of_none refines_write refines_clear refines_read

variable {store : Store} {item} {index number : ℕ} {op : Op}

/-! ## Runs -/

/-- The memory after operations on zeroed memory. -/
def Ram.after (ops : List Op) : Ram :=
  Run.after (fun ram op => (ram.step numMissionItems op).1) (ramInitialize numMissionItems) ops

/-- The file after operations on an empty file. -/
def File.after (ops : List Op) : ByteFile :=
  Run.after (fun f op => (File.step numMissionItems f op).1) {} ops

def Store.after (ops : List Op) : Store :=
  Run.after (fun store op => (store.step numMissionItems op).1) (fun _ _ => []) ops

/-- What an operation makes of an entry, if it sets it. -/
def Op.sets (item : DmItem) (index : ℕ) : Op → Option Bytes
  | .write number index' buf =>
    if number = item.number ∧ index' = index ∧ buf.length ≤ perItemSize item then some buf
    else none
  | .clear number => if number = item.number then some [] else none
  | .read .. => none

/-- The data of the last write to an index since the last clear of the item. -/
def lastWritten (item : DmItem) (index : ℕ) (ops : List Op) : Bytes :=
  (ops.reverse.findSome? (Op.sets item index)).getD []

def Op.On (number index : ℕ) : Op → Prop
  | .write number' index' _ => number' = number ∧ index' = index
  | .clear number' => number' = number
  | .read .. => False

/-- The item, the index or the count is out of range. -/
def Op.OutOfRange : Op → Prop
  | .write number index buf => ∀ item, ofNumber number = some item →
    index ≥ perItemMaxIndex numMissionItems item ∨ buf.length > perItemSize item
  | .clear number => ofNumber number = none
  | .read number index _ count => ∀ item, ofNumber number = some item →
    index ≥ perItemMaxIndex numMissionItems item ∨ count > perItemSize item

theorem lastWritten_append : lastWritten item index (ops ++ [op]) =
      (op.sets item index).getD (lastWritten item index ops) := by
  unfold lastWritten
  rw [reverse_append, reverse_singleton, singleton_append, findSome?_cons]
  cases op.sets item index <;> rfl

theorem Ram.after_represents (N ops) : (Ram.after N ops).Represents N (Store.after N ops) := by
  have hinit : (ramInitialize N).Represents N fun _ _ => [] :=
    ⟨represents_zero, rfl⟩
  exact Run.after_of_simulation (R := Ram.Represents N)
    (fun _ _ op h _ => (Ram.refines op h).2) hinit fun _ _ => trivial

theorem File.after_represents (N ops) :
    File.Represents N (File.after N ops) (Store.after N ops) := by
  have hinit : File.Represents N {} fun _ _ => [] :=
    ⟨represents_zero, nofun⟩
  exact Run.after_of_simulation (R := File.Represents N)
    (fun _ _ op h _ => (File.refines op h).2) hinit fun _ _ => trivial

theorem Store.after_append (N ops op) :
    Store.after N (ops ++ [op]) = ((Store.after N ops).step N op).1 :=
  Run.after_append ..

theorem Store.step_apply (hindex : index < perItemMaxIndex N item) {op : Op} :
    (store.step N op).1 item index = (op.sets item index).getD (store item index) := by
  rcases hop : ofNumber op.number with _ | item'
  · have hne : op.number ≠ item.number := by
      rintro heq
      simp [heq] at hop
    rw [Store.step_of_none hop]
    cases op <;> simp_all [Op.sets, Op.number]
  · rw [ofNumber_eq_some] at hop
    cases op with
    | write number index' buf =>
      obtain rfl : number = item'.number := hop
      simp only [Store.step, Store.write, ofNumber_number, Op.sets,
        number_injective.eq_iff, if_true, take_length]
      by_cases hplace : item' = item ∧ index' = index
      · obtain ⟨rfl, rfl⟩ := hplace
        by_cases hcount : buf.length ≤ perItemSize item'
        · simp [Nat.not_le.mpr hindex, Nat.not_lt.mpr hcount, hcount]
        · simp [Nat.not_le.mpr hindex, Nat.lt_of_not_le hcount, hcount]
      · have hsets : ¬(item' = item ∧ index' = index ∧ buf.length ≤ perItemSize item) :=
          fun h => hplace ⟨h.1, h.2.1⟩
        split_ifs
        · rfl
        · rfl
        · refine (set_apply ..).trans (if_neg ?_)
          rintro ⟨rfl, rfl⟩
          exact hplace ⟨rfl, rfl⟩
    | clear number =>
      obtain rfl : number = item'.number := hop
      simp only [Store.step, Store.clear, ofNumber_number, Op.sets,
        number_injective.eq_iff, if_true]
      by_cases hitem : item' = item
      · subst hitem
        simp [Nat.ne_of_gt (Nat.zero_lt_of_lt hindex)]
      · split_ifs
        · rfl
        · simp [Function.update_of_ne (Ne.symm hitem)]
    | read => rw [step_read]; rfl

theorem Store.after_apply (hindex : index < perItemMaxIndex N item) {ops} :
    Store.after N ops item index = lastWritten item index ops := by
  induction ops using List.reverseRecOn with
  | nil => rfl
  | append_singleton ops op ih =>
    rw [after_append, step_apply hindex, lastWritten_append, ih]

theorem Op.sets_of_not_on (h : ¬op.On item.number index) : op.sets item index = none := by
  cases op with
  | write number index' buf =>
    rw [Op.sets, if_neg]
    exact fun hplace => h ⟨hplace.1, hplace.2.1⟩
  | clear number =>
    rw [Op.sets, if_neg]
    exact h
  | read => rfl

theorem Store.read_congr {store' : Store}
    (h : ∀ item, ofNumber number = some item → index < perItemMaxIndex N item →
    store' item index = store item index) {buf count} :
    (store'.step N (.read number index buf count)).2 =
      (store.step N (.read number index buf count)).2 := by
  rcases hnumber : ofNumber number with _ | item
  · simp [Store.step, hnumber]
  simp only [Store.step, hnumber, Store.read]
  by_cases hindex : index ≥ perItemMaxIndex N item
  · simp [hindex]
  · rw [h item hnumber (Nat.lt_of_not_le hindex)]

theorem Store.read_step_of_not_on (h : ¬op.On number index) {buf : Bytes} {count} :
    ((store.step N op).1.step N (.read number index buf count)).2 =
      (store.step N (.read number index buf count)).2 := by
  refine read_congr (fun item hnumber hindex => ?_)
  obtain rfl := ofNumber_eq_some.mp hnumber
  rw [step_apply hindex, Op.sets_of_not_on h, Option.getD_none]

theorem checkAccess_of_outOfRange {count} (h : ∀ item, ofNumber number = some item →
      index ≥ perItemMaxIndex N item ∨ count > perItemSize item) :
    ∃ e < 0, checkAccess N number index count = .error e := by
  rcases hnumber : ofNumber number with _ | item
  · exact ⟨-1, by decide, checkAccess_of_none hnumber⟩
  obtain rfl := ofNumber_eq_some.mp hnumber
  rw [checkAccess_number]
  by_cases hindex : index ≥ perItemMaxIndex N item
  · exact ⟨-1, by decide, if_pos hindex⟩
  · have hcount := (h item hnumber).resolve_left hindex
    exact ⟨-Store.E2BIG, by decide, by rw [if_neg hindex, if_pos hcount]⟩

theorem Ram.step_of_outOfRange {ram : Ram} (h : op.OutOfRange N) :
    (ram.step N op).2.code < 0 ∧ (ram.step N op).1 = ram := by
  cases op with
  | write number index buf =>
    obtain ⟨e, he, haccess⟩ := checkAccess_of_outOfRange h
    simpa [Ram.step, Ram.write, haccess] using he
  | clear number =>
    have hnone : ofNumber (Op.clear number).number = none := h
    simp [Ram.step_of_none ram _ hnone]
  | read number index buf count =>
    obtain ⟨e, he, haccess⟩ := checkAccess_of_outOfRange h
    simpa [Ram.step, Ram.read, haccess] using he

theorem File.step_of_outOfRange (h : op.OutOfRange N) : (File.step N f op).1 = f := by
  cases op with
  | write number index buf =>
    obtain ⟨e, -, haccess⟩ := checkAccess_of_outOfRange h
    simp [File.step, File.write, haccess]
  | clear number =>
    have hnone : ofNumber (Op.clear number).number = none := h
    rw [File.step_of_none f _ hnone]
  | read number index buf count =>
    obtain ⟨e, -, haccess⟩ := checkAccess_of_outOfRange h
    simp [File.step, File.read, haccess]

theorem Ram.after_append (N ops op) : Ram.after N (ops ++ [op]) = ((Ram.after N ops).step N op).1 :=
  Run.after_append ..

theorem File.after_append (N ops op) :
    File.after N (ops ++ [op]) = (File.step N (File.after N ops) op).1 :=
  Run.after_append ..

/-- The dataman is an array store. Both backends return the same results. A read returns the data of
the last write since the last clear, or an error if the caller asks for less. An operation on one
entry does not change another. Out of range, both return an error and change nothing. -/
theorem backends_are_array_store (numMissionItems : ℕ) (ops : List Op) :
    (∀ op, ((Ram.after numMissionItems ops).step numMissionItems op).2 =
      (File.step numMissionItems (File.after numMissionItems ops) op).2) ∧
    (∀ item index buf count, index < perItemMaxIndex numMissionItems item →
      count ≤ perItemSize item →
      ((Ram.after numMissionItems ops).step numMissionItems (.read item.number index buf count)).2 =
        if (lastWritten item index ops).length ≤ count then
          { code := (lastWritten item index ops).length, data := lastWritten item index ops }
        else { code := -1 }) ∧
    (∀ op number index buf count, ¬op.On number index →
      ((Ram.after numMissionItems (ops ++ [op])).step numMissionItems
          (.read number index buf count)).2 =
        ((Ram.after numMissionItems ops).step numMissionItems (.read number index buf count)).2) ∧
    (∀ op, op.OutOfRange numMissionItems →
      ((Ram.after numMissionItems ops).step numMissionItems op).2.code < 0 ∧
        Ram.after numMissionItems (ops ++ [op]) = Ram.after numMissionItems ops ∧
        File.after numMissionItems (ops ++ [op]) = File.after numMissionItems ops) := by
  have hram := fun op => (Ram.refines op (Ram.after_represents numMissionItems ops)).1
  have hfile := fun op => (File.refines op (File.after_represents numMissionItems ops)).1
  refine ⟨fun op => (hram op).trans (hfile op).symm, ?_, ?_, ?_⟩
  · intro item index buf count hindex hcount
    rw [hram, ← after_apply hindex]
    simp only [Store.step, Store.read, ofNumber_number, Nat.not_le.mpr hindex,
      Nat.not_lt.mpr hcount, if_true, if_false, gt_iff_lt]
    split_ifs <;> first | rfl | omega
  · intro op number index buf count hop
    have hlater := Ram.after_represents numMissionItems (ops ++ [op])
    rw [hram, (Ram.refines _ hlater).1, after_append, read_step_of_not_on hop]
  · intro op hop
    rw [Ram.after_append, File.after_append]
    exact ⟨(Ram.step_of_outOfRange hop).1, (Ram.step_of_outOfRange hop).2,
      File.step_of_outOfRange hop⟩

/-! ## Restarts -/

/-- What is done to a file that is new or has another key. -/
def initialOps (key mission stats : Bytes) : List Op :=
  .write compat.number 0 key :: (range compat.number).map .clear ++
    [.write missionState.number 0 mission, .write fencePointsState.number 0 stats,
      .write safePointsState.number 0 stats]

/-- `_file_initialize` of a file that can be opened; `key` is `DM_COMPAT_KEY`. -/
def fileInitialize (fileExisted : Bool) (key mission stats : Bytes) (f : ByteFile) : ByteFile :=
  let r := File.read numMissionItems (f.seek (maxOffset numMissionItems)) compat.number 0
    (replicate 8 0) 8
  if !fileExisted || r.2.1.take 8 ≠ key then
    Run.after (fun f op => (File.step numMissionItems f op).1) r.1 (initialOps key mission stats)
  else r.1

/-- An operation, or a restart of the task. -/
def File.stepOrRestart (key mission stats : Bytes) (f : ByteFile) : Option Op → ByteFile
  | some op => (File.step numMissionItems f op).1
  | none => fileInitialize numMissionItems true key mission stats f

theorem File.Represents.seek (h : File.Represents N f store) (position) :
    File.Represents N (f.seek position) store :=
  h.of_bytes rfl

section

variable {key mission stats : Bytes} (hkey : key.length = perItemSize compat)
include hkey

theorem compat_after_initialOps : Store.after N (initialOps key mission stats) compat 0 = key := by
  have hnumbers : compat.number = 9 ∧ missionState.number = 8 ∧ fencePointsState.number = 5 ∧
      safePointsState.number = 2 := ⟨rfl, rfl, rfl, rfl⟩
  rw [after_apply (show 0 < 1 by decide)]
  simp [lastWritten, initialOps, Op.sets, hkey, hnumbers, range_succ]

/-- A file with the key is left as it is. -/
theorem File.Represents.restart (h : File.Represents N f store) (hstore : store compat 0 = key) :
    File.Represents N (fileInitialize N true key mission stats f) store := by
  obtain ⟨hresult, hread⟩ :=
    File.refines (.read compat.number 0 (replicate 8 0) 8) (h.seek (maxOffset N))
  simp only [File.step, Store.step, Store.read, ofNumber_number, hstore, hkey, perItemMaxIndex,
    perItemSize] at hresult
  obtain ⟨hcode, hdata⟩ := Result.mk.inj hresult
  rw [hcode] at hdata
  rw [step_read] at hread
  rw [fileInitialize, if_neg]
  · exact hread
  · simpa using hdata

variable {es : List (Option Op)}

theorem File.Represents.restarts (h : File.Represents N f store) (hstore : store compat 0 = key)
    (hes : ∀ op, some op ∈ es → ¬op.On compat.number 0) :
    File.Represents N (Run.after (stepOrRestart N key mission stats) f es)
      (Run.after (fun store op => (store.step N op).1) store es.reduceOption) := by
  induction es generalizing f store with
  | nil => exact h
  | cons e es ih =>
    have hrest := fun op hop => hes op (mem_cons_of_mem e hop)
    cases e with
    | none => exact ih (h.restart hkey hstore) hstore hrest
    | some op =>
      have hkept : (store.step N op).1 compat 0 = key := by
        rw [step_apply (show 0 < 1 by decide), Op.sets_of_not_on (hes op mem_cons_self)]
        exact hstore
      exact ih (File.refines op h).2 hkept hrest

/-- **A restart loses nothing.** Whatever is done to the other items, and however often the task
restarts in between, an operation returns what it would without the restarts. -/
theorem File.restarts_lose_nothing (hes : ∀ op, some op ∈ es → ¬op.On compat.number 0) (op : Op) :
    let f := fileInitialize N false key mission stats {}
    (File.step N (Run.after (stepOrRestart N key mission stats) f es) op).2 =
      (File.step N (File.after N (initialOps key mission stats ++ es.reduceOption)) op).2 := by
  intro f
  have hread := (File.refines (.read compat.number 0 (replicate 8 0) 8)
    ((File.after_represents N []).seek (maxOffset N))).2
  rw [step_read] at hread
  have hnew : File.Represents N f (Store.after N (initialOps key mission stats)) :=
    Run.after_of_simulation (R := File.Represents N) (fun _ _ op h _ => (File.refines op h).2)
      hread fun _ _ => trivial
  have hlast : File.Represents N (Run.after (stepOrRestart N key mission stats) f es) _ :=
    hnew.restarts hkey (compat_after_initialOps hkey) hes
  rw [(File.refines op hlast).1, (File.refines op (File.after_represents ..)).1, Store.after,
    Store.after, Run.after_append]

end

theorem File.restarts_lose_nothing_waypoint :
    (File.step 1 (Run.after (stepOrRestart 1 (replicate 8 1) [] [])
      (fileInitialize 1 false (replicate 8 1) [] [] {}) [some (.write 6 0 [7]), none])
      (.read 6 0 [0] 1)).2 = { code := 1, data := [7] } := by
  rw [restarts_lose_nothing rfl (by simp [Op.On]; decide), (refines _ (after_represents ..)).1]
  decide

end Px4.Dataman
