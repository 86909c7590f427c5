import Mathlib.Data.List.Nodup
import Px4.Common.Run
import Px4.Flashparams.Layout

/-!
# Reading back the last write

At any time one entry is live, the last one of its sector. An entry that is moved to the next sector
may take all of it, but `find_entry` looks only at entries that end before the last word.
-/

namespace Px4.Flashparams

open List NorFlash

/-! ## Sectors -/

namespace SectorMap

variable {map : SectorMap} {s t : SectorDescriptor} {i j : ℕ}

theorem disjoint_of_ne (hi : map.sectors[i]? = some s) (hj : map.sectors[j]? = some t)
    (hne : i ≠ j) : NorFlash.Disjoint s.address s.size t.address t.size := by
  obtain ⟨hlti, rfl⟩ := List.getElem?_eq_some_iff.mp hi
  obtain ⟨hltj, rfl⟩ := List.getElem?_eq_some_iff.mp hj
  rcases Nat.lt_or_gt_of_ne hne with hlt | hlt
  · exact pairwise_iff_getElem.mp map.disjoint i j hlti hltj hlt
  · exact Or.symm (pairwise_iff_getElem.mp map.disjoint j i hltj hlti hlt)

variable {addr : ℕ}

theorem contains_iff (hs : s ∈ map.sectors) :
    s.contains addr ↔ s.address ≤ addr ∧ addr < s.address + s.size := by
  have := map.address_pos s hs
  rw [SectorDescriptor.contains, Bool.and_eq_true, decide_eq_true_iff, decide_eq_true_iff]
  omega

section

variable (hi : map.sectors[i]? = some s)
include hi

theorem index_unique (hj : map.sectors[j]? = some t)
    (hs : s.contains addr) (ht : t.contains addr) : i = j := by
  by_contra hne
  have hdisjoint := disjoint_of_ne hi hj hne
  rw [contains_iff (mem_of_getElem? hi)] at hs
  rw [contains_iff (mem_of_getElem? hj)] at ht
  unfold NorFlash.Disjoint at hdisjoint
  omega

theorem getSectorInfo_eq (hs : s.contains addr) : getSectorInfo map addr = some i := by
  obtain ⟨hlt, heq⟩ := List.getElem?_eq_some_iff.mp hi
  rw [getSectorInfo, findIdx?_eq_some_iff_getElem]
  refine ⟨hlt, by rwa [heq], fun j hj => ?_⟩
  intro ht
  have hjlt : j < map.sectors.length := Nat.lt_trans hj hlt
  exact absurd (index_unique hi (List.getElem?_eq_getElem hjlt) hs ht) (Nat.ne_of_gt hj)

variable {f : NorFlash}

theorem eraseSector_eq (hsize : 0 < s.size) :
    eraseSector map f s s.address = f.erase s.address s.size := by
  have hmem := mem_of_getElem? hi
  have hcontains : s.contains s.address := (contains_iff hmem).mpr ⟨Nat.le_refl _, by omega⟩
  have hpage : getpage map s.address = s.page := by
    unfold getpage
    cases hfind : map.sectors.find? (·.contains s.address) with
    | none =>
      rw [find?_eq_none] at hfind
      exact absurd hcontains (hfind s hmem)
    | some t =>
      obtain ⟨j, hj⟩ := mem_iff_getElem?.mp (mem_of_find?_eq_some hfind)
      have ht := find?_some hfind
      have hij := index_unique hi hj hcontains ht
      rw [← hij, hi] at hj
      cases hj
      rfl
  have hblock : map.sectors.find? (fun t => (t.page : ℤ) = (s.page : ℤ)) = some s := by
    cases hfind : map.sectors.find? (fun t => (t.page : ℤ) = (s.page : ℤ)) with
    | none =>
      rw [find?_eq_none] at hfind
      exact absurd (decide_eq_true rfl) (hfind s hmem)
    | some t =>
      have hsame : t.page = s.page := by
        have ht := find?_some hfind
        exact_mod_cast of_decide_eq_true ht
      exact congrArg some
        (inj_on_of_nodup_map map.pages_nodup (mem_of_find?_eq_some hfind) hmem hsame)
  have hpos : (s.page : ℤ) > 0 := by exact_mod_cast map.page_pos s hmem
  unfold eraseSector
  rw [hpage, if_pos ⟨hpos, rfl⟩, eraseblock, hblock]

end

theorem pe_eq (hs : s ∈ map.sectors) : s.pe = s.address + s.size - 4 := by
  rw [SectorDescriptor.pe, Nat.div_mul_cancel (map.size_dvd s hs)]

end SectorMap

open SectorMap

/-! ## The contents of the flash -/

variable {crc32 : Bytes → BitVec 32} {map : SectorMap} {token : BitVec 32} {f g : NorFlash}
  {data : Bytes}

/-- A sector in which all entries are erased. -/
def Stale (crc32 : Bytes → BitVec 32) (token : BitVec 32) (f : NorFlash) (s : SectorDescriptor) :
    Prop :=
  ∃ es, AllErased es ∧ EntriesAt crc32 token f s.address s.size es

/-- The data is the live entry of sector `k`, behind erased entries; the other sectors are stale. -/
structure StoredAt (crc32 : Bytes → BitVec 32) (map : SectorMap) (token : BitVec 32)
    (f : NorFlash) (data : Bytes) (k : ℕ) (s : SectorDescriptor) (es : List Entry) : Prop where
  sector : map.sectors[k]? = some s
  erased : AllErased es
  entries : EntriesAt crc32 token f s.address s.size (es ++ [⟨data, true⟩])
  others : ∀ j t, map.sectors[j]? = some t → j ≠ k → Stale crc32 token f t

/-- What the flash stores. Nothing is stored while all sectors are blank. -/
def Stores (crc32 : Bytes → BitVec 32) (map : SectorMap) (token : BitVec 32) (f : NorFlash) :
    Option Bytes → Prop
  | none => ∀ s ∈ map.sectors, f.Blank s.address s.size
  | some data => ∃ k s es, StoredAt crc32 map token f data k s es

variable {s : SectorDescriptor}

theorem Stale.findEntryLoop (h : Stale crc32 token f s) (hs : s ∈ map.sectors) (fuel) :
    findEntryLoop crc32 f token s.pe fuel s.address = none := by
  obtain ⟨es, herased, hentries⟩ := h
  rw [pe_eq hs]
  exact hentries.findEntryLoop_none herased fuel

theorem Stale.sameOn (h : Stale crc32 token f s)
    (hsame : f.SameOn g s.address s.size) : Stale crc32 token g s := by
  obtain ⟨es, herased, hentries⟩ := h
  exact ⟨es, herased, hentries.sameOn hsame hentries.used_le⟩

theorem stale_of_blank (hs : s ∈ map.sectors)
    (h : f.Blank s.address s.size) : Stale crc32 token f s :=
  ⟨[], fun _ he => absurd he not_mem_nil, EntriesAt.nil_iff.mpr ⟨h, map.size_lt s hs⟩⟩

theorem findEntry_blank (h : Stores crc32 map token f none) :
    findEntry crc32 f map token = none := by
  rw [findEntry, findSome?_eq_none_iff]
  intro s hs
  exact (stale_of_blank hs (h s hs)).findEntryLoop hs _

namespace StoredAt

variable {k : ℕ} {s : SectorDescriptor} {es : List Entry}

variable (h : StoredAt crc32 map token f data k s es)
include h

theorem mem : s ∈ map.sectors :=
  mem_of_getElem? h.sector

theorem findEntry_eq :
    findEntry crc32 f map token = some (s.address + (encode crc32 token es).length) := by
  obtain ⟨hlt, heq⟩ := List.getElem?_eq_some_iff.mp h.sector
  rw [findEntry, findSome?_eq_some_iff]
  refine ⟨map.sectors.take k, s, map.sectors.drop (k + 1), ?_, ?_, fun t ht => ?_⟩
  · rw [← heq, ← drop_eq_getElem_cons hlt, take_append_drop]
  · rw [pe_eq h.mem]
    refine h.entries.findEntryLoop_some h.erased rfl ?_
    have hlength := length_le_encode crc32 token es
    have hused := h.entries.used_le
    rw [encode_append, List.length_append] at hused
    omega
  · obtain ⟨j, hj, rfl⟩ := mem_take_iff_getElem.mp ht
    have hjk : j < k := by omega
    have hget := List.getElem?_eq_getElem (show j < map.sectors.length by omega)
    exact (h.others j _ hget (Nat.ne_of_lt hjk)).findEntryLoop (mem_of_getElem? hget) _

theorem read_eq : parameterFlashfsRead crc32 map token f = ((data.length : ℤ), data) := by
  obtain ⟨hreads, hfits⟩ := h.entries.last
  have hlt := h.entries.size_lt
  unfold parameterFlashfsRead
  rw [h.findEntry_eq]
  dsimp only
  rw [hreads.entryDataLength_eq rfl (by omega)]
  exact congrArg (Prod.mk _) hreads.data

end StoredAt

/-! ## Writing -/

variable {pf required newSize k : ℕ} {es : List Entry} {old : Bytes}

theorem writeEntry_eq (hlt : totalSize data.length < 65536) :
    writeEntry crc32 token f pf data =
      (f.program pf (Entry.bytes crc32 token ⟨data, true⟩), (data.length : ℤ)) := by
  have hu16 : uint16 (totalSize data.length) = totalSize data.length := uint16_natCast hlt
  have hlength := Entry.length_bytes crc32 token ⟨data, true⟩
  unfold writeEntry
  rw [hu16]
  refine Prod.ext ?_ ?_
  · dsimp only
    rw [take_of_length_le]
    · rfl
    · exact Nat.le_of_eq hlength
  · dsimp only
    unfold totalSize
    omega

/-- Writing behind erased entries stores the data. -/
theorem storedAt_writeEntry {k : ℕ} (hk : map.sectors[k]? = some s)
    (herased : AllErased es) (hentries : EntriesAt crc32 token f s.address s.size es)
    (hothers : ∀ j t, map.sectors[j]? = some t → j ≠ k → Stale crc32 token f t)
    (hfits : (encode crc32 token es).length + totalSize data.length + 4 ≤ s.size) :
    ∃ f', writeEntry crc32 token f (s.address + (encode crc32 token es).length) data =
        (f', (data.length : ℤ)) ∧ Stores crc32 map token f' (some data) := by
  have hlt := hentries.size_lt
  refine ⟨_, writeEntry_eq (by omega), k, s, es, hk, herased,
    hentries.program ⟨data, true⟩ hfits, fun j t hj hne => ?_⟩
  refine (hothers j t hj hne).sameOn (program_sameOn ?_)
  have hdisjoint := disjoint_of_ne hk hj (Ne.symm hne)
  rw [Entry.length_bytes]
  unfold NorFlash.Disjoint at hdisjoint ⊢
  dsimp only
  omega

theorem findFreeLoop_blank (hs : s ∈ map.sectors)
    (h : f.Blank s.address s.size) (hdvd : 4 ∣ required) (hheader : 16 ≤ required) :
    findFreeLoop crc32 f required s.pe (s.size / 4 + 1) s.address =
      if required + 4 ≤ s.size then some s.address else none := by
  have hpos := map.address_pos s hs
  rw [pe_eq hs]
  split_ifs with hfits
  · exact findFreeLoop_some (h.mono (Nat.le_refl _) (by omega)) hdvd hheader (by omega)
  · refine findFreeLoop_none (fun hle => h.mono (Nat.le_refl _) (by omega)) ?_
    omega

theorem write_blank (h : Stores crc32 map token f none) (hlt : totalSize data.length < 65536) :
    parameterFlashfsWrite crc32 map token f data = (f, -enospc) ∨
      ∃ f', parameterFlashfsWrite crc32 map token f data = (f', (data.length : ℤ)) ∧
        Stores crc32 map token f' (some data) := by
  have htotal := headerSize_le_totalSize data.length
  unfold parameterFlashfsWrite
  rw [findEntry_blank h]
  dsimp only
  cases hfree : findFree crc32 f map (totalSize data.length) with
  | none => exact .inl rfl
  | some pf =>
    rw [findFree, uint16_natCast hlt] at hfree
    obtain ⟨s, hs, hloop⟩ := exists_of_findSome?_eq_some hfree
    rw [findFreeLoop_blank hs (h s hs) (totalSize_dvd _) htotal] at hloop
    split_ifs at hloop with hfits
    cases hloop
    obtain ⟨k, hk⟩ := mem_iff_getElem?.mp hs
    refine .inr (storedAt_writeEntry hk (fun _ he => absurd he not_mem_nil) ?_ ?_ ?_)
    · exact EntriesAt.nil_iff.mpr ⟨h s hs, map.size_lt s hs⟩
    · intro j t hj _
      have ht := mem_of_getElem? hj
      exact stale_of_blank ht (h t ht)
    · change 0 + _ + 4 ≤ _
      omega

namespace StoredAt

variable {k : ℕ} {s : SectorDescriptor} {es : List Entry} {old : Bytes}

variable (h : StoredAt crc32 map token f old k s es)
include h

theorem checkFreeSpaceInSector_eq (hdvd : 4 ∣ newSize) :
    checkFreeSpaceInSector map f (s.address + (encode crc32 token es).length) newSize =
      if (encode crc32 token es).length + totalSize old.length + newSize + 4 ≤ s.size then none
      else some (k, s) := by
  obtain ⟨hreads, hfits⟩ := h.entries.last
  have hmagic : validMagic f (s.address + (encode crc32 token es).length) := by
    rw [validMagic, hreads.magic, decide_eq_true rfl]
  have hcontains : s.contains (s.address + (encode crc32 token es).length) :=
    (contains_iff h.mem).mpr ⟨by omega, by omega⟩
  have hused := encode_dvd crc32 token es
  have hold := totalSize_dvd old.length
  have hsize := map.size_dvd s h.mem
  unfold checkFreeSpaceInSector
  rw [getSectorInfo_eq h.sector hcontains]
  dsimp only
  rw [h.sector]
  rw [hmagic, if_pos rfl, nextEntry, hreads.size]
  -- all sizes are multiples of a word, so the last byte and the last word make no difference
  refine if_congr ?_ rfl rfl
  dsimp only at hfits ⊢
  omega

variable {t : SectorDescriptor}

/-- After the stored entry is marked erased, all sectors are stale. -/
theorem stale_eraseEntry {j : ℕ} (hj : map.sectors[j]? = some t) :
    Stale crc32 token (eraseEntry f (s.address + (encode crc32 token es).length)) t := by
  by_cases hjk : j = k
  · subst hjk
    cases h.sector.symm.trans hj
    refine ⟨_, ?_, h.entries.eraseEntry⟩
    intro e he
    rcases mem_append.mp he with hmem | hmem
    · exact h.erased e hmem
    · cases mem_singleton.mp hmem
      rfl
  · refine (h.others j t hj hjk).sameOn (program_sameOn ?_)
    have hfits := h.entries.last.2
    have htotal := headerSize_le_totalSize old.length
    have hdisjoint := disjoint_of_ne h.sector hj (Ne.symm hjk)
    rw [LittleEndian.length_toBytes]
    unfold NorFlash.Disjoint at hdisjoint ⊢
    dsimp only at hfits
    omega

end StoredAt

theorem Stale.entriesAt_nil (h : Stale crc32 token f s) (hsize : 4 ≤ newSize)
    (hcheck : blankCheck f s.address newSize) : EntriesAt crc32 token f s.address s.size [] := by
  obtain ⟨es, -, hentries⟩ := h
  cases es with
  | nil => exact hentries
  | cons e es =>
    rw [blankCheck, all_eq_true] at hcheck
    have hword := hcheck 0 (mem_range.mpr (by omega))
    rw [Nat.add_zero, blankMagic, hentries.head.1.magic] at hword
    cases hword

/-- The beginning of the next sector, after it was erased if need be. -/
theorem entriesAt_next {n : ℕ} {next} (hn : map.sectors[n]? = some next)
    (hstale : ∀ (j : ℕ) t, map.sectors[j]? = some t → Stale crc32 token f t) (hsize : 4 ≤ newSize)
    (hfits : newSize ≤ next.size) :
    let g := if blankCheck f next.address newSize then f
      else eraseSector map f next next.address
    EntriesAt crc32 token g next.address next.size [] ∧
      ∀ j t, map.sectors[j]? = some t → j ≠ n → Stale crc32 token g t := by
  split_ifs with hcheck
  · exact ⟨(hstale n next hn).entriesAt_nil hsize hcheck, fun j t hj _ => hstale j t hj⟩
  · rw [eraseSector_eq hn (by omega)]
    refine ⟨EntriesAt.nil_iff.mpr ⟨erase_blank, ?_⟩, fun j t hj hne => ?_⟩
    · exact map.size_lt next (mem_of_getElem? hn)
    · exact (hstale j t hj).sameOn (erase_sameOn (disjoint_of_ne hn hj (Ne.symm hne)))

/-- What a write needs so that its entry is found: the size of the first entry has 16 bits, and an
entry that does not fit behind the stored one does not take all of the next sector. -/
def Findable (crc32 : Bytes → BitVec 32) (map : SectorMap) (token : BitVec 32) (f : NorFlash)
    (data : Bytes) : Prop :=
  (findEntry crc32 f map token = none → totalSize data.length < 65536) ∧
    ∀ pf ∈ findEntry crc32 f map token,
      ∀ i ∈ checkFreeSpaceInSector map f pf (totalSize data.length),
        ∀ next ∈ map.sectors[getNextSectorDescriptor map i.1]?, next.size ≠ totalSize data.length
deriving Decidable

theorem StoredAt.write
    (h : StoredAt crc32 map token f old k s es) (hfindable : Findable crc32 map token f data) :
    parameterFlashfsWrite crc32 map token f data = (f, -enospc) ∨
      ∃ f', parameterFlashfsWrite crc32 map token f data = (f', (data.length : ℤ)) ∧
        Stores crc32 map token f' (some data) := by
  have htotal := headerSize_le_totalSize data.length
  have hfindable := hfindable.2 _ h.findEntry_eq
  unfold parameterFlashfsWrite
  rw [h.findEntry_eq]
  dsimp only
  rw [h.checkFreeSpaceInSector_eq (totalSize_dvd _)] at hfindable ⊢
  split_ifs at hfindable ⊢ with hspace
  · -- behind the stored entry
    have hentries := h.entries.eraseEntry
    have hnext : nextEntry (eraseEntry f (s.address + (encode crc32 token es).length))
        (s.address + (encode crc32 token es).length) =
        s.address + (encode crc32 token (es ++ [⟨old, false⟩])).length := by
      rw [nextEntry, hentries.last.1.size, encode_append, encode_singleton, List.length_append,
        Entry.length_bytes, Nat.add_assoc]
    refine .inr ?_
    rw [hnext]
    refine storedAt_writeEntry h.sector ?_ hentries (fun j t hj _ => h.stale_eraseEntry hj) ?_
    · exact forall_mem_append.mpr ⟨h.erased, forall_mem_singleton.mpr rfl⟩
    · rw [encode_append, encode_singleton, List.length_append, Entry.length_bytes]
      exact hspace
  · -- at the beginning of the next sector
    dsimp only
    cases hn : map.sectors[getNextSectorDescriptor map k]? with
    | none => exact .inl rfl
    | some next =>
      dsimp only
      by_cases hsmall : next.size < totalSize data.length
      · exact .inl (if_pos hsmall)
      rw [if_neg hsmall]
      have hne := hfindable (k, s) rfl next hn
      have hdvd := totalSize_dvd data.length
      have hsize := map.size_dvd next (mem_of_getElem? hn)
      obtain ⟨hentries, hothers⟩ := entriesAt_next hn (fun j t hj => h.stale_eraseEntry hj)
        (show 4 ≤ totalSize data.length by omega)
        (show totalSize data.length ≤ next.size by omega)
      refine .inr (storedAt_writeEntry hn (fun _ he => absurd he not_mem_nil)
        hentries hothers ?_)
      change 0 + _ + 4 ≤ _
      omega

/-! ## Runs -/

/-- The flash, with the data of the last write that returned no error. -/
structure FlashStore where
  flash : NorFlash
  stored : Option Bytes

namespace FlashStore

/-- One call of `parameter_flashfs_write`. -/
def write (crc32 : Bytes → BitVec 32) (map : SectorMap) (token : BitVec 32) (s : FlashStore)
    (data : Bytes) : FlashStore :=
  match parameterFlashfsWrite crc32 map token s.flash data with
  | (flash, result) => ⟨flash, if 0 ≤ result then some data else s.stored⟩

/-- `parameter_flashfs_read` returns the stored data with its length. -/
def ReadsBack (crc32 : Bytes → BitVec 32) (map : SectorMap) (token : BitVec 32) (s : FlashStore) :
    Prop :=
  parameterFlashfsRead crc32 map token s.flash =
    match s.stored with
    | none => (-enoent, [])
    | some data => ((data.length : ℤ), data)

theorem readsBack_of_stores {s : FlashStore} (h : Stores crc32 map token s.flash s.stored) :
    s.ReadsBack crc32 map token := by
  unfold ReadsBack
  cases hstored : s.stored with
  | none =>
    rw [hstored] at h
    unfold parameterFlashfsRead
    rw [findEntry_blank h]
  | some data =>
    rw [hstored] at h
    obtain ⟨k, sector, es, h⟩ := h
    exact h.read_eq

theorem stores_write {s : FlashStore} (h : Stores crc32 map token s.flash s.stored)
    (hfindable : Findable crc32 map token s.flash data) :
    Stores crc32 map token (s.write crc32 map token data).flash
      (s.write crc32 map token data).stored := by
  have hwrite : parameterFlashfsWrite crc32 map token s.flash data = (s.flash, -enospc) ∨
      ∃ f', parameterFlashfsWrite crc32 map token s.flash data = (f', (data.length : ℤ)) ∧
        Stores crc32 map token f' (some data) := by
    cases hstored : s.stored with
    | none =>
      rw [hstored] at h
      exact write_blank h (hfindable.1 (findEntry_blank h))
    | some old =>
      rw [hstored] at h
      obtain ⟨k, sector, es, h⟩ := h
      exact h.write hfindable
  unfold write
  rcases hwrite with hfull | ⟨f', hdone, hstores⟩
  · rw [hfull]
    exact h
  · rw [hdone]
    exact hstores

end FlashStore

/-- From erased sectors on, after every call the data of the last successful write is read back, if
the total size of the first one is below 64 KiB, and no later one that has to move takes all of the
next sector. -/
theorem flash_reads_back (crc32 : Bytes → BitVec 32) (map : SectorMap) (token : BitVec 32)
    (f : NorFlash) (hblank : ∀ s ∈ map.sectors, f.Blank s.address s.size) (writes : List Bytes)
    (hfindable : Run.Along (FlashStore.write crc32 map token)
      (fun s data => Findable crc32 map token s.flash data) ⟨f, none⟩ writes) :
    Run.Always (FlashStore.write crc32 map token) (FlashStore.ReadsBack crc32 map token)
      ⟨f, none⟩ writes := by
  apply Run.always_of_invariant (I := fun s : FlashStore => Stores crc32 map token s.flash s.stored)
  · exact fun s data h hfindable => FlashStore.stores_write h hfindable
  · exact fun s h => FlashStore.readsBack_of_stores h
  · exact hblank
  · exact hfindable

/-- A flash with one sector of 64 bytes. -/
def oneSector : SectorMap where
  sectors := [⟨1, 64, 4096⟩]
  ne_nil := by decide
  page_pos := by decide
  size_dvd := by decide
  size_lt := by decide
  address_pos := by decide
  pages_nodup := by decide
  disjoint := by simp

/-- Two entries, one that needs an erased sector, and one that does not fit. -/
theorem flash_reads_back_one_sector :
    Run.Always (FlashStore.write (fun _ => 7) oneSector parametersToken)
      (FlashStore.ReadsBack (fun _ => 7) oneSector parametersToken) ⟨fun _ => 0xff, none⟩
      [[1, 2, 3], [], replicate 44 0xff, replicate 49 0] :=
  flash_reads_back (fun _ => 7) oneSector parametersToken (fun _ => 0xff) (fun _ _ _ _ _ => rfl) _
    (by decide +kernel)

/-- An entry of 64 bytes is moved to the beginning of the sector, and not found there. A first entry
of 65536 bytes has the size 0, and nothing is written. -/
theorem written_entry_not_found :
    (let s := Run.after (FlashStore.write (fun _ => 7) oneSector parametersToken)
      ⟨fun _ => 0xff, none⟩ [[1], replicate 48 9]
    s.stored = some (replicate 48 9) ∧
      parameterFlashfsRead (fun _ => 7) oneSector parametersToken s.flash = (-enoent, [])) ∧
    ∀ data : Bytes, data.length = 65519 →
      let s := FlashStore.write (fun _ => 7) oneSector parametersToken ⟨fun _ => 0xff, none⟩ data
      s.stored = some data ∧
        parameterFlashfsRead (fun _ => 7) oneSector parametersToken s.flash = (-enoent, []) := by
  refine ⟨by decide +kernel, fun data hlength => ?_⟩
  have hfree : findFree (fun _ => 7) (fun _ => 0xff) oneSector (totalSize 65519) = some 4096 := by
    decide +kernel
  have hwrite : parameterFlashfsWrite (fun _ => 7) oneSector parametersToken (fun _ => 0xff) data =
      (fun _ => 0xff, 0) := by
    unfold parameterFlashfsWrite
    rw [hlength]
    dsimp only
    rw [hfree]
    unfold writeEntry
    rw [hlength, show uint16 (totalSize 65519) = 0 by decide]
    dsimp only
    rw [take_zero, program_nil]
    rfl
  unfold FlashStore.write
  rw [hwrite]
  refine ⟨rfl, ?_⟩
  change parameterFlashfsRead (fun _ => 7) oneSector parametersToken (fun _ => 0xff) = _
  decide +kernel

end Px4.Flashparams
