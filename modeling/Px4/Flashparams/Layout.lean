import Mathlib.Tactic.SplitIfs
import Px4.Flashparams.Flashfs

/-!
# Entries in sectors

A sector holds entries one after the other, and is blank behind them. The last word of a sector is
not used: `find_entry` looks no further.
-/

namespace Px4.Flashparams

open List LittleEndian Nat NorFlash

variable {f g : NorFlash} {pf : ℕ}

/-- A number that fits is not changed. -/
theorem uint16_natCast {n : ℕ} (h : n < 65536) : uint16 n = n := by
  unfold uint16
  omega

/-- A difference that is not negative does not wrap. -/
theorem uint16_sub {m n : ℕ} (hle : n ≤ m) (hlt : m < 65536) : uint16 ((m : ℤ) - n) = m - n := by
  unfold uint16
  omega

/-- Fewer than four bytes are added. -/
theorem sizeAdjust_lt (n) : sizeAdjust n < 4 := by
  unfold sizeAdjust
  omega

/-- Entries are aligned. -/
theorem totalSize_dvd (n) : 4 ∣ totalSize n := by
  unfold totalSize sizeAdjust
  omega

/-- An entry has at least its header. -/
theorem headerSize_le_totalSize (n) : 16 ≤ totalSize n := by
  unfold totalSize headerSize
  omega

/-! ## Entries -/

/-- A version of the file; only the last one is live. -/
structure Entry where
  data : Bytes
  live : Bool

namespace Entry

def flag (e : Entry) : ℕ :=
  if e.live then validEntryFlag + sizeAdjust e.data.length else erasedEntryFlag

def bytes (crc32 : Bytes → BitVec 32) (token : BitVec 32) (e : Entry) : Bytes :=
  entryBytes crc32 token e.flag e.data

variable {crc32 : Bytes → BitVec 32} {token : BitVec 32} {e : Entry}

/-- The checksum is over what follows it. -/
theorem length_checkedBytes {token data} :
    (checkedBytes token data).length = totalSize data.length - 10 := by
  simp only [checkedBytes, length_append, length_toBytes, length_replicate, totalSize, headerSize]
  omega

/-- An entry takes up its total size. -/
theorem length_bytes (crc32 token) (e : Entry) :
    (e.bytes crc32 token).length = totalSize e.data.length := by
  have := headerSize_le_totalSize e.data.length
  simp only [bytes, entryBytes, length_append, length_toBytes, length_checkedBytes]
  omega

/-- A number in the flash is read back. -/
theorem toNat_of_holds {addr count n} (h : f.Holds addr (toBytes count n)) (hlt : n < 256 ^ count) :
    LittleEndian.toNat (f.bytes addr count) = n := by
  unfold NorFlash.Holds at h
  rw [length_toBytes] at h
  rw [h, toNat_toBytes, mod_eq_of_lt hlt]

/-- What the functions read from an entry. -/
structure Reads (crc32 : Bytes → BitVec 32) (token : BitVec 32) (f : NorFlash) (pf : ℕ)
    (e : Entry) : Prop where
  magic : Flashparams.magic f pf = magicSig
  flag : Flashparams.flag f pf = e.flag
  size : Flashparams.size f pf = totalSize e.data.length
  token : fileToken f pf = token.toNat
  crc : crcMatches crc32 f pf
  data : f.Holds (pf + 16) e.data

/-- The flag has two bytes. -/
theorem flag_lt : e.flag < 65536 := by
  have := sizeAdjust_lt e.data.length
  unfold flag validEntryFlag erasedEntryFlag
  split <;> omega

/-- Where the bytes of an entry are, its fields are read. -/
theorem reads (h : f.Holds pf (e.bytes crc32 token)) (hsize : totalSize e.data.length < 65536) :
    e.Reads crc32 token f pf := by
  unfold bytes entryBytes at h
  rw [holds_append, holds_append, holds_append] at h
  obtain ⟨⟨⟨hmagic, hflag⟩, hcrc⟩, hchecked⟩ := h
  have htotal := headerSize_le_totalSize e.data.length
  have hu16 : uint16 (totalSize e.data.length) = totalSize e.data.length := uint16_natCast hsize
  have hparts := hchecked
  unfold checkedBytes at hparts
  rw [holds_append, holds_append, holds_append, hu16] at hparts
  obtain ⟨⟨⟨hsizeField, htoken⟩, hdata⟩, -⟩ := hparts
  have hread : Flashparams.size f pf = totalSize e.data.length :=
    toNat_of_holds hsizeField hsize
  refine ⟨toNat_of_holds hmagic (by decide), toNat_of_holds hflag e.flag_lt, hread,
    toNat_of_holds htoken token.isLt, ?_, hdata⟩
  have hlength : entryCrcLength f pf = totalSize e.data.length - 10 := by
    rw [entryCrcLength, hread]
    exact uint16_sub (by unfold sizeOffset; omega) hsize
  have hbytes : f.bytes (pf + sizeOffset) (totalSize e.data.length - 10) =
      checkedBytes token e.data := by
    rw [← length_checkedBytes]
    exact hchecked
  rw [crcMatches, hlength, hbytes, decide_eq_true_iff]
  rw [hu16, uint16_sub (by unfold sizeOffset; omega) hsize, take_of_length_le
    (by rw [length_checkedBytes]; exact Nat.le_refl _)] at hcrc
  exact toNat_of_holds hcrc (BitVec.isLt _)

end Entry

/-! ## The search for an entry -/

def encode (crc32 : Bytes → BitVec 32) (token : BitVec 32) (es : List Entry) : Bytes :=
  es.flatMap (Entry.bytes crc32 token)

def AllErased (es : List Entry) : Prop := ∀ e ∈ es, e.live = false

/-- Entries from an address on, not in the last word, and blank flash to the end of the sector. -/
structure EntriesAt (crc32 : Bytes → BitVec 32) (token : BitVec 32) (f : NorFlash) (addr size : ℕ)
    (es : List Entry) : Prop where
  holds : f.Holds addr (encode crc32 token es)
  blank : f.Blank (addr + (encode crc32 token es).length) (size - (encode crc32 token es).length)
  fits : es ≠ [] → (encode crc32 token es).length + 4 ≤ size
  size_lt : size < 65536

variable {crc32 : Bytes → BitVec 32} {token : BitVec 32} {addr size : ℕ} {es : List Entry}
  {e : Entry}

variable (crc32)

variable (token)

variable {es' : List Entry} {pe fuel required : ℕ}

/-- Entries follow each other. -/
theorem encode_append :
    encode crc32 token (es ++ es') = encode crc32 token es ++ encode crc32 token es' :=
  flatMap_append

theorem encode_cons : encode crc32 token (e :: es) = e.bytes crc32 token ++ encode crc32 token es :=
  flatMap_cons

theorem encode_singleton : encode crc32 token [e] = e.bytes crc32 token :=
  flatMap_singleton ..

/-- The end of the entries is aligned. -/
theorem encode_dvd (es : List Entry) : 4 ∣ (encode crc32 token es).length := by
  induction es with
  | nil => exact ⟨0, rfl⟩
  | cons e es ih =>
    rw [encode_cons, length_append, e.length_bytes]
    exact Nat.dvd_add (totalSize_dvd _) ih

/-- The search needs at most one step for each four bytes. -/
theorem length_le_encode (es : List Entry) : 4 * es.length ≤ (encode crc32 token es).length := by
  induction es with
  | nil => exact Nat.le_refl _
  | cons e es ih =>
    have := headerSize_le_totalSize e.data.length
    rw [encode_cons, length_append, e.length_bytes, length_cons]
    omega

variable {crc32}

variable {token}

namespace EntriesAt

section

variable (h : EntriesAt crc32 token f addr size (e :: es))
include h

/-- The first entry is read, and there is room behind the last one. -/
theorem head :
    e.Reads crc32 token f addr ∧
      totalSize e.data.length + (encode crc32 token es).length + 4 ≤ size := by
  have hfits := h.fits (cons_ne_nil _ _)
  rw [encode_cons, length_append, e.length_bytes] at hfits
  have hholds := h.holds
  rw [encode_cons, holds_append] at hholds
  have := h.size_lt
  exact ⟨Entry.reads hholds.1 (by omega), hfits⟩

/-- The other entries begin behind the first one. -/
theorem tail :
    EntriesAt crc32 token f (addr + totalSize e.data.length) (size - totalSize e.data.length)
      es := by
  obtain ⟨-, hfits⟩ := h.head
  have hholds := h.holds
  have hblank := h.blank
  rw [encode_cons, holds_append, e.length_bytes] at hholds
  rw [encode_cons, length_append, e.length_bytes] at hblank
  refine ⟨hholds.2, ?_, fun _ => by omega, ?_⟩
  · rw [Nat.add_assoc, Nat.sub_sub]
    exact hblank
  · have := h.size_lt
    omega

end

/-- The last entry is read behind the others. -/
theorem last (h : EntriesAt crc32 token f addr size (es ++ [e])) :
    e.Reads crc32 token f (addr + (encode crc32 token es).length) ∧
      (encode crc32 token es).length + totalSize e.data.length + 4 ≤ size := by
  have hfits := h.fits (append_ne_nil_of_right_ne_nil _ (cons_ne_nil _ _))
  have hholds := h.holds
  rw [encode_append, encode_singleton, length_append, e.length_bytes] at hfits
  rw [encode_append, encode_singleton, holds_append] at hholds
  have hlt := h.size_lt
  exact ⟨Entry.reads hholds.2 (by omega), hfits⟩

/-- Without entries, the area is blank. -/
theorem nil_iff : EntriesAt crc32 token f addr size [] ↔ f.Blank addr size ∧ size < 65536 := by
  constructor
  · exact fun h => ⟨h.blank, h.size_lt⟩
  · rintro ⟨hblank, hlt⟩
    exact ⟨rfl, hblank, fun h => absurd rfl h, hlt⟩

end EntriesAt

/-- Blank flash reads as the blank signature. -/
theorem magic_of_blank (h : f.Blank pf 4) : magic f pf = blankSig := by
  rw [magic, h.bytes]
  rfl

/-- Blank flash is recognised by its signature. -/
theorem blankMagic_of_blank (h : f.Blank pf 4) : blankMagic f pf := by
  rw [blankMagic, magic_of_blank h, decide_eq_true rfl]

/-- The blank signature is not a valid one. -/
theorem not_validMagic_of_blank (h : f.Blank pf 4) : validMagic f pf = false := by
  rw [validMagic, magic_of_blank h]
  rfl

/-- There is no entry in blank flash. -/
theorem findEntryLoop_blank
    (h : f.Blank pf (pe + 4 - pf)) : findEntryLoop crc32 f token pe fuel pf = none := by
  induction fuel generalizing pf with
  | zero => rfl
  | succ fuel ih =>
    by_cases hend : pf ≥ pe
    · rw [findEntryLoop, if_pos hend]
    · have hword : f.Blank pf 4 := h.mono (Nat.le_refl _) (by omega)
      rw [findEntryLoop, if_neg hend, not_validMagic_of_blank hword]
      exact ih (h.mono (by omega) (by omega))

namespace Entry.Reads

variable (h : e.Reads crc32 token f pf)
include h

/-- An entry that is not erased is valid. -/
theorem validEntry_eq : validEntry f pf = e.live := by
  have hadjust := sizeAdjust_lt e.data.length
  unfold validEntry
  rw [h.flag, Entry.flag]
  cases e.live with
  | false =>
    rw [if_neg Bool.false_ne_true]
    rfl
  | true =>
    generalize sizeAdjust e.data.length = adjust at hadjust
    revert adjust
    decide

/-- The flag of an entry says how many bytes were added. -/
theorem entrySizeAdjust_eq (he : e.live) : entrySizeAdjust f pf = sizeAdjust e.data.length := by
  have hadjust := sizeAdjust_lt e.data.length
  unfold entrySizeAdjust
  rw [h.flag, Entry.flag, if_pos he]
  generalize sizeAdjust e.data.length = adjust at hadjust
  revert adjust
  decide

/-- The length of the data is known from the size and the flag. -/
theorem entryDataLength_eq (he : e.live)
    (hlt : totalSize e.data.length < 65536) : entryDataLength f pf = e.data.length := by
  rw [entryDataLength, h.size, h.entrySizeAdjust_eq he]
  unfold totalSize at hlt ⊢
  unfold uint16
  omega

/-- No entry looks blank. -/
theorem not_blankEntry : blankEntry f pf = false := by
  rw [blankEntry, h.magic]
  rfl

/-- A round of the search at an entry. -/
theorem findEntryLoop_eq
    (hend : pf + totalSize e.data.length ≤ pe) (hlt : totalSize e.data.length < 65536) :
    findEntryLoop crc32 f token pe (fuel + 1) pf =
      if e.live then some pf
      else if pf + totalSize e.data.length ≥ pe || blankEntry f (pf + totalSize e.data.length) then
        none
      else findEntryLoop crc32 f token pe fuel (pf + totalSize e.data.length) := by
  have htotal := headerSize_le_totalSize e.data.length
  have hcrc : pf + sizeOffset + entryCrcLength f pf = pf + totalSize e.data.length := by
    have hlength : entryCrcLength f pf = totalSize e.data.length - 10 := by
      rw [entryCrcLength, h.size]
      exact uint16_sub (by unfold sizeOffset; omega) hlt
    unfold sizeOffset
    omega
  have hmagic : validMagic f pf := by rw [validMagic, h.magic, decide_eq_true rfl]
  rw [findEntryLoop, if_neg (by omega), hmagic, if_neg (by decide),
    if_neg (by unfold headerSize; omega), if_neg (by omega), if_pos h.crc, h.validEntry_eq,
    h.token, nextEntry, h.size, decide_eq_true rfl, Bool.and_true]

end Entry.Reads

namespace EntriesAt

/-- The search passes all erased entries and ends in the blank flash. -/
theorem findEntryLoop_none (h : EntriesAt crc32 token f addr size es) (herased : AllErased es)
    (fuel) : findEntryLoop crc32 f token (addr + size - 4) fuel addr = none := by
  induction es generalizing addr size fuel with
  | nil =>
    by_cases hsize : 4 ≤ size
    · exact findEntryLoop_blank (h.blank.mono (Nat.le_refl _) (by omega))
    cases fuel with
    | zero => rfl
    | succ fuel =>
      rw [findEntryLoop, if_pos (by omega)]
  | cons e es ih =>
    obtain ⟨hreads, hfits⟩ := h.head
    have hlt := h.size_lt
    cases fuel with
    | zero => rfl
    | succ fuel =>
      rw [hreads.findEntryLoop_eq (by omega) (by omega),
        herased e (List.mem_cons_self ..), if_neg Bool.false_ne_true]
      split_ifs
      · rfl
      · have hnext := ih h.tail (fun e he => herased e (mem_cons_of_mem _ he)) fuel
        rwa [show addr + totalSize e.data.length + (size - totalSize e.data.length) - 4 =
          addr + size - 4 by omega] at hnext

/-- The search finds the entry behind the erased ones. -/
theorem findEntryLoop_some (h : EntriesAt crc32 token f addr size (es ++ [e]))
    (herased : AllErased es) (he : e.live) (hfuel : es.length < fuel) :
    findEntryLoop crc32 f token (addr + size - 4) fuel addr =
      some (addr + (encode crc32 token es).length) := by
  induction es generalizing addr size fuel with
  | nil =>
    obtain ⟨hreads, hfits⟩ := h.head
    have hlt := h.size_lt
    obtain ⟨fuel, rfl⟩ : ∃ n, fuel = n + 1 := ⟨fuel - 1, by omega⟩
    rw [hreads.findEntryLoop_eq (by omega) (by omega), if_pos he]
    rfl
  | cons e' es ih =>
    rw [cons_append] at h
    obtain ⟨hreads, hfits⟩ := h.head
    have hlt := h.size_lt
    rw [length_cons] at hfuel
    obtain ⟨fuel, rfl⟩ : ∃ n, fuel = n + 1 := ⟨fuel - 1, by omega⟩
    have hnext := ih h.tail (fun e he => herased e (mem_cons_of_mem _ he))
      (show es.length < fuel by omega)
    -- behind the first entry lies another one
    obtain ⟨hnot, hbefore⟩ : blankEntry f (addr + totalSize e'.data.length) = false ∧
        ¬addr + totalSize e'.data.length ≥ addr + size - 4 := by
      obtain ⟨e'', es', heq⟩ : ∃ e'' es', es ++ [e] = e'' :: es' :=
        exists_cons_of_ne_nil (append_ne_nil_of_right_ne_nil _ (cons_ne_nil _ _))
      have htail := h.tail
      rw [heq] at htail
      have := headerSize_le_totalSize e''.data.length
      exact ⟨htail.head.1.not_blankEntry, by have := htail.head.2; omega⟩
    rw [hreads.findEntryLoop_eq (by omega) (by omega),
      herased e' (List.mem_cons_self ..), if_neg Bool.false_ne_true, hnot,
      decide_eq_false hbefore, Bool.or_false, if_neg Bool.false_ne_true,
      show addr + size - 4 = addr + totalSize e'.data.length +
        (size - totalSize e'.data.length) - 4 by omega, hnext, encode_cons, length_append,
      e'.length_bytes, add_assoc]

/-! ## Writing -/

section

variable (h : EntriesAt crc32 token f addr size es)
include h

/-- Entries are kept by what changes other places of the flash. -/
theorem sameOn (hsame : f.SameOn g addr size)
    (hused : (encode crc32 token es).length ≤ size) : EntriesAt crc32 token g addr size es where
  holds := (hsame.mono (Nat.le_refl _) (by omega)).holds h.holds
  blank := (hsame.mono (by omega) (by omega)).blank h.blank
  fits := h.fits
  size_lt := h.size_lt

/-- The entries are in the area. -/
theorem used_le : (encode crc32 token es).length ≤ size := by
  cases es with
  | nil => exact zero_le _
  | cons e es => exact le_of_add_right_le (h.fits (cons_ne_nil _ _))

/-- An entry that fits is written behind the others. -/
theorem program (e : Entry)
    (hfits : (encode crc32 token es).length + totalSize e.data.length + 4 ≤ size) :
    EntriesAt crc32 token
      (f.program (addr + (encode crc32 token es).length) (e.bytes crc32 token)) addr size
      (es ++ [e]) := by
  have hlength := e.length_bytes crc32 token
  refine ⟨?_, ?_, ?_, h.size_lt⟩
  · rw [encode_append, encode_singleton, holds_append]
    refine ⟨(program_sameOn (.inr (Nat.le_refl _))).holds h.holds, ?_⟩
    exact (h.blank.mono (Nat.le_refl _) (by omega)).program
  · rw [encode_append, encode_singleton, length_append]
    refine (program_sameOn (.inl ?_)).blank (h.blank.mono (by omega) (by omega))
    omega
  · rw [encode_append, encode_singleton, length_append]
    omega

end

variable {data : Bytes}

/-- Erasing the last entry changes its flag only. -/
theorem eraseEntry (h : EntriesAt crc32 token f addr size (es ++ [⟨data, true⟩])) :
    EntriesAt crc32 token (eraseEntry f (addr + (encode crc32 token es).length)) addr size
      (es ++ [⟨data, false⟩]) := by
  have hlength : (encode crc32 token (es ++ [⟨data, false⟩])).length =
      (encode crc32 token (es ++ [⟨data, true⟩])).length := by
    simp [encode_append, encode_singleton, Entry.length_bytes]
  have hused : (encode crc32 token (es ++ [⟨data, true⟩])).length =
      (encode crc32 token es).length + totalSize data.length := by
    simp [encode_append, encode_singleton, Entry.length_bytes]
  have htotal := headerSize_le_totalSize data.length
  refine ⟨?_, ?_, fun _ => ?_, h.size_lt⟩
  · have hholds := h.holds
    rw [encode_append, encode_singleton, holds_append] at hholds ⊢
    obtain ⟨hbefore, hentry⟩ := hholds
    refine ⟨(program_sameOn (.inr (by omega))).holds hbefore, ?_⟩
    unfold Entry.bytes entryBytes at hentry ⊢
    simp only [holds_append, length_append, length_toBytes, reduceAdd] at hentry ⊢
    obtain ⟨⟨⟨hmagic, -⟩, hcrc⟩, hchecked⟩ := hentry
    refine ⟨⟨⟨?_, ?_⟩, ?_⟩, ?_⟩
    · exact (program_sameOn (.inr (by simp))).holds hmagic
    · change (f.program _ (toBytes 2 erasedEntryFlag)).Holds _ (toBytes 2 erasedEntryFlag)
      exact program_zeros f _ 2
    · exact (program_sameOn (.inl (by simp))).holds hcrc
    · exact (program_sameOn (.inl (by simp))).holds hchecked
  · rw [hlength]
    refine (program_sameOn (.inl ?_)).blank h.blank
    rw [length_toBytes]
    omega
  · rw [hlength]
    exact h.fits (append_ne_nil_of_right_ne_nil _ (cons_ne_nil _ _))

end EntriesAt

/-! ## The search for space -/

/-- There is no room behind the end. -/
theorem findFreeLoop_none (h : pf ≤ pe → f.Blank pf (pe + 4 - pf))
    (hlarge : pe < pf + required / 4 * 4) : findFreeLoop crc32 f required pe fuel pf = none := by
  induction fuel generalizing pf with
  | zero => rfl
  | succ fuel ih =>
    unfold findFreeLoop
    split
    · rfl
    next pmagic hskip =>
      obtain rfl : pmagic = pf := by
        unfold skipEntry at hskip
        by_cases hword : pf ≤ pe
        · rw [not_validMagic_of_blank ((h hword).mono (Nat.le_refl _) (by omega))] at hskip
          cases hskip
          rfl
        · split_ifs at hskip with hmagic hheader
          · exact absurd (Nat.lt_of_not_le hword) (by omega)
          · exact absurd (Nat.lt_of_not_le hword) (by omega)
          · cases hskip
            rfl
      rw [decide_eq_false (by omega), Bool.false_and, Bool.false_and, Bool.false_and,
        if_neg Bool.false_ne_true]
      split_ifs
      · exact ih (fun hle => (h (by omega)).mono (by omega) (by omega)) (by omega)
      · rfl

/-- Blank flash of the size is free. -/
theorem findFreeLoop_some (h : f.Blank pf required) (hdvd : 4 ∣ required) (hheader : 16 ≤ required)
    (hfits : pf + required ≤ pe) : findFreeLoop crc32 f required pe (fuel + 1) pf = some pf := by
  have hword : f.Blank pf 4 := h.mono (Nat.le_refl _) (by omega)
  have hskip : skipEntry crc32 f pe pf = some pf := by
    rw [skipEntry, not_validMagic_of_blank hword]
    rfl
  have hflag : flag f pf = blankEntryFlag := by
    rw [flag, (h.mono (by omega) (by omega) : f.Blank (pf + 4) 2).bytes]
    rfl
  have hentry : blankEntry f pf := by
    rw [blankEntry, magic_of_blank hword, hflag]
    rfl
  have hcheck : blankCheck f pf required := by
    unfold blankCheck
    rw [all_eq_true]
    intro i hi
    have hi := mem_range.mp hi
    exact blankMagic_of_blank (h.mono (by omega) (by omega))
  rw [findFreeLoop, hskip]
  dsimp only
  rw [blankMagic_of_blank hword, hentry, hcheck, Nat.div_mul_cancel hdvd, decide_eq_true hfits]
  rfl

end Px4.Flashparams
