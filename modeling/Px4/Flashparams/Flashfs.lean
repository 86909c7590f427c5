import Px4.Common.LittleEndian
import Px4.Common.NorFlash

/-!
# The flash file system of the parameters

`src/lib/parameters/flashparams/flashfs.c`: a file is an entry in a sector of NOR flash, with a
header in front of the data. A new version is written behind the old one, or at the beginning of the
next sector. `size_t` and `uint32_t` are unbounded, `h_size_t` and `data_size_t` have 16 bits.
-/

namespace Px4.Flashparams

open LittleEndian

/-- Bytes in memory. -/
abbrev Bytes := List UInt8

structure SectorDescriptor where
  page : ℕ
  size : ℕ
  address : ℕ

/-- `sector_map`, without its terminator. The sectors are different pages of the flash. -/
structure SectorMap where
  sectors : List SectorDescriptor
  ne_nil : sectors ≠ []
  page_pos : ∀ s ∈ sectors, 0 < s.page
  size_dvd : ∀ s ∈ sectors, 4 ∣ s.size
  size_lt : ∀ s ∈ sectors, s.size < 65536
  address_pos : ∀ s ∈ sectors, 0 < s.address
  pages_nodup : (sectors.map (·.page)).Nodup
  disjoint : sectors.Pairwise fun s t => NorFlash.Disjoint s.address s.size t.address t.size

def magicSig : ℕ := 0xaa553cc3

def blankSig : ℕ := 0xffffffff

def sizeMask : ℕ := 0x0003

/-- `MaskEntry`, for a flag. -/
def maskEntry : ℕ := 0xfffc

/-- `BlankEntry`. -/
def blankEntryFlag : ℕ := 0xffff

/-- `ValidEntry`. -/
def validEntryFlag : ℕ := 0xa5ac

/-- `ErasedEntry`. -/
def erasedEntryFlag : ℕ := 0x0000

/-- `sizeof(flash_entry_header_t)`. -/
def headerSize : ℕ := 16

/-- `offsetof(flash_entry_header_t, size)`. -/
def sizeOffset : ℕ := 10

/-- `parameters_token`: the characters `parm`. -/
def parametersToken : BitVec 32 := 0x6d726170

def enoent : ℤ := 2

def enospc : ℤ := 28

def uint16 (n : ℤ) : ℕ := (n % 65536).toNat

/-! ## Headers in flash -/

section Header

variable (f : NorFlash) (pf : ℕ)

def magic : ℕ := LittleEndian.toNat (f.bytes pf 4)

def flag : ℕ := LittleEndian.toNat (f.bytes (pf + 4) 2)

def crc : ℕ := LittleEndian.toNat (f.bytes (pf + 6) 4)

def size : ℕ := LittleEndian.toNat (f.bytes (pf + 10) 2)

def fileToken : ℕ := LittleEndian.toNat (f.bytes (pf + 12) 4)

/-- `blank_flash` and `blank_magic`. -/
def blankMagic : Bool := magic f pf = blankSig

def blankCheck (newSize : ℕ) : Bool :=
  (List.range (newSize / 4)).all fun i => blankMagic f (pf + 4 * i)

def validMagic : Bool := magic f pf = magicSig

def blankEntry : Bool := magic f pf = blankSig && flag f pf = blankEntryFlag

def validEntry : Bool := flag f pf &&& maskEntry = validEntryFlag

def entrySizeAdjust : ℕ := flag f pf &&& sizeMask

def nextEntry : ℕ := pf + size f pf

def entryDataLength : ℕ := uint16 (size f pf - (headerSize + entrySizeAdjust f pf))

def entryCrcLength : ℕ := uint16 (size f pf - sizeOffset)

end Header

/-! ## Searching -/

section Search

variable (crc32 : Bytes → BitVec 32) (f : NorFlash)

def crcMatches (pf : ℕ) : Bool :=
  crc f pf = (crc32 (f.bytes (pf + sizeOffset) (entryCrcLength f pf))).toNat

/-- The last word of a sector. -/
def SectorDescriptor.pe (s : SectorDescriptor) : ℕ := s.address + s.size / 4 * 4 - 4

/-- The loop of `find_entry` in a sector, in at most `fuel` rounds. -/
def findEntryLoop (token : BitVec 32) (pe : ℕ) : ℕ → ℕ → Option ℕ
  | 0, _ => none
  | fuel + 1, pmagic =>
    if pmagic ≥ pe then none
    else if !validMagic f pmagic then findEntryLoop token pe fuel (pmagic + 4)
    else if pmagic + headerSize > pe then none
    else if pmagic + sizeOffset + entryCrcLength f pmagic > pe then none
    else if crcMatches crc32 f pmagic then
      if validEntry f pmagic && fileToken f pmagic = token.toNat then some pmagic
      else if nextEntry f pmagic ≥ pe || blankEntry f (nextEntry f pmagic) then none
      else findEntryLoop token pe fuel (nextEntry f pmagic)
    else findEntryLoop token pe fuel (pmagic + 4)

/-- `find_entry`. A round goes on by a word at least. -/
def findEntry (map : SectorMap) (token : BitVec 32) : Option ℕ :=
  map.sectors.findSome? fun s =>
    findEntryLoop crc32 f token s.pe (s.size / 4 + 1) s.address

/-- Where a round of `find_free` looks, behind an entry whose header fits into the sector. -/
def skipEntry (pe pmagic : ℕ) : Option ℕ :=
  if validMagic f pmagic then
    if pmagic + headerSize > pe then none
    else if crcMatches crc32 f pmagic then some (nextEntry f pmagic)
    else some (pmagic + 4)
  else some pmagic

/-- The loop of `find_free` in a sector, in at most `fuel` rounds. -/
def findFreeLoop (required pe : ℕ) : ℕ → ℕ → Option ℕ
  | 0, _ => none
  | fuel + 1, pmagic =>
    match skipEntry crc32 f pe pmagic with
    | none => none
    | some pmagic =>
      if pmagic + required / 4 * 4 ≤ pe && blankMagic f pmagic && blankEntry f pmagic &&
          blankCheck f pmagic required then some pmagic
      else if pmagic + 4 < pe then findFreeLoop required pe fuel (pmagic + 4)
      else none

/-- `find_free`; its argument has 16 bits. -/
def findFree (map : SectorMap) (required : ℕ) : Option ℕ :=
  map.sectors.findSome? fun s =>
    findFreeLoop crc32 f (uint16 required) s.pe (s.size / 4 + 1) s.address

end Search

/-! ## Sectors -/

section Sectors

variable (map : SectorMap)

def SectorDescriptor.contains (s : SectorDescriptor) (addr : ℕ) : Bool :=
  s.address ≤ addr && addr ≤ s.address + s.size - 1

/-- `get_next_sector_descriptor`, by index. -/
def getNextSectorDescriptor (current : ℕ) : ℕ :=
  if current + 1 < map.sectors.length then current + 1 else 0

/-- `get_sector_info`, by index. -/
def getSectorInfo (current : ℕ) : Option ℕ :=
  map.sectors.findIdx? (·.contains current)

def getpage (addr : ℕ) : ℤ :=
  match map.sectors.find? (·.contains addr) with
  | some s => s.page
  | none => -1

def eraseblock (f : NorFlash) (block : ℤ) : NorFlash :=
  match map.sectors.find? (·.page = block) with
  | some s => f.erase s.address s.size
  | none => f

def eraseSector (f : NorFlash) (sm : SectorDescriptor) (pf : ℕ) : NorFlash :=
  let block := getpage map pf
  if block > 0 ∧ block = sm.page then eraseblock map f block else f

def eraseEntry (f : NorFlash) (pf : ℕ) : NorFlash :=
  f.program (pf + 4) (toBytes 2 erasedEntryFlag)

/-- `check_free_space_in_sector`: nothing if there is space, else the sector that has none. -/
def checkFreeSpaceInSector (f : NorFlash) (pf newSize : ℕ) : Option (ℕ × SectorDescriptor) :=
  match getSectorInfo map pf with
  | none => none
  | some i =>
    match map.sectors[i]? with
    | none => none
    | some sm =>
      let pnextEnd := (if validMagic f pf then nextEntry f pf else pf) + newSize
      if pnextEnd ≥ sm.address ∧ pnextEnd ≤ sm.address + sm.size - 1 then none else some (i, sm)

end Sectors

/-! ## The interface -/

section Interface

variable (crc32 : Bytes → BitVec 32) (map : SectorMap) (token : BitVec 32)

def sizeAdjust (bufSize : ℕ) : ℕ :=
  (bufSize + headerSize + 3) / 4 * 4 - (bufSize + headerSize)

def totalSize (bufSize : ℕ) : ℕ := bufSize + headerSize + sizeAdjust bufSize

/-- What the checksum covers, and lies behind it in the buffer: size, token, data and padding. -/
def checkedBytes (buffer : Bytes) : Bytes :=
  toBytes 2 (uint16 (totalSize buffer.length)) ++ toBytes 4 token.toNat ++
    buffer ++ List.replicate (sizeAdjust buffer.length) 0xff

/-- The entry in the buffer. -/
def entryBytes (entryFlag : ℕ) (buffer : Bytes) : Bytes :=
  toBytes 4 magicSig ++ toBytes 2 entryFlag ++ toBytes 4 (crc32 ((checkedBytes token buffer).take
      (uint16 (uint16 (totalSize buffer.length) - sizeOffset)))).toNat ++
    checkedBytes token buffer

/-- The end of `parameter_flashfs_write`: the entry is written. -/
def writeEntry (f : NorFlash) (pf : ℕ) (buffer : Bytes) : NorFlash × ℤ :=
  let entry := entryBytes crc32 token (validEntryFlag + sizeAdjust buffer.length) buffer
  let written := uint16 (totalSize buffer.length)
  let systemBytes := headerSize + sizeAdjust buffer.length
  (f.program pf (entry.take written),
    if written ≥ systemBytes then written - systemBytes else written)

def parameterFlashfsWrite (f : NorFlash) (buffer : Bytes) : NorFlash × ℤ :=
  let total := totalSize buffer.length
  match findEntry crc32 f map token with
  | none =>
    match findFree crc32 f map total with
    | none => (f, -enospc)
    | some pf => writeEntry crc32 token f pf buffer
  | some pf =>
    match checkFreeSpaceInSector map f pf total with
    | none =>
      let f := eraseEntry f pf
      writeEntry crc32 token f (nextEntry f pf) buffer
    | some (i, _) =>
      match map.sectors[getNextSectorDescriptor map i]? with
      | none => (f, -enospc)
      | some next =>
        if next.size < total then (f, -enospc)
        else
          let f := eraseEntry f pf
          let f :=
            if blankCheck f next.address total then f else eraseSector map f next next.address
          writeEntry crc32 token f next.address buffer

/-- `parameter_flashfs_read`: the value that it returns, and the data. -/
def parameterFlashfsRead (f : NorFlash) : ℤ × Bytes :=
  match findEntry crc32 f map token with
  | none => (-enoent, [])
  | some pf => (entryDataLength f pf, f.bytes (pf + headerSize) (entryDataLength f pf))

end Interface

end Px4.Flashparams
