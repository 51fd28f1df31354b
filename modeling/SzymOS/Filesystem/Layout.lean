import SzymOS.Lib.Bytes
import Mathlib.Data.Fintype.Card

/-!
# The layout of SzymFS

`filesystem.h` declares the directory as two C structures, and the loops that load and save it
copy those structures as raw bytes, 512 at a time.  This file holds both views and the bijection
between them: the structures with their fields (`FileEntry`, `FilesystemHeader`), and their
bytes in memory as the 32-bit ABI lays them out (`entryByte`, `headerByte`), three padding bytes
after each `used` included.

The sector loops know nothing of fields, and the functions on files know nothing of sectors.  What
connects them is where each field lies.  The offsets here are those that the declarations of the
source give with the alignment of 32-bit words: an entry has a name of 32 bytes, two words, a byte
and three bytes of padding, and the header has two words before its entries.  The padding is kept,
because it is written to the disk like everything else and comes back from there.

An entry has 44 bytes, so both borders between the sectors of the header fall into an entry: into
number 11 and into number 23, and both times into its name.  The size, the offset and the `used`
byte of an entry always come from one sector, which is what makes a half-written header readable at
all.

* `headerOfBytes_headerByte`, `headerByte_headerOfBytes` — the two views determine each other.
* `headerByte_entry` — where the bytes of an entry lie; entries 11 and 23 straddle two sectors.
-/

set_option autoImplicit false

namespace SzymOS

open Bytes

/-! ## Constants of the header file -/

/-- `SZYMFS_MAGIC` -/
def szymfsMagic : UInt32 := 0x535A594D

/-- `MAX_FILES` -/
@[simp] abbrev maxFiles : ℕ := 32

/-- `MAX_FILENAME` -/
@[simp] abbrev maxFilename : ℕ := 32

/-- `MAX_FILE_SIZE` -/
@[simp] abbrev maxFileSize : ℕ := 4096

/-- `SECTOR_SIZE` -/
@[simp] abbrev sectorSize : ℕ := 512

/-- `FS_START_SECTOR` -/
@[simp] abbrev fsStartSector : ℕ := 2048

/-- `sizeof(fs_data)` -/
@[simp] abbrev fsDataSize : ℕ := 131072

/-- `sizeof(filesystem_header_t)`: two words and 32 entries of 44 bytes. -/
@[simp] abbrev headerSize : ℕ := 1416

/-- `HEADER_SECTORS` -/
@[simp] abbrev headerSectors : ℕ := 3

/-- `DATA_SECTORS` -/
@[simp] abbrev dataSectors : ℕ := 256

example : headerSectors = (headerSize + sectorSize - 1) / sectorSize ∧
    dataSectors = (fsDataSize + sectorSize - 1) / sectorSize ∧
    fsDataSize = maxFiles * maxFileSize ∧ headerSize = 8 + maxFiles * 44 := by decide

/-! ## The structures

The fields in the order of the declarations.  A sector is a function on its 512 places; where a
function of the source is given a pointer into a buffer, it is the bytes from there on. -/

/-- There is an entry number 0, and a first byte of its name. -/
instance neZeroMaxFiles : NeZero 32 := ⟨by decide⟩

/-- `file_entry_t`, with the padding the compiler puts after its last member. -/
@[ext] structure FileEntry where
  name : Fin 32 → UInt8
  size : UInt32
  offset : UInt32
  used : UInt8
  pad : Fin 3 → UInt8

/-- `filesystem_header_t` -/
@[ext] structure FilesystemHeader where
  magic : UInt32
  fileCount : UInt32
  files : Fin 32 → FileEntry

/-- A disk sector. -/
abbrev Sector := Fin 512 → UInt8

/-- Byte `j` of a sector. -/
def Sector.byte (s : Sector) (j : ℕ) : UInt8 := s (Fin.ofNat 512 j)

/-- The sector made of the 512 bytes that memory holds from address `off` on. -/
def Sector.ofMemory (mem : ℕ → UInt8) (off : ℕ) : Sector := fun j => mem (off + j)

@[simp] lemma Sector.byte_ofMemory (mem : ℕ → UInt8) (off : ℕ) {j : ℕ} (h : j < 512) :
    (Sector.ofMemory mem off).byte j = mem (off + j) := by
  simp only [Sector.byte, Sector.ofMemory, Fin.val_ofNat, Nat.mod_eq_of_lt h]

/-! ## Their bytes

The two views are given by two functions for each structure.  Bytes outside the structure do not
matter, and both directions are stated with that bound. -/

/-- Byte `k` of an entry, `k < 44`. -/
def entryByte (e : FileEntry) (k : ℕ) : UInt8 :=
  if h : k < 32 then e.name ⟨k, h⟩
  else if k < 36 then u32Byte e.size (k - 32)
  else if k < 40 then u32Byte e.offset (k - 36)
  else if k = 40 then e.used
  else e.pad (Fin.ofNat 3 (k - 41))

/-- The entry whose 44 bytes lie at `b`. -/
def entryOfBytes (b : ℕ → UInt8) : FileEntry where
  name i := b i
  size := u32Of fun k => b (32 + k)
  offset := u32Of fun k => b (36 + k)
  used := b 40
  pad i := b (41 + i)

/-- Byte `p` of the header, `p < 1416`. -/
def headerByte (h : FilesystemHeader) (p : ℕ) : UInt8 :=
  if p < 4 then u32Byte h.magic p
  else if p < 8 then u32Byte h.fileCount (p - 4)
  else entryByte (h.files (Fin.ofNat 32 ((p - 8) / 44))) ((p - 8) % 44)

/-- The header whose 1416 bytes lie at `b`. -/
def headerOfBytes (b : ℕ → UInt8) : FilesystemHeader where
  magic := u32Of b
  fileCount := u32Of fun k => b (4 + k)
  files i := entryOfBytes fun k => b (8 + 44 * i + k)

/-! ### Entries

Field by field, and then the two round trips. -/

lemma entryByte_name (e : FileEntry) {k : ℕ} (h : k < 32) : entryByte e k = e.name ⟨k, h⟩ :=
  dif_pos h

lemma entryByte_size (e : FileEntry) {k : ℕ} (h : k < 4) :
    entryByte e (32 + k) = u32Byte e.size k := by
  rw [entryByte, dif_neg (by omega), if_pos (by omega), Nat.add_sub_cancel_left]

lemma entryByte_offset (e : FileEntry) {k : ℕ} (h : k < 4) :
    entryByte e (36 + k) = u32Byte e.offset k := by
  rw [entryByte, dif_neg (by omega), if_neg (by omega), if_pos (by omega),
    Nat.add_sub_cancel_left]

lemma entryByte_used (e : FileEntry) : entryByte e 40 = e.used := by
  rw [entryByte, dif_neg (by omega), if_neg (by omega), if_neg (by omega), if_pos rfl]

lemma entryByte_pad (e : FileEntry) (i : Fin 3) : entryByte e (41 + i) = e.pad i := by
  rw [entryByte, dif_neg (by omega), if_neg (by omega), if_neg (by omega), if_neg (by omega),
    Nat.add_sub_cancel_left]
  simp

lemma entryOfBytes_congr {b b' : ℕ → UInt8} (h : ∀ k < 44, b k = b' k) :
    entryOfBytes b = entryOfBytes b' := by
  refine FileEntry.ext ?_ ?_ ?_ ?_ ?_
  · exact funext fun i => h i (by omega)
  · exact u32Of_congr fun k _ => h (32 + k) (by omega)
  · exact u32Of_congr fun k _ => h (36 + k) (by omega)
  · exact h 40 (by omega)
  · exact funext fun i => h (41 + i) (by omega)

/-- **An entry survives being written out as bytes.** -/
@[simp] theorem entryOfBytes_entryByte (e : FileEntry) : entryOfBytes (entryByte e) = e := by
  refine FileEntry.ext ?_ ?_ ?_ ?_ ?_
  · exact funext fun i => entryByte_name e i.isLt
  · calc u32Of (fun k => entryByte e (32 + k))
        = u32Of (u32Byte e.size) := u32Of_congr fun k hk => entryByte_size e hk
      _ = e.size := u32Of_u32Byte _
  · calc u32Of (fun k => entryByte e (36 + k))
        = u32Of (u32Byte e.offset) := u32Of_congr fun k hk => entryByte_offset e hk
      _ = e.offset := u32Of_u32Byte _
  · exact entryByte_used e
  · exact funext fun i => entryByte_pad e i

/-- **And its bytes survive being read as an entry.** -/
theorem entryByte_entryOfBytes (b : ℕ → UInt8) {k : ℕ} (hk : k < 44) :
    entryByte (entryOfBytes b) k = b k := by
  rw [entryByte]
  split_ifs with h1 h2 h3 h4
  · rfl
  · have h := u32Byte_u32Of (fun k => b (32 + k)) (k := k - 32) (by omega)
    rw [show 32 + (k - 32) = k by omega] at h
    exact h
  · have h := u32Byte_u32Of (fun k => b (36 + k)) (k := k - 36) (by omega)
    rw [show 36 + (k - 36) = k by omega] at h
    exact h
  · rw [h4]; rfl
  · simp only [entryOfBytes, Fin.val_ofNat]
    congr 1
    omega

/-- Only the name of an entry is in its first 32 bytes. -/
lemma entryOfBytes_of_tail {b : ℕ → UInt8} {e : FileEntry}
    (h : ∀ j, 32 ≤ j → j < 44 → b j = entryByte e j) :
    entryOfBytes b = { e with name := fun i => b i } := by
  refine FileEntry.ext rfl ?_ ?_ ?_ ?_
  · calc u32Of (fun k => b (32 + k))
        = u32Of (u32Byte e.size) := u32Of_congr fun k hk => by
          rw [h (32 + k) (by omega) (by omega), entryByte_size e hk]
      _ = e.size := u32Of_u32Byte _
  · calc u32Of (fun k => b (36 + k))
        = u32Of (u32Byte e.offset) := u32Of_congr fun k hk => by
          rw [h (36 + k) (by omega) (by omega), entryByte_offset e hk]
      _ = e.offset := u32Of_u32Byte _
  · exact (h 40 (by omega) (by omega)).trans (entryByte_used e)
  · exact funext fun i => (h (41 + i) (by omega) (by omega)).trans (entryByte_pad e i)

/-! ### The header

The header is its two words and the entries one after the other, so its round trips are those of the
words and of the entries. -/

/-- Where entry `i` lies. -/
lemma headerByte_entry (h : FilesystemHeader) (i : Fin 32) {k : ℕ} (hk : k < 44) :
    headerByte h (8 + 44 * i + k) = entryByte (h.files i) k := by
  have hdiv : (8 + 44 * (i : ℕ) + k - 8) / 44 = i := by omega
  have hmod : (8 + 44 * (i : ℕ) + k - 8) % 44 = k := by omega
  rw [headerByte, if_neg (by omega), if_neg (by omega), hdiv, hmod]
  simp

lemma headerByte_magic (h : FilesystemHeader) {p : ℕ} (hp : p < 4) :
    headerByte h p = u32Byte h.magic p := if_pos hp

lemma headerByte_fileCount (h : FilesystemHeader) {k : ℕ} (hk : k < 4) :
    headerByte h (4 + k) = u32Byte h.fileCount k := by
  rw [headerByte, if_neg (by omega), if_pos (by omega), Nat.add_sub_cancel_left]

lemma headerOfBytes_congr {b b' : ℕ → UInt8} (h : ∀ p < 1416, b p = b' p) :
    headerOfBytes b = headerOfBytes b' := by
  refine FilesystemHeader.ext ?_ ?_ ?_
  · exact u32Of_congr fun k _ => h k (by omega)
  · exact u32Of_congr fun k _ => h (4 + k) (by omega)
  · exact funext fun i => entryOfBytes_congr fun k _ => h (8 + 44 * i + k) (by omega)

/-- **The header survives being written out as bytes.** -/
@[simp] theorem headerOfBytes_headerByte (h : FilesystemHeader) :
    headerOfBytes (headerByte h) = h := by
  refine FilesystemHeader.ext ?_ ?_ ?_
  · calc u32Of (headerByte h)
        = u32Of (u32Byte h.magic) := u32Of_congr fun k hk => headerByte_magic h hk
      _ = h.magic := u32Of_u32Byte _
  · calc u32Of (fun k => headerByte h (4 + k))
        = u32Of (u32Byte h.fileCount) := u32Of_congr fun k hk => headerByte_fileCount h hk
      _ = h.fileCount := u32Of_u32Byte _
  · refine funext ?_
    intro i
    calc entryOfBytes (fun k => headerByte h (8 + 44 * i + k))
        = entryOfBytes (entryByte (h.files i)) :=
          entryOfBytes_congr fun k hk => headerByte_entry h i hk
      _ = h.files i := entryOfBytes_entryByte _

/-- **And its bytes survive being read as a header.** -/
theorem headerByte_headerOfBytes (b : ℕ → UInt8) {p : ℕ} (hp : p < 1416) :
    headerByte (headerOfBytes b) p = b p := by
  rw [headerByte]
  split_ifs with h1 h2
  · exact u32Byte_u32Of b h1
  · have h := u32Byte_u32Of (fun k => b (4 + k)) (k := p - 4) (by omega)
    rw [show 4 + (p - 4) = p by omega] at h
    exact h
  · simp only [headerOfBytes, Fin.val_ofNat]
    rw [entryByte_entryOfBytes _ (Nat.mod_lt _ (by omega))]
    congr 1
    omega

/-- Entry `i` of a header read from bytes is read from its own 44. -/
lemma headerOfBytes_files (b : ℕ → UInt8) (i : Fin 32) :
    (headerOfBytes b).files i = entryOfBytes fun k => b (8 + 44 * i + k) := rfl

end SzymOS
