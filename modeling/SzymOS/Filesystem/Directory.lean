import SzymOS.Filesystem.Code
import Mathlib.Data.Finset.Card
import Mathlib.Data.Fintype.Basic

/-!
# The directory: names, lookup, slots

What the lookups of `filesystem.c` find, in terms of the names the entries hold, and what
`fs_create_file` and `fs_delete_file` change.  Every later result about the file system rests on
the lemmas of this file, and none of them looks inside the functions again.

A directory in memory is more than a list of names.  Its arrays of names hold what earlier files
have left behind their NUL, the entries that are not in use hold old sizes and offsets, and a
directory that has come from a disk may hold names without any NUL.  None of this is visible in what
a lookup finds as long as the names in use have their NUL, and this is the first thing the file
shows.  After it, a directory is which slots are in use, with which names.

* `entryName`, `lookup` — the name an entry holds, and the first used entry with a given name.
* `fsFindFile_eq_lookup` — on a directory whose names are all terminated, `fs_find_file` is
  `lookup`: what lies in memory behind the names plays no part.
* `fsCreateFile_cases`, `fsDeleteFile_cases` — everything these two calls can do.
* `WellFormed` — the invariant of a directory the kernel itself has written.

The lemmas on the two calls come in three layers.  At the bottom is what an entry holds after it has
been filled or cleared (`fsFillSlot_files_self`, `nameBytes_storeName`,
`fileContent_fsFillSlot_self`), and that all other entries and contents are what they were.  In the
middle are the properties of a directory, each of them kept under the hypotheses that it needs.  At
the top are the inversions of the calls.  A proof about a call begins at the top, and uses the
middle for the state that it finds there.
-/

set_option autoImplicit false

namespace SzymOS

open Bytes

/-! ## Names

A name array holds the bytes before its first NUL.  `strcmp` stops there as well, so it decides
whether the array holds a given string, provided the NUL is inside the array. -/

/-- How many bytes a name array holds before its first NUL; 32 when it has none. -/
def nameLen (name : Fin 32 → UInt8) : ℕ := (Fin.find? fun k => name k == 0).elim 32 Fin.val

/-- The bytes before the first NUL. -/
def nameBytes (name : Fin 32 → UInt8) : List UInt8 :=
  slice (fun j => name (Fin.ofNat 32 j)) 0 (nameLen name)

/-- The name an entry holds. -/
def entryName (e : FileEntry) : List UInt8 := nameBytes e.name

lemma nameLen_le (name : Fin 32 → UInt8) : nameLen name ≤ 32 := by
  rw [nameLen]
  cases Fin.find? fun k => name k == 0 with
  | none => exact Nat.le_refl 32
  | some n => exact Nat.le_of_lt n.isLt

lemma nameLen_ne_zero (name : Fin 32 → UInt8) (k : Fin 32) (h : (k : ℕ) < nameLen name) :
    name k ≠ 0 := by
  rw [nameLen] at h
  cases hf : Fin.find? fun k => name k == 0 with
  | none => simpa using Fin.find?_eq_none_iff.mp hf k
  | some n =>
      rw [hf, Option.elim_some] at h
      simpa using (Fin.find?_eq_some_iff.mp hf).2 k h

lemma nameLen_zero (name : Fin 32 → UInt8) (h : nameLen name < 32) :
    name ⟨nameLen name, h⟩ = 0 := by
  have hlt := h
  rw [nameLen] at hlt
  cases hf : Fin.find? fun k => name k == 0 with
  | none => simp [hf] at hlt
  | some n =>
      have hn : nameLen name = n := by rw [nameLen, hf, Option.elim_some]
      have h0 := (Fin.find?_eq_some_iff.mp hf).1
      simpa [hn] using h0

/-- The first NUL fixes the length. -/
lemma nameLen_eq {name : Fin 32 → UInt8} {n : ℕ} (hn : n < 32) (h0 : name ⟨n, hn⟩ = 0)
    (hnz : ∀ k : Fin 32, (k : ℕ) < n → name k ≠ 0) : nameLen name = n := by
  have hf : Fin.find? (fun k => name k == 0) = some ⟨n, hn⟩ := by
    rw [Fin.find?_eq_some_iff]
    exact ⟨by simpa using h0, fun j hj => by simpa using hnz j hj⟩
  rw [nameLen, hf, Option.elim_some]

@[simp] lemma nameBytes_length (name : Fin 32 → UInt8) :
    (nameBytes name).length = nameLen name := by simp [nameBytes]

/-- The bytes before the first NUL, as a string. -/
def nameString (name : Fin 32 → UInt8) : CString where
  bytes := nameBytes name
  noNul := by
    intro b hb
    obtain ⟨j, hj, rfl⟩ := List.mem_map.mp hb
    have hle := nameLen_le name
    rw [List.mem_range] at hj
    refine nameLen_ne_zero name _ ?_
    simp only [Fin.val_ofNat]
    omega
  fits := by
    have hle := nameLen_le name
    rw [nameBytes_length]
    omega

lemma nameString_mem (name : Fin 32 → UInt8) {k : Fin 32} (hk : (k : ℕ) < nameLen name) :
    (nameString name).mem k = name k := by
  have hlen : (k : ℕ) < (nameString name).length := by
    rw [CString.length, nameString, nameBytes_length]
    exact hk
  rw [CString.mem_lt _ hlen]
  simp [nameString, nameBytes, slice]

/-- **When an entry holds a string.**  Exactly when its array starts with the bytes of the string
and their NUL; the array has room for strings shorter than 32 bytes only. -/
lemma nameBytes_eq_iff {name : Fin 32 → UInt8} {s : CString} (hterm : nameLen name < 32) :
    nameBytes name = s.bytes
      ↔ s.length < 32 ∧ ∀ k : Fin 32, (k : ℕ) ≤ s.length → name k = s.mem k := by
  constructor
  · intro h
    have hlen : nameLen name = s.length := by rw [← nameBytes_length, h]; rfl
    refine ⟨by omega, ?_⟩
    intro k hk
    rcases Nat.lt_or_eq_of_le hk with hlt | heq
    · have hget : ∀ j (hj : j < s.bytes.length), name (Fin.ofNat 32 (0 + j)) = s.bytes[j] := by
        rw [nameBytes, hlen] at h
        exact slice_eq_iff.mp h
      rw [s.mem_lt hlt, ← hget k hlt]
      simp
    · rw [heq, s.mem_length]
      have hz := nameLen_zero name hterm
      have hk' : k = ⟨nameLen name, hterm⟩ := Fin.ext (heq.trans hlen.symm)
      rw [hk', hz]
  · rintro ⟨hlt, h⟩
    have hlen : nameLen name = s.length := by
      refine nameLen_eq hlt ?_ ?_
      · rw [h ⟨s.length, hlt⟩ (Nat.le_refl _), s.mem_length]
      · intro k hk
        rw [h k (by omega)]
        exact s.mem_ne_zero hk
    rw [nameBytes, hlen]
    refine slice_eq_iff.mpr ?_
    intro j hj
    have hj' : j < s.length := hj
    have hmod : ((Fin.ofNat 32 (0 + j) : Fin 32) : ℕ) = j := by
      simp only [Fin.val_ofNat]
      omega
    rw [h _ (by omega), hmod, s.mem_lt hj']
    rfl

/-! ## The directory

The five properties are stated apart, since not all of them hold in all circumstances: a power
failure can spoil the count without spoiling anything else, and a name that is too long breaks
uniqueness alone.  A result then names the properties it needs, and `WellFormed` is what holds of a
directory that the kernel has written and no accident has touched. -/

namespace FilesystemHeader

/-- Slot `i` holds a file. -/
def Used (h : FilesystemHeader) (i : Fin 32) : Prop := (h.files i).used ≠ 0

instance (h : FilesystemHeader) (i : Fin 32) : Decidable (h.Used i) :=
  inferInstanceAs (Decidable ((h.files i).used ≠ 0))

/-- Every name in use has its NUL inside its array. -/
def Terminated (h : FilesystemHeader) : Prop := ∀ i, h.Used i → nameLen (h.files i).name < 32

/-- Every file lies in the 4096 bytes of its own slot. -/
def LaidOut (h : FilesystemHeader) : Prop :=
  ∀ i, h.Used i → (h.files i).size.toNat ≤ 4096 ∧ (h.files i).offset.toNat = 4096 * i

/-- No two files share a name. -/
def UniqueNames (h : FilesystemHeader) : Prop :=
  ∀ i j, h.Used i → h.Used j → entryName (h.files i) = entryName (h.files j) → i = j

/-- The slots in use. -/
def usedSlots (h : FilesystemHeader) : Finset (Fin 32) := Finset.univ.filter h.Used

/-- `file_count` is the number of used entries. -/
def Counted (h : FilesystemHeader) : Prop := h.fileCount.toNat = h.usedSlots.card

/-- What holds of every directory the kernel itself has written. -/
structure WellFormed (h : FilesystemHeader) : Prop where
  terminated : h.Terminated
  laidOut : h.LaidOut
  unique : h.UniqueNames
  counted : h.Counted

/-- No file at all. -/
def Empty (h : FilesystemHeader) : Prop := h.fileCount = 0 ∧ ∀ i, ¬ h.Used i

@[simp] lemma mem_usedSlots {h : FilesystemHeader} {i : Fin 32} : i ∈ h.usedSlots ↔ h.Used i := by
  simp [usedSlots]

lemma card_usedSlots_le (h : FilesystemHeader) : h.usedSlots.card ≤ 32 := by
  simpa using Finset.card_le_univ h.usedSlots

lemma Empty.wellFormed {h : FilesystemHeader} (he : h.Empty) : h.WellFormed where
  terminated i hi := absurd hi (he.2 i)
  laidOut i hi := absurd hi (he.2 i)
  unique i _ hi _ _ := absurd hi (he.2 i)
  counted := by
    have hnone : h.usedSlots = ∅ := Finset.filter_false_of_mem fun i _ => he.2 i
    rw [Counted, he.1, hnone]
    rfl

/-! ### Lookup

The first entry in use that has the name.  In a directory with unique names it is the only one. -/

/-- The first used entry with this name. -/
def lookup (h : FilesystemHeader) (name : List UInt8) : Option (Fin 32) :=
  Fin.find? fun i => decide (h.Used i) && (entryName (h.files i) == name)

lemma lookup_eq_some_iff {h : FilesystemHeader} {name : List UInt8} {i : Fin 32} :
    h.lookup name = some i ↔ (h.Used i ∧ entryName (h.files i) = name) ∧
      ∀ j < i, ¬ (h.Used j ∧ entryName (h.files j) = name) := by
  rw [lookup, Fin.find?_eq_some_iff]
  simp only [Bool.and_eq_true, decide_eq_true_eq, beq_iff_eq, Bool.and_eq_false_iff,
    decide_eq_false_iff_not, not_and_or, beq_eq_false_iff_ne, ne_eq]

lemma lookup_eq_none_iff {h : FilesystemHeader} {name : List UInt8} :
    h.lookup name = none ↔ ∀ i, h.Used i → entryName (h.files i) ≠ name := by
  rw [lookup, Fin.find?_eq_none_iff]
  simp only [Bool.and_eq_false_iff, decide_eq_false_iff_not, beq_eq_false_iff_ne, ne_eq,
    ← not_and_or, not_and]

/-- With unique names the used entry with a name is the one found. -/
lemma UniqueNames.lookup_eq_some_iff {h : FilesystemHeader} (hu : h.UniqueNames)
    {name : List UInt8} {i : Fin 32} :
    h.lookup name = some i ↔ h.Used i ∧ entryName (h.files i) = name := by
  rw [FilesystemHeader.lookup_eq_some_iff]
  refine ⟨fun hi => hi.1, fun hi => ⟨hi, ?_⟩⟩
  intro j hj hc
  have heq : j = i := hu j i hc.1 hi.1 (hc.2.trans hi.2.symm)
  exact absurd hj (by rw [heq]; exact Nat.lt_irrefl _)

/-- Names are still terminated after one entry has changed, if that entry's name is. -/
lemma Terminated.frame {h h' : FilesystemHeader} {slot : Fin 32} (hterm : h.Terminated)
    (hframe : ∀ i, i ≠ slot → h'.files i = h.files i)
    (hslot : h'.Used slot → nameLen (h'.files slot).name < 32) : h'.Terminated := by
  intro i hi
  by_cases heq : i = slot
  · rw [heq] at hi ⊢
    exact hslot hi
  · rw [Used, hframe i heq] at hi
    rw [hframe i heq]
    exact hterm i hi

/-- Lookup sees the used entries only, and of them only the names. -/
lemma lookup_congr {h h' : FilesystemHeader} {name : List UInt8}
    (hsame : ∀ i, (h.Used i ∧ entryName (h.files i) = name)
      ↔ (h'.Used i ∧ entryName (h'.files i) = name)) :
    h.lookup name = h'.lookup name := by
  rw [lookup, lookup]
  congr 1
  funext i
  rw [Bool.eq_iff_iff]
  simpa using hsame i

/-- A name that the one entry in question does not hold, neither before nor after, is found where
it was. -/
lemma lookup_frame {h h' : FilesystemHeader} {slot : Fin 32} {name : List UInt8}
    (hframe : ∀ i, i ≠ slot → h'.files i = h.files i)
    (hold : h.Used slot → entryName (h.files slot) ≠ name)
    (hnew : h'.Used slot → entryName (h'.files slot) ≠ name) : h'.lookup name = h.lookup name := by
  refine lookup_congr ?_
  intro i
  by_cases heq : i = slot
  · subst heq
    exact ⟨fun hi => absurd hi.2 (hnew hi.1), fun hi => absurd hi.2 (hold hi.1)⟩
  · rw [Used, Used, hframe i heq]

end FilesystemHeader

variable {σ : Type} (P : Platform σ)

lemma nameMemory_eq (w : World σ) (i j : Fin 32) :
    nameMemory P w i j = (w.fs.fsHeader.files i).name j := by
  have hlt : 8 + 44 * (i : ℕ) + j < headerSize := by
    simp only [headerSize]
    omega
  rw [nameMemory, headerMemory, if_pos hlt, headerByte_entry _ _ (by omega),
    entryByte_name _ j.isLt]

/-- `strcmp` against a terminated name array decides whether it holds that string. -/
lemma strcmp_nameMemory {w : World σ} {i : Fin 32}
    (hterm : nameLen (w.fs.fsHeader.files i).name < 32) (name : CString) :
    strcmp (nameMemory P w i) name = 0 ↔ entryName (w.fs.fsHeader.files i) = name.bytes := by
  rw [strcmp_eq_zero_iff, entryName, nameBytes_eq_iff hterm]
  constructor
  · intro h
    have hshort : name.length < 32 := by
      by_contra hlong
      -- the array has a NUL, and the string does not at that place
      have hz := nameLen_zero _ hterm
      have hmem := h (nameLen (w.fs.fsHeader.files i).name) (by omega)
      rw [nameMemory_eq P w i ⟨_, hterm⟩, hz] at hmem
      exact name.mem_ne_zero (by omega) hmem.symm
    refine ⟨hshort, ?_⟩
    intro k hk
    rw [← nameMemory_eq P w i k]
    exact h k hk
  · rintro ⟨hshort, h⟩ j hj
    have hmem := nameMemory_eq P w i ⟨j, by omega⟩
    rw [hmem]
    exact h ⟨j, by omega⟩ hj

/-! ### `fs_find_file`

The loop compares the name with the memory at each entry in use.  A name with its NUL is compared
within its own 32 bytes, whatever follows them. -/

/-- **`fs_find_file` on terminated names.**  It finds the first used entry with the name; what
lies in memory behind the name arrays plays no part. -/
theorem fsFindFile_eq_lookup {w : World σ} (hterm : w.fs.fsHeader.Terminated) (name : CString) :
    fsFindFile P w name = w.fs.fsHeader.lookup name.bytes := by
  rw [fsFindFile, FilesystemHeader.lookup]
  congr 1
  funext i
  rw [Bool.eq_iff_iff]
  simp only [Bool.and_eq_true, bne_iff_ne, ne_eq, beq_iff_eq, decide_eq_true_eq]
  refine and_congr_right ?_
  intro hi
  exact strcmp_nameMemory P (hterm i hi) name

/-- The entry is one that `fs_find_file` accepts, whatever the names hold. -/
def Matches (w : World σ) (name : CString) (i : Fin 32) : Prop :=
  w.fs.fsHeader.Used i ∧ strcmp (nameMemory P w i) name = 0

lemma fsFindFile_eq_some_iff {w : World σ} {name : CString} {i : Fin 32} :
    fsFindFile P w name = some i ↔ Matches P w name i ∧ ∀ j < i, ¬ Matches P w name j := by
  rw [fsFindFile, Fin.find?_eq_some_iff]
  simp [Matches, FilesystemHeader.Used]

lemma fsFindFile_eq_none_iff {w : World σ} {name : CString} :
    fsFindFile P w name = none ↔ ∀ j, ¬ Matches P w name j := by
  rw [fsFindFile, Fin.find?_eq_none_iff]
  simp [Matches, FilesystemHeader.Used]

/-- A file that is found is in use. -/
lemma fsFindFile_used {P : Platform σ} {w : World σ} {name : CString} {i : Fin 32}
    (h : fsFindFile P w name = some i) : w.fs.fsHeader.Used i :=
  ((fsFindFile_eq_some_iff P).mp h).1.1

/-! ## A save leaves the files alone

`fs_save_to_disk` reads the header and the data; of the module's variables it stores to
`fs_persistent` alone. -/

lemma fsReadSectorDirect_fs (lba : ℕ) (w : World σ) : (fsReadSectorDirect P lba w).2.fs = w.fs := by
  rw [fsReadSectorDirect]
  split <;> rfl

lemma fsWriteSectorDirect_fs (lba : ℕ) (buffer : Sector) (w : World σ) :
    (fsWriteSectorDirect P lba buffer w).2.fs = w.fs := by
  rw [fsWriteSectorDirect]
  split <;> rfl

/-- The write loops change no variable but `fs_persistent`. -/
lemma fsWriteSectors_fs (start : ℕ) (sectorBuffer : World σ → ℕ → Sector) (error : String)
    (n i : ℕ) (w : World σ) :
    ∃ b, (fsWriteSectors P start sectorBuffer error n i w).2.fs
      = { w.fs with fsPersistent := b } := by
  induction n generalizing i w with
  | zero => exact ⟨w.fs.fsPersistent, rfl⟩
  | succ n ih =>
      have hfs := fsWriteSectorDirect_fs P (start + i) (sectorBuffer w i) w
      simp only [fsWriteSectors]
      split_ifs
      · exact ⟨false, by simp only [World.print_fs, hfs]⟩
      · obtain ⟨b, hb⟩ := ih (i + 1) (fsWriteSectorDirect P (start + i) (sectorBuffer w i) w).2
        exact ⟨b, by rw [hb, hfs]⟩

lemma fsSaveToDisk_fs (w : World σ) :
    ∃ b, (fsSaveToDisk P w).fs = { w.fs with fsPersistent := b } := by
  rw [fsSaveToDisk]
  split_ifs
  · exact ⟨false, rfl⟩
  · obtain ⟨b, hb⟩ := fsWriteSectors_fs P fsStartSector (headerSectorBuffer P)
      "[ERROR] Failed to write filesystem header\n" headerSectors 0 w
    split
    · next _ w1 h1 =>
        rw [fsWriteHeaderSectors] at h1
        rw [h1] at hb
        exact ⟨b, hb⟩
    · next _ w1 h1 =>
        rw [fsWriteHeaderSectors] at h1
        rw [h1] at hb
        obtain ⟨c, hc⟩ := fsWriteSectors_fs P (fsStartSector + headerSectors) dataSectorBuffer
          "[ERROR] Failed to write filesystem data\n" dataSectors 0 w1
        simp only at hb
        rw [hb] at hc
        split
        · next _ w2 h2 =>
            rw [fsWriteDataSectors] at h2
            rw [h2] at hc
            exact ⟨c, hc⟩
        · next _ w2 h2 =>
            rw [fsWriteDataSectors] at h2
            rw [h2] at hc
            refine ⟨c, ?_⟩
            split_ifs
            · rw [World.print_fs]; exact hc
            · exact hc

@[simp] lemma fsSaveToDisk_fsHeader (w : World σ) :
    (fsSaveToDisk P w).fs.fsHeader = w.fs.fsHeader := by
  obtain ⟨b, hb⟩ := fsSaveToDisk_fs P w
  rw [hb]

@[simp] lemma fsSaveToDisk_fsData (w : World σ) :
    (fsSaveToDisk P w).fs.fsData = w.fs.fsData := by
  obtain ⟨b, hb⟩ := fsSaveToDisk_fs P w
  rw [hb]

@[simp] lemma fsSaveToDisk_fsInitialized (w : World σ) :
    (fsSaveToDisk P w).fs.fsInitialized = w.fs.fsInitialized := by
  obtain ⟨b, hb⟩ := fsSaveToDisk_fs P w
  rw [hb]

@[simp] lemma fsSaveToDisk_fsDriveSelected (w : World σ) :
    (fsSaveToDisk P w).fs.fsDriveSelected = w.fs.fsDriveSelected := by
  obtain ⟨b, hb⟩ := fsSaveToDisk_fs P w
  rw [hb]

@[simp] lemma fsSaveToDisk_selectedDrive (w : World σ) :
    (fsSaveToDisk P w).fs.selectedDrive = w.fs.selectedDrive := by
  obtain ⟨b, hb⟩ := fsSaveToDisk_fs P w
  rw [hb]

/-! ## Creating and deleting

Both functions are inverted once: what they can return, under which condition, and in which state.
The inversion is complete, so that whoever wants to know something about a creation or a deletion
takes it apart by cases on these lemmas and never unfolds it. -/

lemma fsFindFreeSlot_eq_some_iff {h : FilesystemHeader} {i : Fin 32} :
    fsFindFreeSlot h = some i ↔ ¬ h.Used i ∧ ∀ j < i, h.Used j := by
  rw [fsFindFreeSlot, Fin.find?_eq_some_iff]
  simp [FilesystemHeader.Used]

lemma fsFindFreeSlot_eq_none_iff {h : FilesystemHeader} :
    fsFindFreeSlot h = none ↔ ∀ i, h.Used i := by
  rw [fsFindFreeSlot, Fin.find?_eq_none_iff]
  simp [FilesystemHeader.Used]

lemma contentLen_toNat (content : CString) : (contentLen content).toNat = content.length := by
  rw [contentLen, strlen_mem, UInt32.toNat_ofNat']
  exact Nat.mod_eq_of_lt content.fits

lemma contentLen_gt_iff (content : CString) :
    contentLen content > UInt32.ofNat maxFileSize ↔ 4096 < content.length := by
  rw [gt_iff_lt, UInt32.lt_iff_toNat_lt, contentLen_toNat]
  rfl

/-- `size`, limited by the caller's buffer, if there is one. -/
lemma readSize_toNat (size : UInt32) {maxSize : UInt32} (hmax : 1 ≤ maxSize.toNat) :
    (readSize size maxSize).toNat = min size.toNat (maxSize.toNat - 1) := by
  have hpred : (maxSize - 1).toNat = maxSize.toNat - 1 := by
    rw [UInt32.toNat_sub_of_le, UInt32.toNat_one]
    rw [UInt32.le_iff_toNat_le, UInt32.toNat_one]
    exact hmax
  rw [readSize]
  split_ifs with h
  · rw [gt_iff_lt, UInt32.lt_iff_toNat_lt, hpred] at h
    omega
  · rw [gt_iff_lt, UInt32.lt_iff_toNat_lt, hpred] at h
    omega

/-- **All `fs_create_file` can do.**  It reports why it refused and changes nothing, or it fills
the first free slot and saves. -/
theorem fsCreateFile_cases (name content : CString) (w : World σ) (hinit : w.fs.fsInitialized) :
    ((fsFindFile P w name).isSome ∧ fsCreateFile P name content w = (-2, w)) ∨
    (fsFindFile P w name = none ∧ fsFindFreeSlot w.fs.fsHeader = none ∧
      fsCreateFile P name content w = (-3, w)) ∨
    (∃ slot, fsFindFile P w name = none ∧ fsFindFreeSlot w.fs.fsHeader = some slot ∧
      4096 < content.length ∧ fsCreateFile P name content w = (-4, w)) ∨
    (∃ slot, fsFindFile P w name = none ∧ fsFindFreeSlot w.fs.fsHeader = some slot ∧
      content.length ≤ 4096 ∧ fsCreateFile P name content w
        = (0, fsSaveToDisk P { w with fs := fsFillSlot slot name content w.fs })) := by
  rw [fsCreateFile, if_neg (by simp [hinit])]
  cases hfind : fsFindFile P w name with
  | some i => exact Or.inl ⟨rfl, by simp⟩
  | none =>
      rw [if_neg (by simp)]
      cases hslot : fsFindFreeSlot w.fs.fsHeader with
      | none => exact Or.inr (Or.inl ⟨rfl, rfl, rfl⟩)
      | some slot =>
          refine Or.inr (Or.inr ?_)
          by_cases hlen : 4096 < content.length
          · exact Or.inl ⟨slot, rfl, rfl, hlen, if_pos ((contentLen_gt_iff content).mpr hlen)⟩
          · refine Or.inr ⟨slot, rfl, rfl, by omega, ?_⟩
            exact if_neg fun h => hlen ((contentLen_gt_iff content).mp h)

/-- **All `fs_delete_file` can do.** -/
theorem fsDeleteFile_cases (name : CString) (w : World σ) (hinit : w.fs.fsInitialized) :
    (fsFindFile P w name = none ∧ fsDeleteFile P name w = (-1, w)) ∨
    (∃ slot, fsFindFile P w name = some slot ∧ fsDeleteFile P name w
        = (0, fsSaveToDisk P { w with fs := fsClearSlot slot w.fs })) := by
  rw [fsDeleteFile, if_neg (by simp [hinit])]
  cases hfind : fsFindFile P w name with
  | none => exact Or.inl ⟨rfl, rfl⟩
  | some slot => exact Or.inr ⟨slot, rfl, rfl⟩

/-- A creation that reports success has filled the first free slot and saved. -/
lemma fsCreateFile_of_zero {P : Platform σ} {name content : CString} {w : World σ}
    (h : (fsCreateFile P name content w).1 = 0) :
    ∃ slot, fsFindFile P w name = none ∧ fsFindFreeSlot w.fs.fsHeader = some slot ∧
      content.length ≤ 4096 ∧ fsCreateFile P name content w
        = (0, fsSaveToDisk P { w with fs := fsFillSlot slot name content w.fs }) := by
  have hinit : w.fs.fsInitialized := by
    by_contra hc
    rw [fsCreateFile, if_pos (by simpa using hc)] at h
    exact absurd h (by simp)
  rcases fsCreateFile_cases P name content w hinit with
    ⟨-, hr⟩ | ⟨-, -, hr⟩ | ⟨_, -, -, -, hr⟩ | hfill
  · rw [hr] at h; exact absurd h (by simp)
  · rw [hr] at h; exact absurd h (by simp)
  · rw [hr] at h; exact absurd h (by simp)
  · exact hfill

/-- A creation that reports anything else has changed nothing. -/
lemma fsCreateFile_of_nonzero {P : Platform σ} {name content : CString} {w : World σ}
    (h : (fsCreateFile P name content w).1 ≠ 0) : (fsCreateFile P name content w).2 = w := by
  by_cases hinit : w.fs.fsInitialized
  swap
  · rw [fsCreateFile, if_pos (by simpa using hinit)]
  rcases fsCreateFile_cases P name content w hinit with
    ⟨-, hr⟩ | ⟨-, -, hr⟩ | ⟨_, -, -, -, hr⟩ | ⟨_, -, -, -, hr⟩
  · rw [hr]
  · rw [hr]
  · rw [hr]
  · rw [hr] at h; exact absurd rfl h

/-- A deletion that reports success has cleared the slot it found and saved. -/
lemma fsDeleteFile_of_zero {P : Platform σ} {name : CString} {w : World σ}
    (h : (fsDeleteFile P name w).1 = 0) :
    ∃ slot, fsFindFile P w name = some slot ∧ fsDeleteFile P name w
        = (0, fsSaveToDisk P { w with fs := fsClearSlot slot w.fs }) := by
  have hinit : w.fs.fsInitialized := by
    by_contra hc
    rw [fsDeleteFile, if_pos (by simpa using hc)] at h
    exact absurd h (by simp)
  rcases fsDeleteFile_cases P name w hinit with ⟨-, hr⟩ | hclear
  · rw [hr] at h; exact absurd h (by simp)
  · exact hclear

/-- A deletion that reports anything else has changed nothing. -/
lemma fsDeleteFile_of_nonzero {P : Platform σ} {name : CString} {w : World σ}
    (h : (fsDeleteFile P name w).1 ≠ 0) : (fsDeleteFile P name w).2 = w := by
  by_cases hinit : w.fs.fsInitialized
  swap
  · rw [fsDeleteFile, if_pos (by simpa using hinit)]
  rcases fsDeleteFile_cases P name w hinit with ⟨-, hr⟩ | ⟨_, -, hr⟩
  · rw [hr]
  · rw [hr] at h; exact absurd rfl h

/-! ### What a filled slot holds -/

/-- The name a file gets: its first 31 bytes. -/
def storedName (name : CString) : List UInt8 := name.bytes.take 31

lemma storedNameLen_eq (name : CString) : storedNameLen name = min name.length 31 := by
  rw [storedNameLen, strlen_mem]
  simp only [maxFilename]
  split_ifs <;> omega

lemma storedName_of_short {name : CString} (h : name.length < 32) :
    storedName name = name.bytes :=
  List.take_of_length_le (by rw [CString.length] at h; omega)

lemma nameLen_storeName (old : Fin 32 → UInt8) (name : CString) :
    nameLen (storeName old name) = min name.length 31 := by
  have hlen := storedNameLen_eq name
  refine nameLen_eq (n := min name.length 31) (by omega) ?_ ?_
  · rw [storeName, if_neg (by simp [hlen]), if_pos hlen.symm]
  · intro k hk
    rw [storeName, if_pos (by omega)]
    exact name.mem_ne_zero (by omega)

/-- An entry just written holds the name cut to 31 bytes. -/
lemma nameBytes_storeName (old : Fin 32 → UInt8) (name : CString) :
    nameBytes (storeName old name) = storedName name := by
  have hlen : (storedName name).length = min name.length 31 := by
    rw [storedName, List.length_take, CString.length, Nat.min_comm]
  rw [nameBytes, nameLen_storeName, ← hlen]
  refine slice_eq_iff.mpr ?_
  intro j hj
  have hmod : ((Fin.ofNat 32 (0 + j) : Fin 32) : ℕ) = j := by
    simp only [Fin.val_ofNat]
    omega
  have hj' : j < name.length := by omega
  have hstored := storedNameLen_eq name
  rw [storeName, if_pos (by omega), hmod, name.mem_lt hj']
  simp only [storedName, List.getElem_take]
  rfl

variable {slot i : Fin 32} {name content : CString} {s : FsState}

@[simp] lemma fsFillSlot_files_self : (fsFillSlot slot name content s).fsHeader.files slot
    = { s.fsHeader.files slot with
        name := storeName (s.fsHeader.files slot).name name
        size := contentLen content
        offset := UInt32.ofNat (slot * maxFileSize)
        used := 1 } := by simp [fsFillSlot]

lemma fsFillSlot_files_of_ne (h : i ≠ slot) :
    (fsFillSlot slot name content s).fsHeader.files i = s.fsHeader.files i := by
  simp [fsFillSlot, Function.update_of_ne h]

@[simp] lemma fsClearSlot_files_self : (fsClearSlot slot s).fsHeader.files slot
    = { s.fsHeader.files slot with
        used := 0
        name := Function.update (s.fsHeader.files slot).name 0 0 } := by simp [fsClearSlot]

lemma fsClearSlot_files_of_ne (h : i ≠ slot) :
    (fsClearSlot slot s).fsHeader.files i = s.fsHeader.files i := by
  simp [fsClearSlot, Function.update_of_ne h]

lemma fsFillSlot_used_iff : (fsFillSlot slot name content s).fsHeader.Used i
    ↔ i = slot ∨ s.fsHeader.Used i := by
  by_cases h : i = slot
  · subst h
    simp [FilesystemHeader.Used]
  · simp only [FilesystemHeader.Used, fsFillSlot_files_of_ne h, h, false_or]

lemma fsClearSlot_used_iff : (fsClearSlot slot s).fsHeader.Used i
    ↔ i ≠ slot ∧ s.fsHeader.Used i := by
  by_cases h : i = slot
  · subst h
    simp [FilesystemHeader.Used]
  · simp only [FilesystemHeader.Used, fsClearSlot_files_of_ne h, h, ne_eq, not_false_iff, true_and]

lemma slotOffset_toNat (slot : Fin 32) :
    (UInt32.ofNat (slot * maxFileSize)).toNat = 4096 * slot := by
  rw [UInt32.toNat_ofNat']
  simp only [maxFileSize]
  omega

lemma fsFillSlot_usedSlots : (fsFillSlot slot name content s).fsHeader.usedSlots
    = insert slot s.fsHeader.usedSlots := by
  ext i
  simp [fsFillSlot_used_iff]

lemma fsClearSlot_usedSlots : (fsClearSlot slot s).fsHeader.usedSlots
    = s.fsHeader.usedSlots.erase slot := by
  ext i
  simp [fsClearSlot_used_iff]

/-! ### The invariant, part by part

Filling a slot and clearing it, each of the properties in turn.  Only the properties that are needed
are assumed. -/

lemma fsFillSlot_terminated (h : s.fsHeader.Terminated) :
    (fsFillSlot slot name content s).fsHeader.Terminated := by
  intro i hi
  by_cases heq : i = slot
  · subst heq
    rw [fsFillSlot_files_self, nameLen_storeName]
    omega
  · rw [fsFillSlot_files_of_ne heq]
    exact h i ((fsFillSlot_used_iff.mp hi).resolve_left heq)

lemma fsFillSlot_laidOut (hlen : content.length ≤ 4096) (h : s.fsHeader.LaidOut) :
    (fsFillSlot slot name content s).fsHeader.LaidOut := by
  intro i hi
  by_cases heq : i = slot
  · subst heq
    rw [fsFillSlot_files_self]
    exact ⟨by rw [contentLen_toNat]; exact hlen, slotOffset_toNat i⟩
  · rw [fsFillSlot_files_of_ne heq]
    exact h i ((fsFillSlot_used_iff.mp hi).resolve_left heq)

lemma fsFillSlot_unique (hfresh : s.fsHeader.lookup (storedName name) = none)
    (h : s.fsHeader.UniqueNames) : (fsFillSlot slot name content s).fsHeader.UniqueNames := by
  have hnew := FilesystemHeader.lookup_eq_none_iff.mp hfresh
  have hslot : entryName ((fsFillSlot slot name content s).fsHeader.files slot)
      = storedName name := by
    rw [fsFillSlot_files_self]
    exact nameBytes_storeName _ _
  intro i j hi hj hname
  by_cases hi' : i = slot
  · by_cases hj' : j = slot
    · rw [hi', hj']
    · subst hi'
      rw [hslot, fsFillSlot_files_of_ne hj'] at hname
      exact absurd hname.symm (hnew j ((fsFillSlot_used_iff.mp hj).resolve_left hj'))
  · have hui := (fsFillSlot_used_iff.mp hi).resolve_left hi'
    rw [fsFillSlot_files_of_ne hi'] at hname
    by_cases hj' : j = slot
    · subst hj'
      rw [hslot] at hname
      exact absurd hname (hnew i hui)
    · rw [fsFillSlot_files_of_ne hj'] at hname
      exact h i j hui ((fsFillSlot_used_iff.mp hj).resolve_left hj') hname

lemma fsFillSlot_counted (hfree : ¬ s.fsHeader.Used slot) (h : s.fsHeader.Counted) :
    (fsFillSlot slot name content s).fsHeader.Counted := by
  have hcard := s.fsHeader.card_usedSlots_le
  have hcount : s.fsHeader.fileCount.toNat = s.fsHeader.usedSlots.card := h
  have hsucc : (s.fsHeader.fileCount + 1).toNat = s.fsHeader.fileCount.toNat + 1 := by
    rw [UInt32.toNat_add, UInt32.toNat_one]
    omega
  rw [FilesystemHeader.Counted, fsFillSlot_usedSlots,
    Finset.card_insert_of_notMem (by simpa using hfree)]
  exact hsucc.trans (by rw [hcount])

lemma fsClearSlot_terminated (h : s.fsHeader.Terminated) :
    (fsClearSlot slot s).fsHeader.Terminated := by
  intro i hi
  obtain ⟨hne, hu⟩ := fsClearSlot_used_iff.mp hi
  rw [fsClearSlot_files_of_ne hne]
  exact h i hu

lemma fsClearSlot_laidOut (h : s.fsHeader.LaidOut) : (fsClearSlot slot s).fsHeader.LaidOut := by
  intro i hi
  obtain ⟨hne, hu⟩ := fsClearSlot_used_iff.mp hi
  rw [fsClearSlot_files_of_ne hne]
  exact h i hu

lemma fsClearSlot_unique (h : s.fsHeader.UniqueNames) :
    (fsClearSlot slot s).fsHeader.UniqueNames := by
  intro i j hi hj hname
  obtain ⟨hni, hui⟩ := fsClearSlot_used_iff.mp hi
  obtain ⟨hnj, huj⟩ := fsClearSlot_used_iff.mp hj
  rw [fsClearSlot_files_of_ne hni, fsClearSlot_files_of_ne hnj] at hname
  exact h i j hui huj hname

/-- The count goes down by one; it was not zero, since the slot was in use. -/
lemma fsClearSlot_counted (hused : s.fsHeader.Used slot) (h : s.fsHeader.Counted) :
    (fsClearSlot slot s).fsHeader.Counted ∧ 1 ≤ s.fsHeader.fileCount.toNat := by
  have hcount : s.fsHeader.fileCount.toNat = s.fsHeader.usedSlots.card := h
  have hmem : slot ∈ s.fsHeader.usedSlots := by simpa using hused
  have hpos : 1 ≤ s.fsHeader.usedSlots.card := Finset.card_pos.mpr ⟨slot, hmem⟩
  have hpred : (s.fsHeader.fileCount - 1).toNat = s.fsHeader.fileCount.toNat - 1 := by
    rw [UInt32.toNat_sub_of_le, UInt32.toNat_one]
    rw [UInt32.le_iff_toNat_le, UInt32.toNat_one]
    omega
  refine ⟨?_, by omega⟩
  rw [FilesystemHeader.Counted, fsClearSlot_usedSlots, Finset.card_erase_of_mem hmem, ← hcount]
  exact hpred

/-! ### Contents

The content of a file is a slice of the data.  A creation writes into the 4096 bytes of its slot,
and a deletion writes nothing, so the slices of other slots are what they were. -/

/-- The bytes of the file in slot `i`. -/
def fileContent (s : FsState) (i : Fin 32) : List UInt8 :=
  slice s.fsData (s.fsHeader.files i).offset.toNat (s.fsHeader.files i).size.toNat

lemma fsFillSlot_fsData : (fsFillSlot slot name content s).fsData
    = splice s.fsData (4096 * slot) content.length content.mem := by
  have hdata : (fsFillSlot slot name content s).fsData
      = splice s.fsData (UInt32.ofNat (slot * maxFileSize)).toNat (contentLen content).toNat
          content.mem := rfl
  rw [hdata, slotOffset_toNat, contentLen_toNat]

/-- The file just created holds its content. -/
lemma fileContent_fsFillSlot_self :
    fileContent (fsFillSlot slot name content s) slot = content.bytes := by
  rw [fileContent, fsFillSlot_files_self]
  simp only [contentLen_toNat, slotOffset_toNat]
  refine slice_eq_iff.mpr ?_
  intro j hj
  have hj' : j < content.length := hj
  rw [fsFillSlot_fsData, splice_inside (by omega) (by omega), Nat.add_sub_cancel_left,
    content.mem_lt hj']
  rfl

/-- Outside the 4096 bytes of its slot, creation leaves the data alone. -/
lemma fsFillSlot_fsData_outside (hlen : content.length ≤ 4096) {p : ℕ}
    (hp : p < 4096 * slot ∨ 4096 * slot + 4096 ≤ p) :
    (fsFillSlot slot name content s).fsData p = s.fsData p := by
  rw [fsFillSlot_fsData]
  exact splice_outside (by omega)

/-- **Creation keeps the other files.** -/
lemma fileContent_fsFillSlot_of_ne (hlen : content.length ≤ 4096) (hlaid : s.fsHeader.LaidOut)
    (hi : s.fsHeader.Used i) (hne : i ≠ slot) :
    fileContent (fsFillSlot slot name content s) i = fileContent s i := by
  obtain ⟨hsize, hoff⟩ := hlaid i hi
  have hne' : (i : ℕ) ≠ slot := fun h => hne (Fin.ext h)
  rw [fileContent, fsFillSlot_files_of_ne hne, fileContent]
  exact slice_congr fun j hj => fsFillSlot_fsData_outside hlen (by omega)

/-- **Deletion keeps the other files.** -/
lemma fileContent_fsClearSlot_of_ne (hne : i ≠ slot) :
    fileContent (fsClearSlot slot s) i = fileContent s i := by
  rw [fileContent, fsClearSlot_files_of_ne hne, fileContent]
  rfl

end SzymOS
