import SzymOS.Filesystem.SaveLoad

/-!
# The image an interrupted save leaves

A save that stops after `k` sectors leaves the first `512 * k` bytes of the new image and the rest
of the old one.  The boundary can run through an entry: entries 11 and 23 straddle two sectors.
But it always runs through the *name*, so that size, offset and used byte of an entry come from
one image, and only its name can be a mixture.

A mixture of two headers is again a header, and the question is which of the properties of a
directory it has.  Those that are about one entry at a time, such as where the file lies, it has
whenever both headers have them.  Those that tie entries together it may lack: the count comes from
the first sector, the entries from all three, and two entries may have one name if one of them comes
from the old image.

The same mixture comes about in another way, when a boot reads the first sectors of a header and
fails at the next.  Then the old header is that of the empty file system in memory.

* `diskHeader_save_cut`, `diskData_save_cut` — the torn image, as a header and as data.
* `tornHeader_files_reached`, `tornHeader_files_kept` — its entries.
* `reboot_save_cut` — what the next boot finds.
* `reboot_header` — a boot that cannot read the whole header ends with a torn one, too.
-/

set_option autoImplicit false

namespace SzymOS

open Bytes Blocks

/-! ## Headers

The torn header is defined on bytes, like the loops that make it.  The lemmas say what its fields
are.  An entry is the new one if its `used` byte has been written; if it has not, all fields are the
old ones but for the beginning of the name, in the two entries that lie across a border. -/

/-- The header whose first `512 * k` bytes come from `new` and whose other bytes come from
`old`. -/
def tornHeader (old new : FilesystemHeader) (k : ℕ) : FilesystemHeader :=
  headerOfBytes fun p => if p < 512 * k then headerByte new p else headerByte old p

/-- The sector of the header that holds the used byte of a slot. -/
def usedByteSector (slot : Fin 32) : ℕ := (8 + 44 * slot + 40) / 512

section Torn

variable {old new : FilesystemHeader} {k : ℕ}

lemma tornHeader_zero : tornHeader old new 0 = old :=
  (headerOfBytes_congr fun _ _ => if_neg (by omega)).trans (headerOfBytes_headerByte old)

lemma tornHeader_all (h : 3 ≤ k) : tornHeader old new k = new :=
  (headerOfBytes_congr fun _ _ => if_pos (by omega)).trans (headerOfBytes_headerByte new)

lemma tornHeader_magic : (tornHeader old new k).magic = if k = 0 then old.magic else new.magic := by
  split_ifs with hk
  · rw [hk, tornHeader_zero]
  · calc (tornHeader old new k).magic
        = u32Of (fun p => if p < 512 * k then headerByte new p else headerByte old p) := rfl
      _ = u32Of (headerByte new) := u32Of_congr fun j hj => if_pos (by omega)
      _ = u32Of (u32Byte new.magic) := u32Of_congr fun j hj => headerByte_magic new hj
      _ = new.magic := u32Of_u32Byte _

lemma tornHeader_fileCount :
    (tornHeader old new k).fileCount = if k = 0 then old.fileCount else new.fileCount := by
  split_ifs with hk
  · rw [hk, tornHeader_zero]
  · calc (tornHeader old new k).fileCount
        = u32Of (fun j => if 4 + j < 512 * k then headerByte new (4 + j)
            else headerByte old (4 + j)) := rfl
      _ = u32Of (u32Byte new.fileCount) := u32Of_congr fun j hj => by
          rw [if_pos (by omega), headerByte_fileCount new hj]
      _ = new.fileCount := u32Of_u32Byte _

/-- An entry whose used byte is in a written sector is the new one. -/
lemma tornHeader_files_reached {i : Fin 32} (h : 8 + 44 * (i : ℕ) + 40 < 512 * k) :
    (tornHeader old new k).files i = new.files i := by
  rw [tornHeader, headerOfBytes_files]
  calc entryOfBytes (fun j => if 8 + 44 * (i : ℕ) + j < 512 * k
          then headerByte new (8 + 44 * i + j) else headerByte old (8 + 44 * i + j))
      = entryOfBytes (entryByte (new.files i)) := by
        refine entryOfBytes_congr ?_
        intro j hj
        rw [if_pos (by omega), headerByte_entry _ _ hj]
    _ = new.files i := entryOfBytes_entryByte _

/-- An entry whose used byte is in a sector not written keeps all but part of its name. -/
lemma tornHeader_files_kept {i : Fin 32} (h : 512 * k ≤ 8 + 44 * (i : ℕ) + 40) :
    (tornHeader old new k).files i
      = { old.files i with
          name := fun j => if 8 + 44 * (i : ℕ) + j < 512 * k then (new.files i).name j
            else (old.files i).name j } := by
  have hbyte : ∀ j, 32 ≤ j → j < 44 →
      (if 8 + 44 * (i : ℕ) + j < 512 * k then headerByte new (8 + 44 * i + j)
        else headerByte old (8 + 44 * i + j)) = entryByte (old.files i) j := by
    intro j h1 h2
    -- no sector boundary falls between the name and the used byte of an entry
    have hk : k = 0 ∨ k = 1 ∨ k = 2 := by
      have hi := i.isLt
      omega
    rw [if_neg (by omega), headerByte_entry _ _ h2]
  rw [tornHeader, headerOfBytes_files, entryOfBytes_of_tail hbyte]
  refine FileEntry.ext ?_ rfl rfl rfl rfl
  funext j
  simp only
  rw [headerByte_entry _ _ (by omega), headerByte_entry _ _ (by omega),
    entryByte_name _ j.isLt, entryByte_name _ j.isLt]

/-- An entry that is the same in both images is whole in the torn one. -/
lemma tornHeader_files_same {i : Fin 32} (h : new.files i = old.files i) :
    (tornHeader old new k).files i = old.files i := by
  rcases Nat.lt_or_ge (8 + 44 * (i : ℕ) + 40) (512 * k) with hk | hk
  · rw [tornHeader_files_reached hk, h]
  · rw [tornHeader_files_kept hk, h]
    simp only [ite_self]

/-- Each used byte comes from the image that its sector comes from. -/
lemma tornHeader_used_iff {i : Fin 32} :
    (tornHeader old new k).Used i ↔ if usedByteSector i < k then new.Used i else old.Used i := by
  rw [usedByteSector, FilesystemHeader.Used]
  split_ifs with hk
  · rw [tornHeader_files_reached (by omega)]
    exact Iff.rfl
  · rw [tornHeader_files_kept (by omega)]
    exact Iff.rfl

/-- Files that lie in their slots lie there in every mixture of two images. -/
lemma tornHeader_laidOut (hold : old.LaidOut) (hnew : new.LaidOut) :
    (tornHeader old new k).LaidOut := by
  intro i hi
  rw [FilesystemHeader.Used] at hi
  rcases Nat.lt_or_ge (8 + 44 * (i : ℕ) + 40) (512 * k) with hk | hk
  · rw [tornHeader_files_reached hk] at hi ⊢
    exact hnew i hi
  · rw [tornHeader_files_kept hk] at hi ⊢
    exact hold i hi

end Torn

/-! ## Disks

The same for the disk: a save that is cut after `k` sectors leaves the torn header, and of the data
those sectors that it has come to, which are none before the header is complete. -/

lemma diskByte_header (d : ℕ → Sector) {p : ℕ} (hp : p < 1416) :
    headerByte (diskHeader d) p = diskByte d p := headerByte_headerOfBytes _ hp

section Save

variable {env : Env} {w : SectorWorld} {k : ℕ}

/-- **The torn header.** -/
theorem diskHeader_save_cut (h : w.fs.HasDrive) (hcut : env.CutAfter k) :
    diskHeader (fsSaveToDisk (sectorPlatform env) w).dev.disk
      = tornHeader (diskHeader w.dev.disk) w.fs.fsHeader k := by
  refine headerOfBytes_congr ?_
  intro p hp
  rw [save_cut h hcut (by omega), diskByte_saveImage_header env w hp, diskByte_header _ hp]

/-- **The torn data.** -/
theorem diskData_save_cut (h : w.fs.HasDrive) (hcut : env.CutAfter k) {q : ℕ} (hq : q < 131072) :
    diskData (fsSaveToDisk (sectorPlatform env) w).dev.disk q
      = if 1536 + q < 512 * k then w.fs.fsData q else diskData w.dev.disk q := by
  rw [diskData, save_cut h hcut (by omega), diskByte_saveImage_data env w hq]
  rfl

/-- **What the boot after an interrupted save finds**, when the disk held `s` before. -/
theorem reboot_save_cut (drive : DriveId) {again : Env} (hagain : again.AllRead) {s : FsState}
    (hdisk : OnDisk s w.dev.disk) (hmagic : s.fsHeader.magic = szymfsMagic) (hw : Booted w.fs)
    (hcut : env.CutAfter k) :
    let after := reboot drive again (fsSaveToDisk (sectorPlatform env) w).dev
    after.fs.fsHeader = tornHeader s.fsHeader w.fs.fsHeader k ∧
      ∀ q < 131072, after.fs.fsData q
        = if 1536 + q < 512 * k then w.fs.fsData q else s.fsData q := by
  have htorn : OnDisk { s with
      fsHeader := tornHeader s.fsHeader w.fs.fsHeader k
      fsData := fun q => if 1536 + q < 512 * k then w.fs.fsData q else s.fsData q }
      (fsSaveToDisk (sectorPlatform env) w).dev.disk := by
    constructor
    · rw [diskHeader_save_cut hw.hasDrive hcut, hdisk.header]
    · intro q hq
      rw [diskData_save_cut hw.hasDrive hcut hq, hdisk.data q hq]
  obtain ⟨hh, hd, -⟩ := reboot_onDisk drive _ hagain htorn (by
    rw [tornHeader_magic]
    split_ifs
    · exact hmagic
    · exact hw.magic)
  exact ⟨hh, hd⟩

end Save

/-! ## Boots that fail to read

The header loop copies each sector as it comes, over the header of the empty file system.  So what a
failed boot has in memory is a torn header too, and all that is known of these holds of it. -/

/-- The header after a boot, as far as it could be read: the rest is that of an empty file
system. -/
def bootHeader (drive : DriveId) (env : Env) (d : ℕ → Sector) : FilesystemHeader :=
  tornHeader (bootState drive).fsHeader (diskHeader d) (headerReads env)

lemma bootState_empty (drive : DriveId) : (bootState drive).fsHeader.Empty :=
  ⟨rfl, fun _ h => h rfl⟩

/-- A load only ever replaces the first sectors of the header. -/
lemma loadedHeader_eq_torn (h : FilesystemHeader) (d : ℕ → Sector) (k : ℕ) :
    loadedHeader h d 0 k = tornHeader h (diskHeader d) k := by
  refine headerOfBytes_congr ?_
  intro p hp
  rw [diskByte_header d hp]
  simp only [Nat.mul_zero, Nat.zero_le, true_and]

/-- **The header after a boot from a SzymFS**, whichever reads failed. -/
theorem reboot_header (drive : DriveId) (env : Env) {dev : SectorDev}
    (hmagic : (diskHeader dev.disk).magic = szymfsMagic) :
    (reboot drive env dev).fs.fsHeader = bootHeader drive env dev.disk ∧
      (reboot drive env dev).dev.disk = dev.disk := by
  by_cases hr : headerReads env = 3
  · obtain ⟨hfs, hsame⟩ := reboot_szymfs drive dev hr hmagic
    rw [hfs, bootHeader, hr, tornHeader_all (Nat.le_refl 3)]
    exact ⟨rfl, hsame⟩
  · obtain ⟨hfs, hsame⟩ := reboot_failed drive dev hr
    rw [hfs]
    exact ⟨loadedHeader_eq_torn _ _ _, hsame⟩

/-- So the magic number is in memory after it. -/
lemma reboot_booted_of_magic (drive : DriveId) (env : Env) {dev : SectorDev}
    (hmagic : (diskHeader dev.disk).magic = szymfsMagic) : Booted (reboot drive env dev).fs where
  hasDrive := (reboot_ready drive dev).1
  initialized := (reboot_ready drive dev).2
  magic := by
    rw [(reboot_header drive env hmagic).1, bootHeader, tornHeader_magic]
    split_ifs
    · rfl
    · exact hmagic

end SzymOS
