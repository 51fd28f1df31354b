import SzymOS.Filesystem.BootLoss

/-!
# Boots that can read only a part of the drive

The header is copied over the live one sector by sector before its magic number is looked at, and
data sectors that cannot be read are skipped.  So a boot can end with a part of an image, and with
the magic number of something that is not SzymFS.

There are two ways to go wrong.  A header that is complete lists all files, but the data of some of
them may be missing, and then what is listed is not what is stored.  A header that is not complete
lists those files whose entries have been read; all of their contents are missing, for the data are
read only after the header.  Both conditions are exact and stated for single files.

The magic number is a third matter.  It stands at the beginning of the first sector, so on a drive
that holds something else the first sector overwrites the number which `fs_init` has put into
memory.  If the read of a later sector fails, the load ends before the number has been looked at;
the kernel goes on with it, saves it, and the next boot does not recognise what has been saved.

* `listsStored_iff`, `allOrNothing_iff` — which files of an image must be readable for what is
  listed to be what is stored.
* `reboot_magic_iff` — when the magic number is in memory after a boot.
* `recognised_iff` — and so, after any later calls, whether the next boot recognises what they
  saved.
-/

set_option autoImplicit false

namespace SzymOS

open Bytes Transition

/-! ## Images that are loaded in part

A file that is listed is compared with the file on the disk, entry and content.  The content is
compared only where it lies in `fs_data`, because an image may claim otherwise. -/

/-- Entry `i` is the one on disk, and so are the bytes of its content that lie in `fs_data`. -/
structure LoadedWhole (s : FsState) (d : ℕ → Sector) (i : Fin 32) : Prop where
  entry : s.fsHeader.files i = (diskHeader d).files i
  content : ∀ j < ((diskHeader d).files i).size.toNat,
    ((diskHeader d).files i).offset.toNat + j < 131072 →
      s.fsData (((diskHeader d).files i).offset.toNat + j)
        = diskData d (((diskHeader d).files i).offset.toNat + j)

/-- Either no file is listed, or all that are listed are as they are stored. -/
def ListsStored (s : FsState) (d : ℕ → Sector) : Prop :=
  (∀ i, ¬ s.fsHeader.Used i) ∨ ∀ i, s.fsHeader.Used i → LoadedWhole s d i

/-- Either no file is listed, or all that are stored are, and as they are stored. -/
def AllOrNothing (s : FsState) (d : ℕ → Sector) : Prop :=
  (∀ i, ¬ s.fsHeader.Used i) ∨
    ∀ i, (s.fsHeader.Used i ↔ (diskHeader d).Used i) ∧ (s.fsHeader.Used i → LoadedWhole s d i)

/-- The used byte of entry `i` could be read. -/
def EntryRead (env : Env) (i : Fin 32) : Prop := usedByteSector i < headerReads env

/-- So could every sector with a byte of its content that is not zero, once the header was
complete. -/
def ContentRead (env : Env) (d : ℕ → Sector) (i : Fin 32) : Prop :=
  ∀ j < ((diskHeader d).files i).size.toNat,
    ((diskHeader d).files i).offset.toNat + j < 131072 →
      diskData d (((diskHeader d).files i).offset.toNat + j) ≠ 0 →
        headerReads env = 3 ∧
          env.read (2051 + (((diskHeader d).files i).offset.toNat + j) / 512) = true

section Image

variable (drive : DriveId) (env : Env) {dev : SectorDev}

/-- A file is listed exactly when it is stored and its used byte could be read. -/
lemma reboot_used_iff (hmagic : (diskHeader dev.disk).magic = szymfsMagic) (i : Fin 32) :
    (reboot drive env dev).fs.fsHeader.Used i ↔ EntryRead env i ∧ (diskHeader dev.disk).Used i := by
  rw [(reboot_loaded drive env hmagic).1]
  exact bootHeader_used_iff drive env i

/-- Of an entry that could be read, nothing but its content can be wrong. -/
lemma loadedWhole_iff (hmagic : (diskHeader dev.disk).magic = szymfsMagic) {i : Fin 32}
    (hread : EntryRead env i) :
    LoadedWhole (reboot drive env dev).fs dev.disk i ↔ ContentRead env dev.disk i := by
  obtain ⟨hheader, hdata, -⟩ := reboot_loaded drive env hmagic
  constructor
  · intro h j hj hin
    have hbyte := h.content j hj hin
    rw [hdata _ hin] at hbyte
    exact (bootData_eq_iff env _ _).mp hbyte
  · intro h
    constructor
    · rw [hheader]
      exact bootHeader_files drive env hread
    · intro j hj hin
      rw [hdata _ hin]
      exact (bootData_eq_iff env _ _).mpr (h j hj hin)

lemma listsStored_iff (hmagic : (diskHeader dev.disk).magic = szymfsMagic) :
    ListsStored (reboot drive env dev).fs dev.disk
      ↔ ∀ i, (diskHeader dev.disk).Used i → EntryRead env i → ContentRead env dev.disk i := by
  constructor
  · intro h i hi hread
    have hused := (reboot_used_iff drive env hmagic i).mpr ⟨hread, hi⟩
    rcases h with hnone | hall
    · exact absurd hused (hnone i)
    · exact (loadedWhole_iff drive env hmagic hread).mp (hall i hused)
  · intro h
    right
    intro i hi
    obtain ⟨hread, hused⟩ := (reboot_used_iff drive env hmagic i).mp hi
    exact (loadedWhole_iff drive env hmagic hread).mpr (h i hused hread)

lemma allOrNothing_iff (hmagic : (diskHeader dev.disk).magic = szymfsMagic) :
    AllOrNothing (reboot drive env dev).fs dev.disk
      ↔ (∀ i, (diskHeader dev.disk).Used i → ¬ EntryRead env i) ∨
        ∀ i, (diskHeader dev.disk).Used i → EntryRead env i ∧ ContentRead env dev.disk i := by
  have hlisted := reboot_used_iff drive env hmagic
  refine or_congr ⟨fun h i hi hread => h i ((hlisted i).mpr ⟨hread, hi⟩),
    fun h i hi => h i ((hlisted i).mp hi).2 ((hlisted i).mp hi).1⟩ ⟨?_, ?_⟩
  · intro h i hi
    obtain ⟨hiff, hwhole⟩ := h i
    have hread := ((hlisted i).mp (hiff.mpr hi)).1
    exact ⟨hread, (loadedWhole_iff drive env hmagic hread).mp (hwhole (hiff.mpr hi))⟩
  · intro h i
    refine ⟨⟨fun hi => ((hlisted i).mp hi).2, fun hi => (hlisted i).mpr ⟨(h i hi).1, hi⟩⟩, ?_⟩
    intro hi
    obtain ⟨hread, hused⟩ := (hlisted i).mp hi
    exact (loadedWhole_iff drive env hmagic hread).mpr (h i hused).2

/-- **When a load is all or nothing.**  For any image with the magic number and any reads that
fail: what is listed is what is stored exactly when no entry was read without its content; and all
of it is listed, or none, exactly when every entry was read with its content, or none was read. -/
theorem load_stored_iff (hmagic : (diskHeader dev.disk).magic = szymfsMagic) :
    (ListsStored (reboot drive env dev).fs dev.disk
      ↔ ∀ i, (diskHeader dev.disk).Used i → EntryRead env i → ContentRead env dev.disk i) ∧
    (AllOrNothing (reboot drive env dev).fs dev.disk
      ↔ (∀ i, (diskHeader dev.disk).Used i → ¬ EntryRead env i) ∨
        ∀ i, (diskHeader dev.disk).Used i → EntryRead env i ∧ ContentRead env dev.disk i) :=
  ⟨listsStored_iff drive env hmagic, allOrNothing_iff drive env hmagic⟩

end Image

/-- A formatted drive with the first of the letters on it. -/
def oneFileWorld : SectorWorld :=
  (diskStep (Env.cutAfter 259, .create (letter 0) (letter 0))
    (reboot .primaryMaster Env.faultless .blank)).2

lemma oneFileWorld_filled : Filled 1 oneFileWorld :=
  (filled_zero .primaryMaster formats_blank).succ (by omega)
    fun lba h1 h2 => Env.cutAfter_stored h1 h2

lemma oneFileWorld_content : fileContent oneFileWorld.fs 0 = [65] := by
  simp only [oneFileWorld, diskStep, fsCall,
    (filled_zero .primaryMaster formats_blank).create_next (Nat.zero_lt_succ _), fileContent,
    fsSaveToDisk_fsHeader, fsSaveToDisk_fsData]
  exact fileContent_fsFillSlot_self

def oneFileDev : SectorDev := oneFileWorld.dev

lemma oneFileDev_valid : ValidImage oneFileDev.disk := by
  rw [oneFileDev]
  exact oneFileWorld_filled.validImage

/-- What the letter's entry says, and the byte it stores. -/
lemma oneFileDev_letter :
    (diskHeader oneFileDev.disk).Used 0 ∧ ((diskHeader oneFileDev.disk).files 0).size.toNat = 1 ∧
      ((diskHeader oneFileDev.disk).files 0).offset.toNat = 0 ∧
      diskData oneFileDev.disk 0 = 65 := by
  have hf := oneFileWorld_filled
  have hcontent := oneFileWorld_content
  rw [oneFileDev, hf.onDisk.header]
  generalize oneFileWorld = w at hf hcontent
  have hused : w.fs.fsHeader.Used 0 := (hf.used 0).mpr (by decide)
  have hsize : (w.fs.fsHeader.files 0).size.toNat = 1 := by
    have hlen := congrArg List.length hcontent
    rwa [fileContent, slice_length] at hlen
  have hoff : (w.fs.fsHeader.files 0).offset.toNat = 0 := (hf.laidOut 0 hused).2
  refine ⟨hused, hsize, hoff, ?_⟩
  rw [fileContent, hsize, hoff] at hcontent
  rw [hf.onDisk.data 0 (by omega)]
  simpa [slice] using hcontent

/-- With every read successful the letter is loaded. -/
theorem load_stored_letter :
    ListsStored (reboot .primaryMaster Env.faultless oneFileDev).fs oneFileDev.disk ∧
      AllOrNothing (reboot .primaryMaster Env.faultless oneFileDev).fs oneFileDev.disk := by
  obtain ⟨hlists, hall⟩ :=
    load_stored_iff .primaryMaster Env.faultless oneFileDev_valid.magic
  have hentry : ∀ i, EntryRead Env.faultless i := by
    intro i
    rw [EntryRead, Env.faultless_allRead.headerReads, usedByteSector]
    omega
  have hcontent : ∀ i, ContentRead Env.faultless oneFileDev.disk i :=
    fun i _ _ _ _ => ⟨Env.faultless_allRead.headerReads, rfl⟩
  exact ⟨hlists.mpr fun i _ _ => hcontent i, hall.mpr (Or.inr fun i _ => ⟨hentry i, hcontent i⟩)⟩

/-- The surroundings of a boot that cannot read the first data sector. -/
def Env.dataFails : Env := { Env.faultless with read := fun lba => decide (lba ≠ 2051) }

/-- Then the letter is listed with a content it does not have. -/
theorem load_lists_unstored :
    ValidImage oneFileDev.disk ∧
      ¬ ListsStored (reboot .primaryMaster Env.dataFails oneFileDev).fs oneFileDev.disk ∧
      ¬ AllOrNothing (reboot .primaryMaster Env.dataFails oneFileDev).fs oneFileDev.disk := by
  obtain ⟨hused, hsize, hoff, hbyte⟩ := oneFileDev_letter
  have hmagic := oneFileDev_valid.magic
  have hentry : EntryRead Env.dataFails 0 := show usedByteSector 0 < 3 by decide
  have hcontent : ¬ ContentRead Env.dataFails oneFileDev.disk 0 := by
    intro h
    obtain ⟨-, hread⟩ := h 0 (by rw [hsize]; omega) (by rw [hoff]; omega)
      (by rw [hoff, Nat.add_zero, hbyte]; decide)
    rw [hoff] at hread
    exact absurd hread (by decide)
  refine ⟨oneFileDev_valid, ?_, ?_⟩
  · rw [listsStored_iff .primaryMaster Env.dataFails hmagic]
    exact fun h => hcontent (h 0 hused hentry)
  · rw [allOrNothing_iff .primaryMaster Env.dataFails hmagic]
    rintro (h | h)
    · exact h 0 hused hentry
    · exact hcontent (h 0 hused).2

/-! ## The magic number

No call but `fs_init` stores the number, so after a boot it is what the boot has left.  The theorem
is therefore about the boot, and carries over to all later calls. -/

/-- The header sectors read before a failure stay, whatever they are. -/
lemma reboot_magic_iff (drive : DriveId) (env : Env) (dev : SectorDev) :
    (reboot drive env dev).fs.fsHeader.magic = szymfsMagic
      ↔ headerReads env = 0 ∨ headerReads env = 3 ∨
        (diskHeader dev.disk).magic = szymfsMagic := by
  by_cases hr : headerReads env = 3
  · exact ⟨fun _ => Or.inr (Or.inl hr), fun _ => reboot_magic drive dev hr⟩
  · rw [(reboot_failed drive dev hr).1, loadedHeader_eq_torn, tornHeader_magic, or_iff_right hr]
    split_ifs with h0
    · exact ⟨fun _ => Or.inl h0, fun _ => rfl⟩
    · exact (or_iff_right h0).symm

lemma StoredBy.magic {σ : Type} {P : Platform σ} {w : World σ} {call : FsCall} {s : FsState}
    (h : StoredBy P w call s) : s.fsHeader.magic = w.fs.fsHeader.magic := by
  cases h with
  | save => rfl
  | fill hfind hslot hlen => rfl
  | clear hfind => rfl

/-- No call other than `fs_init` touches the magic number. -/
lemma diskStep_magic {e : Env × FsCall} (he : e.2 ≠ .init) (w : SectorWorld) :
    (diskStep e w).2.fs.fsHeader.magic = w.fs.fsHeader.magic :=
  fsCall_preserves (I := fun s => s.fsHeader.magic = w.fs.fsHeader.magic) (sectorPlatform e.1)
    (fun _ _ h => h) he (fun _ hs => hs.magic) rfl

/-- The magic number is in memory; and if the disk holds what is in memory, then the next boot
does not write another file system over it, whatever it can read. -/
structure Recognised (drive : DriveId) (w : SectorWorld) : Prop where
  magic : w.fs.fsHeader.magic = szymfsMagic
  saved : OnDisk w.fs w.dev.disk → ∀ again, (reboot drive again w.dev).dev.disk = w.dev.disk

lemma recognised_iff_magic (drive : DriveId) (w : SectorWorld) :
    Recognised drive w ↔ w.fs.fsHeader.magic = szymfsMagic := by
  refine ⟨Recognised.magic, fun h => ⟨h, ?_⟩⟩
  intro hon again
  have hmagic : (diskHeader w.dev.disk).magic = szymfsMagic := by rw [hon.header, h]
  exact (reboot_header drive again hmagic).2

/-- **When what is saved is recognised.**  From any drive and any boot, after any calls: exactly
when the boot read no header sector, or all three, or the drive held a SzymFS. -/
theorem recognised_iff (drive : DriveId) (env : Env) (dev : SectorDev)
    (calls : List (Env × FsCall)) (hcalls : ∀ e ∈ calls, e.2 ≠ .init) :
    Recognised drive (final diskStep calls (reboot drive env dev))
      ↔ headerReads env = 0 ∨ headerReads env = 3 ∨
        (diskHeader dev.disk).magic = szymfsMagic := by
  have hkeep : (final diskStep calls (reboot drive env dev)).fs.fsHeader.magic
      = (reboot drive env dev).fs.fsHeader.magic :=
    invariant_final (I := fun w => w.fs.fsHeader.magic = (reboot drive env dev).fs.fsHeader.magic)
      (fun e he w hw => (diskStep_magic (hcalls e he) w).trans hw) rfl
  rw [recognised_iff_magic, hkeep]
  exact reboot_magic_iff drive env dev

/-- On a blank drive that can be read. -/
theorem recognised_blank :
    Recognised .primaryMaster (final diskStep [(Env.faultless, .save)]
      (reboot .primaryMaster Env.faultless .blank)) :=
  (recognised_iff .primaryMaster Env.faultless .blank [(Env.faultless, .save)] (by simp)).mpr
    (Or.inr (Or.inl Env.faultless_allRead.headerReads))

/-- What is saved without the magic number is formatted by the next boot. -/
lemma save_not_recognised {w₀ : SectorWorld} (hdrive : w₀.fs.HasDrive)
    (hmagic : w₀.fs.fsHeader.magic ≠ szymfsMagic) :
    let w := final diskStep [(Env.faultless, .save)] w₀
    OnDisk w.fs w.dev.disk ∧ ¬ Recognised .primaryMaster w ∧
      (reboot .primaryMaster Env.faultless w.dev).dev.disk ≠ w.dev.disk := by
  intro w
  have hon : OnDisk w.fs w.dev.disk := (save_onDisk hdrive fun _ _ _ => rfl).saved Env.faultless
  have hw : w.fs.fsHeader.magic ≠ szymfsMagic := by
    rw [show w.fs.fsHeader.magic = w₀.fs.fsHeader.magic from diskStep_magic (by simp) w₀]
    exact hmagic
  refine ⟨hon, fun h => hw h.magic, ?_⟩
  intro hsame
  -- the next boot stores the magic number, which is not on the disk
  have hforeign : Formats Env.faultless w.dev :=
    ⟨Env.faultless_allRead, Env.faultless_allStored, by rw [hon.header]; exact hw⟩
  obtain ⟨-, hnew, -⟩ := reboot_formats .primaryMaster hforeign
  have hnext := reboot_magic .primaryMaster w.dev Env.faultless_allRead.headerReads
  rw [← hnew.header, hsame, hon.header] at hnext
  exact hw hnext

/-- The surroundings of a boot that cannot read the second header sector. -/
def Env.secondFails : Env := { Env.faultless with read := fun lba => decide (lba ≠ 2049) }

/-- So a complete save on a blank drive is lost if the boot could not read that sector. -/
theorem saved_not_recognised :
    let w := final diskStep [(Env.faultless, .save)] (reboot .primaryMaster Env.secondFails .blank)
    OnDisk w.fs w.dev.disk ∧ ¬ Recognised .primaryMaster w ∧
      (reboot .primaryMaster Env.faultless w.dev).dev.disk ≠ w.dev.disk := by
  refine save_not_recognised (reboot_ready .primaryMaster SectorDev.blank).1 ?_
  rw [ne_eq, reboot_magic_iff]
  rintro (h | h | h)
  all_goals exact absurd h (by decide)

end SzymOS
