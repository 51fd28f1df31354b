import SzymOS.Filesystem.Interruption
import SzymOS.Kernel.Boot
import Mathlib.Data.Set.Basic

/-!
# What a read failure during boot costs

A load that fails leaves a file system in memory that is smaller than the one on disk, and the
first save writes it over the disk.  The results compare sets of files, names with contents.

Nothing in `filesystem.c` tells a file system that has been read in full from one that has not.
After a failed read of the header `fs_init` goes on with what it has, and a data sector that could
not be read is zero in memory.  That alone loses nothing, since the disk is as it was.  But
`kernel_main` looks for `README.txt` and creates it if it is not there, and every creation saves the
whole of memory.

So which files survive depends on the reads of the boot and on whether anything is saved
afterwards.  The condition is exact, over every pattern of failed reads and every list of later
creations.  It mentions bytes and not sectors where it can: a sector of zeros that could not be read
is no loss, and neither is a file that is written again as it was.

* `creations_files` — a run of successful creations adds its own files, and puts all on disk.
* `filesOf_booted` — the files in memory after a boot, whichever reads failed.
* `files_survive_boot_iff` — which files are still on disk after the boot and later creations.

The proof follows the boot.  `reboot_loaded` gives the header and the data that a boot leaves, for
any pattern of failed reads; from them `filesOf_booted` says which files of the image are in
memory.  Whether `README.txt` is created is a question about this header (`WritesReadme`), with one
lemma for each answer.  Later creations put all of memory on the disk (`creations_files`).
`diskFiles_after_boot` joins these: the disk is either the old one, or it has the files that were in
memory and those written since.  What has survived can be read off.
-/

set_option autoImplicit false

namespace SzymOS

open Bytes Blocks Transition

/-! ## Files as a set

A file is a name with a content.  Which slot it lies in is nothing that a user of the file system
could see, so the files before and after are compared as sets, and a file that has moved to another
slot has survived. -/

/-- The files that a directory and its data hold: names with contents. -/
def filesOf (h : FilesystemHeader) (data : ℕ → UInt8) : Set (List UInt8 × List UInt8) :=
  {f | ∃ i, h.Used i ∧ entryName (h.files i) = f.1 ∧
    slice data (h.files i).offset.toNat (h.files i).size.toNat = f.2}

/-- The files on a disk. -/
def diskFiles (d : ℕ → Sector) : Set (List UInt8 × List UInt8) :=
  filesOf (diskHeader d) (diskData d)

lemma filesOf_congr {h : FilesystemHeader} {data data' : ℕ → UInt8} (hlaid : h.LaidOut)
    (hsame : ∀ q < 131072, data q = data' q) : filesOf h data = filesOf h data' := by
  ext f
  refine exists_congr fun i => and_congr_right fun hi => and_congr_right ?_
  intro _
  obtain ⟨hsize, hoff⟩ := hlaid i hi
  have hslot := i.isLt
  rw [slice_congr fun j hj => hsame _ (by omega)]

lemma OnDisk.files {s : FsState} {d : ℕ → Sector} (h : OnDisk s d) (hlaid : s.fsHeader.LaidOut) :
    diskFiles d = filesOf s.fsHeader s.fsData := by
  rw [diskFiles, h.header]
  exact filesOf_congr hlaid h.data

/-- Filling a free slot adds one file. -/
lemma filesOf_fsFillSlot {s : FsState} {slot : Fin 32} {name content : CString}
    (hlaid : s.fsHeader.LaidOut) (hfree : ¬ s.fsHeader.Used slot) (hlen : content.length ≤ 4096) :
    filesOf (fsFillSlot slot name content s).fsHeader (fsFillSlot slot name content s).fsData
      = insert (storedName name, content.bytes) (filesOf s.fsHeader s.fsData) := by
  have hname : entryName ((fsFillSlot slot name content s).fsHeader.files slot)
      = storedName name := by
    rw [fsFillSlot_files_self]
    exact nameBytes_storeName _ _
  have hself : fileContent (fsFillSlot slot name content s) slot = content.bytes :=
    fileContent_fsFillSlot_self
  ext ⟨n, c⟩
  rw [Set.mem_insert_iff]
  constructor
  · rintro ⟨i, hi, hn, hc⟩
    by_cases heq : i = slot
    · left
      subst heq
      exact Prod.ext (hn.symm.trans hname) (hc.symm.trans hself)
    · right
      have hu : s.fsHeader.Used i := (fsFillSlot_used_iff.mp hi).resolve_left heq
      rw [fsFillSlot_files_of_ne heq] at hn
      exact ⟨i, hu, hn, (fileContent_fsFillSlot_of_ne hlen hlaid hu heq).symm.trans hc⟩
  · rintro (heq | ⟨i, hi, hn, hc⟩)
    · obtain ⟨hn, hc⟩ := Prod.mk.inj heq
      exact ⟨slot, fsFillSlot_used_iff.mpr (Or.inl rfl), hname.trans hn.symm, hself.trans hc.symm⟩
    · have hne : i ≠ slot := fun h => hfree (h ▸ hi)
      refine ⟨i, fsFillSlot_used_iff.mpr (Or.inr hi), ?_, ?_⟩
      · rw [fsFillSlot_files_of_ne hne]
        exact hn
      · exact (fileContent_fsFillSlot_of_ne hlen hlaid hi hne).trans hc

/-! ## Successful creations

What is saved by a creation is all of memory.  If the drive keeps what it takes, then after one
creation the disk holds exactly the files in memory; so after a list of creations it holds those of
the start and those that were created. -/

/-- A creation succeeds where there is no such file, and a slot for it. -/
lemma fsCreateFile_succeeds {σ : Type} (P : Platform σ) {w : World σ} {name content : CString}
    (hinit : w.fs.fsInitialized = true) (hnone : fsFindFile P w name = none)
    (hfree : fsFindFreeSlot w.fs.fsHeader ≠ none) (hlen : content.length ≤ 4096) :
    (fsCreateFile P name content w).1 = 0 := by
  rcases fsCreateFile_cases P name content w hinit with
    ⟨hfound, -⟩ | ⟨-, hfull, -⟩ | ⟨_, -, -, hlong, -⟩ | ⟨_, -, -, -, hr⟩
  · rw [hnone] at hfound
    exact absurd hfound (by simp)
  · exact absurd hfull hfree
  · omega
  · rw [hr]

/-- What a creation needs to put all files on disk. -/
structure Writable (s : FsState) : Prop where
  hasDrive : s.HasDrive
  laidOut : s.fsHeader.LaidOut

/-- A successful creation whose writes are stored. -/
lemma create_files {env : Env} (hstored : env.AllStored) {name content : CString} {w : SectorWorld}
    (hw : Writable w.fs) (hzero : (fsCreateFile (sectorPlatform env) name content w).1 = 0) :
    let w' := (fsCreateFile (sectorPlatform env) name content w).2
    Writable w'.fs ∧ OnDisk w'.fs w'.dev.disk ∧
      filesOf w'.fs.fsHeader w'.fs.fsData
        = insert (storedName name, content.bytes) (filesOf w.fs.fsHeader w.fs.fsData) := by
  obtain ⟨slot, -, hslot, hlen, hr⟩ := fsCreateFile_of_zero hzero
  have hdrive : (fsFillSlot slot name content w.fs).HasDrive := hw.hasDrive.congr rfl rfl
  have hon := save_onDisk (w := { w with fs := fsFillSlot slot name content w.fs }) hdrive
    fun lba _ _ => hstored lba
  simp only [hr, fsSaveToDisk_fsHeader, fsSaveToDisk_fsData]
  refine ⟨⟨?_, ?_⟩, hon.saved env, ?_⟩
  · exact hdrive.congr (fsSaveToDisk_selectedDrive _ _) (fsSaveToDisk_fsDriveSelected _ _)
  · rw [fsSaveToDisk_fsHeader]
    exact fsFillSlot_laidOut hlen hw.laidOut
  · exact filesOf_fsFillSlot hw.laidOut (fsFindFreeSlot_eq_some_iff.mp hslot).1 hlen

/-- A list of creations, as calls. -/
def creations (later : List (Env × CString × CString)) : List (Env × FsCall) :=
  later.map fun e => (e.1, .create e.2.1 e.2.2)

/-- The files a list of creations stores. -/
def created (later : List (Env × CString × CString)) : Set (List UInt8 × List UInt8) :=
  {f | ∃ e ∈ later, f = (storedName e.2.1, e.2.2.bytes)}

/-- The call succeeds. -/
def Succeeds (e : Env × FsCall) (w : SectorWorld) : Prop := (diskStep e w).1 = .code 0

/-- **A run of successful creations** adds the files it names to those in memory, and leaves all of
them on disk. -/
theorem creations_files (later : List (Env × CString × CString))
    (hstored : ∀ e ∈ later, e.1.AllStored) {w : SectorWorld} (hw : Writable w.fs)
    (hsucc : Along diskStep Succeeds (creations later) w) :
    let w' := final diskStep (creations later) w
    Writable w'.fs ∧
      filesOf w'.fs.fsHeader w'.fs.fsData = filesOf w.fs.fsHeader w.fs.fsData ∪ created later ∧
      (OnDisk w.fs w.dev.disk ∨ later ≠ [] → OnDisk w'.fs w'.dev.disk) := by
  induction later generalizing w with
  | nil =>
      refine ⟨hw, ?_, fun h => h.resolve_right fun hc => hc rfl⟩
      simp [creations, created]
  | cons e later ih =>
      obtain ⟨hs, hrest⟩ := hsucc
      have hzero : (fsCreateFile (sectorPlatform e.1) e.2.1 e.2.2 w).1 = 0 := by
        simpa [Succeeds, diskStep, fsCall] using hs
      obtain ⟨hw1, hon1, hfiles1⟩ := create_files (hstored e List.mem_cons_self) hw hzero
      obtain ⟨hw2, hfiles2, hon2⟩ := ih (fun e' he' => hstored e' (List.mem_cons_of_mem _ he'))
        hw1 hrest
      refine ⟨hw2, ?_, fun _ => hon2 (Or.inl hon1)⟩
      have hcreated : created (e :: later)
          = insert (storedName e.2.1, e.2.2.bytes) (created later) := by
        ext f
        simp [created]
      rw [hcreated, Set.union_insert, ← Set.insert_union, ← hfiles1]
      exact hfiles2

/-! ## What a boot leaves in memory

Entry by entry and byte by byte.  The header that a boot leaves is a torn one, its first sectors
from the disk and the others from the empty file system of `fs_init`, so an entry is there if the
sector of its `used` byte has been read.  A file is whole if moreover each of its bytes was read, or
is zero anyway. -/

/-- A SzymFS as the kernel writes it. -/
structure ValidImage (d : ℕ → Sector) : Prop where
  magic : (diskHeader d).magic = szymfsMagic
  wellFormed : (diskHeader d).WellFormed

/-- The data after a boot: zeros where nothing was read. -/
def bootData (env : Env) (d : ℕ → Sector) (q : ℕ) : UInt8 :=
  if headerReads env = 3 ∧ env.read (2051 + q / 512) = true then diskData d q else 0

section Boot

variable (drive : DriveId) (env : Env) {d : ℕ → Sector}

/-- An entry is in use after the boot exactly when it is in the image and its used byte was
read. -/
lemma bootHeader_used_iff (i : Fin 32) : (bootHeader drive env d).Used i
    ↔ usedByteSector i < headerReads env ∧ (diskHeader d).Used i := by
  rw [bootHeader, tornHeader_used_iff]
  split_ifs with hk
  · exact ⟨fun h => ⟨hk, h⟩, fun h => h.2⟩
  · exact ⟨fun h => absurd h ((bootState_empty drive).2 i), fun h => absurd h.1 hk⟩

/-- Byte `q` of the data is what is stored, unless it was not read and is not zero. -/
lemma bootData_eq_iff (d : ℕ → Sector) (q : ℕ) : bootData env d q = diskData d q
    ↔ (diskData d q ≠ 0 → headerReads env = 3 ∧ env.read (2051 + q / 512) = true) := by
  rw [bootData]
  split_ifs with hc
  · exact ⟨fun _ _ => hc, fun _ => rfl⟩
  · exact ⟨fun h0 hne => absurd h0.symm hne, fun h => (not_imp_comm.mp h hc).symm⟩

lemma bootHeader_files {i : Fin 32} (h : usedByteSector i < headerReads env) :
    (bootHeader drive env d).files i = (diskHeader d).files i := by
  rw [usedByteSector] at h
  exact tornHeader_files_reached (by omega)

lemma bootHeader_terminated (hd : (diskHeader d).Terminated) :
    (bootHeader drive env d).Terminated := by
  intro i hi
  obtain ⟨hread, hused⟩ := (bootHeader_used_iff drive env i).mp hi
  rw [bootHeader_files drive env hread]
  exact hd i hused

lemma bootHeader_laidOut (hd : (diskHeader d).LaidOut) : (bootHeader drive env d).LaidOut :=
  tornHeader_laidOut (bootState_empty drive).wellFormed.laidOut hd

/-- **What is in memory after a boot from a SzymFS**, whichever reads failed. -/
theorem reboot_loaded {dev : SectorDev} (hmagic : (diskHeader dev.disk).magic = szymfsMagic) :
    (reboot drive env dev).fs.fsHeader = bootHeader drive env dev.disk ∧
      (∀ q < 131072, (reboot drive env dev).fs.fsData q = bootData env dev.disk q) ∧
      (reboot drive env dev).dev.disk = dev.disk := by
  obtain ⟨hheader, hsame⟩ := reboot_header drive env hmagic
  refine ⟨hheader, ?_, hsame⟩
  intro q hq
  by_cases hr : headerReads env = 3
  · rw [(reboot_szymfs drive dev hr hmagic).1]
    · have hiff : ((512 * 0 ≤ q ∧ q < 512 * 256) ∧ env.read (2051 + q / 512) = true)
          ↔ (headerReads env = 3 ∧ env.read (2051 + q / 512) = true) := by
        rw [hr]
        refine and_congr_left ?_
        intro _
        omega
      simp only [loadedData, bootData, hiff]
  · rw [(reboot_failed drive dev hr).1, bootData, if_neg fun hc => hr hc.1]
    exact congrFun (bootState_fsData drive) q

lemma reboot_valid {dev : SectorDev} (hd : ValidImage dev.disk) :
    (reboot drive env dev).fs.fsHeader = bootHeader drive env dev.disk ∧
      (∀ q < 131072, (reboot drive env dev).fs.fsData q = bootData env dev.disk q) ∧
      (reboot drive env dev).dev.disk = dev.disk := reboot_loaded drive env hd.magic

lemma reboot_writable {dev : SectorDev} (hd : ValidImage dev.disk) :
    Writable (reboot drive env dev).fs where
  hasDrive := (reboot_ready drive dev).1
  laidOut := (reboot_valid drive env hd).1 ▸ bootHeader_laidOut drive env hd.wellFormed.laidOut

/-- The file in slot `i` of the image is whole in memory after the boot: its used byte was read,
and so was every sector with a byte of it that is not zero. -/
def SurvivesLoad (env : Env) (d : ℕ → Sector) (i : Fin 32) : Prop :=
  usedByteSector i < headerReads env ∧
    ∀ j < ((diskHeader d).files i).size.toNat,
      diskData d (((diskHeader d).files i).offset.toNat + j) ≠ 0 → headerReads env = 3 ∧
        env.read (2051 + (((diskHeader d).files i).offset.toNat + j) / 512) = true

/-- The file in slot `i` of a disk. -/
def diskFile (d : ℕ → Sector) (i : Fin 32) : List UInt8 × List UInt8 :=
  (entryName ((diskHeader d).files i),
    slice (diskData d) ((diskHeader d).files i).offset.toNat ((diskHeader d).files i).size.toNat)

/-- **The files in memory after a boot.**  Of the files of the image, those that survive the
load. -/
theorem filesOf_booted (hd : ValidImage d) {i : Fin 32} (hi : (diskHeader d).Used i) :
    diskFile d i ∈ filesOf (bootHeader drive env d) (bootData env d) ↔ SurvivesLoad env d i := by
  constructor
  · rintro ⟨j, hj, hname, hcontent⟩
    obtain ⟨hread, hused⟩ := (bootHeader_used_iff drive env j).mp hj
    rw [bootHeader_files drive env hread] at hname hcontent
    have heq : j = i := hd.wellFormed.unique j i hused hi hname
    subst heq
    exact ⟨hread, fun q hq => (bootData_eq_iff env d _).mp (slice_eq_slice_iff.mp hcontent q hq)⟩
  · rintro ⟨hread, hdata⟩
    refine ⟨i, (bootHeader_used_iff drive env i).mpr ⟨hread, hi⟩, ?_, ?_⟩
    · rw [bootHeader_files drive env hread]
      rfl
    · rw [bootHeader_files drive env hread]
      exact slice_eq_slice_iff.mpr fun q hq => (bootData_eq_iff env d _).mpr (hdata q hq)

/-! ## README.txt

The boot goes on after the load.  It writes if it does not find the file and has a slot for it; in
the other cases it leaves the disk alone.  Both are seen from the header that has been read. -/

/-- The boot writes `README.txt`: it is not among the files that were read, and there is a slot
for it. -/
def WritesReadme (drive : DriveId) (env : Env) (d : ℕ → Sector) : Prop :=
  (bootHeader drive env d).lookup readmeName.bytes = none ∧
    fsFindFreeSlot (bootHeader drive env d) ≠ none

/-- The end of `kernel_main`, on this drive. -/
def kernelBoot (drive : DriveId) (env : Env) (dev : SectorDev) : SectorWorld :=
  kernelMainBoot (sectorPlatform env) { fs := FsState.selected (some drive), dev }

lemma kernelBoot_eq (dev : SectorDev) :
    kernelBoot drive env dev
      = if !fsFileExists (sectorPlatform env) (reboot drive env dev) readmeName then
          (fsCreateFile (sectorPlatform env) readmeName readmeText (reboot drive env dev)).2.print
            (sectorPlatform env)
            (coloured .lightCyan (.writestring "[OK] README.txt created\n"))
        else reboot drive env dev := rfl

/-- A boot that does not write `README.txt` leaves the disk alone. -/
lemma kernelBoot_unwritten {dev : SectorDev} (hd : ValidImage dev.disk)
    (h : ¬ WritesReadme drive env dev.disk) :
    (kernelBoot drive env dev).fs = (reboot drive env dev).fs ∧
      (kernelBoot drive env dev).dev.disk = dev.disk := by
  obtain ⟨hh, -, hsame⟩ := reboot_valid drive env hd
  have hterm : (reboot drive env dev).fs.fsHeader.Terminated :=
    hh ▸ bootHeader_terminated drive env hd.wellFormed.terminated
  rw [kernelBoot_eq]
  split_ifs with hex
  · -- not found, so there is no slot, and the creation fails
    rw [Bool.not_eq_true', fsFileExists, fsFindFile_eq_lookup _ hterm, hh,
      Option.isSome_eq_false_iff, Option.isNone_iff_eq_none] at hex
    have hfull : fsFindFreeSlot (bootHeader drive env dev.disk) = none := by
      by_contra hc
      exact h ⟨hex, hc⟩
    have hfail : (fsCreateFile (sectorPlatform env) readmeName readmeText
        (reboot drive env dev)).1 ≠ 0 := by
      intro hzero
      obtain ⟨slot, -, hslot, -⟩ := fsCreateFile_of_zero hzero
      rw [hh, hfull] at hslot
      exact absurd hslot (by simp)
    rw [World.print_fs, print_disk, fsCreateFile_of_nonzero hfail]
    exact ⟨rfl, hsame⟩
  · exact ⟨rfl, hsame⟩

/-- A boot that writes it adds it to the files in memory, and puts all of these on disk. -/
lemma kernelBoot_written {dev : SectorDev} (hd : ValidImage dev.disk) (hstored : env.AllStored)
    (h : WritesReadme drive env dev.disk) :
    Writable (kernelBoot drive env dev).fs ∧
      OnDisk (kernelBoot drive env dev).fs (kernelBoot drive env dev).dev.disk ∧
      filesOf (kernelBoot drive env dev).fs.fsHeader (kernelBoot drive env dev).fs.fsData
        = insert (storedName readmeName, readmeText.bytes)
          (filesOf (reboot drive env dev).fs.fsHeader (reboot drive env dev).fs.fsData) := by
  obtain ⟨hh, -, -⟩ := reboot_valid drive env hd
  obtain ⟨hnone, hfree⟩ := h
  have hterm : (reboot drive env dev).fs.fsHeader.Terminated :=
    hh ▸ bootHeader_terminated drive env hd.wellFormed.terminated
  have hfind : fsFindFile (sectorPlatform env) (reboot drive env dev) readmeName = none := by
    rw [fsFindFile_eq_lookup _ hterm, hh, hnone]
  have hzero := fsCreateFile_succeeds (sectorPlatform env) (reboot_ready drive dev).2 hfind
    (by rwa [hh]) readmeText_length_le
  obtain ⟨hw, hon, hfiles⟩ := create_files hstored (reboot_writable drive env hd) hzero
  rw [kernelBoot_eq, if_pos (by simp [fsFileExists, hfind]), World.print_fs, print_disk]
  exact ⟨hw, hon, hfiles⟩

end Boot

/-! ## What is left on the disk

All is put together by cases on whether anything has been saved.  If not, the disk is the old one,
whatever memory holds.  If so, it holds what memory held, and the files of the image that are
missing are those that the boot could not read and nobody has written again. -/

/-- The files written since the boot: `README.txt` if the boot creates it, and the later ones. -/
def writtenFiles (drive : DriveId) (env : Env) (d : ℕ → Sector)
    (later : List (Env × CString × CString)) : Set (List UInt8 × List UInt8) :=
  {f | WritesReadme drive env d ∧ f = (storedName readmeName, readmeText.bytes)} ∪ created later

/-- **What is on disk after a boot and later creations.**  If nothing was saved, what was there
before; else the files that survived the load, and those written since. -/
theorem diskFiles_after_boot (drive : DriveId) (env : Env) (hboot : env.AllStored)
    {dev : SectorDev} (hd : ValidImage dev.disk) (later : List (Env × CString × CString))
    (hstored : ∀ e ∈ later, e.1.AllStored)
    (hsucc : Along diskStep Succeeds (creations later) (kernelBoot drive env dev)) :
    let after := (final diskStep (creations later) (kernelBoot drive env dev)).dev.disk
    ((¬ WritesReadme drive env dev.disk ∧ later = []) → after = dev.disk) ∧
      (¬ (¬ WritesReadme drive env dev.disk ∧ later = []) →
        diskFiles after = filesOf (bootHeader drive env dev.disk) (bootData env dev.disk)
          ∪ writtenFiles drive env dev.disk later) := by
  obtain ⟨hh, hdata, -⟩ := reboot_valid drive env hd
  have hbooted : filesOf (reboot drive env dev).fs.fsHeader (reboot drive env dev).fs.fsData
      = filesOf (bootHeader drive env dev.disk) (bootData env dev.disk) := by
    rw [hh]
    exact filesOf_congr (bootHeader_laidOut drive env hd.wellFormed.laidOut) hdata
  by_cases hwrites : WritesReadme drive env dev.disk
  · refine ⟨fun h => absurd hwrites h.1, ?_⟩
    intro _
    obtain ⟨hw, hon, hfiles⟩ := kernelBoot_written drive env hd hboot hwrites
    obtain ⟨hw', hfiles', hon'⟩ := creations_files later hstored hw hsucc
    have hset : {f | WritesReadme drive env dev.disk ∧
        f = (storedName readmeName, readmeText.bytes)}
          = {(storedName readmeName, readmeText.bytes)} := by
      ext f
      simp [hwrites]
    rw [(hon' (Or.inl hon)).files hw'.laidOut, hfiles', hfiles, hbooted, writtenFiles, hset,
      ← Set.union_assoc, Set.union_singleton]
  · obtain ⟨hfs, hdisk⟩ := kernelBoot_unwritten drive env hd hwrites
    have hw : Writable (kernelBoot drive env dev).fs := hfs ▸ reboot_writable drive env hd
    obtain ⟨hw', hfiles', hon'⟩ := creations_files later hstored hw hsucc
    constructor
    · intro h
      rw [h.2]
      exact hdisk
    · intro h
      have hne : later ≠ [] := fun hc => h ⟨hwrites, hc⟩
      have hset : {f | WritesReadme drive env dev.disk ∧
          f = (storedName readmeName, readmeText.bytes)} = ∅ := by
        ext f
        simp [hwrites]
      rw [(hon' (Or.inr hne)).files hw'.laidOut, hfiles', hfs, hbooted, writtenFiles, hset,
        Set.empty_union]

/-- What is on a drive with the first letters on it is valid. -/
lemma Filled.validImage {j : ℕ} {w : SectorWorld} (hf : Filled j w) :
    ValidImage w.dev.disk := by
  constructor
  · rw [hf.onDisk.header]
    exact hf.booted.magic
  · rw [hf.onDisk.header]
    refine ⟨hf.terminated, hf.laidOut, ?_, hf.counted⟩
    intro i i' hi hi' hname
    have hlt := (hf.used i).mp hi
    have hlt' := (hf.used i').mp hi'
    rw [hf.names i hlt, hf.names i' hlt'] at hname
    exact Fin.ext (letter_injective (by omega) (by omega) hname)

/-- **When no file is lost.**  Boot from a valid image, whichever reads fail, and create any files
after that.  Every file of the image is still on disk exactly when nothing was saved at all, or
each file survived the load or was written again as it was. -/
theorem files_survive_boot_iff (drive : DriveId) (env : Env) (hboot : env.AllStored)
    (dev : SectorDev) (hd : ValidImage dev.disk) (later : List (Env × CString × CString))
    (hstored : ∀ e ∈ later, e.1.AllStored)
    (hsucc : Along diskStep Succeeds (creations later) (kernelBoot drive env dev)) :
    diskFiles dev.disk
        ⊆ diskFiles (final diskStep (creations later) (kernelBoot drive env dev)).dev.disk
      ↔ (¬ WritesReadme drive env dev.disk ∧ later = []) ∨
        ∀ i, (diskHeader dev.disk).Used i → SurvivesLoad env dev.disk i ∨
          diskFile dev.disk i ∈ writtenFiles drive env dev.disk later := by
  obtain ⟨hsame, hsaved⟩ := diskFiles_after_boot drive env hboot hd later hstored hsucc
  by_cases hquiet : ¬ WritesReadme drive env dev.disk ∧ later = []
  · rw [hsame hquiet]
    exact ⟨fun _ => Or.inl hquiet, fun _ => Set.Subset.rfl⟩
  · rw [hsaved hquiet, or_iff_right hquiet]
    constructor
    · intro hsub i hi
      have hmem : diskFile dev.disk i ∈ diskFiles dev.disk := ⟨i, hi, rfl, rfl⟩
      rcases hsub hmem with hbooted | hwritten
      · exact Or.inl ((filesOf_booted drive env hd hi).mp hbooted)
      · exact Or.inr hwritten
    · rintro hall ⟨n, c⟩ ⟨i, hi, hn, hc⟩
      have hfile : diskFile dev.disk i = (n, c) := Prod.ext hn hc
      rw [← hfile]
      rcases hall i hi with hload | hwritten
      · exact Or.inl ((filesOf_booted drive env hd hi).mpr hload)
      · exact Or.inr hwritten

/-- The surroundings of a boot that cannot read the first sector of slot 1. -/
def Env.slotFails : Env := { Env.faultless with read := fun lba => decide (lba ≠ 2059) }

section SlotFails

variable {w : SectorWorld} (hf : Filled 1 w)

include hf

/-- It finds the one file there is. -/
lemma slotFails_header :
    bootHeader .primaryMaster Env.slotFails w.dev.disk = w.fs.fsHeader := by
  have hread : headerReads Env.slotFails = 3 := rfl
  rw [bootHeader, hread, tornHeader_all (Nat.le_refl 3), hf.onDisk.header]

lemma slotFails_name {i : Fin 32} (hi : w.fs.fsHeader.Used i) :
    entryName (w.fs.fsHeader.files i) = (letter 0).bytes := by
  have hlt := (hf.used i).mp hi
  rw [hf.names i hlt, Nat.lt_one_iff.mp hlt]

/-- It writes `README.txt` into slot 1. -/
lemma slotFails_written : (kernelBoot .primaryMaster Env.slotFails w.dev).fs.fsHeader
      = (fsFillSlot 1 readmeName readmeText
          (reboot .primaryMaster Env.slotFails w.dev).fs).fsHeader ∧
    (kernelBoot .primaryMaster Env.slotFails w.dev).fs.fsInitialized = true := by
  have hready : (reboot .primaryMaster Env.slotFails w.dev).fs.fsInitialized = true :=
    (reboot_ready .primaryMaster w.dev).2
  have hheader := (reboot_valid .primaryMaster Env.slotFails hf.validImage).1
  rw [slotFails_header hf] at hheader
  have hnone : fsFindFile (sectorPlatform Env.slotFails)
      (reboot .primaryMaster Env.slotFails w.dev) readmeName = none := by
    rw [fsFindFile_eq_lookup _ (hheader ▸ hf.terminated), hheader,
      FilesystemHeader.lookup_eq_none_iff]
    intro i hi
    rw [slotFails_name hf hi]
    decide
  have hfree := hf.free_next (show 1 < 32 by omega)
  have hzero := fsCreateFile_succeeds (sectorPlatform Env.slotFails) hready hnone
    (by rw [hheader, hfree]; exact Option.some_ne_none _) readmeText_length_le
  obtain ⟨slot, -, hslot, -, hr⟩ := fsCreateFile_of_zero hzero
  rw [hheader, hfree, Option.some.injEq] at hslot
  rw [kernelBoot_eq, if_pos (by simp [fsFileExists, hnone]), World.print_fs, hr, ← hslot,
    fsSaveToDisk_fsHeader, fsSaveToDisk_fsInitialized]
  exact ⟨rfl, hready⟩

/-- There is a slot for another file. -/
lemma slotFails_creates : Succeeds (Env.faultless, .create (letter 1) (letter 1))
    (kernelBoot .primaryMaster Env.slotFails w.dev) := by
  have hheader := (reboot_valid .primaryMaster Env.slotFails hf.validImage).1
  rw [slotFails_header hf] at hheader
  obtain ⟨hwritten, hready⟩ := slotFails_written hf
  have hterm : (kernelBoot .primaryMaster Env.slotFails w.dev).fs.fsHeader.Terminated :=
    hwritten ▸ fsFillSlot_terminated (hheader ▸ hf.terminated)
  have hnone : fsFindFile (sectorPlatform Env.faultless)
      (kernelBoot .primaryMaster Env.slotFails w.dev) (letter 1) = none := by
    rw [fsFindFile_eq_lookup _ hterm, hwritten, FilesystemHeader.lookup_eq_none_iff]
    intro i hi
    by_cases heq : i = 1
    · rw [heq, fsFillSlot_files_self, entryName, nameBytes_storeName]
      decide
    · have hused := (fsFillSlot_used_iff.mp hi).resolve_left heq
      rw [fsFillSlot_files_of_ne heq, hheader, slotFails_name hf (hheader ▸ hused)]
      decide
  have hfree : fsFindFreeSlot (kernelBoot .primaryMaster Env.slotFails w.dev).fs.fsHeader
      ≠ none := by
    intro hfull
    rw [hwritten, fsFindFreeSlot_eq_none_iff] at hfull
    have hused := (fsFillSlot_used_iff.mp (hfull 2)).resolve_left (by decide)
    rw [hheader, hf.used] at hused
    exact absurd hused (by decide)
  rw [Succeeds, diskStep, fsCall]
  exact congrArg FsResult.code (fsCreateFile_succeeds _ hready hnone hfree (by decide))

end SlotFails

/-- One file on a formatted drive, a boot that cannot read a sector of the next slot, and another
file after it. -/
theorem files_survive_boot_letter :
    let dev := (final (machineStep .primaryMaster) (lettersCreated 1)
      (reboot .primaryMaster Env.faultless .blank)).dev
    diskFiles dev.disk
      ⊆ diskFiles (final diskStep (creations [(Env.faultless, letter 1, letter 1)])
          (kernelBoot .primaryMaster Env.slotFails dev)).dev.disk := by
  intro dev
  have hf := filled_letters .primaryMaster formats_blank 1 (by omega)
  have hd : ValidImage dev.disk := hf.validImage
  have hheader : (diskHeader dev.disk) = _ := hf.onDisk.header
  refine (files_survive_boot_iff .primaryMaster Env.slotFails (fun _ => rfl) dev hd
    [(Env.faultless, letter 1, letter 1)] (by simp [Env.faultless_allStored])
    ⟨slotFails_creates hf, trivial⟩).mpr (Or.inr fun i hi => Or.inl ⟨?_, ?_⟩)
  · have hlt := i.isLt
    rw [show headerReads Env.slotFails = 3 from rfl, usedByteSector]
    omega
  · intro j hj _
    refine ⟨rfl, decide_eq_true ?_⟩
    obtain ⟨hsize, hoff⟩ := hd.wellFormed.laidOut i hi
    rw [hheader, hf.used] at hi
    omega

/-- The surroundings of a boot that cannot read the first header sector. -/
def Env.headerFails : Env := { Env.faultless with read := fun lba => decide (lba ≠ 2048) }

/-- Then `README.txt` is written, and the file that was there is gone. -/
lemma headerFails_loses {w : SectorWorld} (hf : Filled 1 w) (hd : ValidImage w.dev.disk) :
    ¬ diskFiles w.dev.disk
      ⊆ diskFiles (kernelBoot .primaryMaster Env.headerFails w.dev).dev.disk := by
  have hheader : bootHeader .primaryMaster Env.headerFails w.dev.disk
      = (bootState .primaryMaster).fsHeader := by
    rw [bootHeader, show headerReads Env.headerFails = 0 from rfl, tornHeader_zero]
  have hwrites : WritesReadme .primaryMaster Env.headerFails w.dev.disk := by
    rw [WritesReadme, hheader]
    constructor
    · exact FilesystemHeader.lookup_eq_none_iff.mpr fun i hi => absurd hi ((bootState_empty _).2 i)
    · rw [ne_eq, fsFindFreeSlot_eq_none_iff]
      exact fun hall => (bootState_empty _).2 0 (hall 0)
  have hused : (diskHeader w.dev.disk).Used 0 := by
    rw [hf.onDisk.header]
    exact (hf.used 0).mpr (by decide)
  have hname : (diskFile w.dev.disk 0).1 = (letter 0).bytes := by
    rw [diskFile, hf.onDisk.header]
    exact hf.names 0 (by decide)
  have hin : diskFile w.dev.disk 0 ∈ diskFiles w.dev.disk := ⟨0, hused, rfl, rfl⟩
  have hafter := (diskFiles_after_boot .primaryMaster Env.headerFails (fun _ => rfl) hd []
    (by simp) trivial).2 fun h => h.1 hwrites
  rw [show creations [] = [] from rfl, final_nil] at hafter
  intro hsub
  replace hin := hsub hin
  rw [hafter] at hin
  rcases hin with hbooted | ⟨-, hreadme⟩ | ⟨e, he, -⟩
  · exact absurd ((filesOf_booted _ _ hd hused).mp hbooted).1 (Nat.not_lt_zero _)
  · rw [hreadme] at hname
    exact absurd hname (by decide)
  · exact absurd he (by simp)

/-- One file on a formatted drive, and a boot that cannot read the first header sector. -/
theorem boot_loses_letter :
    let dev := (final (machineStep .primaryMaster) (lettersCreated 1)
      (reboot .primaryMaster Env.faultless .blank)).dev
    ValidImage dev.disk ∧
      ¬ diskFiles dev.disk
        ⊆ diskFiles (kernelBoot .primaryMaster Env.headerFails dev).dev.disk := by
  have hf := filled_letters .primaryMaster formats_blank 1 (by omega)
  exact ⟨hf.validImage, headerFails_loses hf hf.validImage⟩

end SzymOS
