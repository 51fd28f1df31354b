import SzymOS.Filesystem.Directory
import SzymOS.Lib.BlockWrites

/-!
# The file system on a drive made of sectors

Here the platform is a drive that holds 512 bytes per sector and returns what was last stored
there.  What may go wrong is decided by an `Env`, sector by sector: a read may fail; a write may
be refused, or acknowledged and yet lost.  A call of the file system reads or writes each sector
at most once, so an `Env` is all that can happen during one call.

The file gives closed forms for everything the module does to the disk and takes from it.

A drive of this kind is what the authors of `filesystem.c` have in mind: a sector that has been
written can be read again.  It is an abstraction of the real device, which is behind ports and can
be late, and it is connected with it elsewhere; here it is the level at which results about files
and disks are stated, because at this level a disk is a value, and a reboot is a function of it.

The environment may do anything to each sector, in every call anew.  In particular a write may be
acknowledged and lost, which is what happens when the last status of a drive is not waited for, and
reads may fail in one call and succeed in the next.  Results that need a drive which keeps what it
takes say so.

* `save_eq` — a save is one run of 259 sector writes (`writeFrom`).
* `save_onDisk`, `save_cut`, `save_outside` — what is on the disk after a save that is complete,
  after one that is cut short, and outside the region of the file system after any.
* `fsReadHeaderSectors_eq`, `fsReadDataSectors_eq` — what is in memory after a load, whichever
  reads failed.
* `load_failed`, `load_szymfs`, `load_other` — the three ends of a load.
-/

set_option autoImplicit false

namespace SzymOS

open Bytes Blocks

/-! ## The platform

The three outcomes of a write are those of the library of write-outs, and so are the closed forms.
`AllRead` and `AllStored` are the two ways in which everything goes well, and `CutAfter` is a power
failure: a save comes through to its `k`-th sector and no further. -/

/-- A drive, and what has been sent to the terminal. -/
structure SectorDev where
  disk : ℕ → Sector
  term : List TermCall

/-- What the surroundings decide during one call: which sector reads succeed, what becomes of
each sector write, and what lies in memory around `fs_header` and `fs_data`. -/
structure Env where
  read : ℕ → Bool
  write : ℕ → Outcome
  afterHeader : ℕ → UInt8
  aroundData : ℕ → UInt8

def sectorPlatform (env : Env) : Platform SectorDev where
  readSector _ _ lba d := (if env.read lba then some (d.disk lba) else none, d)
  writeSector _ _ lba buffer d :=
    match env.write lba with
    | .stored => (0, { d with disk := Function.update d.disk lba buffer })
    | .lost => (0, d)
    | .refused => (-1, d)
  print call d := { d with term := d.term ++ [call] }
  afterHeader _ := env.afterHeader
  aroundData _ := env.aroundData

section Platform

variable {env : Env} {ioBase : UInt16} {driveNum : UInt8} {lba : ℕ} {buffer : Sector}
  {d : SectorDev}

lemma writeSector_stored (h : env.write lba = .stored) :
    (sectorPlatform env).writeSector ioBase driveNum lba buffer d
      = (0, { d with disk := Function.update d.disk lba buffer }) := by
  simp only [sectorPlatform, h]

lemma writeSector_lost (h : env.write lba = .lost) :
    (sectorPlatform env).writeSector ioBase driveNum lba buffer d = (0, d) := by
  simp only [sectorPlatform, h]

lemma writeSector_refused (h : env.write lba = .refused) :
    (sectorPlatform env).writeSector ioBase driveNum lba buffer d = (-1, d) := by
  simp only [sectorPlatform, h]

lemma readSector_eq : (sectorPlatform env).readSector ioBase driveNum lba d
    = (if env.read lba then some (d.disk lba) else none, d) := rfl

end Platform

/-- Every read of the call succeeds. -/
def Env.AllRead (env : Env) : Prop := ∀ lba, env.read lba = true

/-- Every write of the call is stored. -/
def Env.AllStored (env : Env) : Prop := ∀ lba, env.write lba = .stored

/-- The drive stores the first `k` sector writes of a save and refuses the rest. -/
def Env.CutAfter (env : Env) (k : ℕ) : Prop := env.write = cut fsStartSector k

abbrev SectorWorld := World SectorDev

/-- Printing adds to the terminal's log, and does nothing else. -/
lemma print_eq (env : Env) (calls : List TermCall) (w : SectorWorld) :
    w.print (sectorPlatform env) calls
      = { w with dev := { w.dev with term := w.dev.term ++ calls } } := by
  obtain ⟨fs, dev⟩ := w
  simp only [World.print]
  induction calls generalizing dev with
  | nil => simp
  | cons call calls ih =>
      rw [List.foldl_cons, ih]
      simp [sectorPlatform]

@[simp] lemma print_disk (env : Env) (calls : List TermCall) (w : SectorWorld) :
    (w.print (sectorPlatform env) calls).dev.disk = w.dev.disk := by
  rw [print_eq]

/-- A message printed only in some cases. -/
lemma print_if (env : Env) (c : Prop) [Decidable c] (calls : List TermCall) (w : SectorWorld) :
    (if c then w.print (sectorPlatform env) calls else w).fs = w.fs ∧
      (if c then w.print (sectorPlatform env) calls else w).dev.disk = w.dev.disk := by
  split_ifs
  · exact ⟨rfl, print_disk _ _ _⟩
  · exact ⟨rfl, rfl⟩

/-! ## The disk as bytes

The region of the file system is 259 sectors long and begins at sector 2048.  As bytes it is the
header in its three sectors, of which the last 120 bytes belong to nobody, and the data behind it.
`OnDisk` says that the disk holds what memory holds. -/

/-- Byte `p` of the file system's part of the disk. -/
def diskByte (d : ℕ → Sector) (p : ℕ) : UInt8 := (d (2048 + p / 512)).byte (p % 512)

/-- The header on disk. -/
def diskHeader (d : ℕ → Sector) : FilesystemHeader := headerOfBytes (diskByte d)

/-- The data on disk, which starts behind the three header sectors. -/
def diskData (d : ℕ → Sector) (q : ℕ) : UInt8 := diskByte d (1536 + q)

/-- The disk holds the file system that is in memory. -/
structure OnDisk (s : FsState) (d : ℕ → Sector) : Prop where
  header : diskHeader d = s.fsHeader
  data : ∀ q < 131072, diskData d q = s.fsData q

/-! ## Saving

Both write loops are runs of `writeFrom`, and the second one starts where the first ends; so a save
is a single run over 259 sectors, of an image that is fixed when the save begins.  Nothing in the
loops depends on what has been written before. -/

/-- The sector a save sends to each address. -/
def saveImage (env : Env) (w : SectorWorld) (lba : ℕ) : Sector :=
  if lba < 2051 then headerSectorBuffer (sectorPlatform env) w (lba - 2048)
  else dataSectorBuffer w (lba - 2051)

lemma saveImage_congr {env : Env} {w w' : SectorWorld} (hh : w'.fs.fsHeader = w.fs.fsHeader)
    (hd : w'.fs.fsData = w.fs.fsData) : saveImage env w' = saveImage env w := by
  have hmem : headerMemory (sectorPlatform env) w' = headerMemory (sectorPlatform env) w := by
    funext p
    simp only [headerMemory, hh]
    rfl
  funext lba
  rw [saveImage, saveImage, headerSectorBuffer, headerSectorBuffer, hmem, dataSectorBuffer,
    dataSectorBuffer, hd]

/-- **What a write loop does.**  To the disk, what `writeFrom` does; and it clears
`fs_persistent` when a write is refused. -/
lemma fsWriteSectors_eq (env : Env) (start : ℕ) (sectorBuffer : SectorWorld → ℕ → Sector)
    (error : String) (image : ℕ → Sector) (n i : ℕ) (w : SectorWorld)
    (hsel : w.fs.fsDriveSelected = true)
    (himage : ∀ (w' : SectorWorld) (j : ℕ), w'.fs.fsHeader = w.fs.fsHeader →
      w'.fs.fsData = w.fs.fsData → i ≤ j → j < i + n → sectorBuffer w' j = image (start + j)) :
    (fsWriteSectors (sectorPlatform env) start sectorBuffer error n i w).1
        = (writeFrom env.write image n (start + i) w.dev.disk).1 ∧
      (fsWriteSectors (sectorPlatform env) start sectorBuffer error n i w).2.dev.disk
        = (writeFrom env.write image n (start + i) w.dev.disk).2 ∧
      (fsWriteSectors (sectorPlatform env) start sectorBuffer error n i w).2.fs.fsPersistent
        = ((writeFrom env.write image n (start + i) w.dev.disk).1 && w.fs.fsPersistent) := by
  induction n generalizing i w with
  | zero => simp [fsWriteSectors, writeFrom]
  | succ n ih =>
      have hbuf : sectorBuffer w i = image (start + i) :=
        himage w i rfl rfl (Nat.le_refl _) (by omega)
      have hnext : start + i + 1 = start + (i + 1) := by omega
      simp only [fsWriteSectors, fsWriteSectorDirect, hsel, hbuf, writeFrom, hnext]
      cases ho : env.write (start + i) with
      | stored =>
          simp only [writeSector_stored ho]
          exact ih (i + 1) { w with dev := { w.dev with
              disk := Function.update w.dev.disk (start + i) (image (start + i)) } } hsel
            fun w' j h1 h2 h3 h4 => himage w' j h1 h2 (by omega) (by omega)
      | lost =>
          simp only [writeSector_lost ho]
          exact ih (i + 1) w hsel fun w' j h1 h2 h3 h4 => himage w' j h1 h2 (by omega) (by omega)
      | refused => simp [writeSector_refused ho]

lemma fsWriteHeaderSectors_eq (env : Env) (w : SectorWorld) (hsel : w.fs.fsDriveSelected = true) :
    (fsWriteHeaderSectors (sectorPlatform env) w).1
        = (writeFrom env.write (saveImage env w) 3 2048 w.dev.disk).1 ∧
      (fsWriteHeaderSectors (sectorPlatform env) w).2.dev.disk
        = (writeFrom env.write (saveImage env w) 3 2048 w.dev.disk).2 ∧
      (fsWriteHeaderSectors (sectorPlatform env) w).2.fs.fsPersistent
        = ((writeFrom env.write (saveImage env w) 3 2048 w.dev.disk).1 && w.fs.fsPersistent) := by
  refine fsWriteSectors_eq env fsStartSector _ _ (saveImage env w) 3 0 w hsel ?_
  intro w' j hh hd _ hj
  rw [← saveImage_congr hh hd, saveImage, if_pos (by simp only [fsStartSector]; omega)]
  simp only [fsStartSector, Nat.add_sub_cancel_left]

lemma fsWriteDataSectors_eq (env : Env) (w : SectorWorld) (hsel : w.fs.fsDriveSelected = true) :
    (fsWriteDataSectors (sectorPlatform env) w).1
        = (writeFrom env.write (saveImage env w) 256 2051 w.dev.disk).1 ∧
      (fsWriteDataSectors (sectorPlatform env) w).2.dev.disk
        = (writeFrom env.write (saveImage env w) 256 2051 w.dev.disk).2 ∧
      (fsWriteDataSectors (sectorPlatform env) w).2.fs.fsPersistent
        = ((writeFrom env.write (saveImage env w) 256 2051 w.dev.disk).1
            && w.fs.fsPersistent) := by
  refine fsWriteSectors_eq env (fsStartSector + headerSectors) _ _ (saveImage env w) 256 0 w
    hsel ?_
  intro w' j hh hd _ hj
  rw [← saveImage_congr hh hd, saveImage,
    if_neg (by simp only [fsStartSector, headerSectors]; omega)]
  simp only [fsStartSector, headerSectors, Nat.reduceAdd, Nat.add_sub_cancel_left]

/-- A drive that both modules take to be selected. -/
def FsState.HasDrive (s : FsState) : Prop := diskAvailable s = true ∧ s.fsDriveSelected = true

lemma FsState.HasDrive.congr {s s' : FsState} (h : s.HasDrive)
    (h1 : s'.selectedDrive = s.selectedDrive) (h2 : s'.fsDriveSelected = s.fsDriveSelected) :
    s'.HasDrive := by
  obtain ⟨ha, hs⟩ := h
  refine ⟨?_, h2.trans hs⟩
  rw [diskAvailable, ataIsSelected] at ha ⊢
  rw [h1]
  exact ha

lemma FsState.selected_hasDrive (drive : DriveId) : (FsState.selected (some drive)).HasDrive := by
  refine ⟨?_, rfl⟩
  simp [diskAvailable, ataIsSelected, FsState.selected]

/-- **A save is one run of 259 sector writes.** -/
theorem save_eq (env : Env) {w : SectorWorld} (h : w.fs.HasDrive) :
    (fsSaveToDisk (sectorPlatform env) w).dev.disk
        = (writeFrom env.write (saveImage env w) 259 2048 w.dev.disk).2 ∧
      (fsSaveToDisk (sectorPlatform env) w).fs.fsPersistent
        = ((writeFrom env.write (saveImage env w) 259 2048 w.dev.disk).1
            && w.fs.fsPersistent) := by
  obtain ⟨hok, hdisk, hper⟩ := fsWriteHeaderSectors_eq env w h.2
  have hfs := fsWriteSectors_fs (sectorPlatform env) fsStartSector
    (headerSectorBuffer (sectorPlatform env)) "[ERROR] Failed to write filesystem header\n"
    headerSectors 0 w
  have hadd := writeFrom_add (o := env.write) (b := saveImage env w) 3 256 2048 w.dev.disk
  simp only [Nat.reduceAdd] at hadd
  rw [fsSaveToDisk, if_neg (by simp [h.1]), hadd]
  cases hh : fsWriteHeaderSectors (sectorPlatform env) w with
  | mk ok w1 =>
      rw [hh] at hok hdisk hper
      simp only at hok hdisk hper
      rw [fsWriteHeaderSectors] at hh
      rw [hh] at hfs
      obtain ⟨b, hb⟩ := hfs
      rw [← hok]
      cases ok with
      | false =>
          rw [← hok] at hper
          exact ⟨hdisk, by rw [hper, cond_false, ← hok]⟩
      | true =>
          -- the header is written; the data loop goes on from there
          have hsel1 : w1.fs.fsDriveSelected = true := by rw [hb]; exact h.2
          have himage : saveImage env w1 = saveImage env w :=
            saveImage_congr (by rw [hb]) (by rw [hb])
          obtain ⟨hok2, hdisk2, hper2⟩ := fsWriteDataSectors_eq env w1 hsel1
          rw [himage, hdisk] at hok2 hdisk2 hper2
          have hper1 : w1.fs.fsPersistent = w.fs.fsPersistent := by
            rw [hper, ← hok, Bool.true_and]
          rw [hper1] at hper2
          simp only [cond_true]
          cases hd : fsWriteDataSectors (sectorPlatform env) w1 with
          | mk ok2 w2 =>
              rw [hd] at hok2 hdisk2 hper2
              simp only at hok2 hdisk2 hper2
              cases ok2 with
              | false => exact ⟨hdisk2, hper2⟩
              | true =>
                  simp only
                  split_ifs
                  · exact ⟨by rw [print_disk]; exact hdisk2, by rw [World.print_fs]; exact hper2⟩
                  · exact ⟨hdisk2, hper2⟩

/-- With no drive selected a save only clears `fs_persistent`. -/
lemma save_noDrive (env : Env) {w : SectorWorld} (h : diskAvailable w.fs = false) :
    (fsSaveToDisk (sectorPlatform env) w).dev.disk = w.dev.disk ∧
      (fsSaveToDisk (sectorPlatform env) w).fs.fsPersistent = false := by
  rw [fsSaveToDisk, if_pos (by simp [h])]
  exact ⟨print_disk _ _ _, rfl⟩

/-! ### The saved image, byte by byte

The sector of the image at an address is a function of header and data, and its bytes are theirs.
From this and the closed form of `writeFrom` follow the three results on saves. -/

lemma diskByte_congr {d d' : ℕ → Sector} {p : ℕ} (h : d (2048 + p / 512) = d' (2048 + p / 512)) :
    diskByte d p = diskByte d' p := by rw [diskByte, diskByte, h]

lemma diskByte_saveImage_header (env : Env) (w : SectorWorld) {p : ℕ} (hp : p < 1416) :
    diskByte (saveImage env w) p = headerByte w.fs.fsHeader p := by
  have hsec : 2048 + p / 512 - 2048 = p / 512 := by omega
  have hpos : p / 512 * sectorSize + p % 512 = p := by simp only [sectorSize]; omega
  rw [diskByte, saveImage, if_pos (by omega), hsec, headerSectorBuffer,
    Sector.byte_ofMemory _ _ (by omega), hpos, headerMemory, if_pos hp]

lemma diskByte_saveImage_data (env : Env) (w : SectorWorld) {q : ℕ} (hq : q < 131072) :
    diskByte (saveImage env w) (1536 + q) = w.fs.fsData q := by
  have hsec : 2048 + (1536 + q) / 512 - 2051 = q / 512 := by omega
  have hlt : q / 512 * sectorSize < fsDataSize := by simp only [sectorSize, fsDataSize]; omega
  have hclamp : clampedCopySize (q / 512 * sectorSize) fsDataSize = 512 := by
    rw [clampedCopySize, if_neg]
    simp only [sectorSize, fsDataSize]
    omega
  have hpos : q / 512 * sectorSize + (0 + (1536 + q) % 512 - 0) = q := by
    simp only [sectorSize]
    omega
  rw [diskByte, saveImage, if_neg (by omega), hsec, dataSectorBuffer]
  simp only [if_pos hlt, hclamp]
  rw [Sector.byte_ofMemory _ _ (by omega), splice_inside (by omega) (by omega), hpos]

/-- **A save whose writes are all stored leaves the file system on disk.** -/
theorem save_onDisk {env : Env} {w : SectorWorld} (h : w.fs.HasDrive)
    (hstored : ∀ lba, 2048 ≤ lba → lba < 2307 → env.write lba = .stored) :
    OnDisk w.fs (fsSaveToDisk (sectorPlatform env) w).dev.disk := by
  have hsector : ∀ p < 132608, diskByte (fsSaveToDisk (sectorPlatform env) w).dev.disk p
      = diskByte (saveImage env w) p := by
    intro p hp
    refine diskByte_congr ?_
    rw [(save_eq env h).1]
    exact writeFrom_all_stored _ _ _ (fun x h1 h2 => hstored x h1 (by omega)) (by omega) (by omega)
  constructor
  · refine (headerOfBytes_congr ?_).trans (headerOfBytes_headerByte _)
    intro p hp
    rw [hsector p (by omega), diskByte_saveImage_header env w hp]
  · intro q hq
    rw [diskData, hsector _ (by omega), diskByte_saveImage_data env w hq]

/-- What is on disk stays the same as what is in memory, since a save does not change that. -/
lemma OnDisk.saved {w : SectorWorld} {d : ℕ → Sector} (h : OnDisk w.fs d) (env : Env) :
    OnDisk (fsSaveToDisk (sectorPlatform env) w).fs d where
  header := by
    rw [fsSaveToDisk_fsHeader]
    exact h.header
  data := by
    rw [fsSaveToDisk_fsData]
    exact h.data

/-- **A save cut after `k` sectors.**  The first `512 * k` bytes are new, the others are not. -/
theorem save_cut {env : Env} {w : SectorWorld} (h : w.fs.HasDrive) {k : ℕ}
    (hcut : env.CutAfter k) {p : ℕ} (hp : p < 132608) :
    diskByte (fsSaveToDisk (sectorPlatform env) w).dev.disk p
      = if p < 512 * k then diskByte (saveImage env w) p else diskByte w.dev.disk p := by
  have hw := writeFrom_cut (b := saveImage env w) 259 2048 k w.dev.disk
    (x := 2048 + p / 512) (by omega) (by omega)
  have hcut' : env.write = cut 2048 k := hcut
  rw [diskByte, (save_eq env h).1, hcut', hw]
  split_ifs with h1 h2 h2
  · rfl
  · omega
  · omega
  · rfl

/-- Sectors that do not belong to the file system are never written. -/
theorem save_outside {env : Env} {w : SectorWorld} {lba : ℕ} (hlba : lba < 2048 ∨ 2307 ≤ lba)
    (h : w.fs.HasDrive) : (fsSaveToDisk (sectorPlatform env) w).dev.disk lba = w.dev.disk lba := by
  rw [(save_eq env h).1]
  exact writeFrom_outside _ _ _ (by omega)

/-! ## Loading

The header loop stops at its first failure, so what it leaves depends on how many sectors it has
read.  The data loop goes on, so what it leaves depends on which.  Both are stated for an arbitrary
part of the loop and proved by induction on its length. -/

lemma fsReadSectorDirect_ok {env : Env} {w : SectorWorld} {lba : ℕ}
    (hsel : w.fs.fsDriveSelected = true) (hr : env.read lba = true) :
    fsReadSectorDirect (sectorPlatform env) lba w = (some (w.dev.disk lba), w) := by
  rw [fsReadSectorDirect, if_neg (by simp [hsel]), readSector_eq, if_pos hr]

lemma fsReadSectorDirect_failed {env : Env} {w : SectorWorld} {lba : ℕ}
    (hsel : w.fs.fsDriveSelected = true) (hr : env.read lba = false) :
    fsReadSectorDirect (sectorPlatform env) lba w = (none, w) := by
  rw [fsReadSectorDirect, if_neg (by simp [hsel]), readSector_eq, if_neg (by simp [hr])]

/-- How many of `n` sectors from `a` on can be read before the first failure. -/
def readRun (read : ℕ → Bool) : (n a : ℕ) → ℕ
  | 0, _ => 0
  | n + 1, a => if read a then readRun read n (a + 1) + 1 else 0

lemma readRun_eq_self_iff (read : ℕ → Bool) (n a : ℕ) :
    readRun read n a = n ↔ ∀ x, a ≤ x → x < a + n → read x = true := by
  induction n generalizing a with
  | zero => simp only [readRun, true_iff]; omega
  | succ n ih =>
      rw [readRun]
      split_ifs with hr
      · rw [Nat.add_right_cancel_iff, ih]
        constructor
        · intro h x h1 h2
          rcases Nat.eq_or_lt_of_le h1 with rfl | h1
          · exact hr
          · exact h x h1 (by omega)
        · exact fun h x h1 h2 => h x (by omega) (by omega)
      · exact ⟨False.elim, fun h => absurd (h a (Nat.le_refl _) (by omega)) hr⟩

/-- The header sectors a load gets to before its first failure. -/
def headerReads (env : Env) : ℕ := readRun env.read 3 2048

/-- A header whose bytes from sector `a` up to sector `b` have been loaded. -/
def loadedHeader (h : FilesystemHeader) (d : ℕ → Sector) (a b : ℕ) : FilesystemHeader :=
  headerOfBytes fun p => if 512 * a ≤ p ∧ p < 512 * b then diskByte d p else headerByte h p

lemma headerByte_loadedHeader (h : FilesystemHeader) (d : ℕ → Sector) (a b : ℕ) {p : ℕ}
    (hp : p < 1416) : headerByte (loadedHeader h d a b) p
      = if 512 * a ≤ p ∧ p < 512 * b then diskByte d p else headerByte h p :=
  headerByte_headerOfBytes _ hp

lemma loadedHeader_all (h : FilesystemHeader) (d : ℕ → Sector) :
    loadedHeader h d 0 3 = diskHeader d :=
  headerOfBytes_congr fun p hp => if_pos (by omega)

lemma loadedHeader_none (h : FilesystemHeader) (d : ℕ → Sector) (a : ℕ) :
    loadedHeader h d a a = h :=
  (headerOfBytes_congr fun p _ => if_neg (by omega)).trans (headerOfBytes_headerByte h)

/-- One sector copied over the header. -/
lemma copyHeaderSector_eq {i : ℕ} (hi : i < 3) (d : ℕ → Sector) (s : FsState) :
    copyHeaderSector i (d (2048 + i)) s
      = { s with fsHeader := loadedHeader s.fsHeader d i (i + 1) } := by
  have hlt : i * sectorSize < headerSize := by simp only [sectorSize, headerSize]; omega
  have hclamp : clampedCopySize (i * sectorSize) headerSize = min 512 (1416 - 512 * i) := by
    rw [clampedCopySize]
    simp only [sectorSize, headerSize]
    split_ifs <;> omega
  have hbytes : ∀ p < 1416,
      splice (headerByte s.fsHeader) (i * sectorSize) (clampedCopySize (i * sectorSize) headerSize)
          (d (2048 + i)).byte p
        = if 512 * i ≤ p ∧ p < 512 * (i + 1) then diskByte d p else headerByte s.fsHeader p := by
    intro p hp
    rw [hclamp]
    simp only [sectorSize]
    split_ifs with hin
    · have hdiv : p / 512 = i := by omega
      have hmod : p % 512 = p - i * 512 := by omega
      rw [splice_inside (by omega) (by omega), diskByte, hdiv, hmod]
    · exact splice_outside (by omega)
  simp only [copyHeaderSector, if_pos hlt, loadedHeader]
  rw [headerOfBytes_congr hbytes]

/-- **What the header loop leaves in memory**, wherever it had to stop. -/
theorem fsReadHeaderSectors_eq (env : Env) (n i : ℕ) (hn : i + n ≤ 3) (w : SectorWorld)
    (hsel : w.fs.fsDriveSelected = true) :
    (fsReadHeaderSectors (sectorPlatform env) n i w).1
        = decide (readRun env.read n (2048 + i) = n) ∧
      (fsReadHeaderSectors (sectorPlatform env) n i w).2.fs
        = { w.fs with
            fsHeader := loadedHeader w.fs.fsHeader w.dev.disk i
              (i + readRun env.read n (2048 + i)) } ∧
      (fsReadHeaderSectors (sectorPlatform env) n i w).2.dev.disk = w.dev.disk := by
  induction n generalizing i w with
  | zero =>
      refine ⟨rfl, ?_, rfl⟩
      simp only [fsReadHeaderSectors, readRun, Nat.add_zero, loadedHeader_none]
  | succ n ih =>
      have hnext : 2048 + i + 1 = 2048 + (i + 1) := by omega
      cases hr : env.read (2048 + i) with
      | false =>
          have hnone : loadedHeader w.fs.fsHeader w.dev.disk i (i + 0) = w.fs.fsHeader :=
            loadedHeader_none _ _ _
          rw [fsReadHeaderSectors, fsReadSectorDirect_failed hsel hr, readRun,
            if_neg (by simp [hr]), hnone]
          exact ⟨by simp, rfl, print_disk _ _ _⟩
      | true =>
          rw [fsReadHeaderSectors, fsReadSectorDirect_ok hsel hr, readRun, if_pos hr, hnext]
          obtain ⟨hok, hfs, hdisk⟩ := ih (i + 1) (by omega)
            { w with fs := copyHeaderSector i (w.dev.disk (2048 + i)) w.fs }
            (by rw [copyHeaderSector_eq (by omega)]; exact hsel)
          refine ⟨?_, ?_, hdisk⟩
          · rw [hok]
            simp only [Nat.add_right_cancel_iff]
          · rw [hfs, copyHeaderSector_eq (by omega)]
            -- the two copies are one, up to where the second one stopped
            have hjoin : loadedHeader (loadedHeader w.fs.fsHeader w.dev.disk i (i + 1)) w.dev.disk
                  (i + 1) (i + 1 + readRun env.read n (2048 + (i + 1)))
                = loadedHeader w.fs.fsHeader w.dev.disk i
                    (i + (readRun env.read n (2048 + (i + 1)) + 1)) := by
              refine headerOfBytes_congr ?_
              intro p hp
              rw [headerByte_loadedHeader _ _ _ _ hp]
              split_ifs <;> first | rfl | omega
            exact congrArg (fun h => { w.fs with fsHeader := h }) hjoin

/-- The data after the sectors from `a` up to `b` have been read, as far as they could be. -/
def loadedData (env : Env) (old : ℕ → UInt8) (d : ℕ → Sector) (a b : ℕ) (q : ℕ) : UInt8 :=
  if (512 * a ≤ q ∧ q < 512 * b) ∧ env.read (2051 + q / 512) = true then diskData d q else old q

/-- **What the data loop leaves in memory**: the sectors that could be read. -/
theorem fsReadDataSectors_eq (env : Env) (n i : ℕ) (w : SectorWorld)
    (hsel : w.fs.fsDriveSelected = true) :
    (fsReadDataSectors (sectorPlatform env) n i w).fs
        = { w.fs with fsData := loadedData env w.fs.fsData w.dev.disk i (i + n) } ∧
      (fsReadDataSectors (sectorPlatform env) n i w).dev.disk = w.dev.disk := by
  induction n generalizing i w with
  | zero =>
      have hnone : loadedData env w.fs.fsData w.dev.disk i (i + 0) = w.fs.fsData := by
        funext q
        exact if_neg (by omega)
      rw [hnone]
      exact ⟨rfl, rfl⟩
  | succ n ih =>
      have hlba : fsStartSector + headerSectors + i = 2051 + i := by
        simp only [fsStartSector, headerSectors]
      have hend : i + (n + 1) = i + 1 + n := by omega
      cases hr : env.read (2051 + i) with
      | false =>
          rw [fsReadDataSectors, hlba, fsReadSectorDirect_failed hsel hr]
          obtain ⟨hfs, hdisk⟩ := ih (i + 1) (w.print (sectorPlatform env)
            [.printf "[DEBUG] Failed to read data sector %d\n" [UInt32.ofNat i]]) hsel
          rw [print_disk] at hfs hdisk
          refine ⟨?_, hdisk⟩
          have hskip : loadedData env w.fs.fsData w.dev.disk (i + 1) (i + 1 + n)
              = loadedData env w.fs.fsData w.dev.disk i (i + (n + 1)) := by
            funext q
            rw [loadedData, loadedData, hend]
            by_cases hq : q / 512 = i
            · rw [hq, hr]
              simp
            · have hiff : (512 * (i + 1) ≤ q ∧ q < 512 * (i + 1 + n))
                  ↔ (512 * i ≤ q ∧ q < 512 * (i + 1 + n)) := by omega
              simp only [hiff]
          rw [← hskip]
          exact hfs
      | true =>
          rw [fsReadDataSectors, hlba, fsReadSectorDirect_ok hsel hr]
          obtain ⟨hfs, hdisk⟩ := ih (i + 1)
            { w with fs := { w.fs with
                fsData := splice w.fs.fsData (i * sectorSize) sectorSize
                  (w.dev.disk (2051 + i)).byte } } hsel
          refine ⟨?_, hdisk⟩
          have hjoin : loadedData env (splice w.fs.fsData (i * sectorSize) sectorSize
                (w.dev.disk (2051 + i)).byte) w.dev.disk (i + 1) (i + 1 + n)
              = loadedData env w.fs.fsData w.dev.disk i (i + (n + 1)) := by
            funext q
            rw [loadedData, loadedData, hend]
            simp only [sectorSize]
            by_cases hq : q / 512 = i
            · have hdiv : (1536 + q) / 512 = 3 + i := by omega
              have hmod : (1536 + q) % 512 = q - i * 512 := by omega
              have hsec : 2048 + (3 + i) = 2051 + i := by omega
              rw [if_neg (by omega), if_pos ⟨by omega, by rw [hq]; exact hr⟩,
                splice_inside (by omega) (by omega), diskData, diskByte, hdiv, hmod, hsec]
            · have hiff : (512 * (i + 1) ≤ q ∧ q < 512 * (i + 1 + n))
                  ↔ (512 * i ≤ q ∧ q < 512 * (i + 1 + n)) := by omega
              rw [splice_outside (by omega)]
              simp only [hiff]
          rw [← hjoin]
          exact hfs

/-! ## Booting

The three ways in which a load can end are three lemmas.  A boot ends as its load does, since
`fs_init` adds nothing but messages. -/

section Boot

variable {env : Env} {w : SectorWorld}

/-- What a load does when the header cannot be read: the sectors read before the failure stay in
the live header, and that is all. -/
lemma load_failed (h : w.fs.HasDrive) (hr : headerReads env ≠ 3) :
    (fsLoadFromDisk (sectorPlatform env) w).fs
        = { w.fs with
            fsHeader := loadedHeader w.fs.fsHeader w.dev.disk 0 (headerReads env) } ∧
      (fsLoadFromDisk (sectorPlatform env) w).dev.disk = w.dev.disk := by
  obtain ⟨hok, hfs, hdisk⟩ := fsReadHeaderSectors_eq env 3 0 (by omega) w h.2
  rw [Nat.add_zero, ← headerReads] at hok hfs
  rw [Nat.zero_add] at hfs
  rw [decide_eq_false hr] at hok
  rw [fsLoadFromDisk, if_neg (by simp [h.1])]
  cases hh : fsReadHeaderSectors (sectorPlatform env) headerSectors 0 w with
  | mk ok w1 =>
      rw [hh] at hok hfs hdisk
      simp only at hok
      subst hok
      exact ⟨hfs, hdisk⟩

/-- What a load finds when the header can be read: the header on disk. -/
lemma load_header (h : w.fs.HasDrive) (hr : headerReads env = 3) :
    ∃ w1, fsReadHeaderSectors (sectorPlatform env) headerSectors 0 w = (true, w1) ∧
      w1.fs = { w.fs with fsHeader := diskHeader w.dev.disk } ∧ w1.dev.disk = w.dev.disk := by
  obtain ⟨hok, hfs, hdisk⟩ := fsReadHeaderSectors_eq env 3 0 (by omega) w h.2
  rw [Nat.add_zero, ← headerReads] at hok hfs
  rw [Nat.zero_add] at hfs
  rw [decide_eq_true hr] at hok
  rw [hr, loadedHeader_all] at hfs
  exact ⟨_, Prod.ext hok rfl, hfs, hdisk⟩

/-- A SzymFS whose header could be read: header and data come from the disk, except that data
sectors which could not be read keep what was in memory. -/
lemma load_szymfs (h : w.fs.HasDrive) (hr : headerReads env = 3)
    (hmagic : (diskHeader w.dev.disk).magic = szymfsMagic) :
    (fsLoadFromDisk (sectorPlatform env) w).fs
        = { w.fs with
            fsHeader := diskHeader w.dev.disk
            fsData := loadedData env w.fs.fsData w.dev.disk 0 256
            fsPersistent := true } ∧
      (fsLoadFromDisk (sectorPlatform env) w).dev.disk = w.dev.disk := by
  obtain ⟨w1, hread, hfs, hdisk⟩ := load_header h hr
  have hsel : w1.fs.fsDriveSelected = true := by rw [hfs]; exact h.2
  have hm : ¬ w1.fs.fsHeader.magic ≠ szymfsMagic := by rw [hfs]; exact not_not.mpr hmagic
  rw [fsLoadFromDisk, if_neg (by simp [h.1]), hread]
  simp only [if_neg hm, World.print_fs, print_disk]
  obtain ⟨hdata, hdisk2⟩ := fsReadDataSectors_eq env dataSectors 0 (w1.print (sectorPlatform env)
    [.printf "[DEBUG] Reading %d data sectors...\n" [UInt32.ofNat dataSectors]]) hsel
  rw [print_disk, World.print_fs] at hdata
  rw [hdata, hdisk2, print_disk, hdisk, hfs]
  exact ⟨rfl, rfl⟩

/-- Anything else whose header could be read is formatted, and the result is saved. -/
lemma load_other (h : w.fs.HasDrive) (hr : headerReads env = 3)
    (hmagic : (diskHeader w.dev.disk).magic ≠ szymfsMagic) :
    ∃ w1 : SectorWorld, w1.fs = fsFormat { w.fs with fsHeader := diskHeader w.dev.disk } ∧
      w1.dev.disk = w.dev.disk ∧
      (fsLoadFromDisk (sectorPlatform env) w).fs = (fsSaveToDisk (sectorPlatform env) w1).fs ∧
      (fsLoadFromDisk (sectorPlatform env) w).dev.disk
        = (fsSaveToDisk (sectorPlatform env) w1).dev.disk := by
  obtain ⟨w1, hread, hfs, hdisk⟩ := load_header h hr
  have hm : w1.fs.fsHeader.magic ≠ szymfsMagic := by rw [hfs]; exact hmagic
  refine ⟨{ (w1.print (sectorPlatform env) (coloured .yellow
    (.writestring "[INFO] No existing filesystem found, creating new one\n"))) with
      fs := fsFormat w1.fs }, by rw [hfs], by rw [← hdisk]; exact print_disk _ _ _, ?_⟩
  rw [fsLoadFromDisk, if_neg (by simp [h.1]), hread]
  simp only [if_pos hm, World.print_fs]
  exact print_if _ _ _ _

/-! ### fs_init

A restart keeps the drive and forgets everything else: the variables are those of a machine on which
a drive has just been selected. -/

lemma fsInitEmpty_hasDrive {s : FsState} (h : s.HasDrive) : (fsInitEmpty s).HasDrive :=
  h.congr rfl rfl

/-- What `fs_init` adds to a load is a line on the terminal. -/
lemma fsInit_eq (h : w.fs.HasDrive) :
    (fsInit (sectorPlatform env) w).fs
        = (fsLoadFromDisk (sectorPlatform env) { w with fs := fsInitEmpty w.fs }).fs ∧
      (fsInit (sectorPlatform env) w).dev.disk
        = (fsLoadFromDisk (sectorPlatform env) { w with fs := fsInitEmpty w.fs }).dev.disk := by
  have hav : diskAvailable (fsInitEmpty w.fs) = true := (fsInitEmpty_hasDrive h).1
  simp only [fsInit, hav, if_true]
  split_ifs
  · exact ⟨World.print_fs _ _ _, print_disk _ _ _⟩
  · exact ⟨World.print_fs _ _ _, print_disk _ _ _⟩

end Boot

/-- Start the machine again with this drive selected, and run `fs_init`. -/
def reboot (drive : DriveId) (env : Env) (dev : SectorDev) : SectorWorld :=
  fsInit (sectorPlatform env) { fs := FsState.selected (some drive), dev }

end SzymOS
