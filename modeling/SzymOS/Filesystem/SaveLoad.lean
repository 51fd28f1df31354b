import SzymOS.Filesystem.SectorDrive
import SzymOS.Filesystem.Steps
import SzymOS.Lib.Run

/-!
# What a save leaves, and what a load finds

Boots of the sector drive in closed form, and two results about whole histories on it.

The first of the two is what persistence means.  It is not a fact about one save and one load:
between them lies an arbitrary history, in which saves have been cut short, sectors lost and calls
refused, and the save that matters is any call that saves and whose sectors are all stored.  So what
has to be carried along the history is very little, namely that a drive is selected, that the module
is initialised and that the magic number stands in the header.

The second is about what the kernel tells its user.  The variable `fs_persistent` is set by a load
and by a format, and cleared by every failure; no save sets it.  After a failure it stays cleared
through all saves to come, however complete, so that it cannot be read as the result of the last
save.

* `reboot_szymfs`, `reboot_failed`, `reboot_blank` — the three things `fs_init` can find.
* `load_undoes_save` — after a save whose writes are all stored, a reboot reconstructs the header
  and the data.
* `persistent_truthful_iff` — when `fs_persistent` says whether the last save succeeded, and when
  it does not.

All three results rest on what a boot of the sector drive computes.  `reboot_eq` is the closed form,
and the three cases are read off it; `reboot_onDisk` says that a boot finds what is on the disk if
it can read all of it.  A save puts memory on the disk if all its writes are stored, and this is a
lemma of `SectorDrive.lean`.  Between a boot and the save that counts, `diskStep_booted` carries
what is needed along the history.
-/

set_option autoImplicit false

namespace SzymOS

open Bytes Blocks Transition

/-! ## Booting

The closed forms of the sector drive, for a machine that has just been switched on.  They differ in
what the three header sectors hold and in how many of them can be read. -/

/-- The variables when `fs_init` turns to the drive. -/
def bootState (drive : DriveId) : FsState := fsInitEmpty (FsState.selected (some drive))

lemma bootState_hasDrive (drive : DriveId) : (bootState drive).HasDrive :=
  fsInitEmpty_hasDrive (FsState.selected_hasDrive drive)

@[simp] lemma bootState_fsData (drive : DriveId) : (bootState drive).fsData = fun _ => 0 := by
  funext q
  simp [bootState, fsInitEmpty, FsState.selected, FsState.powerOn, splice]

lemma Env.AllRead.headerReads {env : Env} (h : env.AllRead) : SzymOS.headerReads env = 3 :=
  (readRun_eq_self_iff _ _ _).mpr fun x _ _ => h x

section Boot

variable (drive : DriveId) {env : Env} (dev : SectorDev)

lemma reboot_eq (env : Env) :
    (reboot drive env dev).fs
        = (fsLoadFromDisk (sectorPlatform env) { fs := bootState drive, dev }).fs ∧
      (reboot drive env dev).dev.disk
        = (fsLoadFromDisk (sectorPlatform env) { fs := bootState drive, dev }).dev.disk :=
  fsInit_eq (w := { fs := FsState.selected (some drive), dev }) (FsState.selected_hasDrive drive)

/-- **A boot that cannot read the header.**  The sectors read before the failure are in memory,
the rest of the header and all of the data are not, and the disk is as it was. -/
theorem reboot_failed (hr : headerReads env ≠ 3) :
    (reboot drive env dev).fs
        = { bootState drive with
            fsHeader := loadedHeader (bootState drive).fsHeader dev.disk 0 (headerReads env) } ∧
      (reboot drive env dev).dev.disk = dev.disk := by
  obtain ⟨hfs, hdisk⟩ := reboot_eq drive dev env
  obtain ⟨hfs', hdisk'⟩ := load_failed (w := { fs := bootState drive, dev })
    (bootState_hasDrive drive) hr
  exact ⟨hfs.trans hfs', hdisk.trans hdisk'⟩

/-- **A boot that finds a SzymFS.** -/
theorem reboot_szymfs (hr : headerReads env = 3)
    (hmagic : (diskHeader dev.disk).magic = szymfsMagic) :
    (reboot drive env dev).fs
        = { bootState drive with
            fsHeader := diskHeader dev.disk
            fsData := loadedData env (fun _ => 0) dev.disk 0 256
            fsPersistent := true } ∧
      (reboot drive env dev).dev.disk = dev.disk := by
  obtain ⟨hfs, hdisk⟩ := reboot_eq drive dev env
  obtain ⟨hfs', hdisk'⟩ := load_szymfs (w := { fs := bootState drive, dev })
    (bootState_hasDrive drive) hr hmagic
  simp only [bootState_fsData] at hfs'
  exact ⟨hfs.trans hfs', hdisk.trans hdisk'⟩

/-- **A boot that finds something else** formats the drive. -/
theorem reboot_blank (hr : headerReads env = 3)
    (hmagic : (diskHeader dev.disk).magic ≠ szymfsMagic) :
    ∃ w : SectorWorld, w.fs = fsFormat { bootState drive with fsHeader := diskHeader dev.disk } ∧
      w.dev.disk = dev.disk ∧
      (reboot drive env dev).fs = (fsSaveToDisk (sectorPlatform env) w).fs ∧
      (reboot drive env dev).dev.disk = (fsSaveToDisk (sectorPlatform env) w).dev.disk := by
  obtain ⟨hfs, hdisk⟩ := reboot_eq drive dev env
  obtain ⟨w, h1, h2, h3, h4⟩ := load_other (w := { fs := bootState drive, dev })
    (bootState_hasDrive drive) hr hmagic
  exact ⟨w, h1, h2, hfs.trans h3, hdisk.trans h4⟩

/-- Whatever a boot finds, the drive stays selected and the file system is initialised. -/
lemma reboot_ready : (reboot drive env dev).fs.HasDrive ∧
    (reboot drive env dev).fs.fsInitialized = true := by
  by_cases hr : headerReads env = 3
  · by_cases hmagic : (diskHeader dev.disk).magic = szymfsMagic
    · rw [(reboot_szymfs drive dev hr hmagic).1]
      exact ⟨bootState_hasDrive drive, rfl⟩
    · obtain ⟨w, hfs, -, hboot, -⟩ := reboot_blank drive dev hr hmagic
      have hinit : w.fs.fsInitialized = true := by rw [hfs]; rfl
      rw [hboot, fsSaveToDisk_fsInitialized]
      refine ⟨(bootState_hasDrive drive).congr ?_ ?_, hinit⟩
      · rw [fsSaveToDisk_selectedDrive, hfs]; rfl
      · rw [fsSaveToDisk_fsDriveSelected, hfs]; rfl
  · rw [(reboot_failed drive dev hr).1]
    exact ⟨bootState_hasDrive drive, rfl⟩

/-- A boot that reads the whole header ends with the magic number in memory, found or written. -/
lemma reboot_magic (hr : headerReads env = 3) :
    (reboot drive env dev).fs.fsHeader.magic = szymfsMagic := by
  by_cases hmagic : (diskHeader dev.disk).magic = szymfsMagic
  · rw [(reboot_szymfs drive dev hr hmagic).1]
    exact hmagic
  · obtain ⟨w, hfs, -, hboot, -⟩ := reboot_blank drive dev hr hmagic
    rw [hboot, fsSaveToDisk_fsHeader, hfs]
    rfl

/-- A boot whose reads all succeed finds what is on disk. -/
theorem reboot_onDisk (hread : env.AllRead) {s : FsState} (hdisk : OnDisk s dev.disk)
    (hmagic : s.fsHeader.magic = szymfsMagic) :
    (reboot drive env dev).fs.fsHeader = s.fsHeader ∧
      (∀ q < 131072, (reboot drive env dev).fs.fsData q = s.fsData q) ∧
      (reboot drive env dev).dev.disk = dev.disk := by
  obtain ⟨hfs, hsame⟩ := reboot_szymfs drive dev hread.headerReads
    (by rw [hdisk.header]; exact hmagic)
  rw [hfs]
  refine ⟨hdisk.header, ?_, hsame⟩
  intro q hq
  have hin : (512 * 0 ≤ q ∧ q < 512 * 256) ∧ env.read (2051 + q / 512) = true :=
    ⟨by omega, hread _⟩
  exact (if_pos hin).trans (hdisk.data q hq)

end Boot

/-! ## Load undoes save

A step is a call together with what the drive does during it, and a history is a list of such
steps.  The theorem follows from the invariant of the history and from the two round trips: bytes of
the header to the header, and bytes of the data to the data. -/

/-- One call, with what the drive does during it. -/
def diskStep (e : Env × FsCall) (w : SectorWorld) : FsResult × SectorWorld :=
  fsCall (sectorPlatform e.1) e.2 w

lemma diskStep_drive (e : Env × FsCall) (w : SectorWorld) :
    SameDrive w.fs (diskStep e w).2.fs := fsCall_drive (sectorPlatform e.1) e.2 w

/-- What every boot establishes and no call other than `fs_init` touches. -/
structure Booted (s : FsState) : Prop where
  hasDrive : s.HasDrive
  initialized : s.fsInitialized = true
  magic : s.fsHeader.magic = szymfsMagic

lemma reboot_booted (drive : DriveId) {env : Env} (dev : SectorDev) (hr : headerReads env = 3) :
    Booted (reboot drive env dev).fs where
  hasDrive := (reboot_ready drive dev).1
  initialized := (reboot_ready drive dev).2
  magic := reboot_magic drive dev hr

/-- Filling a slot leaves it alone. -/
lemma Booted.fill {s : FsState} (h : Booted s) (slot : Fin 32) (name content : CString) :
    Booted (fsFillSlot slot name content s) :=
  ⟨h.hasDrive.congr rfl rfl, h.initialized, h.magic⟩

/-- And so does a save. -/
lemma Booted.save {σ : Type} (P : Platform σ) {w : World σ} (h : Booted w.fs) :
    Booted (fsSaveToDisk P w).fs := by
  obtain ⟨b, hb⟩ := fsSaveToDisk_fs P w
  rw [hb]
  exact ⟨h.hasDrive.congr rfl rfl, h.initialized, h.magic⟩

/-- What a call saves is booted if the state it starts from is. -/
lemma StoredBy.booted {σ : Type} {P : Platform σ} {w : World σ} {call : FsCall} {s : FsState}
    (h : StoredBy P w call s) (hw : Booted w.fs) : Booted s := by
  cases h with
  | save => exact hw
  | fill hfind hslot hlen => exact hw.fill _ _ _
  | clear hfind => exact ⟨hw.hasDrive.congr rfl rfl, hw.initialized, hw.magic⟩

lemma diskStep_booted {e : Env × FsCall} (he : e.2 ≠ .init) {w : SectorWorld} (hw : Booted w.fs) :
    Booted (diskStep e w).2.fs :=
  fsCall_preserves (sectorPlatform e.1)
    (fun _ _ h => ⟨h.hasDrive.congr rfl rfl, h.initialized, h.magic⟩) he
    (fun _ hs => hs.booted hw) hw

/-- Equal headers and data make lookups and reads equal, the rest of memory being equal too. -/
lemma reads_congr {P : Platform SectorDev} {w w' : SectorWorld}
    (haround : P.afterHeader w'.dev = P.afterHeader w.dev)
    (haround' : P.aroundData w'.dev = P.aroundData w.dev)
    (hh : w'.fs.fsHeader = w.fs.fsHeader) (hd : ∀ q < 131072, w'.fs.fsData q = w.fs.fsData q)
    (hi : w'.fs.fsInitialized = w.fs.fsInitialized) :
    (∀ name, fsFindFile P w' name = fsFindFile P w name) ∧
      ∀ name maxSize, fsReadFile P w' name maxSize = fsReadFile P w name maxSize := by
  have hname : nameMemory P w' = nameMemory P w := by
    funext i j
    simp only [nameMemory, headerMemory, hh, haround]
  have hdata : dataMemory P w' = dataMemory P w := by
    funext p
    simp only [dataMemory, haround', fsDataSize]
    split_ifs with hp
    · exact hd _ hp
    · rfl
  have hfind : ∀ name, fsFindFile P w' name = fsFindFile P w name := by
    intro name
    rw [fsFindFile, fsFindFile, hh, hname]
  refine ⟨hfind, ?_⟩
  intro name maxSize
  rw [fsReadFile, fsReadFile, hi, hfind name, hh, hdata]

/-- **Load undoes save.**  Take any disk, a boot whose reads succeed, and any history of calls,
whatever became of their saves.  Once a call's save has every write stored, a reboot from the same
drive reconstructs the header and the data of that save; so lookups, reads and the file count are
what they were. -/
theorem load_undoes_save (drive : DriveId) (dev : SectorDev) (boot env again : Env)
    (hboot : boot.AllRead) (hstored : env.AllStored) (hagain : again.AllRead)
    (history : List (Env × FsCall)) (hhistory : ∀ e ∈ history, e.2 ≠ .init)
    (call : FsCall) (hcall : call ≠ .init) (saved : SectorWorld)
    (hsave : savePoint (sectorPlatform env) call
      (final diskStep history (reboot drive boot dev)) = some saved) :
    let before := (diskStep (env, call) (final diskStep history (reboot drive boot dev))).2
    let after := reboot drive again before.dev
    after.fs.fsHeader = saved.fs.fsHeader ∧
      (∀ p < 131072, after.fs.fsData p = saved.fs.fsData p) ∧
      after.fs.fsHeader.fileCount = before.fs.fsHeader.fileCount ∧
      ∀ around : Env,
        (∀ name, fsFindFile (sectorPlatform around) after name
          = fsFindFile (sectorPlatform around) before name) ∧
        ∀ name maxSize, fsReadFile (sectorPlatform around) after name maxSize
          = fsReadFile (sectorPlatform around) before name maxSize := by
  intro before after
  have hbooted : Booted (final diskStep history (reboot drive boot dev)).fs :=
    invariant_final (I := fun w : SectorWorld => Booted w.fs)
      (fun e he _ ht => diskStep_booted (hhistory e he) ht)
      (reboot_booted drive dev hboot.headerReads)
  rcases fsCall_cases (sectorPlatform env) hcall
      (final diskStep history (reboot drive boot dev)) with ⟨hnone, -⟩ | ⟨s, hs, hpoint, hr⟩
  · rw [hnone] at hsave
    exact absurd hsave (by simp)
  rw [hpoint, Option.some.injEq] at hsave
  have hbooted' : Booted s := hs.booted hbooted
  have hbefore : before = fsSaveToDisk (sectorPlatform env) saved := by rw [← hsave]; exact hr
  have hsaved : saved.fs = s := by rw [← hsave]
  have hdisk : OnDisk saved.fs before.dev.disk := by
    rw [hbefore]
    exact save_onDisk (by rw [hsaved]; exact hbooted'.hasDrive) fun lba _ _ => hstored lba
  obtain ⟨hh, hd, -⟩ := reboot_onDisk drive before.dev hagain hdisk
    (by rw [hsaved]; exact hbooted'.magic)
  have hheader : before.fs.fsHeader = saved.fs.fsHeader := by rw [hbefore]; simp
  have hdata : before.fs.fsData = saved.fs.fsData := by rw [hbefore]; simp
  have hinit : before.fs.fsInitialized = true := by
    rw [hbefore, fsSaveToDisk_fsInitialized, hsaved]
    exact hbooted'.initialized
  refine ⟨hh, hd, by rw [hheader, hh], ?_⟩
  intro around
  refine reads_congr rfl rfl (hh.trans hheader.symm) ?_ ?_
  · intro q hq
    rw [hdata]
    exact hd q hq
  · rw [hinit]
    exact (reboot_ready drive before.dev).2

/-- A machine with one faultless drive, all zeros. -/
def Env.faultless : Env where
  read _ := true
  write _ := .stored
  afterHeader _ := 0
  aroundData _ := 0

/-- The same surroundings, with a drive that gives up after `k` sectors of a save. -/
def Env.cutAfter (k : ℕ) : Env := { Env.faultless with write := cut fsStartSector k }

def SectorDev.blank : SectorDev := { disk := fun _ _ => 0, term := [] }

lemma Env.faultless_allRead : Env.faultless.AllRead := fun _ => rfl

lemma Env.faultless_allStored : Env.faultless.AllStored := fun _ => rfl

def notes : CString := CString.ofLiterals ["notes"] (by decide)

/-- A blank drive is formatted, and a file is created whose save is cut. -/
def notesCreated : SectorWorld :=
  final diskStep [(Env.cutAfter 7, .create notes notes)]
    (reboot .primaryMaster Env.faultless .blank)

/-- The next save is complete, and the reboot finds the file. -/
theorem load_undoes_save_notes :
    let before := (diskStep (Env.faultless, .save) notesCreated).2
    let after := reboot .primaryMaster Env.faultless before.dev
    (after.fs.fsHeader = notesCreated.fs.fsHeader ∧
      (∀ p < 131072, after.fs.fsData p = notesCreated.fs.fsData p) ∧
      after.fs.fsHeader.fileCount = before.fs.fsHeader.fileCount ∧
      ∀ around : Env,
        (∀ name, fsFindFile (sectorPlatform around) after name
          = fsFindFile (sectorPlatform around) before name) ∧
        ∀ name maxSize, fsReadFile (sectorPlatform around) after name maxSize
          = fsReadFile (sectorPlatform around) before name maxSize) ∧
      fsReadFile (sectorPlatform Env.faultless) after notes 100 = (5, notes.bytes ++ [0]) := by
  have h := load_undoes_save .primaryMaster .blank Env.faultless Env.faultless Env.faultless
    Env.faultless_allRead Env.faultless_allStored Env.faultless_allRead
    [(Env.cutAfter 7, .create notes notes)] (by simp) .save (by simp) notesCreated rfl
  rw [← notesCreated] at h
  have hread : fsReadFile (sectorPlatform Env.faultless)
      (diskStep (Env.faultless, .save) notesCreated).2 notes 100
        = (5, notes.bytes ++ [0]) := by decide +kernel
  exact ⟨h, ((h.2.2.2 Env.faultless).2 notes 100).trans hread⟩

/-! ## What `fs_persistent` says

That the flag is right after a save is a property of the step, and so is the condition on the flag
before it.  The theorem makes of this an equivalence about histories: the flag is right throughout
if and only if no complete save begins with the flag cleared. -/

/-- Every sector write of a save returns 0. -/
def Env.Accepts (env : Env) : Prop := ∀ lba, 2048 ≤ lba → lba < 2307 → env.write lba ≠ .refused

/-- Both modules agree on whether a drive is selected. -/
def FsState.DriveAgrees (s : FsState) : Prop := diskAvailable s = s.fsDriveSelected

lemma FsState.DriveAgrees.congr {s s' : FsState} (h : s.DriveAgrees) (hsame : SameDrive s s') :
    s'.DriveAgrees := by
  obtain ⟨h1, h2⟩ := hsame
  rw [DriveAgrees, diskAvailable, ataIsSelected] at h ⊢
  rw [h1, h2]
  exact h

lemma FsState.selected_driveAgrees (drive : Option DriveId) :
    (FsState.selected drive).DriveAgrees := by
  cases drive with
  | none => rfl
  | some drive => exact (FsState.selected_hasDrive drive).1

/-- **A save only ever clears the flag.** -/
theorem save_fsPersistent_iff (env : Env) {w : SectorWorld} (h : w.fs.DriveAgrees) :
    (fsSaveToDisk (sectorPlatform env) w).fs.fsPersistent = true
      ↔ (diskAvailable w.fs = true ∧ env.Accepts) ∧ w.fs.fsPersistent = true := by
  by_cases hav : diskAvailable w.fs = true
  · have hdrive : w.fs.HasDrive := ⟨hav, h.symm.trans hav⟩
    rw [(save_eq env hdrive).2, Bool.and_eq_true, writeFrom_ok, Env.Accepts]
    simp only [hav, true_and, Nat.reduceAdd]
  · rw [(save_noDrive env (by simpa using hav)).2]
    simp [hav]

/-- Right after a save, the flag says whether it was complete. -/
def TruthfulAfter (e : Env × FsCall) (w : SectorWorld) : Prop :=
  ∀ saving, savePoint (sectorPlatform e.1) e.2 w = some saving →
    ((diskStep e w).2.fs.fsPersistent = true ↔ diskAvailable saving.fs = true ∧ e.1.Accepts)

/-- Before a save that will be complete, the flag is set already. -/
def SetBefore (e : Env × FsCall) (w : SectorWorld) : Prop :=
  ∀ saving, savePoint (sectorPlatform e.1) e.2 w = some saving →
    diskAvailable saving.fs = true → e.1.Accepts → saving.fs.fsPersistent = true

/-- The step lemma. -/
lemma truthfulAfter_iff {e : Env × FsCall} {w : SectorWorld} (h : w.fs.DriveAgrees) :
    TruthfulAfter e w ↔ SetBefore e w := by
  refine forall₂_congr ?_
  intro saving hsave
  obtain ⟨calls, hcall⟩ := fsCall_of_savePoint (sectorPlatform e.1) hsave
  have hagree : saving.fs.DriveAgrees := h.congr (savePoint_drive (sectorPlatform e.1) hsave)
  rw [diskStep, hcall, World.print_fs, save_fsPersistent_iff e.1 hagree]
  constructor
  · exact fun hiff hav hacc => (hiff.mpr ⟨hav, hacc⟩).2
  · exact fun hset => ⟨fun hc => hc.1, fun hc => ⟨hc, hset hc.1 hc.2⟩⟩

/-- **When `fs_persistent` tells the truth.**  Along any history, with whatever each sector read
and write does: after every save exactly when no complete save starts with the flag cleared.  What
a failed save or a failed boot has cleared, a later complete save does not set again. -/
theorem persistent_truthful_iff (drive : Option DriveId) (dev : SectorDev)
    (history : List (Env × FsCall)) :
    Along diskStep TruthfulAfter history { fs := FsState.selected drive, dev }
      ↔ Along diskStep SetBefore history { fs := FsState.selected drive, dev } := by
  have hstep : ∀ e ∈ history, ∀ w : SectorWorld, w.fs.DriveAgrees →
      (diskStep e w).2.fs.DriveAgrees :=
    fun e _ w h => h.congr (diskStep_drive e w)
  constructor
  · exact Along.imp (I := fun w : SectorWorld => w.fs.DriveAgrees) hstep
      (fun e w h => (truthfulAfter_iff h).mp) (FsState.selected_driveAgrees drive)
  · exact Along.imp (I := fun w : SectorWorld => w.fs.DriveAgrees) hstep
      (fun e w h => (truthfulAfter_iff h).mpr) (FsState.selected_driveAgrees drive)

/-- A blank drive is formatted, a save fails at its first sector, and the next one, complete,
leaves the flag cleared. -/
theorem persistent_not_truthful : ¬ Along diskStep TruthfulAfter
    [(Env.faultless, .init), (Env.cutAfter 0, .save), (Env.faultless, .save)]
    { fs := FsState.selected (some .primaryMaster), dev := .blank } := by
  intro h
  obtain ⟨-, -, htruth, -⟩ := h
  have htruth := htruth _ rfl
  generalize hw : (diskStep (Env.faultless, .init)
    { fs := FsState.selected (some .primaryMaster), dev := .blank }).2 = w at htruth
  have hagree : w.fs.DriveAgrees := by
    rw [← hw]
    exact (FsState.selected_driveAgrees _).congr (diskStep_drive _ _)
  have hagree' : (diskStep (Env.cutAfter 0, .save) w).2.fs.DriveAgrees :=
    hagree.congr (diskStep_drive _ _)
  -- the failed save has cleared the flag
  have hcleared : (diskStep (Env.cutAfter 0, .save) w).2.fs.fsPersistent ≠ true := by
    intro hset
    obtain ⟨⟨-, hacc⟩, -⟩ := (save_fsPersistent_iff (Env.cutAfter 0) hagree).mp hset
    exact hacc 2048 (Nat.le_refl _) (by omega) (by simp [Env.cutAfter, cut])
  have hav : diskAvailable (diskStep (Env.cutAfter 0, .save) w).2.fs = true := by
    obtain ⟨h1, h2⟩ := diskStep_drive (Env.cutAfter 0, .save) w
    obtain ⟨h3, h4⟩ := diskStep_drive (Env.faultless, .init)
      { fs := FsState.selected (some .primaryMaster), dev := .blank }
    rw [hw] at h3 h4
    exact ((FsState.selected_hasDrive .primaryMaster).congr (h1.trans h3) (h2.trans h4)).1
  have hset := htruth.mpr ⟨hav, fun _ _ _ hc => Outcome.noConfusion hc⟩
  exact hcleared ((save_fsPersistent_iff Env.faultless hagree').mp hset).2

end SzymOS
