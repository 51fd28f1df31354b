import SzymOS.Filesystem.SectorDrive
import SzymOS.Filesystem.Effects
import SzymOS.Lib.Oracle

/-!
# One platform that shows as another

`filesystem.c` is translated over a platform, and there are several: ports, sectors, ports with a
disk behind them.  A platform *shows* as another when that is so of a single sector and of a
single message, the other one being told by an oracle what became of the sector.  Then it is so of
every call: a call reads each sector at most once and writes each sector at most once, so what the
oracle has to say can be written down by address.

A view maps the state of one machine to that of the other, for instance a drive with registers and a
transfer to its array of sectors.  What the first machine does, the second must be able to do, once
it is told whether each read succeeds and what becomes of each write.  It cannot be told this in
advance by a rule, since the answers depend on all that the first machine has been through; but for
one run they are some function of the sector, and the oracle is that function.

The proof goes through the functions of `filesystem.c` once, as it has to, and for all platforms
together.  It is made of the rules for oracles: two loops that ask about different sectors can be
explained one after the other, and the sectors of a call are different because addresses only go up
and a call reads before it writes.

* `ShowsAs` — what is asked of the two platforms.
* `ShowsAs.explained_call` — every call on the one is a call on the other.
* `ShowsAs.run` — and so is every run, with one oracle for each of its calls.
* `showsAs_sectors` — when a platform shows as a drive made of sectors; the oracle is an `Env`.

That a computation on the first platform can be explained means: there is an oracle, asked only
about certain sectors, with which the second platform does the same.  Each function of
`filesystem.c` that accesses sectors has a lemma of this form (`explained_read`, `explained_write`,
`explained_save`, `explained_load`, `explained_init`, `explained_create`, `explained_delete`), with
the set of its questions in the statement.  Functions that only look at memory need no oracle and
are equal as they stand (`fsFindFile_map`, `fsReadFile_map`, `fsListFiles_map`).
-/

set_option autoImplicit false

namespace SzymOS

open Bytes Blocks Transition Oracle

variable {σ τ : Type}

/-! ## The surroundings of one call

A question is an access to a sector, to read it or to write it.  The sets of questions are intervals
of sectors, and their disjointness is arithmetic. -/

/-- What the surroundings are asked during one call. -/
inductive SectorAsk where
  | read (lba : ℕ)
  | write (lba : ℕ)

/-- A read succeeds or not; a write has one of three outcomes. -/
abbrev SectorAsk.Answer : SectorAsk → Type
  | .read _ => Bool
  | .write _ => Outcome

abbrev SectorOracle := (ask : SectorAsk) → ask.Answer

/-- Every read succeeds, and every write is stored. -/
def SectorOracle.faultless : SectorOracle
  | .read _ => true
  | .write _ => .stored

instance : Nonempty SectorOracle := ⟨SectorOracle.faultless⟩

/-- The reads and the writes of `n` sectors from `a` on. -/
def readsFrom (a n : ℕ) : Set SectorAsk := {ask | ∃ lba, ask = .read lba ∧ a ≤ lba ∧ lba < a + n}

def writesFrom (a n : ℕ) : Set SectorAsk := {ask | ∃ lba, ask = .write lba ∧ a ≤ lba ∧ lba < a + n}

lemma readsFrom_disjoint {a n b m : ℕ} (h : a + n ≤ b) :
    Disjoint (readsFrom a n) (readsFrom b m) := by
  rw [Set.disjoint_left]
  rintro _ ⟨lba, rfl, -, h1⟩ ⟨lba', heq, h2, -⟩
  rw [SectorAsk.read.injEq] at heq
  omega

lemma writesFrom_disjoint {a n b m : ℕ} (h : a + n ≤ b) :
    Disjoint (writesFrom a n) (writesFrom b m) := by
  rw [Set.disjoint_left]
  rintro _ ⟨lba, rfl, -, h1⟩ ⟨lba', heq, h2, -⟩
  rw [SectorAsk.write.injEq] at heq
  omega

lemma reads_writes_disjoint (a n b m : ℕ) : Disjoint (readsFrom a n) (writesFrom b m) := by
  rw [Set.disjoint_left]
  rintro _ ⟨lba, rfl, -, -⟩ ⟨lba', heq, -, -⟩
  exact SectorAsk.noConfusion heq

lemma readsFrom_succ (a n : ℕ) : readsFrom a 1 ∪ readsFrom (a + 1) n ⊆ readsFrom a (n + 1) := by
  rintro _ (⟨lba, rfl, h1, h2⟩ | ⟨lba, rfl, h1, h2⟩)
  · exact ⟨lba, rfl, h1, by omega⟩
  · exact ⟨lba, rfl, by omega, by omega⟩

lemma writesFrom_succ (a n : ℕ) :
    writesFrom a 1 ∪ writesFrom (a + 1) n ⊆ writesFrom a (n + 1) := by
  rintro _ (⟨lba, rfl, h1, h2⟩ | ⟨lba, rfl, h1, h2⟩)
  · exact ⟨lba, rfl, h1, by omega⟩
  · exact ⟨lba, rfl, by omega, by omega⟩

/-! ## What shows

Messages of the driver itself are left out of what shows, because a drive made of sectors has no
driver.  The functions of the file system print other messages, and these must show.  The condition
on sectors is asked for the selected drive and for the region of the file system only. -/

/-- The same variables, beside another device. -/
def World.map (view : σ → τ) (w : World σ) : World τ := { fs := w.fs, dev := view w.dev }

@[simp] lemma World.map_fs (view : σ → τ) (w : World σ) : (w.map view).fs = w.fs := rfl

/-- The two messages of `fs_write_sector_direct`, which a drive made of sectors does not print. -/
def driverMessage : TermCall → Bool
  | .writestring text =>
      text == "[FS ERROR] Timeout waiting for ready\n" ||
        text == "[FS ERROR] Timeout waiting for DRQ\n"
  | _ => false

lemma coloured_quiet {fg : VgaColor} {call : TermCall} (h : driverMessage call = false) :
    ∀ c ∈ coloured fg call, driverMessage c = false := by
  simp only [coloured, List.mem_cons, List.not_mem_nil, or_false]
  rintro c (rfl | rfl | rfl)
  · rfl
  · exact h
  · rfl

/-- A sector of the file system. -/
def InRegion (lba : ℕ) : Prop :=
  fsStartSector ≤ lba ∧ lba < fsStartSector + headerSectors + dataSectors

/-- The platform `P` shows as a platform `Q o` in what it does to the drive at this port base and
with this number; `view` is what shows. -/
structure ShowsAs (P : Platform σ) (Q : SectorOracle → Platform τ) (io : UInt16) (driveNum : UInt8)
    (view : σ → τ) : Prop where
  read : ∀ lba d, InRegion lba → Explained view (readsFrom lba 1) (P.readSector io driveNum lba)
    (fun o => (Q o).readSector io driveNum lba) d
  write : ∀ lba buffer d, InRegion lba → Explained view (writesFrom lba 1)
    (P.writeSector io driveNum lba buffer) (fun o => (Q o).writeSector io driveNum lba buffer) d
  print : ∀ o call d, driverMessage call = false →
    (Q o).print call (view d) = view (P.print call d)
  afterHeader : ∀ o d, (Q o).afterHeader (view d) = P.afterHeader d
  aroundData : ∀ o d, (Q o).aroundData (view d) = P.aroundData d

/-- If a drive is selected at all, it is the one at this place. -/
def FsState.DriveAt (s : FsState) (io : UInt16) (driveNum : UInt8) : Prop :=
  s.fsDriveSelected = true → s.fsDriveIoBase = io ∧ s.fsDriveNum = driveNum

lemma FsState.DriveAt.kept {s s' : FsState} {io : UInt16} {driveNum : UInt8}
    (h : s.DriveAt io driveNum) (hkept : DriveKept s s') : s'.DriveAt io driveNum := by
  rw [DriveAt, hkept.selected, hkept.ioBase, hkept.driveNum]
  exact h

/-- No step changes which drive is selected. -/
lemma stepRel_driveKept (P : Platform σ) : StepRel P fun w w' => DriveKept w.fs w'.fs where
  refl _ := DriveKept.refl _
  trans h h' := h.trans h'
  print _ _ := DriveKept.refl _
  read lba w := by
    rw [fsReadSectorDirect_fs]
    exact DriveKept.refl _
  write lba buffer w _ _ := by
    rw [fsWriteSectorDirect_fs]
    exact DriveKept.refl _
  store _ _ h := h

/-- Nor does a call. -/
lemma FsState.DriveAt.call (P : Platform σ) {w : World σ} {io : UInt16} {driveNum : UInt8}
    (h : w.fs.DriveAt io driveNum) (call : FsCall) :
    (fsCall P call w).2.fs.DriveAt io driveNum :=
  h.kept ((stepRel_driveKept P).call call w)

/-- A load that has read the header of something else. -/
lemma fsLoadFromDisk_other (P : Platform σ) {w w₁ : World σ} (hav : diskAvailable w.fs = true)
    (hread : fsReadHeaderSectors P headerSectors 0 w = (true, w₁))
    (hmagic : w₁.fs.fsHeader.magic ≠ szymfsMagic) :
    fsLoadFromDisk P w
      = (let w₂ := fsSaveToDisk P { (w₁.print P (coloured .yellow
            (.writestring "[INFO] No existing filesystem found, creating new one\n"))) with
          fs := fsFormat w₁.fs }
        if (!w₂.fs.fsPersistent) = true then
          w₂.print P (coloured .lightRed
            (.writestring "[WARN] Failed to initialize filesystem on disk\n"))
        else w₂) := by
  rw [fsLoadFromDisk, if_neg (by simp [hav]), hread]
  exact if_pos hmagic

/-- A load that has read the header of a SzymFS. -/
lemma fsLoadFromDisk_found (P : Platform σ) {w w₁ : World σ} (hav : diskAvailable w.fs = true)
    (hread : fsReadHeaderSectors P headerSectors 0 w = (true, w₁))
    (hmagic : w₁.fs.fsHeader.magic = szymfsMagic) :
    fsLoadFromDisk P w
      = (let w₂ := fsReadDataSectors P dataSectors 0 (w₁.print P
            [.printf "[DEBUG] Reading %d data sectors...\n" [UInt32.ofNat dataSectors]])
        let w₃ := w₂.print P (.printf "[DEBUG] Data load complete\n" [] :: coloured .lightGreen
          (.printf "[OK] Loaded %d files from disk\n" [w₂.fs.fsHeader.fileCount]))
        { w₃ with fs := { w₃.fs with fsPersistent := true } }) := by
  rw [fsLoadFromDisk, if_neg (by simp [hav]), hread]
  exact if_neg (not_not.mpr hmagic)

lemma fsInit_available (P : Platform σ) {w : World σ} (hav : diskAvailable w.fs = true) :
    fsInit P w = (fsLoadFromDisk P { w with fs := fsInitEmpty w.fs }).print P
      (coloured .yellow (.writestring "[OK] SzymFS initialized (persistent mode)\n")) := by
  have hempty : diskAvailable (fsInitEmpty w.fs) = true := hav
  have hload : diskAvailable (fsLoadFromDisk P { w with fs := fsInitEmpty w.fs }).fs = true := by
    have hkept := (stepRel_driveKept P).load { w with fs := fsInitEmpty w.fs }
    rw [diskAvailable, ataIsSelected, hkept.selectedDrive]
    exact hav
  simp only [fsInit, hempty, if_true, hload, Bool.not_true, Bool.false_eq_true, if_false]

lemma fsInit_unavailable (P : Platform σ) {w : World σ} (hav : ¬ diskAvailable w.fs = true) :
    fsInit P w = World.print P
      (coloured .yellow (.writestring "[OK] SzymFS initialized (RAM-only mode)\n"))
      { w with fs := fsInitEmpty w.fs } := by
  have hempty : diskAvailable (fsInitEmpty w.fs) = false := Bool.eq_false_of_not_eq_true hav
  simp only [fsInit, hempty, Bool.false_eq_true, if_false, Bool.not_false, if_true]

/-- No message of the driver is among it. -/
lemma listing_quiet (P : Platform σ) (w : World σ) :
    ∀ call ∈ listing P w, driverMessage call = false := by
  have hentry : ∀ i, ∀ call ∈ fsListEntry P w i, driverMessage call = false := by
    intro i call hcall
    simp only [fsListEntry, List.mem_cons, List.mem_append, List.not_mem_nil, or_false] at hcall
    rcases hcall with rfl | hcall | rfl
    · rfl
    · rw [List.eq_of_mem_replicate hcall]
      rfl
    · rfl
  rw [listing]
  split_ifs
  · simp [driverMessage]
  · simp [driverMessage]
  · intro call hcall
    rcases List.mem_append.mp hcall with hhead | hfiles
    · simp only [coloured, List.cons_append, List.nil_append, List.mem_cons, List.not_mem_nil,
        or_false] at hhead
      rcases hhead with rfl | rfl | rfl | rfl | rfl | rfl | rfl | rfl <;> rfl
    · obtain ⟨i, -, hcall⟩ := List.mem_flatMap.mp hfiles
      exact hentry i call hcall

namespace ShowsAs

variable {P : Platform σ} {Q : SectorOracle → Platform τ} {io : UInt16} {driveNum : UInt8}
  {view : σ → τ} (h : ShowsAs P Q io driveNum view) {w : World σ}

include h

/-! ### Memory and the terminal

What lies around the two arrays is the same on both platforms, and what is printed shows. -/

lemma headerMemory_map (o : SectorOracle) (w : World σ) :
    headerMemory (Q o) (w.map view) = headerMemory P w := by
  funext p
  rw [headerMemory, headerMemory, ← h.afterHeader o w.dev]
  rfl

lemma dataMemory_map (o : SectorOracle) (w : World σ) :
    dataMemory (Q o) (w.map view) = dataMemory P w := by
  funext p
  rw [dataMemory, dataMemory, ← h.aroundData o w.dev]
  rfl

lemma nameMemory_map (o : SectorOracle) (w : World σ) :
    nameMemory (Q o) (w.map view) = nameMemory P w := by
  funext i j
  rw [nameMemory, nameMemory, h.headerMemory_map]

lemma fsFindFile_map (o : SectorOracle) (w : World σ) (name : CString) :
    fsFindFile (Q o) (w.map view) name = fsFindFile P w name := by
  rw [fsFindFile, fsFindFile, h.nameMemory_map]
  rfl

lemma print_map (o : SectorOracle) {calls : List TermCall}
    (hcalls : ∀ call ∈ calls, driverMessage call = false) (w : World σ) :
    (w.map view).print (Q o) calls = (w.print P calls).map view := by
  obtain ⟨fs, dev⟩ := w
  simp only [World.print, World.map]
  induction calls generalizing dev with
  | nil => rfl
  | cons call calls ih =>
      rw [List.foldl_cons, List.foldl_cons, h.print o call dev (hcalls call List.mem_cons_self)]
      exact ih (fun c hc => hcalls c (List.mem_cons_of_mem _ hc)) _

lemma printIf_map (o : SectorOracle) (c : Prop) [Decidable c] {calls : List TermCall}
    (hcalls : ∀ call ∈ calls, driverMessage call = false) (w : World σ) :
    (if c then (w.map view).print (Q o) calls else w.map view)
      = (if c then w.print P calls else w).map view := by
  split_ifs
  · exact h.print_map o hcalls w
  · rfl

/-! ### Sectors

A sector that is read or written asks one question, about that sector.  On a machine on which no
drive is selected, nothing is asked. -/

/-- **One sector read.** -/
lemma explained_read (hdrive : w.fs.DriveAt io driveNum) {lba : ℕ} (hlba : InRegion lba) :
    Explained (World.map view) (readsFrom lba 1) (fsReadSectorDirect P lba)
      (fun (o : SectorOracle) => fsReadSectorDirect (Q o) lba) w := by
  by_cases hsel : w.fs.fsDriveSelected = true
  · obtain ⟨rfl, rfl⟩ := hdrive hsel
    obtain ⟨o, ho⟩ := h.read lba w.dev hlba
    refine ⟨o, ?_⟩
    intro o' heq
    have hread := ho o' heq
    beta_reduce at hread ⊢
    rw [fsReadSectorDirect, fsReadSectorDirect, if_neg (by simp [hsel]), if_neg (by simp [hsel])]
    simp only [World.map, hread]
  · refine explained_of_eq fun o => ?_
    rw [fsReadSectorDirect, fsReadSectorDirect, if_pos (by simpa using hsel),
      if_pos (by simpa using hsel)]

/-- **One sector write.** -/
lemma explained_write (hdrive : w.fs.DriveAt io driveNum) {lba : ℕ} (hlba : InRegion lba)
    (buffer : Sector) :
    Explained (World.map view) (writesFrom lba 1) (fsWriteSectorDirect P lba buffer)
      (fun (o : SectorOracle) => fsWriteSectorDirect (Q o) lba buffer) w := by
  by_cases hsel : w.fs.fsDriveSelected = true
  · obtain ⟨rfl, rfl⟩ := hdrive hsel
    obtain ⟨o, ho⟩ := h.write lba buffer w.dev hlba
    refine ⟨o, ?_⟩
    intro o' heq
    have hwrite := ho o' heq
    beta_reduce at hwrite ⊢
    rw [fsWriteSectorDirect, fsWriteSectorDirect, if_neg (by simp [hsel]), if_neg (by simp [hsel])]
    simp only [World.map, hwrite]
  · refine explained_of_eq fun o => ?_
    rw [fsWriteSectorDirect, fsWriteSectorDirect, if_pos (by simpa using hsel),
      if_pos (by simpa using hsel)]

/-! ### Loops

By induction on the number of sectors left.  The first sector asks about its own address, the rest
of the loop about the addresses behind it. -/

/-- **The write loops.** -/
lemma explained_writeSectors (start : ℕ) (sectorBuffer : World σ → ℕ → Sector)
    (shown : SectorOracle → World τ → ℕ → Sector) (error : String)
    (hshown : ∀ o w i, shown o (w.map view) i = sectorBuffer w i)
    (herror : driverMessage (.writestring error) = false) (hstart : fsStartSector ≤ start)
    (n i : ℕ) (hend : start + i + n ≤ fsStartSector + headerSectors + dataSectors)
    (hdrive : w.fs.DriveAt io driveNum) :
    Explained (World.map view) (writesFrom (start + i) n)
      (fsWriteSectors P start sectorBuffer error n i)
      (fun (o : SectorOracle) =>
        fsWriteSectors (Q o) start (shown o) error n i)
      w := by
  induction n generalizing i w with
  | zero => exact explained_of_eq fun o => rfl
  | succ n ih =>
      have hregion : InRegion (start + i) := ⟨by omega, by omega⟩
      have hone := h.explained_write hdrive hregion (sectorBuffer w i)
      refine (hone.bind ?_ (writesFrom_disjoint (Nat.le_refl (start + i + 1)))).mono
        (writesFrom_succ _ n)
      intro result w' hw'
      have hfs : w'.fs = w.fs := by
        rw [← fsWriteSectorDirect_fs P (start + i) (sectorBuffer w i) w, hw']
      by_cases hresult : result ≠ 0
      · refine ⟨SectorOracle.faultless, ?_⟩
        intro o _ hone'
        simp only [fsWriteSectors, hshown, hw', hone', if_pos hresult,
          h.print_map o (coloured_quiet herror)]
        rfl
      · obtain ⟨o, ho⟩ := ih (w := w') (i + 1) (by omega) (hfs ▸ hdrive)
        refine ⟨o, ?_⟩
        intro o' heq hone'
        simp only [fsWriteSectors, hshown, hw', hone', if_neg hresult]
        exact ho o' heq

/-- **A save.** -/
lemma explained_save (hdrive : w.fs.DriveAt io driveNum) :
    Explained (World.map view) (writesFrom 2048 259) (fun w => ((), fsSaveToDisk P w))
      (fun (o : SectorOracle) w =>
        ((), fsSaveToDisk (Q o) w)) w := by
  by_cases hav : diskAvailable w.fs = true
  · have hheader := h.explained_writeSectors fsStartSector (headerSectorBuffer P)
      (fun o => headerSectorBuffer (Q o))
      "[ERROR] Failed to write filesystem header\n"
      (fun o w i => by rw [headerSectorBuffer, headerSectorBuffer, h.headerMemory_map]) rfl
      (Nat.le_refl _) headerSectors 0 (by decide) hdrive
    have hsub : writesFrom 2048 3 ∪ writesFrom 2051 256 ⊆ writesFrom 2048 259 := by
      rintro _ (⟨lba, rfl, h1, h2⟩ | ⟨lba, rfl, h1, h2⟩)
      · exact ⟨lba, rfl, h1, by omega⟩
      · exact ⟨lba, rfl, by omega, by omega⟩
    refine (hheader.bind ?_ (writesFrom_disjoint (Nat.le_refl 2051))).mono hsub
    intro ok w₁ hw₁
    obtain ⟨b, hfs⟩ := fsWriteSectors_fs P fsStartSector (headerSectorBuffer P)
      "[ERROR] Failed to write filesystem header\n" headerSectors 0 w
    rw [hw₁] at hfs
    have hdrive₁ : w₁.fs.DriveAt io driveNum := by
      rw [hfs]
      exact hdrive
    have hdata := h.explained_writeSectors (fsStartSector + headerSectors) dataSectorBuffer
      (fun _ => dataSectorBuffer) "[ERROR] Failed to write filesystem data\n" (fun _ _ _ => rfl) rfl
      (by decide) dataSectors 0 (by decide) hdrive₁
    obtain ⟨o, ho⟩ := hdata
    refine ⟨o, ?_⟩
    intro o' heq hshown
    have hrest := ho o' heq
    simp only [fsSaveToDisk, fsWriteHeaderSectors, fsWriteDataSectors, World.map_fs, hav, hw₁,
      hshown, Bool.not_true, Bool.false_eq_true, if_false]
    cases ok with
    | false => rfl
    | true =>
        simp only [hrest]
        generalize fsWriteSectors P (fsStartSector + headerSectors) dataSectorBuffer
          "[ERROR] Failed to write filesystem data\n" dataSectors 0 w₁ = r
        obtain ⟨ok₂, w₂⟩ := r
        cases ok₂ with
        | false => rfl
        | true =>
            exact congrArg (Prod.mk ())
              (h.printIf_map o' (w₂.fs.fsPersistent = true) (coloured_quiet rfl) w₂)
  · refine explained_of_eq fun o => ?_
    simp only [fsSaveToDisk, World.map_fs, hav, Bool.not_false, if_true]
    rw [h.print_map o (coloured_quiet (by rfl))]
    rfl

/-- **The header loop.** -/
lemma explained_readHeader (n i : ℕ)
    (hend : fsStartSector + i + n ≤ fsStartSector + headerSectors + dataSectors)
    (hdrive : w.fs.DriveAt io driveNum) :
    Explained (World.map view) (readsFrom (fsStartSector + i) n) (fsReadHeaderSectors P n i)
      (fun (o : SectorOracle) =>
        fsReadHeaderSectors (Q o) n i) w := by
  induction n generalizing i w with
  | zero => exact explained_of_eq fun o => rfl
  | succ n ih =>
      have hregion : InRegion (fsStartSector + i) := ⟨Nat.le_add_right _ _, by omega⟩
      have hone := h.explained_read hdrive hregion
      refine (hone.bind ?_ (readsFrom_disjoint (Nat.le_refl (fsStartSector + i + 1)))).mono
        (readsFrom_succ _ n)
      intro sector w' hw'
      have hfs : w'.fs = w.fs := by rw [← fsReadSectorDirect_fs P (fsStartSector + i) w, hw']
      cases sector with
      | none =>
          refine ⟨SectorOracle.faultless, ?_⟩
          intro o _ hone'
          simp only [fsReadHeaderSectors, hw', hone']
          rw [h.print_map o (coloured_quiet (by rfl))]
      | some buffer =>
          have hkept : DriveKept w.fs (copyHeaderSector i buffer w'.fs) := by
            rw [hfs, copyHeaderSector]
            split_ifs
            · exact ⟨rfl, rfl, rfl, rfl⟩
            · exact DriveKept.refl _
          obtain ⟨o, ho⟩ := ih (w := { w' with fs := copyHeaderSector i buffer w'.fs }) (i + 1)
            (by omega) (hdrive.kept hkept)
          refine ⟨o, ?_⟩
          intro o' heq hone'
          simp only [fsReadHeaderSectors, hw', hone']
          exact ho o' heq

/-- **The data loop.** -/
lemma explained_readData (n i : ℕ) (hend : i + n ≤ dataSectors)
    (hdrive : w.fs.DriveAt io driveNum) :
    Explained (World.map view) (readsFrom (fsStartSector + headerSectors + i) n)
      (fun w => ((), fsReadDataSectors P n i w))
      (fun (o : SectorOracle) w =>
        ((), fsReadDataSectors (Q o) n i w)) w := by
  induction n generalizing i w with
  | zero => exact explained_of_eq fun o => rfl
  | succ n ih =>
      have hregion : InRegion (fsStartSector + headerSectors + i) :=
        ⟨by omega, by omega⟩
      have hone := h.explained_read hdrive hregion
      refine (hone.bind ?_
        (readsFrom_disjoint (Nat.le_refl (fsStartSector + headerSectors + i + 1)))).mono
        (readsFrom_succ _ n)
      intro sector w' hw'
      have hfs : w'.fs = w.fs := by
        rw [← fsReadSectorDirect_fs P (fsStartSector + headerSectors + i) w, hw']
      cases sector with
      | none =>
          obtain ⟨o, ho⟩ := ih (w := w'.print P
              [.printf "[DEBUG] Failed to read data sector %d\n" [UInt32.ofNat i]]) (i + 1)
            (by omega) (by rw [World.print_fs, hfs]; exact hdrive)
          refine ⟨o, ?_⟩
          intro o' heq hone'
          simp only [fsReadDataSectors, hw', hone']
          rw [h.print_map o' (by simp [driverMessage])]
          exact ho o' heq
      | some buffer =>
          have hkept : DriveKept w.fs { w'.fs with
              fsData := splice w'.fs.fsData (i * sectorSize) sectorSize buffer.byte } := by
            rw [hfs]
            exact ⟨rfl, rfl, rfl, rfl⟩
          obtain ⟨o, ho⟩ := ih (w := { w' with fs := { w'.fs with
              fsData := splice w'.fs.fsData (i * sectorSize) sectorSize buffer.byte } }) (i + 1)
            (by omega) (hdrive.kept hkept)
          refine ⟨o, ?_⟩
          intro o' heq hone'
          simp only [fsReadDataSectors, hw', hone']
          exact ho o' heq

/-! ### Calls

A call is its loops in sequence, with messages and stores between them; these ask nothing. -/

/-- What a call may ask for: every sector of the file system, once to read and once to write. -/
def callAsks : Set SectorAsk := readsFrom 2048 3 ∪ (readsFrom 2051 256 ∪ writesFrom 2048 259)

/-- **A load.** -/
lemma explained_load (hdrive : w.fs.DriveAt io driveNum) :
    Explained (World.map view) callAsks (fun w => ((), fsLoadFromDisk P w))
      (fun (o : SectorOracle) w =>
        ((), fsLoadFromDisk (Q o) w)) w := by
  by_cases hav : diskAvailable w.fs = true
  · have hav' : diskAvailable (w.map view).fs = true := hav
    have hheader := h.explained_readHeader headerSectors 0 (by decide) hdrive
    have hdisj : Disjoint (readsFrom 2048 3) (readsFrom 2051 256 ∪ writesFrom 2048 259) :=
      Set.disjoint_union_right.mpr
        ⟨readsFrom_disjoint (Nat.le_refl 2051), reads_writes_disjoint _ _ _ _⟩
    refine hheader.bind ?_ hdisj
    intro ok w₁ hw₁
    have hdrive₁ : w₁.fs.DriveAt io driveNum := by
      have hkept := (stepRel_driveKept P).readHeaderSectors headerSectors 0 w
      rw [hw₁] at hkept
      exact hdrive.kept hkept
    cases ok with
    | false =>
        refine ⟨SectorOracle.faultless, ?_⟩
        intro o _ hshown
        simp only [fsLoadFromDisk, World.map_fs, hav, hw₁, hshown, Bool.not_true,
          Bool.false_eq_true, if_false]
    | true =>
        by_cases hmagic : w₁.fs.fsHeader.magic = szymfsMagic
        · -- a SzymFS is found, and its data is read
          obtain ⟨o, ho⟩ := h.explained_readData (w := w₁.print P
            [.printf "[DEBUG] Reading %d data sectors...\n" [UInt32.ofNat dataSectors]])
            dataSectors 0 (by decide) hdrive₁
          refine ⟨o, ?_⟩
          intro o' heq hshown
          have hdata := (Prod.mk.inj (ho o' fun ask hask => heq ask (.inl hask))).2
          simp only [fsLoadFromDisk_found _ hav hw₁ hmagic]
          have hmagic' : (w₁.map view).fs.fsHeader.magic = szymfsMagic := hmagic
          rw [fsLoadFromDisk_found _ hav' hshown hmagic']
          simp only
          rw [h.print_map o' (by simp [driverMessage]), hdata,
            h.print_map o' (by simp [driverMessage, coloured])]
          rfl
        · -- the drive is formatted and saved
          obtain ⟨o, ho⟩ := h.explained_save (w := { (w₁.print P (coloured .yellow
            (.writestring "[INFO] No existing filesystem found, creating new one\n"))) with
              fs := fsFormat w₁.fs }) (hdrive₁.kept ⟨rfl, rfl, rfl, rfl⟩)
          refine ⟨o, ?_⟩
          intro o' heq hshown
          have hsaved := (Prod.mk.inj (ho o' fun ask hask => heq ask (.inr hask))).2
          have hmap : ({ (w₁.print P (coloured .yellow
                (.writestring "[INFO] No existing filesystem found, creating new one\n"))).map view
                with fs := fsFormat w₁.fs } : World τ)
              = World.map view { (w₁.print P (coloured .yellow
                (.writestring "[INFO] No existing filesystem found, creating new one\n"))) with
                fs := fsFormat w₁.fs } := rfl
          simp only [fsLoadFromDisk_other _ hav hw₁ hmagic]
          have hmagic' : (w₁.map view).fs.fsHeader.magic ≠ szymfsMagic := hmagic
          rw [fsLoadFromDisk_other _ hav' hshown hmagic']
          simp only
          rw [h.print_map o' (coloured_quiet (by rfl)), World.map_fs, hmap, hsaved]
          exact congrArg (Prod.mk ()) (h.printIf_map o' _ (coloured_quiet rfl) _)
  · refine explained_of_eq fun o => ?_
    simp only [fsLoadFromDisk, World.map_fs, hav, Bool.not_false, if_true]

/-- **`fs_init`.** -/
lemma explained_init (hdrive : w.fs.DriveAt io driveNum) :
    Explained (World.map view) callAsks (fun w => ((), fsInit P w))
      (fun (o : SectorOracle) w =>
        ((), fsInit (Q o) w)) w := by
  by_cases hav : diskAvailable w.fs = true
  · obtain ⟨o, ho⟩ := h.explained_load (w := { w with fs := fsInitEmpty w.fs })
      (hdrive.kept ⟨rfl, rfl, rfl, rfl⟩)
    refine ⟨o, ?_⟩
    intro o' heq
    have hav' : diskAvailable (w.map view).fs = true := hav
    have hload : fsLoadFromDisk (Q o')
        { w.map view with fs := fsInitEmpty (w.map view).fs }
        = (fsLoadFromDisk P { w with fs := fsInitEmpty w.fs }).map view :=
      (Prod.mk.inj (ho o' heq)).2
    simp only [fsInit_available P hav]
    rw [fsInit_available _ hav', hload, h.print_map o' (coloured_quiet (by rfl))]
  · refine explained_of_eq fun o => ?_
    have hav' : ¬ diskAvailable (w.map view).fs = true := hav
    have hmap : ({ w.map view with fs := fsInitEmpty (w.map view).fs } : World τ)
        = World.map view { w with fs := fsInitEmpty w.fs } := rfl
    simp only [fsInit_unavailable P hav]
    rw [fsInit_unavailable _ hav', hmap, h.print_map o (coloured_quiet (by rfl))]

/-- **`fs_create_file`.** -/
lemma explained_create (name content : CString) (hdrive : w.fs.DriveAt io driveNum) :
    Explained (World.map view) (writesFrom 2048 259) (fsCreateFile P name content)
      (fun (o : SectorOracle) =>
        fsCreateFile (Q o) name content) w := by
  cases hslot : fsFindFreeSlot w.fs.fsHeader with
  | none =>
      refine explained_of_eq fun o => ?_
      simp only [fsCreateFile, h.fsFindFile_map, World.map_fs, hslot]
      split_ifs <;> rfl
  | some slot =>
      obtain ⟨o, ho⟩ := h.explained_save (w := { w with fs := fsFillSlot slot name content w.fs })
        (hdrive.kept ⟨rfl, rfl, rfl, rfl⟩)
      refine ⟨o, ?_⟩
      intro o' heq
      have hsaved : fsSaveToDisk (Q o') { w.map view with fs := fsFillSlot slot name content w.fs }
          = (fsSaveToDisk P { w with fs := fsFillSlot slot name content w.fs }).map view :=
        (Prod.mk.inj (ho o' heq)).2
      simp only [fsCreateFile, h.fsFindFile_map, World.map_fs, hslot, hsaved]
      split_ifs <;> rfl

/-- **`fs_delete_file`.** -/
lemma explained_delete (name : CString) (hdrive : w.fs.DriveAt io driveNum) :
    Explained (World.map view) (writesFrom 2048 259) (fsDeleteFile P name)
      (fun (o : SectorOracle) =>
        fsDeleteFile (Q o) name) w := by
  cases hslot : fsFindFile P w name with
  | none =>
      refine explained_of_eq fun o => ?_
      simp only [fsDeleteFile, h.fsFindFile_map, World.map_fs, hslot]
      split_ifs <;> rfl
  | some slot =>
      obtain ⟨o, ho⟩ := h.explained_save (w := { w with fs := fsClearSlot slot w.fs })
        (hdrive.kept ⟨rfl, rfl, rfl, rfl⟩)
      refine ⟨o, ?_⟩
      intro o' heq
      have hsaved : fsSaveToDisk (Q o') { w.map view with fs := fsClearSlot slot w.fs }
          = (fsSaveToDisk P { w with fs := fsClearSlot slot w.fs }).map view :=
        (Prod.mk.inj (ho o' heq)).2
      simp only [fsDeleteFile, h.fsFindFile_map, World.map_fs, hslot, hsaved]
      split_ifs <;> rfl

lemma fsReadFile_map (o : SectorOracle) (w : World σ) (name : CString) (maxSize : UInt32) :
    fsReadFile (Q o) (w.map view) name maxSize
      = fsReadFile P w name maxSize := by
  rw [fsReadFile, fsReadFile, h.fsFindFile_map, h.dataMemory_map]
  rfl

lemma fsListFiles_map (o : SectorOracle) (w : World σ) :
    fsListFiles (Q o) (w.map view)
      = (fsListFiles P w).map view := by
  have hentry : fsListEntry (Q o) (w.map view)
      = fsListEntry P w := by
    funext i
    simp only [fsListEntry, h.nameMemory_map, World.map_fs]
  have hsame : listing (Q o) (w.map view)
      = listing P w := by
    rw [listing, listing, hentry]
    rfl
  rw [fsListFiles_eq, fsListFiles_eq, hsame, h.print_map o (listing_quiet P w)]

/-- **Every call is a call on a drive made of sectors**, for some `Env`. -/
theorem explained_call (call : FsCall) (hdrive : w.fs.DriveAt io driveNum) :
    Explained (World.map view) Set.univ (fsCall P call)
      (fun (o : SectorOracle) => fsCall (Q o) call) w := by
  cases call with
  | init =>
      refine ((h.explained_init hdrive).mono (Set.subset_univ _)).andThen ?_
      intro _ w' o hf hg
      exact Prod.ext rfl ((Prod.mk.inj hg).2.trans (congrArg _ (Prod.mk.inj hf).2.symm))
  | create name content =>
      refine ((h.explained_create name content hdrive).mono (Set.subset_univ _)).andThen ?_
      intro result w' o hf hg
      simp only [fsCall, hf, hg]
  | delete name =>
      refine ((h.explained_delete name hdrive).mono (Set.subset_univ _)).andThen ?_
      intro result w' o hf hg
      simp only [fsCall, hf, hg]
  | save =>
      refine ((h.explained_save hdrive).mono (Set.subset_univ _)).andThen ?_
      intro _ w' o hf hg
      exact Prod.ext rfl ((Prod.mk.inj hg).2.trans (congrArg _ (Prod.mk.inj hf).2.symm))
  | fileExists name =>
      refine explained_of_eq fun o => ?_
      simp only [fsCall, fsFileExists, h.fsFindFile_map]
  | read name maxSize =>
      refine explained_of_eq fun o => ?_
      simp only [fsCall, h.fsReadFile_map]
  | list =>
      refine explained_of_eq fun o => ?_
      simp only [fsCall, h.fsListFiles_map]

/-- **Every run of calls** on the one platform is a run on the other, with an oracle for each of
its calls. -/
theorem run (calls : List FsCall) (hdrive : w.fs.DriveAt io driveNum) :
    ∃ history : List (SectorOracle × FsCall), history.map Prod.snd = calls ∧
      outputs (fsCall P) calls w = outputs (fun e => fsCall (Q e.1) e.2) history (w.map view) ∧
      (final (fsCall P) calls w).map view
        = final (fun e => fsCall (Q e.1) e.2) history (w.map view) :=
  exists_oracles (fun call _ _ hc => ⟨h.explained_call call hc, hc.call P call⟩) hdrive

end ShowsAs

/-! ## Drives made of sectors

The platform of `SectorDrive.lean` is told by an `Env` what becomes of sectors, and an oracle
together with the bytes around the arrays is an `Env`.  A platform that shows as such a drive has
all the results on histories of sector drives. -/

/-- An oracle, and the memory around the arrays, are an `Env`. -/
def SectorOracle.env (afterHeader aroundData : ℕ → UInt8) (o : SectorOracle) : Env where
  read lba := o (.read lba)
  write lba := o (.write lba)
  afterHeader := afterHeader
  aroundData := aroundData

/-- What a write with this outcome returns, and what it leaves. -/
def writeOutcome (outcome : Outcome) (lba : ℕ) (buffer : Sector) (d : SectorDev) : ℤ × SectorDev :=
  match outcome with
  | .stored => (0, { d with disk := Function.update d.disk lba buffer })
  | .lost => (0, d)
  | .refused => (-1, d)

/-- **When a platform shows as a drive made of sectors**: its state holds a disk and a terminal, a
sector it hands out is the one on the disk, and a write has one of the three outcomes. -/
theorem showsAs_sectors {P : Platform σ} {io : UInt16} {driveNum : UInt8} {view : σ → SectorDev}
    {afterHeader aroundData : ℕ → UInt8}
    (hread : ∀ lba d, InRegion lba → ∃ readable : Bool,
      (P.readSector io driveNum lba d).1 = (if readable then some ((view d).disk lba) else none) ∧
        view (P.readSector io driveNum lba d).2 = view d)
    (hwrite : ∀ lba buffer d, InRegion lba → ∃ outcome,
      (P.writeSector io driveNum lba buffer d).1 = (writeOutcome outcome lba buffer (view d)).1 ∧
        view (P.writeSector io driveNum lba buffer d).2
          = (writeOutcome outcome lba buffer (view d)).2)
    (hprint : ∀ call d, driverMessage call = false →
      view (P.print call d) = { view d with term := (view d).term ++ [call] })
    (hafter : ∀ d, P.afterHeader d = afterHeader) (haround : ∀ d, P.aroundData d = aroundData) :
    ShowsAs P (fun o => sectorPlatform (SectorOracle.env afterHeader aroundData o)) io driveNum
      view where
  read := by
    intro lba d hlba
    obtain ⟨readable, hsector, hview⟩ := hread lba d hlba
    refine ⟨fun
      | .read _ => readable
      | .write _ => .stored, ?_⟩
    intro (o : SectorOracle) heq
    have hask : o (.read lba) = readable :=
      heq (.read lba) ⟨lba, rfl, Nat.le_refl _, Nat.lt_succ_self _⟩
    simp only [sectorPlatform, SectorOracle.env, hask, hsector, hview]
  write := by
    intro lba buffer d hlba
    obtain ⟨outcome, hresult, hview⟩ := hwrite lba buffer d hlba
    refine ⟨fun
      | .read _ => true
      | .write _ => outcome, ?_⟩
    intro (o : SectorOracle) heq
    have hask : o (.write lba) = outcome :=
      heq (.write lba) ⟨lba, rfl, Nat.le_refl _, Nat.lt_succ_self _⟩
    have hsame : (sectorPlatform (SectorOracle.env afterHeader aroundData o)).writeSector io
        driveNum lba buffer (view d) = writeOutcome outcome lba buffer (view d) := by
      simp only [sectorPlatform, SectorOracle.env, hask]
      rfl
    simp only [hsame, hresult, hview]
  print _ call d hcall := (hprint call d hcall).symm
  afterHeader _ d := (hafter d).symm
  aroundData _ d := (haround d).symm

end SzymOS
