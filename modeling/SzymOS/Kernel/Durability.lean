import SzymOS.Kernel.AtaDisk
import SzymOS.Kernel.ShellFiles

/-!
# Files outlive the machine

A machine that is started again and again, with calls in between, and a finite map that nothing but
the calls ever changes.  The map has no notion of a boot beyond what `kernel_main` does there: it
binds `README.txt`, if that is not bound and there is room.

A drive has files also before the machine is first switched on, and they are the map to begin with;
a disk on which no SzymFS can be found has the empty map, because the first boot formats it.

Two things are asked of the drive: that it answers in time, and that it keeps what it takes.  For
sectors that are not of the file system nothing is asked at all.

* `outside_unchanged` — the sectors that are not of the file system are never written.
* `Stores` — the files on a disk are those of a map; a disk without a SzymFS has none.
* `Durable` — the files in memory are those of a map, and so are the ones on the disk.
* `systemStep_durable` — what a boot or a call does, where nothing goes wrong.
* `durable_map` — the same of a drive behind its ports, over whole lives of the machine.

A boot is the load of `SaveLoad.lean` followed by the end of `kernel_main`, and a call is one of
`Refinement.lean`, with the save that it makes.  `Durable` is what both keep: memory represents the
map, and the disk stores it.  Of a boot the disk is the source and memory the result
(`Stores.boot_durable`); of a call it is the other way round (`Durable.call`).

`systemStep_map` carries an event from the sectors to the ports, where the drive is the one of
`AtaDisk.lean`.  If it answers in time and keeps what it takes, the oracle of this simulation is
always the good one, and so the step on the sectors is the one without faults.
-/

set_option autoImplicit false

namespace SzymOS

open Bytes Blocks Transition Oracle

variable {σ τ : Type}

/-! ## Lives of a machine

An event is a boot or a call.  A boot begins with the variables as they are in the image of the
kernel, and with the drive as it is. -/

/-- What the machine is made to do: a call of `filesystem.c`, or to start again. -/
inductive SystemEvent where
  | call (call : FsCall)
  | boot

/-- A boot keeps what is behind the ports, and nothing of what was in memory. -/
def systemStep (P : Platform σ) (drive : DriveId) : SystemEvent → World σ → FsResult × World σ
  | .call call, w => fsCall P call w
  | .boot, w =>
      (.done, kernelMainBoot P { fs := FsState.selected (some drive), dev := w.dev })

/-- The map can answer for the call. -/
def SystemEvent.Served : SystemEvent → Prop
  | .call c => c.Served
  | .boot => True

/-- What becomes of the map. -/
def FileMap.system : SystemEvent → FileMap → FsResult × FileMap
  | .call call, m => FileMap.call call m
  | .boot, m => (.done, (FileMap.create readmeName.bytes readmeText.bytes m).2)

/-- The machine before its first boot. -/
def switchedOff (dev : σ) : World σ := { fs := FsState.powerOn, dev }

/-- A boot leaves the selected drive selected. -/
lemma FsState.DriveAt.boot (P : Platform σ) {w : World σ} {io : UInt16} {driveNum : UInt8}
    (h : w.fs.DriveAt io driveNum) : (kernelMainBoot P w).fs.DriveAt io driveNum := by
  have hinit : (fsInit P w).fs.DriveAt io driveNum := h.call P .init
  rw [kernelMainBoot]
  split_ifs
  · exact hinit.call P (.create readmeName readmeText)
  · exact hinit

/-! ## What is never written

The sector number of every write is between the first and the last sector of the file system, and a
drive that is given such a number writes no other sector. -/

/-- Calls on sectors leave the others alone. -/
lemma stepRel_outside (env : Env) : StepRel (sectorPlatform env)
    fun w w' => ∀ lba, ¬ InRegion lba → w'.dev.disk lba = w.dev.disk lba where
  refl _ _ _ := rfl
  trans h h' lba hlba := (h' lba hlba).trans (h lba hlba)
  print calls w lba _ := by rw [print_disk]
  read lba w lba' _ := by
    rw [fsReadSectorDirect]
    split_ifs
    · rfl
    · rfl
  write lba buffer w hle hlt lba' hlba' := by
    have hne : lba' ≠ lba := by
      rintro rfl
      exact hlba' ⟨hle, hlt⟩
    rw [fsWriteSectorDirect]
    split_ifs
    · rfl
    · show (writeOutcome (env.write lba) lba buffer w.dev).2.disk lba' = w.dev.disk lba'
      cases env.write lba with
      | stored => exact Function.update_of_ne hne _ _
      | lost => rfl
      | refused => rfl
  store _ _ _ _ _ := rfl

section Outside

variable (a : AtaDrive) {w : World DiskDev} {lba : ℕ}

/-- A call on the ports leaves them alone too, whatever the drive answers. -/
lemma fsCall_outside (hw : w.fs.DriveAt a.ioBase a.driveNum) (hlba : ¬ InRegion lba)
    (call : FsCall) : (fsCall a.machine.toPlatform call w).2.dev.disk lba = w.dev.disk lba := by
  obtain ⟨(o : SectorOracle), ho⟩ := (a.showsAs_disk.explained_call call hw).exact
  have houtside := (stepRel_outside (o.env a.afterHeader a.aroundData)).call call
    (w.map DiskDev.view) lba hlba
  rw [ho] at houtside
  exact houtside

/-- And so does an event. -/
lemma systemStep_outside (hw : w.fs.DriveAt a.ioBase a.driveNum) (hlba : ¬ InRegion lba)
    (event : SystemEvent) :
    (systemStep a.machine.toPlatform a.toDriveId event w).2.fs.DriveAt a.ioBase a.driveNum ∧
      (systemStep a.machine.toPlatform a.toDriveId event w).2.dev.disk lba = w.dev.disk lba := by
  cases event with
  | call call => exact ⟨hw.call _ call, fsCall_outside a hw hlba call⟩
  | boot =>
      have hstart : FsState.DriveAt (FsState.selected (some a.toDriveId)) a.ioBase a.driveNum :=
        fun _ => ⟨rfl, rfl⟩
      refine ⟨FsState.DriveAt.boot _ hstart, ?_⟩
      let start : World DiskDev := { fs := FsState.selected (some a.toDriveId), dev := w.dev }
      have hinit := fsCall_outside a (w := start) hstart hlba .init
      have hdrive := hstart.call a.machine.toPlatform (w := start) .init
      show (kernelMainBoot a.machine.toPlatform start).dev.disk lba = w.dev.disk lba
      rw [kernelMainBoot]
      split_ifs
      · exact (fsCall_outside a hdrive hlba (.create readmeName readmeText)).trans hinit
      · exact hinit

end Outside

/-- **Nothing else on the drive is ever written.**  Whatever the drive behind the ports answers and
keeps, over any number of boots and calls, a sector outside the 259 of the file system is what it
was. -/
theorem outside_unchanged (a : AtaDrive) (d : DiskDev) (events : List SystemEvent) {lba : ℕ}
    (hlba : ¬ InRegion lba) :
    (final (systemStep a.machine.toPlatform a.toDriveId) events (switchedOff d)).dev.disk lba
      = d.disk lba := by
  have hoff : (switchedOff d).fs.DriveAt a.ioBase a.driveNum := fun h => Bool.noConfusion h
  have hstep : ∀ event ∈ events, ∀ w, w.fs.DriveAt a.ioBase a.driveNum ∧
      w.dev.disk lba = d.disk lba →
      (systemStep a.machine.toPlatform a.toDriveId event w).2.fs.DriveAt a.ioBase a.driveNum ∧
        (systemStep a.machine.toPlatform a.toDriveId event w).2.dev.disk lba = d.disk lba := by
    rintro event - w ⟨hdrive, hsame⟩
    obtain ⟨hdrive', hsame'⟩ := systemStep_outside a hdrive hlba event
    exact ⟨hdrive', hsame'.trans hsame⟩
  exact (invariant_final hstep ⟨hoff, rfl⟩).2

/-- A drive that is always ready, and always asks for data. -/
def AtaDrive.prompt : AtaDrive where
  toDriveId := .primaryMaster
  position := by decide
  status _ := 0x58
  keeps _ := true
  afterHeader _ := 0
  aroundData _ := 0

/-- It holds nothing yet. -/
def DiskDev.blank : DiskDev where
  regs _ := 0
  transfer := .idle
  disk _ _ := 0
  polled := 0
  completed := 0
  term := []

/-- Formatting a blank drive leaves its first sector alone. -/
theorem outside_unchanged_blank :
    (final (systemStep AtaDrive.prompt.machine.toPlatform AtaDrive.prompt.toDriveId)
        [.boot, .call .save, .boot] (switchedOff DiskDev.blank)).dev.disk 0
      = DiskDev.blank.disk 0 :=
  outside_unchanged AtaDrive.prompt DiskDev.blank _ fun h => absurd h.1 (by decide)

/-! ## What a disk stores

The files of a disk are those that a start would bring into memory.  After every call that changes
the files, memory and disk are equal again. -/

/-- The directory and the data of a disk, as variables. -/
def diskState (d : ℕ → Sector) : FsState :=
  { FsState.powerOn with
    fsInitialized := true
    fsHeader := diskHeader d
    fsData := diskData d }

/-- The disk holds exactly the files of the map. -/
structure Stores (d : ℕ → Sector) (m : FileMap) : Prop where
  found : (diskHeader d).magic = szymfsMagic → Represents (diskState d) m
  foreign : (diskHeader d).magic ≠ szymfsMagic → m = ∅

/-- Memory and disk hold exactly the files of the map. -/
structure Durable (w : SectorWorld) (m : FileMap) : Prop where
  represents : Represents w.fs m
  onDisk : OnDisk w.fs w.dev.disk
  booted : Booted w.fs

/-- What lies behind the 128 KB of data does not count. -/
lemma Represents.congr_data {s s' : FsState} {m : FileMap} (h : Represents s m)
    (hh : s'.fsHeader = s.fsHeader) (hd : ∀ q < 131072, s'.fsData q = s.fsData q)
    (hi : s'.fsInitialized = true) : Represents s' m where
  initialized := hi
  wellFormed := hh ▸ h.wellFormed
  lookup name := by
    rw [h.lookup name, hh]
    cases hlookup : s.fsHeader.lookup name with
    | none => rfl
    | some i =>
        obtain ⟨⟨hused, -⟩, -⟩ := FilesystemHeader.lookup_eq_some_iff.mp hlookup
        obtain ⟨hsize, hoff⟩ := h.wellFormed.laidOut i hused
        have hslot := i.isLt
        rw [Option.map_some, Option.map_some, fileContent, fileContent, hh,
          slice_congr fun j hj => (hd _ (by omega)).symm]

namespace Durable

variable {w : SectorWorld} {m : FileMap}

lemma stores (h : Durable w m) : Stores w.dev.disk m where
  found _ := h.represents.congr_data h.onDisk.header h.onDisk.data rfl
  foreign hmagic := by
    rw [h.onDisk.header] at hmagic
    exact absurd h.booted.magic hmagic

lemma print (h : Durable w m) (env : Env) (calls : List TermCall) :
    Durable (w.print (sectorPlatform env) calls) m where
  represents := h.represents
  onDisk := by
    rw [World.print_fs, print_disk]
    exact h.onDisk
  booted := h.booted

/-- **A call**, with every write stored. -/
lemma call (h : Durable w m) {env : Env} (hstored : env.AllStored) (call : FsCall)
    (hserved : call.Served) :
    (diskStep (env, call) w).1 = (FileMap.call call m).1 ∧
      Durable (diskStep (env, call) w).2 (FileMap.call call m).2 := by
  obtain ⟨hresult, hrep⟩ := fsStep_simulates (e := (sectorPlatform env, call)) hserved h.represents
  have hcall : call ≠ .init := by
    rintro rfl
    exact hserved
  refine ⟨hresult, hrep, ?_, diskStep_booted hcall h.booted⟩
  show OnDisk (fsCall (sectorPlatform env) call w).2.fs
    (fsCall (sectorPlatform env) call w).2.dev.disk
  rcases fsCall_cases (sectorPlatform env) hcall w with ⟨-, calls, hr⟩ | ⟨s, hs, -, hr⟩
  · rw [hr]
    exact (h.print env calls).onDisk
  · rw [hr]
    have hdrive : s.HasDrive := (hs.booted h.booted).hasDrive
    exact (save_onDisk (w := { w with fs := s }) hdrive fun lba _ _ => hstored lba).saved env

end Durable

/-- **`fs_init`** brings the files of the disk into memory, and formats a disk that has none. -/
lemma Stores.reboot_durable (drive : DriveId) {env : Env} (hread : env.AllRead)
    (hstored : env.AllStored) {dev : SectorDev} {m : FileMap} (h : Stores dev.disk m) :
    Durable (reboot drive env dev) m := by
  have hbooted := reboot_booted drive dev hread.headerReads
  by_cases hmagic : (diskHeader dev.disk).magic = szymfsMagic
  · have hon : OnDisk (diskState dev.disk) dev.disk := ⟨rfl, fun _ _ => rfl⟩
    obtain ⟨hheader, hdata, hdisk⟩ := reboot_onDisk drive dev hread hon hmagic
    refine ⟨(h.found hmagic).congr_data hheader hdata hbooted.initialized, ?_, hbooted⟩
    rw [hdisk]
    exact ⟨hheader.symm, fun q hq => (hdata q hq).symm⟩
  · obtain ⟨hempty, hon, -⟩ := reboot_formats drive ⟨hread, hstored, hmagic⟩
    rw [h.foreign hmagic]
    exact ⟨Represents.empty hbooted.initialized hempty, hon, hbooted⟩

/-- **A boot**: the files of the disk, and `README.txt`. -/
lemma Stores.boot_durable (drive : DriveId) {env : Env} (hread : env.AllRead)
    (hstored : env.AllStored) {dev : SectorDev} {m : FileMap} (h : Stores dev.disk m) :
    Durable (kernelBoot drive env dev) (FileMap.create readmeName.bytes readmeText.bytes m).2 := by
  have hboot := h.reboot_durable drive hread hstored
  have hshort : readmeName.length < 32 := by decide
  have hthere : fsFileExists (sectorPlatform env) (reboot drive env dev) readmeName
      = decide (readmeName.bytes ∈ m) :=
    FsResult.truth.inj (hboot.call hstored (.fileExists readmeName) trivial).1
  rw [kernelBoot_eq, hthere]
  by_cases hmem : readmeName.bytes ∈ m
  · rw [if_neg (by simp [hmem]), FileMap.create, if_pos hmem]
    exact hboot
  · rw [if_pos (by simp [hmem])]
    exact (hboot.call hstored (.create readmeName readmeText) hshort).2.print env _

/-- **One event**, on a drive made of sectors where nothing goes wrong. -/
theorem systemStep_durable (drive : DriveId) {env : Env} (hread : env.AllRead)
    (hstored : env.AllStored) (event : SystemEvent) (hserved : event.Served) {w : SectorWorld}
    {m : FileMap} (h : Durable w m) :
    (systemStep (sectorPlatform env) drive event w).1 = (FileMap.system event m).1 ∧
      Durable (systemStep (sectorPlatform env) drive event w).2 (FileMap.system event m).2 := by
  cases event with
  | call call => exact h.call hstored call hserved
  | boot => exact ⟨rfl, h.stores.boot_durable drive hread hstored⟩

/-! ## Behind the ports

What has been proved on sectors is carried to the ports by the simulation of `InMemory.lean`. -/

/-- Where one platform shows as another, whatever the oracle, an event on the one is an event on
the other. -/
lemma ShowsAs.systemStep_map {P : Platform σ} {Q : Platform τ} {drive : DriveId} {view : σ → τ}
    (h : ShowsAs P (fun _ => Q) drive.ioBase drive.driveNum view) (event : SystemEvent)
    {w : World σ} (hw : w.fs.DriveAt drive.ioBase drive.driveNum) :
    systemStep Q drive event (w.map view)
      = ((systemStep P drive event w).1, (systemStep P drive event w).2.map view) := by
  cases event with
  | call call =>
      obtain ⟨-, hcall⟩ := (h.explained_call call hw).exact
      exact hcall
  | boot =>
      let start : World σ := { fs := FsState.selected (some drive), dev := w.dev }
      have hstart : start.fs.DriveAt drive.ioBase drive.driveNum := fun _ => ⟨rfl, rfl⟩
      have hinit : fsInit Q (start.map view) = (fsInit P start).map view := by
        obtain ⟨-, hcall⟩ := (h.explained_init hstart).exact
        exact (Prod.mk.inj hcall).2
      have hdrive : (fsInit P start).fs.DriveAt drive.ioBase drive.driveNum := hstart.call P .init
      have hcreate : (fsCreateFile Q readmeName readmeText ((fsInit P start).map view)).2
          = (fsCreateFile P readmeName readmeText (fsInit P start)).2.map view := by
        obtain ⟨-, hcall⟩ := (h.explained_create readmeName readmeText hdrive).exact
        exact congrArg Prod.snd hcall
      show (FsResult.done, kernelMainBoot Q (start.map view))
        = (FsResult.done, (kernelMainBoot P start).map view)
      rw [kernelMainBoot, kernelMainBoot, hinit, fsFileExists, fsFileExists,
        h.fsFindFile_map SectorOracle.faultless]
      by_cases hfound : (fsFindFile P (fsInit P start) readmeName).isSome = true
      · rw [if_neg (by simp [hfound]), if_neg (by simp [hfound])]
      · rw [if_pos (by simp [hfound]), if_pos (by simp [hfound]), hcreate,
          h.print_map SectorOracle.faultless (coloured_quiet (by rfl))]

/-- What shows of the machine is durable, and its drive is the one behind the ports. -/
structure AtaDrive.Keeps (a : AtaDrive) (w : World DiskDev) (m : FileMap) : Prop where
  driveAt : w.fs.DriveAt a.ioBase a.driveNum
  durable : Durable (w.map DiskDev.view) m

section Ports

variable {a : AtaDrive} (htime : a.InTime) (hkeeps : a.KeepsAll) {w : World DiskDev} {m : FileMap}

include htime hkeeps

/-- **A boot on the ports**, from whatever is on the disk. -/
lemma boot_keeps (hw : w.fs.DriveAt a.ioBase a.driveNum) (h : Stores w.dev.disk m) :
    a.Keeps (systemStep a.machine.toPlatform a.toDriveId .boot w).2
      (FileMap.system .boot m).2 where
  driveAt := FsState.DriveAt.boot _ fun _ => ⟨rfl, rfl⟩
  durable := by
    have hmap := (a.showsAs_faultless htime hkeeps).systemStep_map .boot hw
    have hboot : Durable (systemStep (sectorPlatform a.faultlessEnv) a.toDriveId .boot
        (w.map DiskDev.view)).2 (FileMap.system .boot m).2 :=
      Stores.boot_durable a.toDriveId (fun _ => rfl) (fun _ => rfl) h
    rw [hmap] at hboot
    exact hboot

/-- **One event on the ports.** -/
lemma systemStep_keeps {event : SystemEvent} (hserved : event.Served) (h : a.Keeps w m) :
    (systemStep a.machine.toPlatform a.toDriveId event w).1 = (FileMap.system event m).1 ∧
      a.Keeps (systemStep a.machine.toPlatform a.toDriveId event w).2
        (FileMap.system event m).2 := by
  cases event with
  | call call =>
      have hmap := (a.showsAs_faultless htime hkeeps).systemStep_map (.call call) h.driveAt
      have hread : a.faultlessEnv.AllRead := fun _ => rfl
      have hstored : a.faultlessEnv.AllStored := fun _ => rfl
      obtain ⟨hresult, hnext⟩ :=
        systemStep_durable a.toDriveId hread hstored (.call call) hserved h.durable
      rw [hmap] at hresult hnext
      exact ⟨hresult, h.driveAt.call _ call, hnext⟩
  | boot => exact ⟨rfl, boot_keeps htime hkeeps h.driveAt h.durable.stores⟩

end Ports

/-- **Files outlive the machine.**  Put a drive with any files on it behind the ports, one that
answers in time and keeps what it takes.  Over any number of boots and calls, the calls answer as
a finite map does that a boot leaves alone, but for `README.txt`; and at the end the drive holds
exactly the files of that map. -/
theorem durable_map (a : AtaDrive) (htime : a.InTime) (hkeeps : a.KeepsAll) (d : DiskDev)
    (m : FileMap) (hd : Stores d.disk m) (events : List SystemEvent)
    (hserved : ∀ e ∈ events, e.Served) :
    let life := SystemEvent.boot :: events
    let step := systemStep a.machine.toPlatform a.toDriveId
    outputs step life (switchedOff d) = outputs FileMap.system life m ∧
      Stores (final step life (switchedOff d)).dev.disk (final FileMap.system life m) := by
  intro life step
  have hoff : (switchedOff d).fs.DriveAt a.ioBase a.driveNum := fun h => Bool.noConfusion h
  have hboot := boot_keeps htime hkeeps hoff hd
  have hstep : ∀ e ∈ events, ∀ w m, a.Keeps w m →
      (step e w).1 = (FileMap.system e m).1 ∧ a.Keeps (step e w).2 (FileMap.system e m).2 :=
    fun e he w m h => systemStep_keeps htime hkeeps (hserved e he) h
  obtain ⟨houts, hfinal⟩ := outputs_eq_of_simulation (f := id) hstep hboot
  rw [List.map_id] at houts hfinal
  refine ⟨?_, hfinal.durable.stores⟩
  show FsResult.done :: outputs step events _ = FsResult.done :: outputs FileMap.system events _
  rw [houts]

lemma AtaDrive.prompt_inTime : AtaDrive.prompt.InTime where
  ready n := ⟨0, by decide, Polling.firstAt_zero.mpr (by show busy 0x58 = false; decide)⟩
  asks n := ⟨0, by decide, Polling.firstAt_zero.mpr (by show noRequest 0x58 = false; decide)⟩

/-- A blank drive, a file that is created, a boot, and the file is read. -/
theorem durable_map_blank :
    let life := [SystemEvent.boot, .call (.create nameA nameA), .boot, .call (.read nameA 2)]
    let step := systemStep AtaDrive.prompt.machine.toPlatform AtaDrive.prompt.toDriveId
    outputs step life (switchedOff DiskDev.blank) = outputs FileMap.system life ∅ ∧
      Stores (final step life (switchedOff DiskDev.blank)).dev.disk
        (final FileMap.system life ∅) :=
  durable_map AtaDrive.prompt AtaDrive.prompt_inTime (fun _ => rfl)
    DiskDev.blank ∅ ⟨fun h => absurd h (by decide), fun _ => rfl⟩
    [.call (.create nameA nameA), .boot, .call (.read nameA 2)] (by
      simp only [List.forall_mem_cons]
      exact ⟨by show nameA.length < 32; decide, trivial, by show 1 ≤ (2 : UInt32).toNat; decide,
        by simp⟩)

end SzymOS
