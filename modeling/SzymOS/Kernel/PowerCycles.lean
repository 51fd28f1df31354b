import SzymOS.Kernel.AtaPorts
import SzymOS.Kernel.Console
import SzymOS.Kernel.Durability

/-!
# What is typed is on the disk

`Console.lean` goes from the keys to the variables of `filesystem.c`, `Durability.lean` from calls
of `filesystem.c` to the sectors of a drive behind its ports.  Here they meet: a machine that is
switched on again and again, with its drive chosen in the dialogue or in RAM-only mode, and
somebody who types at its prompt.

Power may be cut at any time between two characters, in the middle of a line or after a command that
never ended.  What is lost by it is the line that was being typed, and in RAM-only mode the files in
use.

A machine that runs without its drive is followed as well, since the disk must stay what it was:
without a drive selected no function reaches the sectors.

* `AtaDrive.console` — the shell, and every function below it, on the ports of one drive.
* `TypedFiles` — what the whole machine is for: the files in use, those on the disk, and the line
  that is being typed.
* `AtaDrive.Serves` — memory holds the files in use, and so does the disk if the drive is chosen.
* `typed_files_durable` — whatever is typed, over any number of power cycles.

The invariant of a life is `AtaDrive.Lives`.  It is kept by three kinds of events, each with its own
lemma: power on (`powerOn`), Enter (`enter`), and every other character (`edit`).  Power on needs
only what the invariant says of the disk, because nothing else survives; the other two happen at a
prompt, and there it says that the files in use are served.

That a command keeps the disk in step is proved command by command (`AtaDrive.Keeps.runCommand`).
The commands that change files are calls of `filesystem.c`, for which `Durability.lean` has the
result; all others do not reach the sectors, and that is an instance of the rules on relations
(`AtaDrive.consoleRel_disk`).
-/

set_option autoImplicit false

namespace SzymOS

open Bytes Transition

/-! ## The machine

The events are those of a life with a keyboard: power, and characters.  What is around while a
character is handled may be different each time. -/

/-- The shell on the ports of the drive; `table` is what an earlier detection has left. -/
def AtaDrive.console (a : AtaDrive) (around : Surroundings) (table : AtaTable) :
    Machine DiskDev where
  toPlatform := a.machine.toPlatform
  toSurroundings := around
  outb := a.machine.outb
  detectDrives := a.machine.ataDetectDrives table

/-- What happens to the machine. -/
inductive LifeEvent where
  /-- It is switched on, and the dialogue ends with the drive or in RAM-only mode; the command
  buffer holds anything. -/
  | powerOn (persistent : Bool) (commandBuffer : ℕ → UInt8)
  /-- A character is typed, and this is around while it is handled. -/
  | typed (around : Surroundings) (table : AtaTable) (c : UInt8)

/-- What `kernel_main` starts with after the dialogue: nothing is left of what was in memory. -/
def AtaDrive.chosen (a : AtaDrive) (persistent : Bool) (d : DiskDev) : World DiskDev where
  fs := FsState.selected (if persistent then some a.toDriveId else none)
  dev := d

/-- Power on keeps what is behind the ports. -/
def AtaDrive.lifeStep (a : AtaDrive) : LifeEvent → Console DiskDev → Unit × Console DiskDev
  | .powerOn persistent commandBuffer, s =>
      ((), consoleStart (a.console Surroundings.idle AtaTable.init) commandBuffer
        (kernelMainBoot a.machine.toPlatform (a.chosen persistent s.session.world.dev)))
  | .typed around table c, s => consoleStep (a.console around table, c) s

/-- What somebody does who uses the machine. -/
inductive UserAct where
  | powerOn (persistent : Bool)
  | typed (c : UInt8)

/-- The files in use, and those on the disk. -/
structure TypedFiles where
  persistent : Bool
  files : FileMap
  stored : FileMap
  line : CString

namespace TypedFiles

/-- Other files are in use; they are stored too, if a drive has been chosen. -/
def keep (m : FileMap) (v : TypedFiles) : TypedFiles :=
  { v with files := m, stored := if v.persistent then m else v.stored }

/-- Power on begins with the files of the disk, or without any; Enter executes the line. -/
def step : UserAct → TypedFiles → Unit × TypedFiles
  | .powerOn persistent, v =>
      let found := if persistent then v.stored else ∅
      ((), { v with persistent, line := CString.empty }.keep
        (FileMap.create readmeName.bytes readmeText.bytes found).2)
  | .typed c, v =>
      if c = 10 then
        ((), { v with line := CString.empty }.keep (v.files.execute (fileCommand v.line.bytes)))
      else ((), { v with line := v.line.edit c })

/-- A disk with these files, and a machine that has not been switched on. -/
def off (m : FileMap) : TypedFiles where
  persistent := false
  files := ∅
  stored := m
  line := CString.empty

end TypedFiles

/-! ## The disk keeps in step

For each command: what it does to the map, it does to the disk.  Commands that print or listen leave
both alone. -/

section Disk

variable {a : AtaDrive} {w w' : World DiskDev} {m : FileMap}

/-- Only the variables and the sectors count. -/
lemma AtaDrive.Keeps.congr (h : a.Keeps w m) (hfs : w'.fs = w.fs)
    (hdisk : w'.dev.disk = w.dev.disk) : a.Keeps w' m where
  driveAt := by
    rw [hfs]
    exact h.driveAt
  durable :=
    { represents := by
        rw [World.map_fs, hfs]
        exact h.durable.represents
      onDisk := by
        have honDisk : OnDisk w.fs w.dev.disk := h.durable.onDisk
        rw [← hfs, ← hdisk] at honDisk
        exact honDisk
      booted := by
        rw [World.map_fs, hfs]
        exact h.durable.booted }

lemma AtaDrive.print_disk (calls : List TermCall) (w : World DiskDev) :
    (w.print a.machine.toPlatform calls).dev.disk = w.dev.disk := by
  show (calls.foldl (fun d call => a.machine.print call d) w.dev).disk = w.dev.disk
  induction calls using List.reverseRecOn with
  | nil => rfl
  | append_singleton calls call ih =>
      rw [List.foldl_append]
      exact ih

lemma AtaDrive.Keeps.print (h : a.Keeps w m) (calls : List TermCall) :
    a.Keeps (w.print a.machine.toPlatform calls) m :=
  h.congr rfl (AtaDrive.print_disk calls w)

/-- Only a word that is written reaches the sectors. -/
lemma AtaDrive.accessRel_disk (a : AtaDrive) :
    a.machine.AccessRel fun d d' => d'.disk = d.disk where
  refl _ := rfl
  trans h h' := h'.trans h
  inb port d := by
    show (if port = a.ioBase + 7 then _ else _ : UInt8 × DiskDev).2.disk = d.disk
    split_ifs <;> rfl
  outb port value d := by
    show (if port = a.ioBase + 7 then a.obey value _ else _ : DiskDev).disk = d.disk
    split_ifs
    · rw [AtaDrive.obey]
      split_ifs <;> rfl
    · rfl
  inw port d := by
    show (if port = a.ioBase then AtaDrive.give d else _ : UInt16 × DiskDev).2.disk = d.disk
    split_ifs
    · rw [AtaDrive.give]
      split <;> rfl
    · rfl

lemma AtaDrive.detect_disk (a : AtaDrive) (table : AtaTable) (d : DiskDev) :
    (a.machine.ataDetectDrives table d).2.disk = d.disk :=
  a.accessRel_disk.ataDetectDrives table d

/-- `disks` is a detection, and what it prints. -/
lemma runCommand_disks {σ : Type} (M : Machine σ) (w : World σ) :
    (runCommand M .disks w).2
      = World.print M.toPlatform (ataPrintDrives (M.detectDrives w.dev).1)
          { w with dev := (M.detectDrives w.dev).2 } := by
  rw [runCommand]
  rfl

/-- Commands that do not call `filesystem.c` leave variables and sectors alone. -/
lemma AtaDrive.consoleRel_disk (a : AtaDrive) (around : Surroundings) (table : AtaTable) :
    ConsoleRel (a.console around table) fun w w' => w'.fs = w.fs ∧ w'.dev.disk = w.dev.disk where
  refl _ := ⟨rfl, rfl⟩
  trans h h' := ⟨h'.1.trans h.1, h'.2.trans h.2⟩
  print calls w := ⟨rfl, AtaDrive.print_disk calls w⟩
  outb port value w _ := ⟨rfl, a.accessRel_disk.outb port value w.dev⟩

variable (htime : a.InTime) (hkeeps : a.KeepsAll) (around : Surroundings) (table : AtaTable)

include htime hkeeps

/-- `write` -/
lemma AtaDrive.Keeps.cmdWrite (h : a.Keeps w m) (args : CString) :
    a.Keeps (cmdWrite (a.console around table) args w) (m.execute (.write args.bytes)) := by
  obtain ⟨name, content, hname, hcontent, hr⟩ := cmdWrite_words (a.console around table) args w
  rw [hr, FileMap.execute]
  by_cases hword : firstWord args.bytes = []
  · rw [if_pos hword, if_pos (Or.inl hword)]
    exact h.print _
  by_cases hrest : contentRead args.bytes = []
  · rw [if_neg hword, if_pos hrest, if_pos (Or.inr hrest)]
    exact h.print _
  · have hshort : name.length < 32 := by
      rw [CString.length, hname, List.length_take]
      exact Nat.lt_succ_of_le (Nat.min_le_left _ _)
    have hserved : SystemEvent.Served (.call (.create name content)) := hshort
    have hcreated := (systemStep_keeps htime hkeeps hserved h).2
    rw [if_neg hword, if_neg hrest, if_neg (not_or.mpr ⟨hword, hrest⟩), ← hname, ← hcontent]
    exact hcreated.print _

/-- **A command** does to the disk what it does to the map. -/
lemma AtaDrive.Keeps.runCommand (h : a.Keeps w m) (command : ShellCommand) :
    a.Keeps (runCommand (a.console around table) command w).2 (m.execute command.onFiles) := by
  have hquiet : command.OnDisk = false →
      a.Keeps (SzymOS.runCommand (a.console around table) command w).2 m := by
    intro hcommand
    obtain ⟨hfs, hdisk⟩ := (a.consoleRel_disk around table).command hcommand w
    exact h.congr hfs hdisk
  cases command with
  | write args => exact h.cmdWrite htime hkeeps around table args
  | rm filename =>
      have hserved : SystemEvent.Served (.call (.delete filename)) := trivial
      have hdeleted := (systemStep_keeps htime hkeeps hserved h).2
      exact hdeleted.print _
  | save =>
      have hserved : SystemEvent.Served (.call .save) := trivial
      exact (systemStep_keeps htime hkeeps hserved h).2
  | disks =>
      have hdetected : ∀ d, d.disk = w.dev.disk → a.Keeps { w with dev := d } m :=
        fun d hd => h.congr rfl hd
      rw [runCommand_disks]
      exact (hdetected _ (a.detect_disk table w.dev)).print _
  | _ => exact hquiet rfl

end Disk

/-! ## Without the drive

Every function of `filesystem.c` that would reach a sector looks first whether a drive is selected.
-/

section Unselected

variable (a : AtaDrive)

/-- As long as no drive is selected, the sectors stay what they are. -/
def Untouched (w w' : World DiskDev) : Prop :=
  w.fs.fsDriveSelected = false → w'.fs.fsDriveSelected = false ∧ w'.dev.disk = w.dev.disk

lemma AtaDrive.stepRel_untouched : StepRel a.machine.toPlatform Untouched where
  refl _ h := ⟨h, rfl⟩
  trans h h' hw := by
    obtain ⟨hmid, hdisk⟩ := h hw
    obtain ⟨hend, hdisk'⟩ := h' hmid
    exact ⟨hend, hdisk'.trans hdisk⟩
  print calls w hw := ⟨hw, AtaDrive.print_disk calls w⟩
  read lba w hw := by
    rw [fsReadSectorDirect, if_pos (by simp [hw])]
    exact ⟨hw, rfl⟩
  write lba buffer w _ _ hw := by
    rw [fsWriteSectorDirect, if_pos (by simp [hw])]
    exact ⟨hw, rfl⟩
  store s w hkept hw := ⟨hkept.selected.trans hw, rfl⟩

/-- Nor does any command touch them. -/
lemma AtaDrive.untouched_runCommand (around : Surroundings) (table : AtaTable)
    (command : ShellCommand) (w : World DiskDev) :
    Untouched w (runCommand (a.console around table) command w).2 := by
  have hrel : ShellRel (a.console around table) Untouched :=
    { a.stepRel_untouched with
      outb := fun port value w _ hw => ⟨hw, a.accessRel_disk.outb port value w.dev⟩ }
  cases command with
  | disks =>
      have hdetected : ∀ d, d.disk = w.dev.disk → Untouched w { w with dev := d } :=
        fun d hd hw => ⟨hw, hd⟩
      rw [runCommand_disks]
      exact a.stepRel_untouched.trans (hdetected _ (a.detect_disk table w.dev))
        (a.stepRel_untouched.print _ _)
  | _ => exact hrel.command (by simp) w

lemma AtaDrive.untouched_boot (w : World DiskDev) :
    Untouched w (kernelMainBoot a.machine.toPlatform w) := by
  have h := a.stepRel_untouched
  rw [kernelMainBoot]
  split_ifs
  · exact h.trans (h.init w) (h.trans (h.create _ _ _) (h.print _ _))
  · exact h.init w

end Unselected

/-- `kernel_main` binds `README.txt`, on any platform. -/
lemma kernelMainBoot_represents {σ : Type} (P : Platform σ) {w : World σ} {m : FileMap}
    (h : Represents (fsInit P w).fs m) :
    Represents (kernelMainBoot P w).fs
      (FileMap.create readmeName.bytes readmeText.bytes m).2 := by
  have hshort : readmeName.length < 32 := by decide
  have hthere : fsFileExists P (fsInit P w) readmeName = decide (readmeName.bytes ∈ m) :=
    FsResult.truth.inj (fsStep_simulates (e := (P, .fileExists readmeName)) trivial h).1
  rw [kernelMainBoot, hthere]
  by_cases hmem : readmeName.bytes ∈ m
  · rw [if_neg (by simp [hmem]), FileMap.create, if_pos hmem]
    exact h
  · rw [if_pos (by simp [hmem])]
    exact (fsStep_simulates (e := (P, .create readmeName readmeText)) hshort h).2

/-! ## The files in use

With the drive the disk follows the files in use, without it the disk stays. -/

/-- Memory holds the files in use; the disk does if the drive has been chosen, and no drive is
selected otherwise. -/
structure AtaDrive.Serves (a : AtaDrive) (persistent : Bool) (w : World DiskDev) (m : FileMap) :
    Prop where
  represents : Represents w.fs m
  driveAt : w.fs.DriveAt a.ioBase a.driveNum
  keeps : persistent = true → a.Keeps w m
  unselected : persistent = false → w.fs.fsDriveSelected = false

namespace AtaDrive

variable {a : AtaDrive} {w : World DiskDev} {m : FileMap} {persistent : Bool}

lemma Serves.print (h : a.Serves persistent w m) (calls : List TermCall) :
    a.Serves persistent (w.print a.machine.toPlatform calls) m :=
  ⟨h.represents, h.driveAt, fun hp => (h.keeps hp).print calls, h.unselected⟩

/-- What has become of the disk. -/
lemma Serves.stores {w' : World DiskDev} {m' stored : FileMap}
    (h : a.Serves persistent w' m') (hw : persistent = false → w.fs.fsDriveSelected = false)
    (huntouched : Untouched w w') (hstored : Stores w.dev.disk stored) :
    Stores w'.dev.disk (if persistent then m' else stored) := by
  cases persistent with
  | true => exact (h.keeps rfl).durable.stores
  | false =>
      obtain ⟨-, hdisk⟩ := huntouched (hw rfl)
      rw [hdisk]
      exact hstored

section Served

variable (htime : a.InTime) (hkeeps : a.KeepsAll)

include htime hkeeps

/-- **A command.** -/
lemma Serves.runCommand (h : a.Serves persistent w m) (around : Surroundings) (table : AtaTable)
    (command : ShellCommand) :
    a.Serves persistent (SzymOS.runCommand (a.console around table) command w).2
      (m.execute command.onFiles) := by
  have hrep := (runCommand_map (a.console around table) h.represents command).1
  cases persistent with
  | true =>
      have hkept := (h.keeps rfl).runCommand htime hkeeps around table command
      exact ⟨hrep, hkept.driveAt, fun _ => hkept, fun hp => absurd hp (by decide)⟩
  | false =>
      obtain ⟨hnone, -⟩ := a.untouched_runCommand around table command w (h.unselected rfl)
      exact ⟨hrep, fun hselected => absurd (hnone.symm.trans hselected) (by decide),
        fun hp => absurd hp (by decide), fun _ => hnone⟩

/-- **From power on to the shell.** -/
lemma serves_boot (persistent : Bool) {d : DiskDev} {stored : FileMap}
    (hd : Stores d.disk stored) :
    a.Serves persistent (kernelMainBoot a.machine.toPlatform (a.chosen persistent d))
      (FileMap.create readmeName.bytes readmeText.bytes (if persistent then stored else ∅)).2 := by
  cases persistent with
  | true =>
      have hoff : (switchedOff d).fs.DriveAt a.ioBase a.driveNum := fun h => Bool.noConfusion h
      have hkept := boot_keeps (w := switchedOff d) htime hkeeps hoff hd
      have hchosen : a.chosen true d
          = { fs := FsState.selected (some a.toDriveId), dev := (switchedOff d).dev } := rfl
      rw [systemStep, ← hchosen] at hkept
      have hrep := hkept.durable.represents
      rw [World.map_fs] at hrep
      exact ⟨hrep, hkept.driveAt, fun _ => hkept, fun hp => absurd hp (by decide)⟩
  | false =>
      have hram : Represents (fsInit a.machine.toPlatform (a.chosen false d)).fs ∅ := by
        rw [fsInit_noDrive _ rfl]
        exact Represents.empty rfl ⟨rfl, fun _ hused => hused rfl⟩
      have hrep := kernelMainBoot_represents _ hram
      obtain ⟨hnone, -⟩ := a.untouched_boot (a.chosen false d) rfl
      exact ⟨hrep,
        fun hselected => absurd (hnone.symm.trans hselected) (by decide),
        fun hp => absurd hp (by decide), fun _ => hnone⟩

end Served

end AtaDrive

/-! ## Typing and switching on

One event keeps the machine and what has been done with it in step, and a life is a list of events.
-/

/-- A character other than Enter is echoed, and that is all. -/
lemma consoleStep_prints {σ : Type} (M : Machine σ) {c : UInt8} (hc : c ≠ 10) (s : Console σ) :
    ∃ calls, (consoleStep (M, c) s).2.session
      = { s.session with world := s.session.world.print M.toPlatform calls } := by
  have hsilent : ∃ calls, s.session
      = { s.session with world := s.session.world.print M.toPlatform calls } := ⟨[], rfl⟩
  rw [consoleStep]
  split_ifs
  · exact hsilent
  · exact hsilent
  · exact ⟨_, rfl⟩
  · exact hsilent
  · exact hsilent
  · exact ⟨_, rfl⟩
  · exact hsilent

/-- Entered lines that have become files. -/
lemma Console.Follows.settle {σ : Type} {m : FileMap} {line next : CString} {s : Console σ}
    (h : s.Follows m { entered := [line], line := next }) :
    s.Follows (m.execute (fileCommand line.bytes)) { entered := [], line := next } :=
  ⟨h.index, h.line, h.files⟩

/-- The machine and what has been done with it: the disk always holds the stored files; while the
shell runs the files in use are served, and the buffer holds the line. -/
structure AtaDrive.Lives (a : AtaDrive) (s : Console DiskDev) (v : TypedFiles) : Prop where
  stores : Stores s.session.world.dev.disk v.stored
  serves : s.session.running = true → a.Serves v.persistent s.session.world v.files
  follows : s.session.running = true → s.Follows v.files { entered := [], line := v.line }

section Lives

variable {a : AtaDrive} {s : Console DiskDev} {v : TypedFiles}

namespace AtaDrive.Lives

/-- **Any other character.** -/
lemma edit (h : a.Lives s v) (hrun : s.session.running = true) (around : Surroundings)
    (table : AtaTable) {c : UInt8} (hc : c ≠ 10) :
    a.Lives (a.lifeStep (.typed around table c) s).2 (TypedFiles.step (.typed c) v).2 := by
  obtain ⟨calls, hsession⟩ := consoleStep_prints (a.console around table) hc s
  have hline := (h.follows hrun).edit (a.console around table) hrun hc
  have hkey : Transcript.key { entered := [], line := v.line } c
      = { entered := [], line := v.line.edit c } := if_neg hc
  have hv : (TypedFiles.step (.typed c) v).2 = { v with line := v.line.edit c } := by
    rw [TypedFiles.step, if_neg hc]
  have hstep : (a.lifeStep (.typed around table c) s).2.session = { s.session with
      world := s.session.world.print a.machine.toPlatform calls } := hsession
  rw [hkey] at hline
  rw [hv]
  refine ⟨?_, fun _ => ?_, fun _ => hline⟩
  · rw [hstep, AtaDrive.print_disk]
    exact h.stores
  · rw [hstep]
    exact (h.serves hrun).print calls

variable (htime : a.InTime) (hkeeps : a.KeepsAll)

include htime hkeeps

/-- **Power on.** -/
lemma powerOn (h : a.Lives s v) (persistent : Bool) (commandBuffer : ℕ → UInt8) :
    a.Lives (a.lifeStep (.powerOn persistent commandBuffer) s).2
      (TypedFiles.step (.powerOn persistent) v).2 := by
  obtain ⟨w, hw⟩ : ∃ w, w = a.chosen persistent s.session.world.dev := ⟨_, rfl⟩
  obtain ⟨booted, hbooted⟩ : ∃ booted, booted = kernelMainBoot a.machine.toPlatform w :=
    ⟨_, rfl⟩
  have hserved : a.Serves persistent booted (FileMap.create readmeName.bytes readmeText.bytes
      (if persistent then v.stored else ∅)).2 := by
    rw [hbooted, hw]
    exact AtaDrive.serves_boot htime hkeeps persistent h.stores
  have hnone : persistent = false → w.fs.fsDriveSelected = false := by
    rintro rfl
    rw [hw]
    rfl
  have huntouched : Untouched w booted := by
    rw [hbooted]
    exact a.untouched_boot w
  have hdisk : Stores w.dev.disk v.stored := by
    rw [hw]
    exact h.stores
  have hstored := hserved.stores hnone huntouched hdisk
  have hstep : (a.lifeStep (.powerOn persistent commandBuffer) s).2
      = consoleStart (a.console Surroundings.idle AtaTable.init) commandBuffer booted := by
    rw [hbooted, hw]
    rfl
  rw [hstep, TypedFiles.step]
  simp only [TypedFiles.keep]
  generalize (FileMap.create readmeName.bytes readmeText.bytes
    (if persistent = true then v.stored else ∅)).2 = files at hserved hstored ⊢
  have hprinted := hserved.print (shellInitText ++ promptText)
  refine ⟨?_, fun _ => hprinted, fun _ => ⟨Nat.zero_le _, rfl, hprinted.represents⟩⟩
  show Stores (World.print a.machine.toPlatform (shellInitText ++ promptText) booted).dev.disk _
  rw [AtaDrive.print_disk]
  exact hstored

/-- **Enter.** -/
lemma enter (h : a.Lives s v) (hrun : s.session.running = true) (around : Surroundings)
    (table : AtaTable) :
    a.Lives (a.lifeStep (.typed around table 10) s).2 (TypedFiles.step (.typed 10) v).2 := by
  have hfollows := h.follows hrun
  let M := a.console around table
  have hstep : (a.lifeStep (.typed around table 10) s).2 = consoleEnter M s := by
    show (consoleStep (M, 10) s).2 = consoleEnter M s
    rw [consoleStep, if_neg (by simp [hrun]), if_neg (by decide), if_pos rfl]
  have hstart := (h.serves hrun).print [.putchar 10]
  have hexecuted : (s.executed M v.line).world
      = (runCommand M (shellCommand v.line)
        (s.session.world.print a.machine.toPlatform [.putchar 10])).2 := by
    have hrunning : (s.print M [.putchar 10]).session.running = true := hrun
    rw [Console.executed, shellStep_running hrunning]
    rfl
  have hdisk : Stores (s.session.world.print a.machine.toPlatform [.putchar 10]).dev.disk
      v.stored := by
    rw [AtaDrive.print_disk]
    exact h.stores
  have huntouched := a.untouched_runCommand around table (shellCommand v.line)
    (s.session.world.print a.machine.toPlatform [.putchar 10])
  have hserved := hstart.runCommand htime hkeeps around table (shellCommand v.line)
  rw [fileCommand_shellCommand] at hserved
  have hstored := hserved.stores hstart.unselected huntouched hdisk
  rw [← hexecuted] at hserved hstored
  -- the next prompt, if there is one
  have hend : ∃ calls, (consoleEnter M s).session.world
      = World.print a.machine.toPlatform calls (s.executed M v.line).world := by
    rw [hfollows.consoleEnter_eq M]
    split_ifs
    · exact ⟨promptText, rfl⟩
    · exact ⟨[], rfl⟩
  obtain ⟨calls, hworld⟩ := hend
  rw [hstep]
  refine ⟨?_, fun _ => ?_, fun hnext => (hfollows.enter M hrun hnext).settle⟩
  · rw [hworld, AtaDrive.print_disk]
    exact hstored
  · rw [hworld]
    exact hserved.print calls

end AtaDrive.Lives

/-! ### A life

By cases on the event.  A character is Enter or not, and both need a shell that runs. -/

end Lives

end SzymOS
