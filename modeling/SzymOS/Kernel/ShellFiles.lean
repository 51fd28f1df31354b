import SzymOS.Filesystem.BootLoss
import SzymOS.Kernel.Shell

/-!
# Files, as the shell shows them

`write`, `cat` and `rm` on a drive made of sectors, over whole sessions.  A session starts where
`fs_init` leaves the file system, with no drive or with an image that could be read; in every
state it reaches, the variables represent a finite map (`Reachable.represents`), and a command line
that changes the map says so on the terminal (`lineStep_cases`).

The three commands speak of a file by its name and of what they did by a message.  So a session can
be followed from outside: the lines that were typed and the messages that came.  Whether a file is
there is decided by the last message about it.

Nothing is asked of the drive after the start.  A save may fail at any sector, and the files in
memory are what they are all the same.

* `shell_files` — a file that has been written is what `cat` prints and what a second `write` runs
  into, until an `rm` of it succeeds; then `cat` does not find it until it is written again.

`Holds` and `Lacks` say that a file is in the map, with its content, and that it is not.  Each is
kept by every line but those that report the one thing that can change it (`Holds.step`,
`Lacks.step`), and so along any number of lines.  The lemmas on `cat`, `write` and `rm` say what
each command prints when the file is there and when it is not; from them, what is printed tells
which of the two it was.

A file that has been written is thus followed from the message of its creation to the message of its
deletion, through whatever lines come in between.
-/

set_option autoImplicit false

namespace SzymOS

open Bytes Transition

/-! ## Sessions

The machine is that of the file system with the commands around it.  The states of interest are
those that a session can reach from a start that succeeded. -/

/-- A command line, and what the surroundings decide while it runs: what becomes of the sectors,
and which drives `disks` finds. -/
structure SectorLine where
  env : Env
  table : AtaTable
  around : Surroundings
  line : CString

/-- The ports other than those of the drive are not part of this machine. -/
def sectorMachine (e : SectorLine) : Machine SectorDev where
  toPlatform := sectorPlatform e.env
  toSurroundings := e.around
  outb _ _ dev := dev
  detectDrives dev := (e.table, dev)

def lineStep (e : SectorLine) (s : Session SectorDev) : Unit × Session SectorDev :=
  shellStep (sectorMachine e, e.line) s

/-- What a command line sends to the terminal. -/
def printed (e : SectorLine) (s : Session SectorDev) : List TermCall :=
  (lineStep e s).2.world.dev.term.drop s.world.dev.term.length

/-- It reports that a file of this name has been created. -/
def Creates (name : List UInt8) (e : SectorLine) (s : Session SectorDev) : Prop :=
  .formatted "File created: %s\n" [.str name] ∈ printed e s

/-- It reports that the file of this name has been deleted. -/
def Deletes (name : List UInt8) (e : SectorLine) (s : Session SectorDev) : Prop :=
  .formatted "File deleted: %s\n" [.str name] ∈ printed e s

/-- What `kernel_main` starts from: no drive, or a drive with a valid image on it all of which can
be read. -/
def Readable (drive : Option DriveId) (env : Env) (dev : SectorDev) : Prop :=
  drive.isSome → ValidImage dev.disk ∧ env.AllRead

/-- The states of a session: after `fs_init`, after what else `kernel_main` does, and after any
command line. -/
inductive Reachable : Session SectorDev → Prop where
  | init {drive : Option DriveId} {env : Env} {dev : SectorDev} (h : Readable drive env dev) :
      Reachable
        { world := fsInit (sectorPlatform env) { fs := FsState.selected drive, dev }
          running := true }
  | boot {drive : Option DriveId} {env : Env} {dev : SectorDev} (h : Readable drive env dev) :
      Reachable
        { world := kernelMainBoot (sectorPlatform env) { fs := FsState.selected drive, dev }
          running := true }
  | line {s : Session SectorDev} (h : Reachable s) (e : SectorLine) : Reachable (lineStep e s).2

/-! ## What reaches the terminal

The log of the terminal only grows, so what a line prints is what is added to it, and a message that
a command prints at its end is among this. -/

/-- The terminal's log grows. -/
lemma stepRel_term (env : Env) :
    StepRel (sectorPlatform env) fun w w' => w.dev.term <+: w'.dev.term where
  refl w := List.prefix_refl _
  trans := List.IsPrefix.trans
  print calls w := by
    rw [print_eq]
    exact List.prefix_append _ _
  read lba w := by
    rw [fsReadSectorDirect]
    split_ifs
    · exact List.prefix_refl _
    · exact List.prefix_refl _
  write lba buffer w _ _ := by
    rw [fsWriteSectorDirect]
    split_ifs
    · exact List.prefix_refl _
    · cases h : env.write lba with
      | stored => simp only [writeSector_stored h, List.prefix_refl]
      | lost => simp only [writeSector_lost h, List.prefix_refl]
      | refused => simp only [writeSector_refused h, List.prefix_refl]
  store s w _ := List.prefix_refl _

section Print

variable {e : SectorLine} {s : Session SectorDev} {calls : List TermCall}

lemma lineStep_of_running (ending : Ending) {w : SectorWorld} (hs : s.running = true)
    (h : shellExecuteCommand (sectorMachine e) e.line s.world = (ending, w)) :
    (lineStep e s).2.world = w := by
  rw [lineStep, shellStep, if_pos hs, h]

lemma lineStep_of_stopped (hs : s.running = false) : (lineStep e s).2 = s := by
  rw [lineStep, shellStep, if_neg (by simp [hs])]

/-- A command that only prints. -/
lemma printed_of_print (h : (lineStep e s).2.world = s.world.print (sectorPlatform e.env) calls) :
    printed e s = calls := by
  rw [printed, h, print_eq, List.drop_left]

/-- What a command prints at its end is among what it prints. -/
lemma mem_printed {w : SectorWorld} (hgrows : s.world.dev.term <+: w.dev.term)
    (h : (lineStep e s).2.world = w.print (sectorPlatform e.env) calls) {call : TermCall}
    (hcall : call ∈ calls) : call ∈ printed e s := by
  obtain ⟨before, hbefore⟩ := hgrows
  rw [printed, h, print_eq, ← hbefore, List.append_assoc, List.drop_left]
  exact List.mem_append_right _ hcall

end Print

/-! ## The variables represent a map

From the beginning of a session on, and across every line. -/

section Map

variable {w : SectorWorld} {m : FileMap}

/-- Without a drive, `fs_init` starts with the empty map. -/
lemma ram_represents (env : Env) (dev : SectorDev) :
    Represents (fsInit (sectorPlatform env) { fs := FsState.selected none, dev }).fs ∅ := by
  have hram : (fsInit (sectorPlatform env) { fs := FsState.selected none, dev }).fs
      = fsInitEmpty FsState.powerOn := rfl
  rw [hram]
  exact Represents.empty rfl ⟨rfl, fun _ hused => hused rfl⟩

/-- What `fs_init` starts with represents a map. -/
lemma init_represents {drive : Option DriveId} {env : Env} {dev : SectorDev}
    (h : Readable drive env dev) :
    ∃ m, Represents (fsInit (sectorPlatform env) { fs := FsState.selected drive, dev }).fs m := by
  cases drive with
  | none => exact ⟨∅, ram_represents env dev⟩
  | some drive =>
      obtain ⟨himage, hread⟩ := h rfl
      have hloaded := (reboot_szymfs drive dev hread.headerReads himage.magic).1
      refine Represents.exists_of_wellFormed (reboot_ready drive dev).2 ?_
      have hheader : (reboot drive env dev).fs.fsHeader = diskHeader dev.disk := by rw [hloaded]
      exact hheader ▸ himage.wellFormed

/-- What a creation does to the map, by its result. -/
lemma create_represents (P : Platform SectorDev) (name content : CString)
    (hshort : name.length < 32) (h : Represents w.fs m) :
    ((fsCreateFile P name content w).1 = 0 ∧ name.bytes ∉ m ∧
      Represents (fsCreateFile P name content w).2.fs (m.insert name.bytes content.bytes)) ∨
    ((fsCreateFile P name content w).1 ≠ 0 ∧ (fsCreateFile P name content w).2 = w) := by
  obtain ⟨hcode, hrep⟩ := fsStep_simulates (e := (P, .create name content)) hshort h
  simp only [fsStep, fsCall, FileMap.call, FsResult.code.injEq] at hcode hrep
  by_cases hz : (fsCreateFile P name content w).1 = 0
  · refine Or.inl ⟨hz, ?_⟩
    obtain ⟨hfresh, hmap⟩ := FileMap.create_of_zero (hcode.symm.trans hz)
    exact ⟨hfresh, hmap ▸ hrep⟩
  · exact Or.inr ⟨hz, fsCreateFile_of_nonzero hz⟩

/-- What a deletion does to it. -/
lemma delete_represents (P : Platform SectorDev) (name : CString) (h : Represents w.fs m) :
    ((fsDeleteFile P name w).1 = 0 ∧ name.bytes ∈ m ∧
      Represents (fsDeleteFile P name w).2.fs (m.erase name.bytes)) ∨
    ((fsDeleteFile P name w).1 ≠ 0 ∧ (fsDeleteFile P name w).2 = w) := by
  obtain ⟨hcode, hrep⟩ := fsStep_simulates (e := (P, .delete name)) trivial h
  simp only [fsStep, fsCall, FileMap.call, FsResult.code.injEq] at hcode hrep
  by_cases hz : (fsDeleteFile P name w).1 = 0
  · refine Or.inl ⟨hz, ?_⟩
    obtain ⟨hbound, hmap⟩ := FileMap.delete_of_zero (hcode.symm.trans hz)
    exact ⟨hbound, hmap ▸ hrep⟩
  · exact Or.inr ⟨hz, fsDeleteFile_of_nonzero hz⟩

lemma boot_represents {drive : Option DriveId} {env : Env} {dev : SectorDev}
    (h : Readable drive env dev) :
    ∃ m, Represents
      (kernelMainBoot (sectorPlatform env) { fs := FsState.selected drive, dev }).fs m := by
  obtain ⟨m, hm⟩ := init_represents h
  rw [kernelMainBoot]
  split_ifs
  · rw [World.print_fs]
    have hshort : readmeName.length < 32 := by decide
    rcases create_represents (sectorPlatform env) readmeName readmeText hshort hm with
      ⟨-, -, hrep⟩ | ⟨-, hsame⟩
    · exact ⟨_, hrep⟩
    · exact ⟨m, by rw [hsame]; exact hm⟩
  · exact ⟨m, hm⟩

/-- Commands that do not reach the disk leave the file system alone. -/
lemma runCommand_fs (e : SectorLine) {command : ShellCommand} (h : command.OnDisk = false)
    (w : SectorWorld) : (runCommand (sectorMachine e) command w).2.fs = w.fs := by
  have hrel : ConsoleRel (sectorMachine e) fun w w' => w'.fs = w.fs :=
    { refl := fun _ => rfl
      trans := fun h h' => h'.trans h
      print := fun _ _ => rfl
      outb := fun _ _ _ _ => rfl }
  exact hrel.command h w

/-! ### One line

The commands that can change files are `write` and `rm`.  Each of them is taken by what it returns,
and the message that goes with it. -/

/-- What `write` does to the map, and what it says of it. -/
lemma writeLine_cases (e : SectorLine) {s : Session SectorDev} (h : Represents s.world.fs m)
    {args : CString}
    (hworld : (lineStep e s).2.world = cmdWrite (sectorMachine e) args s.world) :
    (∃ name content, name ∉ m ∧ Creates name e s ∧
      Represents (lineStep e s).2.world.fs (m.insert name content)) ∨
    Represents (lineStep e s).2.world.fs m := by
  rcases cmdWrite_cases (sectorMachine e) args s.world with
    ⟨calls, hr⟩ | ⟨name, content, hshort, hr⟩
  · rw [hworld, hr]
    exact Or.inr h
  · rw [hr] at hworld
    rcases create_represents (sectorPlatform e.env) name content hshort h with
      ⟨hz, hfresh, hrep⟩ | ⟨-, hsame⟩
    · refine Or.inl ⟨name.bytes, content.bytes, hfresh, ?_, by rw [hworld]; exact hrep⟩
      refine mem_printed ((stepRel_term e.env).create name content s.world) hworld ?_
      have hz' : (fsCreateFile (sectorMachine e).toPlatform name content s.world).1 = 0 := hz
      rw [hz', writeReport, if_pos rfl]
      simp [coloured]
    · rw [hworld, World.print_fs]
      exact Or.inr (hsame.symm ▸ h)

/-- What `rm` does to it. -/
lemma rmLine_cases (e : SectorLine) {s : Session SectorDev} (h : Represents s.world.fs m)
    {filename : CString}
    (hworld : (lineStep e s).2.world = cmdRm (sectorMachine e) filename s.world) :
    (∃ name, Deletes name e s ∧ Represents (lineStep e s).2.world.fs (m.erase name)) ∨
    Represents (lineStep e s).2.world.fs m := by
  simp only [cmdRm] at hworld
  rcases delete_represents (sectorPlatform e.env) filename h with ⟨hz, -, hrep⟩ | ⟨-, hsame⟩
  · refine Or.inl ⟨filename.bytes, ?_, by rw [hworld]; exact hrep⟩
    refine mem_printed ((stepRel_term e.env).delete filename s.world) hworld ?_
    have hz' : (fsDeleteFile (sectorMachine e).toPlatform filename s.world).1 = 0 := hz
    rw [if_pos hz']
    simp [coloured]
  · rw [hworld, World.print_fs]
    exact Or.inr (hsame.symm ▸ h)

/-- **What a command line does to the map, and what it says of it.** -/
theorem lineStep_cases (e : SectorLine) {s : Session SectorDev} (h : Represents s.world.fs m) :
    (∃ name content, name ∉ m ∧ Creates name e s ∧
      Represents (lineStep e s).2.world.fs (m.insert name content)) ∨
    (∃ name, Deletes name e s ∧ Represents (lineStep e s).2.world.fs (m.erase name)) ∨
    Represents (lineStep e s).2.world.fs m := by
  cases hs : s.running with
  | false =>
      rw [lineStep_of_stopped hs]
      exact Or.inr (Or.inr h)
  | true =>
      have hworld : (lineStep e s).2.world
          = (runCommand (sectorMachine e) (shellCommand e.line) s.world).2 :=
        lineStep_of_running _ hs rfl
      cases hdisk : (shellCommand e.line).OnDisk with
      | false =>
          rw [hworld, runCommand_fs e hdisk]
          exact Or.inr (Or.inr h)
      | true =>
          cases hcommand : shellCommand e.line with
          | write args =>
              rw [hcommand] at hworld
              exact (writeLine_cases e h hworld).imp_right Or.inr
          | rm filename =>
              rw [hcommand] at hworld
              exact Or.inr (rmLine_cases e h hworld)
          | save =>
              rw [hworld, hcommand]
              exact Or.inr (Or.inr h.save)
          | disks =>
              rw [hworld, hcommand]
              exact Or.inr (Or.inr h)
          | _ => exact absurd (hcommand ▸ hdisk) (by simp [ShellCommand.OnDisk])

/-- **Every state of a session represents a map.** -/
theorem Reachable.represents {s : Session SectorDev} (h : Reachable s) :
    ∃ m, Represents s.world.fs m := by
  induction h with
  | init h => exact init_represents h
  | boot h => exact boot_represents h
  | line _ e ih =>
      obtain ⟨m, hm⟩ := ih
      rcases lineStep_cases e hm with ⟨_, _, -, -, hrep⟩ | ⟨_, -, hrep⟩ | hrep
      · exact ⟨_, hrep⟩
      · exact ⟨_, hrep⟩
      · exact ⟨_, hrep⟩

end Map

/-! ## What stays in the map, and what stays out of it

A file can only be taken away by a deletion that says so, and only be brought in by a creation that
says so. -/

/-- The file is in the map, with this content. -/
def Holds (name content : List UInt8) (s : Session SectorDev) : Prop :=
  ∃ m, Represents s.world.fs m ∧ m.lookup name = some content

/-- No file of this name is in the map. -/
def Lacks (name : List UInt8) (s : Session SectorDev) : Prop :=
  ∃ m, Represents s.world.fs m ∧ name ∉ m

section Stay

variable {name content : List UInt8} {s : Session SectorDev}

/-- Only a deletion that is reported takes a file away, and a creation never replaces one. -/
lemma Holds.step {e : SectorLine} (h : Holds name content s) (he : ¬ Deletes name e s) :
    Holds name content (lineStep e s).2 := by
  obtain ⟨m, hm, hfind⟩ := h
  rcases lineStep_cases e hm with ⟨other, _, hfresh, -, hrep⟩ | ⟨other, hdel, hrep⟩ | hrep
  · have hne : name ≠ other := by
      rintro rfl
      exact hfresh (Finmap.mem_of_lookup_eq_some hfind)
    exact ⟨_, hrep, by rw [Finmap.lookup_insert_of_ne _ hne, hfind]⟩
  · have hne : name ≠ other := by
      rintro rfl
      exact he hdel
    exact ⟨_, hrep, by rw [Finmap.lookup_erase_ne hne, hfind]⟩
  · exact ⟨m, hrep, hfind⟩

/-- Only a creation that is reported brings a file in. -/
lemma Lacks.step {e : SectorLine} (h : Lacks name s) (he : ¬ Creates name e s) :
    Lacks name (lineStep e s).2 := by
  obtain ⟨m, hm, hnot⟩ := h
  rcases lineStep_cases e hm with ⟨other, _, -, hcre, hrep⟩ | ⟨other, -, hrep⟩ | hrep
  · refine ⟨_, hrep, ?_⟩
    intro hmem
    rcases Finmap.mem_insert.mp hmem with rfl | hmem
    · exact he hcre
    · exact hnot hmem
  · exact ⟨_, hrep, fun hmem => hnot (Finmap.mem_erase.mp hmem).2⟩
  · exact ⟨m, hrep, hnot⟩

lemma Holds.run {later : List SectorLine} (h : Holds name content s)
    (hlater : Along lineStep (fun e s => ¬ Deletes name e s) later s) :
    Holds name content (final lineStep later s) :=
  (along_of_step (P := fun _ _ => True) (fun _ _ _ hI hQ => ⟨trivial, hI.step hQ⟩) h hlater).2

lemma Lacks.run {later : List SectorLine} (h : Lacks name s)
    (hlater : Along lineStep (fun e s => ¬ Creates name e s) later s) :
    Lacks name (final lineStep later s) :=
  (along_of_step (P := fun _ _ => True) (fun _ _ _ hI hQ => ⟨trivial, hI.step hQ⟩) h hlater).2

end Stay

/-! ## The three commands on one file

What each of them prints is known from the map, and by this the map is known from what they print.
-/

def catLine (name : CString) : List UInt8 := textBytes "cat " ++ name.bytes

def rmLine (name : CString) : List UInt8 := textBytes "rm " ++ name.bytes

def writeLine (name content : CString) : List UInt8 :=
  textBytes "write " ++ (name.bytes ++ 32 :: content.bytes)

/-- A name that can be written: 1 to 31 characters other than a space. -/
structure WritableName (name : CString) : Prop where
  nonempty : name.bytes ≠ []
  short : name.length < 32
  spaceless : ∀ b ∈ name.bytes, b ≠ 32

/-- A content that can be written: not empty, and not beginning with a space. -/
structure WritableContent (content : CString) : Prop where
  nonempty : content.bytes ≠ []
  head : content.bytes.head? ≠ some 32

section Lines

variable {e : SectorLine} {s : Session SectorDev} {name content : CString}

/-- `cat` of a file that is there. -/
lemma cat_holds (hs : s.running = true) (he : e.line.bytes = catLine name)
    (hlen : content.length ≤ 4096) (h : Holds name.bytes content.bytes s) :
    printed e s = [.writemem content.bytes, .writestring "\n"] := by
  obtain ⟨m, hm, hfind⟩ := h
  have hname : e.line.drop 4 = name := CString.ext (by rw [CString.drop_bytes, he]; rfl)
  have hread : fsReadFile (sectorMachine e).toPlatform s.world name
      (UInt32.ofNat (maxFileSize + 1)) = ((content.length : ℤ), content.bytes ++ [0]) := by
    rw [fsReadFile_eq _ hm.initialized hm.wellFormed.terminated hm.wellFormed.laidOut name
      (by decide), ← hm.lookup, hfind]
    have htake : content.bytes.take ((UInt32.ofNat (maxFileSize + 1)).toNat - 1) = content.bytes :=
      List.take_of_length_le hlen
    rw [readOf, htake, CString.length]
  have hbuffer : (content.bytes ++ [0]).takeWhile (· != 0) = content.bytes := by
    rw [List.takeWhile_append_of_pos (by simpa using content.noNul)]
    simp
  refine printed_of_print (lineStep_of_running .returned hs ?_)
  rw [shellExecuteCommand, shellCommand_cat he, hname]
  simp only [runCommand, cmdCat, hread, hbuffer]
  rw [if_neg (by omega)]
  rfl

/-- `cat` of a file that is not there. -/
lemma cat_lacks (hs : s.running = true) (he : e.line.bytes = catLine name)
    (h : Lacks name.bytes s) :
    printed e s = coloured .lightRed (.formatted "File not found: %s\n" [.str name.bytes]) := by
  obtain ⟨m, hm, hnot⟩ := h
  have hname : e.line.drop 4 = name := CString.ext (by rw [CString.drop_bytes, he]; rfl)
  have hread : fsReadFile (sectorMachine e).toPlatform s.world name
      (UInt32.ofNat (maxFileSize + 1)) = (-1, []) := by
    rw [fsReadFile_eq _ hm.initialized hm.wellFormed.terminated hm.wellFormed.laidOut name
      (by decide), ← hm.lookup, Finmap.lookup_eq_none.mpr hnot]
    rfl
  refine printed_of_print (lineStep_of_running .returned hs ?_)
  rw [shellExecuteCommand, shellCommand_cat he, hname]
  simp only [runCommand, cmdCat, hread]
  rw [if_pos (by decide)]
  rfl

/-- What a line with a name and a content does. -/
lemma write_world (hs : s.running = true) (he : e.line.bytes = writeLine name content)
    (hname : WritableName name) (hcontent : WritableContent content) :
    (lineStep e s).2.world = (fsCreateFile (sectorPlatform e.env) name content s.world).2.print
      (sectorPlatform e.env)
      (writeReport (fsCreateFile (sectorPlatform e.env) name content s.world).1 name) := by
  have hargs : (e.line.drop 6).bytes = name.bytes ++ 32 :: content.bytes := by
    rw [CString.drop_bytes, he]
    rfl
  refine lineStep_of_running .returned hs ?_
  rw [shellExecuteCommand, shellCommand_write he]
  exact congrArg (Prod.mk Ending.returned) (cmdWrite_line (sectorMachine e) hargs hname.nonempty
    hname.short hname.spaceless hcontent.nonempty hcontent.head s.world)

/-- A line that reports a creation has bound the name. -/
lemma write_creates (he : e.line.bytes = writeLine name content) (hname : WritableName name)
    (hcontent : WritableContent content) (hrep : ∃ m, Represents s.world.fs m)
    (h : Creates name.bytes e s) : Holds name.bytes content.bytes (lineStep e s).2 := by
  obtain ⟨m, hm⟩ := hrep
  cases hs : s.running with
  | false =>
      rw [Creates, printed, lineStep_of_stopped hs, List.drop_length] at h
      exact absurd h List.not_mem_nil
  | true =>
      have hworld := write_world hs he hname hcontent
      rcases create_represents (sectorPlatform e.env) name content hname.short hm with
        ⟨-, -, hrep⟩ | ⟨hz, hsame⟩
      · exact ⟨_, by rw [hworld]; exact hrep, Finmap.lookup_insert _⟩
      · rw [hsame] at hworld
        rw [Creates, printed_of_print hworld, writeReport, if_neg hz] at h
        split_ifs at h <;> simp [coloured] at h

/-- A `write` of a name that is not bound succeeds while there is room. -/
lemma write_fresh (hs : s.running = true) (he : e.line.bytes = writeLine name content)
    (hname : WritableName name) (hcontent : WritableContent content)
    (hlen : content.length ≤ 4096) {m : FileMap} (hm : Represents s.world.fs m)
    (hfresh : name.bytes ∉ m) (hroom : m.keys.card ≠ maxFiles) :
    Creates name.bytes e s ∧ (lineStep e s).2.running = true := by
  have hworld := write_world hs he hname hcontent
  have hcode := (fsStep_simulates (e := (sectorPlatform e.env, .create name content)) hname.short
    hm).1
  have hlong : ¬ maxFileSize < content.bytes.length := Nat.not_lt.mpr hlen
  simp only [fsStep, fsCall, FileMap.call, FileMap.create, if_neg hfresh, if_neg hroom,
    if_neg hlong, FsResult.code.injEq] at hcode
  refine ⟨mem_printed ((stepRel_term e.env).create name content s.world) hworld ?_, ?_⟩
  · rw [hcode, writeReport, if_pos rfl]
    simp [coloured]
  · rw [lineStep, shellStep, if_pos hs, shellExecuteCommand, shellCommand_write he]
    rfl

/-- A second `write` of a name that is bound. -/
lemma write_again (hs : s.running = true) (he : e.line.bytes = writeLine name content)
    (hname : WritableName name) (hcontent : WritableContent content) {old : List UInt8}
    (h : Holds name.bytes old s) :
    (lineStep e s).2.world.fs = s.world.fs ∧
      (lineStep e s).2.world.dev.disk = s.world.dev.disk ∧
      printed e s = coloured .lightRed
        (.formatted "Error: File already exists: %s\n" [.str name.bytes]) := by
  obtain ⟨m, hm, hfind⟩ := h
  have hmem : name.bytes ∈ m := Finmap.mem_of_lookup_eq_some hfind
  have hworld := write_world hs he hname hcontent
  have hcode := (fsStep_simulates (e := (sectorPlatform e.env, .create name content)) hname.short
    hm).1
  simp only [fsStep, fsCall, FileMap.call, FileMap.create, if_pos hmem,
    FsResult.code.injEq] at hcode
  have hnonzero : (fsCreateFile (sectorPlatform e.env) name content s.world).1 ≠ 0 := by
    rw [hcode]
    decide
  have hsame := fsCreateFile_of_nonzero hnonzero
  rw [hcode, hsame] at hworld
  refine ⟨by rw [hworld, World.print_fs], by rw [hworld, print_disk], ?_⟩
  rw [printed_of_print hworld]
  rfl

/-- What an `rm` line does. -/
lemma rm_world (hs : s.running = true) (he : e.line.bytes = rmLine name) :
    (lineStep e s).2.world = (fsDeleteFile (sectorPlatform e.env) name s.world).2.print
      (sectorPlatform e.env)
      (if (fsDeleteFile (sectorPlatform e.env) name s.world).1 = 0 then
        coloured .lightGreen (.formatted "File deleted: %s\n" [.str name.bytes])
      else coloured .lightRed (.formatted "File not found: %s\n" [.str name.bytes])) := by
  have hfilename : e.line.drop 3 = name := CString.ext (by rw [CString.drop_bytes, he]; rfl)
  refine lineStep_of_running .returned hs ?_
  rw [shellExecuteCommand, shellCommand_rm he, hfilename]
  rfl

/-- An `rm` that reports a deletion has unbound the name. -/
lemma rm_deletes (he : e.line.bytes = rmLine name) (hrep : ∃ m, Represents s.world.fs m)
    (h : Deletes name.bytes e s) : Lacks name.bytes (lineStep e s).2 := by
  obtain ⟨m, hm⟩ := hrep
  cases hs : s.running with
  | false =>
      rw [Deletes, printed, lineStep_of_stopped hs, List.drop_length] at h
      exact absurd h List.not_mem_nil
  | true =>
      have hworld := rm_world hs he
      rcases delete_represents (sectorPlatform e.env) name hm with
        ⟨-, -, hrep⟩ | ⟨hz, hsame⟩
      · exact ⟨_, by rw [hworld]; exact hrep, Finmap.notMem_erase_self⟩
      · rw [hsame, if_neg hz] at hworld
        rw [Deletes, printed_of_print hworld] at h
        simp [coloured] at h

/-- An `rm` of a file that is there succeeds. -/
lemma rm_holds (hs : s.running = true) (he : e.line.bytes = rmLine name) {old : List UInt8}
    (h : Holds name.bytes old s) :
    Deletes name.bytes e s ∧ (lineStep e s).2.running = true := by
  obtain ⟨m, hm, hfind⟩ := h
  have hmem : name.bytes ∈ m := Finmap.mem_of_lookup_eq_some hfind
  have hcode := (fsStep_simulates (e := (sectorPlatform e.env, .delete name)) trivial hm).1
  simp only [fsStep, fsCall, FileMap.call, FileMap.delete, if_pos hmem,
    FsResult.code.injEq] at hcode
  have hworld := rm_world hs he
  refine ⟨mem_printed ((stepRel_term e.env).delete name s.world) hworld ?_, ?_⟩
  · rw [if_pos hcode]
    simp [coloured]
  · rw [lineStep, shellStep, if_pos hs, shellExecuteCommand, shellCommand_rm he]
    rfl

end Lines

/-! ## Histories

By induction on the lines between two commands on the same file. -/

/-- What a command line finds of a file that is there: `cat` prints its content and a newline,
and a second `write` changes nothing.  This is said of a shell that still runs: after `panic` or
`reboot` there is no command line any more. -/
structure Shows (name content : CString) (s : Session SectorDev) : Prop where
  cat : s.running = true → ∀ e, e.line.bytes = catLine name →
    printed e s = [.writemem content.bytes, .writestring "\n"]
  again : s.running = true → ∀ e other, WritableContent other →
    e.line.bytes = writeLine name other →
      (lineStep e s).2.world.fs = s.world.fs ∧
        (lineStep e s).2.world.dev.disk = s.world.dev.disk ∧
        printed e s = coloured .lightRed
          (.formatted "Error: File already exists: %s\n" [.str name.bytes])

/-- And of a file that is not there. -/
def Misses (name : CString) (s : Session SectorDev) : Prop :=
  s.running = true → ∀ e, e.line.bytes = catLine name →
    printed e s = coloured .lightRed (.formatted "File not found: %s\n" [.str name.bytes])

/-- **Files keep what was written until they are removed.**  In every state of a session, a `write`
that reports the file created is followed by states that show it, as long as no `rm` of it reports
success; an `rm` that does is followed by states that miss it, as long as no `write` of it reports
success. -/
theorem shell_files {s : Session SectorDev} (hs : Reachable s) {name content : CString}
    (hname : WritableName name) (hcontent : WritableContent content)
    (hfits : (writeLine name content).length ≤ 255) :
    (∀ e, e.line.bytes = writeLine name content → Creates name.bytes e s →
      ∀ later, Along lineStep (fun e s => ¬ Deletes name.bytes e s) later (lineStep e s).2 →
        Shows name content (final lineStep later (lineStep e s).2)) ∧
    (∀ e, e.line.bytes = rmLine name → Deletes name.bytes e s →
      ∀ later, Along lineStep (fun e s => ¬ Creates name.bytes e s) later (lineStep e s).2 →
        Misses name (final lineStep later (lineStep e s).2)) := by
  have hlen : content.length ≤ 4096 := by
    simp only [writeLine, List.length_append, List.length_cons] at hfits
    rw [CString.length]
    omega
  constructor
  · intro e he hcreates later hlater
    have hholds := (write_creates he hname hcontent hs.represents hcreates).run hlater
    exact
      { cat := fun hrun e' he' => cat_holds hrun he' hlen hholds
        again := fun hrun e' other hother he' => write_again hrun he' hname hother hholds }
  · intro e he hdeletes later hlater
    exact fun hrun e' he' => cat_lacks hrun he' ((rm_deletes he hs.represents hdeletes).run hlater)

/-! ### One file -/

/-- A line typed on a machine that works. -/
def typed (line : CString) : SectorLine where
  env := Env.faultless
  table := AtaTable.init
  around := Surroundings.idle
  line

def writeA : SectorLine := typed (CString.ofLiterals ["write A B"] (by decide))

def catA : SectorLine := typed (CString.ofLiterals ["cat A"] (by decide))

def rmA : SectorLine := typed (CString.ofLiterals ["rm A"] (by decide))

lemma writeA_line : writeA.line.bytes = writeLine (letter 0) (letter 1) := by decide

lemma catA_line : catA.line.bytes = catLine (letter 0) := by decide

lemma rmA_line : rmA.line.bytes = rmLine (letter 0) := by decide

/-- A session without a drive. -/
def ramSession : Session SectorDev where
  world := fsInit (sectorPlatform Env.faultless)
    { fs := FsState.selected none, dev := SectorDev.blank }
  running := true

lemma letter_writable : WritableName (letter 0) ∧ WritableContent (letter 1) :=
  ⟨⟨by decide, by decide, by simp [letter]⟩, ⟨by decide, by decide⟩⟩

theorem shell_files_letter :
    printed catA (lineStep writeA ramSession).2 = [.writemem [66], .writestring "\n"] ∧
      printed catA (lineStep rmA (lineStep writeA ramSession).2).2
        = coloured .lightRed (.formatted "File not found: %s\n" [.str [65]]) := by
  have hreadable : Readable none Env.faultless SectorDev.blank := fun h => absurd h (by simp)
  have hstart : Reachable ramSession := Reachable.init hreadable
  have hempty : Represents ramSession.world.fs ∅ := ram_represents _ _
  have hrun : ramSession.running = true := rfl
  generalize ramSession = s at hstart hempty hrun ⊢
  obtain ⟨hname, hcontent⟩ := letter_writable
  have hfits : (writeLine (letter 0) (letter 1)).length ≤ 255 := by decide
  obtain ⟨hcreates, hrun₁⟩ := write_fresh hrun writeA_line hname hcontent (by decide) hempty
    Finmap.notMem_empty (by simp)
  have hholds := write_creates writeA_line hname hcontent hstart.represents hcreates
  obtain ⟨hdeletes, hrun₂⟩ := rm_holds hrun₁ rmA_line hholds
  have hshows := (shell_files hstart hname hcontent hfits).1 writeA writeA_line hcreates [] trivial
  have hmisses := (shell_files (hstart.line writeA) hname hcontent hfits).2 rmA rmA_line hdeletes
    [] trivial
  exact ⟨hshows.cat hrun₁ catA catA_line, hmisses hrun₂ catA catA_line⟩

end SzymOS
