import SzymOS.Kernel.Boot
import SzymOS.Kernel.Shell
import SzymOS.Lib.Run

/-!
# `disk_selector.c`, and the kernel up to the shell

The dialogue in which the user chooses a drive, on the keys `keyboard_getchar` returns one after
the other.  It is the only place where a drive is selected: `kernel_main` runs it once, after the
detection of the drives and before `fs_init`.

A list of keys is what has been typed so far.  A function that needs one more key returns `none`.

A key that is neither a digit nor the letter N is passed over.  After a digit without a drive the
prompt is repeated, and after a warning that is not answered with yes the whole function begins
anew.  There is no limit to how often, so a run of the dialogue is as long as the user makes it.
-/

set_option autoImplicit false

namespace SzymOS

open Transition

variable (drive : PortDrive)

/-! ## disk_selector_run

The texts are those of the source, call by call.  A function that begins anew lists the drives
again. -/

/-- What the dialogue returns: the keys still to come, or `none` when a key is waited for. -/
abbrev Dialogue := Option (List UInt8) × AtaWorld

def noDevicesText : List TermCall :=
  [.setcolor (vgaEntryColor .yellow .black), .writestring "\nNo storage devices detected.\n",
    .writestring "Running in RAM-only mode.\n",
    .writestring "Files will NOT persist after reboot!\n\n",
    .setcolor (vgaEntryColor .white .black), .writestring "Press any key to continue...\n"]

def enterNumberText (driveCount : ℕ) : TermCall :=
  .printf "Enter drive number (0-%d), or 'n' for RAM-only: " [UInt32.ofNat (driveCount - 1)]

def selectionText (table : AtaTable) : List TermCall :=
  ataPrintDrives table ++ coloured .lightCyan (.writestring "=== Disk Selection ===\n\n") ++
    [.writestring "Select a drive for persistent storage:\n", enterNumberText table.driveCount]

def ramOnlyText : List TermCall :=
  [.writestring "n\n\n", .setcolor (vgaEntryColor .yellow .black),
    .writestring "RAM-only mode selected.\n",
    .writestring "Files will NOT persist after reboot!\n\n",
    .setcolor (vgaEntryColor .white .black)]

def fixedDiskText : List TermCall :=
  [.setcolor (vgaEntryColor .lightRed .black), .writestring "WARNING: This is a FIXED DISK!\n",
    .writestring "Writing to this disk could damage your system!\n",
    .setcolor (vgaEntryColor .white .black), .writestring "\nAre you SURE? (y/n): "]

def selectedText : List TermCall :=
  [.setcolor (vgaEntryColor .lightGreen .black),
    .writestring "Drive selected successfully!\n",
    .writestring "Filesystem will be persistent.\n\n", .setcolor (vgaEntryColor .white .black),
    .writestring "Testing disk access...\n", .writestring "\n"]

def invalidText (driveCount : ℕ) : List TermCall :=
  coloured .lightRed (.writestring "\nInvalid selection!\n") ++ [enterNumberText driveCount]

/-- The end of the dialogue: `ata_select_drive`, and what follows its result. -/
def selectDrive (selection : ℕ) (w : AtaWorld) : AtaWorld :=
  let (result, w) := ataSelectDrive drive selection w
  if result = 0 then
    -- the index is in range, so `ata_get_drive` does not return a null pointer
    let device := w.dev.table.drives selection
    (fsSetDriveInfo (ataPlatform drive) device.ioBase device.drive w).print (ataPlatform drive)
      selectedText
  else w.print (ataPlatform drive) (coloured .lightRed (.writestring "Error selecting drive!\n\n"))

/-- `disk_selector_run` up to its loop, which is given. -/
def enterSelector (keys : List UInt8) (loop : AtaWorld → Dialogue) (w : AtaWorld) : Dialogue :=
  if w.dev.table.driveCount = 0 then
    let w := w.print (ataPlatform drive) noDevicesText
    match keys with
    | [] => (none, w)
    | _ :: keys => (some keys, w)
  else loop (w.print (ataPlatform drive) (selectionText w.dev.table))

/-- The loop of `disk_selector_run`. -/
def selectionLoop : List UInt8 → AtaWorld → Dialogue
  | [], w => (none, w)
  | c :: keys, w =>
      let driveCount := w.dev.table.driveCount
      if c = 110 ∨ c = 78 then (some keys, w.print (ataPlatform drive) ramOnlyText)
      else if 48 ≤ c ∧ c ≤ 57 then
        let selection := c.toNat - 48
        if selection < driveCount then
          let w := w.print (ataPlatform drive) [.putchar c, .writestring "\n\n"]
          if (w.dev.table.drives selection).isRemovable then
            (some keys, selectDrive drive selection w)
          else
            let w := w.print (ataPlatform drive) fixedDiskText
            match keys with
            | [] => (none, w)
            | confirm :: keys =>
                let w := w.print (ataPlatform drive) [.putchar confirm, .writestring "\n\n"]
                if confirm ≠ 121 ∧ confirm ≠ 89 then
                  let w := w.print (ataPlatform drive) [.writestring "Selection cancelled.\n"]
                  enterSelector drive keys (selectionLoop keys) w
                else (some keys, selectDrive drive selection w)
        else selectionLoop keys (w.print (ataPlatform drive) (invalidText driveCount))
      else selectionLoop keys w

def diskSelectorRun (keys : List UInt8) (w : AtaWorld) : Dialogue :=
  enterSelector drive keys (selectionLoop drive keys) w

/-! ### Where the dialogue ends

The dialogue asks `keyboard_getchar` for one key after the other.  So a dialogue that has come to
its end has read the first of the keys and nothing behind them: all that follows is for the shell.
-/

/-- With these keys the dialogue ends in `w` and leaves `rest`: it has read those before, and does
the same whatever follows them. -/
def Leaves (dialogue : List UInt8 → Dialogue) (keys rest : List UInt8) (w : AtaWorld) : Prop :=
  ∃ read, read ≠ [] ∧ keys = read ++ rest ∧ ∀ more, dialogue (read ++ more) = (some more, w)

/-- One key is enough. -/
lemma leaves_of_key {dialogue : List UInt8 → Dialogue} {c : UInt8} {keys : List UInt8}
    {w : AtaWorld} (h : ∀ more, dialogue (c :: more) = (some more, w)) :
    Leaves dialogue (c :: keys) keys w :=
  ⟨[c], List.cons_ne_nil c [], rfl, h⟩

/-- One key, and then another dialogue. -/
lemma Leaves.after {dialogue next : List UInt8 → Dialogue} {keys rest : List UInt8}
    {w : AtaWorld} {c : UInt8} (h : Leaves next keys rest w)
    (hnext : ∀ more, dialogue (c :: more) = next more) : Leaves dialogue (c :: keys) rest w := by
  obtain ⟨read, -, rfl, hread⟩ := h
  refine ⟨c :: read, List.cons_ne_nil c read, rfl, fun more => ?_⟩
  rw [List.cons_append, hnext, hread]

variable {drive}

lemma enterSelector_leaves (loop : List UInt8 → AtaWorld → Dialogue) {keys rest : List UInt8}
    {w' : AtaWorld}
    (hloop : ∀ w, loop keys w = (some rest, w') → Leaves (loop · w) keys rest w') (w : AtaWorld)
    (h : enterSelector drive keys (loop keys) w = (some rest, w')) :
    Leaves (fun keys => enterSelector drive keys (loop keys) w) keys rest w' := by
  rw [enterSelector] at h
  by_cases hcount : w.dev.table.driveCount = 0
  · rw [if_pos hcount] at h
    cases keys with
    | nil => cases h
    | cons key keys =>
        cases h
        exact leaves_of_key fun more => by rw [enterSelector, if_pos hcount]
  · rw [if_neg hcount] at h
    obtain ⟨read, hne, hkeys, hread⟩ := hloop _ h
    refine ⟨read, hne, hkeys, fun more => ?_⟩
    simp only [enterSelector, if_neg hcount]
    exact hread more

/-- By recursion along the loop: a key that settles nothing is read, and the loop goes on. -/
lemma selectionLoop_leaves :
    ∀ (keys : List UInt8) {rest : List UInt8} (w : AtaWorld) {w' : AtaWorld},
      selectionLoop drive keys w = (some rest, w') →
        Leaves (selectionLoop drive · w) keys rest w'
  | [], rest, w, w', h => by cases h
  | c :: keys, rest, w, w', h => by
      rw [selectionLoop] at h
      simp only at h
      split_ifs at h with hram hdigit hdrive hremovable
      · cases h
        exact leaves_of_key fun more => by rw [selectionLoop, if_pos hram]
      · cases h
        refine leaves_of_key fun more => ?_
        rw [selectionLoop, if_neg hram, if_pos hdigit]
        simp only [if_pos hdrive, if_pos hremovable]
      · cases keys with
        | nil => cases h
        | cons confirm keys =>
            simp only at h
            split_ifs at h with hcancelled
            · obtain ⟨read, -, rfl, hread⟩ := enterSelector_leaves (selectionLoop drive)
                (fun w => selectionLoop_leaves keys w) _ h
              refine ⟨c :: confirm :: read, List.cons_ne_nil _ _, rfl, fun more => ?_⟩
              change selectionLoop drive (c :: confirm :: (read ++ more)) w = _
              rw [selectionLoop, if_neg hram, if_pos hdigit]
              simp only [if_pos hdrive, if_neg hremovable, if_pos hcancelled]
              exact hread more
            · cases h
              refine ⟨[c, confirm], List.cons_ne_nil _ _, rfl, fun more => ?_⟩
              change selectionLoop drive (c :: confirm :: more) w = _
              rw [selectionLoop, if_neg hram, if_pos hdigit]
              simp only [if_pos hdrive, if_neg hremovable, if_neg hcancelled]
      · refine (selectionLoop_leaves keys _ h).after fun more => ?_
        rw [selectionLoop, if_neg hram, if_pos hdigit]
        simp only [if_neg hdrive]
      · refine (selectionLoop_leaves keys _ h).after fun more => ?_
        rw [selectionLoop, if_neg hram, if_neg hdigit]

variable (drive)

/-! ## kernel_main

`kernel_main` in three parts: up to the detection, through the dialogue, and from `fs_init` into the
shell. -/

/-- Before `ata_init`. -/
def PortDev.start : PortDev where
  polled := 0
  fetched := 0
  log := []

/-- `ata_init` and `ata_detect_drives`, and what is printed after them. -/
def kernelMainDetect : AtaWorld :=
  let w : AtaWorld :=
    { fs := FsState.powerOn
      dev := ataDetectDrives drive { table := AtaTable.init, port := PortDev.start } }
  w.print (ataPlatform drive) (.writestring "[OK] ATA driver initialized\n" ::
    coloured .lightGreen (.writestring "\nSzymOS kernel loaded successfully!\n"))

/-- The machine when `disk_selector_run` has returned, or waits for a key. -/
def kernelMainSelect (keys : List UInt8) : Dialogue :=
  diskSelectorRun drive keys (kernelMainDetect drive)

variable {drive} in
/-- **The keys behind the dialogue** are left as they are. -/
lemma kernelMainSelect_leaves {keys rest : List UInt8} {w : AtaWorld}
    (h : kernelMainSelect drive keys = (some rest, w)) :
    Leaves (kernelMainSelect drive) keys rest w :=
  enterSelector_leaves (selectionLoop drive) (fun w => selectionLoop_leaves keys w) _ h

/-- The shell on the ports. -/
def portMachine (around : Surroundings) : Machine AtaDev where
  toPlatform := ataPlatform drive
  toSurroundings := around
  outb port value d := { d with port := d.port.emit [.outb port value] }
  detectDrives d :=
    let d := ataDetectDrives drive d
    (d.table, d)

/-- A command line, with what the surroundings of its command are. -/
abbrev PortLine := Surroundings × CString

def portStep (e : PortLine) (s : Session AtaDev) : Unit × Session AtaDev :=
  shellStep (portMachine drive e.1, e.2) s

/-- The shell when `shell_run` begins, if the dialogue has come to its end. -/
def kernelMainShell (w : AtaWorld) : Session AtaDev where
  world := (kernelMainBoot (ataPlatform drive) w).print (ataPlatform drive) shellInitText
  running := true

/-- What holds across every elementary step holds across what is done between the dialogue and the
shell. -/
lemma StepRel.kernelMainShell {R : AtaWorld → AtaWorld → Prop} (h : StepRel (ataPlatform drive) R)
    (w : AtaWorld) : R w (kernelMainShell drive w).world := by
  have hboot : R w (kernelMainBoot (ataPlatform drive) w) := by
    rw [kernelMainBoot]
    split_ifs
    · exact h.trans (h.init w) (h.trans (h.create _ _ _) (h.print _ _))
    · exact h.init w
  exact h.trans hboot (h.print _ _)

/-- The machine after these keys in the dialogue and these command lines in the shell. -/
def kernelMain (keys : List UInt8) (lines : List PortLine) : AtaWorld :=
  match kernelMainSelect drive keys with
  | (none, w) => w
  | (some _, w) => (final (portStep drive) lines (kernelMainShell drive w)).world

end SzymOS
