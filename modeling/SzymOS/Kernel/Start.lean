import SzymOS.Kernel.Console
import SzymOS.Kernel.DiskSelector
import SzymOS.Kernel.PortEvents

/-!
# The kernel, from the loader to the last character

`kernel_main` from its first line: what it is given by the loader, the start of the modules, the
dialogue, and the shell with every character that is typed.  All that comes from outside is in a
`Computer`.

A run is what the kernel does on all characters that come, so it has no end: it is given by the
characters that have come so far, and each further one makes it longer.  The first of them are for
the dialogue, all others for the shell, and where the one ends and the other begins is decided by
the dialogue itself.

What holds across every step holds across a run.  Steps have a price, so that one argument serves
for what a run says and for how long it waits: a price of zero for the first, a number of status
reads for the second.

* `memoryInit`, `keyboardInit` — the start of two modules.
* `Computer.run`, `Computer.calls` — the whole run, and what it says on the terminal.
* `Computer.Prompted` — the first prompt is there.
* `KernelRel` — what holds across every step of the kernel, at a price.
* `Computer.prompt_holds`, `Computer.typed_holds` — what a run up to the first prompt costs, and
  what the characters behind it cost.
* `Computer.run_holds` — what holds across every step holds across a run.
* `Computer.calls_sound` — every call to the terminal is one that can be made.

**The first prompt.** `prompt_holds` adds up the prices of what is done before it.  The dialogue is
an induction on the keys; it may go round as often as one likes, since only an accepted choice has a
price and there is one at most.  The number of keys that it reads is not known in advance, so a run
is split at the first prompt by what it has read: before the last key there was no prompt, and all
keys behind it are for the shell (`run_append`).

**The lines.** `typed_holds` is an induction on the characters that are typed at the shell.
`run_holds` puts both together.
-/

set_option autoImplicit false

namespace SzymOS

open Transition

/-! ## Before the drives

What is done before a drive is touched: a word of greeting, the test of the loader, the two modules
that are started. -/

/-- `struct multiboot_info`, as far as `memory.c` declares it. -/
structure MultibootInfo where
  flags : UInt32
  memLower : UInt32
  memUpper : UInt32

/-- `memory_init`, on the variable that it sets; `multiboot` is what lies at an address. -/
def memoryInit (multiboot : UInt32 → MultibootInfo) (addr : UInt32) (memInfo : MemoryInfo) :
    MemoryInfo :=
  if addr = 0 then { lower := 0, upper := 0, total := 0 }
  else
    let mbi := multiboot addr
    if mbi.flags &&& 0x01 ≠ 0 then
      { lower := mbi.memLower, upper := mbi.memUpper, total := mbi.memLower + mbi.memUpper }
    else memInfo

/-- `keyboard_init` on what the polls are answered: the scancodes that have come so far are
dropped.  `none` while there is always another one. -/
def keyboardInit : List (Option UInt8) → Option (Keyboard × List (Option UInt8))
  | [] => none
  | none :: answers => some (Keyboard.init, answers)
  | some _ :: answers => keyboardInit answers

/-- Up to the test of the magic number. -/
def greetingText : List TermCall :=
  printBootArt ++
    [.setcolor (vgaEntryColor .lightGreen .black),
      .formatted "SzymOS Kernel v%s (%s)\n" [.str (textBytes "0.1.3"), .str (textBytes "Initium")],
      .formatted "Copyright (c) %s\n\n" [.str (textBytes "2026")],
      .setcolor (vgaEntryColor .white .black)]

def multibootText (magic addr : UInt32) : List TermCall :=
  [.printf "Multiboot magic: 0x%x\n" [magic], .printf "Multiboot info at: 0x%x\n\n" [addr]]

/-- What is printed when `memory_init` and `keyboard_init` have returned. -/
def startedText : List TermCall :=
  [.setcolor (vgaEntryColor .yellow .black), .writestring "[OK] Terminal initialized\n",
    .writestring "[OK] Memory subsystem initialized\n",
    .writestring "[OK] Keyboard driver loaded\n", .writestring "[OK] I/O subsystem ready\n"]

/-! ## The whole run

A computer is given by what answers: its drives, its keyboard, and what is around while a character
is handled. -/

/-- What comes from outside: the two arguments of `kernel_main` and the memory that one of them
points to, the drives, the answers to the polls of the keyboard, the surroundings in which each
character of the shell is handled, and what `command_buffer` holds at first. -/
structure Computer where
  magic : UInt32
  addr : UInt32
  multiboot : UInt32 → MultibootInfo
  drive : PortDrive
  keyboard : List (Option UInt8)
  around : ℕ → Surroundings
  commandBuffer : ℕ → UInt8

namespace Computer

variable (c : Computer)

/-- `mem_info` is zero before `memory_init`. -/
def memInfo : MemoryInfo := memoryInit c.multiboot c.addr { lower := 0, upper := 0, total := 0 }

/-- The machine while the shell handles its character `i`. -/
def machine (i : ℕ) : Machine AtaDev := portMachine c.drive { c.around i with memInfo := c.memInfo }

/-- The shell after these characters. -/
def shell (chars : List UInt8) (w : AtaWorld) : Console AtaDev :=
  final consoleStep (chars.zipIdx.map fun e => (c.machine e.2, e.1))
    (consoleStart (c.machine 0) c.commandBuffer (kernelMainBoot (ataPlatform c.drive) w))

/-- From `ata_init` on, when `keyboard_getchar` returns these characters. -/
def run (chars : List UInt8) : AtaWorld :=
  match kernelMainSelect c.drive chars with
  | (none, w) => w
  | (some chars, w) => (c.shell chars w).session.world

/-- With these characters the dialogue is over, so that the first prompt is there. -/
def Prompted (chars : List UInt8) : Prop := (kernelMainSelect c.drive chars).1.isSome

/-- The calls to the terminal, those of `terminal_initialize` apart, which comes first. -/
def calls : List TermCall :=
  greetingText ++
    if c.magic ≠ 0x2BADB002 then kernelPanic "Invalid multiboot magic number!"
    else
      multibootText c.magic c.addr ++
        match keyboardInit c.keyboard with
        | none => []
        | some (keyboard, answers) =>
            startedText ++ (c.run (returned answers keyboard)).dev.port.log.filterMap fun
              | .term call => some call
              | _ => none

end Computer

/-- A computer with no drives; someone presses `n` at its shell. -/
def plainComputer : Computer where
  magic := 0x2BADB002
  addr := 0
  multiboot _ := { flags := 0, memLower := 0, memUpper := 0 }
  drive := PortDrive.absent
  keyboard := [none, some 0x1C, some 0x9C, some 0x31, some 0xB1]
  around _ := Surroundings.idle
  commandBuffer _ := 0

/-! ## What holds across a run

The price of the first prompt contains one detection, one selection, one start of the file system
and one file that may be created. -/

/-- Before `ata_init`. -/
def powerOn : AtaWorld where
  fs := FsState.powerOn
  dev := { table := AtaTable.init, port := PortDev.start }

/-- A relation between worlds with prices, that holds across everything the kernel does, as far as
messages are sound: to read a sector costs `r`, to write one `t`, to look for drives `p` and to
select one `q`. -/
structure KernelRel (drive : PortDrive) (r t p q : ℕ) (R : ℕ → AtaWorld → AtaWorld → Prop) :
    Prop where
  shell : ∀ around, PricedShellRel (portMachine drive around) r t R
  store : ∀ s w, R 0 w { w with fs := s }
  detect : ∀ w : AtaWorld, R p w { w with dev := ataDetectDrives drive w.dev }
  device : ∀ i (w : AtaWorld), R q w { w with dev := (ataSelectDevice drive i w.dev).2 }

/-- What is done up to the first prompt costs at most. -/
def promptPrice (r t p q : ℕ) : ℕ := p + q + (FsCall.init.price r t + 259 * t)

/-- What a line costs at most: it saves the file system once, or looks for drives once. -/
def linePrice (t p : ℕ) : ℕ := max (259 * t) p

lemma driveReport_sound (i : ℕ) (device : AtaDevice) : Sound (driveReport i device) := by
  have hchannel : IsLiteral (if device.ioBase = 0x1F0 then "Primary " else "Secondary ") := by
    split_ifs <;> exact isLiteral_ofList rfl
  have hposition : IsLiteral (if device.drive = 0 then "Master" else "Slave") := by
    split_ifs <;> exact isLiteral_ofList rfl
  have hkind : Sound (if device.isRemovable then coloured .lightGreen (.writestring " [REMOVABLE]")
      else coloured .lightRed (.writestring " [FIXED DISK - CAUTION!]")) := by
    split_ifs <;> exact sound_coloured.mpr (sound_writestring rfl)
  rw [driveReport, sound_append, sound_append]
  refine ⟨⟨?_, hkind⟩, sound_singleton.mpr (sound_writestring rfl)⟩
  simp only [sound_cons]
  exact ⟨trivial, sound_printf rfl rfl rfl rfl, trivial, hchannel, hposition,
    sound_writestring rfl, isText_strlen _, sound_printf rfl rfl rfl rfl, sound_nil⟩

lemma ataPrintDrives_sound (table : AtaTable) : Sound (ataPrintDrives table) := by
  rw [ataPrintDrives]
  split_ifs
  · simp only [sound_cons]
    exact ⟨trivial, sound_writestring rfl, sound_writestring rfl, trivial, sound_nil⟩
  · refine sound_append.mpr ⟨sound_coloured.mpr (sound_writestring rfl), ?_⟩
    intro call hcall
    obtain ⟨i, -, hreport⟩ := List.mem_flatMap.mp hcall
    exact driveReport_sound i _ call hreport

lemma enterNumberText_sound (driveCount : ℕ) : (enterNumberText driveCount).Sound :=
  sound_printf rfl rfl rfl rfl

lemma promptText_sound : Sound promptText := by
  simp only [promptText, sound_cons]
  exact ⟨trivial, sound_writestring rfl, trivial, sound_writestring rfl, trivial,
    sound_writestring rfl, trivial, sound_writestring rfl, sound_nil⟩

/-- What is echoed. -/
lemma putchars_sound (chars : List UInt8) : Sound (chars.map .putchar) := by
  intro call hcall
  obtain ⟨c, -, rfl⟩ := List.mem_map.mp hcall
  trivial

namespace KernelRel

variable {drive : PortDrive} {r t p q : ℕ} {R : ℕ → AtaWorld → AtaWorld → Prop}
  (h : KernelRel drive r t p q R)

include h

lemma priced : PricedRel (ataPlatform drive) r t R := (h.shell Surroundings.idle).toPricedRel

/-- Nothing is done. -/
lemma idle (n : ℕ) (w : AtaWorld) : R n w w := h.priced.mono (h.priced.refl w) (Nat.zero_le _)

/-- Messages are free. -/
lemma print {n : ℕ} {w w' : AtaWorld} (hw : R n w w') {calls : List TermCall}
    (hsound : Sound calls) : R n w (w'.print (ataPlatform drive) calls) :=
  h.priced.after hw (h.priced.print calls w' hsound)

/-! ### The dialogue

However long the dialogue is, it selects a drive once at most, and messages are free. -/

lemma select (driveNum : ℤ) (w : AtaWorld) : R q w (ataSelectDrive drive driveNum w).2 := by
  have hdevice := h.device driveNum w
  simp only [ataSelectDrive]
  split_ifs
  · exact h.idle q w
  · exact h.idle q w
  · exact h.print hdevice (sound_coloured.mpr (sound_writestring rfl))
  · refine h.print (h.priced.after hdevice (h.store _ _)) (sound_append.mpr ⟨?_, ?_⟩)
    · exact sound_singleton.mpr (sound_printf rfl rfl rfl rfl)
    · exact sound_coloured.mpr
        (sound_formatted rfl rfl (.cons (Or.inl rfl) (.cons ⟨rfl, isText_strlen _⟩ .nil)))

lemma selectDrive (selection : ℕ) (w : AtaWorld) : R q w (selectDrive drive selection w) := by
  have hselect := h.select selection w
  simp only [SzymOS.selectDrive]
  split_ifs
  · refine h.print ?_ ?_
    · exact h.print (h.priced.after hselect (h.store _ _))
        (sound_singleton.mpr (sound_printf rfl rfl rfl rfl))
    · simp only [selectedText, sound_cons]
      exact ⟨trivial, sound_writestring rfl, sound_writestring rfl, trivial,
        sound_writestring rfl, sound_writestring rfl, sound_nil⟩
  · exact h.print hselect (sound_coloured.mpr (sound_writestring rfl))

lemma enterSelector (keys : List UInt8) (w : AtaWorld) {loop : AtaWorld → Dialogue}
    (hloop : ∀ w, R q w (loop w).2) : R q w (enterSelector drive keys loop w).2 := by
  have hnone : Sound noDevicesText := by
    simp only [noDevicesText, sound_cons]
    exact ⟨trivial, sound_writestring rfl, sound_writestring rfl, sound_writestring rfl, trivial,
      sound_writestring rfl, sound_nil⟩
  have hsome : Sound (selectionText w.dev.table) := by
    simp only [selectionText, sound_append, sound_cons, sound_coloured]
    exact ⟨⟨ataPrintDrives_sound _, sound_writestring rfl⟩, sound_writestring rfl,
      enterNumberText_sound _, sound_nil⟩
  rw [SzymOS.enterSelector]
  split_ifs
  · cases keys with
    | nil => exact h.print (h.idle q w) hnone
    | cons key keys => exact h.print (h.idle q w) hnone
  · exact h.priced.before (h.print (h.idle 0 w) hsome) (hloop _)

/-- **The dialogue** selects at most once, and then it is over. -/
lemma selectionLoop :
    ∀ (keys : List UInt8) (w : AtaWorld), R q w (selectionLoop drive keys w).2
  | [], w => h.idle q w
  | c :: keys, w => by
      have hramOnly : Sound ramOnlyText := by
        simp only [ramOnlyText, sound_cons]
        exact ⟨sound_writestring rfl, trivial, sound_writestring rfl, sound_writestring rfl,
          trivial, sound_nil⟩
      have hfixed : Sound fixedDiskText := by
        simp only [fixedDiskText, sound_cons]
        exact ⟨trivial, sound_writestring rfl, sound_writestring rfl, trivial,
          sound_writestring rfl, sound_nil⟩
      have hecho : ∀ c, Sound [.putchar c, .writestring "\n\n"] := fun c =>
        sound_cons.mpr ⟨trivial, sound_singleton.mpr (sound_writestring rfl)⟩
      have hinvalid : Sound (invalidText w.dev.table.driveCount) :=
        sound_append.mpr ⟨sound_coloured.mpr (sound_writestring rfl),
          sound_singleton.mpr (enterNumberText_sound _)⟩
      have hchosen := h.print (h.idle 0 w) (hecho c)
      rw [SzymOS.selectionLoop]
      simp only
      split_ifs
      · exact h.print (h.idle q w) hramOnly
      · exact h.priced.before hchosen (h.selectDrive _ _)
      · cases keys with
        | nil => exact h.print (h.print (h.idle q w) (hecho c)) hfixed
        | cons confirm keys =>
            have hconfirmed := h.print (h.print hchosen hfixed) (hecho confirm)
            simp only
            split_ifs
            · refine h.priced.before (h.print hconfirmed ?_)
                (h.enterSelector keys _ (selectionLoop keys))
              exact sound_singleton.mpr (sound_writestring rfl)
            · exact h.priced.before hconfirmed (h.selectDrive _ _)
      · exact h.priced.before (h.print (h.idle 0 w) hinvalid) (selectionLoop keys _)
      · exact h.priced.before (h.idle 0 w) (selectionLoop keys w)

lemma kernelMainSelect (keys : List UInt8) :
    R (p + q) powerOn (kernelMainSelect drive keys).2 := by
  have hdetect : R p powerOn (kernelMainDetect drive) := by
    refine h.print (h.detect powerOn) ?_
    exact sound_cons.mpr ⟨sound_writestring rfl, sound_coloured.mpr (sound_writestring rfl)⟩
  have hdialogue := h.enterSelector keys (kernelMainDetect drive) (h.selectionLoop keys)
  exact h.priced.trans hdetect hdialogue

lemma kernelMainBoot (w : AtaWorld) :
    R (FsCall.init.price r t + 259 * t) w (kernelMainBoot (ataPlatform drive) w) := by
  have hinit : R (FsCall.init.price r t) w (fsInit (ataPlatform drive) w) := h.priced.init w
  rw [SzymOS.kernelMainBoot]
  split_ifs
  · exact h.print (h.priced.trans hinit (h.priced.create _ _ _))
      (sound_coloured.mpr (sound_writestring rfl))
  · exact h.priced.mono hinit (Nat.le_add_right _ _)

/-! ### The shell

A character that is echoed is free.  Enter costs what its line costs. -/

/-- **A command**, `disks` included. -/
lemma runCommand (around : Surroundings) (command : ShellCommand) (w : AtaWorld) :
    R (linePrice t p) w (runCommand (portMachine drive around) command w).2 := by
  by_cases hcommand : command = .disks
  · rw [hcommand]
    exact h.priced.mono (h.print (h.detect w) (ataPrintDrives_sound _)) (Nat.le_max_right _ _)
  · exact h.priced.mono ((h.shell around).command hcommand w) (Nat.le_max_left _ _)

lemma executed (around : Surroundings) (line : CString) (s : Console AtaDev) :
    R (linePrice t p) s.session.world
      (s.executed (portMachine drive around) line).world := by
  have hprinted := h.print (h.idle 0 s.session.world) (putchars_sound [10])
  rw [Console.executed, shellStep]
  split_ifs
  · exact h.priced.before hprinted (h.runCommand around (shellCommand line) _)
  · exact h.priced.mono hprinted (Nat.zero_le _)

/-- **One character**: only Enter costs something. -/
lemma consoleStep (around : Surroundings) (c : UInt8) (s : Console AtaDev) :
    R (if c = 10 then linePrice t p else 0) s.session.world
      (consoleStep (portMachine drive around, c) s).2.session.world := by
  rw [SzymOS.consoleStep]
  split_ifs
  · exact h.idle _ _
  · exact h.idle _ _
  · simp only [consoleEnter]
    split_ifs
    · exact h.print (h.executed around _ s) promptText_sound
    · exact h.executed around _ s
  · exact h.idle _ _
  · exact h.idle _ _
  · exact h.print (h.idle 0 _) (putchars_sound [8, 32, 8])
  · exact h.idle _ _
  · exact h.idle _ _
  · exact h.print (h.idle 0 _) (putchars_sound [c])
  · exact h.idle _ _

end KernelRel

namespace Computer

variable {c : Computer} {r t p q : ℕ} {R : ℕ → AtaWorld → AtaWorld → Prop}
  (h : KernelRel c.drive r t p q R)

include h

/-- Any characters, on any machines of this computer. -/
lemma console_holds (inputs : List (UInt8 × ℕ)) (s : Console AtaDev) :
    R (linePrice t p * (inputs.map Prod.fst).count 10) s.session.world
      (final consoleStep (inputs.map fun e => (c.machine e.2, e.1)) s).session.world := by
  induction inputs generalizing s with
  | nil => exact h.idle _ _
  | cons e inputs ih =>
      have hfirst := h.consoleStep { c.around e.2 with memInfo := c.memInfo } e.1 s
      refine h.priced.mono (h.priced.trans hfirst (ih _)) ?_
      rw [List.map_cons, List.count_cons, Nat.mul_add, Nat.add_comm]
      refine Nat.add_le_add_left (le_of_eq ?_) _
      by_cases henter : e.1 = 10 <;> simp [henter]

omit h in
/-- The dialogue waits for a key. -/
lemma not_prompted_nil : ¬ c.Prompted [] := by
  intro hprompted
  obtain ⟨rest, hrest⟩ := Option.isSome_iff_exists.mp hprompted
  obtain ⟨read, hne, hnil, -⟩ := kernelMainSelect_leaves (Prod.ext hrest rfl)
  exact hne (List.append_eq_nil_iff.mp hnil.symm).1

/-- **Up to the first prompt**: the dialogue, `fs_init` and the file `README.txt`. -/
theorem prompt_holds {chars : List UInt8} (hearlier : ¬ c.Prompted chars.dropLast) :
    R (promptPrice r t p q) powerOn (c.run chars) := by
  have hselect := h.kernelMainSelect chars
  rw [run]
  split
  next w hw =>
    rw [hw] at hselect
    exact h.priced.mono hselect (Nat.le_add_right _ _)
  next rest w hw =>
    rw [hw] at hselect
    obtain ⟨read, hne, hchars, hread⟩ := kernelMainSelect_leaves hw
    have hrest : rest = [] := by
      by_contra hrest
      refine hearlier ?_
      rw [Prompted, hchars, List.dropLast_append_of_ne_nil hrest, hread]
      rfl
    have hinit : Sound shellInitText :=
      sound_append.mpr ⟨sound_coloured.mpr (sound_writestring rfl),
        sound_singleton.mpr (sound_writestring rfl)⟩
    have hboot := h.print (h.kernelMainBoot w) (sound_append.mpr ⟨hinit, promptText_sound⟩)
    rw [hrest]
    exact h.priced.trans hselect hboot

omit h in
/-- Behind the first prompt all characters go to the shell. -/
lemma run_append {chars : List UInt8} (hprompted : c.Prompted chars) (typed : List UInt8) :
    ∃ (s : Console AtaDev) (inputs : List (UInt8 × ℕ)),
      c.run chars = s.session.world ∧ inputs.map Prod.fst = typed ∧
        c.run (chars ++ typed)
          = (final consoleStep (inputs.map fun e => (c.machine e.2, e.1)) s).session.world := by
  obtain ⟨rest, hrest⟩ := Option.isSome_iff_exists.mp hprompted
  obtain ⟨w, hselect⟩ : ∃ w, kernelMainSelect c.drive chars = (some rest, w) :=
    ⟨_, Prod.ext hrest rfl⟩
  obtain ⟨read, -, rfl, hread⟩ := kernelMainSelect_leaves hselect
  refine ⟨c.shell rest w, typed.zipIdx rest.length, ?_, List.zipIdx_map_fst _ _, ?_⟩
  · rw [run, hread]
  · rw [run, List.append_assoc, hread]
    simp only
    rw [shell, shell, List.zipIdx_append, List.map_append, final_append, Nat.zero_add]

/-- **Behind the first prompt** only the lines cost something. -/
theorem typed_holds {chars : List UInt8} (hprompted : c.Prompted chars) (typed : List UInt8) :
    R (linePrice t p * typed.count 10) (c.run chars) (c.run (chars ++ typed)) := by
  obtain ⟨s, inputs, hrun, rfl, htyped⟩ := run_append hprompted typed
  rw [hrun, htyped]
  exact console_holds h inputs s

/-- **What holds across every step holds across a run**, at its price. -/
theorem run_holds (chars : List UInt8) :
    R (promptPrice r t p q + linePrice t p * chars.count 10) powerOn (c.run chars) := by
  induction chars using List.reverseRecOn with
  | nil =>
      exact h.priced.mono (prompt_holds h not_prompted_nil) (Nat.le_add_right _ _)
  | append_singleton chars char ih =>
      by_cases hprompted : c.Prompted chars
      · refine h.priced.mono (h.priced.trans ih (typed_holds h hprompted [char])) ?_
        rw [List.count_append, Nat.mul_add, Nat.add_assoc]
      · refine h.priced.mono (prompt_holds h ?_) (Nat.le_add_right _ _)
        rwa [List.dropLast_concat]

end Computer

/-! ## Every call can be made

Soundness is a property of events, so it is proved of the drivers by `Admits` and of everything
above them by `KernelRel`. -/

/-- What an event says is sound. -/
def PortEvent.Sound : PortEvent → Prop
  | .term call => call.Sound
  | _ => True

/-- Drivers say little. -/
lemma admits_sound (io : UInt16) : Admits PortEvent.Sound io where
  wait _ _ := trivial
  inw _ := trivial
  outw _ := trivial
  outb _ _ _ := trivial

/-- All that has been said in between is sound. -/
abbrev Speaks : PortDev → PortDev → Prop := Adds PortEvent.Sound

/-- A message of the driver of `filesystem.c`. -/
lemma driver_sound {text : String} (h : driverMessage (.writestring text) = true) :
    PortEvent.Sound (.term (.writestring text)) := by
  rcases Bool.or_eq_true_iff.mp h with h | h <;>
    · rw [beq_iff_eq.mp h]
      exact isLiteral_ofList rfl

/-- **Everything the kernel does** says what is sound. -/
lemma kernelRel_speaks (drive : PortDrive) :
    KernelRel drive 0 0 0 0 fun _ w w' => Speaks w.dev.port w'.dev.port where
  shell around :=
    { refl := fun w => Adds.refl w.dev.port
      trans := fun h h' => h.trans h'
      mono := fun h _ => h
      print := fun calls w hsound => (Adds.refl w.dev.port).print hsound
      read := by
        intro lba w
        rw [fsReadSectorDirect]
        split_ifs
        · exact Adds.refl _
        · exact portReadSector_adds (admits_sound _) drive _ lba w.dev.port
      write := by
        intro lba buffer w _ _
        rw [fsWriteSectorDirect]
        split_ifs
        · exact Adds.refl _
        · exact portWriteSector_adds (admits_sound _) drive (fun _ => driver_sound) _ lba buffer
            w.dev.port
      store := fun s w _ => Adds.refl w.dev.port
      outb := fun port value w _ => (Adds.refl w.dev.port).one trivial }
  store s w := Adds.refl w.dev.port
  detect w := ataDetectDrives_adds drive (fun p _ => admits_sound p.1) w.dev
  device i w := ataSelectDevice_adds drive i w.dev (admits_sound _)

namespace Computer

variable (c : Computer)

/-- **Every call can be made**: whatever the loader, the drives and the user do, no format of the
kernel is given an argument too few, or one of another kind, and none ends in a lone `%`. -/
theorem calls_sound : Sound c.calls := by
  have hgreeting : Sound greetingText := by
    simp only [greetingText, sound_append, sound_cons]
    refine ⟨printBootArt_sound, trivial, ?_, ?_, trivial, sound_nil⟩
    · exact sound_formatted rfl rfl (.cons ⟨rfl, (isLiteral_ofList rfl).isText⟩
        (.cons ⟨rfl, (isLiteral_ofList rfl).isText⟩ .nil))
    · exact sound_formatted rfl rfl (.cons ⟨rfl, (isLiteral_ofList rfl).isText⟩ .nil)
  have hstarted : Sound startedText := by
    simp only [startedText, sound_cons]
    exact ⟨trivial, sound_writestring rfl, sound_writestring rfl, sound_writestring rfl,
      sound_writestring rfl, sound_nil⟩
  rw [calls]
  refine sound_append.mpr ⟨hgreeting, ?_⟩
  split_ifs
  · exact kernelPanic_sound (isLiteral_ofList rfl)
  refine sound_append.mpr ⟨?_, ?_⟩
  · exact sound_cons.mpr ⟨sound_printf rfl rfl rfl rfl,
      sound_singleton.mpr (sound_printf rfl rfl rfl rfl)⟩
  split
  · exact sound_nil
  next keyboard answers _ =>
    refine sound_append.mpr ⟨hstarted, ?_⟩
    obtain ⟨events, hlog, hsound⟩ :=
      run_holds (kernelRel_speaks c.drive) (returned answers keyboard)
    intro call hcall
    rw [hlog] at hcall
    obtain ⟨e, he, hcall⟩ := List.mem_filterMap.mp hcall
    cases e with
    | term said =>
        rw [← Option.some.inj hcall]
        exact hsound _ he
    | _ => exact absurd hcall (by simp)

end Computer

end SzymOS
