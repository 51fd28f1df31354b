import SzymOS.Kernel.Detection
import SzymOS.Kernel.DiskSelector

/-!
# Which sectors the kernel writes

Every WRITE command the kernel gives, from `ata_init` on and over any session of the shell, goes to
the drive the user has approved in the dialogue, and to one sector of the file system.  What a
command asks of a drive is read off the registers of its channel, as the last `outb` to each of
them left it.

A WRITE command is an event on the command register of a channel.  What it means is not in the
event: the drive, the address and the number of sectors stand in the other registers, and may have
been written long before.  So the registers are followed over the whole log, and a command is judged
by what they hold at that moment.

The run has two parts.  In the dialogue nothing is written, and a drive is selected only after its
digit and, for a fixed disk, a yes.  In the shell the selection does not change any more, and every
write is one of a sector of the file system, because every sector number in `filesystem.c` is.

* `WritesTo` — every WRITE command among some events is one for the drive selected in an `FsState`.
* `writesTo_step` — that is all a command line can do.
* `writes_confined` — the whole run, from the keys of the dialogue to the last command line.

**Below the shell.** `PortStep` says of a part of the log that it is harmless while a given drive is
selected, and it composes.  `portWriteSector_step` is the only place where a WRITE command is met;
it uses that the registers written before it are the last ones (`select_oneSector`) and that the
sector number has 28 bits.

**Above it.** `WorldStep` adds that the selection is kept, and is a `ShellRel`, so it holds across
every command line by the theorem on these.  For the dialogue there is an invariant of the loop
(`Chosen`): what is selected, if anything, is the drive of the last accepted choice among the keys
that have been read.  It is kept by each branch of the loop, and the branches that ask again begin
with a longer list of keys (`Chosen.mono`).

The two meet in `kernelMain_step`.
-/

set_option autoImplicit false

namespace SzymOS

open Transition

/-! ## Registers

The registers begin as zero, which no statement uses: the command of one sector writes all that it
needs. -/

abbrev Registers := UInt16 → UInt8

/-- What an event leaves in the registers. -/
def setRegister : PortEvent → Registers → Unit × Registers
  | .outb port value, regs => ((), Function.update regs port value)
  | _, regs => ((), regs)

/-- What some events leave in registers that were zero. -/
def registersAfter (events : List PortEvent) : Registers := final setRegister events fun _ => 0

/-- A WRITE command, on either channel. -/
def PortEvent.IsWrite : PortEvent → Bool
  | .outb port value => (port == 0x1F7 || port == 0x177) && value == 0x30
  | _ => false

/-- The sector that the registers of a channel address, in 28 bits. -/
def addressed (regs : Registers) (io : UInt16) : ℕ :=
  (regs (io + 3)).toNat + 2 ^ 8 * (regs (io + 4)).toNat + 2 ^ 16 * (regs (io + 5)).toNat +
    2 ^ 24 * ((regs (io + 6)).toNat % 16)

/-- The registers of a channel ask for one sector of the file system on this drive. -/
structure OneSector (regs : Registers) (io : UInt16) (driveNum : UInt8) : Prop where
  count : regs (io + 2) = 1
  drive : regs (io + 6) &&& (0xF0 : UInt8) = (0xE0 : UInt8) ||| (driveNum <<< (4 : UInt8))
  lba : fsStartSector ≤ addressed regs io ∧
    addressed regs io < fsStartSector + headerSectors + dataSectors

/-- A WRITE command for a sector of the file system on the drive that is selected. -/
structure Target (s : FsState) (e : PortEvent) (regs : Registers) : Prop where
  selected : s.fsDriveSelected = true
  port : e = .outb (s.fsDriveIoBase + 7) 0x30
  sector : OneSector regs s.fsDriveIoBase s.fsDriveNum

/-- Every WRITE command among these events is one. -/
def WritesTo (s : FsState) (events : List PortEvent) : Prop :=
  ∀ regs, Along setRegister (fun e regs => e.IsWrite = true → Target s e regs) events regs

section WritesTo

variable {s : FsState} {events events' : List PortEvent}

lemma WritesTo.append (h : WritesTo s events) (h' : WritesTo s events') :
    WritesTo s (events ++ events') := fun regs => along_append.mpr ⟨h regs, h' _⟩

lemma writesTo_of_quiet (h : ∀ e ∈ events, e.IsWrite = false) : WritesTo s events :=
  fun _ => along_of_forall fun e he _ hw => absurd hw (by simp [h e he])

/-- Only the selected drive counts. -/
lemma DriveKept.writesTo {s' : FsState} (hkept : DriveKept s s') (h : WritesTo s' events) :
    WritesTo s events := by
  have htarget : Target s' = Target s := by
    funext e regs
    refine propext ⟨fun ht => ⟨?_, ?_, ?_⟩, fun ht => ⟨?_, ?_, ?_⟩⟩
    · exact hkept.selected ▸ ht.selected
    · exact hkept.ioBase ▸ ht.port
    · exact hkept.ioBase ▸ hkept.driveNum ▸ ht.sector
    · exact hkept.selected ▸ ht.selected
    · exact hkept.ioBase ▸ ht.port
    · exact hkept.ioBase ▸ hkept.driveNum ▸ ht.sector
  rwa [WritesTo, htarget] at h

end WritesTo

/-! ## The command of one sector

The five registers are written one after the other, and the command right behind them, so nothing
can change what it asks for. -/

section Command

variable {io : UInt16} {driveNum : UInt8} {lba : ℕ}

/-- The registers other than the command register, whatever is stored in them. -/
lemma select_quiet (hpos : (io, driveNum) ∈ positions) :
    ∀ e ∈ selectEvents io driveNum lba, e.IsWrite = false := by
  simp only [positions, List.mem_cons, Prod.mk.injEq, List.not_mem_nil, or_false] at hpos
  rcases hpos with ⟨rfl, -⟩ | ⟨rfl, -⟩ | ⟨rfl, -⟩ | ⟨rfl, -⟩
  all_goals
    intro e he
    simp only [selectEvents, List.mem_cons, List.not_mem_nil, or_false] at he
    rcases he with rfl | rfl | rfl | rfl | rfl <;> rfl

/-- Nor is the selection of a drive a WRITE command. -/
lemma deviceEvent_quiet (hpos : (io, driveNum) ∈ positions) :
    ∀ e ∈ [deviceEvent io driveNum], e.IsWrite = false := by
  simp only [positions, List.mem_cons, Prod.mk.injEq, List.not_mem_nil, or_false] at hpos
  rcases hpos with ⟨rfl, -⟩ | ⟨rfl, -⟩ | ⟨rfl, -⟩ | ⟨rfl, -⟩
  all_goals
    intro e he
    rw [List.mem_singleton.mp he]
    rfl

/-- What they ask for when the select events are the last. -/
lemma select_oneSector (hpos : (io, driveNum) ∈ positions) (hstart : fsStartSector ≤ lba)
    (hend : lba < fsStartSector + headerSectors + dataSectors) (regs : Registers) :
    OneSector (final setRegister (selectEvents io driveNum lba) regs) io driveNum := by
  simp only [fsStartSector, headerSectors, dataSectors] at hstart hend
  have hlow : (UInt8.ofNat lba).toNat = lba % 256 := UInt8.toNat_ofNat'
  have hmid : (UInt8.ofNat (lba >>> 8)).toNat = lba / 256 % 256 := by
    rw [UInt8.toNat_ofNat', Nat.shiftRight_eq_div_pow]
  have hhigh : (UInt8.ofNat (lba >>> 16)).toNat = 0 := by
    rw [UInt8.toNat_ofNat', Nat.shiftRight_eq_div_pow]
    omega
  have htop : lba >>> 24 = 0 := by
    rw [Nat.shiftRight_eq_div_pow]
    omega
  simp only [positions, List.mem_cons, Prod.mk.injEq, List.not_mem_nil, or_false] at hpos
  rcases hpos with ⟨rfl, rfl⟩ | ⟨rfl, rfl⟩ | ⟨rfl, rfl⟩ | ⟨rfl, rfl⟩
  all_goals
    refine ⟨?_, ?_, ?_⟩
    · simp [selectEvents, setRegister, Function.update]
    · simp [selectEvents, setRegister, Function.update, htop]
      decide
    · simp [addressed, selectEvents, setRegister, Function.update, htop, hlow, hmid, hhigh]
      omega

end Command

/-! ## Steps of the ports

A step is judged with the selection of that moment.  Steps that give no WRITE command are steps
whatever is selected. -/

/-- What has been added to the log writes to the selected drive at most. -/
def PortStep (s : FsState) (d d' : PortDev) : Prop :=
  ∃ events, d'.log = d.log ++ events ∧ WritesTo s events

section PortStep

variable {s : FsState} {d d' d'' : PortDev}

lemma PortStep.refl (s : FsState) (d : PortDev) : PortStep s d d :=
  ⟨[], (List.append_nil _).symm, fun _ => trivial⟩

lemma PortStep.trans (h : PortStep s d d') (h' : PortStep s d' d'') : PortStep s d d'' := by
  obtain ⟨events, hlog, hwrites⟩ := h
  obtain ⟨events', hlog', hwrites'⟩ := h'
  exact ⟨events ++ events', by rw [hlog', hlog, List.append_assoc], hwrites.append hwrites'⟩

/-- Events that are no WRITE command. -/
lemma PortStep.quiet (h : PortStep s d d') {events : List PortEvent}
    (hlog : d''.log = d'.log ++ events) (hquiet : ∀ e ∈ events, e.IsWrite = false) :
    PortStep s d d'' := h.trans ⟨events, hlog, writesTo_of_quiet hquiet⟩

lemma PortStep.reading (h : PortStep s d d') (drive : PortDrive) (io : UInt16) (n : ℕ) :
    PortStep s d (readStatuses drive io n d') := h.quiet rfl (by simp [PortEvent.IsWrite])

lemma PortStep.waiting (h : PortStep s d d') (drive : PortDrive) (waiting : UInt8 → Bool)
    (port : UInt16) : PortStep s d (waitWhile drive waiting port d').2 :=
  h.quiet rfl (by simp [PortEvent.IsWrite])

lemma PortStep.emit (h : PortStep s d d') {events : List PortEvent}
    (hquiet : ∀ e ∈ events, e.IsWrite = false) : PortStep s d (d'.emit events) := h.quiet rfl hquiet

variable (drive : PortDrive) {io : UInt16} {driveNum : UInt8} (lba : ℕ)

/-- Reading a sector gives no WRITE command. -/
lemma portReadSector_step (hpos : (io, driveNum) ∈ positions) (s : FsState) (d : PortDev) :
    PortStep s d (portReadSector drive io driveNum lba d).2 := by
  have hbusy := (PortStep.refl s d).waiting drive busy (io + 7)
  have hcommand : ∀ e ∈ commandEvents io driveNum lba 0x20, e.IsWrite = false := by
    intro e he
    rcases List.mem_append.mp he with he | he
    · exact select_quiet hpos e he
    · rw [List.mem_singleton.mp he, PortEvent.IsWrite]
      simp
  have hrequest := (hbusy.emit hcommand).waiting drive noRequest (io + 7)
  simp only [portReadSector]
  split_ifs
  · exact hbusy
  · exact hrequest
  · exact hrequest.quiet rfl fun e he => by rw [List.eq_of_mem_replicate he]; rfl

/-- Writing a sector gives one, for that sector. -/
lemma portWriteSector_step {s : FsState} (hsel : s.fsDriveSelected = true)
    (hpos : (s.fsDriveIoBase, s.fsDriveNum) ∈ positions) (hstart : fsStartSector ≤ lba)
    (hend : lba < fsStartSector + headerSectors + dataSectors) (buffer : Sector) (d : PortDev) :
    PortStep s d (portWriteSector drive s.fsDriveIoBase s.fsDriveNum lba buffer d).2 := by
  have hterm : ∀ text, ∀ e ∈ [PortEvent.term (.writestring text)], e.IsWrite = false := by
    simp [PortEvent.IsWrite]
  have hbusy := (PortStep.refl s d).waiting drive busy (s.fsDriveIoBase + 7)
  have hcommand : WritesTo s (commandEvents s.fsDriveIoBase s.fsDriveNum lba 0x30) := by
    intro regs
    refine along_append.mpr ⟨writesTo_of_quiet (select_quiet hpos) regs, ?_, trivial⟩
    intro _
    exact ⟨hsel, rfl, select_oneSector hpos hstart hend regs⟩
  have hsent : PortStep s d ((waitWhile drive busy (s.fsDriveIoBase + 7) d).2.emit
      (commandEvents s.fsDriveIoBase s.fsDriveNum lba 0x30)) := hbusy.trans ⟨_, rfl, hcommand⟩
  have hrequest := hsent.waiting drive noRequest (s.fsDriveIoBase + 7)
  simp only [portWriteSector]
  split_ifs
  · exact hbusy.emit (hterm _)
  · exact hrequest.emit (hterm _)
  · refine PortStep.waiting (hrequest.emit ?_) drive busy _
    simp [PortEvent.IsWrite]

end PortStep

/-! ## Steps of the kernel

`StepRel` says what an elementary step of a command is: a sector read or written, a character
written, a port of another device.  It is enough to look at these, and the whole shell follows. -/

/-- A selected drive is at one of the four positions. -/
def OnChannel (s : FsState) : Prop :=
  s.fsDriveSelected = true → (s.fsDriveIoBase, s.fsDriveNum) ∈ positions

/-- The drive stays selected, and whatever is written is written to it. -/
def WorldStep (w w' : AtaWorld) : Prop :=
  DriveKept w.fs w'.fs ∧ (OnChannel w.fs → PortStep w.fs w.dev.port w'.dev.port)

section WorldStep

variable (drive : PortDrive)

lemma WorldStep.refl (w : AtaWorld) : WorldStep w w :=
  ⟨DriveKept.refl _, fun _ => PortStep.refl _ _⟩

lemma WorldStep.trans {w w' w'' : AtaWorld} (h : WorldStep w w') (h' : WorldStep w' w'') :
    WorldStep w w'' := by
  obtain ⟨hkept, hstep⟩ := h
  obtain ⟨hkept', hstep'⟩ := h'
  refine ⟨hkept.trans hkept', fun hon => (hstep hon).trans ?_⟩
  have hon' : OnChannel w'.fs := by
    rw [OnChannel, hkept.selected, hkept.ioBase, hkept.driveNum]
    exact hon
  obtain ⟨events, hlog, hwrites⟩ := hstep' hon'
  exact ⟨events, hlog, hkept.writesTo hwrites⟩

lemma PortStep.print {s : FsState} {d : PortDev} {w : AtaWorld} (h : PortStep s d w.dev.port)
    (calls : List TermCall) : PortStep s d (w.print (ataPlatform drive) calls).dev.port := by
  rw [print_ata]
  exact h.emit (by simp [PortEvent.IsWrite])

/-- **Every elementary step of a command is such a step.** -/
lemma shellRel_worldStep (around : Surroundings) :
    ShellRel (portMachine drive around) WorldStep where
  refl := WorldStep.refl
  trans := WorldStep.trans
  print calls w := ⟨DriveKept.refl _, fun _ => (PortStep.refl _ _).print drive calls⟩
  read lba w := by
    rw [fsReadSectorDirect]
    split_ifs with hsel
    · exact WorldStep.refl w
    · refine ⟨DriveKept.refl _, ?_⟩
      intro hon
      exact portReadSector_step drive lba (hon (by simpa using hsel)) w.fs w.dev.port
  write lba buffer w hstart hend := by
    rw [fsWriteSectorDirect]
    split_ifs with hsel
    · exact WorldStep.refl w
    · refine ⟨DriveKept.refl _, ?_⟩
      intro hon
      have hsel' : w.fs.fsDriveSelected = true := by simpa using hsel
      exact portWriteSector_step drive lba hsel' (hon hsel') hstart hend buffer w.dev.port
  store s w hkept := ⟨hkept, fun _ => PortStep.refl _ _⟩
  outb port value w hport := by
    refine ⟨DriveKept.refl _, fun _ => (PortStep.refl _ _).emit ?_⟩
    intro e he
    have h1 : port ≠ 0x1F7 := by rintro rfl; revert hport; decide
    have h2 : port ≠ 0x177 := by rintro rfl; revert hport; decide
    rw [List.mem_singleton.mp he]
    simp [PortEvent.IsWrite, h1, h2]

/-- IDENTIFY is no WRITE command. -/
lemma ataIdentify_step {io : UInt16} {driveNum : UInt8} (hpos : (io, driveNum) ∈ positions)
    (device : AtaDevice) (s : FsState) (d : PortDev) :
    PortStep s d (ataIdentify drive io driveNum device d).2.2 := by
  have hcommand : ∀ e ∈ [PortEvent.outb (io + 7) 0xEC], e.IsWrite = false := by
    simp [PortEvent.IsWrite]
  have hstart := (((((PortStep.refl s d).emit (deviceEvent_quiet hpos)).reading drive io 4).emit
    hcommand).reading drive io 4).reading drive io 1
  simp only [ataIdentify]
  split_ifs
  · exact hstart
  · split
    · exact hstart.reading drive io _
    · split_ifs
      · exact hstart.reading drive io _
      · refine (hstart.reading drive io _).quiet rfl ?_
        intro e he
        rw [List.eq_of_mem_replicate he]
        rfl

lemma ataDetectDrives_step (s : FsState) (d : AtaDev) :
    PortStep s d.port (ataDetectDrives drive d).port := by
  have hall : ∀ (rest : List (UInt16 × UInt8)) (d : AtaDev), (∀ p ∈ rest, p ∈ positions) →
      PortStep s d.port (rest.foldl (fun d position => detectAt drive position d) d).port := by
    intro rest
    induction rest with
    | nil => exact fun d _ => PortStep.refl s d.port
    | cons position rest ih =>
        intro d hrest
        refine PortStep.trans ?_ (ih _ fun p hp => hrest p (List.mem_cons_of_mem _ hp))
        exact ataIdentify_step drive (hrest position List.mem_cons_self) _ s d.port
  have hrun := hall positions { d with table := { d.table with driveCount := 0 } } fun _ hp => hp
  rwa [← ataDetectDrives] at hrun

/-- **All a command line can do** is write to the drive that is selected. -/
theorem writesTo_step (e : PortLine) (session : Session AtaDev) :
    WorldStep session.world (portStep drive e session).2.world := by
  have hrel := shellRel_worldStep drive e.1
  rw [portStep, shellStep]
  split_ifs
  · by_cases hcommand : shellCommand e.2 = .disks
    · rw [shellExecuteCommand, hcommand]
      refine ⟨DriveKept.refl _, ?_⟩
      intro _
      exact (ataDetectDrives_step drive session.world.fs session.world.dev).print drive
        (w := { session.world with dev := ataDetectDrives drive session.world.dev }) _
    · exact hrel.command hcommand session.world
  · exact hrel.refl _

lemma writesTo_run (lines : List PortLine) (session : Session AtaDev) :
    WorldStep session.world (final (portStep drive) lines session).world :=
  invariant_final (I := fun s => WorldStep session.world s.world)
    (fun e _ s h => h.trans (writesTo_step drive e s)) (WorldStep.refl _)

end WorldStep

/-! ## The dialogue

The keys are read as a list of choices, independently of the code that reacts to them.  What is
selected in the end is the last choice that was accepted. -/

/-- What the user types at the prompt for a drive, as far as it counts: `n`, or the digit of a
drive, with the answer to the warning if there is one. -/
inductive Choice where
  | ramOnly
  | digit (selection : ℕ) (answer : Option UInt8)
  deriving DecidableEq, Repr

/-- The answer is `y` or `Y`. -/
def IsYes (answer : UInt8) : Prop := answer = 121 ∨ answer = 89

instance (answer : UInt8) : Decidable (IsYes answer) := inferInstanceAs (Decidable (_ ∨ _))

/-- The choices that these keys make, with this table of drives.  A removable drive is taken at
once; a fixed one is warned about, and the prompt comes again when the answer is not yes. -/
def choices (table : AtaTable) : List UInt8 → List Choice
  | [] => []
  | c :: keys =>
      if c = 110 ∨ c = 78 then [.ramOnly]
      else if (48 ≤ c ∧ c ≤ 57) ∧ c.toNat - 48 < table.driveCount then
        if (table.drives (c.toNat - 48)).isRemovable then [.digit (c.toNat - 48) none]
        else
          match keys with
          | [] => [.digit (c.toNat - 48) none]
          | answer :: keys =>
              .digit (c.toNat - 48) (some answer) ::
                if IsYes answer then [] else choices table keys
      else choices table keys

section Choices

variable {table : AtaTable} {c : UInt8} {keys : List UInt8} (hn : ¬ (c = 110 ∨ c = 78))

include hn

lemma choices_skip (hc : ¬ ((48 ≤ c ∧ c ≤ 57) ∧ c.toNat - 48 < table.driveCount)) :
    choices table (c :: keys) = choices table keys := by
  rw [choices.eq_def]
  simp only [if_neg hn, if_neg hc]

variable (hc : (48 ≤ c ∧ c ≤ 57) ∧ c.toNat - 48 < table.driveCount)

include hc

lemma choices_removable (hr : (table.drives (c.toNat - 48)).isRemovable = true) :
    choices table (c :: keys) = [.digit (c.toNat - 48) none] := by
  rw [choices.eq_def]
  simp only [if_neg hn, if_pos hc, if_pos hr]

lemma choices_fixed (hr : ¬ (table.drives (c.toNat - 48)).isRemovable = true) (answer : UInt8)
    (keys : List UInt8) :
    choices table (c :: answer :: keys) = .digit (c.toNat - 48) (some answer) ::
      if IsYes answer then [] else choices table keys := by
  rw [choices.eq_def]
  simp only [if_neg hn, if_pos hc, if_neg hr]

end Choices

/-! ### What may be written to

A removable drive is accepted by its digit alone.  A fixed one is accepted if the key behind its
digit says yes. -/

/-- The drive of the last digit typed, if it may be written to: it is removable, or the answer to
its warning was yes. -/
def MayWrite (table : AtaTable) (keys : List UInt8) (selection : ℕ) : Prop :=
  ∃ answer, (choices table keys).getLast? = some (.digit selection answer) ∧
    selection < table.driveCount ∧
    ((table.drives selection).isRemovable = true ∨ ∃ a, answer = some a ∧ IsYes a)

/-- What the dialogue leaves: no drive is selected, or one that may be written to. -/
structure Chosen (table : AtaTable) (keys : List UInt8) (w : AtaWorld) (r : Dialogue) : Prop where
  sameTable : r.2.dev.table = table
  quiet : ∀ s, PortStep s w.dev.port r.2.dev.port
  selection : r.2.fs = w.fs ∨ ∃ selection, MayWrite table keys selection ∧
    r.2.fs = { w.fs with
      selectedDrive := selection
      fsDriveIoBase := (table.drives selection).ioBase
      fsDriveNum := (table.drives selection).drive
      fsDriveSelected := true }

section Dialogue

variable (drive : PortDrive) {table : AtaTable} {found : List (UInt16 × UInt8)}

/-! ### The branches of the dialogue

Selecting a drive writes to its registers and gives no command.  Each branch of the loop either ends
the dialogue, or goes on with fewer keys. -/

/-- Selecting a drive is no WRITE command either. -/
lemma ataSelectDevice_step {w : AtaDev} (hlists : w.table.Lists found)
    (hfound : found ⊆ positions) (index : ℕ) (s : FsState) :
    PortStep s w.port (ataSelectDevice drive index w).2.port ∧
      (ataSelectDevice drive index w).2.table = w.table := by
  rw [ataSelectDevice]
  split_ifs with hrange
  · exact ⟨PortStep.refl s w.port, rfl⟩
  · have hlt : index < found.length := by
      have hcount := hlists.count
      omega
    have hpos := hfound (hlists.entry index hlt ▸ List.getElem_mem hlt)
    have hwait := (((PortStep.refl s w.port).emit (deviceEvent_quiet hpos)).reading drive
      (w.table.drives index).ioBase 4).reading drive (w.table.drives index).ioBase
    simp only [Int.toNat_natCast]
    split_ifs
    · exact ⟨hwait _, rfl⟩
    · exact ⟨(hwait _).reading drive _ 1, rfl⟩
    · exact ⟨(hwait _).reading drive _ 1, rfl⟩

@[simp] lemma print_table (calls : List TermCall) (w : AtaWorld) :
    (w.print (ataPlatform drive) calls).dev.table = w.dev.table := by
  rw [print_ata]

lemma ataSelectDrive_cases {w : AtaWorld} (hlists : w.dev.table.Lists found)
    (hfound : found ⊆ positions) (index : ℕ) :
    (ataSelectDrive drive index w).2.dev.table = w.dev.table ∧
      (∀ s, PortStep s w.dev.port (ataSelectDrive drive index w).2.dev.port) ∧
      (((ataSelectDrive drive index w).1 = 0 ∧
          (ataSelectDrive drive index w).2.fs = { w.fs with selectedDrive := index }) ∨
        ((ataSelectDrive drive index w).1 ≠ 0 ∧ (ataSelectDrive drive index w).2.fs = w.fs)) := by
  have hstep := fun s => ataSelectDevice_step drive hlists hfound index s
  have hneg : (-1 : ℤ) ≠ 0 := by decide
  rw [ataSelectDrive]
  split_ifs
  · exact ⟨rfl, fun s => PortStep.refl s _, Or.inr ⟨hneg, rfl⟩⟩
  · exact ⟨rfl, fun s => PortStep.refl s _, Or.inr ⟨hneg, rfl⟩⟩
  · simp only
    split_ifs
    · refine ⟨?_, fun s => (hstep s).1.print drive (w := { w with dev := _ }) _, ?_⟩
      · rw [print_table]
        exact (hstep w.fs).2
      · exact Or.inr ⟨hneg, rfl⟩
    · refine ⟨?_, fun s => (hstep s).1.print drive (w := { w with fs := _, dev := _ }) _, ?_⟩
      · rw [print_table]
        exact (hstep w.fs).2
      · exact Or.inl ⟨rfl, rfl⟩

/-- A message before the rest of the dialogue. -/
lemma Chosen.after_print {keys : List UInt8} {w : AtaWorld} {r : Dialogue} (calls : List TermCall)
    (h : Chosen table keys (w.print (ataPlatform drive) calls) r) : Chosen table keys w r where
  sameTable := h.sameTable
  quiet s := ((PortStep.refl s w.dev.port).print drive calls).trans (h.quiet s)
  selection := h.selection

/-- The end of the dialogue, for a drive that may be written to. -/
lemma selectDrive_chosen {keys rest : List UInt8} {w : AtaWorld} (hlists : table.Lists found)
    (hfound : found ⊆ positions) (htable : w.dev.table = table) {selection : ℕ}
    (hmay : MayWrite table keys selection) :
    Chosen table keys w (some rest, selectDrive drive selection w) := by
  obtain ⟨hsame, hquiet, hcases⟩ := ataSelectDrive_cases drive (htable ▸ hlists) hfound selection
    (w := w)
  rw [htable] at hsame
  rw [selectDrive]
  simp only
  rcases hcases with ⟨hz, hfs⟩ | ⟨hz, hfs⟩
  · rw [if_pos hz]
    refine ⟨by simp [fsSetDriveInfo, hsame], ?_, Or.inr ⟨selection, hmay, ?_⟩⟩
    · intro s
      exact ((hquiet s).print drive _ (w := { (ataSelectDrive drive selection w).2 with
        fs := _ })).print drive _
    · simp only [World.print_fs, fsSetDriveInfo, hfs, hsame]
  · rw [if_neg hz]
    exact ⟨by simp [hsame], fun s => (hquiet s).print drive _, Or.inl hfs⟩

/-- More keys before those that decide. -/
lemma Chosen.mono {keys keys' : List UInt8} {w : AtaWorld} {r : Dialogue}
    (h : Chosen table keys' w r)
    (hmay : ∀ selection, MayWrite table keys' selection → MayWrite table keys selection) :
    Chosen table keys w r where
  sameTable := h.sameTable
  quiet := h.quiet
  selection := h.selection.imp_right fun ⟨selection, hs, hfs⟩ => ⟨selection, hmay selection hs, hfs⟩

/-- Nothing selected yet. -/
lemma chosen_refl (keys rest : List UInt8) {w : AtaWorld} (htable : w.dev.table = table)
    (waits : Bool) : Chosen table keys w (if waits then none else some rest, w) where
  sameTable := htable
  quiet s := PortStep.refl s _
  selection := Or.inl rfl

lemma enterSelector_chosen {keys typed : List UInt8} {w : AtaWorld} {loop : AtaWorld → Dialogue}
    (htable : w.dev.table = table)
    (hloop : ∀ w : AtaWorld, w.dev.table = table → Chosen table typed w (loop w)) :
    Chosen table typed w (enterSelector drive keys loop w) := by
  rw [enterSelector]
  split_ifs
  · cases keys with
    | nil =>
        exact (chosen_refl typed [] (by rw [print_table, htable]) true).after_print drive _
    | cons key keys =>
        exact (chosen_refl typed keys (by rw [print_table, htable]) false).after_print drive _
  · exact (hloop _ (by rw [print_table, htable])).after_print drive _

/-- The answer to the warning about a fixed disk.  After any answer but yes the prompt comes again,
and a later choice is the last one here too. -/
lemma answer_chosen (hlists : table.Lists found) (hfound : found ⊆ positions) {c answer : UInt8}
    {keys : List UInt8} (hn : ¬ (c = 110 ∨ c = 78))
    (hc : (48 ≤ c ∧ c ≤ 57) ∧ c.toNat - 48 < table.driveCount)
    (hr : ¬ (table.drives (c.toNat - 48)).isRemovable = true)
    {loop : AtaWorld → Dialogue}
    (hloop : ∀ w : AtaWorld, w.dev.table = table → Chosen table keys w (loop w))
    {w : AtaWorld} (htable : w.dev.table = table) :
    Chosen table (c :: answer :: keys) w (if answer ≠ 121 ∧ answer ≠ 89 then
      enterSelector drive keys loop
        (w.print (ataPlatform drive) [.writestring "Selection cancelled.\n"])
      else (some keys, selectDrive drive (c.toNat - 48) w)) := by
  have hfixed := choices_fixed hn hc hr answer keys
  by_cases hyes : IsYes answer
  · have hcancel : ¬ (answer ≠ 121 ∧ answer ≠ 89) := by
      rw [IsYes] at hyes
      tauto
    rw [if_neg hcancel]
    refine selectDrive_chosen drive hlists hfound htable
      ⟨some answer, ?_, hc.2, Or.inr ⟨answer, rfl, hyes⟩⟩
    rw [hfixed, if_pos hyes]
    rfl
  · have hcancel : answer ≠ 121 ∧ answer ≠ 89 := not_or.mp hyes
    rw [if_pos hcancel]
    rw [if_neg hyes] at hfixed
    refine Chosen.after_print drive [.writestring "Selection cancelled.\n"] ?_
    refine (enterSelector_chosen drive (by rw [print_table, htable]) hloop).mono ?_
    rintro selection ⟨again, hlast, hrest⟩
    refine ⟨again, ?_, hrest⟩
    rw [hfixed, List.getLast?_cons, hlast]
    rfl

/-- **The loop selects only what may be written to.** -/
theorem selectionLoop_chosen (hlists : table.Lists found) (hfound : found ⊆ positions) :
    ∀ (keys : List UInt8) (w : AtaWorld), w.dev.table = table →
      Chosen table keys w (selectionLoop drive keys w)
  | [], w, htable => chosen_refl [] [] htable true
  | c :: keys, w, htable => by
      rw [selectionLoop]
      simp only [htable]
      by_cases hn : c = 110 ∨ c = 78
      · rw [if_pos hn]
        exact (chosen_refl (c :: keys) keys (by rw [print_table, htable]) false).after_print drive _
      rw [if_neg hn]
      have hskip : ¬ ((48 ≤ c ∧ c ≤ 57) ∧ c.toNat - 48 < table.driveCount) →
          ∀ selection, MayWrite table keys selection → MayWrite table (c :: keys) selection := by
        intro hc selection hmay
        rw [MayWrite, choices_skip hn hc]
        exact hmay
      by_cases hdigit : 48 ≤ c ∧ c ≤ 57
      swap
      · rw [if_neg hdigit]
        exact (selectionLoop_chosen hlists hfound keys w htable).mono
          (hskip fun hc => hdigit hc.1)
      rw [if_pos hdigit]
      by_cases hrange : c.toNat - 48 < table.driveCount
      swap
      · rw [if_neg hrange]
        refine ((selectionLoop_chosen hlists hfound keys _ ?_).mono
          (hskip fun hc => hrange hc.2)).after_print drive _
        rw [print_table, htable]
      rw [if_pos hrange]
      have hc : (48 ≤ c ∧ c ≤ 57) ∧ c.toNat - 48 < table.driveCount := ⟨hdigit, hrange⟩
      refine Chosen.after_print drive [.putchar c, .writestring "\n\n"] ?_
      have hprinted : (w.print (ataPlatform drive)
          [.putchar c, .writestring "\n\n"]).dev.table = table := by rw [print_table, htable]
      generalize w.print (ataPlatform drive) [.putchar c, .writestring "\n\n"] = w₁ at hprinted ⊢
      rw [hprinted]
      by_cases hr : (table.drives (c.toNat - 48)).isRemovable = true
      · rw [if_pos hr]
        refine selectDrive_chosen drive hlists hfound hprinted ⟨none, ?_, hrange, Or.inl hr⟩
        rw [choices_removable hn hc hr]
        rfl
      rw [if_neg hr]
      refine Chosen.after_print drive fixedDiskText ?_
      have hwarned : (w₁.print (ataPlatform drive) fixedDiskText).dev.table = table := by
        rw [print_table, hprinted]
      generalize w₁.print (ataPlatform drive) fixedDiskText = w₂ at hwarned ⊢
      cases keys with
      | nil => exact chosen_refl [c] [] hwarned true
      | cons answer keys =>
          dsimp only
          refine Chosen.after_print drive [.putchar answer, .writestring "\n\n"] ?_
          have hechoed : (w₂.print (ataPlatform drive)
              [.putchar answer, .writestring "\n\n"]).dev.table = table := by
            rw [print_table, hwarned]
          generalize w₂.print (ataPlatform drive) [.putchar answer, .writestring "\n\n"] = w₃
            at hechoed ⊢
          exact answer_chosen drive hlists hfound hn hc hr
            (fun w hw => selectionLoop_chosen hlists hfound keys w hw) hechoed

end Dialogue

/-! ## The whole run

From `ata_init` on, with any keys and any command lines, in any surroundings. -/

section Run

variable (drive : PortDrive)

/-- The table that the dialogue shows. -/
def bootTable : AtaTable := (kernelMainDetect drive).dev.table

lemma bootTable_lists : ∃ found ⊆ positions, (bootTable drive).Lists found := by
  refine ⟨_, (answering_subset drive.status positions 0).subset, ?_⟩
  rw [bootTable, kernelMainDetect, print_table]
  exact (ataDetectDrives_lists drive { table := AtaTable.init, port := PortDev.start }).1

/-- Before the dialogue no drive is selected. -/
lemma kernelMainDetect_unselected : (kernelMainDetect drive).fs.fsDriveSelected = false := rfl

lemma kernelMainDetect_step (s : FsState) :
    PortStep s PortDev.start (kernelMainDetect drive).dev.port :=
  (ataDetectDrives_step drive s { table := AtaTable.init, port := PortDev.start }).print drive
    (w := { fs := FsState.powerOn, dev := _ }) _

lemma kernelMainSelect_chosen (keys : List UInt8) : Chosen (bootTable drive) keys
    (kernelMainDetect drive) (kernelMainSelect drive keys) := by
  obtain ⟨found, hfound, hlists⟩ := bootTable_lists drive
  exact enterSelector_chosen drive rfl fun w hw =>
    selectionLoop_chosen drive hlists hfound keys w hw

/-- A drive that the dialogue has selected is one that detection has tried. -/
lemma kernelMainSelect_onChannel (keys : List UInt8) :
    OnChannel (kernelMainSelect drive keys).2.fs := by
  obtain ⟨-, -, hselection⟩ := kernelMainSelect_chosen drive keys
  rcases hselection with hfs | ⟨selection, ⟨_, -, hrange, -⟩, hfs⟩
  · rw [OnChannel, hfs]
    simp [kernelMainDetect_unselected]
  · obtain ⟨found, hfound, hlists⟩ := bootTable_lists drive
    rw [OnChannel, hfs]
    intro _
    rw [hlists.count] at hrange
    rw [hlists.entry selection hrange]
    exact hfound (List.getElem_mem hrange)

/-- The drive that the dialogue has selected is where every WRITE of the run goes. -/
lemma kernelMain_step (keys : List UInt8) (lines : List PortLine) :
    PortStep (kernelMainSelect drive keys).2.fs PortDev.start
      (kernelMain drive keys lines).dev.port := by
  obtain ⟨-, hquiet, -⟩ := kernelMainSelect_chosen drive keys
  have hon := kernelMainSelect_onChannel drive keys
  refine (kernelMainDetect_step drive _).trans ((hquiet _).trans ?_)
  rw [kernelMain]
  cases hr : kernelMainSelect drive keys with
  | mk rest w =>
      rw [hr] at hon
      cases rest with
      | none => exact PortStep.refl _ _
      | some rest =>
          have hboot : WorldStep w (kernelMainShell drive w).world :=
            (shellRel_worldStep drive Surroundings.idle).toStepRel.kernelMainShell drive w
          exact (hboot.trans (writesTo_run drive lines _)).2 hon

/-- **Disk writes are confined to what the user approved.**  For every drive, every stream of keys
and every sequence of command lines, a WRITE command goes to the drive whose digit was typed last
at the prompt, which is removable or whose warning was answered with yes, and its registers ask
for one sector of the file system; and none is given when the user chose `n`, when there is no
drive, or when no drive was selected in the end. -/
theorem writes_confined (keys : List UInt8) (lines : List PortLine) :
    (∀ before e after, (kernelMain drive keys lines).dev.port.log = before ++ e :: after →
      e.IsWrite = true → ∃ selection, MayWrite (bootTable drive) keys selection ∧
        e = .outb (((bootTable drive).drives selection).ioBase + 7) 0x30 ∧
        OneSector (registersAfter before) ((bootTable drive).drives selection).ioBase
          ((bootTable drive).drives selection).drive) ∧
    ((choices (bootTable drive) keys).getLast? = some .ramOnly ∨ (bootTable drive).driveCount = 0 ∨
        ataIsSelected (kernelMainSelect drive keys).2.fs = false →
      ∀ e ∈ (kernelMain drive keys lines).dev.port.log, e.IsWrite = false) := by
  obtain ⟨events, hlog, hwrites⟩ := kernelMain_step drive keys lines
  rw [PortDev.start, List.nil_append] at hlog
  obtain ⟨-, -, hselection⟩ := kernelMainSelect_chosen drive keys
  have htarget : ∀ before e after, (kernelMain drive keys lines).dev.port.log
      = before ++ e :: after → e.IsWrite = true →
        Target (kernelMainSelect drive keys).2.fs e (registersAfter before) := by
    intro before e after hsplit hwrite
    have halong := hwrites fun _ => 0
    rw [← hlog, hsplit] at halong
    exact halong.after hwrite
  constructor
  · intro before e after hsplit hwrite
    have ht := htarget before e after hsplit hwrite
    rcases hselection with hfs | ⟨selection, hmay, hfs⟩
    · exact absurd ht.selected (by simp [hfs, kernelMainDetect_unselected])
    · have hport := ht.port
      have hsector := ht.sector
      rw [hfs] at hport hsector
      exact ⟨selection, hmay, hport, hsector⟩
  · intro hnone e he
    by_contra hwrite
    obtain ⟨before, after, hsplit⟩ := List.append_of_mem he
    have ht := htarget before e after hsplit (by simpa using hwrite)
    rcases hselection with hfs | ⟨selection, ⟨answer, hlast, hrange, -⟩, hfs⟩
    · exact absurd ht.selected (by simp [hfs, kernelMainDetect_unselected])
    · rcases hnone with hram | hzero | hunselected
      · rw [hram] at hlast
        exact absurd hlast (by simp)
      · omega
      · rw [hfs, ataIsSelected] at hunselected
        simp at hunselected

end Run

end SzymOS
