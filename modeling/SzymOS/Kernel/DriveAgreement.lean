import SzymOS.Kernel.Confinement

/-!
# The table of drives and the drive of the file system

Once a drive is selected it is known in two places: `ata.c` keeps an index into its table of
drives, the file system a copy of the port base and the drive number.  The command `disks` fills
the table again and leaves the index as it was, so the two can come apart.

A table that has been filled again is compared with the selection by position: the index still
denotes the drive of the file system if the drives that answered this time have it at the same
place.  A drive in front of it that does not answer any more, or not in time, moves it.

What is written afterwards still goes to the drive that the user chose, since the file system has
its own copy; it is `ata.c` that speaks of another drive.

* `agree_step` — a command line keeps them together exactly when, if it is `disks`, the drives
  that answer this time have the selected one at the same place.
* `drives_agree_iff` — so it is for whole sessions.

What a line other than `disks` does is an instance of the rules on relations: `TableKept` holds
across every elementary step (`shellRel_tableKept`).  A `disks` is a detection, and after it the
table lists the drives that answered (`ataDetectDrives_lists`), so the agreement is a statement
about this list (`agree_iff_of_lists`).  A session is then a run whose invariant is kept exactly if
a condition holds at each step.
-/

set_option autoImplicit false

namespace SzymOS

open Transition

/-- Both places say the same drive, and it is present. -/
structure Agree (w : AtaWorld) : Prop where
  nonneg : 0 ≤ w.fs.selectedDrive
  inRange : w.fs.selectedDrive < w.dev.table.driveCount
  present : (w.dev.table.drives w.fs.selectedDrive.toNat).present = true
  ioBase : (w.dev.table.drives w.fs.selectedDrive.toNat).ioBase = w.fs.fsDriveIoBase
  driveNum : (w.dev.table.drives w.fs.selectedDrive.toNat).drive = w.fs.fsDriveNum

/-- If the line is `disks`, then of the drives that answer IDENTIFY, in the order of the four
positions, the selected one comes at the place it had when it was selected. -/
def Undisturbed (drive : PortDrive) (e : PortLine) (s : Session AtaDev) : Prop :=
  s.running = true → shellCommand e.2 = .disks →
    (answering drive.status positions s.world.dev.port.polled)[s.world.fs.selectedDrive.toNat]?
      = some (s.world.fs.fsDriveIoBase, s.world.fs.fsDriveNum)

/-- Neither the table nor the selection changes, and status bytes are only read. -/
structure TableKept (w w' : AtaWorld) : Prop where
  drive : DriveKept w.fs w'.fs
  table : w'.dev.table = w.dev.table
  polled : w.dev.port.polled ≤ w'.dev.port.polled

section Kept

variable (drive : PortDrive) {w w' w'' : AtaWorld}

lemma TableKept.refl (w : AtaWorld) : TableKept w w := ⟨DriveKept.refl _, rfl, Nat.le_refl _⟩

lemma TableKept.trans (h : TableKept w w') (h' : TableKept w' w'') : TableKept w w'' where
  drive := h.drive.trans h'.drive
  table := h'.table.trans h.table
  polled := Nat.le_trans h.polled h'.polled

lemma TableKept.agree (h : TableKept w w') (hagree : Agree w) : Agree w' := by
  obtain ⟨hnonneg, hrange, hpresent, hio, hnum⟩ := hagree
  refine ⟨?_, ?_, ?_, ?_, ?_⟩
  · rwa [h.drive.selectedDrive]
  · rwa [h.drive.selectedDrive, h.table]
  · rwa [h.drive.selectedDrive, h.table]
  · rwa [h.drive.selectedDrive, h.table, h.drive.ioBase]
  · rwa [h.drive.selectedDrive, h.table, h.drive.driveNum]

lemma waitWhile_polled (waiting : UInt8 → Bool) (port : UInt16) (d : PortDev) :
    d.polled ≤ (waitWhile drive waiting port d).2.polled :=
  Nat.le_of_lt (Polling.lt_poll 100000 d.polled)

lemma portReadSector_polled (io : UInt16) (driveNum : UInt8) (lba : ℕ) (d : PortDev) :
    d.polled ≤ (portReadSector drive io driveNum lba d).2.polled := by
  have hbusy := waitWhile_polled drive busy (io + 7) d
  simp only [portReadSector]
  split_ifs
  · exact hbusy
  · exact Nat.le_trans hbusy (waitWhile_polled drive noRequest (io + 7) _)
  · exact Nat.le_trans hbusy (waitWhile_polled drive noRequest (io + 7) _)

lemma portWriteSector_polled (io : UInt16) (driveNum : UInt8) (lba : ℕ) (buffer : Sector)
    (d : PortDev) : d.polled ≤ (portWriteSector drive io driveNum lba buffer d).2.polled := by
  have hbusy := waitWhile_polled drive busy (io + 7) d
  simp only [portWriteSector]
  split_ifs
  · exact hbusy
  · exact Nat.le_trans hbusy (waitWhile_polled drive noRequest (io + 7) _)
  · refine Nat.le_trans hbusy (Nat.le_trans (waitWhile_polled drive noRequest (io + 7) _) ?_)
    exact waitWhile_polled drive busy (io + 7) _

/-- **No elementary step of a command touches the table or the selection.** -/
lemma shellRel_tableKept (around : Surroundings) :
    ShellRel (portMachine drive around) TableKept where
  refl := TableKept.refl
  trans := TableKept.trans
  print calls w := by
    have hprint : w.print (portMachine drive around).toPlatform calls
        = w.print (ataPlatform drive) calls := rfl
    rw [hprint, print_ata]
    exact ⟨DriveKept.refl _, rfl, Nat.le_refl _⟩
  read lba w := by
    rw [fsReadSectorDirect]
    split_ifs
    · exact TableKept.refl w
    · exact ⟨DriveKept.refl _, rfl, portReadSector_polled drive _ _ lba w.dev.port⟩
  write lba buffer w _ _ := by
    rw [fsWriteSectorDirect]
    split_ifs
    · exact TableKept.refl w
    · exact ⟨DriveKept.refl _, rfl, portWriteSector_polled drive _ _ lba buffer w.dev.port⟩
  store s w hkept := ⟨hkept, rfl, Nat.le_refl _⟩
  outb port value w _ := ⟨DriveKept.refl _, rfl, Nat.le_refl _⟩

lemma kernelMainShell_tableKept (w : AtaWorld) : TableKept w (kernelMainShell drive w).world :=
  (shellRel_tableKept drive Surroundings.idle).toStepRel.kernelMainShell drive w

end Kept

/-! ## One command line

Of all commands only `disks` calls the detection.  The others leave the table and the selection as
they are. -/

section Step

variable (drive : PortDrive)

/-- A table that lists some drives agrees with the file system exactly when the selected one is at
its place among them. -/
lemma agree_iff_of_lists {w : AtaWorld} {found : List (UInt16 × UInt8)}
    (hlists : w.dev.table.Lists found) (hnonneg : 0 ≤ w.fs.selectedDrive) :
    Agree w ↔ found[w.fs.selectedDrive.toNat]? = some (w.fs.fsDriveIoBase, w.fs.fsDriveNum) := by
  rw [List.getElem?_eq_some_iff]
  constructor
  · intro hagree
    have hlt : w.fs.selectedDrive.toNat < found.length := by
      have hrange := hagree.inRange
      rw [hlists.count] at hrange
      omega
    refine ⟨hlt, ?_⟩
    rw [← hlists.entry _ hlt, hagree.ioBase, hagree.driveNum]
  · rintro ⟨hlt, heq⟩
    have hentry := (hlists.entry _ hlt).trans heq
    refine ⟨hnonneg, ?_, hlists.present _ hlt, congrArg Prod.fst hentry, congrArg Prod.snd hentry⟩
    rw [hlists.count]
    omega

/-- The `disks` command, in full. -/
lemma portStep_disks {e : PortLine} {s : Session AtaDev} (hrunning : s.running = true)
    (hdisks : shellCommand e.2 = .disks) :
    (portStep drive e s).2.world.fs = s.world.fs ∧
      (portStep drive e s).2.world.dev.table = (ataDetectDrives drive s.world.dev).table := by
  rw [portStep, shellStep, if_pos hrunning, shellExecuteCommand, hdisks]
  exact ⟨rfl, print_table drive _ { s.world with dev := ataDetectDrives drive s.world.dev }⟩

/-- Any other line, or any line when the shell has come to its end. -/
lemma portStep_tableKept {e : PortLine} {s : Session AtaDev}
    (hother : s.running = true → shellCommand e.2 ≠ .disks) :
    TableKept s.world (portStep drive e s).2.world := by
  rw [portStep, shellStep]
  split_ifs with hrunning
  · exact (shellRel_tableKept drive e.1).command (hother hrunning) s.world
  · exact TableKept.refl s.world

/-- **One command line.** -/
theorem agree_step (e : PortLine) (s : Session AtaDev) (hagree : Agree s.world) :
    Agree (portStep drive e s).2.world ↔ Undisturbed drive e s := by
  by_cases hdisks : s.running = true ∧ shellCommand e.2 = .disks
  · obtain ⟨hfs, htable⟩ := portStep_disks drive hdisks.1 hdisks.2
    have hlists := (ataDetectDrives_lists drive s.world.dev).1
    rw [← htable] at hlists
    have hnonneg : 0 ≤ (portStep drive e s).2.world.fs.selectedDrive := by
      rw [hfs]
      exact hagree.nonneg
    rw [agree_iff_of_lists hlists hnonneg, hfs, Undisturbed]
    exact ⟨fun h _ _ => h, fun h => h hdisks.1 hdisks.2⟩
  · have hkept := portStep_tableKept drive fun hrunning hc => hdisks ⟨hrunning, hc⟩
    exact ⟨fun _ hrunning hc => absurd ⟨hrunning, hc⟩ hdisks, fun _ => hkept.agree hagree⟩

end Step

/-! ## Sessions

The dialogue leaves the two layers in agreement, and from there on it is a question of each line. -/

section Session

variable (drive : PortDrive) (keys : List UInt8)

/-- The detection selects no drive. -/
lemma kernelMainDetect_not_selected : ataIsSelected (kernelMainDetect drive).fs = false := rfl

/-- The machine when the dialogue is over, if a drive was selected in it. -/
lemma kernelMainSelect_agree (hsel : ataIsSelected (kernelMainSelect drive keys).2.fs = true) :
    Agree (kernelMainSelect drive keys).2 := by
  obtain ⟨htable, -, hselection⟩ := kernelMainSelect_chosen drive keys
  obtain ⟨found, -, hlists⟩ := bootTable_lists drive
  rcases hselection with hfs | ⟨selection, ⟨_, -, hrange, -⟩, hfs⟩
  · rw [hfs] at hsel
    exact absurd hsel (by simp [kernelMainDetect_not_selected])
  · have hpresent := hlists.present selection (hlists.count ▸ hrange)
    generalize (kernelMainSelect drive keys).2 = w at htable hfs
    rw [← htable] at hrange hpresent hfs
    refine ⟨?_, ?_, ?_, ?_, ?_⟩
    · rw [hfs]
      exact Int.natCast_nonneg selection
    · rw [hfs]
      exact Int.ofNat_lt.mpr hrange
    · rw [hfs]
      exact hpresent
    · rw [hfs]
      rfl
    · rw [hfs]
      rfl

/-- The shell after the dialogue. -/
def shellAfter (keys : List UInt8) : Session AtaDev :=
  kernelMainShell drive (kernelMainSelect drive keys).2

/-- **When the two layers agree.**  After a drive has been selected, the index of `ata.c` is that
of the drive of the file system in every state of a session exactly when every `disks` finds the
selected drive at its place among those that answer. -/
theorem drives_agree_iff (hsel : ataIsSelected (kernelMainSelect drive keys).2.fs = true)
    (lines : List PortLine) :
    (∀ lines', lines' <+: lines →
        Agree (final (portStep drive) lines' (shellAfter drive keys)).world) ↔
      Along (portStep drive) (Undisturbed drive) lines (shellAfter drive keys) := by
  refine forall_prefix_iff (I := fun s : Session AtaDev => Agree s.world)
    (fun e _ => agree_step drive e) ?_
  exact (kernelMainShell_tableKept drive _).agree (kernelMainSelect_agree drive keys hsel)

/-! Removable drives at all four positions: one kind that is always ready, and one that does not
answer any more once 46 status bytes have been read.  The detection reads 40 of them, the selection
of a drive 6. -/

def attachedDrive : PortDrive where
  status _ := 0x58
  words _ := 0x80
  afterHeader _ := 0
  aroundData _ := 0

def unpluggedDrive : PortDrive where
  status n := if n < 46 then 0x58 else 0
  words _ := 0x80
  afterHeader _ := 0
  aroundData _ := 0

lemma disksText_fits : (CString.literalChars ["disks"]).length < 2 ^ 32 := by decide

def disksLine : PortLine := (Surroundings.idle, CString.ofLiterals ["disks"] disksText_fits)

lemma disksLine_command : shellCommand disksLine.2 = .disks := rfl

lemma answering_attached (rest : List (UInt16 × UInt8)) (n : ℕ) :
    answering attachedDrive.status rest n = rest := by
  have hstatus : ∀ n, attachedDrive.status n = 0x58 := fun _ => rfl
  have hanswer : ∀ n, (identifyAnswer attachedDrive.status n).1 = true := by
    intro n
    rw [identifyAnswer, hstatus, if_neg (by decide), Polling.pollUntil, hstatus,
      if_neg (by decide), if_pos (by decide)]
    rfl
  induction rest generalizing n with
  | nil => rfl
  | cons position rest ih =>
      rw [answering]
      simp only [hanswer, if_true, ih]

/-- `disks` does no harm while the drives stay attached. -/
theorem drives_agree_attached :
    Agree (final (portStep attachedDrive) [disksLine] (shellAfter attachedDrive [48])).world := by
  refine (drives_agree_iff attachedDrive [48] (by decide +kernel) [disksLine]).mpr ⟨?_, trivial⟩
    [disksLine] (List.prefix_refl _)
  intro _ _
  have hkept :=
    (kernelMainShell_tableKept attachedDrive (kernelMainSelect attachedDrive [48]).2).drive
  rw [answering_attached, shellAfter, hkept.selectedDrive, hkept.ioBase, hkept.driveNum]
  decide +kernel

/-- Where nothing answers, nothing is listed. -/
lemma answering_eq_nil {status : ℕ → UInt8} (rest : List (UInt16 × UInt8)) {n : ℕ}
    (hzero : ∀ m ≥ n, status m = 0) : answering status rest n = [] := by
  induction rest generalizing n with
  | nil => rfl
  | cons position rest ih =>
      have hanswer : identifyAnswer status n = (false, n + 9) := by
        rw [identifyAnswer, if_pos (hzero _ (Nat.le_add_right n 8))]
      rw [answering, hanswer]
      exact ih fun m hm => hzero m (by omega)

/-- **The two layers come apart** when the drives are gone by the time of a `disks`. -/
theorem disks_disagrees : ataIsSelected (kernelMainSelect unpluggedDrive [48]).2.fs = true ∧
    ¬ Agree (kernelMain unpluggedDrive [48] [disksLine]) := by
  have hdialogue : (kernelMainSelect unpluggedDrive [48]).1 = some [] := by decide +kernel
  have hpolled : (kernelMainSelect unpluggedDrive [48]).2.dev.port.polled = 46 := by decide +kernel
  refine ⟨by decide +kernel, ?_⟩
  intro hagree
  rw [kernelMain] at hagree
  generalize kernelMainSelect unpluggedDrive [48] = r at hdialogue hpolled hagree
  obtain ⟨keys, w⟩ := r
  obtain rfl : keys = some [] := hdialogue
  obtain ⟨-, htable⟩ := portStep_disks unpluggedDrive (e := disksLine)
    (s := kernelMainShell unpluggedDrive w) rfl disksLine_command
  have hlater : 46 ≤ (kernelMainShell unpluggedDrive w).world.dev.port.polled :=
    hpolled ▸ (kernelMainShell_tableKept unpluggedDrive w).polled
  have hlists := (ataDetectDrives_lists unpluggedDrive
    (kernelMainShell unpluggedDrive w).world.dev).1
  have hgone : ∀ m ≥ (kernelMainShell unpluggedDrive w).world.dev.port.polled,
      unpluggedDrive.status m = 0 := fun m hm => if_neg (by omega)
  rw [answering_eq_nil positions hgone, ← htable] at hlists
  simp only [final_cons, final_nil] at hagree
  have hrange := Int.lt_of_le_of_lt hagree.nonneg hagree.inRange
  rw [hlists.count] at hrange
  exact Int.lt_irrefl 0 hrange

end Session

end SzymOS
