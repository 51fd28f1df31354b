import SzymOS.Kernel.AtaPorts
import SzymOS.Kernel.Durability

/-!
# Two drivers, one disk

`filesystem.c` has its own code for reading and writing sectors, and `ata.c` has another.  On the
drive that both are set to they may be called in any order; each begins where the other has left
the registers and the transfer, and may have given up in the middle.

That two pieces of code share a device is a source of trouble whenever one of them gives up in the
middle of a transfer.  The device then has words to hand out or waits for words, and the next
command finds it so.  Here the next command, whichever driver sends it, begins a transfer of its
own; what was left of the old one is dropped, and no sector has been touched by it.  This is why any
order of calls is as good as one driver alone.

The two drivers do not report the same.  `ata_write_sector` looks at the last status and may report
a failure although the sector is on the disk, while `fs_write_sector_direct` never does.  Both may
report a success for a sector that the drive has lost.

* `SectorCall.store` — what is asked of a disk, whoever asks.
* `drivers_share_disk` — every run of calls on the ports is one on a single array of sectors, to
  which it makes no difference which driver a call is for.
-/

set_option autoImplicit false

namespace SzymOS

open Bytes Transition

/-! ## Calls

The specification is an array of sectors and, for each call, a fate: whether it reports success, and
whether the array changes.  Who makes the call does not enter into it. -/

/-- The two files that reach the ports of a drive. -/
inductive Driver where
  | filesystem
  | ata

/-- A call of one of the four functions. -/
inductive SectorCall where
  | read (driver : Driver) (lba : ℕ)
  | write (driver : Driver) (lba : ℕ) (buffer : Sector)

/-- What becomes of a call: whether it reports success, and whether the disk keeps the sector. -/
structure Fate where
  answered : Bool
  kept : Bool

/-- The call on an array of sectors, with 28 bits for their numbers. -/
def SectorCall.store : Fate × SectorCall → (ℕ → Sector) → AtaAnswer × (ℕ → Sector)
  | (fate, .read _ lba), disk =>
      (.sector (if fate.answered then some (disk (lba % 2 ^ 28)) else none), disk)
  | (fate, .write _ lba buffer), disk =>
      (.code (if fate.answered then 0 else -1),
        if fate.kept then Function.update disk (lba % 2 ^ 28) buffer else disk)

namespace AtaDrive

variable (a : AtaDrive)

/-- The call on the ports.  `filesystem.c` has its copy of the position, `ata.c` its table. -/
def sectorCall : SectorCall → AtaState DiskDev → AtaAnswer × AtaState DiskDev
  | .read .filesystem lba, s =>
      let (sector, dev) := a.machine.fsReadSector a.ioBase a.driveNum lba s.dev
      (.sector sector, { s with dev })
  | .write .filesystem lba buffer, s =>
      let (result, dev) := a.machine.fsWriteSector a.ioBase a.driveNum lba buffer s.dev
      (.code result, { s with dev })
  | .read .ata lba, s => a.machine.ataCall (.read lba) s
  | .write .ata lba buffer, s => a.machine.ataCall (.write lba buffer) s

/-- The drive that `ata.c` has selected is this one. -/
def Current (table : AtaTable) (selectedDrive : ℤ) : Prop :=
  ∃ device, ataGetDrive table selectedDrive = some device ∧ device.present = true ∧
    device.ioBase = a.ioBase ∧ device.drive = a.driveNum

/-! ## `ata.c` on the drive

The functions of `ata.c` need their own lemmas, for they set the registers in several steps with
waits in between.  A wait changes nothing but the place in the stream. -/

lemma countDownWhile_machine (waiting : UInt8 → Bool) (t : ℕ) (d : DiskDev) :
    a.machine.countDownWhile waiting (a.ioBase + 7) t d
      = ((Polling.countDown waiting a.status t d.polled).1,
        { d with polled := (Polling.countDown waiting a.status t d.polled).2 }) := by
  induction t generalizing d with
  | zero => rw [PortMachine.countDownWhile, a.inb_status, Polling.countDown]
  | succ t ih =>
      rw [PortMachine.countDownWhile, a.inb_status, Polling.countDown]
      simp only
      split_ifs
      · exact ih _
      · rfl

/-- A wait reads status bytes, and succeeds if the drive answers in time. -/
lemma ataWait_machine (waiting : UInt8 → Bool) (d : DiskDev) :
    ∃ (answered : Bool) (n : ℕ), a.machine.ataWait waiting a.ioBase d
        = (if answered then 0 else -1, { d with polled := n }) ∧
      ((∀ n, ∃ k < 100000, Polling.FirstAt waiting a.status n k) → answered = true) := by
  refine ⟨decide (0 < (Polling.countDown waiting a.status 100000 d.polled).1),
    (Polling.countDown waiting a.status 100000 d.polled).2, ?_, fun hanswers => ?_⟩
  · rw [PortMachine.ataWait, a.countDownWhile_machine]
    simp only [gt_iff_lt, decide_eq_true_eq]
  · have hpos := (Polling.poll_pos_iff 100000 d.polled).mpr (hanswers d.polled)
    rw [Polling.countDown_eq, decide_eq_true_eq]
    simp only
    omega

/-- Between two writes to the registers the delay reads four status bytes. -/
lemma ataCommand_machine (lba : ℕ) (command : UInt8) (d : DiskDev) :
    (let io := a.ioBase
      let d := a.machine.outb (io + 6)
        (UInt8.ofNat (0xE0 ||| (a.driveNum.toNat <<< 4) ||| ((lba >>> 24) &&& 0x0F))) d
      let d := a.machine.ata400nsDelay io d
      let d := a.machine.outb (io + 2) 1 d
      let d := a.machine.outb (io + 3) (UInt8.ofNat lba) d
      let d := a.machine.outb (io + 4) (UInt8.ofNat (lba >>> 8)) d
      let d := a.machine.outb (io + 5) (UInt8.ofNat (lba >>> 16)) d
      a.machine.outb (io + 7) command d)
      = a.machine.sendCommand a.ioBase a.driveNum lba command
          { d with polled := d.polled + 4 } := by
  have hdelay : ∀ d, a.machine.ata400nsDelay a.ioBase d = { d with polled := d.polled + 4 } := by
    intro d
    simp only [PortMachine.ata400nsDelay, PortMachine.discard, a.inb_status]
  rw [PortMachine.sendCommand]
  simp only [hdelay, a.outb_register 6 (by decide)]

/-- **A request** leaves the disk alone; if the drive answers, the transfer has begun. -/
lemma ataRequest_machine {device : AtaDevice} (hio : device.ioBase = a.ioBase)
    (hdrive : device.drive = a.driveNum) {lba : ℕ} {command : UInt8}
    (transfer : (ℕ → Sector) → Transfer)
    (hsend : ∀ d, a.machine.sendCommand a.ioBase a.driveNum lba command d
      = { d with regs := a.sentRegisters lba command d.regs, transfer := transfer d.disk })
    (busyError drqError : String) (d : DiskDev) :
    ∃ (asked : Bool) (d' : DiskDev),
      a.machine.ataRequest device lba command busyError drqError d = (asked, d') ∧
        d'.disk = d.disk ∧ (asked = true → d'.transfer = transfer d.disk) ∧
          (a.InTime → asked = true) := by
  obtain ⟨ready, n, hready, htime⟩ := a.ataWait_machine busy d
  rw [PortMachine.ataRequest, hio, hdrive]
  simp only [hready]
  cases ready with
  | false => exact ⟨false, _, rfl, rfl, by simp, fun h => absurd (htime h.ready) (by simp)⟩
  | true =>
      have hcommand := a.ataCommand_machine lba command { d with polled := n }
      simp only at hcommand
      obtain ⟨asked, m, hasked, htime'⟩ := a.ataWait_machine noRequest
        (a.machine.sendCommand a.ioBase a.driveNum lba command { d with polled := n + 4 })
      rw [if_neg (by decide), hcommand, hasked, hsend]
      cases asked with
      | false => exact ⟨false, _, rfl, rfl, by simp, fun h => absurd (htime' h.asks) (by simp)⟩
      | true => exact ⟨true, _, rfl, rfl, fun _ => rfl, fun _ => rfl⟩

/-! ## One call

The relation between ports and array asks only that the sectors are the same and that `ata.c` still
has its drive.  Registers, transfers and the stream are free, as the calls leave them in all kinds
of states. -/

lemma ioBase_ne_zero : a.ioBase ≠ 0 := by
  have hpos := a.position
  intro h
  simp [positions, h] at hpos

/-- What can become of a call on this drive. -/
structure Possible (call : SectorCall) (fate : Fate) : Prop where
  answered : a.InTime → fate.answered = true
  kept : a.KeepsAll → fate.answered = true → fate.kept = true
  /-- Only `ata_write_sector` reports a failure when the disk has kept the sector. -/
  reported : fate.kept = true → fate.answered = false → ∃ lba buffer, call = .write .ata lba buffer

/-- On the disk the call is one on an array of sectors, and `ata.c` keeps its drive. -/
structure IsStore (call : SectorCall) (s : AtaState DiskDev) (fate : Fate) : Prop where
  answer : (a.sectorCall call s).1 = (SectorCall.store (fate, call) s.dev.disk).1
  disk : (a.sectorCall call s).2.dev.disk = (SectorCall.store (fate, call) s.dev.disk).2
  table : (a.sectorCall call s).2.table = s.table
  selectedDrive : (a.sectorCall call s).2.selectedDrive = s.selectedDrive
  possible : a.Possible call fate

lemma isStore_of_eq {call : SectorCall} {s : AtaState DiskDev} {answer : AtaAnswer} {d : DiskDev}
    {fate : Fate} (hcall : a.sectorCall call s = (answer, { s with dev := d }))
    (hanswer : answer = (SectorCall.store (fate, call) s.dev.disk).1)
    (hdisk : d.disk = (SectorCall.store (fate, call) s.dev.disk).2)
    (hpossible : a.Possible call fate) : a.IsStore call s fate where
  answer := by rw [hcall, hanswer]
  disk := by rw [hcall, hdisk]
  table := by rw [hcall]
  selectedDrive := by rw [hcall]
  possible := hpossible

/-- A sector that is read leaves everything alone, so it may as well be kept. -/
lemma possible_read {driver : Driver} {lba : ℕ} {readable : Bool}
    (htime : a.InTime → readable = true) :
    a.Possible (.read driver lba) ⟨readable, readable⟩ where
  answered := htime
  kept _ h := h
  reported h h' := absurd (h.symm.trans h') (by simp)

lemma fsRead_isStore (lba : ℕ) (s : AtaState DiskDev) :
    ∃ fate, a.IsStore (.read .filesystem lba) s fate := by
  obtain ⟨readable, hsector, hview, htime⟩ := a.fsReadSector_machine lba s.dev
  have hcall : a.sectorCall (.read .filesystem lba) s
      = (.sector (a.machine.fsReadSector a.ioBase a.driveNum lba s.dev).1,
        { s with dev := (a.machine.fsReadSector a.ioBase a.driveNum lba s.dev).2 }) := by
    rw [sectorCall]
  refine ⟨⟨readable, readable⟩, a.isStore_of_eq hcall (congrArg AtaAnswer.sector hsector) ?_
    (a.possible_read htime)⟩
  exact congrArg SectorDev.disk hview

lemma fsWrite_isStore (lba : ℕ) (buffer : Sector) (s : AtaState DiskDev) :
    ∃ fate, a.IsStore (.write .filesystem lba buffer) s fate := by
  obtain ⟨outcome, hresult, hview, htime, hkeeps⟩ := a.fsWriteSector_machine lba buffer s.dev
  have hcall : a.sectorCall (.write .filesystem lba buffer) s
      = (.code (a.machine.fsWriteSector a.ioBase a.driveNum lba buffer s.dev).1,
        { s with dev := (a.machine.fsWriteSector a.ioBase a.driveNum lba buffer s.dev).2 }) := by
    rw [sectorCall]
  have hdisk := congrArg SectorDev.disk hview
  cases outcome with
  | stored =>
      exact ⟨⟨true, true⟩, a.isStore_of_eq hcall (congrArg AtaAnswer.code hresult) hdisk
        ⟨fun _ => rfl, fun _ _ => rfl, fun _ h => absurd h (by simp)⟩⟩
  | lost =>
      exact ⟨⟨true, false⟩, a.isStore_of_eq hcall (congrArg AtaAnswer.code hresult) hdisk
        ⟨fun _ => rfl, fun h => absurd rfl (hkeeps h), fun h => absurd h (by simp)⟩⟩
  | refused =>
      exact ⟨⟨false, false⟩, a.isStore_of_eq hcall (congrArg AtaAnswer.code hresult) hdisk
        ⟨fun h => absurd rfl (htime h), fun _ h => absurd h (by simp),
          fun h => absurd h (by simp)⟩⟩

lemma ataRead_isStore (lba : ℕ) {s : AtaState DiskDev}
    (hs : a.Current s.table s.selectedDrive) : ∃ fate, a.IsStore (.read .ata lba) s fate := by
  obtain ⟨device, hget, hpresent, hio, hdrive⟩ := hs
  obtain ⟨asked, d', hrequest, hdisk, htransfer, htime⟩ := a.ataRequest_machine hio hdrive
    (fun disk => .reading (disk (lba % 2 ^ 28)) 0) (a.sendCommand_read lba)
    "[ATA ERROR] Read timeout waiting for BSY\n" "[ATA ERROR] Read timeout waiting for DRQ\n" s.dev
  have hread : ∃ d'', a.machine.ataReadSector lba s
      = (if asked then some (s.dev.disk (lba % 2 ^ 28)) else none, { s with dev := d'' }) ∧
        d''.disk = s.dev.disk := by
    rw [PortMachine.ataReadSector, hget]
    simp only [hpresent, hio, a.ioBase_ne_zero, hrequest]
    cases asked with
    | false => exact ⟨d', rfl, hdisk⟩
    | true =>
        have hwords := a.readWords_machine (s.dev.disk (lba % 2 ^ 28)) 256 0 rfl d'
          (htransfer rfl)
        rw [← List.range_eq_range'] at hwords
        simp only [hwords, bufferOfWords_bufferWord]
        exact ⟨_, rfl, hdisk⟩
  obtain ⟨d'', heq, hdisk'⟩ := hread
  have hcall : a.sectorCall (.read .ata lba) s
      = (.sector (if asked then some (s.dev.disk (lba % 2 ^ 28)) else none),
        { s with dev := d'' }) := by
    show ((.sector (a.machine.ataReadSector lba s).1 : AtaAnswer),
      (a.machine.ataReadSector lba s).2) = _
    rw [heq]
  exact ⟨_, a.isStore_of_eq hcall rfl hdisk' (a.possible_read htime)⟩

lemma ataWrite_isStore (lba : ℕ) (buffer : Sector) {s : AtaState DiskDev}
    (hs : a.Current s.table s.selectedDrive) :
    ∃ fate, a.IsStore (.write .ata lba buffer) s fate := by
  obtain ⟨device, hget, hpresent, hio, hdrive⟩ := hs
  -- the report before the request goes to the terminal
  obtain ⟨asked, d', hrequest, hdisk, htransfer, htime⟩ := a.ataRequest_machine hio hdrive
    (fun _ => .writing (lba % 2 ^ 28) []) (a.sendCommand_write lba)
    "[ATA ERROR] Timeout waiting for BSY\n" "[ATA ERROR] Timeout waiting for DRQ\n"
    (a.machine.print (.printf "[DEBUG] Writing to drive %d, LBA %d, IO base 0x%x\n"
      [UInt32.ofInt s.selectedDrive, UInt32.ofNat lba, a.ioBase.toUInt32]) s.dev)
  have hdisk' : d'.disk = s.dev.disk := hdisk
  have hwrite : ∃ (fate : Fate) (d'' : DiskDev), a.machine.ataWriteSector lba buffer s
      = (if fate.answered then 0 else -1, { s with dev := d'' }) ∧
        d''.disk = (if fate.kept then Function.update s.dev.disk (lba % 2 ^ 28) buffer
          else s.dev.disk) ∧
          (a.InTime → fate.answered = true) ∧
            (a.KeepsAll → fate.answered = true → fate.kept = true) := by
    rw [PortMachine.ataWriteSector, hget]
    simp only [hpresent, hio, a.ioBase_ne_zero, AtaState.print, hrequest]
    cases asked with
    | false =>
        exact ⟨⟨false, false⟩, d', rfl, hdisk', fun h => htime h, fun _ h => absurd h (by simp)⟩
    | true =>
        have hwords : (a.machine.writeWords a.ioBase buffer 256 0 d').disk
            = if a.keeps d'.completed then Function.update s.dev.disk (lba % 2 ^ 28) buffer
              else s.dev.disk := by
          rw [a.writeWords_machine (lba % 2 ^ 28) buffer 255 0 rfl d' (htransfer rfl),
            bufferOfWords_bufferWord, hdisk']
        obtain ⟨finished, n, hfinished, hready⟩ := a.ataWait_machine busy
          (a.machine.writeWords a.ioBase buffer 256 0 d')
        simp only [hfinished]
        -- the disk has the sector when the drive says too late that it is done
        cases finished with
        | false =>
            exact ⟨⟨false, a.keeps d'.completed⟩, _, rfl, hwords, fun h => hready h.ready,
              fun h _ => h _⟩
        | true =>
            exact ⟨⟨true, a.keeps d'.completed⟩, _, rfl, hwords, fun _ => rfl, fun h _ => h _⟩
  obtain ⟨fate, d'', heq, hdisk'', hanswered, hkept⟩ := hwrite
  have hcall : a.sectorCall (.write .ata lba buffer) s
      = (.code (if fate.answered then 0 else -1), { s with dev := d'' }) := by
    show ((.code (a.machine.ataWriteSector lba buffer s).1 : AtaAnswer),
      (a.machine.ataWriteSector lba buffer s).2) = _
    rw [heq]
  exact ⟨fate, a.isStore_of_eq hcall rfl hdisk''
    ⟨hanswered, hkept, fun _ _ => ⟨lba, buffer, rfl⟩⟩⟩

/-- **Every call is one on an array of sectors**, whichever driver it is for. -/
lemma sectorCall_isStore (call : SectorCall) {s : AtaState DiskDev}
    (hs : a.Current s.table s.selectedDrive) : ∃ fate, a.IsStore call s fate := by
  cases call with
  | read driver lba =>
      cases driver with
      | filesystem => exact a.fsRead_isStore lba s
      | ata => exact a.ataRead_isStore lba hs
  | write driver lba buffer =>
      cases driver with
      | filesystem => exact a.fsWrite_isStore lba buffer s
      | ata => exact a.ataWrite_isStore lba buffer hs

end AtaDrive

/-! ## Every order of calls

A run has one fate for each of its calls, and the fates are restricted to those that the drive makes
possible: failures need a drive that is late, lost sectors one that loses sectors. -/

/-- **The drivers share one disk.**  Calls of `fs_read_sector_direct`, `fs_write_sector_direct`,
`ata_read_sector` and `ata_write_sector`, in any order, return what they would on one array of
sectors, and leave that array: what one driver has stored the other reads, and a call that gives up
halfway spoils nothing.  Calls fail only on a drive that is late, and a sector that is reported as
written is missing only on one that loses sectors. -/
theorem drivers_share_disk (a : AtaDrive) (s : AtaState DiskDev)
    (hs : a.Current s.table s.selectedDrive) (calls : List SectorCall) :
    ∃ history : List (Fate × SectorCall), history.map Prod.snd = calls ∧
      outputs a.sectorCall calls s = outputs SectorCall.store history s.dev.disk ∧
      (final a.sectorCall calls s).dev.disk = final SectorCall.store history s.dev.disk ∧
      ∀ e ∈ history, a.Possible e.2 e.1 := by
  induction calls generalizing s with
  | nil => exact ⟨[], rfl, rfl, rfl, by simp⟩
  | cons call calls ih =>
      obtain ⟨fate, hcall⟩ := a.sectorCall_isStore call hs
      have hs' : a.Current (a.sectorCall call s).2.table (a.sectorCall call s).2.selectedDrive := by
        rw [hcall.table, hcall.selectedDrive]
        exact hs
      obtain ⟨history, hmap, houts, hfinal, hpossible⟩ := ih (a.sectorCall call s).2 hs'
      refine ⟨(fate, call) :: history, congrArg (call :: ·) hmap, ?_, ?_, ?_⟩
      · rw [outputs, outputs, hcall.answer, houts, hcall.disk]
      · rw [final_cons, final_cons, hfinal, hcall.disk]
      · rintro e (_ | ⟨_, he⟩)
        · exact hcall.possible
        · exact hpossible e he

/-- On a drive that answers in time and keeps what it takes, nothing can happen to a call. -/
lemma AtaDrive.history_faultless (a : AtaDrive) (htime : a.InTime) (hkeeps : a.KeepsAll)
    {history : List (Fate × SectorCall)} (h : ∀ e ∈ history, a.Possible e.2 e.1) :
    history = (history.map Prod.snd).map (Prod.mk ⟨true, true⟩) := by
  rw [List.map_map]
  refine (List.map_id history).symm.trans (List.map_congr_left ?_)
  rintro ⟨⟨answered, kept⟩, call⟩ he
  have hanswered : answered = true := (h _ he).answered htime
  have hkept : kept = true := (h _ he).kept hkeeps hanswered
  rw [hanswered, hkept]
  rfl

/-- `ata.c` when `AtaDrive.prompt` is the only drive it has found. -/
def promptTable : AtaTable where
  drives _ :=
    { ioBase := AtaDrive.prompt.ioBase, drive := AtaDrive.prompt.driveNum, present := true
      model := fun _ => 0, sizeMb := 0, isRemovable := false, sectors := 0 }
  driveCount := 1

/-- A sector that `ata.c` writes and `filesystem.c` reads. -/
theorem drivers_share_disk_turns :
    outputs AtaDrive.prompt.sectorCall [.write .ata 5 fun _ => 7, .read .filesystem 5]
      { table := promptTable, selectedDrive := 0, dev := DiskDev.blank }
      = [.code 0, .sector (some fun _ => 7)] := by
  obtain ⟨history, hmap, houts, -, hpossible⟩ := drivers_share_disk AtaDrive.prompt
    { table := promptTable, selectedDrive := 0, dev := DiskDev.blank } ⟨_, rfl, rfl, rfl, rfl⟩
    [.write .ata 5 fun _ => 7, .read .filesystem 5]
  rw [houts]
  rw [AtaDrive.prompt.history_faultless AtaDrive.prompt_inTime (fun _ => rfl) hpossible, hmap]
  simp [outputs, SectorCall.store]

end SzymOS
