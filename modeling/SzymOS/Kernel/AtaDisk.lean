import SzymOS.Filesystem.Ports
import SzymOS.Filesystem.SaveLoad
import SzymOS.Kernel.Confinement

/-!
# A disk behind the ports

An ATA drive as the ports show it: registers that keep what is written to them, a transfer that a
command starts and 256 words on the data port carry out, and the sectors.  When its status bytes
come, and whether it keeps a sector that it has taken, is left open: both are streams.

This is the device that the driver is written for, and it is described from the side of the device.
It obeys a command only if it is the one that is selected on its channel, and only for one sector at
a time; it hands out and takes in words as long as a transfer is under way.  It makes no assumption
on the driver: registers may be written in any order, words may be read when there are none, and a
transfer may be left unfinished.

What it promises is as little as possible.  The status bytes may be anything at any time, so a
driver that relies on them may be told that the drive is ready when it is not, or wait in vain; and
a sector that has been taken completely may be lost.  That `filesystem.c` works on this device as on
an array of sectors, for some outcome of each access, is thus no assumption about its timing.

* `showsAs_disk` — for `filesystem.c` such a drive is one made of sectors.
* `ports_refine_sectors` — every run of calls on the ports is one on the sectors, whatever the drive
  answers.

The driver is run on the device by the closed forms of its loops: `pollWhile_machine` for a wait,
`sendCommand_machine` for a command with its registers, `readWords_machine` and `writeWords_machine`
for the 256 words.  `sent_accepted` and `addressed_sent` say that a command which the driver sends
is for one sector of the drive that is selected, and which sector it is.  Put together they give the
two functions on sectors as they are seen from outside (`fsReadSector_machine`,
`fsWriteSector_machine`), and these are what `ShowsAs` asks for.
-/

set_option autoImplicit false

namespace SzymOS

open Bytes Blocks Transition Oracle

/-! ## The drive

Registers are those of the channel.  The command register is not among them: a write to it is an
order, and what comes of it is the state of the transfer. -/

/-- A drive at one of the four positions: its status bytes, in the order in which they are read,
and which of the sectors it takes it keeps. -/
structure AtaDrive extends DriveId where
  position : (ioBase, driveNum) ∈ positions
  status : ℕ → UInt8
  keeps : ℕ → Bool
  afterHeader : ℕ → UInt8
  aroundData : ℕ → UInt8

/-- What the drive is doing. -/
inductive Transfer where
  | idle
  | reading (sector : Sector) (given : ℕ)
  | writing (lba : ℕ) (taken : List UInt16)

/-- The state of the drive, and what has been sent to the terminal. -/
structure DiskDev where
  regs : Registers
  transfer : Transfer
  disk : ℕ → Sector
  polled : ℕ
  completed : ℕ
  term : List TermCall

namespace AtaDrive

variable (a : AtaDrive)

/-- A command is for this drive if it is the one selected; it is taken for one sector only. -/
def obey (command : UInt8) (d : DiskDev) : DiskDev :=
  if d.regs (a.ioBase + 6) &&& (0x10 : UInt8) ≠ a.driveNum <<< (4 : UInt8) ∨
      d.regs (a.ioBase + 2) ≠ 1 then
    { d with transfer := .idle }
  else if command = 0x20 then
    { d with transfer := .reading (d.disk (addressed d.regs a.ioBase)) 0 }
  else if command = 0x30 then { d with transfer := .writing (addressed d.regs a.ioBase) [] }
  else { d with transfer := .idle }

/-- The next word of a sector that is read. -/
def give (d : DiskDev) : UInt16 × DiskDev :=
  match d.transfer with
  | .reading sector given =>
      (bufferWord sector given,
        { d with transfer := if given + 1 < 256 then .reading sector (given + 1) else .idle })
  | _ => (0xFFFF, d)

/-- A word of a sector that is written; with the last one the sector is complete. -/
def take (word : UInt16) (d : DiskDev) : DiskDev :=
  match d.transfer with
  | .writing lba taken =>
      let taken := taken ++ [word]
      if taken.length < 256 then { d with transfer := .writing lba taken }
      else
        { d with
          transfer := .idle
          completed := d.completed + 1
          disk :=
            if a.keeps d.completed then
              Function.update d.disk lba (bufferOfWords fun i => taken.getD i 0)
            else d.disk }
  | _ => d

/-- The ports with this drive behind them. -/
def machine : PortMachine DiskDev where
  inb port d :=
    if port = a.ioBase + 7 then (a.status d.polled, { d with polled := d.polled + 1 })
    else (d.regs port, d)
  outb port value d :=
    let d := { d with regs := Function.update d.regs port value }
    if port = a.ioBase + 7 then a.obey value d else d
  inw port d := if port = a.ioBase then give d else (0xFFFF, d)
  outw port value d := if port = a.ioBase then a.take value d else d
  print call d := { d with term := d.term ++ [call] }
  afterHeader _ := a.afterHeader
  aroundData _ := a.aroundData

end AtaDrive

/-- What shows of it: the sectors, and the terminal without the messages of the driver. -/
def DiskDev.view (d : DiskDev) : SectorDev where
  disk := d.disk
  term := d.term.filter fun call => !driverMessage call

/-! ## What the driver does to it

The effect of the loops of the driver on the device, each by induction on the number of accesses.  A
command reaches the device with the registers that were set just before, so the sector it names is
the one the driver was asked for. -/

namespace AtaDrive

variable (a : AtaDrive)

lemma inb_status (d : DiskDev) : a.machine.inb (a.ioBase + 7) d
    = (a.status d.polled, { d with polled := d.polled + 1 }) :=
  if_pos rfl

/-- A register other than the command register keeps what is written to it. -/
lemma outb_register (k : UInt16) (hk : k ≠ 7) (value : UInt8) (d : DiskDev) :
    a.machine.outb (a.ioBase + k) value d
      = { d with regs := Function.update d.regs (a.ioBase + k) value } :=
  if_neg fun hc => hk ((UInt16.add_right_inj a.ioBase).mp hc)

/-- A wait reads status bytes, and that is all. -/
lemma pollWhile_machine (waiting : UInt8 → Bool) (t : ℕ) (d : DiskDev) :
    a.machine.pollWhile waiting (a.ioBase + 7) t d
      = ((Polling.poll waiting a.status t d.polled).1,
        { d with polled := (Polling.poll waiting a.status t d.polled).2 }) := by
  induction t generalizing d with
  | zero =>
      rw [PortMachine.pollWhile, a.inb_status, Polling.poll]
      simp only
      split_ifs <;> rfl
  | succ t ih =>
      rw [PortMachine.pollWhile, a.inb_status, Polling.poll]
      simp only
      split_ifs
      · exact ih _
      · rfl

/-- The registers after a command. -/
def sentRegisters (lba : ℕ) (command : UInt8) (regs : Registers) : Registers :=
  Function.update (final setRegister (selectEvents a.ioBase a.driveNum lba) regs) (a.ioBase + 7)
    command

/-- A command reaches the drive when all the registers are set. -/
lemma sendCommand_machine (lba : ℕ) (command : UInt8) (d : DiskDev) :
    a.machine.sendCommand a.ioBase a.driveNum lba command d
      = a.obey command { d with regs := a.sentRegisters lba command d.regs } := by
  rw [PortMachine.sendCommand, a.outb_register 6 (by decide), a.outb_register 2 (by decide),
    a.outb_register 3 (by decide), a.outb_register 4 (by decide), a.outb_register 5 (by decide)]
  exact if_pos rfl

/-- The registers are those of `selectEvents`, but for the command register. -/
lemma sentRegisters_of_ne {k : UInt16} (hk : k ≠ 7) (lba : ℕ) (command : UInt8)
    (regs : Registers) : a.sentRegisters lba command regs (a.ioBase + k)
      = final setRegister (selectEvents a.ioBase a.driveNum lba) regs (a.ioBase + k) :=
  Function.update_of_ne (fun hc => hk ((UInt16.add_right_inj a.ioBase).mp hc)) _ _

/-- A drive is the first on its channel or the second. -/
lemma driveNum_cases : a.driveNum = 0 ∨ a.driveNum = 1 := by
  have hpos := a.position
  simp only [positions, List.mem_cons, Prod.mk.injEq, List.not_mem_nil, or_false] at hpos
  rcases hpos with ⟨-, h⟩ | ⟨-, h⟩ | ⟨-, h⟩ | ⟨-, h⟩
  · exact .inl h
  · exact .inr h
  · exact .inl h
  · exact .inr h

/-- The sector that is addressed: the registers have room for 28 bits. -/
lemma addressed_sent (lba : ℕ) (command : UInt8) (regs : Registers) :
    addressed (a.sentRegisters lba command regs) a.ioBase = lba % 2 ^ 28 := by
  have htop : (224 ||| a.driveNum.toNat <<< 4 % 256 ||| lba >>> 24 % 256 &&& 15) % 16
      = lba >>> 24 % 16 := by
    have hmask : lba >>> 24 % 256 &&& 15 = lba >>> 24 % 16 :=
      (Nat.and_two_pow_sub_one_eq_mod _ 4).trans (by omega)
    have hall : ∀ x < 16, (224 ||| 0 <<< 4 % 256 ||| x) % 16 = x ∧
        (224 ||| 1 <<< 4 % 256 ||| x) % 16 = x := by decide
    have hlt : lba >>> 24 % 16 < 16 := Nat.mod_lt _ (by decide)
    rw [hmask]
    rcases a.driveNum_cases with h | h
    · rw [h]
      exact (hall _ hlt).1
    · rw [h]
      exact (hall _ hlt).2
  rw [addressed, a.sentRegisters_of_ne (by decide), a.sentRegisters_of_ne (by decide),
    a.sentRegisters_of_ne (by decide), a.sentRegisters_of_ne (by decide)]
  simp [selectEvents, setRegister, Function.update, htop]
  simp only [Nat.shiftRight_eq_div_pow]
  omega

/-- The drive and the number of sectors are right. -/
lemma sent_accepted (lba : ℕ) (command : UInt8) (regs : Registers) :
    ¬ (a.sentRegisters lba command regs (a.ioBase + 6) &&& (0x10 : UInt8)
        ≠ a.driveNum <<< (4 : UInt8) ∨ a.sentRegisters lba command regs (a.ioBase + 2) ≠ 1) := by
  have hbit : ((224 : UInt8) ||| a.driveNum <<< (4 : UInt8) ||| UInt8.ofNat (lba >>> 24)
      &&& (15 : UInt8)) &&& (16 : UInt8) = a.driveNum <<< (4 : UInt8) := by
    -- the four low bits are those of the address
    have hlow : ∃ x < 16, UInt8.ofNat (lba >>> 24) &&& (15 : UInt8) = UInt8.ofNat x := by
      refine ⟨lba >>> 24 % 16, Nat.mod_lt _ (by decide), UInt8.toNat_inj.mp ?_⟩
      rw [UInt8.toNat_and, UInt8.toNat_ofNat', UInt8.toNat_ofNat']
      have hmask : ∀ n : ℕ, n &&& 15 = n % 16 := fun n => Nat.and_two_pow_sub_one_eq_mod n 4
      refine (hmask _).trans ?_
      omega
    obtain ⟨x, hx, heq⟩ := hlow
    have hall : ∀ x < 16,
        ((224 : UInt8) ||| 0 <<< (4 : UInt8) ||| UInt8.ofNat x) &&& (16 : UInt8)
          = 0 <<< (4 : UInt8) ∧
        ((224 : UInt8) ||| 1 <<< (4 : UInt8) ||| UInt8.ofNat x) &&& (16 : UInt8)
          = 1 <<< (4 : UInt8) := by decide
    rw [heq]
    rcases a.driveNum_cases with h | h
    · rw [h]
      exact (hall x hx).1
    · rw [h]
      exact (hall x hx).2
  rw [a.sentRegisters_of_ne (by decide), a.sentRegisters_of_ne (by decide)]
  simp [selectEvents, setRegister, Function.update, hbit]

/-- **A READ command** starts the transfer of a sector. -/
lemma sendCommand_read (lba : ℕ) (d : DiskDev) :
    a.machine.sendCommand a.ioBase a.driveNum lba 0x20 d
      = { d with
          regs := a.sentRegisters lba 0x20 d.regs
          transfer := .reading (d.disk (lba % 2 ^ 28)) 0 } := by
  rw [a.sendCommand_machine, obey, if_neg (a.sent_accepted _ _ _), if_pos rfl]
  simp only [a.addressed_sent]

/-- **A WRITE command.** -/
lemma sendCommand_write (lba : ℕ) (d : DiskDev) :
    a.machine.sendCommand a.ioBase a.driveNum lba 0x30 d
      = { d with
          regs := a.sentRegisters lba 0x30 d.regs
          transfer := .writing (lba % 2 ^ 28) [] } := by
  rw [a.sendCommand_machine, obey, if_neg (a.sent_accepted _ _ _), if_neg (by decide),
    if_pos rfl]
  simp only [a.addressed_sent]

/-- The words of a sector that is read. -/
lemma readWords_machine (sector : Sector) (n k : ℕ) (hend : k + n = 256) (d : DiskDev)
    (h : d.transfer = if k < 256 then .reading sector k else .idle) :
    a.machine.readWords a.ioBase n d
      = ((List.range' k n).map (bufferWord sector), { d with transfer := .idle }) := by
  induction n generalizing k d with
  | zero =>
      rw [if_neg (by omega)] at h
      rw [PortMachine.readWords, ← h]
      rfl
  | succ n ih =>
      rw [if_pos (by omega)] at h
      have hinw : a.machine.inw a.ioBase d = (bufferWord sector k,
          { d with transfer := if k + 1 < 256 then .reading sector (k + 1) else .idle }) := by
        refine (if_pos rfl).trans ?_
        rw [give, h]
      rw [PortMachine.readWords, hinw]
      simp only
      rw [ih (k + 1) (by omega) _ rfl, List.range'_succ]
      rfl

/-- The words of a sector that is written. -/
lemma writeWords_machine (lba : ℕ) (buffer : Sector) (n k : ℕ) (hend : k + (n + 1) = 256)
    (d : DiskDev) (h : d.transfer = .writing lba ((List.range k).map (bufferWord buffer))) :
    a.machine.writeWords a.ioBase buffer (n + 1) k d
      = { d with
          transfer := .idle
          completed := d.completed + 1
          disk :=
            if a.keeps d.completed then
              Function.update d.disk lba
                (bufferOfWords fun i => ((List.range 256).map (bufferWord buffer)).getD i 0)
            else d.disk } := by
  have houtw : ∀ word d, a.machine.outw a.ioBase word d = a.take word d := fun _ _ => if_pos rfl
  have hsnoc : ∀ k, (List.range k).map (bufferWord buffer) ++ [bufferWord buffer k]
      = (List.range (k + 1)).map (bufferWord buffer) := by
    intro k
    rw [List.range_succ, List.map_append, List.map_singleton]
  induction n generalizing k d with
  | zero =>
      have hk : k + 1 = 256 := hend
      rw [PortMachine.writeWords, PortMachine.writeWords, houtw, take, h]
      simp only [hsnoc, hk, List.length_map, List.length_range, Nat.lt_irrefl, if_false]
  | succ n ih =>
      have hk : k + 1 < 256 := by omega
      rw [PortMachine.writeWords, houtw, take, h]
      simp only [hsnoc, List.length_map, List.length_range, hk, if_true]
      rw [ih (k + 1) (by omega) { d with
        transfer := .writing lba ((List.range (k + 1)).map (bufferWord buffer)) } rfl]

/-- A sector survives being sent word by word. -/
lemma bufferOfWords_bufferWord (buffer : Sector) :
    bufferOfWords (fun i => ((List.range 256).map (bufferWord buffer)).getD i 0) = buffer := by
  funext j
  have hj : (j : ℕ) / 2 < 256 := by omega
  have hword : ((List.range 256).map (bufferWord buffer)).getD (j / 2) 0
      = bufferWord buffer (j / 2) := by
    simp [hj]
  have hbyte : buffer.byte j = buffer j := by
    rw [Sector.byte]
    congr 1
    exact Fin.ext (Nat.mod_eq_of_lt j.isLt)
  have hlo := (buffer.byte (2 * (j / 2))).toNat_lt
  have hhi := (buffer.byte (2 * (j / 2) + 1)).toNat_lt
  have hvalue : (bufferWord buffer (j / 2)).toNat = (buffer.byte (2 * (j / 2))).toNat
      + 256 * (buffer.byte (2 * (j / 2) + 1)).toNat := by
    rw [bufferWord, UInt16.toNat_ofNat', Nat.mod_eq_of_lt (by omega)]
  simp only [bufferOfWords]
  rw [hword, hvalue, ← hbyte]
  refine UInt8.toNat_inj.mp ?_
  rw [UInt8.toNat_ofNat']
  rcases Nat.mod_two_eq_zero_or_one j with hmod | hmod
  · have hpos : 2 * ((j : ℕ) / 2) = j := by omega
    rw [hmod, hpos]
    rw [hpos] at hlo
    omega
  · have hpos : 2 * ((j : ℕ) / 2) + 1 = j := by omega
    rw [hmod, hpos]
    rw [hpos] at hhi
    omega

/-! ## The drive shows as sectors

What shows of the device is its sectors and the terminal.  A read hands out the sector or fails; a
write is given up, or it is complete and the sector is kept or lost.  These are the outcomes of a
drive made of sectors, so its results hold here. -/

/-- The drive answers every wait in time: of 100000 status bytes in a row one has BSY clear, and
one has DRQ set. -/
structure InTime : Prop where
  ready : ∀ n, ∃ k < 100000, Polling.FirstAt busy a.status n k
  asks : ∀ n, ∃ k < 100000, Polling.FirstAt noRequest a.status n k

/-- It keeps every sector it has taken. -/
def KeepsAll : Prop := ∀ n, a.keeps n = true

/-- **A sector that is read** is the one on the disk. -/
lemma fsReadSector_machine (lba : ℕ) (d : DiskDev) :
    ∃ readable : Bool, (a.machine.fsReadSector a.ioBase a.driveNum lba d).1
        = (if readable then some (d.disk (lba % 2 ^ 28)) else none) ∧
      (a.machine.fsReadSector a.ioBase a.driveNum lba d).2.view = d.view ∧
      (a.InTime → readable = true) := by
  rw [PortMachine.fsReadSector, a.pollWhile_machine]
  simp only
  by_cases hbusy : (Polling.poll busy a.status 100000 d.polled).1 ≤ 0
  · rw [if_pos hbusy]
    refine ⟨false, rfl, rfl, fun htime => ?_⟩
    have hready := (Polling.poll_pos_iff 100000 d.polled).mpr (htime.ready d.polled)
    omega
  · rw [if_neg hbusy, a.sendCommand_read, a.pollWhile_machine]
    simp only
    by_cases hrequest : (Polling.poll noRequest a.status 100000
        (Polling.poll busy a.status 100000 d.polled).2).1 ≤ 0
    · rw [if_pos hrequest]
      refine ⟨false, rfl, rfl, fun htime => ?_⟩
      have hasked := (Polling.poll_pos_iff 100000 _).mpr
        (htime.asks (Polling.poll busy a.status 100000 d.polled).2)
      omega
    · rw [if_neg hrequest, a.readWords_machine (d.disk (lba % 2 ^ 28)) 256 0 rfl _ rfl,
        ← List.range_eq_range']
      refine ⟨true, ?_, rfl, fun _ => rfl⟩
      simp only [bufferOfWords_bufferWord, if_true]

/-- **A sector that is written** is on the disk, or the disk is what it was. -/
lemma fsWriteSector_machine (lba : ℕ) (buffer : Sector) (d : DiskDev) :
    ∃ outcome, (a.machine.fsWriteSector a.ioBase a.driveNum lba buffer d).1
        = (writeOutcome outcome (lba % 2 ^ 28) buffer d.view).1 ∧
      (a.machine.fsWriteSector a.ioBase a.driveNum lba buffer d).2.view
        = (writeOutcome outcome (lba % 2 ^ 28) buffer d.view).2 ∧
      (a.InTime → outcome ≠ .refused) ∧ (a.KeepsAll → outcome ≠ .lost) := by
  have hmessage : ∀ (text : String) (d : DiskDev), driverMessage (.writestring text) = true →
      (a.machine.print (.writestring text) d).view = d.view := by
    intro text d htext
    simp [machine, DiskDev.view, htext]
  rw [PortMachine.fsWriteSector, a.pollWhile_machine]
  simp only
  by_cases hbusy : (Polling.poll busy a.status 100000 d.polled).1 ≤ 0
  · rw [if_pos hbusy]
    refine ⟨.refused, rfl, hmessage _ _ rfl, fun htime => ?_, fun _ => by simp⟩
    have hready := (Polling.poll_pos_iff 100000 d.polled).mpr (htime.ready d.polled)
    omega
  · rw [if_neg hbusy, a.sendCommand_write, a.pollWhile_machine]
    simp only
    by_cases hrequest : (Polling.poll noRequest a.status 100000
        (Polling.poll busy a.status 100000 d.polled).2).1 ≤ 0
    · rw [if_pos hrequest]
      refine ⟨.refused, rfl, hmessage _ _ rfl, fun htime => ?_, fun _ => by simp⟩
      have hasked := (Polling.poll_pos_iff 100000 _).mpr
        (htime.asks (Polling.poll busy a.status 100000 d.polled).2)
      omega
    · rw [if_neg hrequest, a.writeWords_machine (lba % 2 ^ 28) buffer 255 0 rfl _ rfl,
        a.pollWhile_machine, bufferOfWords_bufferWord]
      simp only
      by_cases hkeeps : a.keeps d.completed = true
      · refine ⟨.stored, rfl, ?_, fun _ => by simp, fun _ => by simp⟩
        simp only [hkeeps, if_true]
        rfl
      · refine ⟨.lost, rfl, ?_, fun _ => by simp, fun hall => absurd (hall _) hkeeps⟩
        simp only [hkeeps]
        rfl

lemma region_mod {lba : ℕ} (h : InRegion lba) : lba % 2 ^ 28 = lba := by
  obtain ⟨-, hend⟩ := h
  simp only [fsStartSector, headerSectors, dataSectors] at hend
  omega

lemma print_machine (call : TermCall) (d : DiskDev) (h : driverMessage call = false) :
    (a.machine.toPlatform.print call d).view
      = { d.view with term := d.view.term ++ [call] } := by
  simp [PortMachine.toPlatform, machine, DiskDev.view, h]

/-- **For `filesystem.c` the drive is one made of sectors.** -/
theorem showsAs_disk : ShowsAs a.machine.toPlatform
    (fun o => sectorPlatform (SectorOracle.env a.afterHeader a.aroundData o)) a.ioBase a.driveNum
      DiskDev.view := by
  refine showsAs_sectors ?_ ?_ a.print_machine (fun _ => rfl) fun _ => rfl
  · intro lba d hlba
    obtain ⟨readable, hsector, hview, -⟩ := a.fsReadSector_machine lba d
    rw [region_mod hlba] at hsector
    exact ⟨readable, hsector, hview⟩
  · intro lba buffer d hlba
    obtain ⟨outcome, hresult, hview, -, -⟩ := a.fsWriteSector_machine lba buffer d
    rw [region_mod hlba] at hresult hview
    exact ⟨outcome, hresult, hview⟩

/-- The machine when `disk_selector_run` has handed this drive over. -/
def selected (d : DiskDev) : World DiskDev where
  fs := FsState.selected (some a.toDriveId)
  dev := d

end AtaDrive

/-- **The ports refine the sectors.**  Whatever the drive answers and whichever sectors it keeps,
every run of calls on its ports has the results of a run on a drive made of sectors, for some
`Env` at each call; it ends with the same variables and with the same sectors, and the terminal
has been sent the same, but for the messages of the driver. -/
theorem ports_refine_sectors (a : AtaDrive) (d : DiskDev) (calls : List FsCall) :
    ∃ history : List (Env × FsCall), history.map Prod.snd = calls ∧
      outputs (fsCall a.machine.toPlatform) calls (a.selected d)
        = outputs diskStep history ((a.selected d).map DiskDev.view) ∧
      (final (fsCall a.machine.toPlatform) calls (a.selected d)).map DiskDev.view
        = final diskStep history ((a.selected d).map DiskDev.view) := by
  obtain ⟨history, hcalls, houts, hfinal⟩ :=
    a.showsAs_disk.run calls (w := a.selected d) fun _ => ⟨rfl, rfl⟩
  refine ⟨history.map fun e => (SectorOracle.env a.afterHeader a.aroundData e.1, e.2), ?_, ?_, ?_⟩
  · rw [List.map_map]
    exact hcalls
  · rw [outputs_map]
    exact houts
  · rw [final_map]
    exact hfinal

/-! ## A drive that answers in time

Of a device whose status bytes come within the counters of the driver and which keeps what it takes,
more can be said: every outcome is the good one. -/

namespace AtaDrive

variable (a : AtaDrive)

/-- Nothing goes wrong. -/
def faultlessEnv : Env where
  read _ := true
  write _ := .stored
  afterHeader := a.afterHeader
  aroundData := a.aroundData

/-- A drive that answers in time and keeps what it takes is one on which nothing goes wrong. -/
theorem showsAs_faultless (htime : a.InTime) (hkeeps : a.KeepsAll) :
    ShowsAs a.machine.toPlatform (fun _ => sectorPlatform a.faultlessEnv) a.ioBase a.driveNum
      DiskDev.view where
  read lba d hlba := by
    obtain ⟨readable, hsector, hview, htrue⟩ := a.fsReadSector_machine lba d
    rw [htrue htime, region_mod hlba] at hsector
    exact explained_of_eq fun _ => Prod.ext hsector.symm hview.symm
  write lba buffer d hlba := by
    obtain ⟨outcome, hresult, hview, hrefused, hlost⟩ :=
      a.fsWriteSector_machine lba buffer d
    have hstored : outcome = .stored := by
      cases outcome with
      | stored => rfl
      | lost => exact absurd rfl (hlost hkeeps)
      | refused => exact absurd rfl (hrefused htime)
    rw [hstored, region_mod hlba] at hresult hview
    exact explained_of_eq fun _ => Prod.ext hresult.symm hview.symm
  print _ call d hcall := (a.print_machine call d hcall).symm
  afterHeader _ _ := rfl
  aroundData _ _ := rfl

end AtaDrive

end SzymOS
