import SzymOS.Filesystem.PortDrive
import Mathlib.Logic.Function.Basic

/-!
# `ata.c`

The other driver of the kernel: it finds the drives, keeps a table of them and selects one.  It
runs on the ports of `PortDrive.lean`, with its own two waits, whose counters are decremented in
the body of the loop, and four status reads for every delay of 400 ns.

The table is compacted at every detection: the drives that answer IDENTIFY come first, and
`selected_drive` is an index into it.

The two drivers share no code and no variable but `selected_drive`.  What they do to the ports is
similar and not the same: `ata.c` waits 400 ns between some of its accesses, checks the error bits
in more places and rejects a device whose entry in the table makes no sense.  Each of its functions
is translated by itself for this reason.

`ata_identify` deserves the most care.  It selects a drive, sends IDENTIFY, waits until the drive is
ready or reports an error, and reads 256 words, most of which are ignored.  The rest is decoded into
an entry of the table: the model with its bytes swapped and trailing blanks cut off, the number of
sectors from the words for 28-bit or for 48-bit addresses, and whether the medium can be removed.
-/

set_option autoImplicit false

namespace SzymOS

open Bytes Polling

/-! ## State

The table is an array of four entries with a count.  Entries from the count on are not in use, but
they are there, with what an earlier detection has left in them. -/

/-- `ata_device_t` -/
structure AtaDevice where
  ioBase : UInt16
  drive : UInt8
  present : Bool
  model : ℕ → UInt8
  sizeMb : UInt32
  isRemovable : Bool
  sectors : UInt32

/-- The static variables of `ata.c` other than `selected_drive`, which is in `FsState`.  `drives i`
is an element of the table for `i < 4`. -/
structure AtaTable where
  drives : ℕ → AtaDevice
  driveCount : ℕ

/-- `ata_init`, on variables that are zero. -/
def AtaTable.init : AtaTable where
  drives _ :=
    { ioBase := 0, drive := 0, present := false, model := fun _ => 0, sizeMb := 0
      isRemovable := false, sectors := 0 }
  driveCount := 0

/-- The table, and the ports. -/
structure AtaDev where
  table : AtaTable
  port : PortDev

abbrev AtaWorld := World AtaDev

/-- The platform of `PortDrive.lean`, with a drive table beside it. -/
def ataPlatform (drive : PortDrive) : Platform AtaDev where
  readSector io driveNum lba d :=
    let (sector, port) := portReadSector drive io driveNum lba d.port
    (sector, { d with port })
  writeSector io driveNum lba buffer d :=
    let (result, port) := portWriteSector drive io driveNum lba buffer d.port
    (result, { d with port })
  print call d := { d with port := (portPlatform drive).print call d.port }
  afterHeader _ := drive.afterHeader
  aroundData _ := drive.aroundData

/-! ## Ports

The waits of this file, with their counters, and the delay.  They run on the device of
`PortDrive.lean` and write into the same log. -/

variable (drive : PortDrive)

/-- Send these events to the ports. -/
def PortDev.emit (events : List PortEvent) (d : PortDev) : PortDev :=
  { d with log := d.log ++ events }

/-- Printing adds to the log, and does nothing else. -/
lemma print_ata (calls : List TermCall) (w : AtaWorld) :
    w.print (ataPlatform drive) calls
      = { w with dev := { w.dev with port := w.dev.port.emit (calls.map .term) } } := by
  obtain ⟨fs, dev⟩ := w
  simp only [World.print]
  induction calls generalizing dev with
  | nil => simp [PortDev.emit]
  | cons call calls ih =>
      rw [List.foldl_cons, ih]
      simp [ataPlatform, portPlatform, PortDev.emit]

/-- Read the next `n` status bytes. -/
def readStatuses (io : UInt16) (n : ℕ) (d : PortDev) : PortDev :=
  { d with
    polled := d.polled + n
    log := d.log ++ [.wait (io + 7) (slice drive.status d.polled n)] }

/-- `ata_400ns_delay` -/
def ata400nsDelay (io : UInt16) (d : PortDev) : PortDev := readStatuses drive io 4 d

/-- The two waits of `ata.c`: 0, or -1 on a timeout. -/
def ataWait (waiting : UInt8 → Bool) (io : UInt16) (d : PortDev) : ℤ × PortDev :=
  let (timeout, polled) := countDown waiting drive.status 100000 d.polled
  (if timeout > 0 then 0 else -1, readStatuses drive io (polled - d.polled) d)

def ataWaitBsy : UInt16 → PortDev → ℤ × PortDev := ataWait drive busy

def ataWaitDrq : UInt16 → PortDev → ℤ × PortDev := ataWait drive noRequest

/-- `ATA_SR_ERR` is set. -/
def errorSet (status : UInt8) : Bool := status &&& 0x01 != 0

/-- `ATA_SR_DRDY` is not set. -/
def notReady (status : UInt8) : Bool := !(status &&& 0x40 != 0)

/-! ## ata_identify

The function stores the position into the entry at once and marks the entry as not present; what it
decodes follows at its end.  It returns early in several places, so a drive that gives up halfway
leaves an entry without a drive. -/

/-- Two words of the identification data as one number. -/
def wordPair (hi lo : UInt16) : UInt32 := (hi.toUInt32 <<< 16) ||| lo.toUInt32

/-- The model string as it is copied: words 27 to 46, the high byte of each first, and a NUL. -/
def modelBytes (identify : ℕ → UInt16) (i : ℕ) : UInt8 :=
  if i < 40 then
    if i % 2 = 0 then (identify (27 + i / 2) >>> 8).toUInt8 else (identify (27 + i / 2)).toUInt8
  else 0

/-- The loop that replaces trailing spaces, from index `i - 1` down. -/
def trimSpaces : ℕ → (ℕ → UInt8) → ℕ → UInt8
  | 0, model => model
  | i + 1, model => if model i = 32 then trimSpaces i (Function.update model i 0) else model

/-- What `ata_identify` makes of the identification data. -/
def identified (identify : ℕ → UInt16) (device : AtaDevice) : AtaDevice :=
  let sectors : UInt32 :=
    if identify 83 &&& 0x0400 ≠ 0 then
      if wordPair (identify 103) (identify 102) ≠ 0 then 0xFFFFFFFF
      else wordPair (identify 101) (identify 100)
    else wordPair (identify 61) (identify 60)
  { device with
    model := trimSpaces 40 (modelBytes identify)
    sectors
    sizeMb := sectors / 2048
    isRemovable := identify 0 &&& 0x80 != 0
    present := true }

/-- What selects a drive for `ata_identify` and `ata_select_device`. -/
def deviceEvent (io : UInt16) (driveNum : UInt8) : PortEvent :=
  .outb (io + 6) (UInt8.ofNat (0xA0 ||| (driveNum.toNat <<< 4)))

/-- The flag is the return value. -/
def ataIdentify (io : UInt16) (driveNum : UInt8) (device : AtaDevice) (d : PortDev) :
    Bool × AtaDevice × PortDev :=
  let device := { device with ioBase := io, drive := driveNum, present := false }
  let d := ata400nsDelay drive io (d.emit [deviceEvent io driveNum])
  let d := ata400nsDelay drive io (d.emit [.outb (io + 7) 0xEC])
  let status := drive.status d.polled
  let d := readStatuses drive io 1 d
  if status = 0 then (false, device, d)
  else
    let (timeout, polled) := pollUntil errorSet (fun status => !busy status && !noRequest status)
      drive.status 10000 d.polled
    let d := readStatuses drive io (polled - d.polled) d
    match timeout with
    | none => (false, device, d)
    | some timeout =>
        if timeout ≤ 0 then (false, device, d)
        else
          (true, identified (fun i => drive.words (d.fetched + i)) device,
            { d with fetched := d.fetched + 256, log := d.log ++ List.replicate 256 (.inw io) })

/-! ## ata_detect_drives

The positions are tried in a fixed order, each with the first entry that is not yet in use.  The
count goes up when an attempt succeeds. -/

/-- Port bases and drive numbers, in the order in which they are tried. -/
def positions : List (UInt16 × UInt8) := [(0x1F0, 0), (0x1F0, 1), (0x170, 0), (0x170, 1)]

/-- One attempt: `if (ata_identify(io, drive, &drives[drive_count])) drive_count++;` -/
def detectAt (position : UInt16 × UInt8) (d : AtaDev) : AtaDev :=
  let (found, device, port) := ataIdentify drive position.1 position.2
    (d.table.drives d.table.driveCount) d.port
  { port
    table :=
      { drives := Function.update d.table.drives d.table.driveCount device
        driveCount := if found then d.table.driveCount + 1 else d.table.driveCount } }

def ataDetectDrives (d : AtaDev) : AtaDev :=
  positions.foldl (fun d position => detectAt drive position d)
    { d with table := { d.table with driveCount := 0 } }

/-! ## ata_print_drives

What the user sees of the table, in the dialogue and by the command `disks`. -/

/-- The bytes of a string up to its NUL. -/
def stringAt (mem : ℕ → UInt8) : List UInt8 := slice mem 0 (strlen mem)

/-- What is printed of one drive. -/
def driveReport (i : ℕ) (device : AtaDevice) : List TermCall :=
  [.setcolor (vgaEntryColor .yellow .black), .printf "[%d] " [UInt32.ofNat i],
    .setcolor (vgaEntryColor .white .black),
    .writestring (if device.ioBase = 0x1F0 then "Primary " else "Secondary "),
    .writestring (if device.drive = 0 then "Master" else "Slave"),
    .writestring "\n    Model: ", .writemem (stringAt device.model),
    .printf "\n    Size: %d MB" [device.sizeMb]] ++
  (if device.isRemovable then coloured .lightGreen (.writestring " [REMOVABLE]")
    else coloured .lightRed (.writestring " [FIXED DISK - CAUTION!]")) ++
  [.writestring "\n\n"]

def ataPrintDrives (table : AtaTable) : List TermCall :=
  if table.driveCount = 0 then
    [.setcolor (vgaEntryColor .yellow .black), .writestring "\nNo ATA drives detected.\n",
      .writestring "Filesystem will run in RAM-only mode.\n\n",
      .setcolor (vgaEntryColor .white .black)]
  else
    coloured .lightCyan (.writestring "\n=== Detected Storage Devices ===\n\n") ++
      (List.range table.driveCount).flatMap fun i => driveReport i (table.drives i)

/-! ## Selection

An index is checked against the count.  `ata_select_drive` waits for the drive and stores the index
if it is there. -/

def ataSelectDevice (driveIndex : ℤ) (d : AtaDev) : ℤ × AtaDev :=
  if driveIndex < 0 ∨ driveIndex ≥ d.table.driveCount then (-1, d)
  else
    let device := d.table.drives driveIndex.toNat
    let port := ata400nsDelay drive device.ioBase
      (d.port.emit [deviceEvent device.ioBase device.drive])
    let (result, port) := ataWaitBsy drive device.ioBase port
    if result < 0 then (-1, { d with port })
    else
      let status := drive.status port.polled
      let port := readStatuses drive device.ioBase 1 port
      if notReady status then (-1, { d with port }) else (0, { d with port })

def ataSelectDrive (driveNum : ℤ) (w : AtaWorld) : ℤ × AtaWorld :=
  if driveNum < 0 ∨ driveNum ≥ w.dev.table.driveCount then (-1, w)
  else if !(w.dev.table.drives driveNum.toNat).present then (-1, w)
  else
    let (result, dev) := ataSelectDevice drive driveNum w.dev
    let w := { w with dev }
    if result < 0 then
      (-1, w.print (ataPlatform drive)
        (coloured .lightRed (.writestring "ERROR: Failed to select drive!\n")))
    else
      let w := { w with fs := { w.fs with selectedDrive := driveNum } }
      (0, w.print (ataPlatform drive)
        ([.printf "[DEBUG] selected_drive set to %d (drive_count=%d)\n"
            [UInt32.ofInt driveNum, UInt32.ofNat w.dev.table.driveCount]] ++
          coloured .lightGreen (.formatted "Selected drive %d: %s\n"
            [.num (UInt32.ofInt driveNum),
              .str (stringAt (w.dev.table.drives driveNum.toNat).model)])))

/-- `none` is a null pointer. -/
def ataGetDrive (table : AtaTable) (index : ℤ) : Option AtaDevice :=
  if index < 0 ∨ index ≥ table.driveCount then none else some (table.drives index.toNat)

/-! ## Sectors

Both functions check the selection first, then the entry, and then go to the ports.  An LBA has 28
bits here: higher ones are not sent. -/

/-- Select the drive, wait, and give the address of one sector and the command. -/
def requestSector (device : AtaDevice) (lba : ℕ) (command : UInt8) (d : PortDev) : PortDev :=
  let io := device.ioBase
  let d := d.emit [.outb (io + 6)
    (UInt8.ofNat (0xE0 ||| (device.drive.toNat <<< 4) ||| ((lba >>> 24) &&& 0x0F)))]
  (ata400nsDelay drive io d).emit
    [.outb (io + 2) 1, .outb (io + 3) (UInt8.ofNat lba), .outb (io + 4) (UInt8.ofNat (lba >>> 8)),
      .outb (io + 5) (UInt8.ofNat (lba >>> 16)), .outb (io + 7) command]

/-- The entry that `ata_read_sector` and `ata_write_sector` use, when the index is in range. -/
def selectedDevice (w : AtaWorld) : Option AtaDevice := ataGetDrive w.dev.table w.fs.selectedDrive

/-- `ata_read_sector` and `ata_write_sector` after their checks, up to the transfer: whether the
drive has asked for data, and what to print if it has not. -/
def ataRequest (device : AtaDevice) (lba : ℕ) (command : UInt8) (busyError drqError : String)
    (d : PortDev) : Bool × PortDev :=
  let (result, d) := ataWaitBsy drive device.ioBase d
  if result < 0 then (false, d.emit [.term (.writestring busyError)])
  else
    let (result, d) := ataWaitDrq drive device.ioBase (requestSector drive device lba command d)
    if result < 0 then (false, d.emit [.term (.writestring drqError)]) else (true, d)

def ataWriteSector (lba : ℕ) (buffer : Sector) (w : AtaWorld) : ℤ × AtaWorld :=
  let printed (calls : List TermCall) : AtaWorld := w.print (ataPlatform drive) calls
  match selectedDevice w with
  | none => (-1, printed [.writestring "[DEBUG] Invalid selected_drive index\n"])
  | some device =>
      if !device.present ∨ device.ioBase = 0 then
        (-1, printed [.printf "[DEBUG] Drive %d corrupted: present=%d, io_base=0x%x\n"
          [UInt32.ofInt w.fs.selectedDrive, if device.present then 1 else 0,
            device.ioBase.toUInt32]])
      else
        let w := printed [.printf "[DEBUG] Writing to drive %d, LBA %d, IO base 0x%x\n"
          [UInt32.ofInt w.fs.selectedDrive, UInt32.ofNat lba, device.ioBase.toUInt32]]
        let (ready, port) := ataRequest drive device lba 0x30
          "[ATA ERROR] Timeout waiting for BSY\n" "[ATA ERROR] Timeout waiting for DRQ\n" w.dev.port
        if !ready then (-1, { w with dev := { w.dev with port } })
        else
          let port := port.emit
            ((List.range 256).map fun i => .outw device.ioBase (bufferWord buffer i))
          let (result, port) := ataWaitBsy drive device.ioBase port
          if result < 0 then
            (-1, { w with dev := { w.dev with
              port := port.emit [.term (.writestring "[ATA ERROR] Timeout after write\n")] } })
          else (0, { w with dev := { w.dev with port } })

def ataReadSector (lba : ℕ) (w : AtaWorld) : Option Sector × AtaWorld :=
  let printed (calls : List TermCall) : AtaWorld := w.print (ataPlatform drive) calls
  match selectedDevice w with
  | none => (none, printed [.writestring "[ATA ERROR] Read - invalid drive index\n"])
  | some device =>
      if !device.present ∨ device.ioBase = 0 then
        (none, printed [.writestring "[ATA ERROR] Read - drive data corrupted\n"])
      else
        let (ready, port) := ataRequest drive device lba 0x20
          "[ATA ERROR] Read timeout waiting for BSY\n" "[ATA ERROR] Read timeout waiting for DRQ\n"
          w.dev.port
        if !ready then (none, { w with dev := { w.dev with port } })
        else
          (some (bufferOfWords fun i => drive.words (port.fetched + i)),
            { w with dev := { w.dev with
                port := { port with
                  fetched := port.fetched + 256
                  log := port.log ++ List.replicate 256 (.inw device.ioBase) } } })

end SzymOS
