import SzymOS.Filesystem.Ports
import SzymOS.Kernel.Ata

/-!
# `ata.c`, one port access at a time

`Ata.lean` takes a whole wait at once from a stream of answers, and so does all that is said of the
detection, of the dialogue and of the two sector functions.  Here every function of `ata.c` that
touches the ports is translated a second time, access by access, over ports that may do anything.

The second translation has the same shape as the first, function by function, and differs in what it
takes from the device: a single answer where the first takes a wait.  The comparison is therefore a
walk through both in parallel.  It needs closed forms for the two kinds of loops, and for the rest
only that the log of the one is the log of the other with each wait spread out into its reads.

* `PortMachine.AccessRel` — what holds across every access but a written word holds across a
  detection.
* `AtaCall` — what the rest of the kernel asks of `ata.c`.
* `PortMachine.ataCall`, `ataCall` — a call, access by access, and a call of `Ata.lean`.
* `ata_streams_agree` — every run of calls has the same results, and the same log, spread out.

A function of the first translation and its counterpart are compared on a state and on that state
with its log spread out (`ataIdentify_spread`, `ataDetectDrives_spread`, `ataSelectDrive_spread`,
`ataWriteSector_spread`, `ataReadSector_spread`).  Each of these lemmas uses those of the functions
that are called, so that no loop is looked at twice; `ataCall_spread` collects them, and the theorem
on runs is an induction over the calls.
-/

set_option autoImplicit false

namespace SzymOS

open Bytes Polling Transition

variable {σ : Type}

/-! ## The functions

All of them take the table and the device and return both, as the C functions change the static
variables.  Calls to the terminal go to the device as well, since they stand in its log. -/

/-- The static variables of `ata.c`, and what is behind the ports. -/
structure AtaState (σ : Type) where
  table : AtaTable
  selectedDrive : ℤ
  dev : σ

/-- A call to the terminal. -/
def AtaState.print (M : PortMachine σ) (call : TermCall) (s : AtaState σ) : AtaState σ :=
  { s with dev := M.print call s.dev }

/-- What ends the loop of `ata_identify`. -/
def identifyDone (status : UInt8) : Bool := !busy status && !noRequest status

namespace PortMachine

variable (M : PortMachine σ)

/-! ### Waits

The loops that count down read the status once more after the counter has reached 0, and the delay
reads it four times for the time that this takes. -/

/-- `while (waiting(inb(port)) && timeout > 0) timeout--;` with the final counter. -/
def countDownWhile (waiting : UInt8 → Bool) (port : UInt16) : (timeout : ℕ) → σ → ℕ × σ
  | 0, d => (0, (M.inb port d).2)
  | timeout + 1, d =>
      let (status, d) := M.inb port d
      if waiting status then countDownWhile waiting port timeout d else (timeout + 1, d)

/-- `inb(port)`, `n` times. -/
def discard (port : UInt16) : (n : ℕ) → σ → σ
  | 0, d => d
  | n + 1, d => discard port n (M.inb port d).2

/-- `ata_wait_bsy` and `ata_wait_drq` -/
def ataWait (waiting : UInt8 → Bool) (io : UInt16) (d : σ) : ℤ × σ :=
  let (timeout, d) := M.countDownWhile waiting (io + 7) 100000 d
  (if timeout > 0 then 0 else -1, d)

/-- `ata_400ns_delay` -/
def ata400nsDelay (io : UInt16) (d : σ) : σ := M.discard (io + 7) 4 d

/-! ### Identification

The loop of `ata_identify` has three ways out: an error, a drive that is ready, and a counter that
is used up.  The 256 words are read in the second case only. -/

/-- The loop of `ata_identify`: the final counter, or nothing if it returned from inside. -/
def identifyLoop (port : UInt16) : (timeout : ℕ) → σ → Option ℤ × σ
  | 0, d => (some (-1), d)
  | timeout + 1, d =>
      let (status, d) := M.inb port d
      if errorSet status then (none, d)
      else if identifyDone status then (some timeout, d)
      else identifyLoop port timeout d

/-- `ata_identify` from its loop on. -/
def identifyData (io : UInt16) (timeout : ℕ) (device : AtaDevice) (d : σ) :
    Bool × AtaDevice × σ :=
  match M.identifyLoop (io + 7) timeout d with
  | (none, d) => (false, device, d)
  | (some timeout, d) =>
      if timeout ≤ 0 then (false, device, d)
      else
        let (words, d) := M.readWords io 256 d
        (true, identified (fun i => words.getD i 0) device, d)

def ataIdentify (io : UInt16) (driveNum : UInt8) (device : AtaDevice) (d : σ) :
    Bool × AtaDevice × σ :=
  let device := { device with ioBase := io, drive := driveNum, present := false }
  let d := M.outb (io + 6) (UInt8.ofNat (0xA0 ||| (driveNum.toNat <<< 4))) d
  let d := M.ata400nsDelay io d
  let d := M.outb (io + 7) 0xEC d
  let d := M.ata400nsDelay io d
  let (status, d) := M.inb (io + 7) d
  if status = 0 then (false, device, d) else M.identifyData io 10000 device d

/-! ### Detection and selection

The four positions one after the other, and the registers that are written when a drive is selected.
-/

/-- `if (ata_identify(io, drive, &drives[drive_count])) drive_count++;` -/
def detectAt (position : UInt16 × UInt8) : AtaTable × σ → AtaTable × σ
  | (table, d) =>
      let (found, device, d) :=
        M.ataIdentify position.1 position.2 (table.drives table.driveCount) d
      ({ drives := Function.update table.drives table.driveCount device
         driveCount := if found then table.driveCount + 1 else table.driveCount }, d)

def ataDetectDrives (table : AtaTable) (d : σ) : AtaTable × σ :=
  positions.foldl (fun s position => M.detectAt position s) ({ table with driveCount := 0 }, d)

def ataSelectDevice (table : AtaTable) (driveIndex : ℤ) (d : σ) : ℤ × σ :=
  if driveIndex < 0 ∨ driveIndex ≥ table.driveCount then (-1, d)
  else
    let device := table.drives driveIndex.toNat
    let d := M.outb (device.ioBase + 6)
      (UInt8.ofNat (0xA0 ||| (device.drive.toNat <<< 4))) d
    let d := M.ata400nsDelay device.ioBase d
    let (result, d) := M.ataWait busy device.ioBase d
    if result < 0 then (-1, d)
    else
      let (status, d) := M.inb (device.ioBase + 7) d
      if notReady status then (-1, d) else (0, d)

/-- Several calls to the terminal. -/
def printAll (calls : List TermCall) (d : σ) : σ := calls.foldl (fun d call => M.print call d) d

def ataSelectDrive (driveNum : ℤ) (s : AtaState σ) : ℤ × AtaState σ :=
  if driveNum < 0 ∨ driveNum ≥ s.table.driveCount then (-1, s)
  else if !(s.table.drives driveNum.toNat).present then (-1, s)
  else
    let (result, dev) := M.ataSelectDevice s.table driveNum s.dev
    if result < 0 then
      let error := coloured .lightRed (.writestring "ERROR: Failed to select drive!\n")
      (-1, { s with dev := M.printAll error dev })
    else
      let report := [.printf "[DEBUG] selected_drive set to %d (drive_count=%d)\n"
            [UInt32.ofInt driveNum, UInt32.ofNat s.table.driveCount]] ++
          coloured .lightGreen (.formatted "Selected drive %d: %s\n"
            [.num (UInt32.ofInt driveNum),
              .str (stringAt (s.table.drives driveNum.toNat).model)])
      (0, { s with selectedDrive := driveNum, dev := M.printAll report dev })

/-! ### Sectors

A request for one sector, and what follows it when data go in either direction.  Messages are
printed between the accesses, in the places where the source prints them. -/

/-- From the first wait to the request of the drive. -/
def ataRequest (device : AtaDevice) (lba : ℕ) (command : UInt8) (busyError drqError : String)
    (d : σ) : Bool × σ :=
  let io := device.ioBase
  let (result, d) := M.ataWait busy io d
  if result < 0 then (false, M.print (.writestring busyError) d)
  else
    let d := M.outb (io + 6)
      (UInt8.ofNat (0xE0 ||| (device.drive.toNat <<< 4) ||| ((lba >>> 24) &&& 0x0F))) d
    let d := M.ata400nsDelay io d
    let d := M.outb (io + 2) 1 d
    let d := M.outb (io + 3) (UInt8.ofNat lba) d
    let d := M.outb (io + 4) (UInt8.ofNat (lba >>> 8)) d
    let d := M.outb (io + 5) (UInt8.ofNat (lba >>> 16)) d
    let d := M.outb (io + 7) command d
    let (result, d) := M.ataWait noRequest io d
    if result < 0 then (false, M.print (.writestring drqError) d) else (true, d)

def ataWriteSector (lba : ℕ) (buffer : Sector) (s : AtaState σ) : ℤ × AtaState σ :=
  match ataGetDrive s.table s.selectedDrive with
  | none => (-1, s.print M (.writestring "[DEBUG] Invalid selected_drive index\n"))
  | some device =>
      if !device.present ∨ device.ioBase = 0 then
        (-1, s.print M (.printf "[DEBUG] Drive %d corrupted: present=%d, io_base=0x%x\n"
          [UInt32.ofInt s.selectedDrive, if device.present then 1 else 0,
            device.ioBase.toUInt32]))
      else
        let s := s.print M (.printf "[DEBUG] Writing to drive %d, LBA %d, IO base 0x%x\n"
          [UInt32.ofInt s.selectedDrive, UInt32.ofNat lba, device.ioBase.toUInt32])
        let (ready, d) := M.ataRequest device lba 0x30
          "[ATA ERROR] Timeout waiting for BSY\n" "[ATA ERROR] Timeout waiting for DRQ\n" s.dev
        if !ready then (-1, { s with dev := d })
        else
          let d := M.writeWords device.ioBase buffer 256 0 d
          let (result, d) := M.ataWait busy device.ioBase d
          if result < 0 then
            (-1, AtaState.print M (.writestring "[ATA ERROR] Timeout after write\n")
              { s with dev := d })
          else (0, { s with dev := d })

def ataReadSector (lba : ℕ) (s : AtaState σ) : Option Sector × AtaState σ :=
  match ataGetDrive s.table s.selectedDrive with
  | none => (none, s.print M (.writestring "[ATA ERROR] Read - invalid drive index\n"))
  | some device =>
      if !device.present ∨ device.ioBase = 0 then
        (none, s.print M (.writestring "[ATA ERROR] Read - drive data corrupted\n"))
      else
        let (ready, d) := M.ataRequest device lba 0x20
          "[ATA ERROR] Read timeout waiting for BSY\n" "[ATA ERROR] Read timeout waiting for DRQ\n"
          s.dev
        if !ready then (none, { s with dev := d })
        else
          let (words, d) := M.readWords device.ioBase 256 d
          (some (bufferOfWords fun i => words.getD i 0), { s with dev := d })

/-! ## What holds across a detection

A relation between states of the device that holds across single accesses holds across the loops,
and so across a detection, which writes no word. -/

/-- A relation that holds across every access to the ports other than the writing of words. -/
structure AccessRel (R : σ → σ → Prop) : Prop where
  refl : ∀ d, R d d
  trans : ∀ {d d' d''}, R d d' → R d' d'' → R d d''
  inb : ∀ port d, R d (M.inb port d).2
  outb : ∀ port value d, R d (M.outb port value d)
  inw : ∀ port d, R d (M.inw port d).2

namespace AccessRel

variable {M} {R : σ → σ → Prop} (h : M.AccessRel R)

include h

lemma discard (port : UInt16) (n : ℕ) (d : σ) : R d (M.discard port n d) := by
  induction n generalizing d with
  | zero => exact h.refl d
  | succ n ih => exact h.trans (h.inb port d) (ih _)

lemma identifyLoop (port : UInt16) (t : ℕ) (d : σ) : R d (M.identifyLoop port t d).2 := by
  induction t generalizing d with
  | zero => exact h.refl d
  | succ t ih =>
      rw [PortMachine.identifyLoop]
      simp only
      split_ifs
      · exact h.inb port d
      · exact h.inb port d
      · exact h.trans (h.inb port d) (ih _)

lemma readWords (io : UInt16) (n : ℕ) (d : σ) : R d (M.readWords io n d).2 := by
  induction n generalizing d with
  | zero => exact h.refl d
  | succ n ih => exact h.trans (h.inw io d) (ih _)

lemma identifyData (io : UInt16) (t : ℕ) (device : AtaDevice) (d : σ) :
    R d (M.identifyData io t device d).2.2 := by
  have hloop := h.identifyLoop (io + 7) t d
  rw [PortMachine.identifyData]
  generalize M.identifyLoop (io + 7) t d = loop at hloop ⊢
  obtain ⟨ended, d'⟩ := loop
  cases ended with
  | none => exact hloop
  | some timeout =>
      simp only
      split_ifs
      · exact hloop
      · have hwords := h.readWords io 256 d'
        generalize M.readWords io 256 d' = read at hwords ⊢
        exact h.trans hloop hwords

lemma ataIdentify (io : UInt16) (driveNum : UInt8) (device : AtaDevice) (d : σ) :
    R d (M.ataIdentify io driveNum device d).2.2 := by
  have hasked : ∀ value value' d, R d (M.inb (io + 7) (M.ata400nsDelay io (M.outb (io + 7) value'
      (M.ata400nsDelay io (M.outb (io + 6) value d))))).2 := fun value value' d =>
    h.trans (h.outb _ value d) (h.trans (h.discard _ 4 _) (h.trans (h.outb _ value' _)
      (h.trans (h.discard _ 4 _) (h.inb _ _))))
  rw [PortMachine.ataIdentify]
  simp only
  split_ifs
  · exact hasked _ _ d
  · exact h.trans (hasked _ _ d) (h.identifyData io 10000 _ _)

/-- **A detection** writes no words. -/
lemma ataDetectDrives (table : AtaTable) (d : σ) : R d (M.ataDetectDrives table d).2 := by
  have hall : ∀ (places : List (UInt16 × UInt8)) (s : AtaTable × σ),
      R s.2 (places.foldl (fun s place => M.detectAt place s) s).2 := by
    intro places
    induction places with
    | nil => exact fun s => h.refl s.2
    | cons place places ih =>
        exact fun s => h.trans (h.ataIdentify _ _ _ s.2) (ih (M.detectAt place s))
  exact hall positions ({ table with driveCount := 0 }, d)

end AccessRel

end PortMachine

/-! ## The calls

For statements about runs.  `ata_init` is among them, so that a run can begin with variables that
hold anything. -/

/-- What the rest of the kernel asks of `ata.c`. -/
inductive AtaCall where
  | init
  | detect
  | select (driveNum : ℤ)
  | read (lba : ℕ)
  | write (lba : ℕ) (buffer : Sector)

/-- What it answers. -/
inductive AtaAnswer where
  | done
  | code (result : ℤ)
  | sector (buffer : Option Sector)

/-- `ata_init` -/
def AtaTable.reset (table : AtaTable) : AtaTable where
  drives i := { table.drives i with present := false, ioBase := 0 }
  driveCount := 0

/-- A call, access by access. -/
def PortMachine.ataCall (M : PortMachine σ) : AtaCall → AtaState σ → AtaAnswer × AtaState σ
  | .init, s => (.done, { s with table := s.table.reset, selectedDrive := -1 })
  | .detect, s =>
      let (table, dev) := M.ataDetectDrives s.table s.dev
      (.code table.driveCount, { s with table, dev })
  | .select driveNum, s =>
      let (result, s) := M.ataSelectDrive driveNum s
      (.code result, s)
  | .read lba, s =>
      let (sector, s) := M.ataReadSector lba s
      (.sector sector, s)
  | .write lba buffer, s =>
      let (result, s) := M.ataWriteSector lba buffer s
      (.code result, s)

/-- A call of `Ata.lean`. -/
def ataCall (drive : PortDrive) : AtaCall → AtaWorld → AtaAnswer × AtaWorld
  | .init, w =>
      (.done, { fs := { w.fs with selectedDrive := -1 }
                dev := { w.dev with table := w.dev.table.reset } })
  | .detect, w =>
      let dev := ataDetectDrives drive w.dev
      (.code dev.table.driveCount, { w with dev })
  | .select driveNum, w =>
      let (result, w) := ataSelectDrive drive driveNum w
      (.code result, w)
  | .read lba, w =>
      let (sector, w) := ataReadSector drive lba w
      (.sector sector, w)
  | .write lba buffer, w =>
      let (result, w) := ataWriteSector drive lba buffer w
      (.code result, w)

/-- The variables of `ata.c`, and the ports, with their log spread out. -/
def World.spread (w : AtaWorld) : AtaState PortDev where
  table := w.dev.table
  selectedDrive := w.fs.selectedDrive
  dev := w.dev.port.spread

/-! ## On the drive that is a stream

The loops first.  The waits of `ata.c` decrement their counter in the body, and the loop of
`ata_identify` can be broken off from inside; both are brought into the form of the library. -/

section Stream

variable (drive : PortDrive)

/-- A wait that counts down in its body. -/
lemma countDownWhile_stream (waiting : UInt8 → Bool) (port : UInt16) (t : ℕ) (d : PortDev) :
    (streamMachine drive).countDownWhile waiting port t d
      = ((countDown waiting drive.status t d.polled).1,
        { d with
          polled := (countDown waiting drive.status t d.polled).2
          log := d.log ++ singleReads drive.status port d.polled
            ((countDown waiting drive.status t d.polled).2 - d.polled) }) := by
  induction t generalizing d with
  | zero => simp [PortMachine.countDownWhile, countDown, singleReads, slice]
  | succ t ih =>
      rw [PortMachine.countDownWhile, streamMachine_inb, countDown]
      simp only
      split_ifs with hw
      · have hlt : d.polled + 1 < (countDown waiting drive.status t (d.polled + 1)).2 := by
          rw [countDown_eq]
          exact lt_poll t _
        have hlen : (countDown waiting drive.status t (d.polled + 1)).2 - d.polled
            = (countDown waiting drive.status t (d.polled + 1)).2 - (d.polled + 1) + 1 := by omega
        rw [ih, hlen, singleReads_succ, List.append_assoc, List.singleton_append]
      · simp [singleReads, slice]

/-- The loop of `ata_identify`. -/
lemma identifyLoop_stream (port : UInt16) (t : ℕ) (d : PortDev) :
    (streamMachine drive).identifyLoop port t d
      = ((pollUntil errorSet identifyDone drive.status t d.polled).1,
        { d with
          polled := (pollUntil errorSet identifyDone drive.status t d.polled).2
          log := d.log ++ singleReads drive.status port d.polled
            ((pollUntil errorSet identifyDone drive.status t d.polled).2 - d.polled) }) := by
  induction t generalizing d with
  | zero => simp [PortMachine.identifyLoop, pollUntil, singleReads, slice]
  | succ t ih =>
      have hle := le_pollUntil (s := drive.status) errorSet identifyDone t (d.polled + 1)
      have hlen : (pollUntil errorSet identifyDone drive.status t (d.polled + 1)).2 - d.polled
          = (pollUntil errorSet identifyDone drive.status t (d.polled + 1)).2 - (d.polled + 1)
            + 1 := by omega
      rw [PortMachine.identifyLoop, streamMachine_inb, pollUntil]
      simp only
      by_cases herr : errorSet (drive.status d.polled) = true
      · rw [if_pos herr, if_pos herr]
        simp [singleReads, slice]
      rw [if_neg herr, if_neg herr]
      by_cases hdone : identifyDone (drive.status d.polled) = true
      · rw [if_pos hdone, if_pos hdone]
        simp [singleReads, slice]
      · rw [if_neg hdone, if_neg hdone, ih, hlen, singleReads_succ, List.append_assoc,
          List.singleton_append]

lemma discard_stream (port : UInt16) (n : ℕ) (d : PortDev) :
    (streamMachine drive).discard port n d
      = { d with
          polled := d.polled + n
          log := d.log ++ singleReads drive.status port d.polled n } := by
  induction n generalizing d with
  | zero => simp [PortMachine.discard, singleReads, slice]
  | succ n ih =>
      rw [PortMachine.discard, streamMachine_inb, ih, singleReads_succ, List.append_assoc,
        List.singleton_append, Nat.add_assoc, Nat.add_comm 1 n]

/-! ### The log spread out

A state is spread by spreading its log.  Each lemma says of one piece of code that spreading before
it or behind it makes no difference. -/

lemma readStatuses_spread (io : UInt16) (n : ℕ) (d : PortDev) :
    (readStatuses drive io n d).spread
      = { d.spread with
          polled := d.polled + n
          log := d.spread.log ++ singleReads drive.status (io + 7) d.polled n } := by
  simp [readStatuses, PortDev.spread, PortEvent.spread, singleReads]

lemma inb_spread (io : UInt16) (d : PortDev) :
    (streamMachine drive).inb (io + 7) d.spread
      = (drive.status d.polled, (readStatuses drive io 1 d).spread) := by
  rw [readStatuses_spread, streamMachine_inb]
  simp [PortDev.spread, singleReads, slice]

lemma outb_spread (port : UInt16) (value : UInt8) (d : PortDev) :
    (streamMachine drive).outb port value d.spread = (d.emit [.outb port value]).spread :=
  (spread_emit d (by simp [PortEvent.spread])).symm

lemma print_spread (call : TermCall) (d : PortDev) :
    (streamMachine drive).print call d.spread = (d.emit [.term call]).spread :=
  (spread_emit d (by simp [PortEvent.spread])).symm

lemma emit_emit (events events' : List PortEvent) (d : PortDev) :
    (d.emit events).emit events' = d.emit (events ++ events') := by
  simp [PortDev.emit]

lemma printAll_spread (calls : List TermCall) (d : PortDev) :
    (streamMachine drive).printAll calls d.spread = (d.emit (calls.map .term)).spread := by
  induction calls generalizing d with
  | nil => simp [PortMachine.printAll, PortDev.emit]
  | cons call calls ih =>
      have hrest := ih (d.emit [.term call])
      rw [PortMachine.printAll] at hrest ⊢
      rw [List.foldl_cons, print_spread, hrest, emit_emit, List.map_cons, List.singleton_append]

lemma ata400nsDelay_spread (io : UInt16) (d : PortDev) :
    (streamMachine drive).ata400nsDelay io d.spread = (ata400nsDelay drive io d).spread := by
  rw [PortMachine.ata400nsDelay, discard_stream, ata400nsDelay, readStatuses_spread]
  rfl

/-- **A wait of `ata.c`.** -/
lemma ataWait_spread (waiting : UInt8 → Bool) (io : UInt16) (d : PortDev) :
    (streamMachine drive).ataWait waiting io d.spread
      = ((ataWait drive waiting io d).1, (ataWait drive waiting io d).2.spread) := by
  have hle : d.polled ≤ (countDown waiting drive.status 100000 d.polled).2 := by
    rw [countDown_eq]
    exact Nat.le_of_lt (lt_poll _ _)
  rw [PortMachine.ataWait, countDownWhile_stream, ataWait]
  simp only
  rw [readStatuses_spread, Nat.add_sub_cancel' hle]
  rfl

lemma ataWaitBsy_spread (io : UInt16) (d : PortDev) :
    (streamMachine drive).ataWait busy io d.spread
      = ((ataWaitBsy drive io d).1, (ataWaitBsy drive io d).2.spread) :=
  ataWait_spread drive busy io d

lemma ataWaitDrq_spread (io : UInt16) (d : PortDev) :
    (streamMachine drive).ataWait noRequest io d.spread
      = ((ataWaitDrq drive io d).1, (ataWaitDrq drive io d).2.spread) :=
  ataWait_spread drive noRequest io d

lemma device_spread (io : UInt16) (driveNum : UInt8) (d : PortDev) :
    (streamMachine drive).outb (io + 6) (UInt8.ofNat (0xA0 ||| (driveNum.toNat <<< 4))) d.spread
      = (d.emit [deviceEvent io driveNum]).spread :=
  outb_spread drive _ _ d

/-- **The loop of `ata_identify`.** -/
lemma identifyLoop_spread (io : UInt16) (t : ℕ) (d : PortDev) :
    (streamMachine drive).identifyLoop (io + 7) t d.spread
      = ((pollUntil errorSet identifyDone drive.status t d.polled).1,
        (readStatuses drive io
          ((pollUntil errorSet identifyDone drive.status t d.polled).2 - d.polled) d).spread) := by
  have hle := le_pollUntil (s := drive.status) errorSet identifyDone t d.polled
  rw [identifyLoop_stream, readStatuses_spread, Nat.add_sub_cancel' hle]
  rfl

/-- The words of a sector, or of the identification. -/
lemma writeWords_spread (io : UInt16) (buffer : Sector) (d : PortDev) :
    (streamMachine drive).writeWords io buffer 256 0 d.spread
      = (d.emit ((List.range 256).map fun i => .outw io (bufferWord buffer i))).spread := by
  rw [writeWords_stream, PortDev.emit, spread_emit _ (by simp [PortEvent.spread]),
    List.range_eq_range']

/-! ### The functions

From `ata_identify` to the two functions on sectors.  Where a function branches on what a wait has
returned, the two sides have the same value there and take the same branch. -/

lemma getD_slice {words : ℕ → UInt16} {n i : ℕ} (hi : i < 256) :
    (slice words n 256).getD i 0 = words (n + i) := by
  simp [slice, hi]

/-- The identification reads no other words than the 256. -/
lemma identified_congr {words words' : ℕ → UInt16} (h : ∀ i < 256, words i = words' i)
    (device : AtaDevice) : identified words device = identified words' device := by
  have hmodel : modelBytes words = modelBytes words' := by
    funext i
    rw [modelBytes, modelBytes]
    split_ifs with hi
    · rw [h _ (by omega)]
    · rw [h _ (by omega)]
    · rfl
  simp only [identified, hmodel, h 0 (by decide), h 60 (by decide), h 61 (by decide),
    h 83 (by decide), h 100 (by decide), h 101 (by decide), h 102 (by decide), h 103 (by decide)]

/-- The loop has returned. -/
lemma identifyData_none {io : UInt16} {t : ℕ} {device : AtaDevice} {d : PortDev} {polled : ℕ}
    (hloop : pollUntil errorSet identifyDone drive.status t d.polled = (none, polled)) :
    (streamMachine drive).identifyData io t device d.spread
      = (false, device, (readStatuses drive io (polled - d.polled) d).spread) := by
  rw [PortMachine.identifyData, identifyLoop_spread, hloop]

/-- The loop has come to an end. -/
lemma identifyData_some {io : UInt16} {t : ℕ} {device : AtaDevice} {d : PortDev} {timeout : ℤ}
    {polled : ℕ}
    (hloop : pollUntil errorSet identifyDone drive.status t d.polled = (some timeout, polled)) :
    (streamMachine drive).identifyData io t device d.spread
      = if timeout ≤ 0 then
          (false, device, (readStatuses drive io (polled - d.polled) d).spread)
        else
          (true, identified (fun i => drive.words (d.fetched + i)) device,
            PortDev.spread { readStatuses drive io (polled - d.polled) d with
              fetched := d.fetched + 256
              log := (readStatuses drive io (polled - d.polled) d).log ++
                List.replicate 256 (.inw io) }) := by
  rw [PortMachine.identifyData, identifyLoop_spread, hloop]
  simp only
  by_cases hlate : timeout ≤ 0
  · rw [if_pos hlate, if_pos hlate]
  · rw [if_neg hlate, if_neg hlate, readWords_spread]
    simp only
    rw [identified_congr fun i hi => getD_slice hi]
    rfl

/-- **`ata_identify`, access by access.** -/
lemma ataIdentify_spread (io : UInt16) (driveNum : UInt8) (device : AtaDevice) (d : PortDev) :
    (streamMachine drive).ataIdentify io driveNum device d.spread
      = ((ataIdentify drive io driveNum device d).1,
        (ataIdentify drive io driveNum device d).2.1,
        (ataIdentify drive io driveNum device d).2.2.spread) := by
  have hdone : (fun status => !busy status && !noRequest status) = identifyDone := rfl
  rw [PortMachine.ataIdentify, ataIdentify, hdone]
  simp only [device_spread, outb_spread drive (io + 7) 0xEC, ata400nsDelay_spread, inb_spread]
  generalize ata400nsDelay drive io (PortDev.emit [.outb (io + 7) 0xEC]
    (ata400nsDelay drive io (d.emit [deviceEvent io driveNum]))) = asked
  by_cases habsent : drive.status asked.polled = 0
  · rw [if_pos habsent, if_pos habsent]
  rw [if_neg habsent, if_neg habsent]
  generalize readStatuses drive io 1 asked = d₁
  rcases hloop : pollUntil errorSet identifyDone drive.status 10000 d₁.polled with ⟨ended, polled⟩
  cases ended with
  | none => rw [identifyData_none drive hloop]
  | some timeout =>
      rw [identifyData_some drive hloop]
      simp only
      split_ifs <;> rfl

/-- **`ata_detect_drives`, access by access.** -/
lemma ataDetectDrives_spread (d : AtaDev) :
    (streamMachine drive).ataDetectDrives d.table d.port.spread
      = ((ataDetectDrives drive d).table, (ataDetectDrives drive d).port.spread) := by
  have hall : ∀ (places : List (UInt16 × UInt8)) (d : AtaDev),
      places.foldl (fun s place => (streamMachine drive).detectAt place s)
          (d.table, d.port.spread)
        = ((places.foldl (fun d place => detectAt drive place d) d).table,
          (places.foldl (fun d place => detectAt drive place d) d).port.spread) := by
    intro places
    induction places with
    | nil => exact fun d => rfl
    | cons place places ih =>
        intro d
        rw [List.foldl_cons, List.foldl_cons, PortMachine.detectAt, ataIdentify_spread]
        exact ih (detectAt drive place d)
  exact hall positions { d with table := { d.table with driveCount := 0 } }

lemma ataSelectDevice_spread (driveIndex : ℤ) (d : AtaDev) :
    (streamMachine drive).ataSelectDevice d.table driveIndex d.port.spread
      = ((ataSelectDevice drive driveIndex d).1,
        (ataSelectDevice drive driveIndex d).2.port.spread) := by
  rw [PortMachine.ataSelectDevice, ataSelectDevice]
  by_cases hrange : driveIndex < 0 ∨ driveIndex ≥ d.table.driveCount
  · rw [if_pos hrange, if_pos hrange]
  rw [if_neg hrange, if_neg hrange]
  simp only [device_spread, ata400nsDelay_spread, ataWaitBsy_spread, inb_spread]
  generalize ataWaitBsy drive _ _ = waited
  split_ifs <;> rfl

/-- `ata_select_device` leaves the table alone. -/
lemma ataSelectDevice_table (driveIndex : ℤ) (d : AtaDev) :
    (ataSelectDevice drive driveIndex d).2.table = d.table := by
  rw [ataSelectDevice]
  split_ifs
  · rfl
  · simp only
    split_ifs <;> rfl

/-- **`ata_select_drive`, access by access.** -/
lemma ataSelectDrive_spread (driveNum : ℤ) (w : AtaWorld) :
    (streamMachine drive).ataSelectDrive driveNum w.spread
      = ((ataSelectDrive drive driveNum w).1, (ataSelectDrive drive driveNum w).2.spread) := by
  have htable : w.spread.table = w.dev.table := rfl
  have hdev : w.spread.dev = w.dev.port.spread := rfl
  rw [PortMachine.ataSelectDrive, ataSelectDrive, htable, hdev]
  by_cases hrange : driveNum < 0 ∨ driveNum ≥ w.dev.table.driveCount
  · rw [if_pos hrange, if_pos hrange]
  by_cases habsent : (!(w.dev.table.drives driveNum.toNat).present) = true
  · rw [if_neg hrange, if_neg hrange, if_pos habsent, if_pos habsent]
  rw [if_neg hrange, if_neg hrange, if_neg habsent, if_neg habsent, ataSelectDevice_spread]
  have hkept := ataSelectDevice_table drive driveNum w.dev
  generalize ataSelectDevice drive driveNum w.dev = selected at hkept ⊢
  simp only
  by_cases hfailed : selected.1 < 0
  · rw [if_pos hfailed, if_pos hfailed, printAll_spread, print_ata]
    simp only [World.spread, hkept]
  · rw [if_neg hfailed, if_neg hfailed, printAll_spread, print_ata]
    simp only [World.spread, hkept]

/-- **Up to the transfer.** -/
lemma ataRequest_spread (device : AtaDevice) (lba : ℕ) (command : UInt8)
    (busyError drqError : String) (d : PortDev) :
    (streamMachine drive).ataRequest device lba command busyError drqError d.spread
      = ((ataRequest drive device lba command busyError drqError d).1,
        (ataRequest drive device lba command busyError drqError d).2.spread) := by
  rw [PortMachine.ataRequest, ataRequest, ataWaitBsy_spread]
  generalize ataWaitBsy drive _ d = ready
  simp only
  by_cases hbusy : ready.1 < 0
  · rw [if_pos hbusy, if_pos hbusy, print_spread]
  rw [if_neg hbusy, if_neg hbusy, outb_spread, ata400nsDelay_spread]
  simp only [outb_spread, emit_emit, List.cons_append, List.nil_append]
  rw [ataWaitDrq_spread, requestSector]
  generalize ataWaitDrq drive _ _ = asked
  simp only
  by_cases hrequest : asked.1 < 0
  · rw [if_pos hrequest, if_pos hrequest, print_spread]
  · rw [if_neg hrequest, if_neg hrequest]

/-- One call to the terminal. -/
lemma spread_printed (call : TermCall) (w : AtaWorld) :
    (w.print (ataPlatform drive) [call]).spread
      = w.spread.print (streamMachine drive) call := by
  have hdev : w.spread.dev = w.dev.port.spread := rfl
  rw [print_ata, AtaState.print, hdev, print_spread]
  rfl

/-- **`ata_write_sector`, access by access.** -/
lemma ataWriteSector_spread (lba : ℕ) (buffer : Sector) (w : AtaWorld) :
    (streamMachine drive).ataWriteSector lba buffer w.spread
      = ((ataWriteSector drive lba buffer w).1, (ataWriteSector drive lba buffer w).2.spread) := by
  have hselected : ataGetDrive w.spread.table w.spread.selectedDrive = selectedDevice w := rfl
  have hindex : w.spread.selectedDrive = w.fs.selectedDrive := rfl
  rw [PortMachine.ataWriteSector, ataWriteSector, hselected, hindex]
  simp only [← spread_printed]
  cases selectedDevice w with
  | none => rfl
  | some device =>
      simp only
      by_cases hcorrupt : (!device.present) = true ∨ device.ioBase = 0
      · rw [if_pos hcorrupt, if_pos hcorrupt]
      rw [if_neg hcorrupt, if_neg hcorrupt]
      generalize w.print (ataPlatform drive) [.printf _ _] = w₁
      have hport : w₁.spread.dev = w₁.dev.port.spread := rfl
      rw [hport, ataRequest_spread]
      generalize ataRequest drive device lba 0x30 _ _ w₁.dev.port = asked
      simp only
      by_cases hasked : (!asked.1) = true
      · rw [if_pos hasked, if_pos hasked]
        rfl
      rw [if_neg hasked, if_neg hasked, writeWords_spread, ataWaitBsy_spread]
      generalize ataWaitBsy drive device.ioBase _ = done
      simp only
      by_cases hlate : done.1 < 0
      · rw [if_pos hlate, if_pos hlate, AtaState.print, print_spread]
        rfl
      · rw [if_neg hlate, if_neg hlate]
        rfl

/-- **`ata_read_sector`, access by access.** -/
lemma ataReadSector_spread (lba : ℕ) (w : AtaWorld) :
    (streamMachine drive).ataReadSector lba w.spread
      = ((ataReadSector drive lba w).1, (ataReadSector drive lba w).2.spread) := by
  have hselected : ataGetDrive w.spread.table w.spread.selectedDrive = selectedDevice w := rfl
  rw [PortMachine.ataReadSector, ataReadSector, hselected]
  simp only [← spread_printed]
  cases selectedDevice w with
  | none => rfl
  | some device =>
      simp only
      by_cases hcorrupt : (!device.present) = true ∨ device.ioBase = 0
      · rw [if_pos hcorrupt, if_pos hcorrupt]
      have hport : w.spread.dev = w.dev.port.spread := rfl
      rw [if_neg hcorrupt, if_neg hcorrupt, hport, ataRequest_spread]
      generalize ataRequest drive device lba 0x20 _ _ w.dev.port = asked
      simp only
      by_cases hasked : (!asked.1) = true
      · rw [if_pos hasked, if_pos hasked]
        rfl
      · rw [if_neg hasked, if_neg hasked, readWords_spread]
        have hwords : bufferOfWords (fun i => (slice drive.words asked.2.fetched 256).getD i 0)
            = bufferOfWords fun i => drive.words (asked.2.fetched + i) := by
          funext j
          rw [bufferOfWords, bufferOfWords, getD_slice (by omega)]
        simp only [hwords]
        rfl

/-- **One call.** -/
lemma ataCall_spread (call : AtaCall) (w : AtaWorld) :
    (streamMachine drive).ataCall call w.spread
      = ((ataCall drive call w).1, (ataCall drive call w).2.spread) := by
  cases call with
  | init => rfl
  | detect =>
      have hdetect : (streamMachine drive).ataDetectDrives w.spread.table w.spread.dev = _ :=
        ataDetectDrives_spread drive w.dev
      rw [PortMachine.ataCall, hdetect]
      rfl
  | select driveNum =>
      rw [PortMachine.ataCall, ataSelectDrive_spread]
      rfl
  | read lba =>
      rw [PortMachine.ataCall, ataReadSector_spread]
      rfl
  | write lba buffer =>
      rw [PortMachine.ataCall, ataWriteSector_spread]
      rfl

/-- **`ata.c` on single accesses.**  Whatever the drives answer, every run of calls of `ata.c` has
the same results whether its waits are taken whole from the stream or one `inb` at a time; and it
ends with the same table, the same selection and the same log, each wait spread out. -/
theorem ata_streams_agree (calls : List AtaCall) (w : AtaWorld) :
    outputs (streamMachine drive).ataCall calls w.spread = outputs (ataCall drive) calls w ∧
      final (streamMachine drive).ataCall calls w.spread
        = (final (ataCall drive) calls w).spread := by
  have hstep : ∀ call ∈ calls, ∀ (w : AtaWorld) s, s = w.spread →
      (ataCall drive call w).1 = ((streamMachine drive).ataCall call s).1 ∧
        ((streamMachine drive).ataCall call s).2 = (ataCall drive call w).2.spread := by
    rintro call - w _ rfl
    rw [ataCall_spread]
    exact ⟨rfl, rfl⟩
  obtain ⟨houts, hfinal⟩ := outputs_eq_of_simulation (f := id) hstep (s := w) rfl
  rw [List.map_id] at houts hfinal
  exact ⟨houts.symm, hfinal⟩

end Stream

end SzymOS
