import SzymOS.Filesystem.PortDrive
import SzymOS.Filesystem.PlatformView

/-!
# The sector driver, one port access at a time

`PortDrive.lean` takes the answers of a drive from a stream and a whole wait at once.  Here the two
functions of `filesystem.c` that talk to the drive are translated access by access, over a machine
whose ports may do anything: every `inb`, `outb`, `inw` and `outw` is an operation of a
`PortMachine`, and may change its state.

The stream is convenient because a wait is then a function with a closed form, but it is an
abstraction: the source reads one status byte at a time, and each read could change what is behind
the port.  On a machine of the general kind no such form exists.  The two translations are compared
on the one machine that both can describe, the drive whose status register answers from a stream;
there they do the same, and so all that is proved about waits of the stream is about the loops of
the source.

The general machine has its own use.  A drive with registers, a buffer and sectors is such a
machine, and `filesystem.c` runs on it as translated here.

* `PortMachine.fsReadSector`, `PortMachine.fsWriteSector` — the two functions.
* `streamMachine` — the drive of `PortDrive.lean` as such a machine, with a log of single accesses.
* `streams_agree` — every run of calls on that machine has the results of the run on the drive of
  `PortDrive.lean`, and its log is that of the drive, each wait spread out.
-/

set_option autoImplicit false

namespace SzymOS

open Bytes Polling Transition Oracle

/-! ## Ports that may do anything

The state of the machine is a type variable, and each access returns a new state.  Loops are
recursions on their counters, and where the source fills or sends a buffer of 256 words, the words
are a list. -/

/-- What the processor can do to the ports, `σ` being the state of what is behind them; and what
else `filesystem.c` uses of the machine. -/
structure PortMachine (σ : Type) where
  inb : UInt16 → σ → UInt8 × σ
  outb : UInt16 → UInt8 → σ → σ
  inw : UInt16 → σ → UInt16 × σ
  outw : UInt16 → UInt16 → σ → σ
  print : TermCall → σ → σ
  afterHeader : σ → ℕ → UInt8
  aroundData : σ → ℕ → UInt8

namespace PortMachine

variable {σ : Type} (M : PortMachine σ)

/-- `while (waiting(inb(port)) && timeout--);` with the final counter. -/
def pollWhile (waiting : UInt8 → Bool) (port : UInt16) : (timeout : ℕ) → σ → ℤ × σ
  | 0, d =>
      let (status, d) := M.inb port d
      if waiting status then (-1, d) else (0, d)
  | timeout + 1, d =>
      let (status, d) := M.inb port d
      if waiting status then pollWhile waiting port timeout d else (timeout + 1, d)

/-- The six writes that select the drive, give the address and give the command. -/
def sendCommand (io : UInt16) (driveNum : UInt8) (lba : ℕ) (command : UInt8) (d : σ) : σ :=
  let d := M.outb (io + 6)
    (UInt8.ofNat (0xE0 ||| (driveNum.toNat <<< 4) ||| ((lba >>> 24) &&& 0x0F))) d
  let d := M.outb (io + 2) 1 d
  let d := M.outb (io + 3) (UInt8.ofNat lba) d
  let d := M.outb (io + 4) (UInt8.ofNat (lba >>> 8)) d
  let d := M.outb (io + 5) (UInt8.ofNat (lba >>> 16)) d
  M.outb (io + 7) command d

/-- `for (...) { buf16[i] = inw(io); }`, `n` times. -/
def readWords (io : UInt16) : (n : ℕ) → σ → List UInt16 × σ
  | 0, d => ([], d)
  | n + 1, d =>
      let (word, d) := M.inw io d
      let (words, d) := readWords io n d
      (word :: words, d)

/-- `for (...) { outw(io, buf16[i]); }`, `n` times from index `i` on. -/
def writeWords (io : UInt16) (buffer : Sector) : (n i : ℕ) → σ → σ
  | 0, _, d => d
  | n + 1, i, d => writeWords io buffer n (i + 1) (M.outw io (bufferWord buffer i) d)

/-- `fs_read_sector_direct` behind its first test. -/
def fsReadSector (io : UInt16) (driveNum : UInt8) (lba : ℕ) (d : σ) : Option Sector × σ :=
  let (timeout, d) := M.pollWhile busy (io + 7) 100000 d
  if timeout ≤ 0 then (none, d)
  else
    let d := M.sendCommand io driveNum lba 0x20 d
    let (timeout, d) := M.pollWhile noRequest (io + 7) 100000 d
    if timeout ≤ 0 then (none, d)
    else
      let (words, d) := M.readWords io 256 d
      (some (bufferOfWords fun i => words.getD i 0), d)

/-- `fs_write_sector_direct` behind its first test. -/
def fsWriteSector (io : UInt16) (driveNum : UInt8) (lba : ℕ) (buffer : Sector) (d : σ) : ℤ × σ :=
  let (timeout, d) := M.pollWhile busy (io + 7) 100000 d
  if timeout ≤ 0 then
    (-1, M.print (.writestring "[FS ERROR] Timeout waiting for ready\n") d)
  else
    let d := M.sendCommand io driveNum lba 0x30 d
    let (timeout, d) := M.pollWhile noRequest (io + 7) 100000 d
    if timeout ≤ 0 then
      (-1, M.print (.writestring "[FS ERROR] Timeout waiting for DRQ\n") d)
    else
      let d := M.writeWords io buffer 256 0 d
      let (_, d) := M.pollWhile busy (io + 7) 100000 d
      (0, d)

/-- The platform of `filesystem.c` on this machine. -/
def toPlatform : Platform σ where
  readSector := M.fsReadSector
  writeSector := M.fsWriteSector
  print := M.print
  afterHeader := M.afterHeader
  aroundData := M.aroundData

end PortMachine

/-! ## The drive that is a stream

Its log has an event for each access, the status reads of a wait included.  The drive of
`PortDrive.lean` writes down a whole wait as one event, so its log is spread out before the two are
compared.  The lemmas follow the functions from the loops outwards, each stating that the
access-by-access version on the spread state is the other one, spread. -/

section Stream

variable (drive : PortDrive)

/-- The drive of `PortDrive.lean`, asked for one answer at a time. -/
def streamMachine : PortMachine PortDev where
  inb port d :=
    (drive.status d.polled,
      { d with polled := d.polled + 1, log := d.log ++ [.wait port [drive.status d.polled]] })
  outb port value d := { d with log := d.log ++ [.outb port value] }
  inw port d :=
    (drive.words d.fetched, { d with fetched := d.fetched + 1, log := d.log ++ [.inw port] })
  outw port value d := { d with log := d.log ++ [.outw port value] }
  print call d := { d with log := d.log ++ [.term call] }
  afterHeader _ := drive.afterHeader
  aroundData _ := drive.aroundData

@[simp] lemma streamMachine_inb (port : UInt16) (d : PortDev) :
    (streamMachine drive).inb port d = (drive.status d.polled,
      { d with polled := d.polled + 1, log := d.log ++ [.wait port [drive.status d.polled]] }) :=
  rfl

@[simp] lemma streamMachine_outb (port : UInt16) (value : UInt8) (d : PortDev) :
    (streamMachine drive).outb port value d = { d with log := d.log ++ [.outb port value] } := rfl

@[simp] lemma streamMachine_inw (port : UInt16) (d : PortDev) :
    (streamMachine drive).inw port d = (drive.words d.fetched,
      { d with fetched := d.fetched + 1, log := d.log ++ [.inw port] }) := rfl

@[simp] lemma streamMachine_outw (port value : UInt16) (d : PortDev) :
    (streamMachine drive).outw port value d = { d with log := d.log ++ [.outw port value] } := rfl

/-- A wait as single status reads. -/
def PortEvent.spread : PortEvent → List PortEvent
  | .wait port answers => answers.map fun answer => .wait port [answer]
  | e => [e]

/-- A log of single accesses. -/
def PortDev.spread (d : PortDev) : PortDev := { d with log := d.log.flatMap PortEvent.spread }

/-- The events that a wait is made of. -/
def singleReads (status : ℕ → UInt8) (port : UInt16) (n k : ℕ) : List PortEvent :=
  (slice status n k).map fun answer => .wait port [answer]

lemma singleReads_succ (status : ℕ → UInt8) (port : UInt16) (n k : ℕ) :
    singleReads status port n (k + 1)
      = .wait port [status n] :: singleReads status port (n + 1) k := by
  rw [singleReads, slice_cons]
  rfl

/-- **A wait, access by access.** -/
lemma pollWhile_stream (waiting : UInt8 → Bool) (port : UInt16) (t : ℕ) (d : PortDev) :
    (streamMachine drive).pollWhile waiting port t d
      = ((poll waiting drive.status t d.polled).1,
        { d with
          polled := (poll waiting drive.status t d.polled).2
          log := d.log ++ singleReads drive.status port d.polled
            ((poll waiting drive.status t d.polled).2 - d.polled) }) := by
  induction t generalizing d with
  | zero =>
      rw [PortMachine.pollWhile, streamMachine_inb, poll]
      simp only
      split_ifs <;> simp [singleReads, slice]
  | succ t ih =>
      rw [PortMachine.pollWhile, streamMachine_inb, poll]
      simp only
      split_ifs with hw
      · have hlt : d.polled + 1 < (poll waiting drive.status t (d.polled + 1)).2 := lt_poll t _
        have hlen : (poll waiting drive.status t (d.polled + 1)).2 - d.polled
            = (poll waiting drive.status t (d.polled + 1)).2 - (d.polled + 1) + 1 := by omega
        rw [ih, hlen, singleReads_succ, List.append_assoc, List.singleton_append]
      · simp [singleReads, slice]

/-- A wait of the drive, its log spread out. -/
lemma waitWhile_spread (waiting : UInt8 → Bool) (port : UInt16) (d : PortDev) :
    (streamMachine drive).pollWhile waiting port 100000 d.spread
      = ((waitWhile drive waiting port d).1, (waitWhile drive waiting port d).2.spread) := by
  rw [pollWhile_stream]
  simp [waitWhile, PortDev.spread, PortEvent.spread, answers, singleReads]

/-- The command. -/
lemma sendCommand_spread (io : UInt16) (driveNum : UInt8) (lba : ℕ) (command : UInt8)
    (d : PortDev) :
    (streamMachine drive).sendCommand io driveNum lba command d.spread
      = { d with log := d.log ++ commandEvents io driveNum lba command }.spread := by
  simp [PortMachine.sendCommand, PortDev.spread, PortEvent.spread, commandEvents, selectEvents]

/-- The words that are read. -/
lemma readWords_stream (io : UInt16) (n : ℕ) (d : PortDev) :
    (streamMachine drive).readWords io n d
      = (slice drive.words d.fetched n,
        { d with fetched := d.fetched + n, log := d.log ++ List.replicate n (.inw io) }) := by
  induction n generalizing d with
  | zero => simp [PortMachine.readWords, slice]
  | succ n ih =>
      have hadd : d.fetched + 1 + n = d.fetched + (n + 1) := by omega
      rw [PortMachine.readWords, streamMachine_inw]
      simp only
      rw [ih, slice_cons, List.replicate_succ]
      simp only [hadd, List.append_assoc, List.singleton_append]

/-- And the words that are written. -/
lemma writeWords_stream (io : UInt16) (buffer : Sector) (n i : ℕ) (d : PortDev) :
    (streamMachine drive).writeWords io buffer n i d
      = { d with
          log := d.log ++ (List.range' i n).map fun j => .outw io (bufferWord buffer j) } := by
  induction n generalizing i d with
  | zero => simp [PortMachine.writeWords]
  | succ n ih =>
      rw [PortMachine.writeWords, streamMachine_outw, ih, List.range'_succ, List.map_cons]
      simp only [List.append_assoc, List.singleton_append]

lemma spread_emit (d : PortDev) {events : List PortEvent}
    (h : ∀ e ∈ events, e.spread = [e]) :
    ({ d with log := d.log ++ events } : PortDev).spread
      = { d.spread with log := d.spread.log ++ events } := by
  have hevents : events.flatMap PortEvent.spread = events := by
    induction events with
    | nil => rfl
    | cons e events ih =>
        rw [List.flatMap_cons, h e List.mem_cons_self,
          ih fun e' he' => h e' (List.mem_cons_of_mem _ he')]
        rfl
  simp only [PortDev.spread, List.flatMap_append, hevents]

/-- The words of a sector that is read. -/
lemma readWords_spread (io : UInt16) (d : PortDev) :
    (streamMachine drive).readWords io 256 d.spread
      = (slice drive.words d.fetched 256,
        PortDev.spread { d with
          fetched := d.fetched + 256, log := d.log ++ List.replicate 256 (.inw io) }) := by
  have hread : PortDev.spread { d with
        fetched := d.fetched + 256, log := d.log ++ List.replicate 256 (.inw io) }
      = { d.spread with
          fetched := d.fetched + 256
          log := d.spread.log ++ List.replicate 256 (.inw io) } :=
    spread_emit { d with fetched := d.fetched + 256 } fun e he => by
      rw [List.eq_of_mem_replicate he]
      rfl
  rw [readWords_stream, hread]
  rfl

/-- **A sector read, access by access.** -/
theorem fsReadSector_spread (io : UInt16) (driveNum : UInt8) (lba : ℕ) (d : PortDev) :
    (streamMachine drive).fsReadSector io driveNum lba d.spread
      = ((portReadSector drive io driveNum lba d).1,
        (portReadSector drive io driveNum lba d).2.spread) := by
  rw [PortMachine.fsReadSector, portReadSector, waitWhile_spread]
  generalize waitWhile drive busy (io + 7) d = ready
  simp only
  by_cases hbusy : ready.1 ≤ 0
  · rw [if_pos hbusy, if_pos hbusy]
  · rw [if_neg hbusy, if_neg hbusy, sendCommand_spread, waitWhile_spread]
    generalize waitWhile drive noRequest (io + 7) _ = asked
    simp only
    by_cases hrequest : asked.1 ≤ 0
    · rw [if_pos hrequest, if_pos hrequest]
    · rw [if_neg hrequest, if_neg hrequest, readWords_spread]
      have hwords : bufferOfWords (fun i => (slice drive.words asked.2.fetched 256).getD i 0)
          = bufferOfWords fun i => drive.words (asked.2.fetched + i) := by
        funext j
        have hj : (j : ℕ) / 2 < 256 := by omega
        simp [bufferOfWords, slice, hj]
      rw [hwords]

/-- **A sector write, access by access.** -/
theorem fsWriteSector_spread (io : UInt16) (driveNum : UInt8) (lba : ℕ) (buffer : Sector)
    (d : PortDev) :
    (streamMachine drive).fsWriteSector io driveNum lba buffer d.spread
      = ((portWriteSector drive io driveNum lba buffer d).1,
        (portWriteSector drive io driveNum lba buffer d).2.spread) := by
  rw [PortMachine.fsWriteSector, portWriteSector, waitWhile_spread]
  generalize waitWhile drive busy (io + 7) d = ready
  simp only
  by_cases hbusy : ready.1 ≤ 0
  · rw [if_pos hbusy, if_pos hbusy, spread_emit _ (by simp [PortEvent.spread])]
    rfl
  · rw [if_neg hbusy, if_neg hbusy, sendCommand_spread, waitWhile_spread]
    generalize waitWhile drive noRequest (io + 7) _ = asked
    simp only
    by_cases hrequest : asked.1 ≤ 0
    · rw [if_pos hrequest, if_pos hrequest, spread_emit _ (by simp [PortEvent.spread])]
      rfl
    · rw [if_neg hrequest, if_neg hrequest]
      have hsent : (streamMachine drive).writeWords io buffer 256 0 asked.2.spread
          = PortDev.spread { asked.2 with
              log := asked.2.log ++
                (List.range 256).map fun i => .outw io (bufferWord buffer i) } := by
        rw [writeWords_stream, spread_emit _ (by simp [PortEvent.spread]), List.range_eq_range']
      rw [hsent, waitWhile_spread]

/-- **The drive of `PortDrive.lean` is the source's loops**, seen a wait at a time. -/
theorem showsAs_stream (io : UInt16) (driveNum : UInt8) :
    ShowsAs (portPlatform drive) (fun _ => (streamMachine drive).toPlatform) io driveNum
      PortDev.spread where
  read lba d _ := explained_of_eq fun _ => fsReadSector_spread drive io driveNum lba d
  write lba buffer d _ :=
    explained_of_eq fun _ => fsWriteSector_spread drive io driveNum lba buffer d
  print _ call d _ := (spread_emit d (by simp [PortEvent.spread])).symm
  afterHeader _ _ := rfl
  aroundData _ _ := rfl

/-- **Every run of calls** has the same results access by access, and ends with the same variables
and the same log, spread out. -/
theorem streams_agree (calls : List FsCall) (w : PortWorld) :
    outputs (fsCall (streamMachine drive).toPlatform) calls (w.map PortDev.spread)
        = outputs (fsCall (portPlatform drive)) calls w ∧
      final (fsCall (streamMachine drive).toPlatform) calls (w.map PortDev.spread)
        = (final (fsCall (portPlatform drive)) calls w).map PortDev.spread := by
  have hstep : ∀ call ∈ calls, ∀ w w' : PortWorld, w' = w.map PortDev.spread →
      (fsCall (portPlatform drive) call w).1 = (fsCall (streamMachine drive).toPlatform call w').1 ∧
        (fsCall (streamMachine drive).toPlatform call w').2
          = (fsCall (portPlatform drive) call w).2.map PortDev.spread := by
    rintro call - w _ rfl
    obtain ⟨o, ho⟩ := ((showsAs_stream drive w.fs.fsDriveIoBase w.fs.fsDriveNum).explained_call
      call (w := w) fun _ => ⟨rfl, rfl⟩).exact
    rw [ho]
    exact ⟨rfl, rfl⟩
  obtain ⟨houts, hfinal⟩ := outputs_eq_of_simulation (f := id) hstep (s := w) rfl
  rw [List.map_id] at houts hfinal
  exact ⟨houts.symm, hfinal⟩

end Stream

end SzymOS
