import SzymOS.Filesystem.Directory
import SzymOS.Lib.Polling

/-!
# The file system on a drive behind I/O ports

Here the platform is what the processor sees of an ATA drive: every `inb` of the status register
answers with the next byte of a stream, which is all that is assumed of the drive.  The log keeps
what was sent to the ports, what each wait was answered, and what was printed.

The interest is in what the message of a save is worth.  `fs_write_sector_direct` waits three times
for the drive: until it is ready, until it asks for data, and, once the 256 words are sent, until it
is ready again.  The first two waits are checked and their failure is an error.  The last one is not
checked at all, neither its counter nor the status it ends with, so a sector that the drive refuses
after it has taken the data is counted as written.  The write function of `ata.c` does check it.

The log is what the statement is made of.  A save that prints its message has sent 259 commands, and
each of them should be followed by its data and by a last answer without BSY, ERR and DF.  The
theorem says for which streams that is so.

* `requestEnd_isSome_iff` — when the drive accepts a write.
* `fsWriteSectors_log` — the log of a write loop, as long as the drive accepts the writes.
* `saved_iff` — when "Filesystem saved to disk!" is printed.
* `saved_reached_drive_iff` — when that message is true.

The conditions are on the stream of status bytes from the beginning of the save on, and are built
like the save: where a request ends (`requestEnd`), where a write ends (`writeEnd`), where several
of them end (`writesEnd`), and whether each of them finishes (`AllFinish`).  Against these the log
is computed: of one write that is accepted or is not (`portWriteSector_ok`,
`portWriteSector_failed`), of a loop (`fsWriteSectors_log`), and of the two loops of a save one
after the other.  In the log of a save that is reported, the message stands behind all commands, and
whether these have ended well is decided by `AllFinish` (`saveEvents_reported`); in any other log
there is no message (`saveEvents_unreported`).
-/

set_option autoImplicit false

namespace SzymOS

open Bytes Polling

/-! ## Ports

The translation of the two functions, with waits taken whole.  A wait is logged with the answers it
has read, so that a log says what the driver could have known. -/

inductive PortEvent where
  | outb (port : UInt16) (value : UInt8)
  | outw (port : UInt16) (value : UInt16)
  | inw (port : UInt16)
  /-- The answers to the status reads of one wait. -/
  | wait (port : UInt16) (answers : List UInt8)
  | term (call : TermCall)
  deriving DecidableEq, Repr

/-- How many status bytes and data words have been read, and what has happened. -/
structure PortDev where
  polled : ℕ
  fetched : ℕ
  log : List PortEvent

/-- The drive, as far as it can be seen: what it answers to status reads and to data reads. -/
structure PortDrive where
  status : ℕ → UInt8
  words : ℕ → UInt16
  afterHeader : ℕ → UInt8
  aroundData : ℕ → UInt8

/-- `ATA_SR_BSY` is set. -/
def busy (status : UInt8) : Bool := status &&& 0x80 != 0

/-- `ATA_SR_DRQ` is not set. -/
def noRequest (status : UInt8) : Bool := !(status &&& 0x08 != 0)

/-- The answers that such a wait reads, from place `n` of the stream on. -/
def answers (status : ℕ → UInt8) (waiting : UInt8 → Bool) (n : ℕ) : List UInt8 :=
  slice status n ((poll waiting status 100000 n).2 - n)

/-- `int timeout = 100000; while (waiting && timeout--);` -/
def waitWhile (drive : PortDrive) (waiting : UInt8 → Bool) (port : UInt16) (d : PortDev) :
    ℤ × PortDev :=
  let (timeout, polled) := poll waiting drive.status 100000 d.polled
  (timeout, { d with
    polled
    log := d.log ++ [.wait port (answers drive.status waiting d.polled)] })

/-- Select the drive and give the address of one sector. -/
def selectEvents (io : UInt16) (driveNum : UInt8) (lba : ℕ) : List PortEvent :=
  [.outb (io + 6) (UInt8.ofNat (0xE0 ||| (driveNum.toNat <<< 4) ||| ((lba >>> 24) &&& 0x0F))),
    .outb (io + 2) 1,
    .outb (io + 3) (UInt8.ofNat lba),
    .outb (io + 4) (UInt8.ofNat (lba >>> 8)),
    .outb (io + 5) (UInt8.ofNat (lba >>> 16))]

/-- The same, and then the command. -/
def commandEvents (io : UInt16) (driveNum : UInt8) (lba : ℕ) (command : UInt8) : List PortEvent :=
  selectEvents io driveNum lba ++ [.outb (io + 7) command]

/-- Word `i` of a buffer, the low byte first. -/
def bufferWord (buffer : Sector) (i : ℕ) : UInt16 :=
  UInt16.ofNat ((buffer.byte (2 * i)).toNat + 256 * (buffer.byte (2 * i + 1)).toNat)

/-- The buffer that 256 words fill. -/
def bufferOfWords (words : ℕ → UInt16) : Sector := fun j =>
  UInt8.ofNat ((words (j / 2)).toNat / 256 ^ ((j : ℕ) % 2))

/-- `fs_read_sector_direct` behind its first test. -/
def portReadSector (drive : PortDrive) (io : UInt16) (driveNum : UInt8) (lba : ℕ) (d : PortDev) :
    Option Sector × PortDev :=
  let (timeout, d) := waitWhile drive busy (io + 7) d
  if timeout ≤ 0 then (none, d)
  else
    let d := { d with log := d.log ++ commandEvents io driveNum lba 0x20 }
    let (timeout, d) := waitWhile drive noRequest (io + 7) d
    if timeout ≤ 0 then (none, d)
    else
      (some (bufferOfWords fun i => drive.words (d.fetched + i)),
        { d with fetched := d.fetched + 256, log := d.log ++ List.replicate 256 (.inw io) })

/-- `fs_write_sector_direct` behind its first test. -/
def portWriteSector (drive : PortDrive) (io : UInt16) (driveNum : UInt8) (lba : ℕ)
    (buffer : Sector) (d : PortDev) : ℤ × PortDev :=
  let (timeout, d) := waitWhile drive busy (io + 7) d
  if timeout ≤ 0 then
    (-1, { d with
      log := d.log ++ [.term (.writestring "[FS ERROR] Timeout waiting for ready\n")] })
  else
    let d := { d with log := d.log ++ commandEvents io driveNum lba 0x30 }
    let (timeout, d) := waitWhile drive noRequest (io + 7) d
    if timeout ≤ 0 then
      (-1, { d with
        log := d.log ++ [.term (.writestring "[FS ERROR] Timeout waiting for DRQ\n")] })
    else
      let d := { d with
        log := d.log ++ (List.range 256).map fun i => .outw io (bufferWord buffer i) }
      -- the last wait: its counter is not looked at, and neither is the status
      let (_, d) := waitWhile drive busy (io + 7) d
      (0, d)

def portPlatform (drive : PortDrive) : Platform PortDev where
  readSector := portReadSector drive
  writeSector := portWriteSector drive
  print call d := { d with log := d.log ++ [.term call] }
  afterHeader _ := drive.afterHeader
  aroundData _ := drive.aroundData

/-! ## Commands and their ends

That a command ends well is a property of the log behind it.  It is defined from the protocol of the
drive, not from the driver: after WRITE there is a wait, data are sent, and the last answer of the
wait behind the data is clean. -/

/-- BSY, ERR and DF are clear. -/
def Clean (status : UInt8) : Prop := status &&& 0x80 = 0 ∧ status &&& 0x21 = 0

instance (status : UInt8) : Decidable (Clean status) := inferInstanceAs (Decidable (_ ∧ _))

/-- What follows a WRITE command: a wait, 256 words, and a wait whose last answer is clean.  What
the next command's first wait reads is not taken for the end of this one. -/
def CommandEnds (io : UInt16) (after : List PortEvent) : Prop :=
  ∃ (request : List UInt8) (words : List UInt16) (answers : List UInt8) (status : UInt8),
    words.length = 256 ∧ Clean status ∧ after.take 258 = .wait (io + 7) request ::
      (words.map (.outw io) ++ [.wait (io + 7) (answers ++ [status])])

/-- Every WRITE command of a log ends like that. -/
def CommandsEnd (io : UInt16) : List PortEvent → Prop
  | [] => True
  | e :: log => (e = .outb (io + 7) 0x30 → CommandEnds io log) ∧ CommandsEnd io log

/-- Events that are no WRITE command play no part. -/
lemma commandsEnd_append {io : UInt16} {events log : List PortEvent}
    (h : ∀ e ∈ events, e ≠ .outb (io + 7) 0x30) :
    CommandsEnd io (events ++ log) ↔ CommandsEnd io log := by
  induction events with
  | nil => exact Iff.rfl
  | cons e events ih =>
      rw [List.cons_append, CommandsEnd, ih fun e' he' => h e' (List.mem_cons_of_mem _ he')]
      exact and_iff_right fun hc => absurd hc (h e List.mem_cons_self)

/-- What one write puts in the log after its command. -/
def dataEvents (io : UInt16) (request : List UInt8) (words : List UInt16) (answers : List UInt8)
    (status : UInt8) : List PortEvent :=
  .wait (io + 7) request :: (words.map (.outw io) ++ [.wait (io + 7) (answers ++ [status])])

/-- The command of such a write ends as it should exactly when the last answer is clean. -/
lemma commandEnds_iff {io : UInt16} {request answers : List UInt8} {words : List UInt16}
    {status : UInt8} (hwords : words.length = 256) (rest : List PortEvent) :
    CommandEnds io (dataEvents io request words answers status ++ rest) ↔ Clean status := by
  have hlen : (dataEvents io request words answers status).length = 258 := by
    simp [dataEvents, hwords]
  have htake : (dataEvents io request words answers status ++ rest).take 258
      = dataEvents io request words answers status := by
    rw [← hlen, List.take_left]
  rw [CommandEnds, htake]
  constructor
  · rintro ⟨request', words', answers', status', hwords', hclean, heq⟩
    obtain ⟨-, htail⟩ := List.cons.inj heq
    obtain ⟨-, hlast⟩ := List.append_inj htail (by simp [hwords, hwords'])
    have hanswers := (PortEvent.wait.inj (List.head_eq_of_cons_eq hlast)).2
    obtain ⟨-, hstatus⟩ := List.append_inj' hanswers rfl
    rw [List.head_eq_of_cons_eq hstatus]
    exact hclean
  · exact fun hclean => ⟨request, words, answers, status, hwords, hclean, rfl⟩

/-! ## The stream of status bytes

The same by the stream: where each wait ends, and whether what follows the data finishes.  All
conditions are on the bytes from the place on where the save begins, and do not mention the driver.
-/

/-- Where the stream is when the drive has become ready and asked for data, both in time. -/
def requestEnd (status : ℕ → UInt8) (n : ℕ) : Option ℕ :=
  let ready := poll busy status 100000 n
  if ready.1 ≤ 0 then none
  else
    let request := poll noRequest status 100000 ready.2
    if request.1 ≤ 0 then none else some request.2

/-- **When the drive accepts a write**: it clears BSY and then sets DRQ, each within 100000
answers. -/
theorem requestEnd_isSome_iff (status : ℕ → UInt8) (n : ℕ) :
    (requestEnd status n).isSome = true ↔ (∃ k < 100000, FirstAt busy status n k) ∧
      ∃ l < 100000, FirstAt noRequest status (poll busy status 100000 n).2 l := by
  rw [← poll_pos_iff, ← poll_pos_iff, requestEnd]
  simp only
  split_ifs with hready hrequest
  · exact ⟨fun h => absurd h (by simp), fun h => absurd h.1 (by omega)⟩
  · exact ⟨fun h => absurd h (by simp), fun h => absurd h.2 (by omega)⟩
  · exact ⟨fun _ => ⟨by omega, by omega⟩, fun _ => rfl⟩

/-- Where it is when the write is over. -/
def writeEnd (status : ℕ → UInt8) (n : ℕ) : Option ℕ :=
  (requestEnd status n).map fun m => (poll busy status 100000 m).2

/-- Where it is after `k` writes. -/
def writesEnd (status : ℕ → UInt8) : (k n : ℕ) → Option ℕ
  | 0, n => some n
  | k + 1, n => (writeEnd status n).bind (writesEnd status k)

/-- Of the 100001 bytes from `m` on one has BSY clear, and the first of these has ERR and DF clear
too. -/
def Finishes (status : ℕ → UInt8) (m : ℕ) : Prop :=
  ∃ k ≤ 100000, FirstAt busy status m k ∧ Clean (status (m + k))

/-- Each of `k` writes finishes once its data has been sent. -/
def AllFinish (status : ℕ → UInt8) : (k n : ℕ) → Prop
  | 0, _ => True
  | k + 1, n => ∀ m, requestEnd status n = some m →
      Finishes status m ∧ AllFinish status k (poll busy status 100000 m).2

/-- The last answer that the wait after the data reads, and those before it. -/
def lastAnswer (status : ℕ → UInt8) (m : ℕ) : UInt8 :=
  status ((poll busy status 100000 m).2 - 1)

def firstAnswers (status : ℕ → UInt8) (m : ℕ) : List UInt8 :=
  slice status m ((poll busy status 100000 m).2 - 1 - m)

lemma answers_busy (status : ℕ → UInt8) (m : ℕ) :
    answers status busy m = firstAnswers status m ++ [lastAnswer status m] :=
  slice_of_lt status (lt_poll 100000 m)

lemma clean_last_iff (status : ℕ → UInt8) (m : ℕ) :
    Clean (lastAnswer status m) ↔ Finishes status m :=
  poll_last_iff (fun a ha => by simpa [busy] using ha.1) 100000 m

lemma writesEnd_add (status : ℕ → UInt8) (k l n : ℕ) :
    writesEnd status (k + l) n = (writesEnd status k n).bind (writesEnd status l) := by
  induction k generalizing n with
  | zero => rw [Nat.zero_add]; rfl
  | succ k ih =>
      rw [show k + 1 + l = k + l + 1 by omega, writesEnd, writesEnd, Option.bind_assoc]
      exact Option.bind_congr fun m _ => ih m

lemma allFinish_add (status : ℕ → UInt8) (k l n : ℕ) :
    AllFinish status (k + l) n
      ↔ AllFinish status k n ∧ ∀ n', writesEnd status k n = some n' → AllFinish status l n' := by
  induction k generalizing n with
  | zero =>
      rw [Nat.zero_add]
      simp [AllFinish, writesEnd]
  | succ k ih =>
      rw [show k + 1 + l = k + l + 1 by omega, AllFinish, AllFinish, writesEnd, writeEnd]
      cases requestEnd status n with
      | none => simp
      | some m => simp [ih, and_assoc]

/-! ## One write

A write comes to its command or not; if it does, what it logs and where it leaves the stream is
known. -/

section Write

variable {drive : PortDrive} (io : UInt16) (driveNum : UInt8) (lba : ℕ) (buffer : Sector)
  {d : PortDev}

/-- What a write logs, up to its command. -/
def beforeData (status : ℕ → UInt8) (io : UInt16) (driveNum : UInt8) (lba n : ℕ) :
    List PortEvent :=
  .wait (io + 7) (answers status busy n) :: selectEvents io driveNum lba

/-- A write the drive accepts: what it logs, and where it leaves the stream. -/
lemma portWriteSector_ok {m : ℕ} (h : requestEnd drive.status d.polled = some m) :
    ∃ request, portWriteSector drive io driveNum lba buffer d
      = (0, { d with
          polled := (poll busy drive.status 100000 m).2
          log := d.log ++ (beforeData drive.status io driveNum lba d.polled ++
            .outb (io + 7) 0x30 :: dataEvents io request ((List.range 256).map (bufferWord buffer))
              (firstAnswers drive.status m) (lastAnswer drive.status m)) }) := by
  rw [requestEnd] at h
  simp only at h
  split_ifs at h with h1 h2
  rw [Option.some.injEq] at h
  subst h
  refine ⟨answers drive.status noRequest (poll busy drive.status 100000 d.polled).2, ?_⟩
  simp only [portWriteSector, waitWhile, h1, h2, ↓reduceIte]
  simp only [dataEvents, List.map_map, beforeData, commandEvents, answers_busy, List.append_assoc,
    List.cons_append, List.nil_append]
  rfl

/-- A write the drive does not accept: what it prints is an error. -/
lemma portWriteSector_failed (h : requestEnd drive.status d.polled = none) :
    (portWriteSector drive io driveNum lba buffer d).1 = -1 ∧
      ∃ events text, (portWriteSector drive io driveNum lba buffer d).2.log
        = d.log ++ (events ++ [.term (.writestring text)]) ∧
        text ≠ "Filesystem saved to disk!\n" ∧ ∀ call, .term call ∉ events := by
  rw [requestEnd] at h
  simp only at h
  by_cases h1 : (poll busy drive.status 100000 d.polled).1 ≤ 0
  · simp only [portWriteSector, waitWhile, h1, ↓reduceIte]
    exact ⟨trivial, [_], _, List.append_assoc _ _ _, by decide, by simp⟩
  · by_cases h2 : (poll noRequest drive.status 100000
        (poll busy drive.status 100000 d.polled).2).1 ≤ 0
    · simp only [portWriteSector, waitWhile, h1, h2, ↓reduceIte]
      refine ⟨trivial, beforeData drive.status io driveNum lba d.polled ++ [.outb (io + 7) 0x30,
        .wait (io + 7)
          (answers drive.status noRequest (poll busy drive.status 100000 d.polled).2)],
        "[FS ERROR] Timeout waiting for DRQ\n", ?_, by decide, by simp [beforeData, selectEvents]⟩
      simp only [beforeData, commandEvents, List.append_assoc, List.cons_append, List.nil_append]
    · simp only [h1, h2, ↓reduceIte, reduceCtorEq] at h

end Write

/-! ## The write loops

By induction on the number of sectors.  As long as the drive accepts the writes nothing is printed,
and the log is a sequence of well-formed commands, each of which ends well or does not. -/

/-- What tells the user that a save has worked. -/
def savedMessage : PortEvent := .term (.writestring "Filesystem saved to disk!\n")

abbrev PortWorld := World PortDev

/-- The log of one accepted write: its command ends as it should exactly when it finishes. -/
lemma commandsEnd_write {status : ℕ → UInt8} {io : UInt16} {driveNum : UInt8} {lba n m : ℕ}
    {request : List UInt8} {words : List UInt16} (hwords : words.length = 256)
    (rest : List PortEvent) :
    CommandsEnd io ((beforeData status io driveNum lba n ++ .outb (io + 7) 0x30 ::
        dataEvents io request words (firstAnswers status m) (lastAnswer status m)) ++ rest)
      ↔ Finishes status m ∧ CommandsEnd io rest := by
  have hbefore : ∀ e ∈ beforeData status io driveNum lba n, e ≠ .outb (io + 7) 0x30 := by
    intro e he
    simp only [beforeData, selectEvents, List.mem_cons, List.not_mem_nil, or_false] at he
    rcases he with rfl | rfl | rfl | rfl | rfl | rfl <;> simp
  have hdata : ∀ e ∈ dataEvents io request words (firstAnswers status m) (lastAnswer status m),
      e ≠ .outb (io + 7) 0x30 := by
    intro e he
    rcases List.mem_cons.mp he with rfl | he
    · simp
    · rcases List.mem_append.mp he with he | he
      · obtain ⟨w, -, rfl⟩ := List.mem_map.mp he
        simp
      · rw [List.mem_singleton.mp he]
        simp
  rw [List.append_assoc, commandsEnd_append hbefore, List.cons_append, CommandsEnd,
    commandsEnd_append hdata, commandEnds_iff hwords, clean_last_iff]
  exact and_congr_left fun _ => ⟨fun h => h rfl, fun h _ => h⟩

lemma savedMessage_not_mem_write {status : ℕ → UInt8} {io : UInt16} {driveNum : UInt8}
    {lba n : ℕ} {request answers : List UInt8} {words : List UInt16} {last : UInt8} :
    savedMessage ∉ beforeData status io driveNum lba n ++ .outb (io + 7) 0x30 ::
      dataEvents io request words answers last := by
  simp [savedMessage, beforeData, selectEvents, dataEvents]

lemma print_log (drive : PortDrive) (calls : List TermCall) (w : PortWorld) :
    (w.print (portPlatform drive) calls).dev.log = w.dev.log ++ calls.map .term := by
  obtain ⟨fs, dev⟩ := w
  simp only [World.print]
  induction calls generalizing dev with
  | nil => simp
  | cons call calls ih =>
      rw [List.foldl_cons, ih, List.map_cons]
      simp [portPlatform]

section Loop

variable {drive : PortDrive} (start : ℕ) (sectorBuffer : PortWorld → ℕ → Sector) {error : String}
  (k i : ℕ) {w : PortWorld}

/-- A loop whose next write the drive accepts. -/
lemma fsWriteSectors_accepted (error : String) (hsel : w.fs.fsDriveSelected = true) {m : ℕ}
    (hm : requestEnd drive.status w.dev.polled = some m) :
    ∃ request, fsWriteSectors (portPlatform drive) start sectorBuffer error (k + 1) i w
      = fsWriteSectors (portPlatform drive) start sectorBuffer error k (i + 1)
          { w with dev := { w.dev with
              polled := (poll busy drive.status 100000 m).2
              log := w.dev.log ++ (beforeData drive.status w.fs.fsDriveIoBase w.fs.fsDriveNum
                  (start + i) w.dev.polled ++
                .outb (w.fs.fsDriveIoBase + 7) 0x30 :: dataEvents w.fs.fsDriveIoBase request
                  ((List.range 256).map (bufferWord (sectorBuffer w i)))
                  (firstAnswers drive.status m) (lastAnswer drive.status m)) } } := by
  obtain ⟨request, hwrite⟩ := portWriteSector_ok w.fs.fsDriveIoBase w.fs.fsDriveNum (start + i)
    (sectorBuffer w i) hm
  refine ⟨request, ?_⟩
  rw [fsWriteSectors, fsWriteSectorDirect, if_neg (by simp [hsel])]
  simp only [portPlatform, hwrite, ne_eq, not_true_eq_false, if_false]

/-- A loop whose next write the drive does not accept: what it prints is an error. -/
lemma fsWriteSectors_refused (hsel : w.fs.fsDriveSelected = true)
    (herror : error ≠ "Filesystem saved to disk!\n")
    (hm : requestEnd drive.status w.dev.polled = none) :
    (fsWriteSectors (portPlatform drive) start sectorBuffer error (k + 1) i w).1 = false ∧
      ∃ events, (fsWriteSectors (portPlatform drive) start sectorBuffer error (k + 1) i w).2.dev.log
          = w.dev.log ++ events ∧ savedMessage ∉ events := by
  obtain ⟨hresult, events, text, hlog, htext, hevents⟩ :=
    portWriteSector_failed w.fs.fsDriveIoBase w.fs.fsDriveNum (start + i) (sectorBuffer w i) hm
  rw [fsWriteSectors, fsWriteSectorDirect, if_neg (by simp [hsel])]
  generalize hd : portWriteSector drive w.fs.fsDriveIoBase w.fs.fsDriveNum (start + i)
    (sectorBuffer w i) w.dev = r at hresult hlog
  have hwrite : (portPlatform drive).writeSector w.fs.fsDriveIoBase w.fs.fsDriveNum (start + i)
      (sectorBuffer w i) w.dev = r := hd
  simp only [hwrite, hresult, ne_eq, Int.reduceNeg, reduceCtorEq, not_false_eq_true, if_true]
  refine ⟨trivial, events ++ .term (.writestring text) ::
    (coloured .lightRed (.writestring error)).map .term, ?_, ?_⟩
  · rw [print_log, hlog, List.append_assoc, List.append_assoc]
    rfl
  · simp only [savedMessage, coloured, List.map_cons, List.map_nil, List.mem_append,
      List.mem_cons, PortEvent.term.injEq, TermCall.writestring.injEq, reduceCtorEq, false_or,
      List.not_mem_nil, or_false, not_or]
    exact ⟨hevents _, htext.symm, herror.symm⟩

end Loop

/-- What a loop of `k` writes does.  When the drive accepts them all, nothing is printed, and the
commands end as they should exactly when all of them finish; else the loop gives up, and what it
prints is an error. -/
def LoopLog (drive : PortDrive) (loop : PortWorld → Bool × PortWorld) (k : ℕ) (w : PortWorld) :
    Prop :=
  (∀ n, writesEnd drive.status k w.dev.polled = some n →
    ∃ events, loop w
        = (true, { w with dev := { w.dev with polled := n, log := w.dev.log ++ events } }) ∧
      savedMessage ∉ events ∧
      ∀ rest, CommandsEnd w.fs.fsDriveIoBase (events ++ rest)
        ↔ AllFinish drive.status k w.dev.polled ∧ CommandsEnd w.fs.fsDriveIoBase rest) ∧
  (writesEnd drive.status k w.dev.polled = none →
    (loop w).1 = false ∧
    ∃ events, (loop w).2.dev.log = w.dev.log ++ events ∧ savedMessage ∉ events)

/-- **The log of a write loop.** -/
theorem fsWriteSectors_log (drive : PortDrive) (start : ℕ)
    (sectorBuffer : PortWorld → ℕ → Sector) {error : String}
    (herror : error ≠ "Filesystem saved to disk!\n") (k i : ℕ) (w : PortWorld)
    (hsel : w.fs.fsDriveSelected = true) :
    LoopLog drive (fsWriteSectors (portPlatform drive) start sectorBuffer error k i) k w := by
  induction k generalizing i w with
  | zero =>
      refine ⟨?_, fun hn => absurd hn (by simp [writesEnd])⟩
      intro n hn
      rw [writesEnd, Option.some.injEq] at hn
      subst hn
      exact ⟨[], by simp [fsWriteSectors], by simp, fun rest => by simp [AllFinish]⟩
  | succ k ih =>
      cases hm : requestEnd drive.status w.dev.polled with
      | none =>
          have hend : writesEnd drive.status (k + 1) w.dev.polled = none := by
            rw [writesEnd, writeEnd, hm]
            rfl
          refine ⟨fun n hn => absurd (hend.symm.trans hn) (by simp), ?_⟩
          intro _
          exact fsWriteSectors_refused start sectorBuffer k i hsel herror hm
      | some m =>
          obtain ⟨request, hloop⟩ := fsWriteSectors_accepted start sectorBuffer k i error hsel hm
          have hend : writesEnd drive.status (k + 1) w.dev.polled
              = writesEnd drive.status k (poll busy drive.status 100000 m).2 := by
            rw [writesEnd, writeEnd, hm]
            rfl
          rw [LoopLog, hloop, hend]
          obtain ⟨haccepted, hrefused⟩ := ih (i + 1) { w with dev := { w.dev with
            polled := (poll busy drive.status 100000 m).2
            log := w.dev.log ++ (beforeData drive.status w.fs.fsDriveIoBase w.fs.fsDriveNum
                (start + i) w.dev.polled ++
              .outb (w.fs.fsDriveIoBase + 7) 0x30 :: dataEvents w.fs.fsDriveIoBase request
                ((List.range 256).map (bufferWord (sectorBuffer w i)))
                (firstAnswers drive.status m) (lastAnswer drive.status m)) } } hsel
          constructor
          · intro n hn
            obtain ⟨events, hrest, hmessage, hends⟩ := haccepted n hn
            refine ⟨_, hrest.trans (by rw [List.append_assoc]), ?_, ?_⟩
            · rw [List.mem_append, not_or]
              exact ⟨savedMessage_not_mem_write, hmessage⟩
            · intro rest
              rw [List.append_assoc, commandsEnd_write (by simp), hends, AllFinish, ← and_assoc]
              refine and_congr_left fun _ => ⟨?_, fun h => h m hm⟩
              intro h m' hm'
              rw [← Option.some.inj (hm.symm.trans hm')]
              exact h
          · intro hn
            obtain ⟨hfail, events, hlog, hmessage⟩ := hrefused hn
            refine ⟨hfail, _, hlog.trans (List.append_assoc _ _ _), ?_⟩
            rw [List.mem_append, not_or]
            exact ⟨savedMessage_not_mem_write, hmessage⟩

/-! ## The whole save

The message is printed if all 259 writes are accepted and the flag was set before.  Whether they all
finished does not come into it, and this is the difference between what the message says and what is
so. -/

lemma sectors_split : headerSectors + dataSectors = 259 := by decide

/-- What a save sends, is answered and prints. -/
def saveEvents (drive : PortDrive) (w : PortWorld) : List PortEvent :=
  (fsSaveToDisk (portPlatform drive) w).dev.log.drop w.dev.log.length

lemma saveEvents_eq {drive : PortDrive} {w : PortWorld} {events : List PortEvent}
    (h : (fsSaveToDisk (portPlatform drive) w).dev.log = w.dev.log ++ events) :
    saveEvents drive w = events := by
  rw [saveEvents, h, List.drop_left]

/-- The saves that are reported: a drive is selected, the flag is set, and the drive accepts all
the writes. -/
def SaveReported (drive : PortDrive) (w : PortWorld) : Prop :=
  diskAvailable w.fs = true ∧ w.fs.fsDriveSelected = true ∧ w.fs.fsPersistent = true ∧
    (writesEnd drive.status 259 w.dev.polled).isSome = true

/-- The message of a save, with its colours. -/
def savedEvents : List PortEvent :=
  (coloured .lightGreen (.writestring "Filesystem saved to disk!\n")).map .term

lemma commandsEnd_savedEvents (io : UInt16) : CommandsEnd io savedEvents := by
  simp [savedEvents, coloured, CommandsEnd]

/-- The header loop. -/
lemma fsWriteHeaderSectors_log (drive : PortDrive) {w : PortWorld}
    (hsel : w.fs.fsDriveSelected = true) :
    LoopLog drive (fsWriteHeaderSectors (portPlatform drive)) headerSectors w :=
  fsWriteSectors_log drive fsStartSector _ (by decide) headerSectors 0 w hsel

/-- The data loop. -/
lemma fsWriteDataSectors_log (drive : PortDrive) {w : PortWorld}
    (hsel : w.fs.fsDriveSelected = true) :
    LoopLog drive (fsWriteDataSectors (portPlatform drive)) dataSectors w :=
  fsWriteSectors_log drive (fsStartSector + headerSectors) _ (by decide) dataSectors 0 w hsel

/-- What a reported save leaves in the log. -/
lemma saveEvents_reported {drive : PortDrive} {w : PortWorld} (h : SaveReported drive w) :
    savedMessage ∈ saveEvents drive w ∧ (CommandsEnd w.fs.fsDriveIoBase (saveEvents drive w) ↔
      AllFinish drive.status 259 w.dev.polled) := by
  obtain ⟨hav, hsel, hper, hend⟩ := h
  obtain ⟨n, hn⟩ := Option.isSome_iff_exists.mp hend
  rw [← sectors_split, writesEnd_add, Option.bind_eq_some_iff] at hn
  obtain ⟨m, hm, hn⟩ := hn
  obtain ⟨header, hheader, -, hheaderEnds⟩ := (fsWriteHeaderSectors_log drive hsel).1 m hm
  obtain ⟨data, hdata, -, hdataEnds⟩ := (fsWriteDataSectors_log drive (w := { w with
    dev := { w.dev with polled := m, log := w.dev.log ++ header } }) hsel).1 n hn
  have hlog : (fsSaveToDisk (portPlatform drive) w).dev.log
      = w.dev.log ++ (header ++ (data ++ savedEvents)) := by
    rw [fsSaveToDisk, if_neg (by simp [hav]), hheader]
    simp only [hdata, hper, if_true, print_log, savedEvents, List.append_assoc]
  rw [saveEvents_eq hlog]
  constructor
  · simp [savedEvents, savedMessage, coloured]
  · rw [hheaderEnds, hdataEnds, and_iff_left (commandsEnd_savedEvents _), ← sectors_split,
      allFinish_add]
    refine and_congr_right fun _ => ⟨?_, fun h => h m hm⟩
    intro h n' hn'
    rw [← Option.some.inj (hm.symm.trans hn')]
    exact h

/-- Other saves do not report success. -/
lemma saveEvents_unreported {drive : PortDrive} {w : PortWorld} (h : ¬ SaveReported drive w) :
    savedMessage ∉ saveEvents drive w := by
  suffices hlog : ∃ events, (fsSaveToDisk (portPlatform drive) w).dev.log = w.dev.log ++ events ∧
      savedMessage ∉ events by
    obtain ⟨events, hlog, hmessage⟩ := hlog
    rwa [saveEvents_eq hlog]
  rw [fsSaveToDisk]
  split_ifs with hav
  · refine ⟨_, print_log drive _ w, by decide⟩
  by_cases hsel : w.fs.fsDriveSelected = true
  · have hheader := fsWriteHeaderSectors_log drive hsel
    cases hm : writesEnd drive.status headerSectors w.dev.polled with
    | none =>
        obtain ⟨hfail, header, hlog, hmessage⟩ := hheader.2 hm
        generalize fsWriteHeaderSectors (portPlatform drive) w = r at hfail hlog
        obtain ⟨ok, w1⟩ := r
        subst hfail
        exact ⟨header, hlog, hmessage⟩
    | some m =>
        obtain ⟨header, hheader, hmessage, -⟩ := hheader.1 m hm
        have hdata := fsWriteDataSectors_log drive (w := { w with
          dev := { w.dev with polled := m, log := w.dev.log ++ header } }) hsel
        rw [hheader]
        cases hn : writesEnd drive.status dataSectors m with
        | none =>
            obtain ⟨hfail, data, hlog, hmessage'⟩ := hdata.2 hn
            simp only
            generalize fsWriteDataSectors (portPlatform drive) _ = r at hfail hlog
            obtain ⟨ok, w2⟩ := r
            subst hfail
            exact ⟨header ++ data, by rw [hlog, List.append_assoc], by simp [hmessage, hmessage']⟩
        | some n =>
            obtain ⟨data, hdata, hmessage', -⟩ := hdata.1 n hn
            simp only [hdata]
            split_ifs with hper
            · refine absurd ⟨by simpa using hav, hsel, hper, ?_⟩ h
              rw [← sectors_split, writesEnd_add, hm, Option.bind_some, hn]
              rfl
            · exact ⟨header ++ data, by rw [List.append_assoc], by simp [hmessage, hmessage']⟩
  · -- no drive to write to: the first write fails at once
    have hstop : fsWriteHeaderSectors (portPlatform drive) w = (false,
        { (w.print (portPlatform drive) (coloured .lightRed
            (.writestring "[ERROR] Failed to write filesystem header\n"))) with
          fs := { w.fs with fsPersistent := false } }) := by
      rw [fsWriteHeaderSectors, headerSectors, fsWriteSectors, fsWriteSectorDirect,
        if_pos (by simpa using hsel)]
      rfl
    rw [hstop]
    exact ⟨_, print_log drive _ w, by decide⟩

/-- **When "Filesystem saved to disk!" is printed.** -/
theorem saved_iff (drive : PortDrive) (w : PortWorld) :
    savedMessage ∈ saveEvents drive w ↔ SaveReported drive w :=
  ⟨fun h => by_contra fun hc => saveEvents_unreported hc h, fun h => (saveEvents_reported h).1⟩

/-- **When a save that is reported has reached the drive.**  The message is true exactly when the
save is not reported at all, or every write finishes: among the status bytes that its last wait
can read one has BSY clear, and the first of these has ERR and DF clear. -/
theorem saved_reached_drive_iff (drive : PortDrive) (w : PortWorld) :
    (savedMessage ∈ saveEvents drive w →
        CommandsEnd w.fs.fsDriveIoBase (saveEvents drive w)) ↔
      (SaveReported drive w → AllFinish drive.status 259 w.dev.polled) := by
  constructor
  · intro h hrep
    obtain ⟨hmessage, hends⟩ := saveEvents_reported hrep
    exact hends.mp (h hmessage)
  · intro h hmessage
    have hrep := (saved_iff drive w).mp hmessage
    exact (saveEvents_reported hrep).2.mpr (h hrep)

/-! ## A drive that rejects every sector

One constant status byte is enough: ready, asking for data, and with the error bit set.  Every write
is accepted, none is carried out, and the user is told that the file system has been saved. -/

/-- A drive that is always ready and always asks for data, with ERR set in every answer. -/
def PortDrive.erring : PortDrive where
  status := fun _ => 0x49
  words := fun _ => 0
  afterHeader := fun _ => 0
  aroundData := fun _ => 0

/-- The world in which `fs_init` saves after it has formatted the drive. -/
def formattingWorld : PortWorld where
  fs := fsFormat (FsState.selected (some .primaryMaster))
  dev := { polled := 0, fetched := 0, log := [] }

lemma busy_erring (n : ℕ) : busy (PortDrive.erring.status n) = false := by
  have hstatus : busy 0x49 = false := by decide
  exact hstatus

lemma noRequest_erring (n : ℕ) : noRequest (PortDrive.erring.status n) = false := by
  have hstatus : noRequest 0x49 = false := by decide
  exact hstatus

lemma requestEnd_erring (n : ℕ) : requestEnd PortDrive.erring.status n = some (n + 2) := by
  rw [requestEnd, poll_done (busy_erring n) 99999]
  simp only
  rw [poll_done (noRequest_erring (n + 1)) 99999, if_neg (by simp), if_neg (by simp)]

lemma writesEnd_erring (k n : ℕ) :
    writesEnd PortDrive.erring.status k n = some (n + 3 * k) := by
  induction k generalizing n with
  | zero => rfl
  | succ k ih =>
      rw [writesEnd, writeEnd, requestEnd_erring, Option.map_some, Option.bind_some,
        poll_done (busy_erring (n + 2)) 99999, ih, Nat.mul_succ]
      congr 1
      omega

lemma not_allFinish_erring (k n : ℕ) : ¬ AllFinish PortDrive.erring.status (k + 1) n := by
  intro h
  obtain ⟨⟨_, -, -, hclean⟩, -⟩ := h _ (requestEnd_erring n)
  have hstatus : ¬ Clean 0x49 := by decide
  exact hstatus hclean

/-- **A save that is reported and has not reached the drive.**  Every command ends with ERR set,
and the user is told that the file system has been saved. -/
theorem rejected_save_reported :
    savedMessage ∈ saveEvents .erring formattingWorld ∧
      ¬ CommandsEnd formattingWorld.fs.fsDriveIoBase (saveEvents .erring formattingWorld) := by
  have hreported : SaveReported .erring formattingWorld :=
    ⟨by decide, rfl, rfl, by rw [writesEnd_erring]; rfl⟩
  obtain ⟨hmessage, hends⟩ := saveEvents_reported hreported
  rw [← not_iff_not] at hends
  exact ⟨hmessage, hends.mpr (not_allFinish_erring 258 _)⟩

end SzymOS
