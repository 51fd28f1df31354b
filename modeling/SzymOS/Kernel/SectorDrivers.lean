import SzymOS.Kernel.Requests

/-!
# The two sector drivers on the same drive

`filesystem.c` and `ata.c` send the same writes for a sector.  The wait that follows the data of a
write ends in an error in one of them only.

Both drivers are run on the same drive, not on the same stream: `ata.c` reads the status more often,
so it meets other answers in the same places.  Two runs are compared by their results and by what
they have sent.

The drive is any function of what it has been sent and of how often it has been asked since.  The
four reads of the delay count for what it answers during the delay and not after it, because the
registers that are written next start the count anew.

* `BehaveAlike` — two functions return the same and send the same writes, on a drive.
* `drivers_agree_iff` — on which drives the functions of both do.

The functions of both files are first written as the same request with the same continuation
(`fsReadSectorDirect_via`, `ataReadSector_via` and the two that write), up to what is printed and up
to the check of the last wait.  For this form `Requests.lean` says what a run that the drive answers
returns and sends, in terms of the drive alone.  What is left is to compare two expressions about
one drive: they are equal for reads, and for writes they differ by the last wait (`write_snd`,
`write_fst_iff`).

That runs exist is part of the statement, because it would be empty for a drive that no stream
belongs to.  A stream is made for each of the functions, with its own number of status reads
(`exists_read_answered`, `exists_write_answered`).
-/

set_option autoImplicit false

namespace SzymOS

open Bytes Polling

/-- The ports answer like the drive: to status reads, and to the reads of data words, which come
after all that is written. -/
structure AnsweredBy (R : Responder) (drive : PortDrive) (d d' : PortDev) : Prop where
  status : Answered R (seen d.log) (newEvents d d')
  words : ∀ i, d.fetched + i < d'.fetched →
    drive.words (d.fetched + i) = R.word ((seen d.log).afterAll (newEvents d d')).writes i

/-- The drive can answer both functions, and however it is run, they return the same and send the
same writes. -/
structure BehaveAlike {α : Type} (R : Responder) (w : AtaWorld) (f g : PortDrive → α × AtaWorld) :
    Prop where
  run : ∃ drive, AnsweredBy R drive w.dev.port (f drive).2.dev.port
  run' : ∃ drive, AnsweredBy R drive w.dev.port (g drive).2.dev.port
  alike : ∀ drive drive', AnsweredBy R drive w.dev.port (f drive).2.dev.port →
    AnsweredBy R drive' w.dev.port (g drive').2.dev.port →
    (f drive).1 = (g drive').1 ∧
      writesOf (newEvents w.dev.port (f drive).2.dev.port)
        = writesOf (newEvents w.dev.port (g drive').2.dev.port)

/-- The selected entry is valid, and `filesystem.c` uses the same drive. -/
structure SharedDrive (w : AtaWorld) (device : AtaDevice) : Prop where
  entry : selectedDevice w = some device
  present : device.present = true
  base : device.ioBase ≠ 0
  selected : w.fs.fsDriveSelected = true
  sameBase : w.fs.fsDriveIoBase = device.ioBase
  sameDrive : w.fs.fsDriveNum = device.drive

/-- If the drive clears BSY and asks for data in time, it clears BSY again in time after it has the
data. -/
def ClearsBusy (R : Responder) (io : UInt16) (driveNum : UInt8) (lba : ℕ) (buffer : Sector)
    (s : Seen) : Prop :=
  let asked := commanded io driveNum lba 0x30 s
  ∀ k < 100000, FirstAt busy (R.answers s) 0 k →
    ∀ l < 100000, FirstAt noRequest (R.answers asked) 0 l →
      ∃ m < 100000, FirstAt busy (R.answers (sentSeen io buffer (asked.later (l + 1)))) 0 m

section Agreement

variable {R : Responder} {w : AtaWorld} {device : AtaDevice}

lemma request_true_iff {io : UInt16} {driveNum : UInt8} {lba : ℕ} {command : UInt8} {s : Seen} :
    (R.request io driveNum lba command s).1 = true ↔ 0 < (R.wait busy s).1 ∧
      0 < (R.wait noRequest (commanded io driveNum lba command s)).1 := by
  simp only [Responder.request]
  by_cases hbusy : 0 < (R.wait busy s).1
  · rw [if_neg (not_le.mpr hbusy), decide_eq_true_eq, and_iff_right hbusy]
  · rw [if_pos (not_lt.mp hbusy)]
    exact iff_of_false (by simp) fun h => hbusy h.1

lemma request_snd {io : UInt16} {driveNum : UInt8} {lba : ℕ} {command : UInt8} {s : Seen}
    (h : (R.request io driveNum lba command s).1 = true) :
    (R.request io driveNum lba command s).2 = (commanded io driveNum lba command s).later
      (R.wait noRequest (commanded io driveNum lba command s)).2 := by
  simp only [Responder.request, if_neg (not_le.mpr (request_true_iff.mp h).1)]

/-- In terms of the waits. -/
lemma clearsBusy_iff {io : UInt16} {driveNum : UInt8} {lba : ℕ} {buffer : Sector} {s : Seen} :
    ClearsBusy R io driveNum lba buffer s ↔ ((R.request io driveNum lba 0x30 s).1 = true →
      0 < (R.wait busy (sentSeen io buffer (R.request io driveNum lba 0x30 s).2)).1) := by
  constructor
  · intro h hasked
    obtain ⟨hbusy, hrequest⟩ := request_true_iff.mp hasked
    obtain ⟨k, hk, hfirst⟩ := (poll_pos_iff _ _).mp hbusy
    obtain ⟨l, hl, hasks⟩ := (poll_pos_iff _ _).mp hrequest
    have hreads := poll_snd_of_firstAt (Nat.le_of_lt hl) hasks
    rw [Nat.zero_add] at hreads
    rw [request_snd hasked, Responder.wait, Responder.wait, hreads]
    exact (poll_pos_iff _ _).mpr (h k hk hfirst l hl hasks)
  · intro h k hk hfirst l hl hasks
    have hasked : (R.request io driveNum lba 0x30 s).1 = true :=
      request_true_iff.mpr ⟨(poll_pos_iff _ _).mpr ⟨k, hk, hfirst⟩,
        (poll_pos_iff _ _).mpr ⟨l, hl, hasks⟩⟩
    have hreads := poll_snd_of_firstAt (Nat.le_of_lt hl) hasks
    rw [Nat.zero_add] at hreads
    have hdone := h hasked
    rw [request_snd hasked, Responder.wait, Responder.wait, hreads] at hdone
    exact (poll_pos_iff _ _).mp hdone

lemma Course.writes {fed : Prop} {d d' : PortDev} {s s' : Seen} (h : Course R fed d d' s s')
    (hfed : fed) : s.writes ++ writesOf (newEvents d d') = s'.writes := by
  rw [← afterAll_writes, h.sees hfed]

/-- What a run is, apart from the ports. -/
def onPorts {α : Type} (w : AtaWorld) (run : α × PortDev) : α × AtaWorld :=
  (run.1, { w with dev := { w.dev with port := run.2 } })

/-! ### The functions as requests

The two files print different messages and one of them prints more.  What is printed is not sent to
the drive, so it plays no part in what follows. -/

lemma fsReadSectorDirect_via (h : SharedDrive w device) (drive : PortDrive) (lba : ℕ) :
    fsReadSectorDirect (ataPlatform drive) lba w = onPorts w (finishRead drive device.ioBase
      (requestVia drive device.ioBase
        (fun d => d.emit (commandEvents device.ioBase device.drive lba 0x20)) [] []
        w.dev.port)) := by
  rw [fsReadSectorDirect, if_neg (by simp [h.selected]), h.sameBase, h.sameDrive,
    ← portReadSector_via]
  rfl

lemma fsWriteSectorDirect_via (h : SharedDrive w device) (drive : PortDrive) (lba : ℕ)
    (buffer : Sector) : fsWriteSectorDirect (ataPlatform drive) lba buffer w
      = onPorts w (finishWrite drive device.ioBase buffer false []
        (requestVia drive device.ioBase
          (fun d => d.emit (commandEvents device.ioBase device.drive lba 0x30))
          [.writestring "[FS ERROR] Timeout waiting for ready\n"]
          [.writestring "[FS ERROR] Timeout waiting for DRQ\n"]
          (w.dev.port.emit (([] : List TermCall).map .term)))) := by
  rw [fsWriteSectorDirect, if_neg (by simp [h.selected]), h.sameBase, h.sameDrive,
    ← portWriteSector_via, List.map_nil, emit_nil]
  rfl

lemma ataReadSector_via (h : SharedDrive w device) (drive : PortDrive) (lba : ℕ) :
    ataReadSector drive lba w = onPorts w (finishRead drive device.ioBase
      (requestVia drive device.ioBase (requestSector drive device lba 0x20)
        [.writestring "[ATA ERROR] Read timeout waiting for BSY\n"]
        [.writestring "[ATA ERROR] Read timeout waiting for DRQ\n"] w.dev.port)) := by
  have hvalid : ¬ (!device.present ∨ device.ioBase = 0) := by simp [h.present, h.base]
  rw [← ataRequest_via]
  simp only [ataReadSector, h.entry, if_neg hvalid, finishRead, onPorts]
  cases (ataRequest drive device lba 0x20 "[ATA ERROR] Read timeout waiting for BSY\n"
    "[ATA ERROR] Read timeout waiting for DRQ\n" w.dev.port).1 <;> rfl

/-- What `ata_write_sector` prints first. -/
def writingMessage (w : AtaWorld) (device : AtaDevice) (lba : ℕ) : List TermCall :=
  [.printf "[DEBUG] Writing to drive %d, LBA %d, IO base 0x%x\n"
    [UInt32.ofInt w.fs.selectedDrive, UInt32.ofNat lba, device.ioBase.toUInt32]]

lemma ataWriteSector_via (h : SharedDrive w device) (drive : PortDrive) (lba : ℕ)
    (buffer : Sector) : ataWriteSector drive lba buffer w
      = onPorts w (finishWrite drive device.ioBase buffer true
      [.writestring "[ATA ERROR] Timeout after write\n"]
      (requestVia drive device.ioBase (requestSector drive device lba 0x30)
        [.writestring "[ATA ERROR] Timeout waiting for BSY\n"]
        [.writestring "[ATA ERROR] Timeout waiting for DRQ\n"]
        (w.dev.port.emit ((writingMessage w device lba).map .term)))) := by
  have hvalid : ¬ (!device.present ∨ device.ioBase = 0) := by simp [h.present, h.base]
  rw [← ataRequest_via]
  have hneg : (-1 : ℤ) < 0 := by omega
  have hzero : ¬ (0 : ℤ) < 0 := by omega
  simp only [ataWriteSector, h.entry, if_neg hvalid, print_ata, finishWrite, onPorts,
    ← writingMessage.eq_1, ataWaitBsy, ataWait_eq, ← dataWrites.eq_1, true_and]
  generalize ataRequest drive device lba 0x30 _ _ _ = request
  cases hasked : request.1 with
  | false => rfl
  | true =>
      simp only [Bool.not_true, Bool.false_eq_true, if_false]
      by_cases hdone : 0 < (poll busy drive.status 100000
          (request.2.emit (dataWrites device.ioBase buffer)).polled).1
      · rw [if_pos hdone, if_neg hzero, if_neg (not_le.mpr hdone)]
      · rw [if_neg hdone, if_pos hneg, if_pos (not_lt.mp hdone)]
        rfl

/-! ### Runs that the drive answers

What a function returns and sends on such a run depends on the drive and not on the stream; and
there is such a run. -/

section Answering

variable {drive : PortDrive} {io : UInt16} {driveNum : UInt8} {lba delay : ℕ}
  {send : PortDev → PortDev} {d : PortDev}

/-- A read returns and sends what the drive makes of it. -/
lemma read_answered (hsend : Sends R drive io driveNum lba 0x20 delay send)
    (busyError drqError : List TermCall) (h : AnsweredBy R drive d
      (finishRead drive io (requestVia drive io send busyError drqError d)).2) :
    (finishRead drive io (requestVia drive io send busyError drqError d)).1
        = (R.read io driveNum lba (seen d.log)).1 ∧
      (seen d.log).writes ++ writesOf (newEvents d
          (finishRead drive io (requestVia drive io send busyError drqError d)).2)
        = (R.read io driveNum lba (seen d.log)).2.writes := by
  have hcourse := finishRead_course hsend d busyError drqError (seen d.log)
  have hfeeds := hcourse.answered.mp h.status
  have hwords := h.words
  rw [hcourse.sees hfeeds] at hwords
  exact ⟨finishRead_result hsend busyError drqError hfeeds hwords, hcourse.writes hfeeds⟩

/-- And so does a write, whatever is printed before it. -/
lemma write_course (buffer : Sector) (checked : Bool)
    (hsend : Sends R drive io driveNum lba 0x30 delay send)
    (calls busyError drqError lateError : List TermCall) (s : Seen) :
    Course R (R.FeedsWrite io driveNum lba buffer delay drive.status d.polled s) d
      (finishWrite drive io buffer checked lateError
        (requestVia drive io send busyError drqError (d.emit (calls.map .term)))).2 s
      (R.write io driveNum lba buffer checked s).2 := by
  have hwrite := finishWrite_course buffer checked hsend busyError drqError lateError
    (d.emit (calls.map .term)) s
  exact ((course_print R d s calls).andThen hwrite).congr (iff_of_eq (true_and _))

variable {buffer : Sector} {checked : Bool}

lemma write_answered (hsend : Sends R drive io driveNum lba 0x30 delay send)
    (calls busyError drqError lateError : List TermCall) (h : AnsweredBy R drive d
      (finishWrite drive io buffer checked lateError
        (requestVia drive io send busyError drqError (d.emit (calls.map .term)))).2) :
    (finishWrite drive io buffer checked lateError
          (requestVia drive io send busyError drqError (d.emit (calls.map .term)))).1
        = (R.write io driveNum lba buffer checked (seen d.log)).1 ∧
      (seen d.log).writes ++ writesOf (newEvents d (finishWrite drive io buffer checked lateError
          (requestVia drive io send busyError drqError (d.emit (calls.map .term)))).2)
        = (R.write io driveNum lba buffer checked (seen d.log)).2.writes := by
  have hcourse := write_course (d := d) buffer checked hsend calls busyError drqError lateError
    (seen d.log)
  have hfeeds := hcourse.answered.mp h.status
  exact ⟨finishWrite_result hsend busyError drqError lateError hfeeds, hcourse.writes hfeeds⟩

/-- A drive with this stream and these words. -/
def streamDrive (status : ℕ → UInt8) (words : ℕ → UInt16) : PortDrive where
  status := status
  words := words
  afterHeader := fun _ => 0
  aroundData := fun _ => 0

variable {sendOn : PortDrive → PortDev → PortDev}

/-- The drive can be read from, whatever is printed. -/
lemma exists_read_answered
    (hsend : ∀ drive, Sends R drive io driveNum lba 0x20 delay (sendOn drive))
    (busyError drqError : List TermCall) (d : PortDev) : ∃ drive, AnsweredBy R drive d
      (finishRead drive io (requestVia drive io (sendOn drive) busyError drqError d)).2 := by
  obtain ⟨status, hfeeds, -⟩ := exists_feedsRequest R io driveNum lba 0x20 delay d.polled
    (seen d.log) (fun _ => 0)
  refine ⟨streamDrive status fun p =>
    R.word (R.read io driveNum lba (seen d.log)).2.writes (p - d.fetched), ?_, ?_⟩
  · exact (finishRead_course (hsend _) d busyError drqError (seen d.log)).answered.mpr hfeeds
  · intro i _
    have hcourse := finishRead_course (hsend (streamDrive status fun p =>
      R.word (R.read io driveNum lba (seen d.log)).2.writes (p - d.fetched))) d busyError drqError
      (seen d.log)
    rw [hcourse.sees hfeeds]
    simp only [streamDrive, Nat.add_sub_cancel_left]

/-- And it can be written to. -/
lemma exists_write_answered
    (hsend : ∀ drive, Sends R drive io driveNum lba 0x30 delay (sendOn drive))
    (calls busyError drqError lateError : List TermCall) (d : PortDev) :
    ∃ drive, AnsweredBy R drive d (finishWrite drive io buffer checked lateError
      (requestVia drive io (sendOn drive) busyError drqError (d.emit (calls.map .term)))).2 := by
  obtain ⟨status, hfeeds⟩ := exists_feedsWrite R io driveNum lba buffer delay d.polled
    (seen d.log)
  refine ⟨streamDrive status fun _ => 0, ?_, ?_⟩
  · exact (write_course buffer checked (hsend _) calls busyError drqError lateError
      (seen d.log)).answered.mpr hfeeds
  · have hfetched : (finishWrite (streamDrive status fun _ => 0) io buffer checked lateError
        (requestVia (streamDrive status fun _ => 0) io (sendOn (streamDrive status fun _ => 0))
          busyError drqError (d.emit (calls.map .term)))).2.fetched = d.fetched := by
      have hrequest := requestVia_fetched (hsend (streamDrive status fun _ => 0)) busyError drqError
        (d.emit (calls.map .term))
      simp only [finishWrite]
      split_ifs
      · exact hrequest
      · exact hrequest
      · exact hrequest
    intro i hi
    rw [hfetched] at hi
    omega

end Answering

/-! ### The two drivers

A read ends with its words and has nothing left to check.  After a write one of the drivers returns
0 without a look at the wait, the other one reports the timeout. -/

/-- The last wait changes the result only. -/
lemma write_snd (io : UInt16) (driveNum : UInt8) (lba : ℕ) (buffer : Sector) (s : Seen) :
    (R.write io driveNum lba buffer false s).2 = (R.write io driveNum lba buffer true s).2 := by
  simp only [Responder.write]
  cases (R.request io driveNum lba 0x30 s).1 <;> rfl

lemma write_fst_iff {io : UInt16} {driveNum : UInt8} {lba : ℕ} {buffer : Sector} {s : Seen} :
    (R.write io driveNum lba buffer false s).1 = (R.write io driveNum lba buffer true s).1 ↔
      ClearsBusy R io driveNum lba buffer s := by
  rw [clearsBusy_iff]
  simp only [Responder.write]
  cases hasked : (R.request io driveNum lba 0x30 s).1 with
  | false => simp
  | true => simp

/-- **The functions that read** always agree. -/
lemma read_alike (R : Responder) (h : SharedDrive w device) (lba : ℕ) :
    BehaveAlike R w (fun drive => fsReadSectorDirect (ataPlatform drive) lba w)
      (fun drive => ataReadSector drive lba w) := by
  constructor
  all_goals simp only [fsReadSectorDirect_via h, ataReadSector_via h, onPorts]
  · exact exists_read_answered (fun drive => sends_emit drive R device.ioBase device.drive lba 0x20)
      [] [] w.dev.port
  · exact exists_read_answered (fun drive => sends_requestSector drive R device lba 0x20) _ _
      w.dev.port
  · intro drive drive' hdirect hata
    obtain ⟨hresult, hwrites⟩ := read_answered
      (sends_emit drive R device.ioBase device.drive lba 0x20) [] [] hdirect
    obtain ⟨hresult', hwrites'⟩ := read_answered
      (sends_requestSector drive' R device lba 0x20) _ _ hata
    exact ⟨hresult.trans hresult'.symm, List.append_cancel_left (hwrites.trans hwrites'.symm)⟩

/-- **The functions that write** agree exactly when the last wait is over in time. -/
lemma write_alike_iff (R : Responder) (h : SharedDrive w device) (lba : ℕ) (buffer : Sector) :
    BehaveAlike R w (fun drive => fsWriteSectorDirect (ataPlatform drive) lba buffer w)
        (fun drive => ataWriteSector drive lba buffer w) ↔
      ClearsBusy R device.ioBase device.drive lba buffer (seen w.dev.port.log) := by
  rw [← write_fst_iff]
  have hemit := fun drive => sends_emit drive R device.ioBase device.drive lba 0x30
  have hsend := fun drive => sends_requestSector drive R device lba 0x30
  constructor
  · rintro ⟨⟨drive, hdirect⟩, ⟨drive', hata⟩, halike⟩
    have hsame := (halike drive drive' hdirect hata).1
    simp only [fsWriteSectorDirect_via h, ataWriteSector_via h, onPorts] at hdirect hata hsame
    rwa [(write_answered (hemit drive) _ _ _ _ hdirect).1,
      (write_answered (hsend drive') _ _ _ _ hata).1] at hsame
  · intro hresult
    constructor
    all_goals simp only [fsWriteSectorDirect_via h, ataWriteSector_via h, onPorts]
    · exact exists_write_answered hemit _ _ _ _ w.dev.port
    · exact exists_write_answered hsend _ _ _ _ w.dev.port
    · intro drive drive' hdirect hata
      obtain ⟨hfirst, hwrites⟩ := write_answered (hemit drive) _ _ _ _ hdirect
      obtain ⟨hfirst', hwrites'⟩ := write_answered (hsend drive') _ _ _ _ hata
      rw [write_snd] at hwrites
      exact ⟨hfirst.trans (hresult.trans hfirst'.symm),
        List.append_cancel_left (hwrites.trans hwrites'.symm)⟩

/-- **Where the two drivers agree.**  On every drive they read alike; they write alike exactly if
the drive, whenever it takes the data, clears BSY in time afterwards. -/
theorem drivers_agree_iff (R : Responder) (h : SharedDrive w device) (lba : ℕ) (buffer : Sector) :
    (BehaveAlike R w (fun drive => fsReadSectorDirect (ataPlatform drive) lba w)
        (fun drive => ataReadSector drive lba w) ∧
      BehaveAlike R w (fun drive => fsWriteSectorDirect (ataPlatform drive) lba buffer w)
        (fun drive => ataWriteSector drive lba buffer w)) ↔
    ClearsBusy R device.ioBase device.drive lba buffer (seen w.dev.port.log) := by
  rw [write_alike_iff R h]
  exact and_iff_right (read_alike R h lba)

end Agreement

/-! ## A drive that stays busy

A write that the drive accepts and never finishes is where the two files differ. -/

def oneDrive : AtaDevice where
  ioBase := 0x1F0
  drive := 0
  present := true
  model := fun _ => 0
  sizeMb := 0
  isRemovable := false
  sectors := 0

/-- The only drive of the table is selected, and used by the file system. -/
def oneDriveWorld : AtaWorld where
  fs := FsState.selected (some .primaryMaster)
  dev := { table := { drives := fun _ => oneDrive, driveCount := 1 }
           port := { polled := 0, fetched := 0, log := [] } }

lemma oneDriveWorld_same : SharedDrive oneDriveWorld oneDrive where
  entry := rfl
  present := rfl
  base := by decide
  selected := rfl
  sameBase := rfl
  sameDrive := rfl

/-- A drive that is always ready and always asks for data. -/
def willingDrive : Responder where
  status _ := 0x48
  word _ _ := 0

theorem drivers_agree_willing :
    BehaveAlike willingDrive oneDriveWorld
        (fun drive => fsReadSectorDirect (ataPlatform drive) 2048 oneDriveWorld)
        (fun drive => ataReadSector drive 2048 oneDriveWorld) ∧
      BehaveAlike willingDrive oneDriveWorld
        (fun drive => fsWriteSectorDirect (ataPlatform drive) 2048 (fun _ => 0) oneDriveWorld)
        (fun drive => ataWriteSector drive 2048 (fun _ => 0) oneDriveWorld) := by
  refine (drivers_agree_iff willingDrive oneDriveWorld_same 2048 fun _ => 0).mpr ?_
  have hclear : busy 0x48 = false := by decide
  exact fun k _ _ l _ _ => ⟨0, by omega, firstAt_zero.mpr hclear⟩

/-- A drive that is ready, asks for data at the first status read after a command, and is busy
afterwards. -/
def stuckDrive : Responder where
  status s := if s.writes.isEmpty then 0x40 else if s.sinceRegister = 0 then 0x48 else 0x80
  word _ _ := 0

lemma stuckDrive_late {s : Seen} (hs : s.writes.isEmpty = false) (hlate : 0 < s.sinceRegister)
    (i : ℕ) : stuckDrive.answers s i = 0x80 := by
  have hne : ¬ s.sinceRegister + i = 0 := by omega
  simp only [Responder.answers, stuckDrive, Seen.later, hs, Bool.false_eq_true, if_false,
    if_neg hne]

/-- After such a write `fs_write_sector_direct` returns 0, and `ata_write_sector` returns -1. -/
theorem stuck_drive_differs : ¬ BehaveAlike stuckDrive oneDriveWorld
    (fun drive => fsWriteSectorDirect (ataPlatform drive) 2048 (fun _ => 0) oneDriveWorld)
    (fun drive => ataWriteSector drive 2048 (fun _ => 0) oneDriveWorld) := by
  rw [write_alike_iff stuckDrive oneDriveWorld_same]
  intro hclears
  have hready : FirstAt busy (stuckDrive.answers (seen oneDriveWorld.dev.port.log)) 0 0 :=
    firstAt_zero.mpr (by decide)
  have hasks : FirstAt noRequest (stuckDrive.answers (commanded oneDrive.ioBase oneDrive.drive 2048
      0x30 (seen oneDriveWorld.dev.port.log))) 0 0 := firstAt_zero.mpr (by decide)
  obtain ⟨m, -, -, hclear⟩ := hclears 0 (by omega) hready 0 (by omega) hasks
  rw [stuckDrive_late rfl (Nat.zero_lt_one)] at hclear
  exact absurd hclear (by decide)

end SzymOS
