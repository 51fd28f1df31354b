import SzymOS.Kernel.Detection
import SzymOS.Kernel.Requests

/-!
# What the waits report

Every bounded wait of the two drivers tests its counter when the loop is over, and the counter does
not say why the loop ended: it is 0 when the last answer that can be read is the one waited for, and
0 or less when there was none.

After 100000 answers the counter is 0, and the next answer ends the loop whatever it is; so it is
the 100001st that is misjudged.  The loop of `ata_identify` tests and decrements its counter at
once, which is 0 when the 10000th answer is read.

No drive is called ready that is not.  All that goes wrong is that a drive is given up which has
just become ready.

* `WaitsJudge` — every wait reports success if and only if its last status byte is ready.
* `waits_judge_iff` — on which streams they do.

Each wait is compared with the place at which its stream first becomes ready (`FirstAt`).  If this
comes in time, the wait ends there and its counter is positive; if it comes in the last place, the
wait ends there and its counter is 0; and if it comes later or never, the last answer is not ready.
`bsy_judged_iff` and `drq_judged_iff` turn these three cases into an equivalence for a wait that is
reported in some way, so that the two functions of each kind need only say how they report it.
-/

set_option autoImplicit false

namespace SzymOS

open Polling

/-- The status byte that was read last. -/
def lastStatus (drive : PortDrive) (d : PortDev) : UInt8 := drive.status (d.polled - 1)

/-- `!(status & ATA_SR_BSY) && (status & ATA_SR_DRQ)` -/
def dataReady (status : UInt8) : Bool := !busy status && !noRequest status

section Reports

variable (drive : PortDrive) (io : UInt16) (driveNum : UInt8) (lba : ℕ)

/-- The ports after the second wait of a request, which follows the command. -/
def requested (command : UInt8) (d : PortDev) : PortDev :=
  waited drive noRequest io
    ((waited drive busy io d).emit (commandEvents io driveNum lba command))

/-- Every wait that has a result reports success if and only if the last status byte that it has
read is what it waits for.  The first wait of a request reports success by going on to the command,
and the second one by the result of the function; the loop of `ata_identify` is behind the test for
an empty bus. -/
structure WaitsJudge (buffer : Sector) (device : AtaDevice) (d : PortDev) : Prop where
  bsy : (ataWaitBsy drive io d).1 = 0 ↔
    busy (lastStatus drive (ataWaitBsy drive io d).2) = false
  drq : (ataWaitDrq drive io d).1 = 0 ↔
    noRequest (lastStatus drive (ataWaitDrq drive io d).2) = false
  readBsy : .outb (io + 7) 0x20 ∈ newEvents d (portReadSector drive io driveNum lba d).2 ↔
    busy (lastStatus drive (waited drive busy io d)) = false
  readDrq : .outb (io + 7) 0x20 ∈ newEvents d (portReadSector drive io driveNum lba d).2 →
    ((portReadSector drive io driveNum lba d).1.isSome = true ↔
      noRequest (lastStatus drive (requested drive io driveNum lba 0x20 d)) = false)
  writeBsy : .outb (io + 7) 0x30 ∈ newEvents d (portWriteSector drive io driveNum lba buffer d).2 ↔
    busy (lastStatus drive (waited drive busy io d)) = false
  writeDrq : .outb (io + 7) 0x30 ∈ newEvents d (portWriteSector drive io driveNum lba buffer d).2 →
    ((portWriteSector drive io driveNum lba buffer d).1 = 0 ↔
      noRequest (lastStatus drive (requested drive io driveNum lba 0x30 d)) = false)
  identify : drive.status (d.polled + 8) ≠ 0 → ((ataIdentify drive io driveNum device d).1 = true ↔
    (!errorSet (lastStatus drive (ataIdentify drive io driveNum device d).2.2) &&
      dataReady (lastStatus drive (ataIdentify drive io driveNum device d).2.2)) = true)

end Reports

/-- No wait finds what it waits for only in the very last status byte that it can read: the
100001st, or the 10000th of the loop of `ata_identify`. -/
structure NotOnLastPoll (status : ℕ → UInt8) (n : ℕ) : Prop where
  bsy : ¬ FirstAt busy status n 100000
  drq : ¬ FirstAt noRequest status n 100000
  request : ∀ k < 100000, FirstAt busy status n k → ¬ FirstAt noRequest status (n + k + 1) 100000
  identify : status (n + 8) ≠ 0 → ¬ (FirstAt (goesOn errorSet dataReady) status (n + 9) 9999 ∧
    errorSet (status (n + 9 + 9999)) = false)

section Waits

variable {drive : PortDrive} {io : UInt16} {d : PortDev}

/-- The two waits of `ata.c`. -/
lemma ataWait_judged_iff (waiting : UInt8 → Bool) :
    ((ataWait drive waiting io d).1 = 0 ↔
        waiting (lastStatus drive (ataWait drive waiting io d).2) = false) ↔
      ¬ FirstAt waiting drive.status d.polled 100000 := by
  have hzero : ∀ c : Prop, [Decidable c] → ((if c then (0 : ℤ) else -1) = 0 ↔ c) := by
    intro c _
    split_ifs with hc
    · exact iff_of_true rfl hc
    · exact iff_of_false (by decide) hc
  rw [ataWait_eq, hzero, lastStatus, waited_polled]
  exact poll_judged_iff 100000 d.polled

/-- Ready in the last status byte, they report a timeout. -/
lemma ataWait_late (io : UInt16) {waiting : UInt8 → Bool}
    (h : FirstAt waiting drive.status d.polled 100000) :
    (ataWait drive waiting io d).1 = -1 ∧
      lastStatus drive (ataWait drive waiting io d).2 = drive.status (d.polled + 100000) := by
  have hlate : ¬ 0 < (poll waiting drive.status 100000 d.polled).1 := by
    rw [poll_pos_iff]
    rintro ⟨k, hk, hfirst⟩
    exact absurd (hfirst.unique h) (Nat.ne_of_lt hk)
  rw [ataWait_eq, lastStatus, waited_polled, poll_snd_of_firstAt (Nat.le_refl _) h,
    Nat.add_sub_cancel]
  exact ⟨if_neg hlate, rfl⟩

/-- **The command is given** exactly if the first wait was over in time. -/
lemma command_mem_iff (driveNum : UInt8) (lba : ℕ) (command : UInt8)
    (busyError drqError : List TermCall) :
    .outb (io + 7) command ∈ newEvents d (requestVia drive io
        (fun d => d.emit (commandEvents io driveNum lba command)) busyError drqError d).2 ↔
      0 < (poll busy drive.status 100000 d.polled).1 := by
  by_cases hbusy : 0 < (poll busy drive.status 100000 d.polled).1
  · refine iff_of_true ?_ hbusy
    have hmem : .outb (io + 7) command ∈ commandEvents io driveNum lba command := by
      simp [commandEvents]
    simp only [requestVia, if_neg (not_le.mpr hbusy)]
    split_ifs
    · simp [newEvents, waited, readStatuses, PortDev.emit, hmem]
    · simp [newEvents, waited, readStatuses, PortDev.emit, hmem]
  · refine iff_of_false ?_ hbusy
    simp only [requestVia, if_pos (not_lt.mp hbusy)]
    simp [newEvents, waited, readStatuses, PortDev.emit]

/-- **And the request succeeds** if the second one was, too. -/
lemma requestVia_fst_iff (driveNum : UInt8) (lba : ℕ) (command : UInt8)
    (busyError drqError : List TermCall) :
    (requestVia drive io (fun d => d.emit (commandEvents io driveNum lba command)) busyError
        drqError d).1 = true ↔
      0 < (poll busy drive.status 100000 d.polled).1 ∧
        0 < (poll noRequest drive.status 100000 (waited drive busy io d).polled).1 := by
  simp only [requestVia]
  by_cases hbusy : 0 < (poll busy drive.status 100000 d.polled).1
  · rw [if_neg (not_le.mpr hbusy), and_iff_right hbusy]
    by_cases hrequest : 0 < (poll noRequest drive.status 100000
        ((waited drive busy io d).emit (commandEvents io driveNum lba command)).polled).1
    · rw [if_neg (not_le.mpr hrequest)]
      exact iff_of_true rfl hrequest
    · rw [if_pos (not_lt.mp hrequest)]
      exact iff_of_false Bool.false_ne_true hrequest
  · rw [if_pos (not_lt.mp hbusy)]
    exact iff_of_false Bool.false_ne_true fun h => hbusy h.1

lemma mem_newEvents_iff {d' d'' : PortDev} {events : List PortEvent} {e : PortEvent}
    (hgrows : d.log <+: d'.log) (hlog : d''.log = d'.log ++ events) (hmem : e ∉ events) :
    e ∈ newEvents d d'' ↔ e ∈ newEvents d d' := by
  obtain ⟨before, hbefore⟩ := hgrows
  have hall : d''.log = d.log ++ (before ++ events) := by
    rw [hlog, ← hbefore, List.append_assoc]
  rw [newEvents_eq hall, newEvents_eq hbefore.symm, List.mem_append]
  exact or_iff_left hmem

lemma request_grows (driveNum : UInt8) (lba : ℕ) (command : UInt8)
    (busyError drqError : List TermCall) :
    d.log <+: (requestVia drive io (fun d => d.emit (commandEvents io driveNum lba command))
      busyError drqError d).2.log :=
  (List.prefix_append _ _).trans (requestVia_grows
    (sends_emit drive ⟨fun _ => 0, fun _ _ => 0⟩ io driveNum lba command) busyError drqError d)

/-! ### The two functions of `filesystem.c`

Their waits have no result of their own.  The first one shows in whether the command is given, the
second one in what the function returns once it has been given. -/

variable {driveNum : UInt8} {lba : ℕ}

lemma read_command_iff :
    .outb (io + 7) 0x20 ∈ newEvents d (portReadSector drive io driveNum lba d).2 ↔
      0 < (poll busy drive.status 100000 d.polled).1 := by
  rw [portReadSector_via, ← command_mem_iff driveNum lba 0x20 [] []]
  simp only [finishRead]
  split_ifs
  · refine mem_newEvents_iff (request_grows driveNum lba 0x20 [] []) rfl fun hmem => ?_
    exact absurd (List.eq_of_mem_replicate hmem) (by simp)
  · exact Iff.rfl

lemma read_isSome_iff : (portReadSector drive io driveNum lba d).1.isSome = true ↔
    0 < (poll busy drive.status 100000 d.polled).1 ∧
      0 < (poll noRequest drive.status 100000 (waited drive busy io d).polled).1 := by
  rw [portReadSector_via, ← requestVia_fst_iff driveNum lba 0x20 [] []]
  simp only [finishRead]
  split_ifs with hasked
  · exact iff_of_true rfl hasked
  · exact iff_of_false Bool.false_ne_true hasked

variable {buffer : Sector}

lemma write_command_iff :
    .outb (io + 7) 0x30 ∈ newEvents d (portWriteSector drive io driveNum lba buffer d).2 ↔
      0 < (poll busy drive.status 100000 d.polled).1 := by
  rw [portWriteSector_via, ← command_mem_iff driveNum lba 0x30
    [.writestring "[FS ERROR] Timeout waiting for ready\n"]
    [.writestring "[FS ERROR] Timeout waiting for DRQ\n"]]
  simp only [finishWrite, Bool.false_eq_true, false_and, if_false]
  split_ifs
  · exact Iff.rfl
  · refine mem_newEvents_iff (request_grows driveNum lba 0x30 _ _)
      (List.append_assoc _ _ _) ?_
    simp [dataWrites]

lemma write_eq_zero_iff : (portWriteSector drive io driveNum lba buffer d).1 = 0 ↔
    0 < (poll busy drive.status 100000 d.polled).1 ∧
      0 < (poll noRequest drive.status 100000 (waited drive busy io d).polled).1 := by
  rw [portWriteSector_via, ← requestVia_fst_iff driveNum lba 0x30
    [.writestring "[FS ERROR] Timeout waiting for ready\n"]
    [.writestring "[FS ERROR] Timeout waiting for DRQ\n"]]
  simp only [finishWrite, Bool.false_eq_true, false_and, if_false]
  split_ifs with hasked
  · exact iff_of_false (by simp) (by simpa using hasked)
  · exact iff_of_true rfl (by simpa using hasked)

/-- The first wait of a request, reported by `sent`. -/
lemma bsy_judged_iff {sent : Prop} (hsent : sent ↔ 0 < (poll busy drive.status 100000 d.polled).1) :
    (sent ↔ busy (lastStatus drive (waited drive busy io d)) = false) ↔
      ¬ FirstAt busy drive.status d.polled 100000 := by
  rw [hsent, lastStatus, waited_polled]
  exact poll_judged_iff 100000 d.polled

/-- The second one, if the command has been sent, reported by `success`. -/
lemma drq_judged_iff (command : UInt8) {sent success : Prop}
    (hsent : sent ↔ 0 < (poll busy drive.status 100000 d.polled).1)
    (hsuccess : success ↔ 0 < (poll busy drive.status 100000 d.polled).1 ∧
      0 < (poll noRequest drive.status 100000 (waited drive busy io d).polled).1) :
    (sent → (success ↔
        noRequest (lastStatus drive (requested drive io driveNum lba command d)) = false)) ↔
      ∀ k < 100000, FirstAt busy drive.status d.polled k →
        ¬ FirstAt noRequest drive.status (d.polled + k + 1) 100000 := by
  have hjudged := poll_judged_iff (p := noRequest) (s := drive.status) 100000
    (waited drive busy io d).polled
  have hlast : (requested drive io driveNum lba command d).polled
      = (poll noRequest drive.status 100000 (waited drive busy io d).polled).2 :=
    waited_polled drive noRequest io _
  have hpos := poll_pos_iff (p := busy) (s := drive.status) 100000 d.polled
  rw [hsuccess, hsent, lastStatus, hlast]
  constructor
  · intro h k hk hfirst
    have hbusy := hpos.mpr ⟨k, hk, hfirst⟩
    have hplace : (waited drive busy io d).polled = d.polled + k + 1 := by
      rw [waited_polled, poll_snd_of_firstAt (Nat.le_of_lt hk) hfirst]
    have hiff := h hbusy
    rw [and_iff_right hbusy] at hiff
    rw [← hplace]
    exact hjudged.mp hiff
  · intro h hbusy
    obtain ⟨k, hk, hfirst⟩ := hpos.mp hbusy
    have hplace : (waited drive busy io d).polled = d.polled + k + 1 := by
      rw [waited_polled, poll_snd_of_firstAt (Nat.le_of_lt hk) hfirst]
    rw [and_iff_right hbusy]
    refine hjudged.mpr ?_
    rw [hplace]
    exact h k hk hfirst

/-! ### `ata_identify`

A status with ERR set ends the loop without a result, which is right whenever it comes. -/

/-- Behind the test for an empty bus, the loop decides. -/
lemma ataIdentify_loop (io : UInt16) (driveNum : UInt8) (device : AtaDevice)
    (hbus : drive.status (d.polled + 8) ≠ 0) :
    ((ataIdentify drive io driveNum device d).1 = true ↔ ∃ k, 0 < k ∧
      (pollUntil errorSet dataReady drive.status 10000 (d.polled + 9)).1 = some k) ∧
    (ataIdentify drive io driveNum device d).2.2.polled
      = (pollUntil errorSet dataReady drive.status 10000 (d.polled + 9)).2 := by
  have hanswer := ataIdentify_answer drive io driveNum device d
  have hready : (fun status => !busy status && !noRequest status) = dataReady := rfl
  rw [identifyAnswer, if_neg hbus, hready] at hanswer
  cases hpoll : pollUntil errorSet dataReady drive.status 10000 (d.polled + 9) with
  | mk timeout m =>
      rw [hpoll] at hanswer
      cases timeout with
      | none =>
          obtain ⟨hfound, hpolled⟩ := Prod.mk.inj hanswer
          exact ⟨by simp [hfound], hpolled⟩
      | some timeout =>
          obtain ⟨hfound, hpolled⟩ := Prod.mk.inj hanswer
          exact ⟨by simp [hfound], hpolled⟩

lemma identify_judged_iff (driveNum : UInt8) (device : AtaDevice)
    (hbus : drive.status (d.polled + 8) ≠ 0) :
    ((ataIdentify drive io driveNum device d).1 = true ↔
        (!errorSet (lastStatus drive (ataIdentify drive io driveNum device d).2.2) &&
          dataReady (lastStatus drive (ataIdentify drive io driveNum device d).2.2)) = true) ↔
      ¬ (FirstAt (goesOn errorSet dataReady) drive.status (d.polled + 9) 9999 ∧
        errorSet (drive.status (d.polled + 9 + 9999)) = false) := by
  obtain ⟨hfound, hpolled⟩ := ataIdentify_loop io driveNum device hbus
  rw [hfound, lastStatus, hpolled]
  exact pollUntil_judged_iff errorSet dataReady 9999 (d.polled + 9)

/-! ## All waits

The parts are put together: seven waits, and the stream misleads one of them exactly if its first
ready answer is in the last place. -/

lemma WaitsJudge.not_late {driveNum : UInt8} {lba : ℕ} {buffer : Sector} {device : AtaDevice}
    (h : WaitsJudge drive io driveNum lba buffer device d) :
    ¬ FirstAt busy drive.status d.polled 100000 :=
  (ataWait_judged_iff busy).mp h.bsy

/-- **When the waits judge what they saw last.**  Those and only those streams mislead a wait on
which what it waits for comes first in the last status byte that it can read. -/
theorem waits_judge_iff (drive : PortDrive) (io : UInt16) (driveNum : UInt8) (lba : ℕ)
    (buffer : Sector) (device : AtaDevice) (d : PortDev) :
    WaitsJudge drive io driveNum lba buffer device d ↔ NotOnLastPoll drive.status d.polled := by
  constructor
  · intro h
    exact
      { bsy := h.not_late
        drq := (ataWait_judged_iff noRequest).mp h.drq
        request := (drq_judged_iff 0x20 read_command_iff read_isSome_iff).mp h.readDrq
        identify := fun hbus => (identify_judged_iff driveNum device hbus).mp (h.identify hbus) }
  · rintro ⟨hbsy, hdrq, hrequest, hidentify⟩
    exact
      { bsy := (ataWait_judged_iff busy).mpr hbsy
        drq := (ataWait_judged_iff noRequest).mpr hdrq
        readBsy := (bsy_judged_iff read_command_iff).mpr hbsy
        readDrq := (drq_judged_iff 0x20 read_command_iff read_isSome_iff).mpr hrequest
        writeBsy := (bsy_judged_iff write_command_iff).mpr hbsy
        writeDrq := (drq_judged_iff 0x30 write_command_iff write_eq_zero_iff).mpr hrequest
        identify := fun hbus => (identify_judged_iff driveNum device hbus).mpr (hidentify hbus) }

end Waits

/-! ## A drive that is ready at the last poll

BSY is set in 100000 answers and clear in all that follow. -/

/-- It keeps BSY set for 100000 status reads. -/
def lateDrive : PortDrive where
  status p := if p < 100000 then 0x80 else 0x40
  words _ := 0
  afterHeader _ := 0
  aroundData _ := 0

/-- Nothing has been read. -/
def freshPorts : PortDev where
  polled := 0
  fetched := 0
  log := []

lemma lateDrive_status (p : ℕ) : lateDrive.status p = if p < 100000 then 0x80 else 0x40 := rfl

lemma lateDrive_firstAt : FirstAt busy lateDrive.status 0 100000 := by
  have hbusy : busy 0x80 = true := by decide
  have hready : busy 0x40 = false := by decide
  constructor
  · intro j hj
    rw [Nat.zero_add, lateDrive_status, if_pos hj, hbusy]
  · rw [Nat.zero_add, lateDrive_status, if_neg (Nat.lt_irrefl _), hready]

/-- `ata_wait_bsy` has read the status 0x40 when it returns -1. -/
theorem late_drive_misjudged :
    (ataWaitBsy lateDrive 0x1F0 freshPorts).1 = -1 ∧
      lastStatus lateDrive (ataWaitBsy lateDrive 0x1F0 freshPorts).2 = 0x40 ∧
      ¬ WaitsJudge lateDrive 0x1F0 0 0 (fun _ => 0) (AtaTable.init.drives 0) freshPorts := by
  obtain ⟨hresult, hlast⟩ := ataWait_late 0x1F0 (d := freshPorts) lateDrive_firstAt
  refine ⟨hresult, hlast.trans ?_, fun hjudge => hjudge.not_late lateDrive_firstAt⟩
  rw [lateDrive_status]
  exact if_neg (Nat.lt_irrefl _)

end SzymOS
