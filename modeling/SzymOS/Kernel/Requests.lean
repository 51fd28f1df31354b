import SzymOS.Kernel.Responder

/-!
# Requests to a drive that answers

`filesystem.c` and `ata.c` each have their own functions to read and write a sector.  They wait for
BSY to clear, give the address and the command, and wait for DRQ; `ata.c` reads the status four
times more after it has selected the drive.  All four are instances of one request and one of two
ways to go on, and these are what a drive makes of them.

The code is given a stream of answers, the drive a history.  A course says that between two states
of the ports the two belong together: the answers in the log are those of the drive if and only if
the stream is fed with them at the places that are read.  Courses can be put one after the other, so
a request is a wait, some writes, perhaps a delay, and another wait.

With this a question about the code on some stream becomes one about the drive alone, in which no
stream occurs; and for a drive there is always a stream to ask it with.

* `Course` — what is done to the ports, as the drive sees it.
* `portReadSector_via`, `portWriteSector_via`, `ataRequest_via` — the code in this form.
* `finishRead_course`, `finishWrite_course` — a read and a write on a drive.
* `exists_feedsRequest`, `exists_feedsWrite` — every drive has a stream for them.

A statement about a request has two parts, which are kept together in `Course`: which places of the
stream must have which answers, and what the drive has seen at the end.  The places depend on the
answers, since a wait reads as far as it must; `waited_polled_of_answers` says where a wait ends if
the drive has answered it, and so where the next one begins.

`requestVia_course` puts a request together from its two waits and from what is sent in between, for
any way to send (`Sends`).  There are two of these, `sends_emit` and `sends_requestSector`.
-/

set_option autoImplicit false

namespace SzymOS

open Bytes Polling

/-! ## Courses

A step that sends is answered by every drive, one that reads is answered if it is fed, and one that
prints is not noticed. -/

/-- What is done to the ports between two states of them is answered by the drive exactly if the
stream is `fed` with its answers, and then the drive, which had seen `s`, has seen `s'`. -/
structure Course (R : Responder) (fed : Prop) (d d' : PortDev) (s s' : Seen) : Prop where
  grows : d.log <+: d'.log
  answered : Answered R s (newEvents d d') ↔ fed
  sees : fed → s.afterAll (newEvents d d') = s'

section Courses

variable {R : Responder} {fed fed' : Prop} {d d' d'' : PortDev} {s s' s'' : Seen}

lemma newEvents_append (h : d.log <+: d'.log) (h' : d'.log <+: d''.log) :
    newEvents d d'' = newEvents d d' ++ newEvents d' d'' := by
  obtain ⟨events, hlog⟩ := h
  obtain ⟨events', hlog'⟩ := h'
  have hall : d''.log = d.log ++ (events ++ events') := by
    rw [← hlog', ← hlog, List.append_assoc]
  rw [newEvents_eq hall, newEvents_eq hlog.symm, newEvents_eq hlog'.symm]

/-- One after the other.  The second need be known only where the first is fed. -/
lemma Course.trans (h : Course R fed d d' s s') (hgrows : d'.log <+: d''.log)
    (h' : fed → Course R fed' d' d'' s' s'') : Course R (fed ∧ fed') d d'' s s'' where
  grows := h.grows.trans hgrows
  answered := by
    rw [newEvents_append h.grows hgrows, answered_append, h.answered]
    refine and_congr_right fun hfed => ?_
    rw [h.sees hfed, (h' hfed).answered]
  sees := by
    rintro ⟨hfed, hfed'⟩
    rw [newEvents_append h.grows hgrows, Seen.afterAll_append, h.sees hfed, (h' hfed).sees hfed']

lemma Course.andThen (h : Course R fed d d' s s') (h' : Course R fed' d' d'' s' s'') :
    Course R (fed ∧ fed') d d'' s s'' :=
  h.trans h'.grows fun _ => h'

lemma Course.congr (h : Course R fed d d' s s') (hiff : fed ↔ fed') : Course R fed' d d' s s' where
  grows := h.grows
  answered := h.answered.trans hiff
  sees hfed := h.sees (hiff.mpr hfed)

lemma course_refl (R : Responder) (d : PortDev) (s : Seen) : Course R True d d s s where
  grows := List.prefix_rfl
  answered := by
    rw [newEvents_eq (List.append_nil d.log).symm]
    exact Iff.rfl
  sees _ := by rw [newEvents_eq (List.append_nil d.log).symm, Seen.afterAll_nil]

/-- Only the log matters. -/
lemma Course.of_log (h : Course R fed d d' s s') (hlog : d''.log = d'.log) :
    Course R fed d d'' s s' := by
  have hnew : newEvents d d'' = newEvents d d' := by rw [newEvents, newEvents, hlog]
  exact ⟨hlog ▸ h.grows, hnew ▸ h.answered, hnew ▸ h.sees⟩

/-- What is sent needs no answer. -/
lemma course_emit (R : Responder) (d : PortDev) (s : Seen) (events : List PortEvent)
    (h : ∀ e ∈ events, ∀ port answers, e ≠ .wait port answers) :
    Course R True d (d.emit events) s (s.afterAll events) where
  grows := List.prefix_append _ _
  answered := by
    rw [newEvents_eq (d := d) rfl]
    exact iff_of_true (answered_of_forall h) trivial
  sees _ := by rw [newEvents_eq (d := d) rfl]

/-- Messages are not sent to the drive. -/
lemma course_print (R : Responder) (d : PortDev) (s : Seen) (calls : List TermCall) :
    Course R True d (d.emit (calls.map .term)) s s := by
  have hsame : s.afterAll (calls.map .term) = s := by
    induction calls with
    | nil => rfl
    | cons call calls ih => exact ih
  have hcourse := course_emit R d s (calls.map .term) (by simp)
  rwa [hsame] at hcourse

/-- Nor is one that is printed in one of two cases. -/
lemma course_report {α : Type} (R : Responder) (failed : Prop) [Decidable failed] (a b : α)
    (d : PortDev) (s : Seen) (calls : List TermCall) :
    Course R True d (if failed then (a, d.emit (calls.map .term)) else (b, d)).2 s s := by
  split_ifs
  · exact course_print R d s calls
  · exact course_refl R d s

lemma course_reading (R : Responder) (drive : PortDrive) (io : UInt16) (k : ℕ) (d : PortDev)
    (s : Seen) : Course R (slice drive.status d.polled k = slice (R.answers s) 0 k) d
      (readStatuses drive io k d) s (s.later k) where
  grows := List.prefix_append _ _
  answered := by
    rw [newEvents_eq (d := d) rfl, answered_wait]
    exact and_iff_left trivial
  sees _ := by
    rw [newEvents_eq (d := d) rfl, Seen.afterAll_cons, Seen.after, slice_length, Seen.afterAll_nil]

/-- **A wait.** -/
lemma course_waited (R : Responder) (drive : PortDrive) (waiting : UInt8 → Bool) (io : UInt16)
    (d : PortDev) (s : Seen) :
    Course R (slice drive.status d.polled (R.wait waiting s).2
        = slice (R.answers s) 0 (R.wait waiting s).2) d
      (waited drive waiting io d) s (s.later (R.wait waiting s).2) := by
  have hcourse := (course_reading R drive io
    ((poll waiting drive.status 100000 d.polled).2 - d.polled) d s).congr
      (wait_answered_iff drive.status d.polled waiting)
  refine ⟨hcourse.grows, hcourse.answered, fun hfed => ?_⟩
  have hreads : (poll waiting drive.status 100000 d.polled).2 - d.polled
      = (R.wait waiting s).2 := by
    rw [poll_of_answers drive.status d.polled waiting hfed, Nat.add_sub_cancel_left]
  have hsees := hcourse.sees hfed
  rw [hreads] at hsees
  rwa [waited, hreads]

/-- Where the stream is after a wait that the drive has answered. -/
lemma waited_polled_of_answers (drive : PortDrive) (waiting : UInt8 → Bool) (io : UInt16)
    {d : PortDev} {s : Seen} (hfed : slice drive.status d.polled (R.wait waiting s).2
      = slice (R.answers s) 0 (R.wait waiting s).2) :
    (waited drive waiting io d).polled = d.polled + (R.wait waiting s).2 := by
  rw [waited_polled, poll_of_answers drive.status d.polled waiting hfed]

end Courses

/-! ## Requests

What differs between the two files is in `send`: the writes that select the drive and give the
address and the command, with the status reads of the delay among them or without. -/

/-- What the drive has seen when it has the command. -/
def commanded (io : UInt16) (driveNum : UInt8) (lba : ℕ) (command : UInt8) (s : Seen) : Seen :=
  ⟨s.writes ++ commandEvents io driveNum lba command, 0, 0⟩

/-- What it has seen when it is selected. -/
def selectedSeen (io : UInt16) (driveNum : UInt8) (lba : ℕ) (s : Seen) : Seen :=
  ⟨s.writes ++ (selectEvents io driveNum lba).take 1, 0, 0⟩

/-- Wait, give the command, wait: whether the drive has asked for data. -/
def requestVia (drive : PortDrive) (io : UInt16) (send : PortDev → PortDev)
    (busyError drqError : List TermCall) (d : PortDev) : Bool × PortDev :=
  let ready := waited drive busy io d
  if (poll busy drive.status 100000 d.polled).1 ≤ 0 then (false, ready.emit (busyError.map .term))
  else
    let asked := waited drive noRequest io (send ready)
    if (poll noRequest drive.status 100000 (send ready).polled).1 ≤ 0 then
      (false, asked.emit (drqError.map .term))
    else (true, asked)

/-- A way to give the command, with `delay` status reads after the drive is selected. -/
structure Sends (R : Responder) (drive : PortDrive) (io : UInt16) (driveNum : UInt8) (lba : ℕ)
    (command : UInt8) (delay : ℕ) (send : PortDev → PortDev) : Prop where
  course : ∀ d s, Course R (slice drive.status d.polled delay
      = slice (R.answers (selectedSeen io driveNum lba s)) 0 delay) d (send d) s
    (commanded io driveNum lba command s)
  polled : ∀ d, (send d).polled = d.polled + delay
  fetched : ∀ d, (send d).fetched = d.fetched

namespace Responder

variable (R : Responder) (io : UInt16) (driveNum : UInt8) (lba : ℕ) (command : UInt8)

/-- The same on the drive itself. -/
def request (s : Seen) : Bool × Seen :=
  let (timeout, reads) := R.wait busy s
  if timeout ≤ 0 then (false, s.later reads)
  else
    let s := commanded io driveNum lba command s
    let (timeout, reads) := R.wait noRequest s
    (decide (0 < timeout), s.later reads)

/-- The stream has the answers of the drive wherever a request reads it from place `n` on. -/
def FeedsRequest (delay : ℕ) (status : ℕ → UInt8) (n : ℕ) (s : Seen) : Prop :=
  let reads := (R.wait busy s).2
  let s' := commanded io driveNum lba command s
  slice status n reads = slice (R.answers s) 0 reads ∧ (0 < (R.wait busy s).1 →
    slice status (n + reads) delay
        = slice (R.answers (selectedSeen io driveNum lba s)) 0 delay ∧
      slice status (n + reads + delay) (R.wait noRequest s').2
        = slice (R.answers s') 0 (R.wait noRequest s').2)

end Responder

section Requests

variable {R : Responder} {drive : PortDrive} {io : UInt16} {driveNum : UInt8} {lba : ℕ}
  {command : UInt8} {delay : ℕ} {send : PortDev → PortDev}

lemma requestVia_fetched (hsend : Sends R drive io driveNum lba command delay send)
    (busyError drqError : List TermCall) (d : PortDev) :
    (requestVia drive io send busyError drqError d).2.fetched = d.fetched := by
  simp only [requestVia]
  split_ifs
  · rfl
  · exact hsend.fetched _
  · exact hsend.fetched _

/-- What is left of a request after its first wait. -/
lemma requestVia_grows (hsend : Sends R drive io driveNum lba command delay send)
    (busyError drqError : List TermCall) (d : PortDev) : (waited drive busy io d).log <+:
      (requestVia drive io send busyError drqError d).2.log := by
  have hsent := (hsend.course (waited drive busy io d) ⟨[], 0, 0⟩).grows
  have hasked : (send (waited drive busy io d)).log <+:
      (waited drive noRequest io (send (waited drive busy io d))).log := List.prefix_append _ _
  simp only [requestVia]
  split_ifs
  · exact List.prefix_append _ _
  · exact (hsent.trans hasked).trans (List.prefix_append _ _)
  · exact hsent.trans hasked

/-- **A request** is what the drive makes of it. -/
lemma requestVia_course (hsend : Sends R drive io driveNum lba command delay send)
    (busyError drqError : List TermCall) (d : PortDev) (s : Seen) :
    Course R (R.FeedsRequest io driveNum lba command delay drive.status d.polled s) d
      (requestVia drive io send busyError drqError d).2 s
      (R.request io driveNum lba command s).2 := by
  refine (course_waited R drive busy io d s).trans
    (requestVia_grows hsend busyError drqError d) fun hfed => ?_
  have hpoll := poll_of_answers drive.status d.polled busy hfed
  have hpolled := waited_polled_of_answers drive busy io hfed
  simp only [requestVia, Responder.request, hpoll]
  by_cases hbusy : 0 < (R.wait busy s).1
  · rw [if_neg (not_le.mpr hbusy), if_neg (not_le.mpr hbusy)]
    have hsent := hsend.course (waited drive busy io d) (s.later (R.wait busy s).2)
    have hasked := hsent.andThen (course_waited R drive noRequest io
      (send (waited drive busy io d)) (commanded io driveNum lba command s))
    rw [hsend.polled, hpolled] at hasked
    refine (hasked.andThen (course_report R _ _ _ _ _ drqError)).congr ?_
    rw [and_true]
    exact ⟨fun h _ => h, fun h => h hbusy⟩
  · rw [if_pos (not_lt.mp hbusy), if_pos (not_lt.mp hbusy)]
    exact (course_print R _ _ busyError).congr (iff_of_true trivial fun h => absurd h hbusy)

lemma requestVia_result (hsend : Sends R drive io driveNum lba command delay send)
    (busyError drqError : List TermCall) {d : PortDev} {s : Seen}
    (hfeeds : R.FeedsRequest io driveNum lba command delay drive.status d.polled s) :
    (requestVia drive io send busyError drqError d).1
      = (R.request io driveNum lba command s).1 := by
  obtain ⟨hfed, hrest⟩ := hfeeds
  have hpoll := poll_of_answers drive.status d.polled busy hfed
  have hpolled := waited_polled_of_answers drive busy io hfed
  simp only [requestVia, Responder.request, hpoll]
  by_cases hbusy : 0 < (R.wait busy s).1
  · obtain ⟨-, hasked⟩ := hrest hbusy
    have hpoll' := poll_of_answers drive.status _ noRequest hasked
    rw [if_neg (not_le.mpr hbusy), if_neg (not_le.mpr hbusy), hsend.polled, hpolled, hpoll']
    by_cases hrequest : 0 < (R.wait noRequest (commanded io driveNum lba command s)).1
    · rw [if_neg (not_le.mpr hrequest)]
      exact (decide_eq_true hrequest).symm
    · rw [if_pos (not_lt.mp hrequest)]
      exact (decide_eq_false hrequest).symm
  · rw [if_pos (not_lt.mp hbusy), if_pos (not_lt.mp hbusy)]

end Requests

/-! ## The four functions

Each of them is a request, and what comes after it if it succeeds; both halves are named, and the
code is shown to be their composition. -/

/-! ### After the request

A read fetches 256 words.  A write sends 256 words and waits, and in one of the two files the
outcome of this wait is the result. -/

/-- What follows a request to read. -/
def finishRead (drive : PortDrive) (io : UInt16) (request : Bool × PortDev) :
    Option Sector × PortDev :=
  if request.1 then
    (some (bufferOfWords fun i => drive.words (request.2.fetched + i)),
      { request.2 with
        fetched := request.2.fetched + 256
        log := request.2.log ++ List.replicate 256 (.inw io) })
  else (none, request.2)

/-- The words of a sector. -/
def dataWrites (io : UInt16) (buffer : Sector) : List PortEvent :=
  (List.range 256).map fun i => .outw io (bufferWord buffer i)

/-- What follows a request to write.  Whether the last wait has ended in time is looked at by one of
the drivers only. -/
def finishWrite (drive : PortDrive) (io : UInt16) (buffer : Sector) (checked : Bool)
    (lateError : List TermCall) (request : Bool × PortDev) : ℤ × PortDev :=
  if !request.1 then (-1, request.2)
  else
    let sent := request.2.emit (dataWrites io buffer)
    let done := waited drive busy io sent
    if checked = true ∧ (poll busy drive.status 100000 sent.polled).1 ≤ 0 then
      (-1, done.emit (lateError.map .term))
    else (0, done)

section Functions

variable (drive : PortDrive)

lemma emit_nil (d : PortDev) : d.emit [] = d := by
  rw [PortDev.emit, List.append_nil]

lemma portReadSector_via (io : UInt16) (driveNum : UInt8) (lba : ℕ) (d : PortDev) :
    portReadSector drive io driveNum lba d = finishRead drive io
      (requestVia drive io (fun d => d.emit (commandEvents io driveNum lba 0x20)) [] [] d) := by
  simp only [portReadSector, waitWhile_eq, requestVia, PortDev.emit, List.map_nil, List.append_nil]
  by_cases hbusy : (poll busy drive.status 100000 d.polled).1 ≤ 0
  · rw [if_pos hbusy, if_pos hbusy]
    rfl
  · rw [if_neg hbusy, if_neg hbusy]
    by_cases hrequest :
        (poll noRequest drive.status 100000 (waited drive busy io d).polled).1 ≤ 0
    · simp only [if_pos hrequest]
      rfl
    · simp only [if_neg hrequest]
      rfl

lemma portWriteSector_via (io : UInt16) (driveNum : UInt8) (lba : ℕ) (buffer : Sector)
    (d : PortDev) : portWriteSector drive io driveNum lba buffer d
      = finishWrite drive io buffer false [] (requestVia drive io
        (fun d => d.emit (commandEvents io driveNum lba 0x30))
        [.writestring "[FS ERROR] Timeout waiting for ready\n"]
        [.writestring "[FS ERROR] Timeout waiting for DRQ\n"] d) := by
  simp only [portWriteSector, waitWhile_eq, requestVia, PortDev.emit]
  by_cases hbusy : (poll busy drive.status 100000 d.polled).1 ≤ 0
  · rw [if_pos hbusy, if_pos hbusy]
    rfl
  · rw [if_neg hbusy, if_neg hbusy]
    by_cases hrequest :
        (poll noRequest drive.status 100000 (waited drive busy io d).polled).1 ≤ 0
    · simp only [hrequest, if_true]
      rfl
    · simp only [hrequest, if_false]
      simp [finishWrite, dataWrites, PortDev.emit]

lemma ataRequest_via (device : AtaDevice) (lba : ℕ) (command : UInt8) (busyError drqError : String)
    (d : PortDev) : ataRequest drive device lba command busyError drqError d
      = requestVia drive device.ioBase (requestSector drive device lba command)
        [.writestring busyError] [.writestring drqError] d := by
  have hneg : (-1 : ℤ) < 0 := by omega
  have hzero : ¬ (0 : ℤ) < 0 := by omega
  simp only [ataRequest, ataWaitBsy, ataWaitDrq, ataWait_eq, requestVia]
  by_cases hbusy : 0 < (poll busy drive.status 100000 d.polled).1
  · rw [if_pos hbusy, if_neg hzero, if_neg (not_le.mpr hbusy)]
    by_cases hrequest : 0 < (poll noRequest drive.status 100000
        (requestSector drive device lba command (waited drive busy device.ioBase d)).polled).1
    · rw [if_pos hrequest, if_neg hzero, if_neg (not_le.mpr hrequest)]
    · rw [if_neg hrequest, if_pos hneg, if_pos (not_lt.mp hrequest)]
      rfl
  · rw [if_neg hbusy, if_pos hneg, if_pos (not_lt.mp hbusy)]
    rfl

variable (R : Responder)

/-- `filesystem.c` gives the address at once. -/
lemma sends_emit (io : UInt16) (driveNum : UInt8) (lba : ℕ) (command : UInt8) :
    Sends R drive io driveNum lba command 0
      (fun d => d.emit (commandEvents io driveNum lba command)) where
  course d s := by
    have hsent := course_emit R d s (commandEvents io driveNum lba command)
      (by simp [commandEvents, selectEvents])
    have hseen : s.afterAll (commandEvents io driveNum lba command)
        = commanded io driveNum lba command s := by
      simp [commanded, commandEvents, selectEvents, Seen.after]
    rw [hseen] at hsent
    exact hsent.congr (iff_of_true trivial rfl)
  polled _ := rfl
  fetched _ := rfl

/-- `ata.c` reads the status four times in between. -/
lemma sends_requestSector (device : AtaDevice) (lba : ℕ) (command : UInt8) :
    Sends R drive device.ioBase device.drive lba command 4
      (requestSector drive device lba command) where
  course d s := by
    have hselect := course_emit R d s
      ((selectEvents device.ioBase device.drive lba).take 1) (by simp [selectEvents])
    have hdelay := hselect.andThen (course_reading R drive device.ioBase 4
      (d.emit ((selectEvents device.ioBase device.drive lba).take 1))
      (selectedSeen device.ioBase device.drive lba s))
    have hsent := hdelay.andThen (course_emit R _
      ((selectedSeen device.ioBase device.drive lba s).later 4)
      ((commandEvents device.ioBase device.drive lba command).drop 1)
      (by simp [commandEvents, selectEvents]))
    have hseen : ((selectedSeen device.ioBase device.drive lba s).later 4).afterAll
          ((commandEvents device.ioBase device.drive lba command).drop 1)
        = commanded device.ioBase device.drive lba command s := by
      simp [commanded, selectedSeen, commandEvents, selectEvents, Seen.after, Seen.later]
    rw [hseen] at hsent
    refine hsent.congr ?_
    rw [true_and, and_true]
    exact Iff.rfl
  polled _ := rfl
  fetched _ := rfl

end Functions

/-! ## Reading and writing on the drive itself

A read takes the words that the drive gives after the request.  A write sends the words of the
sector and waits once more for BSY to clear. -/

/-- After the words of a sector. -/
def sentSeen (io : UInt16) (buffer : Sector) (s : Seen) : Seen :=
  ⟨s.writes ++ dataWrites io buffer, s.sinceRegister, 0⟩

namespace Responder

variable (R : Responder) (io : UInt16) (driveNum : UInt8) (lba : ℕ)

def read (s : Seen) : Option Sector × Seen :=
  let (asked, s) := R.request io driveNum lba 0x20 s
  (if asked then some (bufferOfWords (R.word s.writes)) else none, s)

/-- `checked` is whether the last wait is looked at. -/
def write (buffer : Sector) (checked : Bool) (s : Seen) : ℤ × Seen :=
  let (asked, s) := R.request io driveNum lba 0x30 s
  if !asked then (-1, s)
  else
    let s := sentSeen io buffer s
    let (timeout, reads) := R.wait busy s
    (if checked = true ∧ timeout ≤ 0 then -1 else 0, s.later reads)

/-- The stream has the answers of the drive wherever a write reads it from place `n` on. -/
def FeedsWrite (buffer : Sector) (delay : ℕ) (status : ℕ → UInt8) (n : ℕ) (s : Seen) : Prop :=
  let s' := commanded io driveNum lba 0x30 s
  let sent := sentSeen io buffer (R.request io driveNum lba 0x30 s).2
  R.FeedsRequest io driveNum lba 0x30 delay status n s ∧
    ((R.request io driveNum lba 0x30 s).1 = true →
      slice status (n + (R.wait busy s).2 + delay + (R.wait noRequest s').2) (R.wait busy sent).2
        = slice (R.answers sent) 0 (R.wait busy sent).2)

end Responder

section Runs

variable {R : Responder} {drive : PortDrive} {io : UInt16} {driveNum : UInt8} {lba : ℕ}
  {delay : ℕ} {send : PortDev → PortDev}

lemma afterAll_outw (s : Seen) (words : List UInt16) (h : words ≠ []) :
    s.afterAll (words.map (.outw io)) = ⟨s.writes ++ words.map (.outw io), s.sinceRegister, 0⟩ := by
  induction words generalizing s with
  | nil => exact absurd rfl h
  | cons word words ih =>
      rw [List.map_cons, Seen.afterAll_cons, Seen.after]
      cases words with
      | nil => rfl
      | cons word' words => rw [ih _ (List.cons_ne_nil _ _), List.append_assoc]; rfl

lemma course_data (R : Responder) (io : UInt16) (buffer : Sector) (d : PortDev) (s : Seen) :
    Course R True d (d.emit (dataWrites io buffer)) s (sentSeen io buffer s) := by
  have hsent := course_emit R d s (dataWrites io buffer) (by simp [dataWrites])
  have hwords : dataWrites io buffer = ((List.range 256).map (bufferWord buffer)).map (.outw io) :=
    List.map_map.symm
  have hseen : s.afterAll (dataWrites io buffer) = sentSeen io buffer s := by
    rw [sentSeen, hwords]
    exact afterAll_outw s _ (by simp)
  rwa [hseen] at hsent

/-- Where the stream is when the drive has asked for data. -/
lemma requestVia_polled {command : UInt8} (hsend : Sends R drive io driveNum lba command delay send)
    (busyError drqError : List TermCall) {d : PortDev} {s : Seen}
    (hfeeds : R.FeedsRequest io driveNum lba command delay drive.status d.polled s)
    (hasked : (R.request io driveNum lba command s).1 = true) :
    (requestVia drive io send busyError drqError d).2.polled
      = d.polled + (R.wait busy s).2 + delay
        + (R.wait noRequest (commanded io driveNum lba command s)).2 := by
  obtain ⟨hfed, hrest⟩ := hfeeds
  have hpoll := poll_of_answers drive.status d.polled busy hfed
  have hpolled := waited_polled_of_answers drive busy io hfed
  simp only [Responder.request] at hasked
  by_cases hbusy : 0 < (R.wait busy s).1
  · obtain ⟨-, hanswers⟩ := hrest hbusy
    have hpoll' := poll_of_answers drive.status _ noRequest hanswers
    rw [if_neg (not_le.mpr hbusy), decide_eq_true_eq] at hasked
    simp only [requestVia, hpoll]
    rw [if_neg (not_le.mpr hbusy), hsend.polled, hpolled, hpoll', if_neg (not_le.mpr hasked),
      waited_polled, hsend.polled, hpolled, hpoll']
  · rw [if_pos (not_lt.mp hbusy)] at hasked
    exact absurd hasked (by simp)

/-- Fetching words is not seen in the answers to status reads. -/
lemma course_fetch (R : Responder) (io : UInt16) (k : ℕ) (d : PortDev) (s : Seen) :
    Course R True d (d.emit (List.replicate k (.inw io))) s s := by
  have hsame : s.afterAll (List.replicate k (.inw io)) = s := by
    induction k with
    | zero => rfl
    | succ k ih => exact ih
  have hcourse := course_emit R d s (List.replicate k (.inw io)) (by simp)
  rwa [hsame] at hcourse

/-- **A read** is what the drive makes of it. -/
lemma finishRead_course (hsend : Sends R drive io driveNum lba 0x20 delay send) (d : PortDev)
    (busyError drqError : List TermCall) (s : Seen) :
    Course R (R.FeedsRequest io driveNum lba 0x20 delay drive.status d.polled s) d
      (finishRead drive io (requestVia drive io send busyError drqError d)).2 s
      (R.read io driveNum lba s).2 := by
  have hrequest := requestVia_course hsend busyError drqError d s
  simp only [finishRead, Responder.read]
  split_ifs
  · have hfetched := hrequest.andThen (course_fetch R io 256 _ _)
    exact Course.of_log (hfetched.congr (and_iff_left trivial)) rfl
  · exact hrequest

lemma finishRead_result (hsend : Sends R drive io driveNum lba 0x20 delay send) {d : PortDev}
    (busyError drqError : List TermCall) {s : Seen}
    (hfeeds : R.FeedsRequest io driveNum lba 0x20 delay drive.status d.polled s)
    (hwords : ∀ i, d.fetched + i < (finishRead drive io
        (requestVia drive io send busyError drqError d)).2.fetched →
      drive.words (d.fetched + i) = R.word (R.read io driveNum lba s).2.writes i) :
    (finishRead drive io (requestVia drive io send busyError drqError d)).1
      = (R.read io driveNum lba s).1 := by
  have hresult := requestVia_result hsend busyError drqError hfeeds
  have hfetched := requestVia_fetched hsend busyError drqError d
  simp only [finishRead, Responder.read, hresult] at hwords ⊢
  split_ifs at hwords ⊢ with hasked
  · rw [hfetched] at hwords ⊢
    refine congrArg some (funext fun j => ?_)
    simp only [bufferOfWords]
    have hlt : d.fetched + j / 2 < d.fetched + 256 := by
      have hj := j.isLt
      omega
    rw [hwords (j / 2) hlt]
  · rfl

lemma finishWrite_grows (checked : Bool) (lateError : List TermCall) (buffer : Sector)
    (request : Bool × PortDev) :
    request.2.log <+: (finishWrite drive io buffer checked lateError request).2.log := by
  have hdone : request.2.log <+:
      (waited drive busy io (request.2.emit (dataWrites io buffer))).log :=
    (List.prefix_append _ _).trans (List.prefix_append _ _)
  simp only [finishWrite]
  split_ifs
  · exact List.prefix_rfl
  · exact hdone.trans (List.prefix_append _ _)
  · exact hdone

/-- **A write** is what the drive makes of it. -/
lemma finishWrite_course (buffer : Sector) (checked : Bool)
    (hsend : Sends R drive io driveNum lba 0x30 delay send)
    (busyError drqError lateError : List TermCall) (d : PortDev) (s : Seen) :
    Course R (R.FeedsWrite io driveNum lba buffer delay drive.status d.polled s) d
      (finishWrite drive io buffer checked lateError
        (requestVia drive io send busyError drqError d)).2 s
      (R.write io driveNum lba buffer checked s).2 := by
  refine (requestVia_course hsend busyError drqError d s).trans
    (finishWrite_grows checked lateError buffer _) fun hfeeds => ?_
  have hresult := requestVia_result hsend busyError drqError hfeeds
  by_cases hasked : (R.request io driveNum lba 0x30 s).1 = true
  · have hpolled := requestVia_polled hsend busyError drqError hfeeds hasked
    have hdata := course_data R io buffer (requestVia drive io send busyError drqError d).2
      (R.request io driveNum lba 0x30 s).2
    have hdone := hdata.andThen (course_waited R drive busy io
      ((requestVia drive io send busyError drqError d).2.emit (dataWrites io buffer))
      (sentSeen io buffer (R.request io driveNum lba 0x30 s).2))
    simp only [finishWrite, Responder.write, hresult, hasked, Bool.not_true, Bool.false_eq_true,
      if_false]
    refine (hdone.andThen (course_report R _ _ _ _ _ lateError)).congr ?_
    rw [true_and, and_true, PortDev.emit, hpolled]
    exact ⟨fun h _ => h, fun h => h trivial⟩
  · rw [Bool.not_eq_true] at hasked
    simp only [finishWrite, Responder.write, hresult, hasked, Bool.not_false, if_true]
    exact (course_refl R _ _).congr (iff_of_true trivial fun h => absurd h (by simp))

lemma finishWrite_result {buffer : Sector} {checked : Bool}
    (hsend : Sends R drive io driveNum lba 0x30 delay send)
    (busyError drqError lateError : List TermCall) {d : PortDev} {s : Seen}
    (hfeeds : R.FeedsWrite io driveNum lba buffer delay drive.status d.polled s) :
    (finishWrite drive io buffer checked lateError
        (requestVia drive io send busyError drqError d)).1
      = (R.write io driveNum lba buffer checked s).1 := by
  obtain ⟨hrequest, hlast⟩ := hfeeds
  have hresult := requestVia_result hsend busyError drqError hrequest
  by_cases hasked : (R.request io driveNum lba 0x30 s).1 = true
  · have hpolled := requestVia_polled hsend busyError drqError hrequest hasked
    have hpoll := poll_of_answers drive.status _ busy (hlast hasked)
    simp only [finishWrite, Responder.write, hresult, hasked, PortDev.emit, hpolled, hpoll,
      Bool.not_true, Bool.false_eq_true, if_false]
    split_ifs
    · rfl
    · rfl
  · rw [Bool.not_eq_true] at hasked
    simp only [finishWrite, Responder.write, hresult, hasked, Bool.not_false, if_true]

end Runs

/-! ## Streams for a drive

The stream is made from the answers of the drive, phase after phase: each begins where the one
before it has ended. -/

/-- Every drive has a stream with its answers to a request, however long the delay, that goes on as
one likes. -/
lemma exists_feedsRequest (R : Responder) (io : UInt16) (driveNum : UInt8) (lba : ℕ)
    (command : UInt8) (delay n : ℕ) (s : Seen) (rest : ℕ → UInt8) :
    ∃ status, R.FeedsRequest io driveNum lba command delay status n s ∧
      ∀ p ≥ n + (R.wait busy s).2 + delay
          + (R.wait noRequest (commanded io driveNum lba command s)).2,
        status p = rest p := by
  let selected := selectedSeen io driveNum lba s
  let asked := commanded io driveNum lba command s
  let n₁ := n + (R.wait busy s).2
  let n₂ := n₁ + delay
  let from₂ := splice rest n₂ (R.wait noRequest asked).2 (R.answers asked)
  let from₁ := splice from₂ n₁ delay (R.answers selected)
  have hskip : n + (R.wait busy s).2 ≤ n₂ := Nat.le_add_right _ _
  have hskip' : n₁ + delay ≤ n₂ := Nat.le_refl _
  refine ⟨splice from₁ n (R.wait busy s).2 (R.answers s), ⟨?_, fun _ => ⟨?_, ?_⟩⟩, ?_⟩
  · exact slice_splice _ _ _ _
  · exact (slice_splice_after _ _ _ (Nat.le_refl n₁)).trans (slice_splice _ _ _ _)
  · exact (slice_splice_after _ _ _ hskip).trans
      ((slice_splice_after _ _ _ hskip').trans (slice_splice _ _ _ _))
  · intro p hp
    have hp₂ : n₂ + (R.wait noRequest asked).2 ≤ p := hp
    exact (splice_outside (Or.inr (by omega))).trans
      ((splice_outside (Or.inr (by omega))).trans (splice_outside (Or.inr hp₂)))

lemma exists_feedsWrite (R : Responder) (io : UInt16) (driveNum : UInt8) (lba : ℕ)
    (buffer : Sector) (delay n : ℕ) (s : Seen) :
    ∃ status, R.FeedsWrite io driveNum lba buffer delay status n s := by
  let sent := sentSeen io buffer (R.request io driveNum lba 0x30 s).2
  let n₃ := n + (R.wait busy s).2 + delay
    + (R.wait noRequest (commanded io driveNum lba 0x30 s)).2
  obtain ⟨status, hrequest, hrest⟩ := exists_feedsRequest R io driveNum lba 0x30 delay n s
    (splice (fun _ => 0) n₃ (R.wait busy sent).2 (R.answers sent))
  refine ⟨status, hrequest, fun _ => ?_⟩
  have hlast : slice status n₃ (R.wait busy sent).2
      = slice (splice (fun _ => 0) n₃ (R.wait busy sent).2 (R.answers sent)) n₃
        (R.wait busy sent).2 := slice_congr fun j _ => hrest _ (Nat.le_add_right _ _)
  exact hlast.trans (slice_splice _ _ _ _)

end SzymOS
