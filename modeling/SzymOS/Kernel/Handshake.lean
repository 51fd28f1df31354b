import SzymOS.Kernel.Ata

/-!
# When sector data may be transferred

A drive is ready for the 256 words of a sector when BSY and ERR are clear and DRQ is set.  The
loop of `ata_identify` waits for all three.  The other four functions wait for DRQ alone.

What a call has seen is read off the log: the status bytes that it has read since it gave its
command, of which the last before the first data word counts.  A call that ends without data must
say that it has failed.

The four functions differ in the way they give the address.  What they have in common is a wait for
BSY, a command, and a wait for DRQ, and for this the condition on the stream is proved once.

* `Handshake` — what should hold of the events of one call.
* `ataIdentify_handshake` — `ata_identify` meets it, whatever the drive answers.
* `handshake_iff` — the others meet it exactly when the first answer with DRQ set, if it comes in
  time, has BSY and ERR clear.

A call is cut at its first data word.  What comes before has no event on the data port (`Quiet`),
and quiet parts can be put together; so the events of a call are quiet throughout, or quiet up to a
wait, and then data.  In the first case nothing has to be shown but that the call has failed
(`QuietStep.handshake`).  In the second one the last answer of the wait decides, and nothing else
(`QuietStep.handshake_transfer`).

`handshake_request_iff` is this argument for a function that waits twice.  What it asks of such a
function is what happens after each outcome of the two waits, and this is read off the definitions
of the four functions in the two sections that follow.
-/

set_option autoImplicit false

namespace SzymOS

open Bytes Polling

/-! ## The handshake

The data port is at the base of the channel, and the status register seven ports further. -/

/-- A word on the data port. -/
def PortEvent.IsData (io : UInt16) : PortEvent → Bool
  | .inw port => port = io
  | .outw port _ => port = io
  | _ => false

/-- The last status byte read since the last command was given. -/
def statusSinceCommand (io : UInt16) (events : List PortEvent) : Option UInt8 :=
  events.foldl (fun last e =>
    match e with
    | .outb port _ => if port = io + 7 then none else last
    | .wait port answers => if port = io + 7 then answers.getLast?.or last else last
    | _ => last) none

/-- BSY and ERR are clear, and DRQ is set. -/
def MayTransfer (status : UInt8) : Prop :=
  busy status = false ∧ noRequest status = false ∧ errorSet status = false

/-- What one call does before its first word on the data port. -/
def beforeTransfer (io : UInt16) (events : List PortEvent) : List PortEvent :=
  events.takeWhile fun e => !e.IsData io

/-- A call that transfers data has seen that the drive is ready for it, and a call that does not
has failed. -/
structure Handshake (io : UInt16) (events : List PortEvent) (failed : Prop) : Prop where
  transfer : (∃ e ∈ events, e.IsData io = true) →
    ∃ status, statusSinceCommand io (beforeTransfer io events) = some status ∧ MayTransfer status
  refusal : (∀ e ∈ events, e.IsData io = false) → failed

/-- What has been added to the log. -/
def newEvents (d d' : PortDev) : List PortEvent := d'.log.drop d.log.length

lemma newEvents_eq {d d' : PortDev} {events : List PortEvent} (h : d'.log = d.log ++ events) :
    newEvents d d' = events := by
  rw [newEvents, h, List.drop_left]

section Shape

variable {io : UInt16} {before after : List PortEvent} {e : PortEvent} {failed : Prop}

/-- A list of events with none on the data port. -/
def Quiet (io : UInt16) (events : List PortEvent) : Prop := ∀ e ∈ events, e.IsData io = false

lemma Quiet.append {events events' : List PortEvent} (h : Quiet io events) (h' : Quiet io events') :
    Quiet io (events ++ events') :=
  List.forall_mem_append.mpr ⟨h, h'⟩

lemma handshake_of_quiet (h : Quiet io before) (hfailed : failed) :
    Handshake io before failed where
  transfer := fun ⟨e, he, hdata⟩ => absurd (h e he) (by simp [hdata])
  refusal _ := hfailed

/-- After a wait that ended with this status, a transfer is right exactly when it should be. -/
lemma handshake_transfer_iff {answers : List UInt8} {status : UInt8} (h : Quiet io before)
    (he : e.IsData io = true) :
    Handshake io (before ++ [.wait (io + 7) (answers ++ [status])] ++ e :: after) failed
      ↔ MayTransfer status := by
  have hquiet : Quiet io (before ++ [.wait (io + 7) (answers ++ [status])]) :=
    h.append (by simp [Quiet, PortEvent.IsData])
  have hbefore : beforeTransfer io
      (before ++ [.wait (io + 7) (answers ++ [status])] ++ e :: after)
        = before ++ [.wait (io + 7) (answers ++ [status])] := by
    rw [beforeTransfer, List.takeWhile_append_of_pos fun e' he' => by simp [hquiet e' he'],
      List.takeWhile_cons_of_neg (by simp [he]), List.append_nil]
  have hstatus : statusSinceCommand io (before ++ [.wait (io + 7) (answers ++ [status])])
      = some status := by
    simp [statusSinceCommand]
  have hmem : e ∈ before ++ [.wait (io + 7) (answers ++ [status])] ++ e :: after := by simp
  constructor
  · intro hs
    obtain ⟨status', hs', hmay⟩ := hs.transfer ⟨e, hmem, he⟩
    rw [hbefore, hstatus, Option.some.injEq] at hs'
    rw [hs']
    exact hmay
  · intro hmay
    refine ⟨fun _ => ⟨status, ?_, hmay⟩, ?_⟩
    · rw [hbefore, hstatus]
    · intro hall
      exact absurd (hall e hmem) (by simp [he])

/-- Between two states of the ports nothing is transferred. -/
def QuietStep (io : UInt16) (d d' : PortDev) : Prop :=
  ∃ events, d'.log = d.log ++ events ∧ Quiet io events

lemma QuietStep.trans {d d' d'' : PortDev} (h : QuietStep io d d') (h' : QuietStep io d' d'') :
    QuietStep io d d'' := by
  obtain ⟨events, hlog, hquiet⟩ := h
  obtain ⟨events', hlog', hquiet'⟩ := h'
  exact ⟨events ++ events', by rw [hlog', hlog, List.append_assoc], hquiet.append hquiet'⟩

lemma QuietStep.refl (io : UInt16) (d : PortDev) : QuietStep io d d :=
  ⟨[], (List.append_nil _).symm, by simp [Quiet]⟩

lemma QuietStep.emit {d d' : PortDev} (h : QuietStep io d d') (events : List PortEvent)
    (hquiet : Quiet io events) : QuietStep io d (d'.emit events) :=
  h.trans ⟨events, rfl, hquiet⟩

lemma QuietStep.reading {d d' : PortDev} (h : QuietStep io d d') (drive : PortDrive)
    (io' : UInt16) (n : ℕ) : QuietStep io d (readStatuses drive io' n d') :=
  h.trans ⟨_, rfl, by simp [Quiet, PortEvent.IsData]⟩

lemma QuietStep.handshake {d d' : PortDev} (h : QuietStep io d d') (hfailed : failed) :
    Handshake io (newEvents d d') failed := by
  obtain ⟨events, hlog, hquiet⟩ := h
  rw [newEvents_eq hlog]
  exact handshake_of_quiet hquiet hfailed

/-- A wait that is followed by a transfer. -/
lemma QuietStep.handshake_transfer {d d' d'' : PortDev} (h : QuietStep io d d') {drive : PortDrive}
    {m : ℕ} (hm : d'.polled < m) (hlog : d''.log
      = (readStatuses drive io (m - d'.polled) d').log ++ e :: after)
    (he : e.IsData io = true) :
    Handshake io (newEvents d d'') failed ↔ MayTransfer (drive.status (m - 1)) := by
  obtain ⟨events, hevents, hquiet⟩ := h
  have hnew : newEvents d d'' = events ++
      [.wait (io + 7) (slice drive.status d'.polled (m - 1 - d'.polled) ++ [drive.status (m - 1)])]
      ++ e :: after := by
    refine newEvents_eq (hlog.trans ?_)
    simp only [readStatuses, hevents, slice_of_lt drive.status hm, List.append_assoc]
  rw [hnew]
  exact handshake_transfer_iff hquiet he

end Shape

/-! ## ata_identify

Its loop tests ERR before anything else, and goes on to the words only from a status with BSY clear
and DRQ set, which is the last one that has been read. -/

/-- **IDENTIFY data is read only when the drive is ready**, whatever it answers. -/
theorem ataIdentify_handshake (drive : PortDrive) (io : UInt16) (driveNum : UInt8)
    (device : AtaDevice) (d : PortDev) :
    Handshake io (newEvents d (ataIdentify drive io driveNum device d).2.2)
      ((ataIdentify drive io driveNum device d).1 = false) := by
  have hstart : QuietStep io d (readStatuses drive io 1 (ata400nsDelay drive io
      ((ata400nsDelay drive io (d.emit [deviceEvent io driveNum])).emit
        [.outb (io + 7) 0xEC]))) := by
    have hselect := ((QuietStep.refl io d).emit [deviceEvent io driveNum]
      (by simp [Quiet, PortEvent.IsData, deviceEvent])).reading drive io 4
    have hcommand := (hselect.emit [.outb (io + 7) 0xEC]
      (by simp [Quiet, PortEvent.IsData])).reading drive io 4
    exact hcommand.reading drive io 1
  rw [ataIdentify]
  simp only
  generalize readStatuses drive io 1 _ = d' at hstart
  split_ifs with h0
  · exact hstart.handshake rfl
  · cases hpoll : pollUntil errorSet (fun status => !busy status && !noRequest status)
      drive.status 10000 d'.polled with
    | mk timeout m =>
        have hwait := hstart.reading drive io (m - d'.polled)
        cases timeout with
        | none => exact hwait.handshake rfl
        | some timeout =>
            simp only
            split_ifs with ht
            · exact hwait.handshake rfl
            · obtain ⟨hlt, herror, hready⟩ := pollUntil_nonneg (by omega) hpoll
              rw [Bool.and_eq_true, Bool.not_eq_true', Bool.not_eq_true'] at hready
              have hlog : (readStatuses drive io (m - d'.polled) d').log
                    ++ List.replicate 256 (.inw io)
                  = (readStatuses drive io (m - d'.polled) d').log
                    ++ .inw io :: List.replicate 255 (.inw io) := rfl
              exact (hstart.handshake_transfer hlt hlog (by simp [PortEvent.IsData])).mpr
                ⟨hready.1, hready.2, herror⟩

/-! ## Requests

A wait for DRQ ends at the first answer with DRQ set, and what else is set in it is not looked at.
That answer is all the condition is about. -/

/-- Place `m` of the stream is where the drive first asks for data: from place `n` on it clears BSY
within 100000 answers, and `skip` answers later it sets DRQ within 100000. -/
def RequestAt (skip : ℕ) (status : ℕ → UInt8) (n m : ℕ) : Prop :=
  ∃ k < 100000, FirstAt busy status n k ∧
    ∃ l < 100000, FirstAt noRequest status (n + k + 1 + skip) l ∧ m = n + k + 1 + skip + l

/-- When it first asks for data, if it does, BSY and ERR are clear. -/
def RequestsClean (skip : ℕ) (status : ℕ → UInt8) (n : ℕ) : Prop :=
  ∀ m, RequestAt skip status n m → busy (status m) = false ∧ errorSet (status m) = false

lemma requestAt_iff {skip : ℕ} {status : ℕ → UInt8} {n k l m : ℕ} (hk : k < 100000)
    (hbusy : FirstAt busy status n k) (hl : l < 100000)
    (hrequest : FirstAt noRequest status (n + k + 1 + skip) l) :
    RequestAt skip status n m ↔ m = n + k + 1 + skip + l := by
  constructor
  · rintro ⟨k', -, hbusy', l', -, hrequest', rfl⟩
    obtain rfl := hbusy.unique hbusy'
    rw [hrequest.unique hrequest']
  · exact fun h => ⟨k, hk, hbusy, l, hl, hrequest, h⟩

section Waits

variable (drive : PortDrive) (waiting : UInt8 → Bool) (io : UInt16) (d : PortDev)

/-- The ports after a wait, of either kind. -/
def waited : PortDev :=
  readStatuses drive io ((poll waiting drive.status 100000 d.polled).2 - d.polled) d

lemma waited_polled : (waited drive waiting io d).polled
    = (poll waiting drive.status 100000 d.polled).2 := by
  have hlt := lt_poll (p := waiting) (s := drive.status) 100000 d.polled
  simp only [waited, readStatuses]
  omega

lemma waitWhile_eq : waitWhile drive waiting (io + 7) d
    = ((poll waiting drive.status 100000 d.polled).1, waited drive waiting io d) := by
  have hpolled := waited_polled drive waiting io d
  simp only [waited, readStatuses] at hpolled
  simp only [waitWhile, waited, readStatuses, answers, hpolled]

lemma ataWait_eq : ataWait drive waiting io d
    = (if 0 < (poll waiting drive.status 100000 d.polled).1 then 0 else -1,
        waited drive waiting io d) := by
  simp only [ataWait, countDown_eq, waited]
  refine Prod.ext (if_congr ?_ rfl rfl) rfl
  rw [gt_iff_lt, Int.lt_toNat]
  exact Iff.rfl

lemma quietStep_waited {d₀ : PortDev} (h : QuietStep io d₀ d) :
    QuietStep io d₀ (waited drive waiting io d) :=
  h.reading drive io _

end Waits

/-- **The handshake of a function that waits for BSY, gives its command and waits for DRQ.** -/
lemma handshake_request_iff {drive : PortDrive} {io : UInt16} {d d' : PortDev} {failed : Prop}
    (skip : ℕ)
    (hbusy : ¬ 0 < (poll busy drive.status 100000 d.polled).1 → QuietStep io d d' ∧ failed)
    (hready : 0 < (poll busy drive.status 100000 d.polled).1 → ∃ d₁, QuietStep io d d₁ ∧
      d₁.polled = (poll busy drive.status 100000 d.polled).2 + skip ∧
      (¬ 0 < (poll noRequest drive.status 100000 d₁.polled).1 → QuietStep io d d' ∧ failed) ∧
      (0 < (poll noRequest drive.status 100000 d₁.polled).1 → ∃ e after, e.IsData io = true ∧
        d'.log = (waited drive noRequest io d₁).log ++ e :: after)) :
    Handshake io (newEvents d d') failed ↔ RequestsClean skip drive.status d.polled := by
  by_cases hb : 0 < (poll busy drive.status 100000 d.polled).1
  · obtain ⟨d₁, hquiet, hpolled, hnone, hsome⟩ := hready hb
    obtain ⟨k, hk, hfirst⟩ := (poll_pos_iff _ _).mp hb
    rw [poll_snd_of_firstAt (Nat.le_of_lt hk) hfirst] at hpolled
    by_cases hr : 0 < (poll noRequest drive.status 100000 d₁.polled).1
    · obtain ⟨e, after, he, hlog⟩ := hsome hr
      obtain ⟨l, hl, hrequest⟩ := (poll_pos_iff _ _).mp hr
      have hend := poll_snd_of_firstAt (Nat.le_of_lt hl) hrequest
      rw [waited, hend] at hlog
      rw [hquiet.handshake_transfer (by omega) hlog he, Nat.add_sub_cancel]
      rw [hpolled] at hrequest ⊢
      constructor
      · intro hmay m hm
        rw [(requestAt_iff hk hfirst hl hrequest).mp hm]
        exact ⟨hmay.1, hmay.2.2⟩
      · intro hclean
        obtain ⟨h1, h2⟩ := hclean _ ((requestAt_iff hk hfirst hl hrequest).mpr rfl)
        exact ⟨h1, hrequest.2, h2⟩
    · obtain ⟨hq, hfailed⟩ := hnone hr
      refine ⟨?_, fun _ => hq.handshake hfailed⟩
      rintro - m ⟨k', -, hfirst', l, hl, hrequest, -⟩
      obtain rfl := hfirst.unique hfirst'
      rw [← hpolled] at hrequest
      exact absurd ((poll_pos_iff _ _).mpr ⟨l, hl, hrequest⟩) hr
  · obtain ⟨hq, hfailed⟩ := hbusy hb
    refine ⟨?_, fun _ => hq.handshake hfailed⟩
    rintro - m ⟨k, hk, hfirst, -⟩
    exact absurd ((poll_pos_iff _ _).mpr ⟨k, hk, hfirst⟩) hb

/-! ## The two functions of the file system

They read from and write to the drive that the file system has selected.  When no drive is selected
they transfer nothing, and the call fails. -/

section Direct

variable (drive : PortDrive) (io : UInt16) (driveNum : UInt8) (lba : ℕ) (d : PortDev)

lemma quiet_command (command : UInt8) : Quiet io (commandEvents io driveNum lba command) := by
  simp [Quiet, PortEvent.IsData, commandEvents, selectEvents]

lemma portReadSector_handshake :
    Handshake io (newEvents d (portReadSector drive io driveNum lba d).2)
      ((portReadSector drive io driveNum lba d).1 = none)
        ↔ RequestsClean 0 drive.status d.polled := by
  have hbusy := quietStep_waited drive busy io d (QuietStep.refl io d)
  have hcommand := hbusy.emit _ (quiet_command io driveNum lba 0x20)
  refine handshake_request_iff 0 ?_ fun hb => ⟨_, hcommand,
    waited_polled drive busy io d, ?_, ?_⟩
  · intro hb
    simp only [portReadSector, waitWhile_eq, if_pos (not_lt.mp hb)]
    exact ⟨hbusy, trivial⟩
  · intro hr
    rw [PortDev.emit] at hr
    simp only [portReadSector, waitWhile_eq, if_neg (not_le.mpr hb), if_pos (not_lt.mp hr)]
    exact ⟨quietStep_waited drive noRequest io _ hcommand, trivial⟩
  · intro hr
    rw [PortDev.emit] at hr
    simp only [portReadSector, waitWhile_eq, if_neg (not_le.mpr hb), if_neg (not_le.mpr hr)]
    exact ⟨.inw io, List.replicate 255 (.inw io), by simp [PortEvent.IsData], rfl⟩

lemma portWriteSector_handshake (buffer : Sector) :
    Handshake io (newEvents d (portWriteSector drive io driveNum lba buffer d).2)
      ((portWriteSector drive io driveNum lba buffer d).1 = -1)
        ↔ RequestsClean 0 drive.status d.polled := by
  have hterm : ∀ text, Quiet io [.term (.writestring text)] := by simp [Quiet, PortEvent.IsData]
  have hbusy := quietStep_waited drive busy io d (QuietStep.refl io d)
  have hcommand := hbusy.emit _ (quiet_command io driveNum lba 0x30)
  refine handshake_request_iff 0 ?_ fun hb => ⟨_, hcommand,
    waited_polled drive busy io d, ?_, ?_⟩
  · intro hb
    simp only [portWriteSector, waitWhile_eq, if_pos (not_lt.mp hb)]
    exact ⟨hbusy.emit _ (hterm _), trivial⟩
  · intro hr
    rw [PortDev.emit] at hr
    simp only [portWriteSector, waitWhile_eq, if_neg (not_le.mpr hb), if_pos (not_lt.mp hr)]
    exact ⟨(quietStep_waited drive noRequest io _ hcommand).emit _ (hterm _), trivial⟩
  · intro hr
    rw [PortDev.emit] at hr
    simp only [portWriteSector, waitWhile_eq, if_neg (not_le.mpr hb), if_neg (not_le.mpr hr)]
    refine ⟨.outw io (bufferWord buffer 0), _, by simp [PortEvent.IsData],
      List.append_assoc _ _ _⟩

end Direct

/-- The words of the buffer, the first of them apart. -/
lemma outw_range (io : UInt16) (buffer : Sector) :
    (List.range 256).map (fun i => PortEvent.outw io (bufferWord buffer i))
      = .outw io (bufferWord buffer 0) ::
        (List.range' 1 255).map fun i => .outw io (bufferWord buffer i) := by
  rw [List.range_eq_range', List.range'_succ]
  rfl

lemma fsReadSectorDirect_handshake (drive : PortDrive) (lba : ℕ) (w : PortWorld) :
    Handshake w.fs.fsDriveIoBase
      (newEvents w.dev (fsReadSectorDirect (portPlatform drive) lba w).2.dev)
      ((fsReadSectorDirect (portPlatform drive) lba w).1 = none)
        ↔ (w.fs.fsDriveSelected = true → RequestsClean 0 drive.status w.dev.polled) := by
  cases hsel : w.fs.fsDriveSelected with
  | false =>
      simp only [fsReadSectorDirect, hsel, Bool.not_false, if_true]
      exact ⟨fun _ h => absurd h (by simp), fun _ => (QuietStep.refl _ _).handshake trivial⟩
  | true =>
      simp only [fsReadSectorDirect, hsel, Bool.not_true, Bool.false_eq_true, if_false]
      rw [true_imp_iff]
      exact portReadSector_handshake drive _ _ _ _

lemma fsWriteSectorDirect_handshake (drive : PortDrive) (lba : ℕ) (buffer : Sector)
    (w : PortWorld) :
    Handshake w.fs.fsDriveIoBase
      (newEvents w.dev (fsWriteSectorDirect (portPlatform drive) lba buffer w).2.dev)
      ((fsWriteSectorDirect (portPlatform drive) lba buffer w).1 = -1)
        ↔ (w.fs.fsDriveSelected = true → RequestsClean 0 drive.status w.dev.polled) := by
  cases hsel : w.fs.fsDriveSelected with
  | false =>
      simp only [fsWriteSectorDirect, hsel, Bool.not_false, if_true]
      exact ⟨fun _ h => absurd h (by simp), fun _ => (QuietStep.refl _ _).handshake trivial⟩
  | true =>
      simp only [fsWriteSectorDirect, hsel, Bool.not_true, Bool.false_eq_true, if_false]
      rw [true_imp_iff]
      exact portWriteSector_handshake drive _ _ _ _ _

/-! ## The two functions of the ATA driver

A request is refused when the selected entry of the table is not valid.  After the drive is selected
the status is read four times as a delay, which uses up answers between the two waits. -/

section Ata

variable (drive : PortDrive) (device : AtaDevice) (lba : ℕ) (command : UInt8)
  (busyError drqError : String) (d : PortDev)

lemma requestSector_polled : (requestSector drive device lba command d).polled = d.polled + 4 := rfl

lemma quietStep_requestSector {d₀ : PortDev} (h : QuietStep device.ioBase d₀ d) :
    QuietStep device.ioBase d₀ (requestSector drive device lba command d) := by
  have hselect := (h.emit [.outb (device.ioBase + 6) (UInt8.ofNat (0xE0 |||
    (device.drive.toNat <<< 4) ||| ((lba >>> 24) &&& 0x0F)))]
    (by simp [Quiet, PortEvent.IsData])).reading drive device.ioBase 4
  exact hselect.emit _ (by simp [Quiet, PortEvent.IsData])

/-- What the two functions have in common, up to the transfer. -/
lemma ataRequest_handshake {d₀ d' : PortDev} {failed : Prop}
    (h₀ : QuietStep device.ioBase d₀ d) (hpolled : d₀.polled = d.polled)
    (hrefused : ∀ port, ataRequest drive device lba command busyError drqError d = (false, port) →
      QuietStep device.ioBase d₀ port → QuietStep device.ioBase d₀ d' ∧ failed)
    (hready : ∀ port, ataRequest drive device lba command busyError drqError d = (true, port) →
      ∃ e after, e.IsData device.ioBase = true ∧ d'.log = port.log ++ e :: after) :
    Handshake device.ioBase (newEvents d₀ d') failed ↔ RequestsClean 4 drive.status d₀.polled := by
  have hterm : ∀ text, Quiet device.ioBase [.term (.writestring text)] := by
    simp [Quiet, PortEvent.IsData]
  have hbusy := quietStep_waited drive busy device.ioBase d h₀
  have hcommand := quietStep_requestSector drive device lba command _ hbusy
  have hneg : ¬ (0 : ℤ) < 0 := by omega
  have hneg' : (-1 : ℤ) < 0 := by omega
  refine handshake_request_iff 4 ?_ fun hb => ⟨_, hcommand, ?_, ?_, ?_⟩
  · intro hb
    rw [hpolled] at hb
    refine hrefused (_) ?_ (hbusy.emit _ (hterm busyError))
    simp only [ataRequest, ataWaitBsy, ataWait_eq, if_neg hb, if_pos hneg']
  · rw [requestSector_polled, waited_polled, hpolled]
  · intro hr
    rw [hpolled] at hb
    refine hrefused _ ?_
      ((quietStep_waited drive noRequest device.ioBase _ hcommand).emit _ (hterm drqError))
    simp only [ataRequest, ataWaitBsy, ataWaitDrq, ataWait_eq, if_pos hb, if_neg hneg, if_neg hr,
      if_pos hneg']
  · intro hr
    rw [hpolled] at hb
    refine hready _ ?_
    simp only [ataRequest, ataWaitBsy, ataWaitDrq, ataWait_eq, if_pos hb, if_neg hneg, if_pos hr]

end Ata

/-! ### The selected entry

The two functions look at the entry of the table that is selected, and refuse a request if there is
none, if it is not present or if it has no port. -/

/-- The entry of the selected drive is there and valid. -/
def UsableDrive (w : AtaWorld) : Prop :=
  ∃ device, selectedDevice w = some device ∧ device.present = true ∧ device.ioBase ≠ 0

/-- The port base in the entry that the index denotes. -/
def selectedBase (w : AtaWorld) : UInt16 := (w.dev.table.drives w.fs.selectedDrive.toNat).ioBase

lemma selectedBase_eq {w : AtaWorld} {device : AtaDevice} (h : selectedDevice w = some device) :
    selectedBase w = device.ioBase := by
  rw [selectedDevice, ataGetDrive] at h
  split_ifs at h
  rw [selectedBase, ← Option.some.inj h]

lemma usableDrive_iff {w : AtaWorld} {device : AtaDevice} (h : selectedDevice w = some device) :
    UsableDrive w ↔ ¬ (!device.present ∨ device.ioBase = 0) := by
  rw [not_or, Bool.not_eq_true', Bool.not_eq_false]
  constructor
  · rintro ⟨device', h', hvalid⟩
    rw [Option.some.inj (h.symm.trans h')]
    exact hvalid
  · exact fun hvalid => ⟨device, h, hvalid⟩

lemma quiet_terms (io : UInt16) (calls : List TermCall) : Quiet io (calls.map .term) := by
  simp [Quiet, PortEvent.IsData]

lemma not_usableDrive {w : AtaWorld} (h : selectedDevice w = none) : ¬ UsableDrive w := by
  rintro ⟨device, hdevice, -⟩
  rw [h] at hdevice
  exact absurd hdevice (Option.some_ne_none device).symm

/-- A request that is refused reads no status and transfers nothing. -/
lemma refused_handshake_iff {io : UInt16} {d : PortDev} {calls : List TermCall}
    {failed usable clean : Prop} (hfailed : failed) (hrefused : ¬ usable) :
    Handshake io (newEvents d (d.emit (calls.map .term))) failed ↔ (usable → clean) :=
  iff_of_true (((QuietStep.refl io d).emit _ (quiet_terms io calls)).handshake hfailed)
    fun h => absurd h hrefused

lemma ataReadSector_handshake (drive : PortDrive) (lba : ℕ) (w : AtaWorld) :
    Handshake (selectedBase w) (newEvents w.dev.port (ataReadSector drive lba w).2.dev.port)
      ((ataReadSector drive lba w).1 = none)
        ↔ (UsableDrive w → RequestsClean 4 drive.status w.dev.port.polled) := by
  cases hdev : selectedDevice w with
  | none =>
      simp only [ataReadSector, hdev, print_ata]
      exact refused_handshake_iff trivial (not_usableDrive hdev)
  | some device =>
      rw [selectedBase_eq hdev]
      by_cases hvalid : !device.present ∨ device.ioBase = 0
      · simp only [ataReadSector, hdev, if_pos hvalid, print_ata]
        exact refused_handshake_iff trivial fun h => absurd hvalid ((usableDrive_iff hdev).mp h)
      · simp only [forall_prop_of_true ((usableDrive_iff hdev).mpr hvalid)]
        refine ataRequest_handshake drive device lba 0x20
          "[ATA ERROR] Read timeout waiting for BSY\n"
          "[ATA ERROR] Read timeout waiting for DRQ\n" w.dev.port (QuietStep.refl _ _) rfl
          ?_ ?_
        · intro port hport hquiet
          simp only [ataReadSector, hdev, if_neg hvalid, hport]
          exact ⟨hquiet, rfl⟩
        · intro port hport
          simp only [ataReadSector, hdev, if_neg hvalid, hport]
          exact ⟨.inw device.ioBase, List.replicate 255 (.inw device.ioBase),
            by simp [PortEvent.IsData], rfl⟩

lemma ataWriteSector_handshake (drive : PortDrive) (lba : ℕ) (buffer : Sector) (w : AtaWorld) :
    Handshake (selectedBase w)
      (newEvents w.dev.port (ataWriteSector drive lba buffer w).2.dev.port)
      ((ataWriteSector drive lba buffer w).1 = -1)
        ↔ (UsableDrive w → RequestsClean 4 drive.status w.dev.port.polled) := by
  cases hdev : selectedDevice w with
  | none =>
      simp only [ataWriteSector, hdev, print_ata]
      exact refused_handshake_iff trivial (not_usableDrive hdev)
  | some device =>
      rw [selectedBase_eq hdev]
      by_cases hvalid : !device.present ∨ device.ioBase = 0
      · simp only [ataWriteSector, hdev, if_pos hvalid, print_ata]
        exact refused_handshake_iff trivial fun h => absurd hvalid ((usableDrive_iff hdev).mp h)
      · simp only [forall_prop_of_true ((usableDrive_iff hdev).mpr hvalid)]
        refine ataRequest_handshake drive device lba 0x30 "[ATA ERROR] Timeout waiting for BSY\n"
          "[ATA ERROR] Timeout waiting for DRQ\n" _
          ((QuietStep.refl _ w.dev.port).emit _ (quiet_terms _ [.printf
            "[DEBUG] Writing to drive %d, LBA %d, IO base 0x%x\n"
            [UInt32.ofInt w.fs.selectedDrive, UInt32.ofNat lba, device.ioBase.toUInt32]])) rfl
          ?_ ?_
        · intro port hport hquiet
          simp only [ataWriteSector, hdev, if_neg hvalid, print_ata, hport]
          exact ⟨hquiet, rfl⟩
        · intro port hport
          -- what follows the words is the last wait, and perhaps an error
          simp only [ataWriteSector, hdev, if_neg hvalid, print_ata, hport, ataWaitBsy, ataWait_eq,
            Bool.not_true, Bool.false_eq_true, if_false, outw_range]
          have hfirst : (PortEvent.outw device.ioBase (bufferWord buffer 0)).IsData device.ioBase
              = true := by simp [PortEvent.IsData]
          split_ifs
          all_goals
            simp only [waited, readStatuses, PortDev.emit, List.append_assoc, List.cons_append]
            exact ⟨_, _, hfirst, rfl⟩

/-- **When data is transferred only to and from a drive that is ready.**  By `ata_identify`
always; by each of the other four functions exactly when the first answer with DRQ set, if there
is one in time, has BSY and ERR clear. -/
theorem handshake_iff (drive : PortDrive) :
    (∀ io driveNum device d, Handshake io
        (newEvents d (ataIdentify drive io driveNum device d).2.2)
        ((ataIdentify drive io driveNum device d).1 = false)) ∧
      (∀ lba (w : PortWorld), Handshake w.fs.fsDriveIoBase
          (newEvents w.dev (fsReadSectorDirect (portPlatform drive) lba w).2.dev)
          ((fsReadSectorDirect (portPlatform drive) lba w).1 = none)
        ↔ (w.fs.fsDriveSelected = true → RequestsClean 0 drive.status w.dev.polled)) ∧
      (∀ lba buffer (w : PortWorld), Handshake w.fs.fsDriveIoBase
          (newEvents w.dev (fsWriteSectorDirect (portPlatform drive) lba buffer w).2.dev)
          ((fsWriteSectorDirect (portPlatform drive) lba buffer w).1 = -1)
        ↔ (w.fs.fsDriveSelected = true → RequestsClean 0 drive.status w.dev.polled)) ∧
      (∀ lba (w : AtaWorld), Handshake (selectedBase w)
          (newEvents w.dev.port (ataReadSector drive lba w).2.dev.port)
          ((ataReadSector drive lba w).1 = none)
        ↔ (UsableDrive w → RequestsClean 4 drive.status w.dev.port.polled)) ∧
      ∀ lba buffer (w : AtaWorld), Handshake (selectedBase w)
          (newEvents w.dev.port (ataWriteSector drive lba buffer w).2.dev.port)
          ((ataWriteSector drive lba buffer w).1 = -1)
        ↔ (UsableDrive w → RequestsClean 4 drive.status w.dev.port.polled) :=
  ⟨ataIdentify_handshake drive, fsReadSectorDirect_handshake drive,
    fsWriteSectorDirect_handshake drive, ataReadSector_handshake drive,
    ataWriteSector_handshake drive⟩

/-- A drive that is selected, and sets ERR with DRQ in every answer. -/
def erringWorld : PortWorld where
  fs := FsState.selected (some .primaryMaster)
  dev := { polled := 0, fetched := 0, log := [] }

lemma erring_not_clean : ¬ RequestsClean 0 PortDrive.erring.status 0 := by
  intro h
  have hrequest : RequestAt 0 PortDrive.erring.status 0 1 :=
    ⟨0, by omega, firstAt_zero.mpr (busy_erring 0), 0, by omega,
      firstAt_zero.mpr (noRequest_erring 1), rfl⟩
  have herror : errorSet 0x49 = true := by decide
  exact absurd (herror.symm.trans (h 1 hrequest).2) (by simp)

/-- It is read from and written to nevertheless. -/
theorem transfer_without_handshake :
    ¬ Handshake erringWorld.fs.fsDriveIoBase
        (newEvents erringWorld.dev
          (fsReadSectorDirect (portPlatform .erring) 2048 erringWorld).2.dev)
        ((fsReadSectorDirect (portPlatform .erring) 2048 erringWorld).1 = none) ∧
      ¬ Handshake erringWorld.fs.fsDriveIoBase
        (newEvents erringWorld.dev
          (fsWriteSectorDirect (portPlatform .erring) 2048 (fun _ => 0) erringWorld).2.dev)
        ((fsWriteSectorDirect (portPlatform .erring) 2048 (fun _ => 0) erringWorld).1 = -1) := by
  rw [fsReadSectorDirect_handshake, fsWriteSectorDirect_handshake]
  exact ⟨fun h => erring_not_clean (h rfl), fun h => erring_not_clean (h rfl)⟩

end SzymOS
