import SzymOS.Filesystem.PlatformView
import SzymOS.Kernel.Ata

/-!
# What the drivers do to the ports

A driver asks for a drive through the ports at its base, and waits and reads words; when it gives
up, it says so.  A property of events that has all of these is one of everything that a driver
adds to the log.

Two questions of this kind are asked: whether a driver touches a port of the serial line, and
whether its messages can be printed.  Each gives its property and the few facts of `Admits`, and
gets the drivers as a whole.

The messages come apart from the rest, because a driver chooses its accesses by the base of a drive
and its messages by what has gone wrong.

* `Admits` — what a property of events must have.
* `portReadSector_adds`, `portWriteSector_adds` — the driver of `filesystem.c`.
* `ataDetectDrives_adds`, `ataSelectDevice_adds` — `ata.c`.
-/

set_option autoImplicit false

namespace SzymOS

/-- The events of a driver for drives at this port base, its messages apart. -/
structure Admits (S : PortEvent → Prop) (io : UInt16) : Prop where
  wait : ∀ port answers, S (.wait port answers)
  inw : ∀ port, S (.inw port)
  outw : ∀ value, S (.outw io value)
  outb : ∀ k value, k < 8 → S (.outb (io + k) value)

/-- Events with this property have been added to the log. -/
def Adds (S : PortEvent → Prop) (d d' : PortDev) : Prop :=
  ∃ events, d'.log = d.log ++ events ∧ ∀ e ∈ events, S e

section Adds

variable {S : PortEvent → Prop} {io : UInt16} {d d' d'' : PortDev}

lemma Adds.refl (d : PortDev) : Adds S d d :=
  ⟨[], (List.append_nil _).symm, fun _ h => absurd h List.not_mem_nil⟩

lemma Adds.trans (h : Adds S d d') (h' : Adds S d' d'') : Adds S d d'' := by
  obtain ⟨events, hlog, hall⟩ := h
  obtain ⟨events', hlog', hall'⟩ := h'
  exact ⟨events ++ events', by rw [hlog', hlog, List.append_assoc],
    List.forall_mem_append.mpr ⟨hall, hall'⟩⟩

lemma Adds.emit (h : Adds S d d') {events : List PortEvent} (hall : ∀ e ∈ events, S e) :
    Adds S d (d'.emit events) := h.trans ⟨events, rfl, hall⟩

lemma Adds.one (h : Adds S d d') {e : PortEvent} (he : S e) : Adds S d (d'.emit [e]) :=
  h.emit (List.forall_mem_singleton.mpr he)

/-! ### One access after the other

A property that all events of an access have goes over to what the access adds. -/

variable (hS : Admits S io) (drive : PortDrive)

include hS

lemma Adds.reading (h : Adds S d d') (n : ℕ) : Adds S d (readStatuses drive io n d') :=
  h.trans ⟨_, rfl, List.forall_mem_singleton.mpr (hS.wait _ _)⟩

lemma Adds.waiting (h : Adds S d d') (waiting : UInt8 → Bool) (port : UInt16) :
    Adds S d (waitWhile drive waiting port d').2 :=
  h.trans ⟨_, rfl, List.forall_mem_singleton.mpr (hS.wait _ _)⟩

lemma Adds.fetching (h : Adds S d d') (fetched : ℕ) :
    Adds S d { d' with fetched, log := d'.log ++ List.replicate 256 (.inw io) } := by
  refine h.trans ⟨_, rfl, ?_⟩
  intro e he
  rw [List.eq_of_mem_replicate he]
  exact hS.inw io

lemma Adds.commanding (h : Adds S d d') (driveNum : UInt8) (lba : ℕ) (command : UInt8) :
    Adds S d (d'.emit (commandEvents io driveNum lba command)) := by
  refine h.emit ?_
  simp only [commandEvents, selectEvents, List.cons_append, List.nil_append, List.forall_mem_cons]
  exact ⟨hS.outb 6 _ (by decide), hS.outb 2 _ (by decide), hS.outb 3 _ (by decide),
    hS.outb 4 _ (by decide), hS.outb 5 _ (by decide), hS.outb 7 _ (by decide),
    fun _ h => absurd h List.not_mem_nil⟩

/-! ### The functions

The functions in the order in which they call one another. -/

lemma portReadSector_adds (driveNum : UInt8) (lba : ℕ) (d : PortDev) :
    Adds S d (portReadSector drive io driveNum lba d).2 := by
  have hbusy := (Adds.refl d).waiting hS drive busy (io + 7)
  have hrequest := (hbusy.commanding hS driveNum lba 0x20).waiting hS drive noRequest (io + 7)
  simp only [portReadSector]
  split_ifs
  · exact hbusy
  · exact hrequest
  · exact hrequest.fetching hS _

lemma portWriteSector_adds
    (hmessages : ∀ text, driverMessage (.writestring text) = true → S (.term (.writestring text)))
    (driveNum : UInt8) (lba : ℕ) (buffer : Sector) (d : PortDev) :
    Adds S d (portWriteSector drive io driveNum lba buffer d).2 := by
  have hbusy := (Adds.refl d).waiting hS drive busy (io + 7)
  have hrequest := (hbusy.commanding hS driveNum lba 0x30).waiting hS drive noRequest (io + 7)
  have hwords : ∀ e ∈ (List.range 256).map fun i => PortEvent.outw io (bufferWord buffer i),
      S e := by
    intro e he
    obtain ⟨i, -, rfl⟩ := List.mem_map.mp he
    exact hS.outw _
  simp only [portWriteSector]
  split_ifs
  · exact hbusy.one (hmessages _ rfl)
  · exact hrequest.one (hmessages _ rfl)
  · exact (hrequest.emit hwords).waiting hS drive busy _

lemma ataIdentify_adds (driveNum : UInt8) (device : AtaDevice) (d : PortDev) :
    Adds S d (ataIdentify drive io driveNum device d).2.2 := by
  have hselect : S (deviceEvent io driveNum) := hS.outb 6 _ (by decide)
  have hcommand : S (.outb (io + 7) 0xEC) := hS.outb 7 _ (by decide)
  have hstart := (((((Adds.refl d).one hselect).reading hS drive 4).one hcommand).reading hS
    drive 4).reading hS drive 1
  simp only [ataIdentify]
  split_ifs
  · exact hstart
  · split
    · exact hstart.reading hS drive _
    · split_ifs
      · exact hstart.reading hS drive _
      · exact (hstart.reading hS drive _).fetching hS _

omit hS

/-- **Detection** tries every position. -/
lemma ataDetectDrives_adds (hS : ∀ p ∈ positions, Admits S p.1) (d : AtaDev) :
    Adds S d.port (ataDetectDrives drive d).port := by
  have hall : ∀ (rest : List (UInt16 × UInt8)) (d : AtaDev), (∀ p ∈ rest, Admits S p.1) →
      Adds S d.port (rest.foldl (fun d position => detectAt drive position d) d).port := by
    intro rest
    induction rest with
    | nil => exact fun d _ => Adds.refl d.port
    | cons position rest ih =>
        intro d hrest
        obtain ⟨hfirst, hrest⟩ := List.forall_mem_cons.mp hrest
        exact (ataIdentify_adds hfirst drive _ _ d.port).trans (ih _ hrest)
  exact hall positions { d with table := { d.table with driveCount := 0 } } hS

lemma ataSelectDevice_adds (driveIndex : ℤ) (d : AtaDev)
    (hS : Admits S (d.table.drives driveIndex.toNat).ioBase) :
    Adds S d.port (ataSelectDevice drive driveIndex d).2.port := by
  simp only [ataSelectDevice]
  split_ifs
  · exact Adds.refl d.port
  all_goals
    generalize d.table.drives driveIndex.toNat = device at hS
    have hselect : S (deviceEvent device.ioBase device.drive) := hS.outb 6 _ (by decide)
    have hwait : Adds S d.port (ataWaitBsy drive device.ioBase (ata400nsDelay drive device.ioBase
        (d.port.emit [deviceEvent device.ioBase device.drive]))).2 :=
      (((Adds.refl d.port).one hselect).reading hS drive 4).reading hS drive _
  · exact hwait
  · exact hwait.reading hS drive 1
  · exact hwait.reading hS drive 1

end Adds

/-- No drive answers. -/
def PortDrive.absent : PortDrive where
  status _ := 0
  words _ := 0
  afterHeader _ := 0
  aroundData _ := 0

/-- What is printed. -/
lemma Adds.print {S : PortEvent → Prop} {drive : PortDrive} {d : PortDev} {w : AtaWorld}
    (h : Adds S d w.dev.port) {calls : List TermCall} (hall : ∀ call ∈ calls, S (.term call)) :
    Adds S d (w.print (ataPlatform drive) calls).dev.port := by
  rw [print_ata]
  refine h.emit ?_
  intro e he
  obtain ⟨call, hcall, rfl⟩ := List.mem_map.mp he
  exact hall call hcall

end SzymOS
