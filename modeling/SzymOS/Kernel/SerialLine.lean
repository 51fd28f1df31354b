import SzymOS.Kernel.CommandText
import SzymOS.Kernel.Confinement
import SzymOS.Kernel.PortEvents

/-!
# The serial line

`serial_print` writes to the port that carries data, but so does `serial_init`, twice, while the
port stands for something else.  What goes over the line is therefore read off the registers of the
controller (`Uart`).  At the other end of the line another kernel may wait in `serial_read`.

Which messages a session should send is read off the text of its lines (`serialMessage`).  Not all
of them are sent: a `serial_print` for which the controller stops taking bytes never comes to its
end, and neither does `panic`; the lines behind it are typed at nobody.  The lines that are executed
are those that find the shell running (`executedLines`), and of them only the last one may be cut
off.

* `Uart` — which writes go over the line.
* `Arrives` — how bytes that come over the line are seen by someone who polls.
* `line_carries_messages` — a session sends the messages of the lines that it executes, and nothing
  else.
* `serial_link` — two machines: when `serial_read` returns, and what it prints.

**One side.** What the two functions of `serial.h` do to the controller is computed
(`serialInit_line`, `serialPrint_line`).  That all other commands are silent is proved on a machine
whose controller is unplugged: there the writes to it are no events, so every elementary step is
silent (`shellRel_silent`), and a command that is not for the serial line does the same on both
machines (`runCommand_silent`).  A session is then an induction over its lines, with the shell that
has stopped as a case of its own (`session_line`).

**The other side.** The bytes arrive one at a time between polls that find nothing.
`serialRead_arrives` follows the loop of `serial_read` through them: it needs a byte for every place
of its buffer, unless a NUL comes first, and no message contains one.
-/

set_option autoImplicit false

namespace SzymOS

open Transition

/-! ## The controller

Bit 7 of the line control register and bit 4 of the modem control register decide what a write to
the data port means.  Everything else that is written to the controller leaves the line alone. -/

/-- Two registers of the controller at 0x3F8, and what has gone over the line. -/
structure Uart where
  lcr : UInt8
  mcr : UInt8
  sent : List UInt8

/-- A write to a port.  While bit 7 of LCR is set, 0x3F8 is half of the divisor; while bit 4 of MCR
is set, the controller hears itself. -/
def Uart.outb (u : Uart) (port : UInt16) (value : UInt8) : Uart :=
  if port = 0x3FB then { u with lcr := value }
  else if port = 0x3FC then { u with mcr := value }
  else if port = 0x3F8 ∧ u.lcr &&& 0x80 = 0 ∧ u.mcr &&& 0x10 = 0 then
    { u with sent := u.sent ++ [value] }
  else u

/-- What an event is for the controller. -/
def Uart.event (u : Uart) : PortEvent → Uart
  | .outb port value => u.outb port value
  | _ => u

/-- The controller in a world, if it was `u` when the log was empty. -/
def serialLine (u : Uart) (w : AtaWorld) : Uart := w.dev.port.log.foldl Uart.event u

/-- Data go over the line. -/
structure Uart.Open (u : Uart) : Prop where
  divisor : u.lcr &&& 0x80 = 0
  loopback : u.mcr &&& 0x10 = 0

/-- A write to the data port of an open line. -/
lemma Uart.Open.outb {u : Uart} (h : u.Open) (a : UInt8) :
    u.outb 0x3F8 a = { u with sent := u.sent ++ [a] } := by
  rw [Uart.outb, if_neg (by decide), if_neg (by decide), if_pos ⟨rfl, h.divisor, h.loopback⟩]

/-! ## What is sent

`serial_init` sends nothing: the byte of its divisor is written while bit 7 is set, and the byte of
its test while the controller hears itself.  From the events of a log the part that is not for the
controller can be dropped. -/

section Sending

variable (drive : PortDrive) (around : Surroundings) (u : Uart) (w : AtaWorld)

@[simp] lemma serialLine_outb (port : UInt16) (value : UInt8) :
    serialLine u (w.outb (portMachine drive around) port value)
      = (serialLine u w).outb port value := by
  show (w.dev.port.log ++ [PortEvent.outb port value]).foldl Uart.event u = _
  rw [List.foldl_append]
  rfl

lemma serialLine_outbs (writes : List (UInt16 × UInt8)) :
    serialLine u (w.outbs (portMachine drive around) writes)
      = writes.foldl (fun u write => u.outb write.1 write.2) (serialLine u w) := by
  induction writes generalizing w with
  | nil => rfl
  | cons write writes ih =>
      rw [List.foldl_cons, ← serialLine_outb drive around]
      exact ih _

/-- The part of the log that is not for the controller. -/
def PortEvent.NotSerial : PortEvent → Prop
  | .outb port _ => port ≠ 0x3F8 ∧ port ≠ 0x3FB ∧ port ≠ 0x3FC
  | _ => True

/-- Such events leave it alone. -/
lemma event_notSerial {e : PortEvent} (he : e.NotSerial) (u : Uart) : u.event e = u := by
  cases e with
  | outb port value =>
      obtain ⟨hdata, hlcr, hmcr⟩ := he
      rw [Uart.event, Uart.outb, if_neg hlcr, if_neg hmcr, if_neg fun h => hdata h.1]
  | _ => rfl

lemma serialLine_adds {w w' : AtaWorld} (h : Adds PortEvent.NotSerial w.dev.port w'.dev.port) :
    serialLine u w' = serialLine u w := by
  obtain ⟨events, hlog, hall⟩ := h
  rw [serialLine, hlog, List.foldl_append]
  show events.foldl Uart.event (serialLine u w) = _
  generalize serialLine u w = u
  clear hlog
  induction events with
  | nil => rfl
  | cons e events ih =>
      obtain ⟨he, hall⟩ := List.forall_mem_cons.mp hall
      rw [List.foldl_cons, event_notSerial he]
      exact ih hall

@[simp] lemma serialLine_print (calls : List TermCall) :
    serialLine u (w.print (ataPlatform drive) calls) = serialLine u w :=
  serialLine_adds u (Adds.print (Adds.refl _) fun _ _ => trivial)

/-! ### serial_init and serial_print

The writes of `serial_init` are run on the controller one by one.  For `serial_print` the answers of
the controller are counted: each byte needs one that says the controller is ready, and takes all
answers up to it. -/

/-- **What `serial_init` does.**  It sends nothing, and if it comes to its end the line is open. -/
lemma serialInit_line (answers : List UInt8) :
    (serialLine u (serialInit (portMachine drive around) answers w).2).sent
        = (serialLine u w).sent ∧
      (answers ≠ [] →
        (serialLine u (serialInit (portMachine drive around) answers w).2).Open) := by
  have hsetup : (serialLine u (w.outbs (portMachine drive around) serialSetup))
      = { lcr := 0x03, mcr := 0x1E, sent := (serialLine u w).sent } := by
    rw [serialLine_outbs]
    -- the divisor and the test byte, for which the line is closed
    have htest : ¬ (0x1E : UInt8) &&& 0x10 = 0 := by decide
    simp [serialSetup, Uart.outb, htest]
  cases answers with
  | nil =>
      refine ⟨?_, fun h => absurd rfl h⟩
      rw [serialInit, hsetup]
  | cons answer answers =>
      have hend : serialLine u (serialInit (portMachine drive around) (answer :: answers) w).2
          = { lcr := 0x03, mcr := 0x0F, sent := (serialLine u w).sent } := by
        simp only [serialInit]
        split_ifs
        · rw [serialLine_outb]
          show ((serialLine u (World.print (ataPlatform drive) _ _)).outb 0x3FC 0x0F) = _
          rw [serialLine_print, hsetup]
          rfl
        · rw [serialLine_outb, hsetup]
          rfl
      have hdivisor : (0x03 : UInt8) &&& 0x80 = 0 := by decide
      have hloopback : (0x0F : UInt8) &&& 0x10 = 0 := by decide
      rw [hend]
      exact ⟨rfl, fun _ => ⟨hdivisor, hloopback⟩⟩

/-- How often the controller has answered that it can take a byte. -/
def readyCount (answers : List UInt8) : ℕ := answers.countP fun answer => answer &&& 0x20 != 0

/-- A wait uses up one of these answers. -/
lemma serialWait_ready (answers : List UInt8) :
    (serialWait 0x20 answers = none ∧ readyCount answers = 0) ∨
      ∃ rest, serialWait 0x20 answers = some rest ∧ readyCount answers = readyCount rest + 1 := by
  induction answers with
  | nil => exact Or.inl ⟨rfl, rfl⟩
  | cons answer answers ih =>
      rw [serialWait]
      by_cases hzero : answer &&& 0x20 = 0
      · rw [if_pos hzero]
        have hcount : readyCount (answer :: answers) = readyCount answers := by
          rw [readyCount, List.countP_cons_of_neg (by simp [hzero])]
          rfl
        rw [hcount]
        exact ih
      · rw [if_neg hzero]
        refine Or.inr ⟨answers, rfl, ?_⟩
        rw [readyCount, List.countP_cons_of_pos (by simp [hzero])]
        rfl

/-- **What `serial_print` sends**: a byte for every time that the controller can take one. -/
lemma serialPrint_line {w : AtaWorld} (hopen : (serialLine u w).Open) (str answers : List UInt8) :
    ((serialPrint (portMachine drive around) str answers w).1 = .returned ↔
        str.length ≤ readyCount answers) ∧
      (serialLine u (serialPrint (portMachine drive around) str answers w).2).sent
        = (serialLine u w).sent ++ str.take (readyCount answers) := by
  induction str generalizing answers w with
  | nil => simp [serialPrint]
  | cons a str ih =>
      rw [serialPrint, writeSerial]
      rcases serialWait_ready answers with ⟨hwait, hcount⟩ | ⟨rest, hwait, hcount⟩
      · rw [hwait, hcount]
        simp
      · have hline := serialLine_outb drive around u w 0x3F8 a
        rw [hopen.outb] at hline
        have hopen' : (serialLine u (w.outb (portMachine drive around) 0x3F8 a)).Open := by
          rw [hline]
          exact ⟨hopen.divisor, hopen.loopback⟩
        obtain ⟨hreturned, hsent⟩ := ih hopen' rest
        rw [hwait, hcount, List.take_succ_cons]
        refine ⟨?_, ?_⟩
        · rw [List.length_cons, Nat.add_le_add_iff_right]
          exact hreturned
        · rw [hsent, hline, List.append_assoc]
          rfl

end Sending

/-! ## A session

Of all commands only two write to the controller, `serial_print` and `serial_read`, and the second
of them only sets it up. -/

/-- What a line sends: its message, as far as the controller takes bytes.  The first answer of the
controller is for `serial_init`. -/
def said (e : PortLine) : List UInt8 :=
  (serialMessage e.2.bytes).take (readyCount e.1.serial.tail)

/-- The lines that the shell executes: those that find it running. -/
def executedLines (drive : PortDrive) : List PortLine → Session AtaDev → List PortLine
  | [], _ => []
  | e :: lines, s =>
      if s.running then e :: executedLines drive lines (portStep drive e s).2 else []

section Session

variable (drive : PortDrive) (around : Surroundings) (u : Uart)

/-- The two ports of the drives and those behind them are not the controller's. -/
lemma admits_notSerial : ∀ p ∈ positions, Admits PortEvent.NotSerial p.1 := by
  intro p hp
  have hio : p.1 = 0x1F0 ∨ p.1 = 0x170 := by
    simp only [positions, List.mem_cons, List.not_mem_nil, or_false] at hp
    rcases hp with rfl | rfl | rfl | rfl <;> simp
  refine ⟨fun _ _ => trivial, fun _ => trivial, fun _ => trivial, ?_⟩
  intro k value hk
  have hk' : k.toNat < 8 := hk
  have hport : ∀ port : UInt16, 0x3F8 ≤ port.toNat → p.1 + k ≠ port := by
    intro port hport hsame
    have hsame' := congrArg UInt16.toNat hsame
    rw [UInt16.toNat_add] at hsame'
    rcases hio with hio | hio <;> rw [hio] at hsame' <;> simp at hsame' <;> omega
  exact ⟨hport _ (by decide), hport _ (by decide), hport _ (by decide)⟩

/-- Nothing for the controller has been added to the log, if the drive is on one of the two
channels. -/
def Silent (w w' : AtaWorld) : Prop :=
  DriveKept w.fs w'.fs ∧ (OnChannel w.fs → Adds PortEvent.NotSerial w.dev.port w'.dev.port)

/-- The machine with its controller unplugged. -/
def unplugged : Machine AtaDev :=
  { portMachine drive around with
    outb := fun port value d =>
      if port = 0x64 then (portMachine drive around).outb port value d else d }

/-- **Every elementary step of a command**, but the writes to the controller. -/
lemma shellRel_silent : ShellRel (unplugged drive around) Silent where
  refl w := ⟨DriveKept.refl _, fun _ => Adds.refl _⟩
  trans h h' := by
    refine ⟨h.1.trans h'.1, fun hon => (h.2 hon).trans (h'.2 ?_)⟩
    rw [OnChannel, h.1.selected, h.1.ioBase, h.1.driveNum]
    exact hon
  print calls w := ⟨DriveKept.refl _, fun _ => Adds.print (Adds.refl _) fun _ _ => trivial⟩
  read lba w := by
    rw [fsReadSectorDirect]
    split_ifs with hsel
    · exact ⟨DriveKept.refl _, fun _ => Adds.refl _⟩
    · refine ⟨DriveKept.refl _, fun hon => ?_⟩
      exact portReadSector_adds (admits_notSerial _ (hon (by simpa using hsel))) drive _ lba
        w.dev.port
  write lba buffer w _ _ := by
    rw [fsWriteSectorDirect]
    split_ifs with hsel
    · exact ⟨DriveKept.refl _, fun _ => Adds.refl _⟩
    · refine ⟨DriveKept.refl _, fun hon => ?_⟩
      exact portWriteSector_adds (admits_notSerial _ (hon (by simpa using hsel))) drive
        (fun _ _ => trivial) _ lba buffer w.dev.port
  store s w hkept := ⟨hkept, fun _ => Adds.refl _⟩
  outb port value w _ := by
    refine ⟨DriveKept.refl _, fun _ => ?_⟩
    show Adds PortEvent.NotSerial w.dev.port
      (if port = 0x64 then (portMachine drive around).outb port value w.dev else w.dev).port
    split_ifs with hport
    · rw [hport]
      exact (Adds.refl w.dev.port).one (by simp [PortEvent.NotSerial])
    · exact Adds.refl _

variable {w : AtaWorld}

/-- A command that is not for the serial line. -/
lemma runCommand_silent {command : ShellCommand} (hprint : ∀ msg, command ≠ .serialPrint msg)
    (hread : command ≠ .serialRead) (hon : OnChannel w.fs) :
    serialLine u (runCommand (portMachine drive around) command w).2 = serialLine u w := by
  refine serialLine_adds u ?_
  by_cases hdisks : command = .disks
  · rw [hdisks]
    refine Adds.print (w := { w with dev := ataDetectDrives drive w.dev }) ?_ fun _ _ => trivial
    exact ataDetectDrives_adds drive admits_notSerial w.dev
  · have hsame : runCommand (portMachine drive around) command w
        = runCommand (unplugged drive around) command w := by
      cases command with
      | serialPrint msg => exact absurd rfl (hprint msg)
      | serialRead => exact absurd rfl hread
      | _ => rfl
    rw [hsame]
    exact ((shellRel_silent drive around).command hdisks w).2 hon

/-- **`serial_print`** -/
lemma cmdSerialPrint_line (msg : CString) :
    (serialLine u (cmdSerialPrint (portMachine drive around) msg w).2).sent
        = (serialLine u w).sent ++ msg.bytes.take (readyCount around.serial.tail) ∧
      ((cmdSerialPrint (portMachine drive around) msg w).1 = .returned →
        msg.bytes.take (readyCount around.serial.tail) = msg.bytes) := by
  have hinit := serialInit_line drive around u w around.serial
  have hserial : (portMachine drive around).serial = around.serial := rfl
  simp only [cmdSerialPrint, hserial]
  cases hanswers : around.serial with
  | nil =>
      have hnone : serialInit (portMachine drive around) [] w
          = (none, w.outbs (portMachine drive around) serialSetup) := rfl
      rw [hanswers, hnone] at hinit
      simp only [hnone, List.tail_nil]
      refine ⟨?_, fun h => absurd h (by simp)⟩
      rw [hinit.1, readyCount, List.countP_nil, List.take_zero, List.append_nil]
  | cons answer answers =>
      rw [hanswers] at hinit
      obtain ⟨hsent, hopen⟩ := hinit
      have hsome : (serialInit (portMachine drive around) (answer :: answers) w).1
          = some answers := rfl
      generalize serialInit (portMachine drive around) (answer :: answers) w = r at *
      obtain ⟨rest, w₁⟩ := r
      obtain rfl : rest = some answers := hsome
      obtain ⟨hreturned, hprinted⟩ :=
        serialPrint_line drive around u (hopen (List.cons_ne_nil _ _)) msg.bytes answers
      simp only [List.tail_cons]
      exact ⟨by rw [hprinted, hsent], fun h => List.take_of_length_le (hreturned.mp h)⟩

/-- **`serial_read`** sends nothing. -/
lemma cmdSerialRead_line : (serialLine u (cmdSerialRead (portMachine drive around) w).2).sent
    = (serialLine u w).sent := by
  have hinit := (serialInit_line drive around u w around.serial).1
  have hserial : (portMachine drive around).serial = around.serial := rfl
  simp only [cmdSerialRead, hserial]
  generalize serialInit (portMachine drive around) around.serial w = r at *
  obtain ⟨rest, w₁⟩ := r
  cases rest with
  | none => exact hinit
  | some answers =>
      simp only
      cases serialRead 127 answers with
      | none => exact hinit
      | some buffer =>
          show (serialLine u (World.print (ataPlatform drive) _ _)).sent = _
          rw [serialLine_print]
          exact hinit

/-- **One command** sends its message, as far as the controller takes it; and all of it, if the
command comes to its end. -/
lemma runCommand_line (command : ShellCommand) (hon : OnChannel w.fs) :
    (serialLine u (runCommand (portMachine drive around) command w).2).sent
        = (serialLine u w).sent ++ command.message.take (readyCount around.serial.tail) ∧
      ((runCommand (portMachine drive around) command w).1 = .returned →
        command.message.take (readyCount around.serial.tail) = command.message) := by
  cases command with
  | serialPrint msg => exact cmdSerialPrint_line drive around u msg
  | serialRead =>
      have hnothing : ShellCommand.message .serialRead = [] := rfl
      rw [hnothing, List.take_nil, List.append_nil]
      exact ⟨cmdSerialRead_line drive around u, fun _ => rfl⟩
  | _ =>
      rw [runCommand_silent drive around u (fun _ => by simp) (by simp) hon]
      exact ⟨by simp [ShellCommand.message], fun _ => by simp [ShellCommand.message]⟩

lemma final_portStep_stopped {s : Session AtaDev} (hs : s.running = false)
    (lines : List PortLine) : final (portStep drive) lines s = s := by
  induction lines with
  | nil => rfl
  | cons e lines ih => rw [final_cons, portStep, shellStep_stopped hs, ih]

/-- A shell that has stopped executes nothing. -/
lemma executedLines_stopped {s : Session AtaDev} (hs : s.running = false) (lines : List PortLine) :
    executedLines drive lines s = [] := by
  cases lines with
  | nil => rfl
  | cons e lines => exact if_neg (ne_true_of_eq_false hs)

/-! ### Lines

A line that finds the shell running adds its message to what has been sent, and leaves the shell
running if it has come to its end.  A line behind one that has not is typed at nobody. -/

/-- **One line** that finds the shell running. -/
lemma portStep_line (e : PortLine) {s : Session AtaDev} (hs : s.running = true)
    (hon : OnChannel s.world.fs) :
    (serialLine u (portStep drive e s).2.world).sent = (serialLine u s.world).sent ++ said e ∧
      ((portStep drive e s).2.running = true → said e = serialMessage e.2.bytes) ∧
      OnChannel (portStep drive e s).2.world.fs := by
  obtain ⟨hsent, hall⟩ := runCommand_line drive e.1 u (shellCommand e.2) hon
  rw [message_shellCommand] at hsent hall
  have hworld : (portStep drive e s).2.world
      = (runCommand (portMachine drive e.1) (shellCommand e.2) s.world).2 :=
    shellStep_running hs (portMachine drive e.1, e.2)
  have hkept := (writesTo_step drive e s).1
  refine ⟨hworld ▸ hsent, fun hnext => hall ?_, ?_⟩
  · exact shellStep_returned hs (e := (portMachine drive e.1, e.2)) hnext
  · rw [OnChannel, hkept.selected, hkept.ioBase, hkept.driveNum]
    exact hon

/-- **A session.**  The lines that are executed send what they have to say, one after the other, all
but the last of them the whole of it; as long as the shell runs these are all lines. -/
lemma session_line (lines : List PortLine) {s : Session AtaDev} (hon : OnChannel s.world.fs) :
    (serialLine u (final (portStep drive) lines s).world).sent
        = (serialLine u s.world).sent ++ (executedLines drive lines s).flatMap said ∧
      (∀ e ∈ (executedLines drive lines s).dropLast, said e = serialMessage e.2.bytes) ∧
      ((final (portStep drive) lines s).running = true → executedLines drive lines s = lines ∧
        ∀ e ∈ lines, said e = serialMessage e.2.bytes) := by
  induction lines generalizing s with
  | nil =>
      exact ⟨(List.append_nil _).symm, fun _ h => absurd h List.not_mem_nil,
        fun _ => ⟨rfl, fun _ h => absurd h List.not_mem_nil⟩⟩
  | cons e lines ih =>
      cases hs : s.running with
      | false =>
          rw [final_portStep_stopped drive hs, executedLines_stopped drive hs]
          exact ⟨(List.append_nil _).symm, fun _ h => absurd h List.not_mem_nil,
            fun hrun => absurd (hs.symm.trans hrun) (by decide)⟩
      | true =>
          obtain ⟨hsent, hall, hon'⟩ := portStep_line drive u e hs hon
          obtain ⟨hrest, hwhole, hrunning⟩ := ih hon'
          have hcons : executedLines drive (e :: lines) s
              = e :: executedLines drive lines (portStep drive e s).2 := if_pos hs
          have hnext : executedLines drive lines (portStep drive e s).2 ≠ [] →
              (portStep drive e s).2.running = true := by
            intro hmore
            by_contra hstopped
            exact hmore (executedLines_stopped drive (Bool.eq_false_of_not_eq_true hstopped) lines)
          rw [hcons, final_cons]
          refine ⟨?_, ?_, ?_⟩
          · rw [hrest, hsent, List.flatMap_cons, List.append_assoc]
          · cases hmore : executedLines drive lines (portStep drive e s).2 with
            | nil => exact fun _ h => absurd h List.not_mem_nil
            | cons e' executed =>
                rw [List.dropLast_cons_of_ne_nil (List.cons_ne_nil _ _), List.forall_mem_cons]
                have hsome : executedLines drive lines (portStep drive e s).2 ≠ [] := by
                  rw [hmore]
                  exact List.cons_ne_nil _ _
                exact ⟨hall (hnext hsome), hmore ▸ hwhole⟩
          · intro hrun
            have hnext' : (portStep drive e s).2.running = true := by
              by_contra hstopped
              rw [final_portStep_stopped drive (Bool.eq_false_of_not_eq_true hstopped)] at hrun
              exact hstopped hrun
            obtain ⟨hlines, hsaid⟩ := hrunning hrun
            exact ⟨congrArg (e :: ·) hlines, List.forall_mem_cons.mpr ⟨hall hnext', hsaid⟩⟩

/-- When the shell begins. -/
lemma shell_onChannel (keys : List UInt8) :
    OnChannel (kernelMainShell drive (kernelMainSelect drive keys).2).world.fs := by
  have hkept := ((shellRel_worldStep drive Surroundings.idle).toStepRel.kernelMainShell drive
    (kernelMainSelect drive keys).2).1
  rw [OnChannel, hkept.selected, hkept.ioBase, hkept.driveNum]
  exact kernelMainSelect_onChannel drive keys

/-- **What goes over the line.**  From any boot and any dialogue on, in any session of the shell, on
drives and with controllers that answer as they like: the lines that find the shell running put on
the serial line what stands behind `serial_print` in them, in this order, and nothing else is ever
sent, neither by `serial_init` nor by any other command.  Only the last of them may be cut off,
where its controller stops taking bytes.  As long as the shell runs, these are all lines and no
message is cut off. -/
theorem line_carries_messages (keys : List UInt8) (lines : List PortLine) :
    let start := kernelMainShell drive (kernelMainSelect drive keys).2
    let after := final (portStep drive) lines start
    let executed := executedLines drive lines start
    (serialLine u after.world).sent = (serialLine u start.world).sent ++ executed.flatMap said ∧
      (∀ e ∈ executed.dropLast, said e = serialMessage e.2.bytes) ∧
      (after.running = true → executed = lines ∧ ∀ e ∈ lines, said e = serialMessage e.2.bytes) :=
  session_line drive u lines (shell_onChannel drive keys)

end Session

/-! ## The other end

How often the listener polls, and what it is answered while nothing has arrived, is left open.  It
is only fixed that a byte which is announced is the next one that was sent. -/

/-- The answers to polls of the status register and reads of the data register, when these bytes
arrive: bit 0 of the status is set when there is a byte to be read. -/
inductive Arrives : (answers bytes : List UInt8) → Prop
  | done : Arrives [] []
  | idle {answer : UInt8} {answers bytes : List UInt8} (hidle : answer &&& 0x01 = 0)
      (rest : Arrives answers bytes) : Arrives (answer :: answers) bytes
  | byte {answer : UInt8} {answers bytes : List UInt8} (c : UInt8) (hready : answer &&& 0x01 ≠ 0)
      (rest : Arrives answers bytes) : Arrives (answer :: c :: answers) (c :: bytes)

section Receiving

variable {answers bytes : List UInt8}

/-- `read_serial` takes the first byte, or waits if there is none. -/
lemma readSerial_arrives (h : Arrives answers bytes) :
    match bytes with
    | [] => readSerial answers = none
    | c :: bytes => ∃ rest, readSerial answers = some (c, rest) ∧ Arrives rest bytes := by
  induction h with
  | done => rfl
  | @idle answer answers bytes hidle _ ih =>
      have hskip : readSerial (answer :: answers) = readSerial answers := by
        rw [readSerial, readSerial, serialWait, if_pos hidle]
      cases bytes with
      | nil => exact hskip.trans ih
      | cons c bytes => rwa [hskip]
  | @byte answer answers bytes c hready hrest _ =>
      exact ⟨answers, by rw [readSerial, serialWait, if_neg hready], hrest⟩

/-- **`serial_read`** fills its buffer up to a NUL, and waits while it has room. -/
lemma serialRead_arrives (room : ℕ) (h : Arrives answers bytes) :
    serialRead room answers
      = if 0 ∈ bytes.take room ∨ room ≤ bytes.length then
          some ((bytes.take room).takeWhile (· != 0))
        else none := by
  induction room generalizing answers bytes with
  | zero => simp [serialRead]
  | succ room ih =>
      have hfirst := readSerial_arrives h
      rw [serialRead]
      cases bytes with
      | nil =>
          rw [show readSerial answers = none from hfirst]
          simp
      | cons c bytes =>
          obtain ⟨rest, hread, hrest⟩ := hfirst
          rw [hread]
          by_cases hc : c = 0
          · simp [hc]
          · simp only [if_neg hc, ih hrest, List.take_succ_cons, List.length_cons,
              Nat.add_le_add_iff_right, List.mem_cons, Ne.symm hc, false_or]
            split_ifs
            · rw [Option.map_some, List.takeWhile_cons_of_pos (by simpa using hc)]
            · rfl

variable {σ : Type} (M : Machine σ) {test : UInt8}

/-- **The command** at the other end, when the bytes that arrive are a text. -/
lemma cmdSerialRead_arrives (hserial : M.serial = test :: answers)
    (harrives : Arrives answers bytes) (htext : 0 ∉ bytes) (w : World σ) :
    ((runCommand M .serialRead w).1 = .returned ↔ 127 ≤ bytes.length) ∧
      ((runCommand M .serialRead w).1 = .returned → (runCommand M .serialRead w).2
        = (serialInit M M.serial w).2.print M.toPlatform [.writemem (bytes.take 127)]) := by
  have hsome : (serialInit M M.serial w).1 = some answers := by rw [hserial]; rfl
  have hnone : 0 ∉ bytes.take 127 := fun h => htext (List.mem_of_mem_take h)
  have hread := serialRead_arrives 127 harrives
  simp only [hnone, false_or] at hread
  simp only [runCommand, cmdSerialRead]
  generalize serialInit M M.serial w = r at *
  obtain ⟨rest, w₁⟩ := r
  obtain rfl : rest = some answers := hsome
  simp only [hread]
  split_ifs with hlen
  · have hall : (bytes.take 127).takeWhile (· != 0) = bytes.take 127 :=
      List.takeWhile_eq_self_iff.mpr fun b hb => by
        have hne : b ≠ 0 := fun h0 => hnone (h0 ▸ hb)
        simpa using hne
    rw [hall]
    exact ⟨⟨fun _ => hlen, fun _ => rfl⟩, fun _ => rfl⟩
  · exact ⟨⟨fun h => absurd h (by simp), fun h => absurd h hlen⟩, fun h => absurd h (by simp)⟩

end Receiving

/-- What is sent is text. -/
lemma said_noNul (e : PortLine) : 0 ∉ said e := by
  intro h
  have hmessage := List.mem_of_mem_take h
  rw [serialMessage] at hmessage
  split_ifs at hmessage
  · exact e.2.nul_notMem (List.mem_of_mem_drop hmessage)
  · exact absurd hmessage List.not_mem_nil

/-- **Two machines.**  One runs a session; at the prompt of the other one `serial_read` is entered,
and it polls as it likes while the bytes of the first one arrive.  It comes to an end if and only if
what the executed lines of the session have sent has 127 characters, and then it prints the first
127 of them: no message ends with a character that `serial_read` would stop at.  If the session
still runs, these are the messages of all its lines. -/
theorem serial_link (drive : PortDrive) (u : Uart) (keys : List UInt8) (lines : List PortLine)
    {bytes : List UInt8}
    (hline : (serialLine u (final (portStep drive) lines
        (kernelMainShell drive (kernelMainSelect drive keys).2)).world).sent
      = (serialLine u (kernelMainShell drive (kernelMainSelect drive keys).2).world).sent ++ bytes)
    {σ : Type} (M : Machine σ) (w : World σ) {test : UInt8} {answers : List UInt8}
    (hserial : M.serial = test :: answers) (harrives : Arrives answers bytes)
    {command : CString} (hcommand : command.bytes = textBytes "serial_read") :
    let start := kernelMainShell drive (kernelMainSelect drive keys).2
    let sent := (executedLines drive lines start).flatMap said
    let reading := shellExecuteCommand M command w
    (reading.1 = .returned ↔ 127 ≤ sent.length) ∧
      (reading.1 = .returned → reading.2
        = (serialInit M M.serial w).2.print M.toPlatform [.writemem (sent.take 127)]) ∧
      ((final (portStep drive) lines start).running = true →
        sent = lines.flatMap fun e => serialMessage e.2.bytes) := by
  intro start sent reading
  obtain ⟨hsent, -, hrunning⟩ := session_line drive u lines (shell_onChannel drive keys)
  rw [hline, List.append_cancel_left_eq] at hsent
  have hbytes : bytes = sent := hsent
  have htext : 0 ∉ sent := by
    intro h
    obtain ⟨e, -, he⟩ := List.mem_flatMap.mp h
    exact said_noNul e he
  have hreading : reading = runCommand M .serialRead w := by
    show runCommand M (shellCommand command) w = _
    rw [shellCommand_serialRead hcommand]
  rw [← hbytes] at htext
  rw [hreading, ← hbytes]
  obtain ⟨hends, hprints⟩ := cmdSerialRead_arrives M hserial harrives htext w
  refine ⟨hends, hprints, fun hrun => ?_⟩
  obtain ⟨hlines, hsaid⟩ := hrunning hrun
  rw [hbytes]
  show (executedLines drive lines start).flatMap said = _
  rw [hlines]
  exact List.flatMap_congr hsaid

/-! ### A message that fills the buffer -/

/-- 127 letters. -/
def longMessage : List UInt8 := List.replicate 127 97

/-- `serial_print` of them. -/
def longLine : CString where
  bytes := textBytes "serial_print " ++ longMessage
  noNul b hb := by
    rcases List.mem_append.mp hb with hb | hb
    · rw [← bytes_serialPrint] at hb
      exact (CString.ofLiterals ["serial_print "] (by decide)).noNul b hb
    · rw [List.eq_of_mem_replicate hb]
      decide
  fits := by
    rw [List.length_append, longMessage, List.length_replicate]
    decide

/-- The controller takes them all. -/
def sender : PortLine :=
  ({ Surroundings.idle with serial := 0xAE :: List.replicate 127 0x20 }, longLine)

/-- A machine that they arrive at. -/
def listener : Machine AtaDev :=
  portMachine PortDrive.absent
    { Surroundings.idle with serial := 0xAE :: longMessage.flatMap fun c => [0x01, c] }

lemma said_sender : said sender = longMessage := by
  have hmessage : serialMessage longLine.bytes = longMessage := by
    rw [serialMessage, longLine, if_pos (List.prefix_append _ _)]
    rfl
  have hready : readyCount (List.replicate 127 0x20) = 127 := by
    rw [readyCount, List.countP_replicate]
    rfl
  have hlen : longMessage.length = 127 := List.length_replicate
  rw [said, sender]
  simp only [hmessage, List.tail_cons, hready]
  exact List.take_of_length_le (Nat.le_of_eq hlen)

/-- Bytes that are there whenever the listener asks. -/
lemma arrives_flatMap (bytes : List UInt8) : Arrives (bytes.flatMap fun c => [0x01, c]) bytes := by
  induction bytes with
  | nil => exact .done
  | cons c bytes ih => exact .byte c (by decide) ih

/-- The listener prints the message. -/
theorem serial_link_message :
    let w := (kernelMainSelect PortDrive.absent [10]).2
    let reading := shellExecuteCommand listener readText w
    reading.1 = .returned ∧ reading.2
      = (serialInit listener listener.serial w).2.print listener.toPlatform
        [.writemem longMessage] := by
  intro w reading
  let u : Uart := { lcr := 0, mcr := 0, sent := [] }
  have hlen : longMessage.length = 127 := List.length_replicate
  have hexecuted : (executedLines PortDrive.absent [sender]
      (kernelMainShell PortDrive.absent w)).flatMap said = longMessage := by
    show [sender].flatMap said = longMessage
    rw [List.flatMap_cons, List.flatMap_nil, List.append_nil, said_sender]
  have hsent := (session_line PortDrive.absent u [sender] (shell_onChannel PortDrive.absent [10])).1
  rw [hexecuted] at hsent
  obtain ⟨hends, hprints, -⟩ := serial_link PortDrive.absent u [10] [sender] hsent listener w rfl
    (arrives_flatMap longMessage) bytes_readText
  rw [hexecuted, hlen] at hends
  rw [hexecuted, List.take_of_length_le (Nat.le_of_eq hlen)] at hprints
  have hreturned := hends.mpr (Nat.le_refl 127)
  exact ⟨hreturned, hprints hreturned⟩

end SzymOS
