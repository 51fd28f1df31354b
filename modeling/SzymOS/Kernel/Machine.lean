import SzymOS.Kernel.Ata

/-!
# What the shell uses of the machine

The file system needs sectors, the terminal and the memory around its arrays.  The shell needs
more: it detects the drives again, writes to other ports, and reports on the processor and the
memory.  A `Machine` is a `Platform` with these operations and with all that one command can learn
from outside: what the serial line and the keyboard controller answer, what CPUID returns, what
lies in memory behind the command line.

`serial.h`, `cpu.c` and what the shell calls of `memory.c` and `terminal.c` are here as well.

A function that waits for an answer takes it from a list of the answers that will come.  When the
list is used up it has not returned, and says so in its result; a list is thus as much of the future
as the function has seen.  The machine may also stop, by `cli` and `hlt`, and to the caller that is
the same: nothing after the call is executed.
-/

set_option autoImplicit false

namespace SzymOS

/-- The registers after a CPUID instruction. -/
structure CpuRegs where
  eax : UInt32
  ebx : UInt32
  ecx : UInt32
  edx : UInt32

/-- `memory_info_t` -/
structure MemoryInfo where
  lower : UInt32
  upper : UInt32
  total : UInt32

/-- What one command can learn from outside. -/
structure Surroundings where
  /-- The answers on the ports of the serial line, as far as they have come. -/
  serial : List UInt8
  /-- The answers on port 0x64, as far as they have come. -/
  controller : List UInt8
  hasCpuid : Bool
  cpuid : UInt32 → CpuRegs
  memInfo : MemoryInfo
  /-- The bytes behind the NUL of the command line. -/
  afterLine : ℕ → UInt8

/-- Nothing answers, and nothing is there. -/
def Surroundings.idle : Surroundings where
  serial := []
  controller := []
  hasCpuid := false
  cpuid _ := { eax := 0, ebx := 0, ecx := 0, edx := 0 }
  memInfo := { lower := 0, upper := 0, total := 0 }
  afterLine _ := 0

/-- The machine as the shell sees it during one command. -/
structure Machine (σ : Type) extends Platform σ, Surroundings where
  outb : UInt16 → UInt8 → σ → σ
  /-- `ata_detect_drives`, with the table it leaves. -/
  detectDrives : σ → AtaTable × σ

/-- Whether a function has returned.  One that has not waits for an answer, or has stopped the
machine. -/
inductive Ending where
  | returned
  | halted
  deriving DecidableEq, Repr

variable {σ : Type} (M : Machine σ)

def World.outb (port : UInt16) (value : UInt8) (w : World σ) : World σ :=
  { w with dev := M.outb port value w.dev }

def World.outbs (writes : List (UInt16 × UInt8)) (w : World σ) : World σ :=
  writes.foldl (fun w write => w.outb M write.1 write.2) w

/-! ## serial.h

The line is set up by nine writes, the last of which sends a byte in loopback mode that should come
back.  A wrong answer is reported and nothing else follows from it.  A character is sent or received
after a status register has been read until a bit of it is set; the loops have no limit. -/

/-- The writes of `serial_init` before its test. -/
def serialSetup : List (UInt16 × UInt8) :=
  [(0x3F9, 0x00), (0x3FB, 0x80), (0x3F8, 0x03), (0x3F9, 0x00), (0x3FB, 0x03), (0x3FA, 0xC7),
    (0x3FC, 0x0B), (0x3FC, 0x1E), (0x3F8, 0xAE)]

/-- The answers still to come, and the world; `none` when an answer is still waited for. -/
def serialInit (answers : List UInt8) (w : World σ) : Option (List UInt8) × World σ :=
  let w := w.outbs M serialSetup
  match answers with
  | [] => (none, w)
  | answer :: answers =>
      let w :=
        if answer ≠ 0xAE then w.print M.toPlatform [.writestring "Connection Failed"] else w
      (some answers, w.outb M 0x3FC 0x0F)

/-- `while (inb(PORT + 5) & mask == 0);` -/
def serialWait (mask : UInt8) : List UInt8 → Option (List UInt8)
  | [] => none
  | answer :: answers => if answer &&& mask = 0 then serialWait mask answers else some answers

def writeSerial (a : UInt8) (answers : List UInt8) (w : World σ) :
    Option (List UInt8) × World σ :=
  match serialWait 0x20 answers with
  | none => (none, w)
  | some answers => (some answers, w.outb M 0x3F8 a)

def serialPrint : (str : List UInt8) → (answers : List UInt8) → World σ → Ending × World σ
  | [], _, w => (.returned, w)
  | a :: str, answers, w =>
      match writeSerial M a answers w with
      | (none, w) => (.halted, w)
      | (some answers, w) => serialPrint str answers w

def readSerial (answers : List UInt8) : Option (UInt8 × List UInt8) :=
  match serialWait 0x01 answers with
  | some (c :: answers) => some (c, answers)
  | _ => none

/-- `serial_read` with room for `room` characters: the string in the buffer. -/
def serialRead : (room : ℕ) → (answers : List UInt8) → Option (List UInt8)
  | 0, _ => some []
  | room + 1, answers =>
      match readSerial answers with
      | none => none
      | some (c, answers) =>
          if c = 0 then some [] else (serialRead room answers).map (c :: ·)

/-! ## cpu.c

The vendor is twelve bytes of three registers, in the order EBX, EDX, ECX. -/

/-- `cpu_info_t` -/
structure CpuInfo where
  hasCpuid : Bool
  vendor : ℕ → UInt8
  signature : UInt32
  features : UInt32

/-- The twelve bytes of the vendor string, and the NUL. -/
def vendorBytes (regs : CpuRegs) (i : ℕ) : UInt8 :=
  if i < 4 then Bytes.u32Byte regs.ebx i
  else if i < 8 then Bytes.u32Byte regs.edx (i - 4)
  else if i < 12 then Bytes.u32Byte regs.ecx (i - 8)
  else 0

def cpuDetect (s : Surroundings) : CpuInfo :=
  if !s.hasCpuid then
    { hasCpuid := false, vendor := fun _ => 0, signature := 0, features := 0 }
  else
    { hasCpuid := true
      vendor := vendorBytes (s.cpuid 0)
      signature := (s.cpuid 1).eax
      features := (s.cpuid 1).edx }

def cpuFeatures : List (UInt32 × String) :=
  [(0, "FPU "), (4, "TSC "), (5, "MSR "), (23, "MMX "), (25, "SSE "), (26, "SSE2 ")]

def cpuPrintInfo (s : Surroundings) : List TermCall :=
  let cpu := cpuDetect s
  let heading := coloured .lightCyan (.writestring "=== CPU Information ===\n")
  if !cpu.hasCpuid then heading ++ [.writestring "CPUID not supported (pre-Pentium CPU)\n"]
  else
    let features := cpuFeatures.filter fun feature =>
      cpu.features &&& ((1 : UInt32) <<< feature.1) != 0
    heading ++
      [.formatted "Vendor: %s\n" [.str (stringAt cpu.vendor)],
        .printf "Signature: 0x%x\n" [cpu.signature],
        .writestring "Features: "] ++
      features.map (fun feature => .writestring feature.2) ++ [.writestring "\n"]

/-! ## memory.c

The numbers come from the boot loader and are only printed. -/

def memoryPrintInfo (info : MemoryInfo) : List TermCall :=
  coloured .lightCyan (.writestring "=== Memory Information ===\n") ++
    [.printf "Lower Memory: %d KB\n" [info.lower],
      .printf "Upper Memory: %d KB\n" [info.upper],
      .printf "Total Memory: %d KB (%d MB)\n" [info.total, info.total / 1024]]

/-! ## Of terminal.c and kernel.c -/

def printBootArt : List TermCall :=
  [.setcolor (vgaEntryColor .lightCyan .black),
    .writestring "   ____                       ___  ____\n",
    .writestring "  / ___| _____ _ _ __ ___    / _ \\/ ___|\n",
    .writestring "  \\___ \\|_  / | | '_ ` _ \\  | | | \\___ \\\n",
    .writestring "   ___) |/ /| |_| | | | | | | |_| |___) |\n",
    .writestring "  |____//___|\\__, |_| |_| |_|\\___/|____/\n",
    .writestring "             |___/\n\n"]

def kernelPanic (message : String) : List TermCall :=
  [.setcolor (vgaEntryColor .white .red), .writestring "\n\n*** KERNEL PANIC ***\n",
    .writestring message, .writestring "\n\nSystem halted."]

end SzymOS
