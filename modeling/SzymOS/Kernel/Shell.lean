import SzymOS.Filesystem.Effects
import SzymOS.Kernel.Machine
import Mathlib.Data.List.Infix

/-!
# `shell.c`

The commands of the shell, and the order in which a command line is tried against them.  A line is
first taken apart (`shellCommand`, the chain of comparisons of the source) and then carried out
(`runCommand`).

A command that does not come to its end stops the shell.  That is so for `panic` and `reboot`, for a
`calc` whose division the processor refuses or whose loops find no end, and for a wait on the serial
line that nothing answers.

What a command may do is known from what it is made of: messages, writes to the ports of the serial
line and of the keyboard controller, sectors that are read and written, and a detection of the
drives.  A relation between worlds that holds across these holds across every command, and so most
of what is said of the shell in other modules is proved from the elementary steps alone.

* `shellCommand_cat`, `shellCommand_write`, `shellCommand_rm` — which lines are the three commands
  on files: no other command is tried before them whose name starts theirs.
* `cmdWrite_line` — how `cmd_write` takes a line apart.
* `ConsoleRel`, `ShellRel` — what holds across every step a command can take holds across it.

The functions of the source come first, and after them three groups of facts.  Those on lines say
which command a line is, and are all that is proved by going through the chain.  Those on messages
say that everything a command prints can be printed, function by function as the texts are written.
The last group are the rules for relations, from weak to strong: a `ConsoleRel` is enough for the
commands that do not reach the disk, a `ShellRel` for all but `disks`, whose detection each of the
users of these rules treats by itself; the same with prices is a `PricedShellRel`.  A relation
without prices is one with the price zero, so the rule is proved once.
-/

set_option autoImplicit false

namespace SzymOS

open Bytes

/-! ## Strings

The shell compares with `strcmp` and with a loop of its own for prefixes.  Both stop at the NUL of
the line, so a line is compared as the string it is. -/

namespace CString

/-- `strcmp(s, text) == 0` -/
def Is (s : CString) (text : String) (h : (literalChars [text]).length < 2 ^ 32 := by decide) :
    Prop := strcmp s.mem (ofLiterals [text] h) = 0

end CString

/-- The loop of `starts_with`: the prefix still ahead, and how far both pointers are. -/
def startsWithFrom (str : ℕ → UInt8) : (ahead : List UInt8) → (i : ℕ) → Bool
  | [], _ => true
  | c :: ahead, i => if str i ≠ c then false else startsWithFrom str ahead (i + 1)

def startsWith (str : CString) (text : String)
    (h : (CString.literalChars [text]).length < 2 ^ 32 := by decide) : Bool :=
  startsWithFrom str.mem (CString.ofLiterals [text] h).bytes 0

instance (s : CString) (text : String) (h : (CString.literalChars [text]).length < 2 ^ 32) :
    Decidable (s.Is text h) := inferInstanceAs (Decidable (_ = _))

section Compare

variable {s : CString} {text : String} {h : (CString.literalChars [text]).length < 2 ^ 32}

/-- Two strings with the same bytes and the same NUL are one string. -/
lemma CString.eq_of_mem {s t : CString} (hmem : ∀ j ≤ t.length, s.mem j = t.mem j) : s = t := by
  have hlen : s.length = t.length := by
    refine Nat.le_antisymm (Nat.not_lt.mp ?_) (Nat.not_lt.mp ?_)
    · intro hlt
      exact s.mem_ne_zero hlt ((hmem _ (Nat.le_refl _)).trans t.mem_length)
    · intro hlt
      exact t.mem_ne_zero hlt ((hmem _ (Nat.le_of_lt hlt)).symm.trans s.mem_length)
  refine CString.ext (List.ext_getElem hlen ?_)
  intro j hs ht
  rw [← s.mem_lt hs, ← t.mem_lt ht]
  exact hmem j (Nat.le_of_lt ht)

lemma CString.is_iff : s.Is text h ↔ s = CString.ofLiterals [text] h := by
  rw [CString.Is, strcmp_eq_zero_iff]
  exact ⟨CString.eq_of_mem, fun heq j _ => by rw [heq]⟩

lemma startsWithFrom_iff (str : ℕ → UInt8) (ahead : List UInt8) (i : ℕ) :
    startsWithFrom str ahead i = true ↔ ∀ j (hj : j < ahead.length), str (i + j) = ahead[j] := by
  induction ahead generalizing i with
  | nil => simp [startsWithFrom]
  | cons c ahead ih =>
      rw [startsWithFrom]
      split_ifs with hc
      · simp only [false_iff]
        exact fun hall => hc (hall 0 (Nat.zero_lt_succ _))
      · rw [ih]
        constructor
        · intro hrest j hj
          cases j with
          | zero => exact not_not.mp hc
          | succ j =>
              rw [← Nat.add_assoc, Nat.add_right_comm]
              exact hrest j (Nat.lt_of_succ_lt_succ hj)
        · intro hall j hj
          rw [Nat.add_right_comm]
          exact hall (j + 1) (Nat.succ_lt_succ hj)

/-- `starts_with` is the prefix order: the NUL of the line stops it. -/
lemma startsWith_iff :
    startsWith s text h = true ↔ (CString.ofLiterals [text] h).bytes <+: s.bytes := by
  rw [startsWith, startsWithFrom_iff, List.prefix_iff_getElem]
  generalize ht : CString.ofLiterals [text] h = t
  simp only [Nat.zero_add]
  constructor
  · intro hall
    have hlen : t.bytes.length ≤ s.bytes.length := by
      refine Nat.not_lt.mp ?_
      intro hlt
      have hnul : t.bytes[s.bytes.length] = 0 := (hall _ hlt).symm.trans s.mem_length
      exact t.noNul _ (List.getElem_mem _) hnul
    exact ⟨hlen, fun j hj => by rw [← hall j hj, s.mem_lt (Nat.lt_of_lt_of_le hj hlen)]⟩
  · rintro ⟨hlen, hall⟩ j hj
    rw [hall j hj, s.mem_lt (Nat.lt_of_lt_of_le hj hlen)]

/-- A line and a command that begin with different characters. -/
lemma not_is_of_head {b : UInt8} {rest : List UInt8} (hs : s.bytes = b :: rest)
    (hne : (CString.ofLiterals [text] h).bytes.head? ≠ some b) : ¬ s.Is text h := by
  intro hc
  rw [CString.is_iff.mp hc] at hs
  exact hne (by rw [hs]; rfl)

lemma not_startsWith_of_head {b : UInt8} {rest : List UInt8} (hs : s.bytes = b :: rest)
    (hne : (CString.ofLiterals [text] h).bytes.head? ≠ some b)
    (hsome : (CString.ofLiterals [text] h).bytes ≠ []) : ¬ startsWith s text h = true := by
  rw [startsWith_iff]
  intro hc
  cases ht : (CString.ofLiterals [text] h).bytes with
  | nil => exact hsome ht
  | cons c ahead =>
      rw [ht, hs, List.cons_prefix_cons] at hc
      rw [ht, hc.1] at hne
      exact hne rfl

end Compare

/-! ## cmd_calc

The loops may run through all of memory and never end, if they find nothing but their own
characters. -/

/-- `while (*p == ' ') p++;` from position `p` on.  Memory has `2 ^ 32` bytes: if they are all
spaces, the loop does not end. -/
def skipSpaces (mem : ℕ → UInt8) : (fuel p : ℕ) → Option ℕ
  | 0, _ => none
  | fuel + 1, p => if mem p = 32 then skipSpaces mem fuel (p + 1) else some p

/-- The loop that reads a number, with where it stops. -/
def readNumber (mem : ℕ → UInt8) : (fuel p : ℕ) → (num : Int32) → Option (ℕ × Int32)
  | 0, _, _ => none
  | fuel + 1, p, num =>
      if 48 ≤ mem p ∧ mem p ≤ 57 then
        readNumber mem fuel (p + 1) (num * 10 + Int32.ofNat (mem p - 48).toNat)
      else some (p, num)

def calcUsage : List TermCall :=
  [.writestring "Usage: calc <num1> <op> <num2>\n", .writestring "Operators: + - * /\n",
    .writestring "Example: calc 15 + 27\n"]

def calcReport (num1 : Int32) (op : UInt8) (num2 result : Int32) : List TermCall :=
  [.printf "%d %c %d = %d\n"
    [num1.toUInt32, UInt32.ofNat op.toNat, num2.toUInt32, result.toUInt32]]

/-- What is printed, from the two numbers and the operator.  Sums and products are kept in 32
bits; `none` is the division that the processor refuses. -/
def calcResult (num1 : Int32) (op : UInt8) (num2 : Int32) : Option (List TermCall) :=
  if op = 43 then some (calcReport num1 op num2 (num1 + num2))
  else if op = 45 then some (calcReport num1 op num2 (num1 - num2))
  else if op = 42 then some (calcReport num1 op num2 (num1 * num2))
  else if op = 47 then
    if num2 = 0 then some [.writestring "Error: Division by zero!\n"]
    else if num1 = Int32.minValue ∧ num2 = -1 then none
    else some (calcReport num1 op num2 (num1 / num2))
  else some calcUsage

/-- `cmd_calc` on memory from `expr` on; `none` when it does not return. -/
def cmdCalc (mem : ℕ → UInt8) : Option (List TermCall) := do
  let p ← skipSpaces mem (2 ^ 32) 0
  let (p, num1) ← readNumber mem (2 ^ 32) p 0
  let p ← skipSpaces mem (2 ^ 32) p
  let op := mem p
  let p ← skipSpaces mem (2 ^ 32) (p + 1)
  let (_, num2) ← readNumber mem (2 ^ 32) p 0
  calcResult num1 op num2

/-! ## The commands

Each command under its name in the source, with the texts that it prints. -/

variable {σ : Type} (M : Machine σ)

def colorNames : List String :=
  ["Black", "Blue", "Green", "Cyan", "Red", "Magenta", "Brown", "Light Gray", "Dark Gray",
    "Light Blue", "Light Green", "Light Cyan", "Light Red", "Light Magenta", "Yellow", "White"]

def cmdColors : List TermCall :=
  .writestring "=== VGA Color Palette ===\n" ::
    colorNames.zipIdx.flatMap fun (name, i) =>
      [.setcolor (UInt8.ofNat i ||| (VgaColor.black.code <<< 4)), .printf "  Color test  " [],
        .setcolor (vgaEntryColor .white .black),
        .formatted " %d: %s\n" [.num (UInt32.ofNat i), .str (textBytes name)]]

def cmdSerialPrint (msg : CString) (w : World σ) : Ending × World σ :=
  match serialInit M M.serial w with
  | (none, w) => (.halted, w)
  | (some answers, w) => serialPrint M msg.bytes answers w

def cmdSerialRead (w : World σ) : Ending × World σ :=
  match serialInit M M.serial w with
  | (none, w) => (.halted, w)
  | (some answers, w) =>
      match serialRead 127 answers with
      | none => (.halted, w)
      | some buffer => (.returned, w.print M.toPlatform [.writemem buffer])

def cmdLs (w : World σ) : World σ := fsListFiles M.toPlatform w

def cmdCat (filename : CString) (w : World σ) : World σ :=
  let (result, buffer) := fsReadFile M.toPlatform w filename (UInt32.ofNat (maxFileSize + 1))
  if result < 0 then
    w.print M.toPlatform
      (coloured .lightRed (.formatted "File not found: %s\n" [.str filename.bytes]))
  else
    w.print M.toPlatform [.writemem (buffer.takeWhile (· != 0)), .writestring "\n"]

/-! ### cmd_write

The name is copied into an array of 32 characters, up to a space or to the end of the array, and the
content is what follows behind more spaces. -/

/-- How many spaces `while (*content_start == ' ')` skips. -/
def leadingSpaces : List UInt8 → ℕ
  | [] => 0
  | c :: rest => if c = 32 then leadingSpaces rest + 1 else 0

/-- How many characters the filename loop copies into an array with room for `room` of them. -/
def filenameLength : (room : ℕ) → List UInt8 → ℕ
  | room + 1, c :: rest => if c ≠ 32 then filenameLength room rest + 1 else 0
  | _, _ => 0

/-- The report on what `fs_create_file` has returned. -/
def writeReport (result : ℤ) (filename : CString) : List TermCall :=
  if result = 0 then
    coloured .lightGreen (.formatted "File created: %s\n" [.str filename.bytes])
  else if result = -2 then
    coloured .lightRed (.formatted "Error: File already exists: %s\n" [.str filename.bytes])
  else if result = -3 then coloured .lightRed (.writestring "Error: Filesystem full\n")
  else coloured .lightRed (.writestring "Error: Could not create file\n")

def cmdWrite (args : CString) (w : World σ) : World σ :=
  let contentStart := args.drop (leadingSpaces args.bytes)
  let i := filenameLength (maxFilename - 1) contentStart.bytes
  let filename := contentStart.take i
  let contentStart := contentStart.drop i
  if filename.bytes = [] then
    w.print M.toPlatform [.writestring "Usage: write <filename> <content>\n",
      .writestring "Example: write hello.txt Hello World!\n"]
  else
    let contentStart := contentStart.drop (leadingSpaces contentStart.bytes)
    if contentStart.bytes = [] then
      w.print M.toPlatform [.writestring "Error: No content provided\n"]
    else
      let (result, w) := fsCreateFile M.toPlatform filename contentStart w
      w.print M.toPlatform (writeReport result filename)

def cmdRm (filename : CString) (w : World σ) : World σ :=
  let (result, w) := fsDeleteFile M.toPlatform filename w
  w.print M.toPlatform
    (if result = 0 then
      coloured .lightGreen (.formatted "File deleted: %s\n" [.str filename.bytes])
    else coloured .lightRed (.formatted "File not found: %s\n" [.str filename.bytes]))

/-! ### Texts

The longer texts, put together from the calls that the source makes for them. -/

/-- A heading of the help text, and the lines under it. -/
def helpSection (heading : String) (lines : List String) : List TermCall :=
  coloured .lightCyan (.writestring heading) ++ lines.map .writestring

def helpText : List TermCall :=
  [.setcolor (vgaEntryColor .yellow .black), .writestring "SzymOS Available Commands:\n"] ++
  helpSection "System Commands:\n"
    ["  help     - Show this help message\n", "  clear    - Clear the screen\n",
      "  info     - Display system information\n", "  version  - Show kernel version\n",
      "  cpuid    - Display CPU information\n", "  mem      - Show memory information\n",
      "  reboot   - Reboot the system\n"] ++
  helpSection "File System Commands:\n"
    ["  ls       - List all files\n", "  cat      - Display file contents (cat filename)\n",
      "  write    - Create a file (write name content)\n",
      "  rm       - Delete a file (rm filename)\n", "  disks    - List ATA drives\n"] ++
  helpSection "Fun Commands:\n"
    ["  banner   - Display SzymOS banner\n", "  colors   - Show all VGA colors\n",
      "  calc     - Simple calculator (e.g., calc 5 + 3)\n", "  echo     - Echo text back\n",
      "  panic    - Trigger a kernel panic (test)\n"]

def infoText (totalMemory : UInt32) : List TermCall :=
  coloured .lightCyan (.writestring "=== SzymOS System Information ===\n") ++
    [.formatted "Kernel Version: %s\n" [.str (textBytes "0.1.3")],
      .formatted "Codename: %s\n" [.str (textBytes "Initium")],
      .writestring "Architecture: x86 (32-bit)\n", .writestring "Bootloader: GRUB Multiboot\n",
      .writestring "Terminal: VGA Text Mode (80x25)\n",
      .printf "Total Memory: %d KB\n" [totalMemory]]

def versionText : List TermCall :=
  [.formatted "SzymOS Kernel v%s (%s)\n" [.str (textBytes "0.1.3"), .str (textBytes "Initium")],
    .writestring "A custom operating system kernel\n",
    .formatted "Copyright (c) %s\n" [.str (textBytes "2026")]]

/-- `do { temp = inb(0x64); ... } while (temp & 0x02);`: whether it ends. -/
def controllerReady : List UInt8 → Bool
  | [] => false
  | temp :: answers => if temp &&& 0x02 = 0 then true else controllerReady answers

/-! ## shell_execute_command

The comparisons of the chain, and the commands that they lead to, in two functions: the first of
them needs no machine. -/

inductive ShellCommand where
  | empty
  | help
  | ls
  | cat (filename : CString)
  | write (args : CString)
  | rm (filename : CString)
  | serialPrint (msg : CString)
  | serialRead
  | clear
  | info
  | version
  | save
  | cpuid
  | mem
  | banner
  | colors
  | disks
  | calculate (expr : CString)
  | reboot
  | echo (text : CString)
  | panic
  | unknown (cmd : CString)

/-- Which command a line is, tried in the order of the source. -/
def shellCommand (cmd : CString) : ShellCommand :=
  if cmd.Is "" then .empty
  else if cmd.Is "help" then .help
  else if cmd.Is "ls" then .ls
  else if startsWith cmd "cat " then .cat (cmd.drop 4)
  else if startsWith cmd "write " then .write (cmd.drop 6)
  else if startsWith cmd "rm " then .rm (cmd.drop 3)
  else if startsWith cmd "serial_print " then .serialPrint (cmd.drop 13)
  else if cmd.Is "serial_read" then .serialRead
  else if cmd.Is "clear" then .clear
  else if cmd.Is "info" then .info
  else if cmd.Is "version" then .version
  else if cmd.Is "save" then .save
  else if cmd.Is "cpuid" then .cpuid
  else if cmd.Is "mem" then .mem
  else if cmd.Is "banner" then .banner
  else if cmd.Is "colors" then .colors
  else if cmd.Is "disks" then .disks
  else if startsWith cmd "calc " then .calculate (cmd.drop 5)
  else if cmd.Is "reboot" then .reboot
  else if startsWith cmd "echo " then .echo (cmd.drop 5)
  else if cmd.Is "panic" then .panic
  else .unknown cmd

/-- Memory from the argument of `calc` on: the rest of the line and its NUL, and what lies behind
them. -/
def calcMemory (expr : CString) (p : ℕ) : UInt8 :=
  if p ≤ expr.length then expr.mem p else M.afterLine (p - (expr.length + 1))

/-- A command that only prints. -/
def printing (calls : List TermCall) (w : World σ) : Ending × World σ :=
  (.returned, w.print M.toPlatform calls)

def runCommand : ShellCommand → World σ → Ending × World σ
  | .empty, w => (.returned, w)
  | .help, w => printing M helpText w
  | .ls, w => (.returned, cmdLs M w)
  | .cat filename, w => (.returned, cmdCat M filename w)
  | .write args, w => (.returned, cmdWrite M args w)
  | .rm filename, w => (.returned, cmdRm M filename w)
  | .serialPrint msg, w => cmdSerialPrint M msg w
  | .serialRead, w => cmdSerialRead M w
  | .clear, w => printing M [.clear] w
  | .info, w => printing M (infoText M.memInfo.total) w
  | .version, w => printing M versionText w
  | .save, w => (.returned, fsSaveToDisk M.toPlatform w)
  | .cpuid, w => printing M (cpuPrintInfo M.toSurroundings) w
  | .mem, w => printing M (memoryPrintInfo M.memInfo) w
  | .banner, w => printing M printBootArt w
  | .colors, w => printing M cmdColors w
  | .disks, w =>
      let (table, dev) := M.detectDrives w.dev
      printing M (ataPrintDrives table) { w with dev }
  | .calculate expr, w =>
      match cmdCalc (calcMemory M expr) with
      | none => (.halted, w)
      | some calls => printing M calls w
  | .reboot, w =>
      let w := w.print M.toPlatform [.setcolor (vgaEntryColor .yellow .black),
        .writestring "Rebooting system...\n"]
      (.halted, if controllerReady M.controller then w.outb M 0x64 0xFE else w)
  | .echo text, w => printing M [.writemem text.bytes, .writestring "\n"] w
  | .panic, w =>
      (.halted, w.print M.toPlatform (kernelPanic "User triggered panic from shell"))
  | .unknown cmd, w =>
      printing M (coloured .lightRed (.formatted "Command not found: %s\n" [.str cmd.bytes]) ++
        [.writestring "Type 'help' for available commands.\n"]) w

/-! ### Which lines are commands on files

The chain is long, but the first character of a line rules out most of it. -/

section Dispatch

variable {cmd : CString} {rest : List UInt8}

lemma bytes_cat : (CString.ofLiterals ["cat "] (by decide)).bytes = textBytes "cat " := by decide

lemma bytes_write : (CString.ofLiterals ["write "] (by decide)).bytes = textBytes "write " := by
  decide

lemma bytes_rm : (CString.ofLiterals ["rm "] (by decide)).bytes = textBytes "rm " := by decide

theorem shellCommand_cat (h : cmd.bytes = textBytes "cat " ++ rest) :
    shellCommand cmd = .cat (cmd.drop 4) := by
  have hhead : cmd.bytes = 99 :: ([97, 116, 32] ++ rest) := h
  rw [shellCommand, if_neg (not_is_of_head hhead (by decide)),
    if_neg (not_is_of_head hhead (by decide)), if_neg (not_is_of_head hhead (by decide)),
    if_pos (startsWith_iff.mpr ⟨rest, by rw [bytes_cat, h]⟩)]

theorem shellCommand_write (h : cmd.bytes = textBytes "write " ++ rest) :
    shellCommand cmd = .write (cmd.drop 6) := by
  have hhead : cmd.bytes = 119 :: ([114, 105, 116, 101, 32] ++ rest) := h
  rw [shellCommand, if_neg (not_is_of_head hhead (by decide)),
    if_neg (not_is_of_head hhead (by decide)), if_neg (not_is_of_head hhead (by decide)),
    if_neg (not_startsWith_of_head hhead (by decide) (by decide)),
    if_pos (startsWith_iff.mpr ⟨rest, by rw [bytes_write, h]⟩)]

theorem shellCommand_rm (h : cmd.bytes = textBytes "rm " ++ rest) :
    shellCommand cmd = .rm (cmd.drop 3) := by
  have hhead : cmd.bytes = 114 :: ([109, 32] ++ rest) := h
  rw [shellCommand, if_neg (not_is_of_head hhead (by decide)),
    if_neg (not_is_of_head hhead (by decide)), if_neg (not_is_of_head hhead (by decide)),
    if_neg (not_startsWith_of_head hhead (by decide) (by decide)),
    if_neg (not_startsWith_of_head hhead (by decide) (by decide)),
    if_pos (startsWith_iff.mpr ⟨rest, by rw [bytes_rm, h]⟩)]

end Dispatch

def shellExecuteCommand (cmd : CString) (w : World σ) : Ending × World σ :=
  runCommand M (shellCommand cmd) w

/-- What `shell_init` prints; the command buffer is not modelled here. -/
def shellInitText : List TermCall :=
  coloured .lightGreen (.writestring "Welcome to SzymOS Shell!\n") ++
    [.writestring "Type 'help' for available commands.\n"]

/-! ### How cmd_write takes a line apart

For a line as somebody would type it: a short name, one space, and a content that does not begin
with a space. -/

lemma leadingSpaces_eq_zero {line : List UInt8} (h : line.head? ≠ some 32) :
    leadingSpaces line = 0 := by
  cases line with
  | nil => rfl
  | cons c rest => exact if_neg fun hc => h (by rw [hc]; rfl)

lemma filenameLength_eq (name rest : List UInt8) (room : ℕ) (hroom : name.length ≤ room)
    (hname : ∀ b ∈ name, b ≠ 32) : filenameLength room (name ++ 32 :: rest) = name.length := by
  induction name generalizing room with
  | nil => cases room <;> simp [filenameLength]
  | cons c name ih =>
      obtain ⟨room, rfl⟩ : ∃ n, room = n + 1 := ⟨room - 1, by simp at hroom; omega⟩
      rw [List.cons_append, filenameLength, if_pos (hname c List.mem_cons_self),
        ih room (by simpa using hroom) fun b hb => hname b (List.mem_cons_of_mem _ hb)]
      rfl

lemma filenameLength_le (room : ℕ) (line : List UInt8) : filenameLength room line ≤ room := by
  induction room generalizing line with
  | zero => exact Nat.le_refl 0
  | succ room ih =>
      cases line with
      | nil => exact Nat.zero_le _
      | cons c rest =>
          rw [filenameLength]
          split_ifs
          · exact Nat.succ_le_succ (ih rest)
          · exact Nat.zero_le _

/-- **All `cmd_write` can do.**  It prints, or it creates a file whose name has at most 31
characters and reports the result. -/
theorem cmdWrite_cases (args : CString) (w : World σ) :
    (∃ calls, cmdWrite M args w = w.print M.toPlatform calls) ∨
    ∃ name content : CString, name.length < 32 ∧
      cmdWrite M args w = (fsCreateFile M.toPlatform name content w).2.print M.toPlatform
        (writeReport (fsCreateFile M.toPlatform name content w).1 name) := by
  simp only [cmdWrite]
  split_ifs
  · exact Or.inl ⟨_, rfl⟩
  · exact Or.inl ⟨_, rfl⟩
  · refine Or.inr ⟨_, _, ?_, rfl⟩
    rw [CString.length, CString.take_bytes, List.length_take]
    exact Nat.lt_of_le_of_lt (Nat.min_le_left _ _) (Nat.lt_succ_of_le (filenameLength_le 31 _))

/-- **A line with a name and a content.**  `cmd_write` creates that file. -/
theorem cmdWrite_line {args name content : CString}
    (hargs : args.bytes = name.bytes ++ 32 :: content.bytes) (hname : name.bytes ≠ [])
    (hshort : name.length < 32) (hspace : ∀ b ∈ name.bytes, b ≠ 32) (hcontent : content.bytes ≠ [])
    (hhead : content.bytes.head? ≠ some 32) (w : World σ) :
    cmdWrite M args w = (fsCreateFile M.toPlatform name content w).2.print M.toPlatform
      (writeReport (fsCreateFile M.toPlatform name content w).1 name) := by
  have hlead : leadingSpaces args.bytes = 0 := by
    refine leadingSpaces_eq_zero ?_
    rw [hargs, List.head?_append_of_ne_nil _ hname]
    exact fun hc => hspace 32 (List.mem_of_mem_head? hc) rfl
  have hlen : filenameLength 31 args.bytes = name.bytes.length := by
    rw [hargs]
    exact filenameLength_eq _ _ _ (Nat.le_of_lt_succ hshort) hspace
  have hstart : args.drop 0 = args := CString.ext rfl
  have htake : args.take name.bytes.length = name := by
    refine CString.ext ?_
    rw [CString.take_bytes, hargs, List.take_left]
  have hdrop : (args.drop name.bytes.length).bytes = 32 :: content.bytes := by
    rw [CString.drop_bytes, hargs, List.drop_left]
  have hskip : leadingSpaces (32 :: content.bytes) = 1 := by
    rw [leadingSpaces, if_pos rfl, leadingSpaces_eq_zero hhead]
  have hrest : (args.drop name.bytes.length).drop 1 = content := by
    refine CString.ext ?_
    rw [CString.drop_bytes, hdrop]
    rfl
  simp only [cmdWrite, maxFilename, hlead, hstart, Nat.add_one_sub_one, hlen, htake, if_neg hname,
    hdrop, hskip, hrest, if_neg hcontent]

/-! ## What is printed is sound

For each function that prints: its literals are texts, and its formats are given what they ask for.
The strings among the arguments come from the command line, from a file or over the serial line, and
are texts since they end at their first NUL. -/

/-- The string that `serial_read` leaves in a buffer with this room. -/
lemma isText_serialRead {room : ℕ} {answers buffer : List UInt8} (hroom : room ≤ 2 ^ 32)
    (h : serialRead room answers = some buffer) : IsText buffer := by
  have hall : (∀ b ∈ buffer, b ≠ 0) ∧ buffer.length ≤ room := by
    clear hroom
    induction room generalizing answers buffer with
    | zero =>
        rw [serialRead, Option.some.injEq] at h
        rw [← h]
        exact ⟨fun b hb => absurd hb List.not_mem_nil, Nat.le_refl 0⟩
    | succ room ih =>
        rw [serialRead] at h
        split at h
        next => exact absurd h (by simp)
        next c answers _ =>
          split_ifs at h with hc
          · rw [Option.some.injEq] at h
            rw [← h]
            exact ⟨fun b hb => absurd hb List.not_mem_nil, Nat.zero_le _⟩
          · obtain ⟨rest, hrest, rfl⟩ := Option.map_eq_some_iff.mp h
            obtain ⟨hne, hlen⟩ := ih hrest
            exact ⟨List.forall_mem_cons.mpr ⟨hc, hne⟩, Nat.succ_le_succ hlen⟩
  exact ⟨hall.1, hall.2.trans hroom⟩

/-- What `cat` prints of what `fs_read_file` has stored. -/
lemma isText_readFile (P : Platform σ) (w : World σ) (name : CString) (maxSize : UInt32) :
    IsText ((fsReadFile P w name maxSize).2.takeWhile (· != 0)) where
  noNul b hb := by simpa using List.mem_takeWhile_imp hb
  fits := by
    have hlen : (fsReadFile P w name maxSize).2.length ≤ 2 ^ 32 := by
      rw [fsReadFile]
      split_ifs
      · exact Nat.zero_le _
      · split
        next => exact Nat.zero_le _
        next slot _ =>
          simp only [List.length_append, Bytes.slice_length, List.length_singleton]
          exact UInt32.toNat_lt _
    exact (List.takeWhile_sublist _).length_le.trans hlen

lemma kernelPanic_sound {message : String} (h : IsLiteral message) : Sound (kernelPanic message) :=
  sound_cons.mpr ⟨trivial, sound_cons.mpr ⟨sound_writestring rfl, sound_cons.mpr
    ⟨h, sound_singleton.mpr (sound_writestring rfl)⟩⟩⟩

lemma printBootArt_sound : Sound printBootArt := by
  rw [printBootArt]
  simp only [sound_cons]
  exact ⟨trivial, sound_writestring rfl, sound_writestring rfl, sound_writestring rfl,
    sound_writestring rfl, sound_writestring rfl, sound_writestring rfl, sound_nil⟩

lemma memoryPrintInfo_sound (info : MemoryInfo) : Sound (memoryPrintInfo info) := by
  rw [memoryPrintInfo]
  simp only [sound_append, sound_coloured, sound_cons]
  exact ⟨sound_writestring rfl, sound_printf rfl rfl rfl rfl, sound_printf rfl rfl rfl rfl,
    sound_printf rfl rfl rfl rfl, sound_nil⟩

lemma cpuPrintInfo_sound (s : Surroundings) : Sound (cpuPrintInfo s) := by
  have hfeatures : ∀ feature ∈ cpuFeatures, IsLiteral feature.2 := by
    simp only [cpuFeatures, List.forall_mem_cons]
    exact ⟨isLiteral_ofList rfl, isLiteral_ofList rfl, isLiteral_ofList rfl, isLiteral_ofList rfl,
      isLiteral_ofList rfl, isLiteral_ofList rfl, fun _ h => absurd h List.not_mem_nil⟩
  simp only [cpuPrintInfo]
  split_ifs
  · simp only [sound_append, sound_coloured, sound_cons]
    exact ⟨sound_writestring rfl, sound_writestring rfl, sound_nil⟩
  · simp only [sound_append, sound_coloured, sound_cons]
    refine ⟨⟨⟨sound_writestring rfl, ?_, sound_printf rfl rfl rfl rfl, sound_writestring rfl,
      sound_nil⟩, ?_⟩, sound_writestring rfl, sound_nil⟩
    · exact sound_formatted rfl rfl (.cons ⟨rfl, isText_strlen _⟩ .nil)
    · intro call hcall
      obtain ⟨feature, hfeature, rfl⟩ := List.mem_map.mp hcall
      exact hfeatures feature (List.mem_of_mem_filter hfeature)

lemma helpSection_sound {heading : String} {lines : List String} (hheading : IsLiteral heading)
    (hlines : ∀ line ∈ lines, IsLiteral line) : Sound (helpSection heading lines) := by
  refine sound_append.mpr ⟨sound_coloured.mpr hheading, ?_⟩
  intro call hcall
  obtain ⟨line, hline, rfl⟩ := List.mem_map.mp hcall
  exact hlines line hline

lemma helpText_sound : Sound helpText := by
  rw [helpText]
  simp only [sound_append, sound_cons]
  refine ⟨⟨⟨⟨trivial, sound_writestring rfl, sound_nil⟩, ?_⟩, ?_⟩, ?_⟩ <;>
    · refine helpSection_sound (isLiteral_ofList rfl) ?_
      simp only [List.forall_mem_cons]
      and_intros
      all_goals first | exact isLiteral_ofList rfl | exact fun _ h => absurd h List.not_mem_nil

lemma infoText_sound (totalMemory : UInt32) : Sound (infoText totalMemory) := by
  rw [infoText]
  simp only [sound_append, sound_coloured, sound_cons]
  refine ⟨sound_writestring rfl, ?_, ?_, sound_writestring rfl, sound_writestring rfl,
    sound_writestring rfl, sound_printf rfl rfl rfl rfl, sound_nil⟩
  · exact sound_formatted rfl rfl (.cons ⟨rfl, (isLiteral_ofList rfl).isText⟩ .nil)
  · exact sound_formatted rfl rfl (.cons ⟨rfl, (isLiteral_ofList rfl).isText⟩ .nil)

lemma versionText_sound : Sound versionText := by
  rw [versionText]
  simp only [sound_cons]
  refine ⟨?_, sound_writestring rfl, ?_, sound_nil⟩
  · exact sound_formatted rfl rfl (.cons ⟨rfl, (isLiteral_ofList rfl).isText⟩
      (.cons ⟨rfl, (isLiteral_ofList rfl).isText⟩ .nil))
  · exact sound_formatted rfl rfl (.cons ⟨rfl, (isLiteral_ofList rfl).isText⟩ .nil)

lemma cmdColors_sound : Sound cmdColors := by
  have hnames : ∀ name ∈ colorNames, IsLiteral name := by
    simp only [colorNames, List.forall_mem_cons]
    and_intros
    all_goals first | exact isLiteral_ofList rfl | exact fun _ h => absurd h List.not_mem_nil
  refine sound_cons.mpr ⟨sound_writestring rfl, ?_⟩
  intro call hcall
  obtain ⟨⟨name, i⟩, hname, hcall⟩ := List.mem_flatMap.mp hcall
  have hline : Sound [.setcolor (UInt8.ofNat i ||| (VgaColor.black.code <<< 4)),
      .printf "  Color test  " [], .setcolor (vgaEntryColor .white .black),
      .formatted " %d: %s\n" [.num (UInt32.ofNat i), .str (textBytes name)]] := by
    simp only [sound_cons]
    refine ⟨trivial, sound_printf rfl rfl rfl rfl, trivial, ?_, sound_nil⟩
    exact sound_formatted rfl rfl (.cons (Or.inl rfl)
      (.cons ⟨rfl, (hnames name (List.fst_mem_of_mem_zipIdx hname)).isText⟩ .nil))
  exact hline call hcall

lemma calcResult_sound {num1 num2 : Int32} {op : UInt8} {calls : List TermCall}
    (h : calcResult num1 op num2 = some calls) : Sound calls := by
  have hreport : ∀ result, Sound (calcReport num1 op num2 result) := fun result =>
    sound_singleton.mpr (sound_printf rfl rfl rfl rfl)
  have husage : Sound calcUsage := by
    rw [calcUsage]
    simp only [sound_cons]
    exact ⟨sound_writestring rfl, sound_writestring rfl, sound_writestring rfl, sound_nil⟩
  rw [calcResult] at h
  split_ifs at h <;> simp only [Option.some.injEq] at h <;> rw [← h]
  · exact hreport _
  · exact hreport _
  · exact hreport _
  · exact sound_singleton.mpr (sound_writestring rfl)
  · exact hreport _
  · exact husage

lemma cmdCalc_sound {mem : ℕ → UInt8} {calls : List TermCall} (h : cmdCalc mem = some calls) :
    Sound calls := by
  simp only [cmdCalc, Option.bind_eq_bind, Option.bind_eq_some_iff] at h
  obtain ⟨_, -, _, -, _, -, _, -, _, -, hresult⟩ := h
  exact calcResult_sound hresult

lemma writeReport_sound (result : ℤ) (filename : CString) :
    Sound (writeReport result filename) := by
  rw [writeReport]
  split_ifs
  · exact sound_coloured.mpr (sound_formatted rfl rfl (.cons ⟨rfl, filename.isText⟩ .nil))
  · exact sound_coloured.mpr (sound_formatted rfl rfl (.cons ⟨rfl, filename.isText⟩ .nil))
  · exact sound_coloured.mpr (sound_writestring rfl)
  · exact sound_coloured.mpr (sound_writestring rfl)

/-! ## What holds across every command

Commands that do not reach the disk need less of a relation than the others.  With prices the same
argument bounds what a command costs: it saves the file system once at most. -/

/-- The commands that reach the file system or the drives otherwise than by reading. -/
def ShellCommand.OnDisk : ShellCommand → Bool
  | .write _ => true
  | .rm _ => true
  | .save => true
  | .disks => true
  | _ => false

/-- A relation between worlds that holds across printing and across the writes to ports that the
shell makes itself: to the serial line and to the keyboard controller. -/
structure ConsoleRel (M : Machine σ) (R : World σ → World σ → Prop) : Prop where
  refl : ∀ w, R w w
  trans : ∀ {w w' w''}, R w w' → R w' w'' → R w w''
  print : ∀ calls w, R w (w.print M.toPlatform calls)
  outb : ∀ port value w, port = 0x64 ∨ 0x3F8 ≤ port → R w (w.outb M port value)

/-- The same, as far as messages are sound. -/
structure SoundConsoleRel (M : Machine σ) (R : World σ → World σ → Prop) : Prop where
  refl : ∀ w, R w w
  trans : ∀ {w w' w''}, R w w' → R w' w'' → R w w''
  print : ∀ calls w, Sound calls → R w (w.print M.toPlatform calls)
  outb : ∀ port value w, port = 0x64 ∨ 0x3F8 ≤ port → R w (w.outb M port value)

namespace SoundConsoleRel

variable {M} {R : World σ → World σ → Prop} (h : SoundConsoleRel M R)

include h

lemma outbs (writes : List (UInt16 × UInt8)) (hports : ∀ write ∈ writes, 0x3F8 ≤ write.1)
    (w : World σ) : R w (w.outbs M writes) := by
  induction writes generalizing w with
  | nil => exact h.refl w
  | cons write writes ih =>
      exact h.trans (h.outb _ _ w (Or.inr (hports write List.mem_cons_self)))
        (ih (fun write' hw => hports write' (List.mem_cons_of_mem _ hw)) _)

lemma serialInit (answers : List UInt8) (w : World σ) : R w (serialInit M answers w).2 := by
  have hsetup : R w (w.outbs M serialSetup) := h.outbs _ (by simp [serialSetup]) w
  cases answers with
  | nil => exact hsetup
  | cons answer answers =>
      simp only [SzymOS.serialInit]
      split_ifs
      · refine h.trans (h.trans hsetup (h.print _ _ ?_)) (h.outb _ _ _ (Or.inr (by decide)))
        exact sound_singleton.mpr (sound_writestring rfl)
      · exact h.trans hsetup (h.outb _ _ _ (Or.inr (by decide)))

lemma serialPrint (str answers : List UInt8) (w : World σ) :
    R w (serialPrint M str answers w).2 := by
  induction str generalizing answers w with
  | nil => exact h.refl w
  | cons a str ih =>
      rw [SzymOS.serialPrint, writeSerial]
      cases serialWait 0x20 answers with
      | none => exact h.refl w
      | some answers => exact h.trans (h.outb _ _ w (Or.inr (by decide))) (ih answers _)

/-- A file is printed up to its first NUL. -/
lemma cat (filename : CString) (w : World σ) : R w (cmdCat M filename w) := by
  simp only [cmdCat]
  split_ifs
  · refine h.print _ w (sound_coloured.mpr (sound_formatted rfl rfl ?_))
    exact .cons ⟨rfl, filename.isText⟩ .nil
  · exact h.print _ w (sound_cons.mpr ⟨isText_readFile _ w filename _,
      sound_singleton.mpr (sound_writestring rfl)⟩)

lemma ls (w : World σ) : R w (cmdLs M w) := by
  rw [cmdLs, fsListFiles_eq]
  exact h.print _ w (listing_sound _ w)

/-- **Commands that do not reach the disk** print and write to those ports, and no more. -/
theorem command {command : ShellCommand} (hcommand : command.OnDisk = false) (w : World σ) :
    R w (runCommand M command w).2 := by
  cases command with
  | write args => exact absurd hcommand (by simp [ShellCommand.OnDisk])
  | rm filename => exact absurd hcommand (by simp [ShellCommand.OnDisk])
  | save => exact absurd hcommand (by simp [ShellCommand.OnDisk])
  | disks => exact absurd hcommand (by simp [ShellCommand.OnDisk])
  | empty => exact h.refl w
  | help => exact h.print _ w helpText_sound
  | ls => exact h.ls w
  | cat filename => exact h.cat filename w
  | serialPrint msg =>
      have hinit := h.serialInit M.serial w
      simp only [runCommand, cmdSerialPrint]
      split
      next w₁ h₁ => rwa [h₁] at hinit
      next answers w₁ h₁ =>
        rw [h₁] at hinit
        exact h.trans hinit (h.serialPrint _ _ _)
  | serialRead =>
      have hinit := h.serialInit M.serial w
      simp only [runCommand, cmdSerialRead]
      split
      next w₁ h₁ => rwa [h₁] at hinit
      next answers w₁ h₁ =>
        rw [h₁] at hinit
        cases hread : SzymOS.serialRead 127 answers with
        | none => exact hinit
        | some buffer =>
            exact h.trans hinit
              (h.print _ _ (sound_singleton.mpr (isText_serialRead (by decide) hread)))
  | clear => exact h.print _ w (sound_singleton.mpr trivial)
  | info => exact h.print _ w (infoText_sound _)
  | version => exact h.print _ w versionText_sound
  | cpuid => exact h.print _ w (cpuPrintInfo_sound _)
  | mem => exact h.print _ w (memoryPrintInfo_sound _)
  | banner => exact h.print _ w printBootArt_sound
  | colors => exact h.print _ w cmdColors_sound
  | calculate expr =>
      simp only [runCommand]
      cases hcalc : cmdCalc (calcMemory M expr) with
      | none => exact h.refl w
      | some calls => exact h.print _ w (cmdCalc_sound hcalc)
  | reboot =>
      have hsound : Sound [.setcolor (vgaEntryColor .yellow .black),
          .writestring "Rebooting system...\n"] :=
        sound_cons.mpr ⟨trivial, sound_singleton.mpr (sound_writestring rfl)⟩
      simp only [runCommand]
      split_ifs
      · exact h.trans (h.print _ w hsound) (h.outb _ _ _ (Or.inl rfl))
      · exact h.print _ w hsound
  | echo text =>
      exact h.print _ w (sound_cons.mpr ⟨text.isText, sound_singleton.mpr (sound_writestring rfl)⟩)
  | panic => exact h.print _ w (kernelPanic_sound (isLiteral_ofList rfl))
  | unknown cmd =>
      refine h.print _ w (sound_append.mpr ⟨sound_coloured.mpr (sound_formatted rfl rfl ?_), ?_⟩)
      · exact .cons ⟨rfl, cmd.isText⟩ .nil
      · exact sound_singleton.mpr (sound_writestring rfl)

end SoundConsoleRel

/-- **Commands that do not reach the disk** print and write to those ports, and no more. -/
theorem ConsoleRel.command {M : Machine σ} {R : World σ → World σ → Prop} (h : ConsoleRel M R)
    {command : ShellCommand} (hcommand : command.OnDisk = false) (w : World σ) :
    R w (runCommand M command w).2 :=
  SoundConsoleRel.command ⟨h.refl, h.trans, fun calls w _ => h.print calls w, h.outb⟩ hcommand w

/-- A relation that holds across every elementary step of a command other than `disks`. -/
structure ShellRel (M : Machine σ) (R : World σ → World σ → Prop) : Prop
    extends StepRel M.toPlatform R where
  outb : ∀ port value w, port = 0x64 ∨ 0x3F8 ≤ port → R w (w.outb M port value)

/-! ### With prices

A command reads and writes sectors only in a save, and saves once at most.  The detection of `disks`
is not among the elementary steps. -/

/-- The same with prices, as far as messages are sound. -/
structure PricedShellRel (M : Machine σ) (r t : ℕ) (R : ℕ → World σ → World σ → Prop) : Prop
    extends PricedRel M.toPlatform r t R where
  outb : ∀ port value w, port = 0x64 ∨ 0x3F8 ≤ port → R 0 w (w.outb M port value)

namespace PricedShellRel

variable {M} {r t : ℕ} {R : ℕ → World σ → World σ → Prop} (h : PricedShellRel M r t R)

include h

/-- What is free. -/
lemma console : SoundConsoleRel M (R 0) where
  refl := h.refl
  trans := h.trans
  print := h.print
  outb := h.outb

/-- **What holds across these steps holds across every command but `disks`**, at the price of a
save. -/
theorem command {command : ShellCommand} (hcommand : command ≠ .disks) (w : World σ) :
    R (259 * t) w (runCommand M command w).2 := by
  cases hdisk : command.OnDisk with
  | false => exact h.mono (h.console.command hdisk w) (Nat.zero_le _)
  | true =>
      cases command with
      | disks => exact absurd rfl hcommand
      | rm filename =>
          refine h.after (h.delete filename w) (h.print _ _ ?_)
          split_ifs
          · exact sound_coloured.mpr
              (sound_formatted rfl rfl (.cons ⟨rfl, filename.isText⟩ .nil))
          · exact sound_coloured.mpr
              (sound_formatted rfl rfl (.cons ⟨rfl, filename.isText⟩ .nil))
      | save => exact h.save w
      | write args =>
          simp only [runCommand, cmdWrite]
          split_ifs
          · refine h.mono (h.print _ w (sound_cons.mpr ⟨sound_writestring rfl, ?_⟩))
              (Nat.zero_le _)
            exact sound_singleton.mpr (sound_writestring rfl)
          · exact h.mono (h.print _ w (sound_singleton.mpr (sound_writestring rfl)))
              (Nat.zero_le _)
          · exact h.after (h.create _ _ w) (h.print _ _ (writeReport_sound _ _))
      | _ => exact absurd hdisk (by simp [ShellCommand.OnDisk])

end PricedShellRel

/-- Without prices. -/
lemma ShellRel.pricedShellRel {M : Machine σ} {R : World σ → World σ → Prop} (h : ShellRel M R) :
    PricedShellRel M 0 0 fun _ => R :=
  { h.toStepRel.pricedRel with outb := h.outb }

/-- **What holds across every elementary step holds across every command but `disks`.** -/
theorem ShellRel.command {M : Machine σ} {R : World σ → World σ → Prop} (h : ShellRel M R)
    {command : ShellCommand} (hcommand : command ≠ .disks) (w : World σ) :
    R w (runCommand M command w).2 := h.pricedShellRel.command hcommand w

/-! ## Sessions

A session is a list of lines, each with the machine as it is while the line is executed. -/

/-- The shell between two command lines; `running` is false once a command has not returned. -/
structure Session (σ : Type) where
  world : World σ
  running : Bool

/-- One command line, on the machine as it is meanwhile. -/
def shellStep (e : Machine σ × CString) (s : Session σ) : Unit × Session σ :=
  if s.running then
    let (ending, world) := shellExecuteCommand e.1 e.2 s.world
    ((), { world, running := ending = .returned })
  else ((), s)

section Session

variable {s : Session σ}

/-- A shell that has stopped runs no further line. -/
lemma shellStep_stopped (hs : s.running = false) (e : Machine σ × CString) :
    (shellStep e s).2 = s := by
  rw [shellStep, if_neg (by simp [hs])]

lemma shellStep_running (hs : s.running = true) (e : Machine σ × CString) :
    (shellStep e s).2.world = (runCommand e.1 (shellCommand e.2) s.world).2 := by
  rw [shellStep, if_pos hs]
  rfl

/-- It goes on when the command has come to its end. -/
lemma shellStep_returned (hs : s.running = true) {e : Machine σ × CString}
    (h : (shellStep e s).2.running = true) :
    (runCommand e.1 (shellCommand e.2) s.world).1 = .returned := by
  rw [shellStep, if_pos hs] at h
  exact of_decide_eq_true h

end Session

end SzymOS
