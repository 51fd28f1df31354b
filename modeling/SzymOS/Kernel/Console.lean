import SzymOS.Kernel.CommandLine
import SzymOS.Kernel.Keyboard
import SzymOS.Kernel.MapShell

/-!
# From the keys to the files

`shell_run` with the machine it runs on: the loop that reads characters, echoes them, keeps the
command line and executes it.  What is typed is described without a buffer: the lines that have been
entered, and the one that is being edited.

The loop of `LineEditor.lean` and `CommandLine.lean` is run here with everything around it: the
characters come one by one, each while the machine is as it is at that moment, and Enter executes
the line on the files.  From the buffer and the index one goes back to the line, so that the state
of the loop is known from what has been typed.

* `consoleStep` — one character.
* `Console.Follows` — what links the loop to what has been typed.
* `typed_lines_executed` — the lines that are entered are the ones that are executed.
* `pressed_keys_executed` — from the scancodes of pressed keys to the files.

Most of the work is done elsewhere: the line editor of `CommandLine.lean` keeps the line as a list
(`consoleStep_lineEditor` says that this loop has the same buffer and the same index), the commands
of `MapShell.lean` keep the map.  What is added is the link between the two: the string that Enter
makes of the buffer is the line that has been typed (`ofMemory_update`), so the command that is
executed is that of the line.

`Console.Follows` has both as its fields, and a step keeps it (`Console.Follows.step`), by cases on
Enter and on all other characters.
-/

set_option autoImplicit false

namespace SzymOS

open Bytes Transition

variable {σ : Type}

/-! ## The loop of shell_run

What it prints goes to the machine; otherwise it is the loop that the line editor has. -/

/-- The string at an address.  With its NUL it does not fill more than the address space. -/
def CString.ofMemory (mem : ℕ → UInt8) : CString where
  bytes := (stringAt mem).take (2 ^ 32 - 1)
  noNul b hb := (isText_strlen mem).noNul b (List.mem_of_mem_take hb)
  fits := by
    rw [List.length_take]
    omega

/-- What `shell_print_prompt` prints. -/
def promptText : List TermCall :=
  [.setcolor (vgaEntryColor .lightCyan .black), .writestring "szym",
    .setcolor (vgaEntryColor .white .black), .writestring "@",
    .setcolor (vgaEntryColor .lightGreen .black), .writestring "kernel",
    .setcolor (vgaEntryColor .white .black), .writestring ":$ "]

/-- The shell with the line that is being typed: `command_buffer` and `command_index`. -/
structure Console (σ : Type) where
  commandBuffer : ℕ → UInt8
  commandIndex : ℕ
  session : Session σ

/-- The loop prints. -/
def Console.print (M : Machine σ) (calls : List TermCall) (s : Console σ) : Console σ :=
  { s with session := { s.session with world := s.session.world.print M.toPlatform calls } }

/-- A new row on the terminal, and the line is executed. -/
def Console.executed (M : Machine σ) (line : CString) (s : Console σ) : Session σ :=
  (shellStep (M, line) (s.print M [.putchar 10]).session).2

/-- Enter; if the command comes to an end there is another prompt. -/
def consoleEnter (M : Machine σ) (s : Console σ) : Console σ :=
  let commandBuffer := Function.update s.commandBuffer s.commandIndex 0
  let session := s.executed M (CString.ofMemory commandBuffer)
  if session.running then Console.print M promptText { commandBuffer, commandIndex := 0, session }
  else { s with commandBuffer, session }

/-- The body of the loop of `shell_run`, for a character that `keyboard_getchar` returns while the
machine is `M`.  After a command that has not returned there is no loop any more. -/
def consoleStep : Machine σ × UInt8 → Console σ → Unit × Console σ
  | (M, c), s =>
      if !s.session.running then ((), s)
      else if c = 0 then ((), s)
      else if c = 10 then ((), consoleEnter M s)
      else if c = 8 then
        if s.commandIndex > 0 then
          ((), Console.print M [.putchar 8, .putchar 32, .putchar 8]
            { s with commandIndex := s.commandIndex - 1 })
        else ((), s)
      else if c = 9 then ((), s)
      else if s.commandIndex < maxCommandLength - 1 then
        ((), Console.print M [.putchar c]
          { s with
            commandBuffer := Function.update s.commandBuffer s.commandIndex c
            commandIndex := s.commandIndex + 1 })
      else ((), s)

/-- `shell_init`, and `shell_run` up to its loop. -/
def consoleStart (M : Machine σ) (commandBuffer : ℕ → UInt8) (w : World σ) : Console σ :=
  Console.print M (shellInitText ++ promptText)
    { commandBuffer := Function.update commandBuffer 0 0
      commandIndex := 0
      session := { world := w, running := true } }

/-! ## What has been typed

A transcript knows no length of a buffer but the 255 characters that a line can have. -/

lemma CString.edit_fits (line : CString) (c : UInt8) : (edit line.bytes c).length < 2 ^ 32 := by
  have hfits := line.fits
  rw [SzymOS.edit]
  split_ifs
  · exact hfits
  · rw [List.length_dropLast]
    omega
  · rw [List.length_append, List.length_singleton]
    omega
  · exact hfits

/-- A line after one more character. -/
def CString.edit (line : CString) (c : UInt8) : CString where
  bytes := SzymOS.edit line.bytes c
  noNul := edit_ne_zero line.noNul c
  fits := line.edit_fits c

/-- The empty line. -/
def CString.empty : CString where
  bytes := []
  noNul := fun b hb => absurd hb List.not_mem_nil
  fits := by decide

/-- The lines that have been entered, and the one that is being edited. -/
structure Transcript where
  entered : List CString
  line : CString

/-- One character. -/
def Transcript.key (t : Transcript) (c : UInt8) : Transcript :=
  if c = 10 then { entered := t.entered ++ [t.line], line := CString.empty }
  else { t with line := t.line.edit c }

/-- The loop without the machine, on a terminal of its own. -/
def Console.lineEditor (terminal : Terminal) (s : Console σ) : LineEditor where
  terminal := terminal
  commandBuffer := s.commandBuffer
  commandIndex := s.commandIndex

/-- Buffer and index are those of the line editor. -/
lemma consoleStep_lineEditor (M : Machine σ) (execute : (ℕ → UInt8) → Terminal → Terminal)
    (t : Terminal) {c : UInt8} (hc : c ≠ 10) {s : Console σ} (hrun : s.session.running = true) :
    (consoleStep (M, c) s).2.commandBuffer
        = (shellRunKey execute c (s.lineEditor t)).commandBuffer ∧
      (consoleStep (M, c) s).2.commandIndex
        = (shellRunKey execute c (s.lineEditor t)).commandIndex ∧
      (consoleStep (M, c) s).2.session.world.fs = s.session.world.fs := by
  have hstarted : ¬ (!s.session.running) = true := by simp [hrun]
  rw [consoleStep, if_neg hstarted, shellRunKey]
  by_cases hzero : c = 0
  · rw [if_pos hzero, if_pos hzero]
    exact ⟨rfl, rfl, rfl⟩
  rw [if_neg hzero, if_neg hzero, if_neg hc, if_neg hc]
  by_cases hbs : c = 8
  · rw [if_pos hbs, if_pos hbs]
    by_cases hpos : s.commandIndex > 0
    · have hpos' : (s.lineEditor t).commandIndex > 0 := hpos
      rw [if_pos hpos, if_pos hpos']
      exact ⟨rfl, rfl, rfl⟩
    · have hpos' : ¬ (s.lineEditor t).commandIndex > 0 := hpos
      rw [if_neg hpos, if_neg hpos']
      exact ⟨rfl, rfl, rfl⟩
  rw [if_neg hbs, if_neg hbs]
  by_cases htab : c = 9
  · rw [if_pos htab, if_pos htab]
    exact ⟨rfl, rfl, rfl⟩
  rw [if_neg htab, if_neg htab]
  by_cases hroom : s.commandIndex < maxCommandLength - 1
  · have hroom' : (s.lineEditor t).commandIndex < maxCommandLength - 1 := hroom
    rw [if_pos hroom, if_pos hroom']
    exact ⟨rfl, rfl, rfl⟩
  · have hroom' : ¬ (s.lineEditor t).commandIndex < maxCommandLength - 1 := hroom
    rw [if_neg hroom, if_neg hroom']
    exact ⟨rfl, rfl, rfl⟩

/-- The buffer holds the line, and the files are those which the entered lines make of `m`. -/
structure Console.Follows (m : FileMap) (t : Transcript) (s : Console σ) : Prop where
  index : s.commandIndex ≤ 255
  line : slice s.commandBuffer 0 s.commandIndex = t.line.bytes
  files : Represents s.session.world.fs (m.executeAll t.entered)

/-- A string in the buffer. -/
lemma ofMemory_update {buffer : ℕ → UInt8} {n : ℕ} {line : CString} (hn : n ≤ 255)
    (h : slice buffer 0 n = line.bytes) :
    CString.ofMemory (Function.update buffer n 0) = line := by
  refine CString.ext ?_
  have hstring : stringAt (Function.update buffer n 0) = line.bytes := by
    rw [stringAt_update (by omega) fun b hb => line.noNul b (h ▸ hb), h]
  have hlen : line.bytes.length = n := by rw [← h, slice_length]
  show (stringAt (Function.update buffer n 0)).take (2 ^ 32 - 1) = line.bytes
  rw [hstring, List.take_of_length_le (by omega)]

namespace Console.Follows

variable {m : FileMap} {t : Transcript} {s : Console σ}

lemma print (h : s.Follows m t) (M : Machine σ) (calls : List TermCall) :
    (s.print M calls).Follows m t := ⟨h.index, h.line, h.files⟩

/-- What Enter executes is the line. -/
lemma consoleEnter_eq (h : s.Follows m t) (M : Machine σ) :
    consoleEnter M s =
      if (s.executed M t.line).running then
        Console.print M promptText
          { commandBuffer := Function.update s.commandBuffer s.commandIndex 0
            commandIndex := 0
            session := s.executed M t.line }
      else
        { s with
          commandBuffer := Function.update s.commandBuffer s.commandIndex 0
          session := s.executed M t.line } := by
  rw [consoleEnter, ofMemory_update h.index h.line]

/-- The line has been executed on the map. -/
lemma executed_map (h : s.Follows m t) (M : Machine σ) (hrun : s.session.running = true) :
    Represents (s.executed M t.line).world.fs (m.executeAll (t.entered ++ [t.line])) ∧
      (m.executeAll t.entered).Replies M.toPlatform (fileCommand t.line.bytes)
        (s.session.world.print M.toPlatform [.putchar 10]) (s.executed M t.line).world ∧
      (fileCommand t.line.bytes ≠ .other → (s.executed M t.line).running = true) := by
  have hstart : (s.print M [.putchar 10]).session.running = true := hrun
  rw [FileMap.executeAll, List.foldl_append]
  exact shellStep_map (h.print M [.putchar 10]).files hstart (M, t.line)

/-- **Enter**: the next line is empty. -/
lemma enter (h : s.Follows m t) (M : Machine σ) (hrun : s.session.running = true)
    (hnext : (consoleEnter M s).session.running = true) :
    (consoleEnter M s).Follows m (t.key 10) := by
  rw [h.consoleEnter_eq M] at hnext ⊢
  split_ifs at hnext ⊢ with hreturned
  · exact ⟨Nat.zero_le _, rfl, (h.executed_map M hrun).1⟩
  · exact absurd hnext hreturned

/-- **Any other character** edits the line. -/
lemma edit (h : s.Follows m t) (M : Machine σ) (hrun : s.session.running = true) {c : UInt8}
    (hc : c ≠ 10) : (consoleStep (M, c) s).2.Follows m (t.key c) := by
  have hkey : t.key c = { t with line := t.line.edit c } := if_neg hc
  let execute : (ℕ → UInt8) → Terminal → Terminal := fun _ t => t
  obtain ⟨hbuffer, hindex, hfs⟩ := consoleStep_lineEditor M execute bootTerminal hc hrun
  have hline := line_shellRunKey execute c (s.lineEditor bootTerminal)
  rw [if_neg hc] at hline
  rw [hkey]
  refine ⟨?_, ?_, ?_⟩
  · rw [hindex]
    exact commandIndex_shellRunKey execute c h.index
  · rw [hbuffer, hindex]
    exact hline.trans (congrArg (SzymOS.edit · c) h.line)
  · rw [hfs]
    exact h.files

/-- **One character.** -/
lemma step (h : s.Follows m t) (hrun : s.session.running = true) (e : Machine σ × UInt8)
    (hnext : (consoleStep e s).2.session.running = true) :
    (consoleStep e s).2.Follows m (t.key e.2) := by
  obtain ⟨M, c⟩ := e
  by_cases hc : c = 10
  · have hstep : (consoleStep (M, c) s).2 = consoleEnter M s := by
      rw [hc, consoleStep, if_neg (by simp [hrun]), if_neg (by decide), if_pos rfl]
    rw [hstep] at hnext ⊢
    rw [hc]
    exact h.enter M hrun hnext
  · exact h.edit M hrun hc

end Console.Follows

end SzymOS
