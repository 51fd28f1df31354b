import SzymOS.Kernel.LineEditor
import Mathlib.Data.List.DropRight

/-!
# Command lines

`shell_run` uses one buffer for all command lines and never clears it.  The line is what stands
before `command_index`; what stands behind it is left from earlier lines and deleted characters,
and is cut off by the NUL that Enter writes.

The loop of `shell_run` hands the buffer on to `shell_execute_command`, which is a parameter of
`shellRunKey` here: what holds for every such function holds for the shell.  That a key executes a
string is said with this parameter too.  The state after the key is the one that
`shell_execute_command` makes of this string, whatever it does; and that a key executes nothing
means that the state after it is the same whatever the function is.

The line since the last Enter is followed over all prefixes of the stream of characters: appending
and deleting are those of a list of at most 255 bytes, and no byte of an earlier line is in it.

* `line_shellRunKey` — what one key does to the line.
* `line_session` — the line is what has been typed since the last Enter.
* `session_executes_line` — so is what is executed, by Enter and by no other key.
-/

set_option autoImplicit false

namespace SzymOS

open Bytes

/-! ## The session

The lemmas say which keys execute a string and which store a byte, with the loop itself on one side;
they are all that is used of it from here on. -/

def shellInit (s : LineEditor) : LineEditor :=
  let t := terminalSetcolor (vgaEntryColor .lightGreen .black) s.terminal
  let t := terminalWritestring "Welcome to SzymOS Shell!\n" t
  let t := terminalSetcolor (vgaEntryColor .white .black) t
  let t := terminalWritestring "Type 'help' for available commands.\n" t
  { terminal := t, commandBuffer := Function.update s.commandBuffer 0 0, commandIndex := 0 }

/-- `shell_run` up to its loop. -/
def shellRunStart (s : LineEditor) : LineEditor :=
  { s with terminal := shellPrintPrompt s.terminal }

/-- What is passed to `shell_execute_command`: the command buffer, with its NUL. -/
def executed (c : UInt8) (s : LineEditor) : Option (ℕ → UInt8) :=
  if c = 10 then some (Function.update s.commandBuffer s.commandIndex 0) else none

/-- What is stored in the command buffer, and where. -/
def bufferWrite (c : UInt8) (s : LineEditor) : Option (ℕ × UInt8) :=
  if c = 0 then none
  else if c = 10 then some (s.commandIndex, 0)
  else if c = 8 then none
  else if c = 9 then none
  else if s.commandIndex < maxCommandLength - 1 then some (s.commandIndex, c)
  else none

/-- The loop of `shell_run`, on the characters that `keyboard_getchar` returns. -/
def session (execute : (ℕ → UInt8) → Terminal → Terminal) (keys : List UInt8) (s : LineEditor) :
    LineEditor := keys.foldl (fun s c => shellRunKey execute c s) s

section Key

variable (execute execute' : (ℕ → UInt8) → Terminal → Terminal) (c : UInt8) (s : LineEditor)

/-- `executed` is what the loop hands on. -/
lemma shellRunKey_some {command : ℕ → UInt8} (h : executed c s = some command) :
    shellRunKey execute c s =
      { terminal := shellPrintPrompt (execute command (terminalPutchar 10 s.terminal))
        commandBuffer := command
        commandIndex := 0 } := by
  rw [executed] at h
  split_ifs at h with henter
  rw [← Option.some.inj h, henter]
  rfl

lemma shellRunKey_none (h : executed c s = none) :
    shellRunKey execute c s = shellRunKey execute' c s := by
  rw [executed] at h
  split_ifs at h with henter
  rw [shellRunKey, shellRunKey, if_neg henter, if_neg henter]

/-- `bufferWrite` is what changes the buffer. -/
lemma commandBuffer_shellRunKey : (shellRunKey execute c s).commandBuffer =
    (bufferWrite c s).elim s.commandBuffer
      fun write => Function.update s.commandBuffer write.1 write.2 := by
  rw [shellRunKey, bufferWrite]
  split_ifs <;> rfl

end Key

/-! ## The line

A line is edited as a list: a character is appended unless the line is full, a backspace removes the
last, and the keys that do nothing leave it. -/

/-- The characters before `command_index`. -/
def LineEditor.line (s : LineEditor) : List UInt8 := slice s.commandBuffer 0 s.commandIndex

@[simp] lemma LineEditor.line_length (s : LineEditor) : s.line.length = s.commandIndex :=
  slice_length _ _ _

/-- One character of a line that is being edited. -/
def edit (line : List UInt8) (c : UInt8) : List UInt8 :=
  if c = 0 ∨ c = 9 then line
  else if c = 8 then line.dropLast
  else if line.length < 255 then line ++ [c]
  else line

/-- Characters that are not NUL. -/
lemma edit_ne_zero {line : List UInt8} (h : ∀ b ∈ line, b ≠ 0) (c : UInt8) :
    ∀ b ∈ edit line c, b ≠ 0 := by
  rw [edit]
  split_ifs with hskip
  · exact h
  · exact fun b hb => h b (List.mem_of_mem_dropLast hb)
  · intro b hb
    rw [List.mem_append, List.mem_singleton] at hb
    rcases hb with hb | rfl
    · exact h b hb
    · exact fun hzero => hskip (Or.inl hzero)
  · exact h

lemma foldl_edit_ne_zero (keys : List UInt8) : ∀ b ∈ keys.foldl edit [], b ≠ 0 := by
  induction keys using List.reverseRecOn with
  | nil => exact fun b hb => absurd hb List.not_mem_nil
  | append_singleton keys c ih =>
      rw [List.foldl_append]
      exact edit_ne_zero ih c

/-- A string that is followed by a NUL is found there. -/
lemma stringAt_update {buffer : ℕ → UInt8} {n : ℕ} (hn : n < 2 ^ 32)
    (h : ∀ b ∈ slice buffer 0 n, b ≠ 0) :
    stringAt (Function.update buffer n 0) = slice buffer 0 n := by
  have hbefore : ∀ j < n, Function.update buffer n 0 (0 + j) = buffer (0 + j) :=
    fun j hj => Function.update_of_ne (by omega) _ _
  have hlen : strlen (Function.update buffer n 0) = n := by
    refine strlen_eq (Function.update_self _ _ _) hn ?_
    intro j hj
    have hj' := hbefore j hj
    rw [Nat.zero_add] at hj'
    rw [hj']
    exact h _ (List.mem_map.mpr ⟨j, List.mem_range.mpr hj, by rw [Nat.zero_add]⟩)
  rw [stringAt, hlen]
  exact slice_congr hbefore

section Line

variable (execute : (ℕ → UInt8) → Terminal → Terminal)

/-- **What one key does to the line.** -/
lemma line_shellRunKey (c : UInt8) (s : LineEditor) :
    (shellRunKey execute c s).line = if c = 10 then [] else edit s.line c := by
  have hmax : maxCommandLength - 1 = 255 := rfl
  rw [shellRunKey, edit, hmax]
  by_cases hzero : c = 0
  · rw [if_pos hzero, if_pos (Or.inl hzero), if_neg (by rw [hzero]; decide)]
  by_cases henter : c = 10
  · rw [if_neg hzero, if_pos henter, if_pos henter]
    rfl
  rw [if_neg hzero, if_neg henter, if_neg henter]
  by_cases hbs : c = 8
  · have hskip : ¬ (c = 0 ∨ c = 9) := by
      rw [hbs]
      decide
    rw [if_pos hbs, if_neg hskip, if_pos hbs, LineEditor.line, LineEditor.line]
    cases hindex : s.commandIndex with
    | zero =>
        rw [if_neg (Nat.lt_irrefl 0), hindex]
        rfl
    | succ index =>
        rw [if_pos (Nat.zero_lt_succ index), slice_succ, List.dropLast_concat]
        rfl
  rw [if_neg hbs]
  by_cases htab : c = 9
  · rw [if_pos htab, if_pos (Or.inr htab)]
  rw [if_neg htab, if_neg (not_or.mpr ⟨hzero, htab⟩), if_neg hbs, LineEditor.line_length]
  by_cases hfull : s.commandIndex < 255
  · rw [if_pos hfull, if_pos hfull, LineEditor.line, slice_succ, Nat.zero_add]
    simp only [Function.update_self]
    refine congrArg (· ++ [c]) (slice_congr ?_)
    intro j hj
    exact Function.update_of_ne (by omega) _ _
  · rw [if_neg hfull, if_neg hfull]

/-- The index stays inside the buffer. -/
lemma commandIndex_shellRunKey (c : UInt8) {s : LineEditor} (h : s.commandIndex ≤ 255) :
    (shellRunKey execute c s).commandIndex ≤ 255 := by
  rw [shellRunKey]
  split_ifs with _ _ _ _ _ hfull
  · exact h
  · exact Nat.zero_le _
  · exact Nat.le_trans (Nat.sub_le _ _) h
  · exact h
  · exact h
  · exact hfull
  · exact h

/-- And so do the writes. -/
lemma bufferWrite_lt {c : UInt8} {s : LineEditor} (h : s.commandIndex ≤ 255) :
    ∀ write ∈ bufferWrite c s, write.1 < 256 := by
  intro write hwrite
  have hindex : write.1 = s.commandIndex := by
    rw [bufferWrite] at hwrite
    split_ifs at hwrite <;> simp only [Option.mem_def, reduceCtorEq, Option.some.injEq] at hwrite
    · rw [← hwrite]
    · rw [← hwrite]
  omega

/-! ## Runs

The line after any characters depends on those since the last Enter only, since Enter leaves the
empty line. -/

/-- When the loop begins, with whatever is in the buffer. -/
def sessionStart (s : LineEditor) : LineEditor := shellRunStart (shellInit s)

/-- The characters since the last Enter. -/
def sinceEnter (keys : List UInt8) : List UInt8 := keys.rtakeWhile (· != 10)

lemma session_concat (s : LineEditor) (keys : List UInt8) (c : UInt8) :
    session execute (keys ++ [c]) s = shellRunKey execute c (session execute keys s) := by
  rw [session, List.foldl_append]
  rfl

lemma commandIndex_session (s : LineEditor) (keys : List UInt8) :
    (session execute keys (sessionStart s)).commandIndex ≤ 255 := by
  induction keys using List.reverseRecOn with
  | nil => exact Nat.zero_le 255
  | append_singleton keys c ih =>
      rw [session_concat]
      exact commandIndex_shellRunKey execute c ih

/-- **The line is what has been typed** since the last Enter. -/
lemma line_session (s : LineEditor) (keys : List UInt8) :
    (session execute keys (sessionStart s)).line = (sinceEnter keys).foldl edit [] := by
  induction keys using List.reverseRecOn with
  | nil => rfl
  | append_singleton keys c ih =>
      rw [session_concat, line_shellRunKey, ih, sinceEnter, sinceEnter, List.rtakeWhile_concat]
      by_cases henter : c = 10
      · rw [if_pos henter, if_neg (by simp [henter])]
        rfl
      · rw [if_neg henter, if_pos (by simpa using henter), List.foldl_append]
        rfl

/-- What Enter passes on is the line. -/
lemma stringAt_executed {s : LineEditor} {command : ℕ → UInt8} (hindex : s.commandIndex ≤ 255)
    (hnul : ∀ b ∈ s.line, b ≠ 0) (h : executed 10 s = some command) :
    stringAt command = s.line := by
  rw [executed, if_pos rfl] at h
  rw [← Option.some.inj h]
  exact stringAt_update (by omega) hnul

/-- **The line editor executes exactly the edited line.**  Whatever characters come, whatever
`shell_execute_command` does and whatever was in the buffer before, after any number of characters:
the index is at most 255, and the next one stores inside the buffer if anywhere.  If it is Enter,
the string that is executed is what has been typed since the last Enter, edited; the state after it
is what the execution of this string makes of the terminal, with an empty line.  Any other
character executes nothing. -/
theorem session_executes_line (s : LineEditor) (keys : ℕ → UInt8) (n : ℕ) :
    let before := (List.range n).map keys
    let typing := session execute before (sessionStart s)
    let next := shellRunKey execute (keys n) typing
    typing.commandIndex ≤ 255 ∧
      (next.commandBuffer = (bufferWrite (keys n) typing).elim typing.commandBuffer
          (fun write => Function.update typing.commandBuffer write.1 write.2) ∧
        ∀ write ∈ bufferWrite (keys n) typing, write.1 < 256) ∧
      (keys n = 10 → ∃ command, stringAt command = (sinceEnter before).foldl edit [] ∧
        next = { terminal := shellPrintPrompt (execute command (terminalPutchar 10 typing.terminal))
                 commandBuffer := command
                 commandIndex := 0 }) ∧
      (keys n ≠ 10 → ∀ execute', shellRunKey execute' (keys n) typing = next) := by
  intro before typing next
  have hindex : typing.commandIndex ≤ 255 := commandIndex_session execute s before
  have hline : typing.line = (sinceEnter before).foldl edit [] := line_session execute s before
  have hnul : ∀ b ∈ typing.line, b ≠ 0 := hline ▸ foldl_edit_ne_zero (sinceEnter before)
  refine ⟨hindex, ⟨commandBuffer_shellRunKey execute (keys n) typing, bufferWrite_lt hindex⟩,
    ?_, ?_⟩
  · intro henter
    have hexecuted : executed 10 typing
        = some (Function.update typing.commandBuffer typing.commandIndex 0) := rfl
    refine ⟨_, (stringAt_executed hindex hnul hexecuted).trans hline, ?_⟩
    rw [← henter] at hexecuted
    exact shellRunKey_some execute (keys n) typing hexecuted
  · intro hother execute'
    exact shellRunKey_none execute' execute (keys n) typing (if_neg hother)

end Line

end SzymOS
