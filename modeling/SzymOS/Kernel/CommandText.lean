import SzymOS.Kernel.Shell

/-!
# What a command line says

`shell_execute_command` tries a line against one command after the other, some by `strcmp` and some
by `starts_with`, and `shellCommand` is this chain.  What the line means to somebody who types it
does not depend on the order of the chain: a line is `ls`, or it is one of a few words with a space
behind it and something after the space.

Here the lines that are about files, and those that send something over the serial line, are read
off their text alone, without the commands of the shell.  What the shell is for is stated with these
readings, and the two theorems of this module connect them with the chain: it takes exactly these
lines for these commands, with exactly these arguments.  For the lines of each word this is a matter
of the commands that are tried before it; for all other lines, of no comparison of the chain
accepting by accident what it should not.

* `fileCommand`, `fileCommand_shellCommand` — the commands on files.
* `serialMessage`, `message_shellCommand` — the bytes that a line asks to be sent.
-/

set_option autoImplicit false

namespace SzymOS

open Bytes

/-! ## The commands on files

Arguments are what stands behind the word and its space, with all further spaces; an empty argument
is one. -/

/-- What a command line asks of the files.  Arguments are kept as they are typed. -/
inductive FileCommand where
  | list
  | display (name : List UInt8)
  | write (args : List UInt8)
  | remove (name : List UInt8)
  /-- Anything else. -/
  | other
  deriving DecidableEq

/-- The line `ls`, and the lines that begin with `cat`, `write` or `rm` and a space. -/
def fileCommand (line : List UInt8) : FileCommand :=
  if line = textBytes "ls" then .list
  else if textBytes "cat " <+: line then .display (line.drop 4)
  else if textBytes "write " <+: line then .write (line.drop 6)
  else if textBytes "rm " <+: line then .remove (line.drop 3)
  else .other

/-- The same of a command of the shell. -/
def ShellCommand.onFiles : ShellCommand → FileCommand
  | .ls => .list
  | .cat filename => .display filename.bytes
  | .write args => .write args.bytes
  | .rm filename => .remove filename.bytes
  | _ => .other

/-! ## The messages for the serial line

A line that is not for the serial line has an empty message. -/

/-- What stands behind `serial_print` and a space. -/
def serialMessage (line : List UInt8) : List UInt8 :=
  if textBytes "serial_print " <+: line then line.drop 13 else []

/-- What a command is asked to send. -/
def ShellCommand.message : ShellCommand → List UInt8
  | .serialPrint msg => msg.bytes
  | _ => []

/-! ## The chain of comparisons

Both theorems go along the chain.  At a comparison that decides the line they use what the line then
is; at all others both sides give the same value. -/

section Chain

variable {line : CString} {rest : List UInt8}

lemma listText_fits : (CString.literalChars ["ls"]).length < 2 ^ 32 := by decide

lemma readText_fits : (CString.literalChars ["serial_read"]).length < 2 ^ 32 := by decide

/-- Two lines without arguments. -/
def listText : CString := CString.ofLiterals ["ls"] listText_fits

def readText : CString := CString.ofLiterals ["serial_read"] readText_fits

lemma bytes_listText : listText.bytes = textBytes "ls" := by decide

lemma bytes_readText : readText.bytes = textBytes "serial_read" := by decide

lemma bytes_serialPrint :
    (CString.ofLiterals ["serial_print "] (by decide)).bytes = textBytes "serial_print " := by
  decide

theorem shellCommand_ls (h : line.bytes = textBytes "ls") : shellCommand line = .ls := by
  rw [CString.ext (h.trans bytes_listText.symm)]
  rfl

theorem shellCommand_serialRead (h : line.bytes = textBytes "serial_read") :
    shellCommand line = .serialRead := by
  rw [CString.ext (h.trans bytes_readText.symm)]
  rfl

/-- Before it, only the empty line, `help`, `ls` and the commands on files are tried. -/
theorem shellCommand_serialPrint (h : line.bytes = textBytes "serial_print " ++ rest) :
    shellCommand line = .serialPrint (line.drop 13) := by
  have hhead : line.bytes = 115 :: (textBytes "erial_print " ++ rest) := h
  rw [shellCommand, if_neg (not_is_of_head hhead (by decide)),
    if_neg (not_is_of_head hhead (by decide)), if_neg (not_is_of_head hhead (by decide)),
    if_neg (not_startsWith_of_head hhead (by decide) (by decide)),
    if_neg (not_startsWith_of_head hhead (by decide) (by decide)),
    if_neg (not_startsWith_of_head hhead (by decide) (by decide)),
    if_pos (startsWith_iff.mpr ⟨rest, by rw [bytes_serialPrint, h]⟩)]

/-- What both ends of a comparison have, its outcome has. -/
lemma value_ite {α : Type} {f : ShellCommand → α} {value : α} {p : Prop} [Decidable p]
    {a b : ShellCommand} (ha : f a = value) (hb : f b = value) :
    f (if p then a else b) = value := by
  split
  · exact ha
  · exact hb

/-- **The chain finds the commands on files.** -/
theorem fileCommand_shellCommand (line : CString) :
    (shellCommand line).onFiles = fileCommand line.bytes := by
  rw [fileCommand]
  split_ifs with hls hcat hwrite hrm
  · rw [shellCommand_ls hls]
    rfl
  · obtain ⟨rest, hrest⟩ := hcat
    rw [shellCommand_cat hrest.symm]
    rfl
  · obtain ⟨rest, hrest⟩ := hwrite
    rw [shellCommand_write hrest.symm]
    rfl
  · obtain ⟨rest, hrest⟩ := hrm
    rw [shellCommand_rm hrest.symm]
    rfl
  · -- the four comparisons that lead to a command on files fail
    have hls' : ¬ line.Is "ls" := fun h => hls (by rw [CString.is_iff.mp h]; exact bytes_listText)
    rw [← bytes_cat, ← startsWith_iff] at hcat
    rw [← bytes_write, ← startsWith_iff] at hwrite
    rw [← bytes_rm, ← startsWith_iff] at hrm
    rw [shellCommand, if_neg hls', if_neg hcat, if_neg hwrite, if_neg hrm]
    -- whatever accepts the line, it is no command on files
    repeat refine value_ite (f := ShellCommand.onFiles) rfl ?_
    rfl

/-- **The chain finds the messages.** -/
theorem message_shellCommand (line : CString) :
    (shellCommand line).message = serialMessage line.bytes := by
  rw [serialMessage]
  split_ifs with hprint
  · obtain ⟨rest, hrest⟩ := hprint
    rw [shellCommand_serialPrint hrest.symm]
    rfl
  · rw [← bytes_serialPrint, ← startsWith_iff] at hprint
    rw [shellCommand, if_neg hprint]
    repeat refine value_ite (f := ShellCommand.message) rfl ?_
    rfl

end Chain

end SzymOS
