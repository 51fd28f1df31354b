import Mathlib.Tactic.Common

/-!
# Calls to the terminal

What the file system says to the user is part of what it does: a save is reported as done, a
directory as empty.  A function that writes to the terminal is modelled by the list of calls it
makes, with the texts of the source; how the terminal draws them is not this file's concern.

A call is kept with its argument as the source writes it, a literal as a literal and a number as a
number.  What becomes of it on the screen is in `Screen.lean` and `Printf.lean`, and
`Rendering.lean` puts both together.  The colours are those the modelled functions use, with the
numbers of the enumeration.
-/

set_option autoImplicit false

namespace SzymOS

/-- `enum vga_color`, as far as the modelled functions use it. -/
inductive VgaColor where
  | black
  | red
  | lightGreen
  | lightCyan
  | lightRed
  | yellow
  | white
  deriving DecidableEq, Repr

/-- The numbers of the enumeration. -/
def VgaColor.code : VgaColor → UInt8
  | .black => 0
  | .red => 4
  | .lightGreen => 10
  | .lightCyan => 11
  | .lightRed => 12
  | .yellow => 14
  | .white => 15

def vgaEntryColor (fg bg : VgaColor) : UInt8 := fg.code ||| (bg.code <<< 4)

/-- An argument of `terminal_printf`: a number, or the bytes of a string. -/
inductive PrintfArg where
  | num (n : UInt32)
  | str (bytes : List UInt8)
  deriving DecidableEq, Repr

/-- One call: `terminal_setcolor`, `terminal_writestring` of a literal, `terminal_writestring` of
bytes found in memory, `terminal_putchar`, `terminal_printf` with the numbers it is given or with
strings among them, and `terminal_clear`. -/
inductive TermCall where
  | setcolor (color : UInt8)
  | writestring (text : String)
  | writemem (bytes : List UInt8)
  | putchar (c : UInt8)
  | printf (format : String) (args : List UInt32)
  | formatted (format : String) (args : List PrintfArg)
  | clear
  deriving DecidableEq, Repr

/-- The three calls around every coloured message of the file system. -/
def coloured (fg : VgaColor) (call : TermCall) : List TermCall :=
  [.setcolor (vgaEntryColor fg .black), call, .setcolor (vgaEntryColor .white .black)]

end SzymOS
