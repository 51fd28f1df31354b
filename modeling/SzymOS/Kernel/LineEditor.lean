import SzymOS.Kernel.Screen
import SzymOS.Kernel.Shell

/-!
# The line editor of `shell_run`

`shell_run` keeps the line that is being typed in `command_buffer` and echoes every key.  Whether
the user sees what will be executed depends on two machines staying in step: a backspace takes the
last character from the buffer at any time, but the terminal does not go back over the start of a
row.

A backspace is echoed as three characters: back, a blank, back.  In the first column of a row the
terminal does not go back, and writes the blank at the cursor, over a cell that was blank; after
this the cursor is one place further than the buffer has it.

Everything is proved on the page and carried to the screen by `Displays`.  A line is at most 255
characters, so it is on the screen as a whole, and a place of the page that belongs to it can be
found there.

* `AsSeen` — what is shown from the prompt to the cursor is the command buffer, and what has been
  deleted is blank.
* `Page.Typed` — the same of the page of `Screen.lean`, where nothing scrolls.
* `line_seen_iff` — a run keeps it so exactly when no backspace is typed in the first column.

The step lemma is `asSeen_step`.  Its parts are facts about the page: what a glyph does to a typed
line (`Page.Typed.glyph`), and when an erasure takes back a character (`Page.Typed.erase_iff`).  The
equivalence comes from the second of these.  An erasure in the first column leaves the cursor where
it is, while the buffer gets shorter, so what is seen and what is typed differ by one in length;
anywhere else both go back together.

`OnPage.asSeen_iff` carries this to the screen.  It needs that the whole line is on the screen,
which holds because a line of 255 characters takes four or five rows of 25.
-/

set_option autoImplicit false

namespace SzymOS

open Transition

/-! ## shell_run -/

def terminalWritestring (data : String) (t : Terminal) : Terminal :=
  terminalWrite (textBytes data) t

def shellPrintPrompt (t : Terminal) : Terminal :=
  let t := terminalSetcolor (vgaEntryColor .lightCyan .black) t
  let t := terminalWritestring "szym" t
  let t := terminalSetcolor (vgaEntryColor .white .black) t
  let t := terminalWritestring "@" t
  let t := terminalSetcolor (vgaEntryColor .lightGreen .black) t
  let t := terminalWritestring "kernel" t
  let t := terminalSetcolor (vgaEntryColor .white .black) t
  terminalWritestring ":$ " t

def maxCommandLength : ℕ := 256

/-- The terminal, and the line that is being typed: `command_buffer` and `command_index`. -/
structure LineEditor where
  terminal : Terminal
  commandBuffer : ℕ → UInt8
  commandIndex : ℕ

/-- The body of the loop of `shell_run`, for the character that `keyboard_getchar` returns.  What
`shell_execute_command` does to the terminal is given, as far as the command comes to an end. -/
def shellRunKey (execute : (ℕ → UInt8) → Terminal → Terminal) (c : UInt8) (s : LineEditor) :
    LineEditor :=
  if c = 0 then s
  else if c = 10 then
    let terminal := terminalPutchar 10 s.terminal
    let commandBuffer := Function.update s.commandBuffer s.commandIndex 0
    { terminal := shellPrintPrompt (execute commandBuffer terminal)
      commandBuffer
      commandIndex := 0 }
  else if c = 8 then
    if s.commandIndex > 0 then
      { s with
        commandIndex := s.commandIndex - 1
        terminal := terminalPutchar 8 (terminalPutchar 32 (terminalPutchar 8 s.terminal)) }
    else s
  else if c = 9 then s
  else if s.commandIndex < maxCommandLength - 1 then
    { terminal := terminalPutchar c s.terminal
      commandBuffer := Function.update s.commandBuffer s.commandIndex c
      commandIndex := s.commandIndex + 1 }
  else s

/-! ## What the user sees

A place counts in reading order from the top of everything that was written since the screen was
cleared, so it stays the same when the screen scrolls.  The farthest place that the cursor has been
at limits what can have been deleted. -/

/-- The place of the cursor in reading order, the rows that have left the screen included. -/
def Terminal.place (t : Terminal) : ℕ := (t.scrolled + t.row) * 80 + t.column

/-- The character shown at a place that is on the screen. -/
def Terminal.charAt (t : Terminal) (q : ℕ) : UInt8 := (t.vga.cells (q - t.scrolled * 80)).toUInt8

/-- The line, and how far the cursor has been since the prompt. -/
structure Typing where
  line : LineEditor
  farthest : ℕ

def typingStep (execute : (ℕ → UInt8) → Terminal → Terminal) (c : UInt8) (s : Typing) :
    Unit × Typing :=
  let line := shellRunKey execute c s.line
  ((), { line, farthest := max s.farthest line.terminal.place })

/-- After the prompt, with whatever the buffer holds. -/
def atPrompt (t : Terminal) (commandBuffer : ℕ → UInt8) : Typing where
  line := { terminal := shellPrintPrompt t, commandBuffer, commandIndex := 0 }
  farthest := (shellPrintPrompt t).place

/-- **What is seen is what will be executed.**  From the end of the prompt, at the place `start`,
to the cursor the screen shows the command buffer; what was typed after it has been blanked. -/
structure AsSeen (start : ℕ) (s : Typing) : Prop where
  onScreen : s.line.terminal.scrolled * 80 ≤ start
  cursor : s.line.terminal.place = start + s.line.commandIndex
  text : ∀ i < s.line.commandIndex,
    s.line.terminal.charAt (start + i) = s.line.commandBuffer i
  deleted : ∀ q, start + s.line.commandIndex ≤ q → q < s.farthest →
    s.line.terminal.charAt q = 32

/-- No character is taken from the line while the cursor is in the first column. -/
def OffEdge (c : UInt8) (s : Typing) : Prop :=
  c = 8 → 0 < s.line.commandIndex → s.line.terminal.column ≠ 0

/-! ## On the page

Here a character of the line is at a place that never moves, and a key changes the page at the
cursor alone. -/

namespace Page

def place (p : Page) : ℕ := p.row * 80 + p.column

def charAt (p : Page) (q : ℕ) : UInt8 := (p.cell (q / 80) (q % 80)).toUInt8

/-- What is typed from `start` on is the buffer, and behind it everything up to `farthest` is
blank. -/
structure Typed (p : Page) (start : ℕ) (buffer : ℕ → UInt8) (index farthest : ℕ) : Prop where
  cursor : p.place = start + index
  text : ∀ i < index, p.charAt (start + i) = buffer i
  deleted : ∀ q, start + index ≤ q → q < farthest → p.charAt q = 32

end Page

lemma vgaEntry_char (uc color : UInt8) : (vgaEntry uc color).toUInt8 = uc := by
  have hshift : (color.toUInt16 <<< 8).toUInt8 = 0 := by
    refine UInt8.toNat_inj.mp ?_
    rw [UInt16.toNat_toUInt8, UInt16.toNat_shiftLeft, UInt8.toNat_toUInt16, Nat.shiftLeft_eq]
    simp
  rw [vgaEntry, UInt16.toUInt8_or, hshift]
  simp

namespace Page

variable {p : Page}

lemma write_charAt (hin : p.column < 80) (entry : UInt16) (q : ℕ) :
    (p.write entry).charAt q = if q = p.place then entry.toUInt8 else p.charAt q := by
  rw [charAt, charAt, write, place]
  simp only
  by_cases hq : q / 80 = p.row
  · rw [hq, Function.update_self, Function.update_apply]
    split_ifs with hx hplace hplace
    · rfl
    · omega
    · omega
    · rfl
  · rw [Function.update_of_ne hq, if_neg (by omega)]

/-- The last entry counts. -/
lemma write_write (entry entry' : UInt16) : (p.write entry).write entry' = p.write entry' := by
  simp only [write, Function.update_self, Function.update_idem]

lemma moveTo_place {column : ℕ} (hle : column ≤ 80) :
    (p.moveTo column).place = p.row * 80 + column := by
  rw [moveTo]
  split_ifs with hlt
  · rfl
  · rw [place, nextRow]
    simp only
    omega

/-- Moving on changes nothing, or blanks a row that begins behind the cursor. -/
lemma moveTo_charAt (column q : ℕ) : (p.moveTo column).charAt q = p.charAt q ∨
    (p.row + 1) * 80 ≤ q ∧ (p.moveTo column).charAt q = 32 := by
  rw [moveTo]
  split_ifs with hlt
  · exact Or.inl rfl
  · rw [charAt, charAt, nextRow]
    simp only
    split_ifs with hrow
    · exact Or.inl rfl
    · by_cases hq : q / 80 = p.row + 1
      · refine Or.inr ⟨by omega, ?_⟩
        rw [hq, Function.update_self, vgaEntry_char]
      · rw [Function.update_of_ne hq]
        exact Or.inl rfl

lemma putchar_glyph {c : UInt8} (hlf : c ≠ 10) (hbs : c ≠ 8) (htab : c ≠ 9) :
    p.putchar c = (p.write (vgaEntry c p.color)).moveTo (p.column + 1) := by
  rw [putchar, if_neg hlf, if_neg hbs, if_neg htab]

/-- What is echoed for a backspace: go back, write a blank, go back. -/
def erase (p : Page) : Page := ((p.putchar 8).putchar 32).putchar 8

lemma putchar_back (h : p.column ≠ 0) :
    p.putchar 8 = { p with column := p.column - 1 }.write (vgaEntry 32 p.color) := by
  rw [putchar, if_neg (by decide), if_pos rfl, if_neg h]

lemma putchar_blank (h : p.column + 1 < 80) :
    p.putchar 32 = { p.write (vgaEntry 32 p.color) with column := p.column + 1 } := by
  rw [putchar_glyph (by decide) (by decide) (by decide), moveTo, if_pos h]

/-- Inside a row it takes the last character back. -/
lemma erase_of_ne_zero (hin : p.column < 80) (h : p.column ≠ 0) :
    p.erase.place + 1 = p.place ∧
      ∀ q, p.erase.charAt q = if q + 1 = p.place then 32 else p.charAt q := by
  have hleft : p.column - 1 < 80 := by omega
  have herase : p.erase = { p with column := p.column - 1 }.write (vgaEntry 32 p.color) := by
    rw [erase, putchar_back h, putchar_blank (by rw [write]; simp only; omega),
      putchar_back (by rw [write]; simp only; omega), write_write]
    exact write_write _ _
  have hplace : p.erase.place = p.row * 80 + (p.column - 1) := by
    rw [herase]
    rfl
  refine ⟨by rw [hplace, place]; omega, ?_⟩
  intro q
  rw [herase, write_charAt hleft, vgaEntry_char]
  have hback : ({ p with column := p.column - 1 } : Page).place
      = p.row * 80 + (p.column - 1) := rfl
  refine if_congr ?_ rfl rfl
  rw [hback, place]
  omega

/-- In the first column it stays where it is. -/
lemma erase_of_zero (h : p.column = 0) : p.erase.place = p.place := by
  have hstay : p.putchar 8 = p := by rw [putchar, if_neg (by decide), if_pos rfl, if_pos h]
  rw [erase, hstay, putchar_blank (by omega), putchar_back (by simp)]
  simp [place, write, h]

section Typed

variable {start : ℕ} {buffer : ℕ → UInt8} {index farthest : ℕ}

/-- **A backspace** takes a character from the line exactly when the cursor is not in the first
column. -/
lemma Typed.erase_iff (h : p.Typed start buffer index farthest) (hin : p.column < 80)
    (hindex : 0 < index) :
    p.erase.Typed start buffer (index - 1) (max farthest p.erase.place) ↔ p.column ≠ 0 := by
  have hcursor := h.cursor
  constructor
  · intro h' hzero
    have hcursor' := h'.cursor
    rw [erase_of_zero hzero] at hcursor'
    omega
  · intro hne
    obtain ⟨hplace, hchar⟩ := erase_of_ne_zero hin hne
    refine ⟨by omega, ?_, ?_⟩
    · intro i hi
      rw [hchar, if_neg (by omega)]
      exact h.text i (by omega)
    · intro q hq hfar
      rw [hchar]
      split_ifs with hlast
      · rfl
      · exact h.deleted q (by omega) (by omega)

/-- **A character** is put at the end of the line. -/
lemma Typed.glyph (h : p.Typed start buffer index farthest) (hin : p.column < 80) {c : UInt8}
    (hlf : c ≠ 10) (hbs : c ≠ 8) (htab : c ≠ 9) :
    (p.putchar c).Typed start (Function.update buffer index c) (index + 1)
      (max farthest (p.putchar c).place) := by
  have hcursor := h.cursor
  have hplace : (p.putchar c).place = p.place + 1 := by
    rw [putchar_glyph hlf hbs htab, moveTo_place hin]
    rfl
  have hkept : ∀ q < p.place + 1,
      (p.putchar c).charAt q = if q = p.place then c else p.charAt q := by
    intro q hq
    rw [place] at hq
    rw [putchar_glyph hlf hbs htab]
    rcases moveTo_charAt (p := p.write (vgaEntry c p.color)) (p.column + 1) q with h' | ⟨hge, -⟩
    · rw [h', write_charAt hin, vgaEntry_char]
    · exact absurd hge (by rw [write]; simp only; omega)
  refine ⟨by rw [hplace, hcursor, Nat.add_assoc], ?_, ?_⟩
  · intro i hi
    rw [hkept _ (by omega), Function.update_apply]
    by_cases hlast : i = index
    · rw [if_pos hlast, if_pos (by omega)]
    · rw [if_neg hlast, if_neg (by omega)]
      exact h.text i (by omega)
  · intro q hq hfar
    rw [hplace] at hfar
    have hblank : p.charAt q = 32 := h.deleted q (by omega) (by omega)
    rw [putchar_glyph hlf hbs htab]
    rcases moveTo_charAt (p := p.write (vgaEntry c p.color)) (p.column + 1) q with h' | ⟨-, h'⟩
    · rw [h', write_charAt hin, if_neg (by omega), hblank]
    · exact h'

/-- A key that does nothing. -/
lemma Typed.stay (h : p.Typed start buffer index farthest) :
    p.Typed start buffer index (max farthest p.place) := by
  have hcursor := h.cursor
  exact ⟨hcursor, h.text, fun q hq hfar => h.deleted q hq (by omega)⟩

end Typed

end Page

/-! ## On the screen

What is seen on the screen is what is typed on the page. -/

section Screen

variable {t : Terminal} {p : Page}

lemma Displays.place (h : Displays t p) : t.place = p.place := by
  rw [Terminal.place, Page.place, h.scrolled, h.toShowsRows.top_add_row, h.column]

/-- The screen shows the characters of the page, as far down as the cursor has been. -/
lemma Displays.charAt (h : Displays t p) {q : ℕ} (hlow : t.scrolled * 80 ≤ q)
    (hhigh : q < (p.row + 1) * 80) : t.charAt q = p.charAt q := by
  have htop := h.scrolled
  have hrow : p.row ≤ p.top + 24 := by
    rw [Page.top]
    omega
  have hplace : q - t.scrolled * 80 = (q / 80 - p.top) * 80 + q % 80 := by
    rw [htop] at hlow ⊢
    omega
  have hdiv : p.top + (q / 80 - p.top) = q / 80 := by omega
  rw [Terminal.charAt, Page.charAt, hplace, h.cells _ (by omega) _ (by omega), hdiv]

/-- The state of the editor while its terminal shows this page. -/
structure OnPage (s : Typing) (p : Page) : Prop where
  displays : Displays s.line.terminal p
  index : s.line.commandIndex ≤ 255
  farthest : s.farthest ≤ (p.row + 1) * 80

/-- A line is short enough to be on the screen as a whole. -/
lemma OnPage.asSeen_iff {s : Typing} (h : OnPage s p) (start : ℕ) : AsSeen start s ↔
    p.Typed start s.line.commandBuffer s.line.commandIndex s.farthest := by
  have hplace := h.displays.place
  have hindex := h.index
  have hfar := h.farthest
  have hin := h.displays.inRow
  have hcursor : p.place = p.row * 80 + p.column := rfl
  constructor
  · rintro ⟨hscreen, hend, htext, hdeleted⟩
    refine ⟨hplace ▸ hend, ?_, ?_⟩
    · intro i hi
      rw [← h.displays.charAt (by omega) (by omega)]
      exact htext i hi
    · intro q hq hq'
      rw [← h.displays.charAt (by omega) (by omega)]
      exact hdeleted q hq hq'
  · rintro ⟨hend, htext, hdeleted⟩
    have hscreen : s.line.terminal.scrolled * 80 ≤ start := by
      rw [h.displays.scrolled, Page.top]
      omega
    refine ⟨hscreen, hplace.trans hend, ?_, ?_⟩
    · intro i hi
      rw [h.displays.charAt (by omega) (by omega)]
      exact htext i hi
    · intro q hq hq'
      rw [h.displays.charAt (by omega) (by omega)]
      exact hdeleted q hq hq'

end Screen

/-! ## One key

Besides Enter there are four kinds: one that does nothing, a backspace on an empty line, a backspace
that takes a character away, and a character that is stored or, when the line is full, ignored. -/

section Key

variable (execute : (ℕ → UInt8) → Terminal → Terminal) {s : Typing} {p p' : Page}

/-- **The page goes on.**  It is enough to know the page after the key and what is typed there. -/
lemma OnPage.key (h : OnPage s p) {c : UInt8} {line : LineEditor}
    (hkey : shellRunKey execute c s.line = line) (hrow : p.row ≤ p'.row)
    (hdisplays : Displays line.terminal p') (hindex : line.commandIndex ≤ 255)
    (htyped : ∀ start, p.Typed start s.line.commandBuffer s.line.commandIndex s.farthest →
      (p'.Typed start line.commandBuffer line.commandIndex (max s.farthest p'.place)
        ↔ OffEdge c s)) :
    ∃ p', OnPage (typingStep execute c s).2 p' ∧
      ∀ start, AsSeen start s → (AsSeen start (typingStep execute c s).2 ↔ OffEdge c s) := by
  have hplace := hdisplays.place
  have hnext : OnPage { line, farthest := max s.farthest line.terminal.place } p' :=
    { displays := hdisplays
      index := hindex
      farthest := by
        have hfar := h.farthest
        have hin := hdisplays.inRow
        have hcursor : p'.place = p'.row * 80 + p'.column := rfl
        simp only
        omega }
  simp only [typingStep, hkey]
  refine ⟨p', hnext, ?_⟩
  intro start hseen
  rw [hnext.asSeen_iff, hplace]
  exact htyped start ((h.asSeen_iff start).mp hseen)

/-- A key that does nothing. -/
lemma OnPage.stay (h : OnPage s p) {c : UInt8} (hstay : shellRunKey execute c s.line = s.line)
    (hoff : OffEdge c s) : ∃ p', OnPage (typingStep execute c s).2 p' ∧
      ∀ start, AsSeen start s → (AsSeen start (typingStep execute c s).2 ↔ OffEdge c s) :=
  h.key execute hstay (Nat.le_refl _) h.displays h.index
    fun _ htyped => ⟨fun _ => hoff, fun _ => htyped.stay⟩

/-- **One key other than Enter.**  The page goes on, and the line is seen as it is exactly when the
key was no backspace in the first column. -/
theorem asSeen_step (h : OnPage s p) {c : UInt8} (hlf : c ≠ 10) :
    ∃ p', OnPage (typingStep execute c s).2 p' ∧
      ∀ start, AsSeen start s → (AsSeen start (typingStep execute c s).2 ↔ OffEdge c s) := by
  have hin := h.displays.inRow
  by_cases hzero : c = 0
  · refine h.stay execute (by rw [shellRunKey, if_pos hzero]) ?_
    intro hbs
    rw [hzero] at hbs
    exact absurd hbs (by decide)
  by_cases hbs : c = 8
  · by_cases hempty : 0 < s.line.commandIndex
    · have hkey : shellRunKey execute c s.line =
          { s.line with
            commandIndex := s.line.commandIndex - 1
            terminal := terminalPutchar 8 (terminalPutchar 32 (terminalPutchar 8
              s.line.terminal)) } := by
        rw [shellRunKey, if_neg hzero, if_neg hlf, if_pos hbs, if_pos hempty]
      have hrow : p.row ≤ p.erase.row := Nat.le_trans (pageStep_row (.putchar 8) p)
        (Nat.le_trans (pageStep_row (.putchar 32) _) (pageStep_row (.putchar 8) _))
      have hdisplays := displays_putchar (displays_putchar (displays_putchar h.displays 8) 32) 8
      refine h.key execute hkey hrow hdisplays (Nat.le_trans (Nat.sub_le _ _) h.index) ?_
      intro start htyped
      have hcolumn : p.column ≠ 0 ↔ OffEdge c s := by
        rw [OffEdge, h.displays.column]
        exact ⟨fun hne _ _ => hne, fun hoff => hoff hbs hempty⟩
      exact (htyped.erase_iff hin hempty).trans hcolumn
    · refine h.stay execute ?_ fun _ hpos => absurd hpos hempty
      rw [shellRunKey, if_neg hzero, if_neg hlf, if_pos hbs, if_neg hempty]
  have hoff : OffEdge c s := fun hc => absurd hc hbs
  by_cases htab : c = 9
  · refine h.stay execute ?_ hoff
    rw [shellRunKey, if_neg hzero, if_neg hlf, if_neg hbs, if_pos htab]
  by_cases hfull : s.line.commandIndex < maxCommandLength - 1
  · have hkey : shellRunKey execute c s.line =
        { terminal := terminalPutchar c s.line.terminal
          commandBuffer := Function.update s.line.commandBuffer s.line.commandIndex c
          commandIndex := s.line.commandIndex + 1 } := by
      rw [shellRunKey, if_neg hzero, if_neg hlf, if_neg hbs, if_neg htab, if_pos hfull]
    refine h.key execute hkey (pageStep_row (.putchar c) p) (displays_putchar h.displays c) hfull ?_
    intro start htyped
    exact ⟨fun _ => hoff, fun _ => htyped.glyph hin hlf hbs htab⟩
  · refine h.stay execute ?_ hoff
    rw [shellRunKey, if_neg hzero, if_neg hlf, if_neg hbs, if_neg htab, if_neg hfull]

end Key

/-! ## Runs

The condition is on the column before each key.  As long as it holds the line is seen as it is, and
the first key at which it fails leaves a state in which it is not. -/

/-- A terminal as the kernel can have it: what is left by characters and colours written to a
screen that was cleared. -/
def Terminal.Reached (t : Terminal) : Prop := ∃ (t₀ : Terminal) (calls : List ScreenCall),
  t = final terminalStep calls (terminalClear t₀) ∨
    t = final terminalStep calls (terminalInitialize t₀)

/-- Such a terminal shows a page, also after the prompt. -/
lemma Terminal.Reached.prompt {t : Terminal} (h : t.Reached) :
    ∃ p, Displays (shellPrintPrompt t) p := by
  obtain ⟨t₀, calls, hrun⟩ := h
  have hshown : ∃ p, Displays t p := by
    rcases hrun with rfl | rfl
    · exact ⟨_, displays_run (displays_cleared t₀) calls⟩
    · exact ⟨_, displays_run (displays_initialized t₀) calls⟩
  obtain ⟨p, hp⟩ := hshown
  have hsegment : ∀ {t : Terminal} {p : Page}, Displays t p → ∀ (color : UInt8) (text : String),
      ∃ p', Displays (terminalWritestring text (terminalSetcolor color t)) p' :=
    fun hp color text => ⟨_, displays_write (displays_setcolor hp color) (textBytes text)⟩
  obtain ⟨p₁, h₁⟩ := hsegment hp (vgaEntryColor .lightCyan .black) "szym"
  obtain ⟨p₂, h₂⟩ := hsegment h₁ (vgaEntryColor .white .black) "@"
  obtain ⟨p₃, h₃⟩ := hsegment h₂ (vgaEntryColor .lightGreen .black) "kernel"
  exact hsegment h₃ (vgaEntryColor .white .black) ":$ "

section Run

variable (execute : (ℕ → UInt8) → Terminal → Terminal)

/-- An empty line, wherever it begins. -/
lemma asSeen_empty {t : Terminal} {p : Page} (h : Displays t p) (buffer : ℕ → UInt8) :
    let line : LineEditor := { terminal := t, commandBuffer := buffer, commandIndex := 0 }
    OnPage { line, farthest := t.place } p ∧ AsSeen t.place { line, farthest := t.place } := by
  have hin := h.inRow
  have hplace := h.place
  have hcursor : p.place = p.row * 80 + p.column := rfl
  have hpage : OnPage
      { line := { terminal := t, commandBuffer := buffer, commandIndex := 0 }
        farthest := t.place } p := ⟨h, Nat.zero_le _, by simp only; omega⟩
  refine ⟨hpage, (hpage.asSeen_iff _).mpr ⟨hplace.symm, ?_, ?_⟩⟩
  · intro i hi
    exact absurd hi (Nat.not_lt_zero i)
  · intro q hq hfar
    exact absurd hfar (Nat.not_lt.mpr hq)

/-- **When the user sees what will be executed.**  Whatever the screen showed before the prompt and
whatever keys are typed up to the next Enter: the text from the prompt to the cursor is the command
buffer in every state exactly when no backspace takes a character from the line while the cursor
is in the first column. -/
theorem line_seen_iff {t : Terminal} (ht : t.Reached) (buffer : ℕ → UInt8) {keys : List UInt8}
    (hkeys : 10 ∉ keys) :
    (∀ keys', keys' <+: keys → AsSeen (shellPrintPrompt t).place
        (final (typingStep execute) keys' (atPrompt t buffer))) ↔
      Along (typingStep execute) OffEdge keys (atPrompt t buffer) := by
  obtain ⟨p, hp⟩ := ht.prompt
  obtain ⟨hpage, hseen⟩ : OnPage (atPrompt t buffer) p ∧
    AsSeen (shellPrintPrompt t).place (atPrompt t buffer) := asSeen_empty hp buffer
  have hlf : ∀ c ∈ keys, c ≠ 10 := fun c hc heq => hkeys (heq ▸ hc)
  have hpages : ∀ keys', keys' <+: keys →
      ∃ p, OnPage (final (typingStep execute) keys' (atPrompt t buffer)) p := by
    intro keys' hbefore
    refine invariant_final (I := fun s => ∃ p, OnPage s p) ?_ ⟨p, hpage⟩
    rintro c hc s ⟨p, h⟩
    obtain ⟨p', h', -⟩ := asSeen_step execute h (hlf c (hbefore.subset hc))
    exact ⟨p', h'⟩
  rw [← forall_prefix_iff (I := fun s => (∃ p, OnPage s p) ∧ AsSeen (shellPrintPrompt t).place s)
    (fun c hc s ⟨⟨p, h⟩, hs⟩ => ?_) ⟨⟨p, hpage⟩, hseen⟩]
  · exact ⟨fun h keys' hbefore => ⟨hpages keys' hbefore, h keys' hbefore⟩,
      fun h keys' hbefore => (h keys' hbefore).2⟩
  · obtain ⟨p', h', hiff⟩ := asSeen_step execute h (hlf c hc)
    exact ⟨fun hnext => (hiff _ hs).mp hnext.2, fun hoff => ⟨⟨p', h'⟩, (hiff _ hs).mpr hoff⟩⟩

/-- The terminal when `kernel_main` begins. -/
def bootTerminal : Terminal :=
  terminalInitialize
    { vga := { cells := fun _ => 0, stored := [], selected := 0, crtc := fun _ => 0 }
      row := 0, column := 0, color := 0, scrolled := 0 }

/-- A letter, and a backspace inside the row. -/
theorem line_seen_letter : AsSeen (shellPrintPrompt bootTerminal).place
    (final (typingStep fun _ t => t) [97, 8] (atPrompt bootTerminal fun _ => 0)) := by
  have hreached : bootTerminal.Reached := ⟨_, [], Or.inr rfl⟩
  have hoff : Along (typingStep fun _ t => t) OffEdge [97, 8]
      (atPrompt bootTerminal fun _ => 0) := by
    refine ⟨fun h => absurd h (by decide), ?_, trivial⟩
    intro _ _
    decide +kernel
  exact (line_seen_iff (fun _ t => t) hreached (fun _ => 0) (by decide)).mpr hoff [97, 8]
    (List.prefix_refl _)

/-- **The line and the screen come apart.**  The prompt is 14 characters, so after 66 more the
cursor is in the first column of the second row.  A backspace leaves 65 characters in the buffer,
and 66 on the screen. -/
theorem backspace_unseen : ¬ AsSeen (shellPrintPrompt bootTerminal).place
    (final (typingStep fun _ t => t) (List.replicate 66 97 ++ [8])
      (atPrompt bootTerminal fun _ => 0)) := by
  intro hseen
  have hcursor := hseen.cursor
  revert hcursor
  decide +kernel

end Run

end SzymOS
