import SzymOS.Kernel.Terminal
import SzymOS.Lib.Grid
import SzymOS.Lib.Run
import Mathlib.Data.List.Infix

/-!
# `terminal.c` on the video memory

The screen is 25 rows of 80 cells in the text memory of the video adapter.  What it shows is
compared with a page that has as many rows as are needed and never scrolls.

The terminal moves cells: a scroll copies every row one up and blanks the last.  The page moves its
window instead.  That the two agree is the content of the module: after a scroll the cell of the
screen in row `y` is the one that was in row `y + 1`, and that is the cell of the page in the same
row as before, seen from a window one row lower.

The window starts 24 rows above the highest row that the cursor has reached.  The cursor of the page
never goes up, so that row is the one it is in.

* `Displays` — a terminal shows the last 25 rows of a page.
* `displays_putchar` — one character keeps it so.
* `screen_is_window` — so does any run after the screen has been cleared.

`displays_putchar` is by cases on the character, and each case is a few moves: to store a cell
(`ShowsRows.store`), to go to a column or to the next row (`ShowsRows.moveTo`), to go to the next
row (`ShowsRows.nextRow`), and to set the hardware cursor, which changes no cell.  Only the third
one has to look at a scroll, with `terminalScroll_cells` for what it leaves.
-/

set_option autoImplicit false

namespace SzymOS

open Transition

def vgaWidth : ℕ := 80

def vgaHeight : ℕ := 25

/-- A cell: a character and its colours. -/
def vgaEntry (uc color : UInt8) : UInt16 := uc.toUInt16 ||| (color.toUInt16 <<< 8)

/-! ## The video adapter

The memory is a function from places to words, and the places that were stored to are remembered, so
that what lies outside the screen can be spoken of.  The CRT controller has one port to select a
register and one for its value; `update_cursor` and `enable_cursor` use these. -/

/-- The text memory from 0xB8000 on, one word a cell, with the places stored to so far; and the
registers of the CRT controller, `selected` being the one that port 0x3D5 stands for. -/
structure Vga where
  cells : ℕ → UInt16
  stored : List ℕ
  selected : UInt8
  crtc : UInt8 → UInt8

namespace Vga

def store (index : ℕ) (entry : UInt16) (v : Vga) : Vga :=
  { v with cells := Function.update v.cells index entry, stored := v.stored ++ [index] }

def outb (port : UInt16) (value : UInt8) (v : Vga) : Vga :=
  if port = 0x3D4 then { v with selected := value }
  else if port = 0x3D5 then { v with crtc := Function.update v.crtc v.selected value }
  else v

/-- `inb(0x3D5)` -/
def inb (v : Vga) : UInt8 := v.crtc v.selected

end Vga

def enableCursor (cursorStart cursorEnd : UInt8) (v : Vga) : Vga :=
  let v := v.outb 0x3D4 0x0A
  let v := v.outb 0x3D5 ((v.inb &&& 0xC0) ||| cursorStart)
  let v := v.outb 0x3D4 0x0B
  v.outb 0x3D5 ((v.inb &&& 0xE0) ||| cursorEnd)

def updateCursor (x y : ℕ) (v : Vga) : Vga :=
  let pos : UInt16 := UInt16.ofNat (y * vgaWidth + x)
  let v := v.outb 0x3D4 0x0F
  let v := v.outb 0x3D5 (pos &&& 0xFF).toUInt8
  let v := v.outb 0x3D4 0x0E
  v.outb 0x3D5 ((pos >>> 8) &&& 0xFF).toUInt8

/-- The loops that fill the screen with blanks. -/
def blankScreen (color : UInt8) (v : Vga) : Vga :=
  (Grid.points vgaWidth vgaHeight).foldl
    (fun v p => v.store (p.1 * vgaWidth + p.2) (vgaEntry 32 color)) v

/-! ## The terminal

The functions of `terminal.c` as they are, each on the state before it.  A line feed, a backspace
and a tab are taken for what they are; every other character is stored as a glyph, NUL and carriage
return included. -/

/-- The video adapter and the static variables of `terminal.c`.  `scrolled` is not one of them: it
counts the rows that have left the screen since it was cleared. -/
structure Terminal where
  vga : Vga
  row : ℕ
  column : ℕ
  color : UInt8
  scrolled : ℕ

def terminalUpdateCursor (t : Terminal) : Terminal :=
  { t with vga := updateCursor t.column t.row t.vga }

def terminalInitialize (t : Terminal) : Terminal :=
  let color := vgaEntryColor .lightGreen .black
  { vga := updateCursor 0 0 (enableCursor 0 15 (blankScreen color t.vga))
    row := 0
    column := 0
    color
    scrolled := 0 }

def terminalSetcolor (color : UInt8) (t : Terminal) : Terminal := { t with color }

def terminalScroll (t : Terminal) : Terminal :=
  let vga := (Grid.points vgaWidth (vgaHeight - 1)).foldl
    (fun v p => v.store (p.1 * vgaWidth + p.2) (v.cells ((p.1 + 1) * vgaWidth + p.2))) t.vga
  let vga := (List.range vgaWidth).foldl
    (fun v x => v.store ((vgaHeight - 1) * vgaWidth + x) (vgaEntry 32 t.color)) vga
  { t with vga, row := vgaHeight - 1, scrolled := t.scrolled + 1 }

/-- `terminal_column = 0; if (++terminal_row == VGA_HEIGHT) terminal_scroll();` -/
def terminalNextRow (t : Terminal) : Terminal :=
  let t := { t with column := 0, row := t.row + 1 }
  if t.row = vgaHeight then terminalScroll t else t

/-- Store a cell at the cursor. -/
def terminalStore (entry : UInt16) (t : Terminal) : Terminal :=
  { t with vga := t.vga.store (t.row * vgaWidth + t.column) entry }

def terminalPutchar (c : UInt8) (t : Terminal) : Terminal :=
  if c = 10 then terminalUpdateCursor (terminalNextRow t)
  else if c = 8 then
    if t.column > 0 then
      let t := { t with column := t.column - 1 }
      terminalUpdateCursor (terminalStore (vgaEntry 32 t.color) t)
    else t
  else if c = 9 then
    -- `(terminal_column + 4) & ~(4 - 1)`
    let t := { t with column := (t.column + 4) / 4 * 4 }
    terminalUpdateCursor (if t.column ≥ vgaWidth then terminalNextRow t else t)
  else
    let t := terminalStore (vgaEntry c t.color) t
    let t := { t with column := t.column + 1 }
    terminalUpdateCursor (if t.column = vgaWidth then terminalNextRow t else t)

def terminalWrite (data : List UInt8) (t : Terminal) : Terminal :=
  data.foldl (fun t c => terminalPutchar c t) t

def terminalClear (t : Terminal) : Terminal :=
  { t with
    vga := updateCursor 0 0 (blankScreen t.color t.vga)
    row := 0
    column := 0
    scrolled := 0 }

/-- The calls that write to the screen one character at a time. -/
inductive ScreenCall where
  | putchar (c : UInt8)
  | setcolor (color : UInt8)
  deriving DecidableEq, Repr

def terminalStep (call : ScreenCall) (t : Terminal) : Unit × Terminal :=
  match call with
  | .putchar c => ((), terminalPutchar c t)
  | .setcolor color => ((), terminalSetcolor color t)

/-! ## The cells

What stores to the CRT controller does not change a cell.  The loops that store are folds over the
places in the order of the source, and what they leave in a cell is what was stored there last. -/

namespace Vga

@[simp] lemma outb_cells (port : UInt16) (value : UInt8) (v : Vga) :
    (v.outb port value).cells = v.cells := by
  rw [outb]
  split_ifs <;> rfl

/-- A loop that stores, as far as the cells are concerned. -/
lemma foldl_store_cells {ι : Type} (place : ι → ℕ) (entry : (ℕ → UInt16) → ι → UInt16)
    (places : List ι) (v : Vga) :
    (places.foldl (fun v i => v.store (place i) (entry v.cells i)) v).cells
      = places.foldl (fun cells i => Function.update cells (place i) (entry cells i)) v.cells :=
  (List.foldl_hom Vga.cells fun _ _ => rfl).symm

end Vga

@[simp] lemma updateCursor_cells (x y : ℕ) (v : Vga) : (updateCursor x y v).cells = v.cells := by
  simp [updateCursor]

@[simp] lemma enableCursor_cells (cursorStart cursorEnd : UInt8) (v : Vga) :
    (enableCursor cursorStart cursorEnd v).cells = v.cells := by
  simp [enableCursor]

lemma blankScreen_cells (color : UInt8) (v : Vga) {j : ℕ} (hj : j < 2000) :
    (blankScreen color v).cells j = vgaEntry 32 color := by
  have hpoints := Grid.foldl_points
    (fun cells i => Function.update cells i (vgaEntry 32 color)) vgaWidth vgaHeight v.cells
  have hfill := Grid.foldl_fill (vgaEntry 32 color) 0 (vgaHeight * vgaWidth) v.cells j
  simp only [Nat.zero_add] at hfill
  rw [blankScreen, Vga.foldl_store_cells (fun p : ℕ × ℕ => p.1 * vgaWidth + p.2)
    (fun _ _ => vgaEntry 32 color)]
  simp only [Grid.index] at hpoints
  rw [hpoints, hfill, if_pos ⟨Nat.zero_le j, hj⟩]

/-- **What a scroll leaves.**  Every row but the last is the row that was below it. -/
lemma terminalScroll_cells (t : Terminal) {j : ℕ} (hj : j < 2000) :
    (terminalScroll t).vga.cells j
      = if j < 1920 then t.vga.cells (j + 80) else vgaEntry 32 t.color := by
  have hpoints := Grid.foldl_points (fun (cells : ℕ → UInt16) i =>
    Function.update cells i (cells (i + 80))) vgaWidth (vgaHeight - 1) t.vga.cells
  have hnext : ∀ p : ℕ × ℕ, (p.1 + 1) * vgaWidth + p.2 = p.1 * vgaWidth + p.2 + 80 := by
    intro p
    rw [vgaWidth]
    omega
  simp only [Grid.index] at hpoints
  simp only [terminalScroll, hnext]
  rw [Vga.foldl_store_cells (fun x => (vgaHeight - 1) * vgaWidth + x)
    (fun _ _ => vgaEntry 32 t.color), Grid.foldl_fill,
    Vga.foldl_store_cells (fun p : ℕ × ℕ => p.1 * vgaWidth + p.2)
      (fun cells p => cells (p.1 * vgaWidth + p.2 + 80)), hpoints, Grid.foldl_shift]
  have hrows : (vgaHeight - 1) * vgaWidth = 1920 := rfl
  have hlast : 1920 + vgaWidth = 2000 := rfl
  by_cases h : j < 1920
  · rw [if_neg (by omega), if_pos (by omega), if_pos h]
  · rw [if_pos (by omega), if_neg h]

/-! ## The page

The page has the same four cases for a character.  It has no last row, and a row that the terminal
would scroll in is blank in the colours of that moment. -/

/-- A terminal with as many rows as are needed, which never scrolls. -/
structure Page where
  cell : ℕ → ℕ → UInt16
  row : ℕ
  column : ℕ
  color : UInt8

namespace Page

/-- A blank page. -/
def blank (color : UInt8) : Page where
  cell _ _ := vgaEntry 32 color
  row := 0
  column := 0
  color

/-- The first row of the page that is on the screen. -/
def top (p : Page) : ℕ := p.row - 24

/-- To the next row.  One that is not among the first 25 becomes blank in the present colours. -/
def nextRow (p : Page) : Page where
  cell :=
    if p.row + 1 < 25 then p.cell
    else Function.update p.cell (p.row + 1) fun _ => vgaEntry 32 p.color
  row := p.row + 1
  column := 0
  color := p.color

@[simp] lemma nextRow_row (p : Page) : p.nextRow.row = p.row + 1 := rfl

/-- A cell at the cursor. -/
def write (entry : UInt16) (p : Page) : Page :=
  { p with
    cell := Function.update p.cell p.row (Function.update (p.cell p.row) p.column entry) }

/-- To a column that may be behind the last one. -/
def moveTo (column : ℕ) (p : Page) : Page :=
  if column < 80 then { p with column } else p.nextRow

/-- One character: a line feed, a backspace, which does not leave its row, a tab to the next
multiple of four, or a glyph. -/
def putchar (c : UInt8) (p : Page) : Page :=
  if c = 10 then p.nextRow
  else if c = 8 then
    if p.column = 0 then p
    else { p with column := p.column - 1 }.write (vgaEntry 32 p.color)
  else if c = 9 then p.moveTo (p.column / 4 * 4 + 4)
  else (p.write (vgaEntry c p.color)).moveTo (p.column + 1)

end Page

def pageStep (call : ScreenCall) (p : Page) : Unit × Page :=
  match call with
  | .putchar c => ((), p.putchar c)
  | .setcolor color => ((), { p with color })

/-- The cursor never goes up. -/
lemma pageStep_row (call : ScreenCall) (p : Page) : p.row ≤ (pageStep call p).2.row := by
  cases call with
  | setcolor color => exact Nat.le_refl _
  | putchar c =>
      have hmove : ∀ (column : ℕ) (q : Page), q.row ≤ (q.moveTo column).row := by
        intro column q
        rw [Page.moveTo]
        split_ifs
        · exact Nat.le_refl _
        · exact Nat.le_succ _
      rw [pageStep, Page.putchar]
      split_ifs
      · exact Nat.le_succ _
      · exact Nat.le_refl _
      · exact Nat.le_refl _
      · exact hmove _ p
      · exact hmove _ (p.write _)

/-! ## The screen is the end of the page

`ShowsRows` relates the pictures, `Displays` the columns as well.  Between the two stands a column
that has just reached 80: for one moment the cursor of the terminal is behind its row, and the step
to the next row brings it back. -/

/-- The screen shows the rows of the page from `top` on. -/
structure ShowsRows (t : Terminal) (p : Page) : Prop where
  row : t.row = min p.row 24
  color : t.color = p.color
  scrolled : t.scrolled = p.top
  cells : ∀ y < 25, ∀ x < 80, t.vga.cells (y * 80 + x) = p.cell (p.top + y) x

/-- And the cursor is at the same place. -/
structure Displays (t : Terminal) (p : Page) : Prop extends ShowsRows t p where
  column : t.column = p.column
  inRow : p.column < 80

section ShowsRows

variable {t : Terminal} {p : Page}

lemma ShowsRows.updateCursor (h : ShowsRows t p) : ShowsRows (terminalUpdateCursor t) p where
  row := h.row
  color := h.color
  scrolled := h.scrolled
  cells y hy x hx := by
    rw [terminalUpdateCursor, updateCursor_cells]
    exact h.cells y hy x hx

/-- The row of the cursor, counted from the top of the screen. -/
lemma ShowsRows.top_add_row (h : ShowsRows t p) : p.top + t.row = p.row := by
  rw [h.row, Page.top]
  omega

lemma ShowsRows.store (h : ShowsRows t p) (hcolumn : t.column = p.column) (hin : p.column < 80)
    (entry : UInt16) : ShowsRows (terminalStore entry t) (p.write entry) where
  row := h.row
  color := h.color
  scrolled := h.scrolled
  cells y hy x hx := by
    have hrow := h.top_add_row
    have hcell := h.cells y hy x hx
    change Function.update t.vga.cells (t.row * 80 + t.column) entry (y * 80 + x)
      = Function.update p.cell p.row (Function.update (p.cell p.row) p.column entry) (p.top + y) x
    by_cases hy' : p.top + y = p.row
    · rw [hy', Function.update_self, Function.update_apply, Function.update_apply, ← hy']
      rw [hcell]
      exact if_congr (by omega) rfl rfl
    · rw [Function.update_of_ne hy', ← hcell, Function.update_of_ne (by omega)]

/-- **The next row**, and a scroll where the screen has no more. -/
lemma ShowsRows.nextRow (h : ShowsRows t p) : Displays (terminalNextRow t) p.nextRow := by
  have hrow := h.row
  have hscrolled := h.scrolled
  rw [Page.top] at hscrolled
  by_cases hlast : p.row + 1 < 25
  · have hno : ¬ t.row + 1 = vgaHeight := by
      rw [vgaHeight]
      omega
    have htop : p.nextRow.top = p.top := by
      rw [Page.top, Page.top, Page.nextRow_row]
      omega
    have hcell : p.nextRow.cell = p.cell := if_pos hlast
    rw [terminalNextRow]
    simp only [if_neg hno]
    refine ⟨⟨?_, h.color, ?_, ?_⟩, rfl, Nat.zero_lt_succ _⟩
    · rw [Page.nextRow_row]
      simp only
      omega
    · rw [htop]
      exact h.scrolled
    · intro y hy x hx
      rw [htop, hcell]
      exact h.cells y hy x hx
  · have hyes : t.row + 1 = vgaHeight := by
      rw [vgaHeight]
      omega
    have htop : p.nextRow.top = p.top + 1 := by
      rw [Page.top, Page.top, Page.nextRow_row]
      omega
    have hcell : p.nextRow.cell
        = Function.update p.cell (p.row + 1) fun _ => vgaEntry 32 p.color := if_neg hlast
    rw [terminalNextRow]
    simp only [if_pos hyes]
    refine ⟨⟨?_, h.color, ?_, ?_⟩, rfl, Nat.zero_lt_succ _⟩
    · rw [Page.nextRow_row, terminalScroll]
      simp only [vgaHeight]
      omega
    · rw [htop, terminalScroll]
      exact congrArg (· + 1) h.scrolled
    · intro y hy x hx
      rw [htop, hcell, terminalScroll_cells _ (by omega)]
      by_cases hy' : y < 24
      · have hbelow := h.cells (y + 1) (by omega) x hx
        have hne : p.top + 1 + y ≠ p.row + 1 := by
          rw [Page.top]
          omega
        have hplace : y * 80 + x + 80 = (y + 1) * 80 + x := by omega
        have hpage : p.top + 1 + y = p.top + (y + 1) := by omega
        rw [if_pos (by omega), Function.update_of_ne hne, hplace, hpage]
        exact hbelow
      · have heq : p.top + 1 + y = p.row + 1 := by
          rw [Page.top]
          omega
        rw [if_neg (by omega), heq, Function.update_self, h.color]

end ShowsRows

/-- The hardware cursor is not part of the picture. -/
lemma Displays.updateCursor {t : Terminal} {p : Page} (h : Displays t p) :
    Displays (terminalUpdateCursor t) p where
  toShowsRows := h.toShowsRows.updateCursor
  column := h.column
  inRow := h.inRow

/-- To another column, or to the next row. -/
lemma ShowsRows.moveTo {t : Terminal} {p : Page} (h : ShowsRows t p) (column : ℕ) :
    Displays (if 80 ≤ column then terminalNextRow t else { t with column }) (p.moveTo column) := by
  rw [Page.moveTo]
  by_cases hin : column < 80
  · rw [if_neg (Nat.not_le.mpr hin), if_pos hin]
    exact ⟨⟨h.row, h.color, h.scrolled, h.cells⟩, rfl, hin⟩
  · rw [if_pos (Nat.not_lt.mp hin), if_neg hin]
    exact h.nextRow

/-- **One character.** -/
theorem displays_putchar {t : Terminal} {p : Page} (h : Displays t p) (c : UInt8) :
    Displays (terminalPutchar c t) (p.putchar c) := by
  have hshows := h.toShowsRows
  have hin := h.inRow
  have hentry : ∀ uc, vgaEntry uc p.color = vgaEntry uc t.color := fun uc => by rw [h.color]
  rw [terminalPutchar, Page.putchar]
  by_cases hlf : c = 10
  · rw [if_pos hlf, if_pos hlf]
    exact hshows.nextRow.updateCursor
  rw [if_neg hlf, if_neg hlf]
  by_cases hbs : c = 8
  · rw [if_pos hbs, if_pos hbs, h.column, hentry]
    by_cases hzero : p.column = 0
    · rw [if_pos hzero, if_neg (by omega)]
      exact h
    · rw [if_neg hzero, if_pos (by omega)]
      have hback : ShowsRows { t with column := p.column - 1 } { p with column := p.column - 1 } :=
        ⟨hshows.row, hshows.color, hshows.scrolled, hshows.cells⟩
      have hleft : p.column - 1 < 80 := by omega
      have hstore := hback.store rfl hleft (vgaEntry 32 t.color)
      exact Displays.updateCursor ⟨hstore, rfl, hleft⟩
  rw [if_neg hbs, if_neg hbs]
  by_cases htab : c = 9
  · rw [if_pos htab, if_pos htab, h.column]
    have hcolumn : (p.column + 4) / 4 * 4 = p.column / 4 * 4 + 4 := by omega
    rw [hcolumn]
    exact (hshows.moveTo (p.column / 4 * 4 + 4)).updateCursor
  · rw [if_neg htab, if_neg htab, hentry]
    have hmove := (hshows.store h.column hin (vgaEntry c t.color)).moveTo (p.column + 1)
    rw [← h.column] at hmove hin ⊢
    -- the test for equality is enough, since the column is at most 80 here
    have hwrap : (80 ≤ t.column + 1) = (t.column + 1 = vgaWidth) := by
      rw [vgaWidth]
      exact propext ⟨fun hge => by omega, fun heq => by omega⟩
    simp only [hwrap] at hmove
    exact hmove.updateCursor

lemma displays_setcolor {t : Terminal} {p : Page} (h : Displays t p) (color : UInt8) :
    Displays (terminalSetcolor color t) { p with color } :=
  ⟨⟨h.row, rfl, h.scrolled, h.cells⟩, h.column, h.inRow⟩

/-! ## Runs

A run is a list of calls, and the page after it is made by the same list from a blank page. -/

/-- Several characters. -/
lemma displays_write {t : Terminal} {p : Page} (h : Displays t p) (data : List UInt8) :
    Displays (terminalWrite data t) (data.foldl (fun p c => p.putchar c) p) := by
  induction data generalizing t p with
  | nil => exact h
  | cons c data ih => exact ih (displays_putchar h c)

/-- The page after these calls, if it was blank in these colours. -/
def pageAfter (color : UInt8) (calls : List ScreenCall) : Page :=
  final pageStep calls (Page.blank color)

/-- **A run.**  Whatever is written, the terminal goes on showing the page. -/
theorem displays_run {t : Terminal} {p : Page} (h : Displays t p) (calls : List ScreenCall) :
    Displays (final terminalStep calls t) (final pageStep calls p) := by
  induction calls generalizing t p with
  | nil => exact h
  | cons call calls ih =>
      refine ih ?_
      cases call with
      | putchar c => exact displays_putchar h c
      | setcolor color => exact displays_setcolor h color

/-- A screen that has just been blanked shows a blank page. -/
lemma displays_blank {t : Terminal} {color : UInt8} (hrow : t.row = 0) (hcolumn : t.column = 0)
    (hcolor : t.color = color) (hscrolled : t.scrolled = 0)
    (hcells : ∀ j < 2000, t.vga.cells j = vgaEntry 32 color) : Displays t (Page.blank color) where
  row := hrow
  color := hcolor
  scrolled := hscrolled
  cells y hy x hx := hcells _ (by omega)
  column := hcolumn
  inRow := Nat.zero_lt_succ _

lemma displays_cleared (t : Terminal) : Displays (terminalClear t) (Page.blank t.color) := by
  have hcolor : (terminalClear t).color = t.color := by rw [terminalClear]
  refine displays_blank rfl rfl hcolor rfl ?_
  intro j hj
  simp only [terminalClear, updateCursor_cells]
  exact blankScreen_cells _ _ hj

lemma displays_initialized (t : Terminal) :
    Displays (terminalInitialize t) (Page.blank (vgaEntryColor .lightGreen .black)) := by
  refine displays_blank rfl rfl rfl rfl ?_
  intro j hj
  simp only [terminalInitialize, updateCursor_cells, enableCursor_cells]
  exact blankScreen_cells _ _ hj

/-- The row of the cursor is the highest it has reached. -/
lemma pageAfter_row (color : UInt8) {calls' calls : List ScreenCall} (h : calls' <+: calls) :
    (pageAfter color calls').row ≤ (pageAfter color calls).row := by
  obtain ⟨rest, rfl⟩ := h
  rw [pageAfter, pageAfter, final_append]
  exact invariant_final (I := fun p => (final pageStep calls' (Page.blank color)).row ≤ p.row)
    (fun call _ p hp => Nat.le_trans hp (pageStep_row call p)) (Nat.le_refl _)

/-- **The screen is the last 25 rows of an unbounded terminal.**  After `terminal_clear` or
`terminal_initialize`, whatever characters are written in whatever colours, every cell of the
screen is the cell of the page in the window that starts 24 rows above the highest row which the
cursor has reached, or at the first row. -/
theorem screen_is_window (t : Terminal) (calls : List ScreenCall) :
    (∀ y < 25, ∀ x < 80, (final terminalStep calls (terminalClear t)).vga.cells (y * 80 + x)
      = (pageAfter t.color calls).cell ((pageAfter t.color calls).row - 24 + y) x) ∧
    (∀ y < 25, ∀ x < 80, (final terminalStep calls (terminalInitialize t)).vga.cells (y * 80 + x)
      = (pageAfter (vgaEntryColor .lightGreen .black) calls).cell
        ((pageAfter (vgaEntryColor .lightGreen .black) calls).row - 24 + y) x) ∧
    ∀ color calls', calls' <+: calls →
      (pageAfter color calls').row ≤ (pageAfter color calls).row :=
  ⟨(displays_run (displays_cleared t) calls).cells,
    (displays_run (displays_initialized t) calls).cells, fun color _ h => pageAfter_row color h⟩

end SzymOS
