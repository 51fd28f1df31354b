import SzymOS.Kernel.Printf

/-!
# The cursor of the terminal

The terminal tests for the edges of the screen with equality, so a row or a column that passed one
would run on through memory.  It keeps two cursors, its own and that of the video adapter.

The calls include `terminal_printf` with any format and any arguments, also those on which it never
returns: what it has written until then is on the screen like everything else.

The position in the registers is written as two bytes.  A position on the screen is below 2000, so
the bytes can be put together again, and the cursor that the user sees is the one that the next
character will be stored at.

* `displayStep` — the calls a user of the terminal can make.
* `OnScreen` — where the two cursors are, and where has been stored.
* `terminal_stays_on_screen` — every run keeps them on the screen and together.
-/

set_option autoImplicit false

namespace SzymOS

open Transition

/-! ## Calls

A call returns or does not, and leaves a terminal in both cases. -/

/-- `terminal_putchar`, `terminal_write`, `terminal_printf`, `terminal_setcolor` and
`terminal_clear`. -/
inductive DisplayCall where
  | putchar (c : UInt8)
  | write (data : List UInt8)
  | printf (format : ℕ → UInt8) (args : VarArgs)
  | setcolor (color : UInt8)
  | clear

def displayStep : DisplayCall → Terminal → Ending × Terminal
  | .putchar c, t => (.returned, terminalPutchar c t)
  | .write data, t => (.returned, terminalWrite data t)
  | .printf format args, t => terminalPrintf format args t
  | .setcolor color, t => (.returned, terminalSetcolor color t)
  | .clear, t => (.returned, terminalClear t)

/-! ## Where the cursor is

The places that were stored to are compared with those before the run, because what `bootTerminal`
or an earlier program stored is not the business of the calls. -/

/-- The cursor position last written to the registers. -/
def Vga.cursor (v : Vga) : ℕ := 256 * (v.crtc 0x0E).toNat + (v.crtc 0x0F).toNat

/-- Since `before`, only places on the screen have been stored to. -/
def Vga.InBounds (before : List ℕ) (v : Vga) : Prop :=
  ∃ places, v.stored = before ++ places ∧ ∀ i ∈ places, i < 2000

/-- Row and column are on the screen, what has been stored since `before` is too, and the hardware
cursor is where the terminal has it. -/
structure OnScreen (before : List ℕ) (t : Terminal) : Prop where
  row : t.row < 25
  column : t.column < 80
  stored : t.vga.InBounds before
  cursor : t.vga.cursor = t.row * 80 + t.column

namespace Vga

variable {before : List ℕ} {v : Vga}

lemma InBounds.refl (v : Vga) : v.InBounds v.stored :=
  ⟨[], (List.append_nil _).symm, fun _ h => absurd h List.not_mem_nil⟩

lemma InBounds.store (h : v.InBounds before) {index : ℕ} (hindex : index < 2000)
    (entry : UInt16) : (v.store index entry).InBounds before := by
  obtain ⟨places, hstored, hplaces⟩ := h
  refine ⟨places ++ [index], ?_, ?_⟩
  · rw [← List.append_assoc, ← hstored]
    rfl
  · intro i hi
    rw [List.mem_append, List.mem_singleton] at hi
    rcases hi with hi | rfl
    · exact hplaces i hi
    · exact hindex

/-- A loop that stores. -/
lemma InBounds.foldl_store {ι : Type} {place : ι → ℕ} {entry : Vga → ι → UInt16} {is : List ι}
    (hplace : ∀ i ∈ is, place i < 2000) (h : v.InBounds before) :
    (is.foldl (fun v i => v.store (place i) (entry v i)) v).InBounds before := by
  induction is generalizing v with
  | nil => exact h
  | cons i is ih =>
      exact ih (fun j hj => hplace j (List.mem_cons_of_mem _ hj))
        (h.store (hplace i List.mem_cons_self) _)

@[simp] lemma outb_stored (port : UInt16) (value : UInt8) (v : Vga) :
    (v.outb port value).stored = v.stored := by
  rw [outb]
  split_ifs <;> rfl

end Vga

@[simp] lemma updateCursor_stored (x y : ℕ) (v : Vga) : (updateCursor x y v).stored = v.stored := by
  simp [updateCursor]

@[simp] lemma enableCursor_stored (cursorStart cursorEnd : UInt8) (v : Vga) :
    (enableCursor cursorStart cursorEnd v).stored = v.stored := by
  simp [enableCursor]

/-- The two bytes of a position. -/
lemma position_bytes (pos : UInt16) :
    256 * ((pos >>> 8) &&& 0xFF).toUInt8.toNat + (pos &&& 0xFF).toUInt8.toNat = pos.toNat := by
  have hpos := pos.toNat_lt
  have hand : ∀ n : ℕ, n &&& 255 = n % 256 := fun n => Nat.and_two_pow_sub_one_eq_mod n 8
  have hlow : (pos &&& 0xFF).toUInt8.toNat = pos.toNat % 256 % 256 := by
    rw [UInt16.toNat_toUInt8, UInt16.toNat_and]
    exact congrArg (· % 256) (hand _)
  have hhigh : ((pos >>> 8) &&& 0xFF).toUInt8.toNat = pos.toNat / 256 % 256 % 256 := by
    rw [UInt16.toNat_toUInt8, UInt16.toNat_and, UInt16.toNat_shiftRight]
    refine congrArg (· % 256) ((hand _).trans ?_)
    rw [Nat.shiftRight_eq_div_pow]
    rfl
  rw [hlow, hhigh]
  omega

/-- **`update_cursor` sets the cursor.** -/
lemma updateCursor_cursor {x y : ℕ} (h : y * 80 + x < 2 ^ 16) (v : Vga) :
    (updateCursor x y v).cursor = y * 80 + x := by
  have hpos : (UInt16.ofNat (y * vgaWidth + x)).toNat = y * 80 + x := by
    rw [UInt16.toNat_ofNat', vgaWidth]
    exact Nat.mod_eq_of_lt h
  rw [← hpos, ← position_bytes]
  simp [updateCursor, Vga.cursor, Vga.outb]

/-! ## Every call keeps the cursor on the screen

Each function of `terminal.c` is taken once.  The tests for equality are sound because the row and
the column grow by one at a time; after a tab the column is tested by an inequality, and it is a
multiple of four and so 80 at most. -/

section Calls

variable {before : List ℕ} {t : Terminal}

/-- It is enough to be on the screen when the cursor is set. -/
lemma OnScreen.of_updateCursor (hrow : t.row < 25) (hcolumn : t.column < 80)
    (hstored : t.vga.InBounds before) : OnScreen before (terminalUpdateCursor t) where
  row := hrow
  column := hcolumn
  stored := by
    rw [Vga.InBounds, terminalUpdateCursor, updateCursor_stored]
    exact hstored
  cursor := by
    rw [terminalUpdateCursor]
    exact updateCursor_cursor (by omega) t.vga

lemma blankScreen_inBounds {v : Vga} (h : v.InBounds before) (color : UInt8) :
    (blankScreen color v).InBounds before := by
  refine h.foldl_store ?_
  intro p hp
  simp only [Grid.points, List.mem_flatMap, List.mem_map, List.mem_range, vgaHeight, vgaWidth] at hp
  obtain ⟨y, hy, x, hx, rfl⟩ := hp
  simp only [vgaWidth]
  omega

lemma terminalScroll_inBounds (h : t.vga.InBounds before) :
    (terminalScroll t).vga.InBounds before := by
  refine Vga.InBounds.foldl_store ?_ (Vga.InBounds.foldl_store ?_ h)
  · intro x hx
    rw [List.mem_range, vgaWidth] at hx
    rw [vgaHeight, vgaWidth]
    omega
  · intro p hp
    simp only [Grid.points, List.mem_flatMap, List.mem_map, List.mem_range, vgaHeight,
      vgaWidth] at hp
    obtain ⟨y, hy, x, hx, rfl⟩ := hp
    simp only [vgaWidth]
    omega

/-- **The next row** is on the screen. -/
lemma OnScreen.nextRow (hrow : t.row < 25) (hstored : t.vga.InBounds before) :
    OnScreen before (terminalUpdateCursor (terminalNextRow t)) := by
  rw [terminalNextRow]
  by_cases hlast : t.row + 1 = vgaHeight
  · simp only [if_pos hlast]
    exact .of_updateCursor (Nat.lt_succ_self 24) (Nat.zero_lt_succ _)
      (terminalScroll_inBounds hstored)
  · simp only [if_neg hlast]
    refine .of_updateCursor ?_ (Nat.zero_lt_succ _) hstored
    rw [vgaHeight] at hlast
    simp only
    omega

/-- To another column, or to the next row. -/
lemma OnScreen.moveTo (hrow : t.row < 25) (hstored : t.vga.InBounds before) (column : ℕ) :
    OnScreen before (terminalUpdateCursor
      (if 80 ≤ column then terminalNextRow t else { t with column })) := by
  split_ifs with hwrap
  · exact .nextRow hrow hstored
  · exact .of_updateCursor hrow (Nat.not_le.mp hwrap) hstored

/-- The cell at the cursor is on the screen. -/
lemma terminalStore_inBounds (hrow : t.row < 25) (hcolumn : t.column < 80)
    (hstored : t.vga.InBounds before) (entry : UInt16) :
    (terminalStore entry t).vga.InBounds before := by
  refine hstored.store ?_ entry
  rw [vgaWidth]
  omega

/-- **One character.**  The column reaches 80 without passing it, and the row 25, so that the tests
for equality are enough. -/
lemma OnScreen.putchar (h : OnScreen before t) (c : UInt8) :
    OnScreen before (terminalPutchar c t) := by
  have hrow := h.row
  have hcolumn := h.column
  rw [terminalPutchar]
  by_cases hlf : c = 10
  · rw [if_pos hlf]
    exact .nextRow hrow h.stored
  rw [if_neg hlf]
  by_cases hbs : c = 8
  · rw [if_pos hbs]
    split_ifs with hback
    · have hleft : t.column - 1 < 80 := by omega
      have hstored := terminalStore_inBounds (t := { t with column := t.column - 1 }) hrow hleft
        h.stored (vgaEntry 32 t.color)
      exact .of_updateCursor hrow hleft hstored
    · exact h
  rw [if_neg hbs]
  by_cases htab : c = 9
  · rw [if_pos htab]
    exact .moveTo hrow h.stored _
  · rw [if_neg htab]
    have hstored := terminalStore_inBounds hrow hcolumn h.stored (vgaEntry c t.color)
    have hmove := OnScreen.moveTo (t := terminalStore (vgaEntry c t.color) t) hrow hstored
      (t.column + 1)
    have hwrap : (80 ≤ t.column + 1) = (t.column + 1 = vgaWidth) := by
      rw [vgaWidth]
      exact propext ⟨fun hge => by omega, fun heq => by omega⟩
    simp only [hwrap] at hmove
    exact hmove

lemma OnScreen.write (h : OnScreen before t) (data : List UInt8) :
    OnScreen before (terminalWrite data t) := by
  induction data generalizing t with
  | nil => exact h
  | cons c data ih => exact ih (h.putchar c)

lemma OnScreen.clear (h : t.vga.InBounds before) : OnScreen before (terminalClear t) := by
  have hclear : terminalClear t = terminalUpdateCursor
      { t with vga := blankScreen t.color t.vga, row := 0, column := 0, scrolled := 0 } := by
    rw [terminalClear, terminalUpdateCursor]
  rw [hclear]
  refine .of_updateCursor (Nat.zero_lt_succ _) (Nat.zero_lt_succ _) ?_
  simp only
  exact blankScreen_inBounds h t.color

lemma OnScreen.initialized (h : t.vga.InBounds before) :
    OnScreen before (terminalInitialize t) := by
  have hinit : terminalInitialize t = terminalUpdateCursor
      { vga := enableCursor 0 15 (blankScreen (vgaEntryColor .lightGreen .black) t.vga), row := 0
        column := 0, color := vgaEntryColor .lightGreen .black, scrolled := 0 } := by
    rw [terminalInitialize, terminalUpdateCursor]
  rw [hinit]
  refine .of_updateCursor (Nat.zero_lt_succ _) (Nat.zero_lt_succ _) ?_
  rw [Vga.InBounds, enableCursor_stored]
  exact blankScreen_inBounds h _

/-- **One call.** -/
lemma OnScreen.step (h : OnScreen before t) (call : DisplayCall) :
    OnScreen before (displayStep call t).2 := by
  cases call with
  | putchar c => exact h.putchar c
  | write data => exact h.write data
  | printf format args => exact h.write _
  | setcolor color => exact ⟨h.row, h.column, h.stored, h.cursor⟩
  | clear => exact .clear h.stored

/-- **The terminal stays on the screen.**  After `terminal_initialize` and any calls, the row is
below 25 and the column below 80, nothing has been stored outside the 2000 cells, and the position
in the registers of the adapter is that of the cursor. -/
theorem terminal_stays_on_screen (t : Terminal) (calls : List DisplayCall) :
    OnScreen t.vga.stored (final displayStep calls (terminalInitialize t)) :=
  invariant_final (I := OnScreen t.vga.stored) (fun call _ _ h => h.step call)
    (.initialized (Vga.InBounds.refl t.vga))

end Calls

end SzymOS
