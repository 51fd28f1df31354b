import SzymOS.Kernel.Keyboard

/-!
# Auto-repeat

A keyboard that is left alone repeats the press code of the key that was pressed last.  The driver
drops a scancode that is the last one again, which takes care of repeats that follow their press
directly, but not of those that come after another scancode.

A repeat is invisible if the driver drops it, or if it would do nothing anyway.  The second holds of
a key without a character, but for the shift keys: their press code sets the flag, and that is
noticed if the flag was clear, which happens when the other shift key was released in between.

Two keyboards are followed, one that sees the repeats and one that does not.  They may differ in the
last scancode, which matters for nothing that a legal stream can do next, but not in the flag: the
letter A tells them apart.

* `flag_visible` — two keyboards that differ in the shift flag can be told apart.
* `invisible_iff` — two keyboards, one of which sees the repeats.
* `repeats_invisible_iff` — when repeats make no difference.

The proof is an induction on the stream, with both keyboards and one list of keys.  An event that
both see leads them into the same state, since they have the same flag and neither drops it
(`sameChars_plain`).  A repeat is seen by one of them only; if it is harmless, it returns nothing
and leaves the flag, so the induction goes on with another last scancode (`sameChars_again`).  If it
is not, something shows at once or after one more letter (`not_sameChars_again`), and then the
statement is false already for this beginning of the stream.
-/

set_option autoImplicit false

namespace SzymOS

open Transition

/-- As `KeyEvent.Plain`, with repeats of the key that was pressed last of those still down. -/
def KeyEvent.Typematic (e : KeyEvent) (held : List Key) : Prop :=
  match e with
  | .again key => held.head? = some key
  | e => e.Plain held

def KeyEvent.isRepeat : KeyEvent → Bool
  | .again _ => true
  | _ => false

def withoutRepeats (events : List KeyEvent) : List KeyEvent := events.filter (!·.isRepeat)

/-- **Repeats make no difference.**  At every moment of the stream, whatever is pressed and released
from then on, the characters are those of the stream without the repeats. -/
def RepeatsInvisible (events : List KeyEvent) : Prop :=
  ∀ before, before <+: events → ∀ next, Along keysStep KeyEvent.Plain next (heldAfter before) →
    ∀ answers answers' : List (Option UInt8),
      answers.reduceOption = (before ++ next).map KeyEvent.scancode →
      answers'.reduceOption = (withoutRepeats before ++ next).map KeyEvent.scancode →
      returned answers Keyboard.init = returned answers' Keyboard.init

/-- A repeat directly behind the press code of its key; or one of a key without a character, which
does not set the shift flag anew. -/
def KeyEvent.Harmless : KeyEvent → Keyboard → Prop
  | .again key, k => k.lastScancode = pressCode key ∨
      keyChar k.shiftPressed key = none ∧ (isShift key = true → k.shiftPressed = true)
  | _, _ => True

/-- The driver on the events of the keyboard. -/
def keyboardEvent (e : KeyEvent) (k : Keyboard) : Option UInt8 × Keyboard :=
  keyboardScancode e.scancode k

lemma charsOf_cons (scancode : UInt8) (scancodes : List UInt8) (k : Keyboard) :
    charsOf (scancode :: scancodes) k = (keyboardScancode scancode k).1.toList
      ++ charsOf scancodes (keyboardScancode scancode k).2 := by
  rw [charsOf, outputs]
  cases (keyboardScancode scancode k).1 <;> rfl

section TwoRuns

variable {held : List Key} {k k' : Keyboard}

/-- The next legal scancode leads to the same state. -/
lemma Passes.same {e : KeyEvent} (h : Passes held k) (h' : Passes held k')
    (hflag : k.shiftPressed = k'.shiftPressed) (hplain : e.Plain held) :
    keyboardScancode e.scancode k = keyboardScancode e.scancode k' := by
  cases e with
  | press key => rw [KeyEvent.scancode, h.press_eq hplain, h'.press_eq hplain, hflag]
  | release key =>
      rw [KeyEvent.scancode, keyboardScancode_release k key (h.release key hplain),
        keyboardScancode_release k' key (h'.release key hplain), hflag]
  | again key => exact absurd hplain id

/-- So do more of them. -/
lemma Passes.charsOf_eq {next : List KeyEvent} (h : Passes held k) (h' : Passes held k')
    (hflag : k.shiftPressed = k'.shiftPressed) (hplain : Along keysStep KeyEvent.Plain next held) :
    charsOf (next.map KeyEvent.scancode) k = charsOf (next.map KeyEvent.scancode) k' := by
  cases next with
  | nil => rfl
  | cons e next =>
      rw [List.map_cons, charsOf_cons, charsOf_cons, h.same h' hflag hplain.1]

/-- **The flag can be seen**, by pressing the key of the letter A. -/
lemma flag_visible (hnodup : held.Nodup) : ∃ next, Along keysStep KeyEvent.Plain next held ∧
    ∀ k, Passes held k →
      charsOf (next.map KeyEvent.scancode) k = [if k.shiftPressed then 65 else 97] := by
  have hchar : ∀ shift, keyChar shift 0x1E = some (if shift then 65 else 97) := by decide
  by_cases hdown : (0x1E : Key) ∈ held
  · refine ⟨[.release 0x1E, .press 0x1E],
      ⟨hdown, List.Nodup.not_mem_erase hnodup, trivial⟩, ?_⟩
    intro k h
    have hup : (0x1E : Key) ∉ held.erase 0x1E := List.Nodup.not_mem_erase hnodup
    have hpress := (h.step (e := .release 0x1E) hdown).press_eq hup
    simp only [List.map_cons, charsOf_cons, KeyEvent.scancode] at hpress ⊢
    rw [hpress, hchar, keyboardScancode_release k _ (h.release _ hdown)]
    rfl
  · refine ⟨[.press 0x1E], ⟨hdown, trivial⟩, ?_⟩
    intro k h
    rw [List.map_cons, charsOf_cons, KeyEvent.scancode, h.press_eq hdown, hchar]
    rfl

/-- **One repeat.**  It is harmless exactly when it returns nothing and leaves the flag. -/
lemma harmless_iff (key : Key) (k : Keyboard) : (KeyEvent.again key).Harmless k ↔
    (keyboardScancode (pressCode key) k).1 = none ∧
      (keyboardScancode (pressCode key) k).2.shiftPressed = k.shiftPressed := by
  rw [KeyEvent.Harmless]
  by_cases hlast : k.lastScancode = pressCode key
  · rw [keyboardScancode_same k hlast]
    exact iff_of_true (Or.inl hlast) ⟨rfl, rfl⟩
  · rw [keyboardScancode_press k key hlast, or_iff_right hlast]
    refine and_congr_right fun _ => ?_
    simp only
    cases isShift key <;> cases k.shiftPressed <;> simp

/-- Two keyboards, one of which sees the repeats, return the same at every moment, whatever is
pressed and released from then on. -/
def SameChars (held : List Key) (k k' : Keyboard) (events : List KeyEvent) : Prop :=
  ∀ before, before <+: events → ∀ next,
    Along keysStep KeyEvent.Plain next (final keysStep before held) →
    charsOf ((before ++ next).map KeyEvent.scancode) k
      = charsOf ((withoutRepeats before ++ next).map KeyEvent.scancode) k'

/-- An event that both see leads to one state. -/
lemma sameChars_plain {e : KeyEvent} {events : List KeyEvent} (h : Passes held k)
    (h' : Passes held k') (hflag : k.shiftPressed = k'.shiftPressed) (hplain : e.Plain held) :
    SameChars held k k' (e :: events) ↔
      SameChars (keysStep e held).2 (keyboardEvent e k).2 (keyboardEvent e k).2 events := by
  have hboth : ∀ before, withoutRepeats (e :: before) = e :: withoutRepeats before := by
    intro before
    cases e with
    | press key => rfl
    | release key => rfl
    | again key => exact absurd hplain id
  have hstate := h.same h' hflag hplain
  refine forall_prefix_cons.trans ((and_iff_right fun _ => h.charsOf_eq h' hflag).trans ?_)
  simp only [SameChars, final_cons, hboth, List.cons_append, List.map_cons, charsOf_cons,
    ← hstate, List.append_cancel_left_eq, keyboardEvent]

/-- A harmless repeat is not noticed. -/
lemma sameChars_again {key : Key} {events : List KeyEvent} (h : Passes held k)
    (h' : Passes held k') (hflag : k.shiftPressed = k'.shiftPressed)
    (hharmless : (KeyEvent.again key).Harmless k) :
    SameChars held k k' (.again key :: events) ↔
      SameChars held (keyboardEvent (.again key) k).2 k' events := by
  obtain ⟨hchar, -⟩ := (harmless_iff key k).mp hharmless
  have hdropped : ∀ before, withoutRepeats (.again key :: before) = withoutRepeats before :=
    fun _ => rfl
  refine forall_prefix_cons.trans ((and_iff_right fun _ => h.charsOf_eq h' hflag).trans ?_)
  simp only [SameChars, final_cons, keysStep, hdropped, List.cons_append, List.map_cons,
    charsOf_cons, KeyEvent.scancode, hchar, Option.toList_none, List.nil_append, keyboardEvent]

/-- **One that is not harmless is**: it returns a character, or the next letter is in the wrong
case. -/
lemma not_sameChars_again {key : Key} {events : List KeyEvent} (hkey : key ∈ held)
    (h : Passes held k) (h' : Passes held k') (hflag : k.shiftPressed = k'.shiftPressed)
    (hharmless : ¬ (KeyEvent.again key).Harmless k) :
    ¬ SameChars held k k' (.again key :: events) := by
  intro hsame
  have hnext := fun next => hsame [.again key] (List.cons_prefix_cons.mpr ⟨rfl, List.nil_prefix⟩)
    next
  simp only [List.cons_append, List.nil_append, List.map_cons, charsOf_cons, final_cons, keysStep,
    final_nil, KeyEvent.scancode] at hnext
  have hchar : (keyboardScancode (pressCode key) k).1 = none := by
    have hnone : (keyboardScancode (pressCode key) k).1.toList ++ [] = [] := hnext [] trivial
    cases hc : (keyboardScancode (pressCode key) k).1 with
    | none => rfl
    | some c => rw [hc] at hnone; exact absurd hnone (List.cons_ne_nil _ _)
  obtain ⟨next, hlegal, hseen⟩ := flag_visible h.nodup
  have hcase : _ = charsOf (next.map KeyEvent.scancode) k' := hnext next hlegal
  rw [hchar, Option.toList_none, List.nil_append,
    hseen _ (.of_press h.nodup hkey (keyboardScancode_last k _)), hseen _ h'] at hcase
  refine hharmless ((harmless_iff key k).mpr ⟨hchar, ?_⟩)
  rw [hflag]
  revert hcase
  cases (keyboardScancode (pressCode key) k).2.shiftPressed <;> cases k'.shiftPressed <;> decide

/-- **Two keyboards**, one of which sees the repeats.  As long as they are harmless, neither the
characters nor the flags differ; and the first one that is not can be noticed. -/
lemma sameChars_iff {events : List KeyEvent}
    (hlegal : Along keysStep KeyEvent.Typematic events held)
    (h : Passes held k) (h' : Passes held k') (hflag : k.shiftPressed = k'.shiftPressed) :
    SameChars held k k' events ↔ Along keyboardEvent KeyEvent.Harmless events k := by
  induction events generalizing held k k' with
  | nil =>
      refine iff_of_true ?_ trivial
      intro before hbefore next hnext
      rw [List.prefix_nil.mp hbefore] at hnext ⊢
      exact h.charsOf_eq h' hflag hnext
  | cons e events ih =>
      obtain ⟨he, hrest⟩ := hlegal
      have hplain : e.Plain held → e.Harmless k → (SameChars held k k' (e :: events) ↔
          Along keyboardEvent KeyEvent.Harmless (e :: events) k) := by
        intro hplain hharmless
        have hnext := h.step hplain
        rw [sameChars_plain h h' hflag hplain, Along, and_iff_right hharmless]
        exact ih hrest hnext hnext rfl
      cases e with
      | press key => exact hplain he trivial
      | release key => exact hplain he trivial
      | again key =>
          have hkey : key ∈ held := List.mem_of_mem_head? he
          by_cases hharmless : (KeyEvent.again key).Harmless k
          · have hlast : Passes held (keyboardEvent (.again key) k).2 :=
              .of_press h.nodup hkey (keyboardScancode_last k _)
            have hflag' := ((harmless_iff key k).mp hharmless).2.trans hflag
            rw [sameChars_again h h' hflag hharmless, Along, and_iff_right hharmless]
            exact ih hrest hlast h' hflag'
          · exact iff_of_false (not_sameChars_again hkey h h' hflag hharmless)
              fun halong => hharmless halong.1

end TwoRuns

/-- **When auto-repeat is invisible.**  Exactly when every repeat comes directly behind the press
code of its key, or is of a key without a character and does not set the shift flag anew. -/
theorem repeats_invisible_iff {events : List KeyEvent}
    (hlegal : Along keysStep KeyEvent.Typematic events []) :
    RepeatsInvisible events ↔ Along keyboardEvent KeyEvent.Harmless events Keyboard.init := by
  rw [← sameChars_iff hlegal Passes.init Passes.init rfl]
  constructor
  · intro h before hbefore next hnext
    have hanswers : ∀ scancodes : List UInt8, (scancodes.map some).reduceOption = scancodes := by
      intro scancodes
      rw [List.reduceOption, List.filterMap_map, Function.id_comp, List.filterMap_some]
    have hsame := h before hbefore next hnext _ _ (hanswers _) (hanswers _)
    rwa [returned_eq, returned_eq, hanswers, hanswers] at hsame
  · intro h before hbefore next hnext answers answers' hanswers hanswers'
    rw [returned_eq, returned_eq, hanswers, hanswers']
    exact h before hbefore next hnext

/-- A letter that is held. -/
theorem repeats_invisible_letter :
    RepeatsInvisible [.press 0x1E, .again 0x1E, .again 0x1E, .release 0x1E] := by
  have hlegal : Along keysStep KeyEvent.Typematic
      [.press 0x1E, .again 0x1E, .again 0x1E, .release 0x1E] [] := by
    simp [Along, KeyEvent.Typematic, KeyEvent.Plain, keysStep]
  exact (repeats_invisible_iff hlegal).mpr ⟨trivial, Or.inl rfl, Or.inl rfl, trivial, trivial⟩

/-- **A repeat that is typed again.**  X is pressed, then A, and X is released; the keyboard goes on
repeating A. -/
theorem repeat_typed : ¬ ∀ events : List KeyEvent, Along keysStep KeyEvent.Typematic events [] →
    returned ((events.map KeyEvent.scancode).map some) Keyboard.init
      = returned (((withoutRepeats events).map KeyEvent.scancode).map some) Keyboard.init := by
  intro h
  have hlegal : Along keysStep KeyEvent.Typematic
      [.press 0x2D, .press 0x1E, .release 0x2D, .again 0x1E] [] := by
    simp [Along, KeyEvent.Typematic, KeyEvent.Plain, keysStep]
  have hsame := h _ hlegal
  revert hsame
  decide

end SzymOS
