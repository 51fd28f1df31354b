import SzymOS.Kernel.Strings
import SzymOS.Lib.Run
import Mathlib.Data.List.ReduceOption
import Mathlib.Data.List.Infix
import Mathlib.Data.List.Nodup

/-!
# `keyboard.c`

The keyboard sends a scancode for every press and every release of a key.  `keyboard_getchar` polls
the controller until a scancode comes that stands for a character; it remembers the last scancode,
which it does not take twice in a row, and one flag for both shift keys.

What a keyboard can send is described by the keys that are held down (`keysStep`), and what should
be returned by the same machine.

The driver does not know which keys are down.  It takes a scancode for what it says, but drops one
that equals the last one, and it keeps a flag that a press of either shift key sets and a release of
either clears.  A legal stream does not repeat a scancode directly, because a key is released before
it is pressed again; so nothing is dropped by mistake, and the flag is all that can go wrong.

Scancodes are read one at a time, and a poll that finds none has no effect.  What successive calls
return is therefore a function of the scancodes alone.

* `keyboardScancode_press`, `keyboardScancode_release` — one scancode, if it is not dropped.
* `Follows` — what links the two variables to the keys.
* `rollover_exact` — every press gives its character, whatever keys overlap.
* `shift_tracked_iff` — when the flag says whether a shift key is down.

For a legal stream `Passes` is kept at every step (`Passes.step`), and it says that the next legal
scancode is not the last one again, that of key 0 apart; so a press and a release are what their
lemmas say.  `Passes.flag_iff` follows the flag over one event.  From the two, `shiftPressed_iff` is
an induction over the stream, and `charsOf_eq_typed` reads the characters off.

`rollover_exact` and `shift_tracked_iff` are the same facts with different conditions: if the shift
keys are never down together, none of them is released while the other one is down.
-/

set_option autoImplicit false

namespace SzymOS

open Transition

/-! ## keyboard_getchar

The two tables are those of the source, 128 entries each.  A scancode with bit 7 is a release and
stands for no character; the two shift keys are tested for before the tables are looked at. -/

/-- The characters of the 128 scancodes without bit 7. -/
def keyboardMap : List UInt8 :=
  [0, 27] ++ textBytes "1234567890-=" ++ [8, 9] ++ textBytes "qwertyuiop[]" ++ [10, 0] ++
    textBytes "asdfghjkl;'`" ++ [0] ++ textBytes "\\zxcvbnm,./" ++ [0] ++ textBytes "*" ++ [0] ++
    textBytes " " ++ List.replicate 16 0 ++ textBytes "-" ++ [0, 0, 0] ++ textBytes "+" ++
    List.replicate 49 0

def keyboardMapShifted : List UInt8 :=
  [0, 27] ++ textBytes "!@#$%^&*()_+" ++ [8, 9] ++ textBytes "QWERTYUIOP\x7b\x7d" ++ [10, 0] ++
    textBytes "ASDFGHJKL:\"~" ++ [0] ++ textBytes "|ZXCVBNM<>?" ++ [0] ++ textBytes "*" ++ [0] ++
    textBytes " " ++ List.replicate 70 0

example : keyboardMap.length = 128 ∧ keyboardMapShifted.length = 128 := by decide +kernel

/-- The static variables of `keyboard.c`. -/
structure Keyboard where
  shiftPressed : Bool
  lastScancode : UInt8

/-- `keyboard_init` -/
def Keyboard.init : Keyboard where
  shiftPressed := false
  lastScancode := 0

/-- The body of the loop of `keyboard_getchar` once a scancode has come: the character that is
returned, or `none` if the loop goes on. -/
def keyboardScancode (scancode : UInt8) (k : Keyboard) : Option UInt8 × Keyboard :=
  if scancode = k.lastScancode then (none, k)
  else
    let k := { k with lastScancode := scancode }
    if scancode = 0x2A ∨ scancode = 0x36 then (none, { k with shiftPressed := true })
    else if scancode = 0xAA ∨ scancode = 0xB6 then (none, { k with shiftPressed := false })
    else if scancode &&& 0x80 ≠ 0 then (none, k)
    else
      let c :=
        if k.shiftPressed ∧ scancode < 128 then keyboardMapShifted.getD scancode.toNat 0
        else if scancode < 128 then keyboardMap.getD scancode.toNat 0
        else 0
      (if c ≠ 0 then some c else none, k)

/-- `keyboard_getchar` on what its polls are answered, `none` standing for a poll that finds no
scancode: the character and the answers still to come, or `none` when it goes on waiting. -/
def keyboardGetchar : List (Option UInt8) → Keyboard →
    Option (UInt8 × List (Option UInt8)) × Keyboard
  | [], k => (none, k)
  | none :: answers, k => keyboardGetchar answers k
  | some scancode :: answers, k =>
      match keyboardScancode scancode k with
      | (some c, k) => (some (c, answers), k)
      | (none, k) => keyboardGetchar answers k

/-- What the next `calls` calls return, as far as they return. -/
def getchars : (calls : ℕ) → List (Option UInt8) → Keyboard → List UInt8
  | 0, _, _ => []
  | calls + 1, answers, k =>
      match keyboardGetchar answers k with
      | (none, _) => []
      | (some (c, answers), k) => c :: getchars calls answers k

/-- What successive calls return.  A call that returns uses up an answer, so there are not more of
them than answers. -/
def returned (answers : List (Option UInt8)) (k : Keyboard) : List UInt8 :=
  getchars answers.length answers k

/-! ### The loop, one scancode at a time

A call returns with the first scancode that stands for a character, and the next call begins behind
it. -/

/-- The characters that these scancodes stand for. -/
def charsOf (scancodes : List UInt8) (k : Keyboard) : List UInt8 :=
  (outputs keyboardScancode scancodes k).reduceOption

/-- One call takes the answers up to the first scancode that stands for a character. -/
lemma keyboardGetchar_spec (answers : List (Option UInt8)) (k : Keyboard) :
    (∀ k', keyboardGetchar answers k = (none, k') → charsOf answers.reduceOption k = []) ∧
    ∀ c rest k', keyboardGetchar answers k = (some (c, rest), k') →
      rest.length < answers.length ∧
        charsOf answers.reduceOption k = c :: charsOf rest.reduceOption k' := by
  induction answers generalizing k with
  | nil => exact ⟨fun _ _ => rfl, fun c rest k' h => by simp [keyboardGetchar] at h⟩
  | cons answer answers ih =>
      cases answer with
      | none =>
          rw [keyboardGetchar, List.reduceOption_cons_of_none]
          obtain ⟨hwait, hchar⟩ := ih k
          refine ⟨hwait, ?_⟩
          intro c rest k' h
          obtain ⟨hlen, hrest⟩ := hchar c rest k' h
          exact ⟨Nat.lt_succ_of_lt hlen, hrest⟩
      | some scancode =>
          rw [keyboardGetchar, List.reduceOption_cons_of_some, charsOf, outputs]
          cases hstep : keyboardScancode scancode k with
          | mk char k₁ =>
              cases char with
              | none =>
                  rw [List.reduceOption_cons_of_none]
                  obtain ⟨hwait, hchar⟩ := ih k₁
                  refine ⟨hwait, ?_⟩
                  intro c rest k' h
                  obtain ⟨hlen, hrest⟩ := hchar c rest k' h
                  exact ⟨Nat.lt_succ_of_lt hlen, hrest⟩
              | some c₁ =>
                  rw [List.reduceOption_cons_of_some]
                  refine ⟨fun k' h => by simp at h, ?_⟩
                  intro c rest k' h
                  simp only [Prod.mk.injEq, Option.some.injEq] at h
                  obtain ⟨⟨rfl, rfl⟩, rfl⟩ := h
                  exact ⟨Nat.lt_succ_self _, rfl⟩

lemma getchars_eq {calls : ℕ} {answers : List (Option UInt8)} (h : answers.length ≤ calls)
    (k : Keyboard) : getchars calls answers k = charsOf answers.reduceOption k := by
  induction calls generalizing answers k with
  | zero =>
      rw [List.eq_nil_of_length_eq_zero (Nat.le_zero.mp h)]
      rfl
  | succ calls ih =>
      rw [getchars]
      obtain ⟨hwait, hchar⟩ := keyboardGetchar_spec answers k
      cases hcall : keyboardGetchar answers k with
      | mk result k' =>
          cases result with
          | none => exact (hwait k' hcall).symm
          | some result =>
              obtain ⟨c, rest⟩ := result
              obtain ⟨hlen, hrest⟩ := hchar c rest k' hcall
              rw [hrest, ← ih (by omega)]

/-- **Calls and scancodes.**  Successive calls return what the scancodes stand for, one after
another. -/
lemma returned_eq (answers : List (Option UInt8)) (k : Keyboard) :
    returned answers k = charsOf answers.reduceOption k := getchars_eq (Nat.le_refl _) k

/-! ## Keys

The keys are the machine that a legal stream runs on: a press adds a key, a release takes it away,
and a press types the character of its key in the map that the shift keys select at that moment.
The first event that is not legal ends what is said about a stream. -/

abbrev Key := Fin 128

def leftShift : Key := 0x2A

def rightShift : Key := 0x36

def isShift (key : Key) : Bool := key = leftShift || key = rightShift

/-- The character of a key, if it has one. -/
def keyChar (shift : Bool) (key : Key) : Option UInt8 :=
  let c := if shift then keyboardMapShifted.getD key 0 else keyboardMap.getD key 0
  if c ≠ 0 then some c else none

/-- What a keyboard does: `again` is a press code that it repeats while a key is held. -/
inductive KeyEvent where
  | press (key : Key)
  | release (key : Key)
  | again (key : Key)
  deriving DecidableEq, Repr

def pressCode (key : Key) : UInt8 := UInt8.ofNat key

def releaseCode (key : Key) : UInt8 := UInt8.ofNat (key + 0x80)

def KeyEvent.scancode : KeyEvent → UInt8
  | .press key => pressCode key
  | .release key => releaseCode key
  | .again key => pressCode key

def shiftHeld (held : List Key) : Bool := held.any isShift

/-- The keys that are held down, the one pressed last first; and the character that should be
returned. -/
def keysStep : KeyEvent → List Key → Option UInt8 × List Key
  | .press key, held => (keyChar (shiftHeld held) key, key :: held)
  | .release key, held => (none, held.erase key)
  | .again _, held => (none, held)

def heldAfter (events : List KeyEvent) : List Key := final keysStep events []

/-- The characters of these presses, in their order. -/
def keysTyped (events : List KeyEvent) : List UInt8 := (outputs keysStep events []).reduceOption

/-- A key is pressed when it is up and released when it is down, and nothing is repeated. -/
def KeyEvent.Plain : KeyEvent → List Key → Prop
  | .press key, held => key ∉ held
  | .release key, held => key ∈ held
  | .again _, _ => False

def keyboardAfter (events : List KeyEvent) : Keyboard :=
  final keyboardScancode (events.map KeyEvent.scancode) Keyboard.init

/-! ### One scancode

The press code of a key is its number and its release code has bit 7 besides, so no two of these 256
codes are equal. -/

section Scancode

variable (k : Keyboard) (key : Key)

@[simp] lemma pressCode_toNat : (pressCode key).toNat = key := by
  rw [pressCode, UInt8.toNat_ofNat']
  omega

@[simp] lemma releaseCode_toNat : (releaseCode key).toNat = key + 0x80 := by
  rw [releaseCode, UInt8.toNat_ofNat']
  omega

lemma pressCode_injective : Function.Injective pressCode := by
  intro key key' h
  refine Fin.ext ?_
  rw [← pressCode_toNat, h, pressCode_toNat]

lemma releaseCode_injective : Function.Injective releaseCode := by
  intro key key' h
  have hcode := congrArg UInt8.toNat h
  rw [releaseCode_toNat, releaseCode_toNat] at hcode
  exact Fin.ext (by omega)

lemma pressCode_ne_releaseCode (key' : Key) : pressCode key ≠ releaseCode key' := by
  intro h
  have hcode := congrArg UInt8.toNat h
  rw [pressCode_toNat, releaseCode_toNat] at hcode
  omega

/-- The codes of the two shift keys. -/
lemma pressCode_shift : (pressCode key = 0x2A ∨ pressCode key = 0x36) ↔ isShift key = true := by
  revert key
  decide +kernel

lemma releaseCode_shift :
    (releaseCode key = 0xAA ∨ releaseCode key = 0xB6) ↔ isShift key = true := by
  revert key
  decide +kernel

/-- Bit 7 tells a release from a press. -/
lemma pressCode_bit : pressCode key &&& 0x80 = 0 := by
  revert key
  decide +kernel

lemma releaseCode_bit : releaseCode key &&& 0x80 ≠ 0 := by
  revert key
  decide +kernel

/-- Shift keys have no character. -/
lemma keyChar_shift {key : Key} (h : isShift key = true) (shift : Bool) :
    keyChar shift key = none := by
  revert key shift
  decide +kernel

/-- Nor has the key with code 0. -/
lemma keyChar_zero (shift : Bool) : keyChar shift 0 = none := by
  cases shift <;> rfl

/-- Whether it is dropped or not, a scancode is remembered. -/
@[simp] lemma keyboardScancode_last (scancode : UInt8) :
    (keyboardScancode scancode k).2.lastScancode = scancode := by
  rw [keyboardScancode]
  by_cases hsame : scancode = k.lastScancode
  · rw [if_pos hsame]
    exact hsame.symm
  · rw [if_neg hsame]
    simp only
    split_ifs <;> rfl

/-- A scancode that is the last one again. -/
lemma keyboardScancode_same {scancode : UInt8} (h : k.lastScancode = scancode) :
    keyboardScancode scancode k = (none, k) := if_pos h.symm

/-- **A press** that is not dropped. -/
lemma keyboardScancode_press (h : k.lastScancode ≠ pressCode key) :
    keyboardScancode (pressCode key) k = (keyChar k.shiftPressed key,
      { shiftPressed := isShift key || k.shiftPressed, lastScancode := pressCode key }) := by
  have hlow : pressCode key < 128 := by
    rw [UInt8.lt_iff_toNat_lt, pressCode_toNat]
    exact key.isLt
  have hrelease : ¬ (pressCode key = 0xAA ∨ pressCode key = 0xB6) := by
    rintro (hcode | hcode)
    · exact absurd (hcode ▸ hlow) (by decide)
    · exact absurd (hcode ▸ hlow) (by decide)
  rw [keyboardScancode, if_neg (Ne.symm h)]
  by_cases hshift : isShift key = true
  · rw [if_pos ((pressCode_shift key).mpr hshift), keyChar_shift hshift, hshift, Bool.true_or]
  · have hno : ¬ (pressCode key = 0x2A ∨ pressCode key = 0x36) :=
      fun hcode => hshift ((pressCode_shift key).mp hcode)
    rw [if_neg hno, if_neg hrelease, if_neg (not_not.mpr (pressCode_bit key)),
      Bool.eq_false_iff.mpr hshift, Bool.false_or]
    simp only [hlow, and_true, if_true, pressCode_toNat]
    rfl

/-- **A release** that is not dropped. -/
lemma keyboardScancode_release (h : k.lastScancode ≠ releaseCode key) :
    keyboardScancode (releaseCode key) k = (none,
      { shiftPressed := !isShift key && k.shiftPressed, lastScancode := releaseCode key }) := by
  have hpress : ¬ (releaseCode key = 0x2A ∨ releaseCode key = 0x36) := by
    rintro (hcode | hcode)
    · exact absurd (hcode ▸ releaseCode_bit key) (by decide)
    · exact absurd (hcode ▸ releaseCode_bit key) (by decide)
  rw [keyboardScancode, if_neg (Ne.symm h), if_neg hpress]
  by_cases hshift : isShift key = true
  · rw [if_pos ((releaseCode_shift key).mpr hshift), hshift]
    rfl
  · have hno : ¬ (releaseCode key = 0xAA ∨ releaseCode key = 0xB6) :=
      fun hcode => hshift ((releaseCode_shift key).mp hcode)
    rw [if_neg hno, if_pos (releaseCode_bit key), Bool.eq_false_iff.mpr hshift]
    rfl

end Scancode

/-! ## The variables and the keys

The last scancode is linked to the keys by what it is not: no key that is up has just been pressed,
and no key that is down has just been released.  Key 0 is an exception, because its press code is
the scancode that the driver starts with; it has no character, so it makes no difference. -/

/-- A shift key is released only when it is the only one that is down. -/
def KeyEvent.ShiftAlone : KeyEvent → List Key → Prop
  | .release key, held => isShift key = true → ∀ other ∈ held, isShift other = true → other = key
  | _, _ => True

/-- No legal scancode is taken for the last one, but perhaps that of key 0, which has no
character. -/
structure Passes (held : List Key) (k : Keyboard) : Prop where
  nodup : held.Nodup
  press : ∀ key ∉ held, key ≠ 0 → k.lastScancode ≠ pressCode key
  release : ∀ key ∈ held, k.lastScancode ≠ releaseCode key

section Step

variable {held : List Key} {k : Keyboard} {key : Key}

lemma Passes.init : Passes [] Keyboard.init where
  nodup := List.nodup_nil
  press key _ hne h := by
    refine hne (Fin.ext ?_)
    rw [← pressCode_toNat, ← h]
    rfl
  release key h := absurd h List.not_mem_nil

/-- A press code of a key that is down, as the last one. -/
lemma Passes.of_press (hnodup : held.Nodup) (hkey : key ∈ held)
    (hlast : k.lastScancode = pressCode key) : Passes held k where
  nodup := hnodup
  press other hother _ h := by
    rw [hlast] at h
    exact hother (pressCode_injective h ▸ hkey)
  release other _ h := pressCode_ne_releaseCode key other (hlast ▸ h)

lemma Passes.of_release (hnodup : held.Nodup) (hkey : key ∉ held)
    (hlast : k.lastScancode = releaseCode key) : Passes held k where
  nodup := hnodup
  press other _ _ h := pressCode_ne_releaseCode other key (hlast ▸ h).symm
  release other hother h := by
    rw [hlast] at h
    exact hkey (releaseCode_injective h ▸ hother)

/-- **A press**, dropped or not. -/
lemma Passes.press_eq (h : Passes held k) (hkey : key ∉ held) :
    keyboardScancode (pressCode key) k = (keyChar k.shiftPressed key,
      { shiftPressed := isShift key || k.shiftPressed, lastScancode := pressCode key }) := by
  by_cases hzero : key = 0 ∧ k.lastScancode = pressCode key
  · obtain ⟨rfl, hlast⟩ := hzero
    rw [keyboardScancode_same k hlast, keyChar_zero, ← hlast]
    rfl
  · refine keyboardScancode_press k key ?_
    intro hlast
    exact h.press key hkey (fun h0 => hzero ⟨h0, hlast⟩) hlast

/-- The keys and the keyboard stay in step. -/
lemma Passes.step {e : KeyEvent} (h : Passes held k) (hplain : e.Plain held) :
    Passes (keysStep e held).2 (keyboardScancode e.scancode k).2 := by
  cases e with
  | press key =>
      exact .of_press (List.nodup_cons.mpr ⟨hplain, h.nodup⟩) List.mem_cons_self
        (keyboardScancode_last k _)
  | release key =>
      exact .of_release (h.nodup.erase key) (List.Nodup.not_mem_erase h.nodup)
        (keyboardScancode_last k _)
  | again key => exact absurd hplain id

lemma shiftHeld_iff : shiftHeld held = true ↔ ∃ key ∈ held, isShift key = true := List.any_eq_true

/-- A key that is no shift key plays no part. -/
lemma shiftHeld_erase_of_not (hkey : isShift key = false) :
    shiftHeld (held.erase key) = shiftHeld held := by
  rw [Bool.eq_iff_iff, shiftHeld_iff, shiftHeld_iff]
  constructor
  · rintro ⟨other, hmem, hshift⟩
    exact ⟨other, List.mem_of_mem_erase hmem, hshift⟩
  · rintro ⟨other, hmem, hshift⟩
    have hne : other ≠ key := fun heq => by rw [heq, hkey] at hshift; exact Bool.noConfusion hshift
    exact ⟨other, (List.mem_erase_of_ne hne).mpr hmem, hshift⟩

/-- Without a shift key, the other one may still be down. -/
lemma shiftHeld_erase_eq_false_iff (hnodup : held.Nodup) :
    shiftHeld (held.erase key) = false ↔ ∀ other ∈ held, isShift other = true → other = key := by
  rw [Bool.eq_false_iff, ne_eq, shiftHeld_iff]
  constructor
  · intro hnone other hmem hshift
    by_contra hne
    exact hnone ⟨other, (List.mem_erase_of_ne hne).mpr hmem, hshift⟩
  · rintro hall ⟨other, hmem, hshift⟩
    have hother := hall other (List.mem_of_mem_erase hmem) hshift
    rw [hother] at hmem
    exact List.Nodup.not_mem_erase hnodup hmem

/-- **The flag over one step.**  It goes on saying whether a shift key is down exactly when the
event is no release of one of two. -/
lemma Passes.flag_iff {e : KeyEvent} (h : Passes held k) (hplain : e.Plain held)
    (hflag : k.shiftPressed = shiftHeld held) :
    (keyboardScancode e.scancode k).2.shiftPressed = shiftHeld (keysStep e held).2 ↔
      e.ShiftAlone held := by
  cases e with
  | press key =>
      rw [KeyEvent.scancode, h.press_eq hplain, hflag]
      exact iff_of_true rfl trivial
  | release key =>
      rw [KeyEvent.scancode, keyboardScancode_release k key (h.release key hplain), hflag,
        keysStep, KeyEvent.ShiftAlone]
      simp only
      cases hshift : isShift key with
      | true =>
          rw [Bool.not_true, Bool.false_and, eq_comm, shiftHeld_erase_eq_false_iff h.nodup]
          exact ⟨fun hall _ => hall, fun hall => hall rfl⟩
      | false =>
          rw [Bool.not_false, Bool.true_and, shiftHeld_erase_of_not hshift]
          exact iff_of_true rfl fun hc => Bool.noConfusion hc
  | again key => exact absurd hplain id

/-- **What is returned.** -/
lemma Passes.char_eq {e : KeyEvent} (h : Passes held k) (hplain : e.Plain held)
    (hflag : k.shiftPressed = shiftHeld held) :
    (keyboardScancode e.scancode k).1 = (keysStep e held).1 := by
  cases e with
  | press key => rw [KeyEvent.scancode, h.press_eq hplain, hflag, keysStep]
  | release key =>
      rw [KeyEvent.scancode, keyboardScancode_release k key (h.release key hplain), keysStep]
  | again key => exact absurd hplain id

end Step

/-! ## Runs

The condition on the keys is needed at every step for the flag, and the characters follow from the
flag. -/

/-- What links the two variables to the keys. -/
structure Follows (held : List Key) (k : Keyboard) : Prop where
  passes : Passes held k
  flag : k.shiftPressed = shiftHeld held

section Runs

variable {events : List KeyEvent}

/-- No scancode of a legal stream is dropped. -/
lemma passes_after (hplain : Along keysStep KeyEvent.Plain events []) :
    ∀ before, before <+: events → Passes (heldAfter before) (keyboardAfter before) :=
  (forall_prefix_rel_iff (Q := fun _ _ => True)
    (fun _ _ _ _ hlegal h => iff_of_true (h.step hlegal) trivial) hplain Passes.init).mpr
    (along_of_forall fun _ _ _ => trivial)

/-- **The flag over a run.** -/
lemma shiftPressed_iff (hplain : Along keysStep KeyEvent.Plain events []) :
    (∀ before, before <+: events → (keyboardAfter before).shiftPressed
      = shiftHeld (heldAfter before)) ↔ Along keysStep KeyEvent.ShiftAlone events [] := by
  have hfollows := forall_prefix_rel_iff (g := keyboardScancode) (f := KeyEvent.scancode)
    (R := Follows) (Q := KeyEvent.ShiftAlone) (s := []) (t := Keyboard.init) ?_
    hplain ⟨Passes.init, rfl⟩
  · rw [← hfollows]
    exact ⟨fun h before hbefore => ⟨passes_after hplain before hbefore, h before hbefore⟩,
      fun h before hbefore => (h before hbefore).flag⟩
  · intro e _ held k hlegal h
    rw [← h.passes.flag_iff hlegal h.flag]
    exact ⟨fun h' => h'.flag, fun h' => ⟨h.passes.step hlegal, h'⟩⟩

/-- **The characters of a run** in which no shift key is released while the other is down. -/
lemma charsOf_eq_typed (hplain : Along keysStep KeyEvent.Plain events [])
    (halone : Along keysStep KeyEvent.ShiftAlone events []) :
    charsOf (events.map KeyEvent.scancode) Keyboard.init = keysTyped events := by
  have hrun := outputs_eq_along (g := keyboardScancode) (f := KeyEvent.scancode) (R := Follows)
    (t := Keyboard.init) ?_ (along_and.mpr ⟨hplain, halone⟩) ⟨Passes.init, rfl⟩
  · rw [charsOf, keysTyped, hrun.1]
  · rintro e - held k ⟨hlegal, hother⟩ h
    exact ⟨(h.passes.char_eq hlegal h.flag).symm, h.passes.step hlegal,
      (h.passes.flag_iff hlegal h.flag).mpr hother⟩

/-- **No press is lost, doubled or mistranslated.**  Whatever keys overlap, if the two shift keys
are never down together, successive calls return the character of every press that has one, in the
order of the presses: that of the shifted map if a shift key is down. -/
theorem rollover_exact (hplain : Along keysStep KeyEvent.Plain events [])
    (hshift : ∀ before, before <+: events →
      ¬ (leftShift ∈ heldAfter before ∧ rightShift ∈ heldAfter before))
    {answers : List (Option UInt8)}
    (hanswers : answers.reduceOption = events.map KeyEvent.scancode) :
    returned answers Keyboard.init = keysTyped events := by
  rw [returned_eq, hanswers]
  refine charsOf_eq_typed hplain ?_
  have hstates := along_and.mpr ⟨hplain, along_of_prefixes
    (I := fun held => ¬ (leftShift ∈ held ∧ rightShift ∈ held)) hshift⟩
  refine Along.imp (I := fun _ => True) (fun _ _ _ _ => trivial) ?_ trivial hstates
  rintro e held - ⟨hlegal, hboth⟩
  cases e with
  | press key => exact trivial
  | again key => exact trivial
  | release key =>
      intro hkey other hother hisShift
      simp only [isShift, Bool.or_eq_true, decide_eq_true_eq] at hkey hisShift
      rcases hkey with rfl | rfl
      · rcases hisShift with rfl | rfl
        · rfl
        · exact absurd ⟨hlegal, hother⟩ hboth
      · rcases hisShift with rfl | rfl
        · exact absurd ⟨hother, hlegal⟩ hboth
        · rfl

/-- Shift and a letter, and the letter released last. -/
theorem rollover_exact_letter :
    returned [some 0x2A, none, some 0x1E, some 0xAA, some 0x9E] Keyboard.init = [65] := by
  have hplain : Along keysStep KeyEvent.Plain
      [.press 0x2A, .press 0x1E, .release 0x2A, .release 0x1E] [] := by
    simp [Along, KeyEvent.Plain, keysStep]
  have hshift : ∀ before, before <+:
      [KeyEvent.press 0x2A, .press 0x1E, .release 0x2A, .release 0x1E] →
      ¬ (leftShift ∈ heldAfter before ∧ rightShift ∈ heldAfter before) := by
    intro before hbefore
    rw [← List.mem_inits] at hbefore
    revert before
    decide
  exact rollover_exact hplain hshift rfl

/-- **When the flag tracks the keys.**  It says in every state whether a shift key is down, and the
characters are those of the right map, exactly when no shift key is released while the other one is
down. -/
theorem shift_tracked_iff (hplain : Along keysStep KeyEvent.Plain events []) :
    ((∀ before, before <+: events → ((keyboardAfter before).shiftPressed = true ↔
        ∃ key ∈ heldAfter before, isShift key = true)) ∧
      ∀ answers : List (Option UInt8), answers.reduceOption = events.map KeyEvent.scancode →
        returned answers Keyboard.init = keysTyped events) ↔
      Along keysStep KeyEvent.ShiftAlone events [] := by
  simp only [← shiftHeld_iff, ← Bool.eq_iff_iff]
  rw [shiftPressed_iff hplain]
  refine and_iff_left_of_imp ?_
  intro halone answers hanswers
  rw [returned_eq, hanswers]
  exact charsOf_eq_typed hplain halone

/-- A letter under one shift key. -/
theorem shift_tracked_letter :
    ((keyboardAfter [.press 0x2A, .press 0x1E]).shiftPressed = true ↔
      ∃ key ∈ heldAfter [.press 0x2A, .press 0x1E], isShift key = true) ∧
    returned [some 0x2A, some 0x1E, none, some 0xAA] Keyboard.init = [65] := by
  have hplain : Along keysStep KeyEvent.Plain [.press 0x2A, .press 0x1E, .release 0x2A] [] := by
    simp [Along, KeyEvent.Plain, keysStep]
  have halone :
      Along keysStep KeyEvent.ShiftAlone [.press 0x2A, .press 0x1E, .release 0x2A] [] := by
    refine ⟨trivial, trivial, ?_, trivial⟩
    intro _ other hother hshift
    simp only [keysStep, List.mem_cons, List.not_mem_nil, or_false] at hother
    rcases hother with rfl | rfl
    · exact absurd hshift (by decide)
    · rfl
  obtain ⟨hflag, hreturned⟩ := (shift_tracked_iff hplain).mpr halone
  exact ⟨hflag _ ⟨_, rfl⟩, hreturned _ rfl⟩

/-- **Two shift keys.**  When one of them is released, the flag is cleared although the other one
is still down. -/
theorem shift_lost : ¬ ∀ events : List KeyEvent, Along keysStep KeyEvent.Plain events [] →
    ((keyboardAfter events).shiftPressed = true ↔
      ∃ key ∈ heldAfter events, isShift key = true) := by
  intro h
  have hplain : Along keysStep KeyEvent.Plain
      [.press 0x2A, .press 0x36, .release 0x2A] [] := by
    simp [Along, KeyEvent.Plain, keysStep]
  have hflag := (h _ hplain).mpr ⟨rightShift, by decide, by decide⟩
  revert hflag
  decide

end Runs

end SzymOS
