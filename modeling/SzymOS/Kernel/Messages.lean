import SzymOS.Kernel.Strings
import SzymOS.Kernel.Terminal
import SzymOS.Lib.Bytes

/-!
# Messages

`terminal_printf` believes its format: it takes one argument for every directive, as the directive
says, and reads on until a NUL.  A message is sound when it can be believed.

A directive that has no argument would read whatever is on the stack, and `%s` with a number would
read memory at that number.  So the format is read for what it asks, and the arguments are compared
with that: `%s` needs a string, and `%d`, `%x` and `%c` a number.

A string that comes from a disk or from the keyboard need not be a text of the source; `%s` and
`terminal_writestring` see its bytes up to the first NUL, and these are a text in any case.

* `Asks` — what a format asks for.
* `TermCall.Sound` — a call that gives it.
-/

set_option autoImplicit false

namespace SzymOS

open Bytes

/-- The bytes of a string: no NUL among them, and no more of them than there is memory. -/
structure IsText (bytes : List UInt8) : Prop where
  noNul : ∀ b ∈ bytes, b ≠ 0
  fits : bytes.length ≤ 2 ^ 32

/-- An argument for the directive with this character. -/
def PrintfArg.Fits : PrintfArg → UInt8 → Prop
  | .num _, c => c = 100 ∨ c = 120 ∨ c = 99
  | .str bytes, c => c = 115 ∧ IsText bytes

/-- The directives of a format that take an argument; `none` if it ends in a lone `%`. -/
def directives : List UInt8 → Option (List UInt8)
  | [] => some []
  | [c] => if c = 37 then none else some []
  | c :: d :: rest =>
      if c = 37 then
        if d = 37 then directives rest else (directives rest).map (d :: ·)
      else directives (d :: rest)

/-- The format asks for these arguments. -/
def Asks (format : List UInt8) (args : List PrintfArg) : Prop :=
  ∃ asked, directives format = some asked ∧ List.Forall₂ PrintfArg.Fits args asked

/-- A literal of the source. -/
structure IsLiteral (text : String) : Prop where
  noNul : 0 ∉ textBytes text
  short : (textBytes text).length < 1000

lemma IsLiteral.isText {text : String} (h : IsLiteral text) : IsText (textBytes text) where
  noNul b hb h0 := h.noNul (h0 ▸ hb)
  fits := Nat.le_trans (Nat.le_of_lt h.short) (by decide)

/-- A call that can be made. -/
def TermCall.Sound : TermCall → Prop
  | .writestring text => IsLiteral text
  | .writemem bytes => IsText bytes
  | .printf format args => IsLiteral format ∧ Asks (textBytes format) (args.map .num)
  | .formatted format args => IsLiteral format ∧ Asks (textBytes format) args
  | .setcolor _ | .putchar _ | .clear => True

/-- All of these calls can be made. -/
def Sound (calls : List TermCall) : Prop := ∀ call ∈ calls, call.Sound

/-! ## Literals

The texts of the source are checked by evaluation, one by one, with one check for all that is asked
of a literal. -/

/-- The characters of a literal need not be decoded. -/
lemma textBytes_ofList (l : List Char) :
    textBytes (String.ofList l) = l.map fun c => UInt8.ofNat c.toNat :=
  congrArg _ String.toList_ofList

/-- What is checked of a literal. -/
def literalChecked (l : List Char) : Bool :=
  l.all (fun c => UInt8.ofNat c.toNat != 0) && decide (l.length < 1000)

variable {l : List Char} (h : literalChecked l = true)

include h

lemma isLiteral_ofList : IsLiteral (String.ofList l) := by
  rw [literalChecked, Bool.and_eq_true, List.all_eq_true, decide_eq_true_iff] at h
  constructor
  · rw [textBytes_ofList, List.mem_map]
    rintro ⟨c, hc, h0⟩
    have hne := h.1 c hc
    rw [h0] at hne
    exact Bool.noConfusion hne
  · rw [textBytes_ofList, List.length_map]
    exact h.2

lemma sound_writestring : (TermCall.writestring (String.ofList l)).Sound := isLiteral_ofList h

variable {asked : List UInt8}
  (hasked : directives (l.map fun c => UInt8.ofNat c.toNat) = some asked)

include hasked

lemma sound_formatted {args : List PrintfArg} (hargs : List.Forall₂ PrintfArg.Fits args asked) :
    (TermCall.formatted (String.ofList l) args).Sound :=
  ⟨isLiteral_ofList h, asked, by rwa [textBytes_ofList], hargs⟩

/-- Numbers fit every directive but `%s`. -/
lemma sound_printf {args : List UInt32} (hlen : args.length = asked.length)
    (hnumbers : asked.all (fun c => c == 100 || c == 120 || c == 99) = true) :
    (TermCall.printf (String.ofList l) args).Sound := by
  refine ⟨isLiteral_ofList h, asked, by rwa [textBytes_ofList], ?_⟩
  rw [List.forall₂_map_left_iff, List.forall₂_iff_get]
  refine ⟨hlen, fun i _ hi => ?_⟩
  simpa [PrintfArg.Fits, or_assoc] using List.all_eq_true.mp hnumbers _ (List.get_mem asked ⟨i, hi⟩)

omit hasked

omit h

/-! ## Strings in memory

What is printed of memory is what stands before its first NUL. -/

lemma CString.isText (s : CString) : IsText s.bytes := ⟨s.noNul, Nat.le_of_lt s.fits⟩

/-- Before the place that `strlen` finds there is no NUL. -/
lemma strlenFrom_spec (str : ℕ → UInt8) (fuel len : ℕ) : strlenFrom str fuel len ≤ len + fuel ∧
    ∀ j, len ≤ j → j < strlenFrom str fuel len → str j ≠ 0 := by
  induction fuel generalizing len with
  | zero => exact ⟨Nat.le_refl _, fun j hle hlt => absurd hlt (Nat.not_lt.mpr hle)⟩
  | succ fuel ih =>
      obtain ⟨hbound, hrest⟩ := ih (len + 1)
      rw [strlenFrom]
      split_ifs with hlen
      · refine ⟨by omega, fun j hle hlt => ?_⟩
        rcases Nat.eq_or_lt_of_le hle with rfl | hlt'
        · exact hlen
        · exact hrest j hlt' hlt
      · exact ⟨Nat.le_add_right _ _, fun j hle hlt => absurd hlt (Nat.not_lt.mpr hle)⟩

/-- What `terminal_writestring` finds at an address. -/
lemma isText_strlen (mem : ℕ → UInt8) : IsText (slice mem 0 (strlen mem)) := by
  obtain ⟨hbound, hne⟩ := strlenFrom_spec mem (2 ^ 32) 0
  constructor
  · intro b hb
    obtain ⟨j, hj, rfl⟩ := List.mem_map.mp hb
    rw [Nat.zero_add]
    exact hne j (Nat.zero_le j) (List.mem_range.mp hj)
  · rw [slice_length]
    exact hbound.trans (Nat.le_of_eq (Nat.zero_add _))

/-! ## Several calls

A function makes its calls one after the other, and it is enough to look at each. -/

lemma sound_nil : Sound [] := fun _ h => absurd h List.not_mem_nil

lemma sound_cons {call : TermCall} {calls : List TermCall} :
    Sound (call :: calls) ↔ call.Sound ∧ Sound calls := List.forall_mem_cons

lemma sound_append {calls calls' : List TermCall} :
    Sound (calls ++ calls') ↔ Sound calls ∧ Sound calls' := List.forall_mem_append

lemma sound_singleton {call : TermCall} : Sound [call] ↔ call.Sound := by
  rw [sound_cons, and_iff_left sound_nil]

lemma sound_coloured {fg : VgaColor} {call : TermCall} : Sound (coloured fg call) ↔ call.Sound := by
  simp [coloured, sound_cons, sound_nil, TermCall.Sound]

end SzymOS
