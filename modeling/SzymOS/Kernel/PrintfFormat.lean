import SzymOS.Kernel.Printf
import Mathlib.Data.List.DropRight
import Mathlib.Algebra.Group.Nat.Even

/-!
# Formats

A format is a list of pieces, characters that are printed as they are and directives, which are a
`%` and the character behind it.  `terminal_printf` steps over both characters of a directive at
once, and so steps over the NUL if this is the second of them.

Pieces are cut off from the left, so of several `%` in a row each second one belongs to the one
before it.  Whether the last of them is alone is decided by their number.

A format with a lone `%` at its end is not just printed wrongly: the byte that is read next is
behind the NUL, whatever is there, and the scan does not stop before another NUL.

* `pieces_bytes` — a format is spelled by its pieces.
* `mem_printfReads`, `printfReads_behind` — which formats the scan stays in.
* `complete_iff_even` — these are the formats that end in an even number of `%`.
* `prints_format_iff` — what is printed for them, and for them only.
-/

set_option autoImplicit false

namespace SzymOS

open Scan

/-! ## Pieces

A piece has its characters, and a directive its rendering as well.  Only some directives take an
argument, so the place of the next argument is carried along. -/

/-- A piece of a format. -/
inductive Piece where
  | literal (c : UInt8)
  | directive (c : UInt8)

/-- The characters of a piece. -/
def Piece.bytes : Piece → List UInt8
  | .literal c => [c]
  | .directive c => [37, c]

/-- The pieces of a format.  A `%` at its end is none. -/
def pieces : List UInt8 → List Piece
  | [] => []
  | [c] => if c = 37 then [] else [.literal c]
  | c :: d :: rest =>
      if c = 37 then .directive d :: pieces rest else .literal c :: pieces (d :: rest)

/-- What is printed for each piece, in order.  The first directive has its argument at place `n`. -/
def renderings (args : VarArgs) : List Piece → (n : ℕ) → List (List UInt8)
  | [], _ => []
  | .literal c :: rest, n => [c] :: renderings args rest n
  | .directive c :: rest, n => (directive args c n).1 :: renderings args rest (directive args c n).2

/-- A format without a lone `%` is spelled by its pieces. -/
lemma pieces_bytes {text : List UInt8} (hcomplete : Complete text) :
    (pieces text).flatMap Piece.bytes = text := by
  induction text using pieces.induct with
  | case1 => rfl
  | case2 => exact absurd rfl hcomplete
  | case3 c hc =>
      rw [pieces, if_neg hc]
      rfl
  | case4 d rest ih =>
      rw [Complete, if_pos rfl] at hcomplete
      rw [pieces, if_pos rfl, List.flatMap_cons, ih hcomplete]
      rfl
  | case5 c d rest hc ih =>
      rw [Complete, if_neg hc] at hcomplete
      rw [pieces, if_neg hc, List.flatMap_cons, ih hcomplete]
      rfl

/-- The text that is printed is that of its pieces. -/
lemma formatText_eq (args : VarArgs) (text : List UInt8) (n : ℕ) :
    formatText args text n = (renderings args (pieces text) n).flatten := by
  induction text, n using formatText.induct args with
  | case1 n => rfl
  | case2 n => rfl
  | case3 n c hc =>
      rw [formatText, if_neg hc, pieces, if_neg hc]
      rfl
  | case4 d rest n text n' hdirective ih =>
      rw [formatText, if_pos rfl, pieces, if_pos rfl, renderings, List.flatten_cons, hdirective]
      simp only
      rw [ih]
  | case5 c d rest n hc ih =>
      rw [formatText, if_neg hc, pieces, if_neg hc, renderings, List.flatten_cons, ih]
      rfl

/-! ## What is read

The places in the order in which the scan reads them.  For a complete format they are those up to
its NUL; for any other one the place behind the NUL is among them. -/

/-- The places of the format that the scan reads. -/
def printfReads (format : ℕ → UInt8) : (fuel p : ℕ) → List ℕ
  | 0, _ => []
  | fuel + 1, p =>
      p :: if format p = 0 then []
        else if format p = 37 then (p + 1) :: printfReads format fuel (p + 2)
        else printfReads format fuel (p + 1)

variable {format : ℕ → UInt8}

lemma printfReads_end {fuel p q : ℕ} (hp : format p = 0) (hq : q ∈ printfReads format fuel p) :
    q = p := by
  cases fuel with
  | zero => exact absurd hq List.not_mem_nil
  | succ fuel =>
      rw [printfReads, if_pos hp] at hq
      exact List.mem_singleton.mp hq

lemma printfReads_literal {fuel p q : ℕ} (hp : format p ≠ 37)
    (hq : q ∈ printfReads format fuel p) : q = p ∨ q ∈ printfReads format (fuel - 1) (p + 1) := by
  cases fuel with
  | zero => exact absurd hq List.not_mem_nil
  | succ fuel =>
      rw [printfReads, if_neg hp, List.mem_cons] at hq
      refine hq.imp id fun hrest => ?_
      split_ifs at hrest
      · exact absurd hrest List.not_mem_nil
      · exact hrest

lemma printfReads_directive {fuel p q : ℕ} (hp : format p = 37)
    (hq : q ∈ printfReads format fuel p) :
    q = p ∨ q = p + 1 ∨ q ∈ printfReads format (fuel - 1) (p + 2) := by
  cases fuel with
  | zero => exact absurd hq List.not_mem_nil
  | succ fuel =>
      rw [printfReads, hp, if_neg (by decide), if_pos rfl, List.mem_cons, List.mem_cons] at hq
      exact hq

/-- **It stays in a complete format.** -/
theorem mem_printfReads (fuel : ℕ) {p : ℕ} {text : List UInt8} (htext : TextAt format 0 p text)
    (hcomplete : Complete text) : ∀ q ∈ printfReads format fuel p, q ≤ p + text.length := by
  induction text using pieces.induct generalizing fuel p with
  | case1 =>
      intro q hq
      exact Nat.le_of_eq (printfReads_end htext hq)
  | case2 => exact absurd rfl hcomplete
  | case3 c hc =>
      obtain ⟨hfirst, hend⟩ := htext
      intro q hq
      rcases printfReads_literal (hfirst ▸ hc) hq with rfl | hrest
      · exact Nat.le_add_right _ _
      · exact Nat.le_of_eq (printfReads_end hend hrest)
  | case4 d rest ih =>
      obtain ⟨hfirst, -, hrest⟩ := htext
      rw [Complete, if_pos rfl] at hcomplete
      intro q hq
      rw [List.length_cons, List.length_cons]
      rcases printfReads_directive hfirst hq with rfl | rfl | hq
      · omega
      · omega
      · have hle := ih _ hrest hcomplete q hq
        omega
  | case5 c d rest hc ih =>
      obtain ⟨hfirst, hrest⟩ := htext
      rw [Complete, if_neg hc] at hcomplete
      intro q hq
      rw [List.length_cons]
      rcases printfReads_literal (hfirst ▸ hc) hq with rfl | hq
      · omega
      · have hle := ih _ hrest hcomplete q hq
        omega

/-- **It does not stay in any other**: the character behind the NUL is the next one that it
reads. -/
theorem printfReads_behind {fuel p : ℕ} {text : List UInt8} (htext : TextAt format 0 p text)
    (hnul : 0 ∉ text) (hlone : ¬ Complete text) (hfuel : text.length < fuel) :
    p + text.length + 1 ∈ printfReads format fuel p := by
  induction text using pieces.induct generalizing fuel p with
  | case1 => exact absurd trivial hlone
  | case2 =>
      obtain ⟨fuel, rfl⟩ : ∃ m, fuel = m + 2 := Nat.exists_eq_add_of_le' hfuel
      rw [printfReads, htext.1, if_neg (by decide), if_pos rfl, printfReads]
      exact List.mem_cons_of_mem _ (List.mem_cons_of_mem _ List.mem_cons_self)
  | case3 c hc => exact absurd hc hlone
  | case4 d rest ih =>
      obtain ⟨fuel, rfl⟩ := Nat.exists_eq_succ_of_ne_zero (Nat.ne_zero_of_lt hfuel)
      obtain ⟨hfirst, -, hrest⟩ := htext
      rw [Complete, if_pos rfl] at hlone
      rw [List.length_cons, List.length_cons] at hfuel
      have hnul' : 0 ∉ rest := fun h0 =>
        hnul (List.mem_cons_of_mem _ (List.mem_cons_of_mem _ h0))
      have hbehind : p + 2 + rest.length + 1 ∈ printfReads format fuel (p + 2) :=
        ih hrest hnul' hlone (by omega)
      have hplace : p + (37 :: d :: rest).length + 1 = p + 2 + rest.length + 1 := by
        rw [List.length_cons, List.length_cons]
        omega
      rw [hplace, printfReads, hfirst, if_neg (by decide), if_pos rfl]
      exact List.mem_cons_of_mem _ (List.mem_cons_of_mem _ hbehind)
  | case5 c d rest hc ih =>
      obtain ⟨fuel, rfl⟩ := Nat.exists_eq_succ_of_ne_zero (Nat.ne_zero_of_lt hfuel)
      obtain ⟨hfirst, hrest⟩ := htext
      have hne : c ≠ 0 := fun h0 => hnul (by rw [h0]; exact List.mem_cons_self)
      have hnul' : 0 ∉ d :: rest := fun h0 => hnul (List.mem_cons_of_mem _ h0)
      rw [Complete, if_neg hc] at hlone
      have hbehind := ih hrest hnul' hlone (Nat.lt_of_succ_lt_succ hfuel)
      have hplace : p + (c :: d :: rest).length + 1 = p + 1 + (d :: rest).length + 1 := by
        rw [List.length_cons]
        omega
      rw [hplace, printfReads, hfirst, if_neg hne, if_neg hc]
      exact List.mem_cons_of_mem _ hbehind

/-! ## The end of a format

By recursion on the format: a character in front changes the count only if everything behind it is a
`%`. -/

/-- How many `%` a format ends in. -/
def percentsAtEnd (text : List UInt8) : ℕ := (text.rtakeWhile (· = 37)).length

lemma percentsAtEnd_le (text : List UInt8) : percentsAtEnd text ≤ text.length :=
  (List.rtakeWhile_suffix _ text).length_le

lemma percentsAtEnd_cons (c : UInt8) (text : List UInt8) :
    percentsAtEnd (c :: text)
      = if percentsAtEnd text = text.length ∧ c = 37 then text.length + 1
        else percentsAtEnd text := by
  simp only [percentsAtEnd, List.rtakeWhile, List.length_reverse, List.reverse_cons]
  rw [List.takeWhile_append, List.length_reverse]
  by_cases hall : (text.reverse.takeWhile (· = 37)).length = text.length
  · rw [if_pos hall, List.length_append, List.length_reverse, List.takeWhile_cons, hall]
    by_cases hc : c = 37
    · rw [if_pos (decide_eq_true hc), if_pos ⟨rfl, hc⟩]
      rfl
    · rw [if_neg (by simp [hc]), if_neg (fun h => hc h.2)]
      rfl
  · rw [if_neg hall, if_neg (fun h => hall h.1)]

/-- **Every `%` has a character behind it** if and only if the format ends in an even number of
them. -/
theorem complete_iff_even (text : List UInt8) : Complete text ↔ Even (percentsAtEnd text) := by
  induction text using pieces.induct with
  | case1 => exact iff_of_true trivial Even.zero
  | case2 => exact iff_of_false (fun h => h rfl) Nat.not_even_one
  | case3 c hc =>
      rw [percentsAtEnd_cons, if_neg (fun h => hc h.2)]
      exact iff_of_true hc Even.zero
  | case4 d rest ih =>
      have hle := percentsAtEnd_le rest
      rw [Complete, if_pos rfl, ih, percentsAtEnd_cons, percentsAtEnd_cons, List.length_cons]
      by_cases hd : percentsAtEnd rest = rest.length ∧ d = 37
      · rw [if_pos hd, if_pos ⟨rfl, rfl⟩, hd.1, Nat.even_add_one, Nat.even_add_one, not_not]
      · rw [if_neg hd, if_neg (by omega)]
  | case5 c d rest hc ih =>
      rw [Complete, if_neg hc, ih, percentsAtEnd_cons c, if_neg (fun h => hc h.2)]

/-! ## The result

What is printed, whether the scan ends and what it reads are put together.  In a format with a lone
`%` at its end the reads alone are wrong already, whatever is printed. -/

/-- The characters that take an argument. -/
def takesArgument (c : UInt8) : Bool := c = 115 || c = 100 || c = 120 || c = 99

/-- The scan of a format stays in it and comes to its end, and what it prints are the renderings of
its pieces: `%%` is one `%`, and an unknown directive nothing. -/
structure PrintsFormat (format : ℕ → UInt8) (args : VarArgs) (text : List UInt8) : Prop where
  reads : ∀ q ∈ printfReads format (2 ^ 32) 0, q ≤ text.length
  ends : (printfFrom format args (2 ^ 32) 0 0).1 = .returned
  spelled : (pieces text).flatMap Piece.bytes = text
  output : (printfFrom format args (2 ^ 32) 0 0).2 = (renderings args (pieces text) 0).flatten
  percent : ∀ n, directive args 37 n = ([37], n)
  argument : ∀ c n, takesArgument c = true → (directive args c n).2 = n + 1
  unknown : ∀ c n, takesArgument c = false → c ≠ 37 → directive args c n = ([], n)

lemma directive_argument (args : VarArgs) {c : UInt8} (hc : takesArgument c = true) (n : ℕ) :
    (directive args c n).2 = n + 1 := by
  rw [directive]
  split_ifs with hs hd hx hchar hpercent
  · rfl
  · rfl
  · rfl
  · rfl
  · rw [hpercent] at hc
    exact absurd hc (by decide)
  · exact absurd hc (by simp [takesArgument, hs, hd, hx, hchar])

lemma directive_unknown (args : VarArgs) {c : UInt8} (hc : takesArgument c = false)
    (hpercent : c ≠ 37) (n : ℕ) : directive args c n = ([], n) := by
  simp only [takesArgument, Bool.or_eq_false_iff, decide_eq_false_iff_not] at hc
  obtain ⟨⟨⟨hs, hd⟩, hx⟩, hchar⟩ := hc
  rw [directive, if_neg hs, if_neg hd, if_neg hx, if_neg hchar, if_neg hpercent]

/-- **A format is consumed exactly** if and only if it ends in an even number of `%`. -/
theorem prints_format_iff (args : VarArgs) (text : CString)
    (hformat : ∀ j ≤ text.length, format j = text.mem j) :
    PrintsFormat format args text.bytes ↔ Even (percentsAtEnd text.bytes) := by
  have htext := textAt_mem hformat
  have hnul := text.nul_notMem
  rw [← complete_iff_even]
  constructor
  · intro h
    by_contra hlone
    have hbehind := h.reads _ (printfReads_behind htext hnul hlone text.fits)
    omega
  · intro hcomplete
    have hscan := printfFrom_text args htext hnul hcomplete text.fits 0
    refine ⟨?_, by rw [hscan], pieces_bytes hcomplete, ?_, fun _ => rfl,
      fun c n hc => directive_argument args hc n, fun c n hc hp => directive_unknown args hc hp n⟩
    · have hreads := mem_printfReads (2 ^ 32) htext hcomplete
      rwa [Nat.zero_add] at hreads
    · rw [hscan, formatText_eq]

/-- No `%s` and no number. -/
def noArgs : VarArgs where
  word _ := 0
  memory _ _ := 0
  leastBuffer := [45]

def percentText : CString := CString.ofLiterals ["%d%%"] (by decide)

/-- The format in memory, with another `%` behind its NUL, and 50 as its argument. -/
theorem prints_format_percent :
    PrintsFormat ([37, 100, 37, 37, 0, 37].getD · 0) { noArgs with word := fun _ => 50 }
      percentText.bytes :=
  (prints_format_iff { noArgs with word := fun _ => 50 } percentText (by decide)).mpr (by decide)

/-- Memory from a lone `%` on: its NUL, an `X` that does not belong to it, and a NUL. -/
def loneFormat (j : ℕ) : UInt8 := [37, 0, 88].getD j 0

/-- **A lone `%`.**  The NUL is stepped over, and what is behind it is printed. -/
theorem lone_percent_overrun :
    printfFrom loneFormat noArgs (2 ^ 32) 0 0 = (.returned, [88]) ∧
      2 ∈ printfReads loneFormat (2 ^ 32) 0 ∧ ¬ PrintsFormat loneFormat noArgs [37] := by
  have htext : TextAt loneFormat 0 0 [37] := ⟨rfl, rfl⟩
  have hbehind : 2 ∈ printfReads loneFormat (2 ^ 32) 0 :=
    printfReads_behind htext (by decide) (fun h => h rfl) (by decide)
  refine ⟨rfl, hbehind, fun h => ?_⟩
  exact absurd (h.reads 2 hbehind) (by decide)

end SzymOS
