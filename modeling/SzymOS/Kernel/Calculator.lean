import SzymOS.Kernel.Shell
import SzymOS.Lib.Scan
import SzymOS.Lib.Numerals

/-!
# The scanner of `cmd_calc`

`cmd_calc` reads its argument with one pointer: spaces, digits, spaces, one character for the
operator, spaces, digits.  It never asks whether there was a digit, nor whether the string is over.

A loop of the scanner stops at the NUL as at any other character that is not its own.  What goes
wrong goes wrong at the operator: the character there is taken and the pointer moved on, also if it
is the NUL.  Then the scanner reads what lies behind the string, which is what an earlier command
line has left in the buffer.

The string is taken apart on lists, by `takeWhile` and `dropWhile`, and every address that is read
is compared with it.

* `cmdCalc_some`, `cmdCalc_none` — what is made of a string, from its parts.
* `calcGrammar_iff` — the grammar of the usage text, in terms of the parts.
* `calc_grammar_iff` — for which strings exactly this grammar is accepted.
* `scanner_in_bounds_iff` — for which strings nothing behind the NUL is read.

The three pointers that the scanner has in common for the reads and for the result are collected in
`OperatorReached` and `SecondReached`, so that `mem_calcReads` and `cmdCalc_some` begin with the
same facts.  `calcParts` is what a list of characters says about them.  Both main results are then
proved on the parts: `calcGrammar_parts` and `operandsPresent_parts` say what the grammar and the
condition are for given parts, and a string without parts has neither an operator nor a grammar.

For such a string the reads go on behind the NUL (`calcReads_behind`), and the result is the usage
text (`cmdCalc_usage`) whatever is found there, since a NUL is no operator.
-/

set_option autoImplicit false

namespace SzymOS

open Scan Numerals

/-! ## Parts of the argument

A number is read in 32 bits and wraps around where the processor does; what its digits denote is a
natural number.  The parts exist if something is left where the operator is expected. -/

def isDigit (c : UInt8) : Bool := 48 ≤ c && c ≤ 57

def isOperator (c : UInt8) : Bool := c = 43 || c = 45 || c = 42 || c = 47

/-- One digit more. -/
def addDigit (num : Int32) (c : UInt8) : Int32 := num * 10 + Int32.ofNat (c - 48).toNat

/-- The number that is read from these digits, in 32 bits. -/
def calcNumber (digits : List UInt8) : Int32 := digits.foldl addDigit 0

/-- The number that they denote. -/
def digitsValue (digits : List UInt8) : ℕ := value 10 (fun c => (c - 48).toNat) digits

/-- What is left where the operator is expected. -/
def operatorPlace (expr : List UInt8) : List UInt8 :=
  ((expr.dropWhile isSpace).dropWhile isDigit).dropWhile isSpace

/-- The digits of the first number, the operator, the digits of the second, and what follows. -/
def calcParts (expr : List UInt8) : Option (List UInt8 × UInt8 × List UInt8 × List UInt8) :=
  match operatorPlace expr with
  | [] => none
  | op :: rest =>
      let rest := rest.dropWhile isSpace
      some ((expr.dropWhile isSpace).takeWhile isDigit, op, rest.takeWhile isDigit,
        (rest.dropWhile isDigit).dropWhile isSpace)

/-- The addresses that `cmd_calc` reads. -/
def calcReads (mem : ℕ → UInt8) : List ℕ :=
  let spaces (p : ℕ) : List ℕ := scanReads isSpace mem (2 ^ 32) p
  let digits (p : ℕ) : List ℕ := scanReads isDigit mem (2 ^ 32) p
  spaces 0 ++ (skipSpaces mem (2 ^ 32) 0).elim [] fun p =>
  digits p ++ (readNumber mem (2 ^ 32) p 0).elim [] fun (p, _) =>
  spaces p ++ (skipSpaces mem (2 ^ 32) p).elim [] fun p =>
  p :: (spaces (p + 1) ++ (skipSpaces mem (2 ^ 32) (p + 1)).elim [] fun p => digits p)

/-- In 32 bits a number is what is left of it. -/
lemma foldl_addDigit (n : ℕ) (digits : List UInt8) : digits.foldl addDigit (Int32.ofNat n)
    = Int32.ofNat (valueFrom 10 (fun c => (c - 48).toNat) n digits) := by
  induction digits generalizing n with
  | nil => rfl
  | cons c digits ih =>
      have hstep : addDigit (Int32.ofNat n) c = Int32.ofNat (n * 10 + (c - 48).toNat) := by
        rw [addDigit, Int32.ofNat_add, Int32.ofNat_mul]
        rfl
      rw [List.foldl_cons, hstep, ih, valueFrom_cons]

lemma calcNumber_eq (digits : List UInt8) :
    calcNumber digits = Int32.ofNat (digitsValue digits) := foldl_addDigit 0 digits

lemma ofNat_eq_iff {n : ℕ} {x : Int32} :
    Int32.ofNat n = x ↔ n % 2 ^ 32 = x.toUInt32.toNat := by
  rw [← Int32.toBitVec_inj, ← BitVec.toNat_inj]
  exact Iff.rfl

/-! ## The loops

Each loop is one scan of `Lib/Scan.lean`.  The pointers between the loops are named once, so that
the reads and the result can both refer to them. -/

section Loops

variable {mem : ℕ → UInt8}

lemma skipSpaces_eq (mem : ℕ → UInt8) (fuel p : ℕ) : skipSpaces mem fuel p
    = (scan isSpace (fun (acc : Unit) _ => acc) mem fuel p ()).map Prod.fst := by
  induction fuel generalizing p with
  | zero => rfl
  | succ fuel ih =>
      rw [skipSpaces, scan, isSpace, ih]
      by_cases hspace : mem p = 32
      · rw [if_pos hspace, if_pos (decide_eq_true hspace)]
      · rw [if_neg hspace, if_neg (by simpa using hspace)]
        rfl

lemma readNumber_eq (mem : ℕ → UInt8) (fuel p : ℕ) (num : Int32) :
    readNumber mem fuel p num = scan isDigit addDigit mem fuel p num := by
  induction fuel generalizing p num with
  | zero => rfl
  | succ fuel ih =>
      rw [readNumber, scan, ih, isDigit]
      by_cases hdigit : 48 ≤ mem p ∧ mem p ≤ 57
      · rw [if_pos hdigit, if_pos (by simpa using hdigit)]
        rfl
      · rw [if_neg hdigit, if_neg (by simpa using hdigit)]

/-- The text behind a loop, and how much of it is left. -/
lemma textAt_behind (cond : UInt8 → Bool) {p : ℕ} {text : List UInt8}
    (htext : TextAt mem 0 p text) :
    TextAt mem 0 (p + (text.takeWhile cond).length) (text.dropWhile cond) ∧
      p + (text.takeWhile cond).length + (text.dropWhile cond).length = p + text.length := by
  refine ⟨textAt_dropWhile cond htext, ?_⟩
  rw [Nat.add_assoc, ← List.length_append, List.takeWhile_append_dropWhile]

lemma skipSpaces_text {p : ℕ} {text : List UInt8} (htext : TextAt mem 0 p text)
    (hlen : text.length < 2 ^ 32) : ∃ q, skipSpaces mem (2 ^ 32) p = some q ∧
      TextAt mem 0 q (text.dropWhile isSpace) ∧
        q + (text.dropWhile isSpace).length = p + text.length := by
  refine ⟨_, ?_, textAt_behind isSpace htext⟩
  rw [skipSpaces_eq, scan_text _ (by decide) htext hlen, Option.map_some]

lemma readNumber_text {p : ℕ} {text : List UInt8} (htext : TextAt mem 0 p text)
    (hlen : text.length < 2 ^ 32) : ∃ q,
      readNumber mem (2 ^ 32) p 0 = some (q, calcNumber (text.takeWhile isDigit)) ∧
      TextAt mem 0 q (text.dropWhile isDigit) ∧
        q + (text.dropWhile isDigit).length = p + text.length := by
  refine ⟨_, ?_, textAt_behind isDigit htext⟩
  rw [readNumber_eq, scan_text _ (by decide) htext hlen]
  rfl

/-- The pointer at the first number, behind it, and where the operator is expected. -/
structure OperatorReached (mem : ℕ → UInt8) (text : List UInt8) (p₁ p₂ p₃ : ℕ) : Prop where
  skipped : skipSpaces mem (2 ^ 32) 0 = some p₁
  atNumber : TextAt mem 0 p₁ (text.dropWhile isSpace)
  number : readNumber mem (2 ^ 32) p₁ 0
    = some (p₂, calcNumber ((text.dropWhile isSpace).takeWhile isDigit))
  behindNumber : TextAt mem 0 p₂ ((text.dropWhile isSpace).dropWhile isDigit)
  skippedAgain : skipSpaces mem (2 ^ 32) p₂ = some p₃
  atOperator : TextAt mem 0 p₃ (operatorPlace text)
  left₁ : p₁ + (text.dropWhile isSpace).length = text.length
  left₂ : p₂ + ((text.dropWhile isSpace).dropWhile isDigit).length = text.length
  left₃ : p₃ + (operatorPlace text).length = text.length

lemma operatorReached {text : List UInt8} (htext : TextAt mem 0 0 text)
    (hlen : text.length < 2 ^ 32) : ∃ p₁ p₂ p₃, OperatorReached mem text p₁ p₂ p₃ := by
  obtain ⟨p₁, hskip, htext₁, hlen₁⟩ := skipSpaces_text htext hlen
  obtain ⟨p₂, hread, htext₂, hlen₂⟩ := readNumber_text htext₁ (by omega)
  obtain ⟨p₃, hskip', htext₃, hlen₃⟩ := skipSpaces_text htext₂ (by omega)
  rw [Nat.zero_add] at hlen₁
  exact ⟨p₁, p₂, p₃, hskip, htext₁, hread, htext₂, hskip', htext₃, hlen₁, hlen₂.trans hlen₁,
    hlen₃.trans (hlen₂.trans hlen₁)⟩

/-- Behind an operator: the pointer at the second number, and behind it. -/
structure SecondReached (mem : ℕ → UInt8) (text rest : List UInt8) (op : UInt8) (p₃ p₄ p₅ : ℕ) :
    Prop where
  operator : mem p₃ = op
  behindOperator : TextAt mem 0 (p₃ + 1) rest
  skipped : skipSpaces mem (2 ^ 32) (p₃ + 1) = some p₄
  atNumber : TextAt mem 0 p₄ (rest.dropWhile isSpace)
  number : readNumber mem (2 ^ 32) p₄ 0
    = some (p₅, calcNumber ((rest.dropWhile isSpace).takeWhile isDigit))
  left₃ : p₃ + 1 + rest.length = text.length
  left₄ : p₄ + (rest.dropWhile isSpace).length = text.length

lemma secondReached {text rest : List UInt8} {op : UInt8} {p₁ p₂ p₃ : ℕ}
    (h : OperatorReached mem text p₁ p₂ p₃) (hlen : text.length < 2 ^ 32)
    (hplace : operatorPlace text = op :: rest) :
    ∃ p₄ p₅, SecondReached mem text rest op p₃ p₄ p₅ := by
  have hop := h.atOperator
  have hleft := h.left₃
  rw [hplace] at hop hleft
  obtain ⟨hoperator, hrest⟩ := hop
  rw [List.length_cons] at hleft
  obtain ⟨p₄, hskip, htext₄, hlen₄⟩ := skipSpaces_text hrest (by omega)
  obtain ⟨p₅, hread, -⟩ := readNumber_text htext₄ (by omega)
  exact ⟨p₄, p₅, hoperator, hrest, hskip, htext₄, hread, by omega, by omega⟩

/-- The parts of a string are around its operator. -/
lemma calcParts_eq_some {text num1 num2 tail : List UInt8} {op : UInt8}
    (hparts : calcParts text = some (num1, op, num2, tail)) :
    ∃ rest, operatorPlace text = op :: rest ∧ num1 = (text.dropWhile isSpace).takeWhile isDigit ∧
      num2 = (rest.dropWhile isSpace).takeWhile isDigit := by
  rw [calcParts] at hparts
  cases hplace : operatorPlace text with
  | nil => simp [hplace] at hparts
  | cons c rest =>
      rw [hplace] at hparts
      simp only [Option.some.injEq, Prod.mk.injEq] at hparts
      obtain ⟨rfl, rfl, rfl, -⟩ := hparts
      exact ⟨rest, rfl, rfl, rfl⟩

/-- Addresses have 32 bits, so the loops end wherever they begin. -/
lemma loops_end {n : ℕ} (hmem : Function.Periodic mem (2 ^ 32)) (hnul : mem n = 0) (p : ℕ) :
    (∃ q, skipSpaces mem (2 ^ 32) p = some q) ∧
      ∃ q num, readNumber mem (2 ^ 32) p 0 = some (q, num) := by
  have hsize : 0 < 2 ^ 32 := by decide
  have hspaces : (scan isSpace (fun (acc : Unit) _ => acc) mem (2 ^ 32) p ()).isSome :=
    scan_periodic _ hsize hmem (by rw [hnul]; decide) p ()
  have hdigits : (scan isDigit addDigit mem (2 ^ 32) p 0).isSome :=
    scan_periodic _ hsize hmem (by rw [hnul]; decide) p 0
  rw [skipSpaces_eq, readNumber_eq]
  obtain ⟨stop, hstop⟩ := Option.isSome_iff_exists.mp hspaces
  obtain ⟨⟨q, num⟩, hq⟩ := Option.isSome_iff_exists.mp hdigits
  exact ⟨⟨stop.1, by rw [hstop, Option.map_some]⟩, q, num, hq⟩

/-- The NUL is no operator. -/
lemma calcResult_nul (num1 num2 : Int32) : calcResult num1 0 num2 = some calcUsage := rfl

/-- **What `cmd_calc` makes of a string that has an operator.** -/
lemma cmdCalc_some {text num1 num2 tail : List UInt8} {op : UInt8} (htext : TextAt mem 0 0 text)
    (hlen : text.length < 2 ^ 32) (hparts : calcParts text = some (num1, op, num2, tail)) :
    cmdCalc mem = calcResult (calcNumber num1) op (calcNumber num2) := by
  obtain ⟨p₁, p₂, p₃, h⟩ := operatorReached htext hlen
  obtain ⟨rest, hplace, rfl, rfl⟩ := calcParts_eq_some hparts
  obtain ⟨p₄, p₅, h'⟩ := secondReached h hlen hplace
  simp only [cmdCalc, h.skipped, h.number, h.skippedAgain, h'.skipped, h'.number, h'.operator,
    Option.bind_eq_bind, Option.bind_some]

/-- **And of one that has none.** -/
lemma cmdCalc_none {text : List UInt8} (htext : TextAt mem 0 0 text) (hlen : text.length < 2 ^ 32)
    (hmem : Function.Periodic mem (2 ^ 32)) (hparts : calcParts text = none) :
    cmdCalc mem = some calcUsage := by
  obtain ⟨p₁, p₂, p₃, h⟩ := operatorReached htext hlen
  have hop := h.atOperator
  rw [calcParts] at hparts
  cases hplace : operatorPlace text with
  | cons c rest => simp [hplace] at hparts
  | nil =>
      rw [hplace] at hop
      have hnul : mem p₃ = 0 := hop
      obtain ⟨⟨p₄, hskip⟩, -⟩ := loops_end hmem hnul (p₃ + 1)
      obtain ⟨-, p₅, num2, hread⟩ := loops_end hmem hnul p₄
      simp only [cmdCalc, h.skipped, h.number, h.skippedAgain, hskip, hread, hnul,
        Option.bind_eq_bind, Option.bind_some, calcResult_nul]

/-! ### The reads

All loops of a string that has an operator stop at the NUL at the latest.  If there is none, the
pointer goes over the NUL, and the next byte that is read is behind it. -/

/-- **Where it reads.**  It stays inside a string that has an operator. -/
lemma mem_calcReads {text : List UInt8} (htext : TextAt mem 0 0 text) (hlen : text.length < 2 ^ 32)
    (hplace : operatorPlace text ≠ []) : ∀ q ∈ calcReads mem, q ≤ text.length := by
  obtain ⟨p₁, p₂, p₃, h⟩ := operatorReached htext hlen
  obtain ⟨op, rest, hcons⟩ := List.exists_cons_of_ne_nil hplace
  obtain ⟨p₄, p₅, h'⟩ := secondReached h hlen hcons
  have hleft := h'.left₃
  have hspace : isSpace 0 = false := by decide
  have hdigit : isDigit 0 = false := by decide
  intro q hq
  simp only [calcReads, h.skipped, h.number, h.skippedAgain, h'.skipped, Option.elim_some,
    List.mem_append, List.mem_cons] at hq
  rcases hq with hq | hq | hq | rfl | hq | hq
  · have hle := mem_scanReads hspace htext q hq
    rwa [Nat.zero_add] at hle
  · exact h.left₁ ▸ mem_scanReads hdigit h.atNumber q hq
  · exact h.left₂ ▸ mem_scanReads hspace h.behindNumber q hq
  · omega
  · exact hleft ▸ mem_scanReads hspace h'.behindOperator q hq
  · exact h'.left₄ ▸ mem_scanReads hdigit h'.atNumber q hq

/-- Otherwise it reads behind the NUL. -/
lemma calcReads_behind {text : List UInt8} (htext : TextAt mem 0 0 text)
    (hlen : text.length < 2 ^ 32) (hplace : operatorPlace text = []) :
    text.length + 1 ∈ calcReads mem := by
  obtain ⟨p₁, p₂, p₃, h⟩ := operatorReached htext hlen
  have hleft := h.left₃
  rw [hplace, List.length_nil, Nat.add_zero] at hleft
  have hfirst : ∀ p, p ∈ scanReads isSpace mem (2 ^ 32) p := fun p => List.mem_cons_self
  simp only [calcReads, h.skipped, h.number, h.skippedAgain, Option.elim_some, List.mem_append,
    List.mem_cons, ← hleft]
  exact Or.inr (Or.inr (Or.inr (Or.inr (Or.inl (hfirst _)))))

end Loops

/-! ## The grammar

It is that of the usage text, `<num> <op> <num>`, with spaces anywhere between the parts.  That a
string has the grammar can be told from its parts, because digits, spaces and operators are
different characters. -/

/-- Spaces, digits, spaces, an operator, spaces, digits, spaces. -/
def CalcGrammar (expr : List UInt8) : Prop :=
  ∃ (a b c d : ℕ) (num1 num2 : List UInt8) (op : UInt8),
    expr = List.replicate a 32 ++ (num1 ++ (List.replicate b 32 ++ op ::
      (List.replicate c 32 ++ (num2 ++ List.replicate d 32)))) ∧
    num1 ≠ [] ∧ num2 ≠ [] ∧ (∀ x ∈ num1, isDigit x = true) ∧ (∀ x ∈ num2, isDigit x = true) ∧
    isOperator op = true

section Grammar

variable {expr : List UInt8}

lemma isSpace_replicate (n : ℕ) : ∀ x ∈ List.replicate n (32 : UInt8), isSpace x = true := by
  intro x hx
  rw [List.eq_of_mem_replicate hx]
  decide

lemma not_isSpace_of_isDigit {c : UInt8} (h : isDigit c = true) : isSpace c = false := by
  rw [isSpace, decide_eq_false_iff_not]
  rintro rfl
  exact absurd h (by decide)

lemma isOperator_iff {op : UInt8} :
    isOperator op = true ↔ op = 43 ∨ op = 45 ∨ op = 42 ∨ op = 47 := by
  simp [isOperator, or_assoc]

lemma not_isSpace_of_isOperator {op : UInt8} (h : isOperator op = true) : isSpace op = false := by
  rcases isOperator_iff.mp h with rfl | rfl | rfl | rfl <;> rfl

lemma not_isDigit_of_isOperator {op : UInt8} (h : isOperator op = true) : isDigit op = false := by
  rcases isOperator_iff.mp h with rfl | rfl | rfl | rfl <;> decide

/-- A text that begins with something else is left alone. -/
lemma dropWhile_head {cond : UInt8 → Bool} {text : List UInt8}
    (h : ∀ c ∈ text.head?, cond c = false) : text.dropWhile cond = text := by
  cases text with
  | nil => rfl
  | cons c rest => rw [List.dropWhile_cons, if_neg (by simp [h c rfl])]

lemma takeWhile_head {cond : UInt8 → Bool} {text : List UInt8}
    (h : ∀ c ∈ text.head?, cond c = false) : text.takeWhile cond = [] := by
  cases text with
  | nil => rfl
  | cons c rest => rw [List.takeWhile_cons, if_neg (by simp [h c rfl])]

/-- Spaces are skipped. -/
lemma dropWhile_spaces (n : ℕ) (text : List UInt8) :
    (List.replicate n 32 ++ text).dropWhile isSpace = text.dropWhile isSpace :=
  List.dropWhile_append_of_pos (isSpace_replicate n)

/-- **A number between spaces**, and what stands behind it. -/
lemma number_between (a b : ℕ) {num : List UInt8} (text : List UInt8)
    (hnum : ∀ x ∈ num, isDigit x = true)
    (htext : ∀ c ∈ text.head?, isSpace c = false ∧ isDigit c = false) :
    let rest := (List.replicate a 32 ++ (num ++ (List.replicate b 32 ++ text))).dropWhile isSpace
    rest.takeWhile isDigit = num ∧ (rest.dropWhile isDigit).dropWhile isSpace = text := by
  have hspace : text.dropWhile isSpace = text := dropWhile_head fun c hc => (htext c hc).1
  cases num with
  | nil =>
      have hdigit : ∀ c ∈ text.head?, isDigit c = false := fun c hc => (htext c hc).2
      simp only [List.nil_append, dropWhile_spaces, hspace, takeWhile_head hdigit,
        dropWhile_head hdigit, and_self]
  | cons x xs =>
      have hfirst : isSpace x = false := not_isSpace_of_isDigit (hnum x List.mem_cons_self)
      have hdigit : ∀ c ∈ (List.replicate b 32 ++ text).head?, isDigit c = false := by
        intro c hc
        cases b with
        | zero => exact (htext c hc).2
        | succ b =>
            rw [← Option.some.inj hc]
            decide
      have hrest : (x :: xs ++ (List.replicate b 32 ++ text)).dropWhile isSpace
          = x :: xs ++ (List.replicate b 32 ++ text) :=
        dropWhile_head fun c hc => by rwa [← Option.some.inj hc]
      simp only [dropWhile_spaces, hrest, List.takeWhile_append_of_pos hnum,
        List.dropWhile_append_of_pos hnum, takeWhile_head hdigit, dropWhile_head hdigit, hspace,
        List.append_nil, and_self]

/-- **The parts of a string** that is made of them. -/
lemma calcParts_append {a b c d : ℕ} {num1 num2 : List UInt8} {op : UInt8}
    (hnum1 : ∀ x ∈ num1, isDigit x = true) (hnum2 : ∀ x ∈ num2, isDigit x = true)
    (hop : isOperator op = true) :
    calcParts (List.replicate a 32 ++ (num1 ++ (List.replicate b 32 ++ op ::
      (List.replicate c 32 ++ (num2 ++ List.replicate d 32))))) = some (num1, op, num2, []) := by
  obtain ⟨hdigits1, hplace⟩ := number_between a b
    (op :: (List.replicate c 32 ++ (num2 ++ List.replicate d 32))) hnum1 (by
      intro x hx
      rw [← Option.some.inj hx]
      exact ⟨not_isSpace_of_isOperator hop, not_isDigit_of_isOperator hop⟩)
  obtain ⟨hdigits2, htail⟩ := number_between c d [] hnum2
    (fun x hx => absurd hx (Option.not_mem_none x))
  rw [List.append_nil] at hdigits2 htail
  rw [calcParts, operatorPlace, hplace, hdigits1]
  simp only [hdigits2, htail]

/-- A string from its parts. -/
lemma eq_of_calcParts {num1 num2 tail : List UInt8} {op : UInt8}
    (h : calcParts expr = some (num1, op, num2, tail)) : ∃ a b c d,
      expr = List.replicate a 32 ++ (num1 ++ (List.replicate b 32 ++ op ::
        (List.replicate c 32 ++ (num2 ++ (List.replicate d 32 ++ tail))))) ∧
      (∀ x ∈ num1, isDigit x = true) ∧ ∀ x ∈ num2, isDigit x = true := by
  have hspaces : ∀ text : List UInt8,
      ∃ n, text = List.replicate n 32 ++ text.dropWhile isSpace := by
    intro text
    refine ⟨(text.takeWhile isSpace).length, ?_⟩
    rw [← List.eq_replicate_of_mem (a := (32 : UInt8)) (l := text.takeWhile isSpace)]
    · exact List.takeWhile_append_dropWhile.symm
    · intro x hx
      simpa [isSpace] using List.mem_takeWhile_imp hx
  have hdigits : ∀ text : List UInt8,
      text = text.takeWhile isDigit ++ text.dropWhile isDigit := fun text =>
    List.takeWhile_append_dropWhile.symm
  obtain ⟨a, ha⟩ := hspaces expr
  obtain ⟨b, hb⟩ := hspaces ((expr.dropWhile isSpace).dropWhile isDigit)
  rw [calcParts] at h
  cases hplace : operatorPlace expr with
  | nil => simp [hplace] at h
  | cons c rest =>
      rw [hplace] at h
      simp only [Option.some.injEq, Prod.mk.injEq] at h
      obtain ⟨rfl, rfl, rfl, rfl⟩ := h
      obtain ⟨n, hn⟩ := hspaces rest
      obtain ⟨d, hd⟩ := hspaces ((rest.dropWhile isSpace).dropWhile isDigit)
      refine ⟨a, b, n, d, ?_, fun x hx => List.mem_takeWhile_imp hx,
        fun x hx => List.mem_takeWhile_imp hx⟩
      rw [← hd, ← hdigits, ← hn, ← hplace, operatorPlace, ← hb, ← hdigits, ← ha]

/-- **The grammar in terms of the parts.** -/
lemma calcGrammar_iff : CalcGrammar expr ↔ ∃ num1 op num2,
    calcParts expr = some (num1, op, num2, []) ∧
      num1 ≠ [] ∧ num2 ≠ [] ∧ isOperator op = true := by
  constructor
  · rintro ⟨a, b, c, d, num1, num2, op, rfl, hne1, hne2, hnum1, hnum2, hop⟩
    exact ⟨num1, op, num2, calcParts_append hnum1 hnum2 hop, hne1, hne2, hop⟩
  · rintro ⟨num1, op, num2, hparts, hne1, hne2, hop⟩
    obtain ⟨a, b, c, d, hexpr, hnum1, hnum2⟩ := eq_of_calcParts hparts
    rw [List.append_nil] at hexpr
    exact ⟨a, b, c, d, num1, num2, op, hexpr, hne1, hne2, hnum1, hnum2, hop⟩

end Grammar

/-! ## What is accepted

A string is accepted if a result is printed or the division by zero is reported; the usage text is a
refusal.  A number without digits is 0 to the scanner, and what follows the second number is never
looked at. -/

/-- A result or the division by zero is printed. -/
def Accepted (calls : Option (List TermCall)) : Prop :=
  (∃ num1 op num2 result, calls = some (calcReport num1 op num2 result)) ∨
    calls = some [.writestring "Error: Division by zero!\n"]

/-- The one division that the processor refuses: in 32 bits, the least number by `-1`. -/
def Refused (num1 : List UInt8) (op : UInt8) (num2 : List UInt8) : Prop :=
  op = 47 ∧ digitsValue num1 % 2 ^ 32 = 2 ^ 31 ∧ digitsValue num2 % 2 ^ 32 = 2 ^ 32 - 1

/-- Where there is an operator, there are two numbers, nothing follows them, and they can be
divided. -/
def OperandsPresent (expr : List UInt8) : Prop :=
  ∀ num1 op num2 tail, calcParts expr = some (num1, op, num2, tail) → isOperator op = true →
    num1 ≠ [] ∧ num2 ≠ [] ∧ tail = [] ∧ ¬ Refused num1 op num2

/-- Memory from an address on.  Addresses have 32 bits. -/
def memoryFrom (ram : UInt32 → UInt8) (start : UInt32) (p : ℕ) : UInt8 :=
  ram (start + UInt32.ofNat p)

section Accepting

variable {num1 num2 : List UInt8} {op : UInt8}

lemma memoryFrom_periodic (ram : UInt32 → UInt8) (start : UInt32) :
    Function.Periodic (memoryFrom ram start) (2 ^ 32) := by
  intro p
  have hsize : UInt32.ofNat (2 ^ 32) = 0 := rfl
  rw [memoryFrom, memoryFrom, UInt32.ofNat_add, hsize, UInt32.add_zero]

/-- The shell calls `cmd_calc` on such memory. -/
lemma calcMemory_mem {σ : Type} (M : Machine σ) (expr : CString) :
    ∀ j ≤ expr.length, calcMemory M expr j = expr.mem j := fun _ hj => if_pos hj

/-! ### Results

What each outcome of `calcResult` is for the question of acceptance.  The division that the
processor refuses is neither a result nor a refusal: the command does not return. -/

lemma not_accepted_usage : ¬ Accepted (some calcUsage) := by
  rintro (⟨_, _, _, _, h⟩ | h)
  · simp [calcUsage, calcReport] at h
  · simp [calcUsage] at h

lemma not_accepted_none : ¬ Accepted none := by
  rintro (⟨_, _, _, _, h⟩ | h)
  · simp at h
  · simp at h

/-- Neither of these operands can be divided. -/
lemma refused_iff : Refused num1 op num2 ↔
    op = 47 ∧ calcNumber num1 = Int32.minValue ∧ calcNumber num2 = -1 := by
  rw [Refused, calcNumber_eq, calcNumber_eq, ofNat_eq_iff, ofNat_eq_iff]
  rfl

/-- An operator is an answer, or no answer at all. -/
lemma accepted_calcResult (hop : isOperator op = true) (hdiv : ¬ Refused num1 op num2) :
    Accepted (calcResult (calcNumber num1) op (calcNumber num2)) := by
  rw [refused_iff] at hdiv
  rcases isOperator_iff.mp hop with rfl | rfl | rfl | rfl
  · exact Or.inl ⟨_, _, _, _, rfl⟩
  · exact Or.inl ⟨_, _, _, _, rfl⟩
  · exact Or.inl ⟨_, _, _, _, rfl⟩
  · rw [calcResult, if_neg (by decide), if_neg (by decide), if_neg (by decide), if_pos rfl]
    split_ifs with hzero hrefused
    · exact Or.inr rfl
    · exact absurd ⟨rfl, hrefused⟩ hdiv
    · exact Or.inl ⟨_, _, _, _, rfl⟩

lemma calcResult_refused (hdiv : Refused num1 op num2) :
    calcResult (calcNumber num1) op (calcNumber num2) = none := by
  obtain ⟨rfl, hmin, hone⟩ := refused_iff.mp hdiv
  rw [hmin, hone]
  rfl

lemma calcResult_usage {x y : Int32} (hop : ¬ isOperator op = true) :
    calcResult x op y = some calcUsage := by
  rw [isOperator_iff] at hop
  push Not at hop
  obtain ⟨hadd, hsub, hmul, hdiv⟩ := hop
  rw [calcResult, if_neg hadd, if_neg hsub, if_neg hmul, if_neg hdiv]

/-- Without an operator the usage text is printed. -/
lemma cmdCalc_usage {mem : ℕ → UInt8} {text : List UInt8} (htext : TextAt mem 0 0 text)
    (hlen : text.length < 2 ^ 32) (hper : Function.Periodic mem (2 ^ 32))
    (hno : ∀ num1 op num2 tail, calcParts text = some (num1, op, num2, tail) →
      ¬ isOperator op = true) : cmdCalc mem = some calcUsage := by
  cases hparts : calcParts text with
  | none => exact cmdCalc_none htext hlen hper hparts
  | some parts =>
      obtain ⟨num1, op, num2, tail⟩ := parts
      rw [cmdCalc_some htext hlen hparts, calcResult_usage (hno _ _ _ _ hparts)]

section Parts

variable {expr tail : List UInt8} (hparts : calcParts expr = some (num1, op, num2, tail))
  (hop : isOperator op = true)

include hparts hop

lemma calcGrammar_parts : CalcGrammar expr ↔ num1 ≠ [] ∧ num2 ≠ [] ∧ tail = [] := by
  rw [calcGrammar_iff, hparts]
  constructor
  · rintro ⟨_, _, _, h, hne1, hne2, -⟩
    obtain ⟨rfl, rfl, rfl, rfl⟩ : num1 = _ ∧ op = _ ∧ num2 = _ ∧ tail = [] := by simpa using h
    exact ⟨hne1, hne2, rfl⟩
  · rintro ⟨hne1, hne2, rfl⟩
    exact ⟨num1, op, num2, rfl, hne1, hne2, hop⟩

lemma operandsPresent_parts :
    OperandsPresent expr ↔ num1 ≠ [] ∧ num2 ≠ [] ∧ tail = [] ∧ ¬ Refused num1 op num2 := by
  constructor
  · intro h
    exact h num1 op num2 tail hparts hop
  · rintro h _ _ _ _ hsame -
    obtain ⟨rfl, rfl, rfl, rfl⟩ : num1 = _ ∧ op = _ ∧ num2 = _ ∧ tail = _ := by
      simpa using hparts.symm.trans hsame
    exact h

end Parts

/-- **What is accepted**: exactly the grammar, on the strings whose operator has its operands, and
on no others. -/
theorem calc_grammar_iff (expr : CString) {ram : UInt32 → UInt8} {start : UInt32}
    (hmem : ∀ j ≤ expr.length, memoryFrom ram start j = expr.mem j) :
    ((Accepted (cmdCalc (memoryFrom ram start)) ↔ CalcGrammar expr.bytes) ∧
      (¬ CalcGrammar expr.bytes → cmdCalc (memoryFrom ram start) = some calcUsage)) ↔
    OperandsPresent expr.bytes := by
  have htext := textAt_mem hmem
  by_cases hsome : ∃ num1 op num2 tail,
      calcParts expr.bytes = some (num1, op, num2, tail) ∧ isOperator op = true
  · obtain ⟨num1, op, num2, tail, hparts, hop⟩ := hsome
    rw [cmdCalc_some htext expr.fits hparts, calcGrammar_parts hparts hop,
      operandsPresent_parts hparts hop]
    by_cases hdiv : Refused num1 op num2
    · -- nothing is printed, neither an answer nor the usage text
      rw [calcResult_refused hdiv]
      refine iff_of_false ?_ fun h => h.2.2.2 hdiv
      rintro ⟨haccept, hprinted⟩
      by_cases hgrammar : num1 ≠ [] ∧ num2 ≠ [] ∧ tail = []
      · exact not_accepted_none (haccept.mpr hgrammar)
      · exact absurd (hprinted hgrammar).symm (Option.some_ne_none _)
    · -- an answer is printed, with the operands or without
      have hacc := accepted_calcResult hop hdiv
      constructor
      · rintro ⟨haccept, -⟩
        obtain ⟨hne1, hne2, htail⟩ := haccept.mp hacc
        exact ⟨hne1, hne2, htail, hdiv⟩
      · rintro ⟨hne1, hne2, htail, -⟩
        exact ⟨iff_of_true hacc ⟨hne1, hne2, htail⟩, fun h => absurd ⟨hne1, hne2, htail⟩ h⟩
  · have hno : ∀ num1 op num2 tail, calcParts expr.bytes = some (num1, op, num2, tail) →
        ¬ isOperator op = true := fun num1 op num2 tail hparts hop =>
      hsome ⟨num1, op, num2, tail, hparts, hop⟩
    have hout : ¬ CalcGrammar expr.bytes := by
      rw [calcGrammar_iff]
      rintro ⟨num1, op, num2, hparts, -, -, hop⟩
      exact hno _ _ _ _ hparts hop
    rw [cmdCalc_usage htext expr.fits (memoryFrom_periodic ram start) hno]
    refine iff_of_true ⟨iff_of_false not_accepted_usage hout, fun _ => rfl⟩ ?_
    intro num1 op num2 tail hparts hop
    exact absurd hop (hno _ _ _ _ hparts)

/-- `5 + 3`. -/
def sumText : CString := CString.ofLiterals ["5 + 3"] (by decide)

/-- `5+`: the second number is missing. -/
def halfText : CString := CString.ofLiterals ["5+"] (by decide)

/-- Memory that holds a string at address 0. -/
def ramOf (expr : CString) (addr : UInt32) : UInt8 := expr.mem addr.toNat

lemma ramOf_mem (expr : CString) : ∀ j ≤ expr.length, memoryFrom (ramOf expr) 0 j = expr.mem j := by
  intro j hj
  have hlt : j < 2 ^ 32 := Nat.lt_of_le_of_lt hj expr.fits
  rw [memoryFrom, ramOf, UInt32.zero_add, UInt32.toNat_ofNat', Nat.mod_eq_of_lt hlt]

theorem calc_grammar_sum : (Accepted (cmdCalc (memoryFrom (ramOf sumText) 0)) ↔
    CalcGrammar sumText.bytes) ∧ (¬ CalcGrammar sumText.bytes →
      cmdCalc (memoryFrom (ramOf sumText) 0) = some calcUsage) := by
  refine (calc_grammar_iff sumText (ramOf_mem sumText)).mpr ?_
  intro num1 op num2 tail hparts hop
  have hsum : calcParts sumText.bytes = some ([53], 43, [51], []) := by decide
  obtain ⟨rfl, rfl, rfl, rfl⟩ : [53] = num1 ∧ 43 = op ∧ [51] = num2 ∧ [] = tail := by
    simpa using hsum.symm.trans hparts
  exact ⟨by decide, by decide, rfl, fun h => absurd h.1 (by decide)⟩

/-- `5+` has the result 5. -/
theorem half_accepted : ¬ (Accepted (cmdCalc (memoryFrom (ramOf halfText) 0)) ↔
    CalcGrammar halfText.bytes) := by
  have hhalf : calcParts halfText.bytes = some ([53], 43, [], []) := by decide
  intro h
  have hacc : Accepted (cmdCalc (memoryFrom (ramOf halfText) 0)) := by
    rw [cmdCalc_some (textAt_mem (ramOf_mem halfText)) halfText.fits hhalf]
    exact Or.inl ⟨5, 43, 0, 5, rfl⟩
  obtain ⟨-, hne, -⟩ := (calcGrammar_parts hhalf rfl).mp (h.mp hacc)
  exact hne rfl

end Accepting

/-! ## What is read

Everything up to the operator is inside the string if there is one.  The second number ends at the
NUL at the latest. -/

/-- **What is read**: nothing behind the NUL, exactly for the strings that have something where the
operator is expected. -/
theorem scanner_in_bounds_iff (expr : CString) {mem : ℕ → UInt8}
    (hmem : ∀ j ≤ expr.length, mem j = expr.mem j) :
    ((∀ q ∈ calcReads mem, q ≤ expr.length) ∧ ∀ mem' : ℕ → UInt8,
      (∀ j ≤ expr.length, mem' j = expr.mem j) → cmdCalc mem' = cmdCalc mem) ↔
    operatorPlace expr.bytes ≠ [] := by
  constructor
  · rintro ⟨hreads, -⟩ hplace
    have hbehind := hreads _ (calcReads_behind (textAt_mem hmem) expr.fits hplace)
    exact absurd hbehind (Nat.not_succ_le_self _)
  · intro hplace
    refine ⟨mem_calcReads (textAt_mem hmem) expr.fits hplace, ?_⟩
    intro mem' hmem'
    obtain ⟨op, rest, hcons⟩ := List.exists_cons_of_ne_nil hplace
    have hparts : ∃ num1 num2 tail, calcParts expr.bytes = some (num1, op, num2, tail) := by
      rw [calcParts, hcons]
      exact ⟨_, _, _, rfl⟩
    obtain ⟨num1, num2, tail, hparts⟩ := hparts
    rw [cmdCalc_some (textAt_mem hmem) expr.fits hparts,
      cmdCalc_some (textAt_mem hmem') expr.fits hparts]

theorem scanner_in_bounds_sum : (∀ q ∈ calcReads sumText.mem, q ≤ sumText.length) ∧
    ∀ mem' : ℕ → UInt8, (∀ j ≤ sumText.length, mem' j = sumText.mem j) →
      cmdCalc mem' = cmdCalc sumText.mem :=
  (scanner_in_bounds_iff sumText fun _ _ => rfl).mpr (by decide)

/-- `5`, a number alone. -/
def loneText : CString := CString.ofLiterals ["5"] (by decide)

/-- What `calc 5` leaves of `calc 12 + 27` in the buffer, from the 5 on. -/
def leftOver (p : ℕ) : UInt8 := [53, 0, 32, 43, 32, 50, 55].getD p 0

/-- Behind the NUL of `5` the scanner reads what an earlier command has left. -/
theorem lone_number_leaves : (∀ j ≤ loneText.length, leftOver j = loneText.mem j) ∧
    ¬ ∀ q ∈ calcReads leftOver, q ≤ loneText.length := by
  have hmem : ∀ j ≤ loneText.length, leftOver j = loneText.mem j := by decide
  refine ⟨hmem, ?_⟩
  intro hreads
  have hbehind := hreads _ (calcReads_behind (textAt_mem hmem) loneText.fits (by decide))
  exact absurd hbehind (Nat.not_succ_le_self _)

end SzymOS
