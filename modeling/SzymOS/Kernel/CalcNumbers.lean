import SzymOS.Kernel.Calculator
import SzymOS.Kernel.PrintfNumbers

/-!
# The numbers of `cmd_calc`

Every signed operation of 32 bits that `cmd_calc` executes, in order: one multiplication,
subtraction and addition for each digit, the operator, and what `%d` does to print three numbers.
C defines such an operation only if its exact result is a number of 32 bits, so a run of `cmd_calc`
means something only if all operations of this list fit; the model computes on as the processor
does, and a result that is printed after an overflow is that of the wrapped numbers.

The digits are read by the same scan as in `cmd_calc`, so that the list is that of the source for
every string, also for one that ends in the middle of an expression.

* `numberOps_fit_iff` — the digits of a number overflow exactly when the number does.
* `calc_exact_iff` — for which numbers the text that is printed is exact and nothing overflows.

`calcOps_fit_iff` takes the list apart, for a string that has an operator: all operations fit
exactly if those of both numbers do and those of the operator and the report do.  The first two
parts are `numberOps_fit_iff`, by induction on the digits from the left.  For the third one both
operands are known to be below 2 ^ 31 and not negative, and the four operators are compared with the
operations on the integers (`operation_exact`, `operation_fits_iff`); the report then fits because
its result is not the least number (`exactResult_gt`).
-/

set_option autoImplicit false

namespace SzymOS

open Scan Numerals Signed

/-! ## The operations

The list is made along the code: the same pointers, the same loops, and at each place the operations
that stand there in the source. -/

/-- `num * 10 + (*p - '0')`. -/
def digitOps (num : Int32) (c : UInt8) : List IntOp :=
  [.mul num 10, .sub (Int32.ofNat c.toNat) 48, .add (num * 10) (Int32.ofNat (c - 48).toNat)]

/-- The loop that reads a number. -/
def numberOps (mem : ℕ → UInt8) (p : ℕ) : List IntOp :=
  scanTrace isDigit addDigit digitOps mem (2 ^ 32) p 0

/-- What the last `terminal_printf` does. -/
def reportOps (num1 num2 result : Int32) : List IntOp :=
  decimalOps num1 ++ decimalOps num2 ++ decimalOps result

/-- The operator, and the report. -/
def resultOps (num1 : Int32) (op : UInt8) (num2 : Int32) : List IntOp :=
  if op = 43 then .add num1 num2 :: reportOps num1 num2 (num1 + num2)
  else if op = 45 then .sub num1 num2 :: reportOps num1 num2 (num1 - num2)
  else if op = 42 then .mul num1 num2 :: reportOps num1 num2 (num1 * num2)
  else if op = 47 then
    if num2 = 0 then [] else .div num1 num2 :: reportOps num1 num2 (num1 / num2)
  else []

/-- All that `cmd_calc` executes. -/
def calcOps (mem : ℕ → UInt8) : List IntOp :=
  (skipSpaces mem (2 ^ 32) 0).elim [] fun p =>
  numberOps mem p ++ (readNumber mem (2 ^ 32) p 0).elim [] fun (p, num1) =>
  (skipSpaces mem (2 ^ 32) p).elim [] fun p =>
  (skipSpaces mem (2 ^ 32) (p + 1)).elim [] fun q =>
  numberOps mem q ++ (readNumber mem (2 ^ 32) q 0).elim [] fun (_, num2) =>
  resultOps num1 (mem p) num2

/-! ## Reading the numbers

A number grows with every digit, so if it fits in the end it has fitted all the time; and if it does
not, the digit at which it becomes too large is the one whose multiplication or addition overflows.
-/

section Digits

variable {digits : List UInt8}

lemma digit_toNat {c : UInt8} (h : isDigit c = true) : (c - 48).toNat = c.toNat - 48 ∧
    48 ≤ c.toNat ∧ c.toNat ≤ 57 := by
  simp only [isDigit, Bool.and_eq_true, decide_eq_true_eq, UInt8.le_iff_toNat_le] at h
  have hle : (48 : UInt8) ≤ c := UInt8.le_iff_toNat_le.mpr h.1
  exact ⟨UInt8.toNat_sub_of_le c 48 hle, h⟩

/-- One digit more overflows exactly when the number becomes too large. -/
lemma digitOps_fit_iff {n : ℕ} {c : UInt8} (hn : n < 2 ^ 31) (hc : isDigit c = true) :
    (∀ o ∈ digitOps (Int32.ofNat n) c, o.Fits) ↔ n * 10 + (c - 48).toNat < 2 ^ 31 := by
  obtain ⟨hdigit, hlo, hhi⟩ := digit_toNat hc
  have hten : (10 : Int32).toInt = 10 := rfl
  have hascii : (48 : Int32).toInt = 48 := rfl
  have hsub : (IntOp.sub (Int32.ofNat c.toNat) 48).Fits := by
    rw [IntOp.fits_sub, toInt_ofNat (by omega), hascii, InRange]
    omega
  have hmul : (IntOp.mul (Int32.ofNat n) 10).Fits ↔ n * 10 < 2 ^ 31 := by
    rw [IntOp.fits_mul, toInt_ofNat hn, hten, InRange]
    omega
  have hadd : n * 10 < 2 ^ 31 → ((IntOp.add (Int32.ofNat n * 10)
      (Int32.ofNat (c - 48).toNat)).Fits ↔ n * 10 + (c - 48).toNat < 2 ^ 31) := by
    intro hlt
    have hprod : Int32.ofNat n * 10 = Int32.ofNat (n * 10) := (Int32.ofNat_mul n 10).symm
    rw [IntOp.fits_add, hprod, toInt_ofNat hlt, toInt_ofNat (by omega), InRange]
    omega
  simp only [digitOps, List.forall_mem_cons, List.not_mem_nil, false_implies, implies_true,
    and_true]
  rw [hmul]
  constructor
  · rintro ⟨hlt, -, hfit⟩
    exact (hadd hlt).mp hfit
  · intro h
    have hlt : n * 10 < 2 ^ 31 := by omega
    exact ⟨hlt, hsub, (hadd hlt).mpr h⟩

/-- **The digits of a number** overflow exactly when the number does. -/
theorem digits_fit_iff {n : ℕ} (hn : n < 2 ^ 31) (hdigits : ∀ c ∈ digits, isDigit c = true) :
    (∀ o ∈ foldTrace addDigit digitOps (Int32.ofNat n) digits, o.Fits) ↔
      valueFrom 10 (fun c => (c - 48).toNat) n digits < 2 ^ 31 := by
  induction digits generalizing n with
  | nil => exact iff_of_true (fun _ ho => absurd ho List.not_mem_nil) hn
  | cons c digits ih =>
      obtain ⟨hc, hrest⟩ := List.forall_mem_cons.mp hdigits
      have hstep : addDigit (Int32.ofNat n) c = Int32.ofNat (n * 10 + (c - 48).toNat) :=
        foldl_addDigit n [c]
      rw [foldTrace, List.forall_mem_append, digitOps_fit_iff hn hc, hstep, valueFrom_cons]
      constructor
      · rintro ⟨hlt, hfit⟩
        exact (ih hlt hrest).mp hfit
      · intro h
        have hlt := Nat.lt_of_le_of_lt (valueFrom_le (by decide) _ _) h
        exact ⟨hlt, (ih hlt hrest).mpr h⟩

/-- Where memory holds the number. -/
lemma numberOps_fit_iff {mem : ℕ → UInt8} {p : ℕ} {text : List UInt8} (htext : TextAt mem 0 p text)
    (hlen : text.length < 2 ^ 32) : (∀ o ∈ numberOps mem p, o.Fits) ↔
      digitsValue (text.takeWhile isDigit) < 2 ^ 31 := by
  rw [numberOps, scanTrace_text addDigit digitOps (by decide) htext hlen]
  exact digits_fit_iff (n := 0) (by decide) fun c hc => List.mem_takeWhile_imp hc

lemma calcNumber_toInt (h : digitsValue digits < 2 ^ 31) :
    (calcNumber digits).toInt = digitsValue digits := by
  rw [calcNumber_eq, toInt_ofNat h]

end Digits

/-- **What `cmd_calc` executes** on a string that has an operator. -/
lemma calcOps_fit_iff {mem : ℕ → UInt8} {text num1 num2 tail : List UInt8} {op : UInt8}
    (htext : TextAt mem 0 0 text) (hlen : text.length < 2 ^ 32)
    (hparts : calcParts text = some (num1, op, num2, tail)) :
    (∀ o ∈ calcOps mem, o.Fits) ↔ digitsValue num1 < 2 ^ 31 ∧ digitsValue num2 < 2 ^ 31 ∧
      ∀ o ∈ resultOps (calcNumber num1) op (calcNumber num2), o.Fits := by
  obtain ⟨p₁, p₂, p₃, h⟩ := operatorReached htext hlen
  obtain ⟨rest, hplace, rfl, rfl⟩ := calcParts_eq_some hparts
  obtain ⟨p₄, p₅, h'⟩ := secondReached h hlen hplace
  have hnum1 := numberOps_fit_iff h.atNumber (by have := h.left₁; omega)
  have hnum2 := numberOps_fit_iff h'.atNumber (by have := h'.left₄; omega)
  simp only [calcOps, h.skipped, h.number, h.skippedAgain, h'.skipped, h'.number, h'.operator,
    Option.elim_some, List.forall_mem_append, hnum1, hnum2]

/-! ## Printing

The report prints both operands and the result.  The operands are not negative, and the result is
printed faithfully unless it is the least number. -/

lemma ne_minValue {x : Int32} (h : -2 ^ 31 < x.toInt) : x ≠ Int32.minValue := by
  rintro rfl
  rw [Int32.toInt_minValue] at h
  exact absurd h (by decide)

lemma reportOps_fit {num1 num2 result : Int32} (h1 : num1 ≠ Int32.minValue)
    (h2 : num2 ≠ Int32.minValue) (h : result ≠ Int32.minValue) :
    ∀ o ∈ reportOps num1 num2 result, o.Fits := by
  rw [reportOps, List.forall_mem_append, List.forall_mem_append]
  exact ⟨⟨decimalOps_fit h1, decimalOps_fit h2⟩, decimalOps_fit h⟩

/-- What a `terminal_printf` whose arguments are numbers prints. -/
def printfText (memory : UInt32 → ℕ → UInt8) (leastBuffer : List UInt8) (format : String)
    (words : List UInt32) : Ending × List UInt8 :=
  printfFrom (fun p => (textBytes format).getD p 0) ⟨fun n => words.getD n 0, memory, leastBuffer⟩
    (2 ^ 32) 0 0

/-- The text of a report. -/
def reportText (num1 : List UInt8) (op : UInt8) (num2 result : List UInt8) : List UInt8 :=
  num1 ++ 32 :: op :: 32 :: (num2 ++ 32 :: 61 :: 32 :: (result ++ [10]))

lemma printed_report (memory : UInt32 → ℕ → UInt8) (leastBuffer : List UInt8) (num1 : Int32)
    (op : UInt8) (num2 result : Int32) :
    printfText memory leastBuffer "%d %c %d = %d\n"
        [num1.toUInt32, UInt32.ofNat op.toNat, num2.toUInt32, result.toUInt32]
      = (.returned, reportText (decimalBuffer leastBuffer num1).reverse op
          (decimalBuffer leastBuffer num2).reverse
          (decimalBuffer leastBuffer result).reverse) := by
  have hbytes : textBytes "%d %c %d = %d\n"
      = [37, 100, 32, 37, 99, 32, 37, 100, 32, 61, 32, 37, 100, 10] := by decide
  have htext : TextAt (fun p => (textBytes "%d %c %d = %d\n").getD p 0) 0 0
      (textBytes "%d %c %d = %d\n") := by
    rw [textAt_iff]
    intro j _
    rw [Nat.zero_add]
  have hcomplete : Complete (textBytes "%d %c %d = %d\n") := by
    rw [hbytes]
    simp [Complete]
  rw [printfText, printfFrom_text _ htext (by decide) hcomplete (by decide), hbytes]
  simp [formatText, directive, reportText]

/-! ## The operators

A difference of two numbers that are not negative fits, and so does a quotient.  Sums and products
may not. -/

/-- The operation of an operator. -/
def operation (op : UInt8) (num1 num2 : Int32) : IntOp :=
  if op = 43 then .add num1 num2
  else if op = 45 then .sub num1 num2
  else if op = 42 then .mul num1 num2
  else .div num1 num2

/-- Sum, difference, product or truncated quotient. -/
def exactResult (op : UInt8) (a b : ℤ) : ℤ :=
  if op = 43 then a + b
  else if op = 45 then a - b
  else if op = 42 then a * b
  else a.tdiv b

/-- What should be printed. -/
def exactReport (op : UInt8) (a b : ℤ) : List UInt8 :=
  reportText (decimal a) op (decimal b) (decimal (exactResult op a b))

section Operators

variable {op : UInt8} {num1 num2 : Int32}

/-- Only a division by zero is not executed. -/
lemma resultOps_eq (hop : isOperator op = true) (hzero : ¬ (op = 47 ∧ num2 = 0)) :
    resultOps num1 op num2
      = operation op num1 num2 :: reportOps num1 num2 (operation op num1 num2).value := by
  rcases isOperator_iff.mp hop with rfl | rfl | rfl | rfl
  · rfl
  · rfl
  · rfl
  · have hne : num2 ≠ 0 := fun h => hzero ⟨rfl, h⟩
    rw [resultOps, if_neg (by decide), if_neg (by decide), if_neg (by decide), if_pos rfl,
      if_neg hne]
    rfl

lemma calcResult_eq (hop : isOperator op = true) (hzero : ¬ (op = 47 ∧ num2 = 0))
    (hfit : (operation op num1 num2).Fits) : calcResult num1 op num2
      = some (calcReport num1 op num2 (operation op num1 num2).value) := by
  rcases isOperator_iff.mp hop with rfl | rfl | rfl | rfl
  · rfl
  · rfl
  · rfl
  · have hne : num2 ≠ 0 := fun h => hzero ⟨rfl, h⟩
    have hdiv : ¬ (num1 = Int32.minValue ∧ num2 = -1) := by
      rintro ⟨rfl, rfl⟩
      exact absurd hfit.2 (by decide)
    rw [calcResult, if_neg (by decide), if_neg (by decide), if_neg (by decide), if_pos rfl,
      if_neg hne, if_neg hdiv]
    rfl

lemma calcResult_zero (hzero : op = 47 ∧ num2 = 0) (calls : List TermCall)
    (hcalls : calcResult num1 op num2 = some calls) :
    calls = [.writestring "Error: Division by zero!\n"] := by
  obtain ⟨rfl, rfl⟩ := hzero
  exact (Option.some.inj hcalls).symm

lemma resultOps_zero (hzero : op = 47 ∧ num2 = 0) : resultOps num1 op num2 = [] := by
  obtain ⟨rfl, rfl⟩ := hzero
  rfl

/-- On the integers. -/
lemma operation_exact (hop : isOperator op = true) :
    (operation op num1 num2).exact = exactResult op num1.toInt num2.toInt := by
  rcases isOperator_iff.mp hop with rfl | rfl | rfl | rfl <;> rfl

end Operators

section Report

variable {op : UInt8} {num1 num2 : Int32} {a b : ℕ}

/-- **The operators that overflow** are the sum and the product. -/
lemma operation_fits_iff (hop : isOperator op = true) (ha : num1.toInt = a) (hb : num2.toInt = b)
    (hzero : ¬ (op = 47 ∧ num2 = 0)) : (operation op num1 num2).Fits ↔
      (op = 43 → a + b < 2 ^ 31) ∧ (op = 42 → a * b < 2 ^ 31) := by
  have hlta := num1.toInt_lt
  have hltb := num2.toInt_lt
  rw [ha] at hlta
  rw [hb] at hltb
  rcases isOperator_iff.mp hop with rfl | rfl | rfl | rfl
  · have hsum : (IntOp.add num1 num2).Fits ↔ a + b < 2 ^ 31 := by
      rw [IntOp.fits_add, ha, hb, ← Nat.cast_add, inRange_natCast]
    simpa [operation] using hsum
  · have hdiff : (IntOp.sub num1 num2).Fits := by
      rw [IntOp.fits_sub, ha, hb, InRange]
      omega
    simpa [operation] using hdiff
  · have hprod : (IntOp.mul num1 num2).Fits ↔ a * b < 2 ^ 31 := by
      rw [IntOp.fits_mul, ha, hb, ← Nat.cast_mul, inRange_natCast]
    simpa [operation] using hprod
  · have hne : num2.toInt ≠ 0 := fun h => hzero ⟨rfl, Int32.toInt_inj.mp h⟩
    have hquot : (IntOp.div num1 num2).Fits :=
      IntOp.fits_div (by rw [ha]; exact Int.natCast_nonneg a) (by omega)
    simpa [operation] using hquot

/-- The least number is no result of such operands. -/
lemma exactResult_gt (hop : isOperator op = true) (hb : b < 2 ^ 31) :
    -2 ^ 31 < exactResult op a b := by
  rcases isOperator_iff.mp hop with rfl | rfl | rfl | rfl
  · have hsum : 0 ≤ (a : ℤ) + b := by omega
    exact Int.lt_of_lt_of_le (by decide) hsum
  · have hdiff : -2 ^ 31 < (a : ℤ) - b := by omega
    exact hdiff
  · have hprod : 0 ≤ (a : ℤ) * b := Int.mul_nonneg (Int.natCast_nonneg a) (Int.natCast_nonneg b)
    exact Int.lt_of_lt_of_le (by decide) hprod
  · have hquot : 0 ≤ (a : ℤ).tdiv b :=
      Int.tdiv_nonneg (Int.natCast_nonneg a) (Int.natCast_nonneg b)
    exact Int.lt_of_lt_of_le (by decide) hquot

/-- **The operator and the report.** -/
lemma resultOps_fit_iff (hop : isOperator op = true) (ha : num1.toInt = a) (hb : num2.toInt = b) :
    (∀ o ∈ resultOps num1 op num2, o.Fits) ↔
      (op = 43 → a + b < 2 ^ 31) ∧ (op = 42 → a * b < 2 ^ 31) := by
  by_cases hzero : op = 47 ∧ num2 = 0
  · rw [resultOps_zero hzero, hzero.1]
    exact iff_of_true (fun o ho => absurd ho List.not_mem_nil) ⟨fun h => absurd h (by decide),
      fun h => absurd h (by decide)⟩
  · rw [resultOps_eq hop hzero, List.forall_mem_cons, ← operation_fits_iff hop ha hb hzero]
    refine ⟨fun h => h.1, fun hfit => ⟨hfit, ?_⟩⟩
    have hltb := num2.toInt_lt
    have hresult := IntOp.toInt_value hfit
    rw [operation_exact hop, ha, hb] at hresult
    refine reportOps_fit (ne_minValue ?_) (ne_minValue ?_) (ne_minValue ?_)
    · omega
    · omega
    · rw [hresult]
      exact exactResult_gt hop (by omega)

/-- **What is printed** if nothing overflows. -/
lemma report_exact (hop : isOperator op = true) (ha : num1.toInt = a) (hb : num2.toInt = b)
    (hrange : (op = 43 → a + b < 2 ^ 31) ∧ (op = 42 → a * b < 2 ^ 31)) {format : String}
    {words : List UInt32} (hcalls : calcResult num1 op num2 = some [.printf format words])
    (memory : UInt32 → ℕ → UInt8) (leastBuffer : List UInt8) :
    printfText memory leastBuffer format words = (.returned, exactReport op a b) := by
  by_cases hzero : op = 47 ∧ num2 = 0
  · have herror := calcResult_zero hzero _ hcalls
    simp at herror
  · have hfit := (operation_fits_iff hop ha hb hzero).mpr hrange
    have hltb := num2.toInt_lt
    have hresult := IntOp.toInt_value hfit
    rw [operation_exact hop, ha, hb] at hresult
    have hcall := (calcResult_eq hop hzero hfit).symm.trans hcalls
    simp only [calcReport, Option.some.injEq, List.cons.injEq, and_true, TermCall.printf.injEq]
      at hcall
    obtain ⟨rfl, rfl⟩ := hcall
    rw [printed_report, decimalBuffer_eq leastBuffer (ne_minValue (by omega)),
      decimalBuffer_eq leastBuffer (ne_minValue (by omega)),
      decimalBuffer_eq leastBuffer (ne_minValue _), ha, hb, hresult]
    · rfl
    · rw [hresult]
      exact exactResult_gt hop (by omega)

end Report

/-! ## Exact results

The statement is about all strings that consist of two numbers and an operator between them, however
many digits they have. -/

/-- **When nothing is wrong.**  On `a op b`, the numbers that are printed are those denoted by the
digits and the exact result, and nothing overflows, exactly if both are numbers of 32 bits and so
is their sum or product. -/
theorem calc_exact_iff {a b : List UInt8} {op : UInt8} (ha : ∀ x ∈ a, isDigit x = true)
    (hb : ∀ x ∈ b, isDigit x = true) (hop : isOperator op = true) (expr : CString)
    (hexpr : expr.bytes = a ++ 32 :: op :: 32 :: b) {mem : ℕ → UInt8}
    (hmem : ∀ j ≤ expr.length, mem j = expr.mem j) :
    ((∀ format words, cmdCalc mem = some [.printf format words] → ∀ memory leastBuffer,
        printfText memory leastBuffer format words
          = (.returned, exactReport op (digitsValue a) (digitsValue b))) ∧
      ∀ o ∈ calcOps mem, o.Fits) ↔
    digitsValue a < 2 ^ 31 ∧ digitsValue b < 2 ^ 31 ∧
      (op = 43 → digitsValue a + digitsValue b < 2 ^ 31) ∧
      (op = 42 → digitsValue a * digitsValue b < 2 ^ 31) := by
  have htext := textAt_mem hmem
  have hparts : calcParts expr.bytes = some (a, op, b, []) := by
    have happend := calcParts_append (a := 0) (b := 1) (c := 1) (d := 0) ha hb hop
    rw [List.replicate_zero, List.append_nil] at happend
    rw [hexpr]
    exact happend
  rw [calcOps_fit_iff htext expr.fits hparts, cmdCalc_some htext expr.fits hparts]
  constructor
  · rintro ⟨-, hlta, hltb, hops⟩
    exact ⟨hlta, hltb,
      (resultOps_fit_iff hop (calcNumber_toInt hlta) (calcNumber_toInt hltb)).mp hops⟩
  · rintro ⟨hlta, hltb, hrange⟩
    have hnum1 := calcNumber_toInt hlta
    have hnum2 := calcNumber_toInt hltb
    refine ⟨?_, hlta, hltb, (resultOps_fit_iff hop hnum1 hnum2).mpr hrange⟩
    intro format words hcalls memory leastBuffer
    exact report_exact hop hnum1 hnum2 hrange hcalls memory leastBuffer

/-- `15 + 27`. -/
def usageSum : CString := CString.ofLiterals ["15 + 27"] (by decide)

theorem calc_exact_usageSum : (∀ format words,
    cmdCalc usageSum.mem = some [.printf format words] → ∀ memory leastBuffer,
      printfText memory leastBuffer format words
        = (.returned, exactReport 43 (digitsValue [49, 53]) (digitsValue [50, 55]))) ∧
    ∀ o ∈ calcOps usageSum.mem, o.Fits :=
  (calc_exact_iff (List.all_eq_true.mp rfl) (List.all_eq_true.mp rfl) rfl usageSum rfl
    fun _ _ => rfl).mpr
    ⟨by decide, by decide, fun _ => by decide, fun h => absurd h (by decide)⟩

/-- `65536 * 65536`. -/
def largeProduct : CString := CString.ofLiterals ["65536 * 65536"] (by decide)

/-- The digits of its two numbers. -/
def largeDigits : List UInt8 := textBytes "65536"

/-- The product of the two numbers. -/
lemma not_fits_largeProduct : ¬ (IntOp.mul 65536 65536).Fits := by
  have hnumber : (65536 : Int32).toInt = 65536 := rfl
  rw [IntOp.fits_mul, hnumber, InRange]
  omega

lemma digitsValue_largeDigits : digitsValue largeDigits = 65536 := by decide

lemma decimal_largeDigits : decimal 65536 = largeDigits := by
  norm_num [decimal, numeral, asciiDigit]
  decide

/-- The product on the integers, and its numeral. -/
lemma exactReport_largeDigits :
    exactReport 42 (digitsValue largeDigits) (digitsValue largeDigits)
      = reportText largeDigits 42 largeDigits (textBytes "4294967296") := by
  have hproduct : decimal 4294967296 = textBytes "4294967296" := by
    norm_num [decimal, numeral, asciiDigit]
    decide
  have hexact : exactResult 42 65536 65536 = 4294967296 := rfl
  rw [digitsValue_largeDigits, exactReport, Nat.cast_ofNat, decimal_largeDigits, hexact, hproduct]

/-- Both numbers fit, but the product does not: where operations wrap around it is 0, and
`65536 * 65536 = 0` is printed. -/
theorem large_product_wrong : (∃ o ∈ calcOps largeProduct.mem, ¬ o.Fits) ∧
    ∃ format words, cmdCalc largeProduct.mem = some [.printf format words] ∧
      ∀ memory leastBuffer, printfText memory leastBuffer format words
          = (.returned, reportText largeDigits 42 largeDigits [48]) ∧
        printfText memory leastBuffer format words ≠
          (.returned, exactReport 42 (digitsValue largeDigits) (digitsValue largeDigits)) := by
  have hparts : calcParts largeProduct.bytes = some (largeDigits, 42, largeDigits, []) := by decide
  have htext := textAt_mem (s := largeProduct) fun _ _ => rfl
  have hnumber : calcNumber largeDigits = 65536 := by decide
  constructor
  · by_contra hall
    push Not at hall
    have hops := ((calcOps_fit_iff htext largeProduct.fits hparts).mp hall).2.2
    rw [hnumber] at hops
    exact not_fits_largeProduct (hops _ List.mem_cons_self)
  · refine ⟨_, _, (cmdCalc_some htext largeProduct.fits hparts).trans rfl, ?_⟩
    intro memory leastBuffer
    have hleft : (decimalBuffer leastBuffer 65536).reverse = largeDigits := by
      rw [decimalBuffer_eq leastBuffer (by decide)]
      exact decimal_largeDigits
    have hright : (decimalBuffer leastBuffer (65536 * 65536)).reverse = [48] := by
      rw [decimalBuffer_eq leastBuffer (by decide)]
      rfl
    rw [hnumber, printed_report, hleft, hright, exactReport_largeDigits]
    refine ⟨rfl, fun hsame => ?_⟩
    exact absurd (Prod.mk.inj hsame).2 (by decide)

end SzymOS
