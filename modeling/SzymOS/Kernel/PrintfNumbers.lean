import SzymOS.Kernel.Printf
import SzymOS.Lib.Signed

/-!
# Numbers on the screen

`%d` and `%x` write the digits of a number into a buffer, the last one first, and print the buffer
from its end.  A number below 0 is negated before.  The least one has no negation among the numbers
of 32 bits: `num = -num` is a signed operation that overflows, and from there on C does not say what
the program does.  One compiler leaves the number as it is, and then the loop finds no digit in it;
another one prints the numeral all the same.  The operations of `%d` are therefore listed
(`decimalOps`), and that each of them fits into 32 bits is part of printing a number.

For all other numbers the texts are compared with numerals as the library defines them, in both
directions: the digits are those of the number, and the number is found again when they are read.

* `hexText_eq` — what `%x` prints.
* `isDecimal_decimal`, `isHex_hexText` — these texts are numerals, and are read back.
* `decimalOps_fit` — what `%d` executes does not overflow, unless the number is the least.
* `prints_numbers_iff` — `%d` is right about every number but the least, `%x` about all.
-/

set_option autoImplicit false

namespace SzymOS

open Numerals Signed

/-! ## The digits of `%x`

A word is not negative and is divided by 16, so nothing can go wrong here.  The digits above 9 are
capital letters. -/

/-- The character of a hexadecimal digit. -/
def hexDigit (d : ℕ) : UInt8 := UInt8.ofNat (if d < 10 then 48 + d else 65 + d - 10)

lemma hexDigit_eq (num : UInt32) :
    (if num % 16 < 10 then 48 + num % 16 else 65 + num % 16 - 10).toUInt8
      = hexDigit (num.toNat % 16) := by
  have hall : ∀ d < 16, (if UInt32.ofNat d < 10 then 48 + UInt32.ofNat d
      else 65 + UInt32.ofNat d - 10).toUInt8 = hexDigit d := by decide
  have hmod : num % 16 = UInt32.ofNat (num.toNat % 16) := by
    rw [← UInt32.toNat_inj, UInt32.toNat_mod, UInt32.toNat_ofNat']
    have hlt : num.toNat % 16 < 16 := Nat.mod_lt _ (by decide)
    exact (Nat.mod_eq_of_lt (Nat.lt_trans hlt (by decide))).symm
  rw [hmod]
  exact hall _ (Nat.mod_lt _ (by decide))

/-- **The loop of `%x`** finds the digits. -/
lemma hexDigits_eq (fuel : ℕ) (num : UInt32) :
    hexDigits fuel num = (digitLoop 16 fuel num.toNat).map hexDigit := by
  refine eq_map_digitLoop UInt32.toNat (fun _ => True) (· / 16) ?_ ?_ ?_ fuel trivial
  · exact fun _ => rfl
  · rintro fuel num -
    have hpos : num > 0 ↔ ¬ num.toNat = 0 := by
      rw [gt_iff_lt, UInt32.lt_iff_toNat_lt]
      exact Nat.pos_iff_ne_zero
    rw [hexDigits]
    simp only [hexDigit_eq, hpos, ite_not]
  · rintro num -
    exact ⟨trivial, UInt32.toNat_div num 16⟩

/-- **What `%x` prints.** -/
theorem hexText_eq (num : UInt32) :
    hexText num = textBytes "0x" ++ numeral 16 hexDigit num.toNat := by
  have hzero : num = 0 ↔ num.toNat = 0 := UInt32.toNat_inj.symm
  have hfuel : num.toNat < 16 ^ 32 := Nat.lt_trans num.toNat_lt (by decide)
  rw [hexText, numeral]
  by_cases hnum : num = 0
  · rw [if_pos hnum, if_pos (hzero.mp hnum)]
    rfl
  · rw [if_neg hnum, if_neg (mt hzero.mpr hnum), hexDigits_eq, digitLoop_eq (by decide) hfuel]

/-! ## Numerals

A numeral is canonical if it has no zero in front, the numeral of zero apart.  With the value that
is read back, this determines the text. -/

/-- The digit of a decimal character. -/
def decimalDigitOf (c : UInt8) : ℕ := c.toNat - 48

/-- The digit of a hexadecimal character. -/
def hexDigitOf (c : UInt8) : ℕ := if c < 65 then c.toNat - 48 else c.toNat - 55

/-- The integer that a decimal text denotes. -/
def decimalValue (text : List UInt8) : ℤ :=
  if text.head? = some 45 then -(value 10 decimalDigitOf text.tail : ℤ)
  else value 10 decimalDigitOf text

/-- The text is the canonical decimal numeral of `n`: a minus sign exactly of a negative number,
then the numeral of its absolute value. -/
structure IsDecimal (text : List UInt8) (n : ℤ) : Prop where
  sign : text.head? = some 45 ↔ n < 0
  digits : Canonical 10 asciiDigit decimalDigitOf
    (if text.head? = some 45 then text.tail else text) n.natAbs
  parses : decimalValue text = n

/-- The text is `0x` and the canonical hexadecimal numeral of `n`, in capital letters. -/
def IsHex (text : List UInt8) (n : ℕ) : Prop :=
  ∃ digits, text = textBytes "0x" ++ digits ∧ Canonical 16 hexDigit hexDigitOf digits n

lemma decimalDigitOf_asciiDigit : ∀ d < 10, decimalDigitOf (asciiDigit d) = d := by decide

lemma hexDigitOf_hexDigit : ∀ d < 16, hexDigitOf (hexDigit d) = d := by decide

lemma canonical_decimal (n : ℕ) :
    Canonical 10 asciiDigit decimalDigitOf (numeral 10 asciiDigit n) n :=
  canonical_numeral (by decide) decimalDigitOf_asciiDigit n

/-- A numeral does not begin with a minus sign. -/
lemma head_numeral_ne (n : ℕ) : (numeral 10 asciiDigit n).head? ≠ some 45 := by
  intro hhead
  obtain ⟨d, hd, hminus⟩ := (canonical_decimal n).digits 45 (List.mem_of_mem_head? hhead)
  have hall : ∀ d < 10, (45 : UInt8) ≠ asciiDigit d := by decide
  exact hall d hd hminus

theorem isDecimal_decimal (n : ℤ) : IsDecimal (decimal n) n := by
  have hcanonical := canonical_decimal n.natAbs
  rw [decimal]
  split_ifs with hn
  · refine ⟨⟨fun _ => hn, fun _ => rfl⟩, hcanonical, ?_⟩
    rw [decimalValue, if_pos (List.head?_cons), List.tail_cons, hcanonical.denotes]
    omega
  · have hhead := head_numeral_ne n.natAbs
    refine ⟨⟨fun h => absurd h hhead, fun h => absurd h hn⟩, ?_, ?_⟩
    · rw [if_neg hhead]
      exact hcanonical
    · rw [decimalValue, if_neg hhead, hcanonical.denotes]
      omega

theorem isHex_hexText (num : UInt32) : IsHex (hexText num) num.toNat :=
  ⟨_, hexText_eq num, canonical_numeral (by decide) hexDigitOf_hexDigit num.toNat⟩

/-! ## The operations of `%d`

In the order of the source: the negation if the number is below 0, and three operations for each
digit. -/

/-- `num % 10`, `'0' + ...` and `num /= 10`, while the number is positive. -/
def decimalDigitsOps : (fuel : ℕ) → Int32 → List IntOp
  | 0, _ => []
  | fuel + 1, num =>
      if num > 0 then
        [.rem num 10, .add 48 (num % 10), .div num 10] ++ decimalDigitsOps fuel (num / 10)
      else []

/-- What `%d` does. -/
def decimalOps (num : Int32) : List IntOp :=
  if num < 0 then .neg num :: decimalDigitsOps 32 (-num) else decimalDigitsOps 32 num

lemma decimalDigitsOps_fit {num : Int32} (h : 0 ≤ num.toInt) (fuel : ℕ) :
    ∀ o ∈ decimalDigitsOps fuel num, o.Fits := by
  induction fuel generalizing num with
  | zero => exact fun o ho => absurd ho List.not_mem_nil
  | succ fuel ih =>
      rw [decimalDigitsOps]
      split_ifs with hpos
      · have hten : (10 : Int32).toInt = 10 := rfl
        have hascii : (48 : Int32).toInt = 48 := rfl
        have hdiv : (IntOp.div num 10).Fits := IntOp.fits_div h (by decide)
        have hquot : (num / 10).toInt = num.toInt.tdiv 10 := IntOp.toInt_value hdiv
        have hnext : 0 ≤ (num / 10).toInt := by
          rw [hquot]
          exact Int.tdiv_nonneg h (by decide)
        have hrem : 0 ≤ num.toInt.tmod 10 ∧ num.toInt.tmod 10 < 10 := by
          rw [Int.tmod_eq_emod_of_nonneg h]
          omega
        rw [List.forall_mem_append]
        refine ⟨?_, ih hnext⟩
        simp only [List.forall_mem_cons, List.not_mem_nil, false_implies, implies_true, and_true]
        refine ⟨hdiv, ?_, hdiv⟩
        rw [IntOp.fits_add, Int32.toInt_mod, hten, hascii, InRange]
        omega
      · exact fun o ho => absurd ho List.not_mem_nil

/-- **`%d` overflows** on no number but the least. -/
lemma decimalOps_fit {num : Int32} (h : num ≠ Int32.minValue) : ∀ o ∈ decimalOps num, o.Fits := by
  have hle := num.le_toInt
  have hmin : num.toInt ≠ -2 ^ 31 := by
    rw [← Int32.toInt_minValue, ne_eq, Int32.toInt_inj]
    exact h
  have hneg : num < 0 ↔ num.toInt < 0 := by rw [Int32.lt_iff_toInt_lt, Int32.toInt_zero]
  rw [decimalOps]
  split_ifs with hnum
  · rw [hneg] at hnum
    have hfit : (IntOp.neg num).Fits := by
      rw [IntOp.fits_neg, InRange]
      omega
    have hopp : (-num).toInt = -num.toInt := IntOp.toInt_value hfit
    rw [List.forall_mem_cons]
    exact ⟨hfit, decimalDigitsOps_fit (by omega) 32⟩
  · exact decimalDigitsOps_fit (by rw [hneg] at hnum; omega) 32

/-! ## The buffers

The arrays have room for 12 characters and for 9.  The largest numbers have ten digits and a sign,
and eight digits. -/

lemma decimalDigits_length_le (num : Int32) : (decimalDigits 32 num).length ≤ 10 := by
  rcases Int.lt_or_le num.toInt 0 with hneg | hpos
  · -- the loop does not begin
    have hstop : ¬ num > 0 := by
      rw [gt_iff_lt, Int32.lt_iff_toInt_lt, Int32.toInt_zero]
      omega
    rw [decimalDigits, if_neg hstop]
    exact Nat.zero_le 10
  · have hlt := num.toInt_lt
    rw [decimalDigits_eq hpos, List.length_map]
    exact digitLoop_length_le (by decide) (by omega) (by decide)

/-- Ten digits and the sign. -/
theorem decimalBuffer_length_le (leastBuffer : List UInt8) {num : Int32}
    (h : num ≠ Int32.minValue) : (decimalBuffer leastBuffer num).length ≤ 11 := by
  have hdigits (num : Int32) : (if num = 0 then [48] else decimalDigits 32 num).length ≤ 10 := by
    split_ifs
    · exact Nat.le_of_ble_eq_true rfl
    · exact decimalDigits_length_le num
  rw [decimalBuffer, if_neg h]
  by_cases hneg : num < 0
  · simp only [if_pos hneg, List.length_append]
    exact Nat.add_le_add_right (hdigits (-num)) 1
  · simp only [if_neg hneg]
    exact Nat.le_succ_of_le (hdigits num)

theorem hexDigits_length_le (num : UInt32) : (hexDigits 32 num).length ≤ 8 := by
  have hlt := num.toNat_lt
  rw [hexDigits_eq, List.length_map]
  exact digitLoop_length_le (by decide) (by omega) (by decide)

/-! ## The result

A number that is printed faithfully is negated without an overflow, is printed as its numeral, and
leaves its buffer alone behind the end.  The least number fails the first of these. -/

/-- The argument at place `i` as `%d` prints it, and that at place `j` as `%x` does: no signed
operation overflows, the texts are canonical numerals of these numbers, and no character is behind
`buffer[12]` and `buffer[9]`. -/
structure PrintsNumbers (args : VarArgs) (i j : ℕ) : Prop where
  defined : ∀ o ∈ decimalOps (args.word i).toInt32, o.Fits
  decimal : IsDecimal (directive args 100 i).1 (args.word i).toInt32.toInt
  hex : IsHex (directive args 120 j).1 (args.word j).toNat
  decimalFits : (decimalBuffer args.leastBuffer (args.word i).toInt32).length ≤ 12
  hexFits : (hexDigits 32 (args.word j)).length ≤ 9

/-- `num = -num` on the least number. -/
lemma neg_mem_decimalOps : IntOp.neg Int32.minValue ∈ decimalOps Int32.minValue := by
  rw [decimalOps, if_pos (by decide)]
  exact List.mem_cons_self

lemma not_fits_neg_minValue : ¬ (IntOp.neg Int32.minValue).Fits := by
  rw [IntOp.fits_neg, Int32.toInt_minValue]
  decide

/-- **Every number is printed faithfully, the least excepted.** -/
theorem prints_numbers_iff (args : VarArgs) (i j : ℕ) :
    PrintsNumbers args i j ↔ (args.word i).toInt32 ≠ Int32.minValue := by
  constructor
  · rintro ⟨hdefined, -, -, -, -⟩ hleast
    rw [hleast] at hdefined
    exact not_fits_neg_minValue (hdefined _ neg_mem_decimalOps)
  · intro hleast
    have hprinted : (directive args 100 i).1
        = (decimalBuffer args.leastBuffer (args.word i).toInt32).reverse := rfl
    refine ⟨decimalOps_fit hleast, ?_, isHex_hexText _, ?_, ?_⟩
    · rw [hprinted, decimalBuffer_eq args.leastBuffer hleast]
      exact isDecimal_decimal _
    · exact Nat.le_succ_of_le (decimalBuffer_length_le args.leastBuffer hleast)
    · exact Nat.le_succ_of_le (hexDigits_length_le _)

/-- The least number among the arguments, and a program that prints its numeral. -/
def leastArgs : VarArgs where
  word _ := 0x80000000
  memory _ _ := 0
  leastBuffer := (decimal (-2147483648)).reverse

/-- `-2147483648` is negated, which overflows, whatever is printed in the end. -/
theorem least_number_overflows :
    (leastArgs.word 0).toInt32.toInt = -2147483648 ∧
      IntOp.neg (leastArgs.word 0).toInt32 ∈ decimalOps (leastArgs.word 0).toInt32 ∧
      ¬ (IntOp.neg (leastArgs.word 0).toInt32).Fits ∧ ¬ PrintsNumbers leastArgs 0 0 :=
  ⟨rfl, neg_mem_decimalOps, not_fits_neg_minValue,
    fun h => not_fits_neg_minValue (h.defined _ neg_mem_decimalOps)⟩

end SzymOS
