import Mathlib.Tactic.Common
import Mathlib.Algebra.Order.Ring.Int

/-!
# Signed operations of 32 bits

An operation on two's complement numbers computes the exact result whenever that result is a number
of 32 bits.  An `IntOp` is one such operation with its operands, so that a computation can be
followed as the list of the operations that it executes.

In C an overflow of a signed operation has no meaning, and a compiler may assume that it does not
happen.  So a program with such operations is correct only as far as its operations fit, and a proof
that computes with words that wrap around proves something about another program.  The list of the
operations of a computation is the means to state it: the computation is the one the source
describes exactly as long as every operation on the list fits, and then its result can be computed
with integers.

* `IntOp.Fits` — the operation does not overflow.
* `IntOp.toInt_value` — then what is computed is exact.
-/

set_option autoImplicit false

namespace Signed

/-- The numbers of 32 bits. -/
def InRange (n : ℤ) : Prop := -2 ^ 31 ≤ n ∧ n < 2 ^ 31

instance (n : ℤ) : Decidable (InRange n) := inferInstanceAs (Decidable (_ ∧ _))

inductive IntOp where
  | add (x y : Int32)
  | sub (x y : Int32)
  | mul (x y : Int32)
  | div (x y : Int32)
  | rem (x y : Int32)
  | neg (x : Int32)
  deriving DecidableEq

namespace IntOp

/-- What is computed in 32 bits. -/
def value : IntOp → Int32
  | add x y => x + y
  | sub x y => x - y
  | mul x y => x * y
  | div x y => x / y
  | rem x y => x % y
  | neg x => -x

/-- The result on the integers. -/
def exact : IntOp → ℤ
  | add x y => x.toInt + y.toInt
  | sub x y => x.toInt - y.toInt
  | mul x y => x.toInt * y.toInt
  | div x y => x.toInt.tdiv y.toInt
  | rem x y => x.toInt.tmod y.toInt
  | neg x => -x.toInt

/-- It does not overflow.  A remainder is defined where the quotient is. -/
def Fits : IntOp → Prop
  | add x y => InRange (x.toInt + y.toInt)
  | sub x y => InRange (x.toInt - y.toInt)
  | mul x y => InRange (x.toInt * y.toInt)
  | div x y => y ≠ 0 ∧ InRange (x.toInt.tdiv y.toInt)
  | rem x y => y ≠ 0 ∧ InRange (x.toInt.tdiv y.toInt)
  | neg x => InRange (-x.toInt)

variable {x y : Int32}

lemma fits_add : (add x y).Fits ↔ InRange (x.toInt + y.toInt) := Iff.rfl

lemma fits_sub : (sub x y).Fits ↔ InRange (x.toInt - y.toInt) := Iff.rfl

lemma fits_mul : (mul x y).Fits ↔ InRange (x.toInt * y.toInt) := Iff.rfl

lemma fits_neg : (neg x).Fits ↔ InRange (-x.toInt) := Iff.rfl

lemma bmod_of_inRange {n : ℤ} (h : InRange n) : n.bmod (2 ^ 32) = n :=
  Int.bmod_eq_of_le (by have := h.1; omega) (by have := h.2; omega)

/-- **An operation that does not overflow is exact.** -/
theorem toInt_value {op : IntOp} (h : op.Fits) : op.value.toInt = op.exact := by
  cases op with
  | add x y => exact (Int32.toInt_add x y).trans (bmod_of_inRange h)
  | sub x y => exact (Int32.toInt_sub x y).trans (bmod_of_inRange h)
  | mul x y => exact (Int32.toInt_mul x y).trans (bmod_of_inRange h)
  | div x y => exact (Int32.toInt_div x y).trans (bmod_of_inRange h.2)
  | rem x y => exact Int32.toInt_mod x y
  | neg x => exact (Int32.toInt_neg x).trans (bmod_of_inRange h)

end IntOp

/-- A number in range, kept in 32 bits. -/
lemma toInt_ofNat {n : ℕ} (h : n < 2 ^ 31) : (Int32.ofNat n).toInt = n := by
  rw [← Int32.ofInt_eq_ofNat, Int32.toInt_ofInt]
  exact IntOp.bmod_of_inRange ⟨by omega, by exact_mod_cast h⟩

/-- Numbers that are not negative can be divided. -/
lemma IntOp.fits_div {x y : Int32} (hx : 0 ≤ x.toInt) (hy : 0 < y.toInt) : (div x y).Fits := by
  have hlt := x.toInt_lt
  have hne : y ≠ 0 := by
    rintro rfl
    exact absurd hy (by decide)
  have hpos : 0 ≤ x.toInt.tdiv y.toInt := Int.tdiv_nonneg hx (Int.le_of_lt hy)
  have hle : (x.toInt.tdiv y.toInt).natAbs ≤ x.toInt.natAbs := by
    rw [Int.natAbs_tdiv]
    exact Nat.div_le_self _ _
  exact ⟨hne, by omega, by omega⟩

/-- A number that is not negative is in range below `2 ^ 31`. -/
lemma inRange_natCast {n : ℕ} : InRange (n : ℤ) ↔ n < 2 ^ 31 := by
  rw [InRange]
  omega

end Signed
