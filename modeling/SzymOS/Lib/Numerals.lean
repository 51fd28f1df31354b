import Mathlib.Data.Nat.Digits.Lemmas
import Mathlib.Tactic.Common

/-!
# Numerals

The numeral of a number in a base, as characters, the most significant digit first; and the loop
`while (n > 0) { store(n % base); n /= base; }`, which finds the digits in the other order.

A numeral is specified without the loop: its characters are digits, it has no leading zero, and read
as a polynomial in the base it has the value it stands for.  There is only one such text for each
number, so that a program which prints it has printed the number, and not merely something that can
be read as it.

The loop produces the digits from the other end, and it works on whatever type the program computes
with.  So there are two steps between the loop and the specification: the loop is the one on natural
numbers (`eq_map_digitLoop`), and that one is the list of digits (`digitLoop_eq`).

* `digitLoop_eq` — the loop finds the digits, if it has the time.
* `eq_map_digitLoop` — other loops that are this one.
* `valueFrom_le` — the value of a numeral is at least that of each of its beginnings.
* `canonical_numeral` — the numeral of `n` has no leading zero, and its value is `n`.
* `digitLoop_length_le` — how many digits the loop finds.
-/

set_option autoImplicit false

namespace Numerals

variable {α : Type*}

/-- The numeral of `n`, with `digit d` for the digit `d`. -/
def numeral (base : ℕ) (digit : ℕ → α) (n : ℕ) : List α :=
  if n = 0 then [digit 0] else ((Nat.digits base n).map digit).reverse

/-- The loop, on the number alone. -/
def digitLoop (base : ℕ) : (fuel n : ℕ) → List ℕ
  | 0, _ => []
  | fuel + 1, n => if n = 0 then [] else n % base :: digitLoop base fuel (n / base)

/-- **The loop finds the digits**, one in every step. -/
theorem digitLoop_eq {base : ℕ} (hbase : 1 < base) {fuel n : ℕ} (hfuel : n < base ^ fuel) :
    digitLoop base fuel n = Nat.digits base n := by
  induction fuel generalizing n with
  | zero =>
      have hn : n = 0 := by simpa using hfuel
      rw [hn, Nat.digits_zero]
      rfl
  | succ fuel ih =>
      rw [digitLoop]
      split_ifs with hn
      · rw [hn, Nat.digits_zero]
      · have hquot : n / base < base ^ fuel := by
          rw [Nat.div_lt_iff_lt_mul (by omega)]
          rwa [Nat.pow_succ] at hfuel
        rw [ih hquot, Nat.digits_def' hbase (Nat.pos_of_ne_zero hn)]

/-- **Loops over other numbers.**  A loop over `β` that stores the digits of `num x`, by steps that
keep `Valid`, is this loop. -/
theorem eq_map_digitLoop {β : Type*} {base : ℕ} {char : ℕ → α} {loop : ℕ → β → List α}
    (num : β → ℕ) (Valid : β → Prop) (next : β → β) (hstart : ∀ x, loop 0 x = [])
    (hstep : ∀ fuel x, Valid x → loop (fuel + 1) x
      = if num x = 0 then [] else char (num x % base) :: loop fuel (next x))
    (hnext : ∀ x, Valid x → Valid (next x) ∧ num (next x) = num x / base) (fuel : ℕ) {x : β}
    (hx : Valid x) : loop fuel x = (digitLoop base fuel (num x)).map char := by
  induction fuel generalizing x with
  | zero => exact hstart x
  | succ fuel ih =>
      obtain ⟨hvalid, hquot⟩ := hnext x hx
      rw [hstep fuel x hx, digitLoop]
      split_ifs
      · rfl
      · rw [List.map_cons, ih hvalid, hquot]

/-! ## The value of a numeral

Reading a numeral is a fold from the left.  It is stated with a start value, since this is how loops
read digits, and how one splits a numeral in two. -/

/-- What the characters denote after `n`: one digit more multiplies by the base. -/
def valueFrom (base : ℕ) (digit : α → ℕ) (n : ℕ) (text : List α) : ℕ :=
  text.foldl (fun n c => n * base + digit c) n

def value (base : ℕ) (digit : α → ℕ) (text : List α) : ℕ := valueFrom base digit 0 text

variable {base : ℕ} {digit : α → ℕ}

@[simp] lemma valueFrom_cons (n : ℕ) (c : α) (text : List α) :
    valueFrom base digit n (c :: text) = valueFrom base digit (n * base + digit c) text := rfl

/-- More digits do not make it smaller. -/
lemma valueFrom_le (hbase : 0 < base) (n : ℕ) (text : List α) :
    n ≤ valueFrom base digit n text := by
  induction text generalizing n with
  | nil => exact Nat.le_refl n
  | cons c text ih =>
      have hstep : n ≤ n * base + digit c :=
        Nat.le_trans (Nat.le_mul_of_pos_right n hbase) (Nat.le_add_right _ _)
      exact Nat.le_trans hstep (ih _)

/-! ## The numeral of a number

The digits of Mathlib are those of the loop, least significant first; reversed and mapped to
characters they are the numeral.  That its value is the number is the polynomial identity, and that
it has no leading zero is that the last digit of a number is not zero. -/

/-- The text is what is written for `n`: digits, the first of them 0 only if there is no other, of
value `n`. -/
structure Canonical (base : ℕ) (char : ℕ → α) (digit : α → ℕ) (text : List α) (n : ℕ) : Prop where
  digits : ∀ c ∈ text, ∃ d < base, c = char d
  nonempty : text ≠ []
  leading : text.head? = some (char 0) → text = [char 0]
  denotes : value base digit text = n

variable {char : ℕ → α}

/-- The least significant digit first, it is a polynomial. -/
lemma value_reverse (hdigit : ∀ d < base, digit (char d) = d) {ds : List ℕ}
    (hds : ∀ d ∈ ds, d < base) :
    value base digit (ds.map char).reverse = Nat.ofDigits base ds := by
  rw [value, valueFrom, List.foldl_reverse]
  induction ds with
  | nil => rfl
  | cons d ds ih =>
      have hd := hdigit d (hds d List.mem_cons_self)
      rw [List.map_cons, List.foldr_cons, ih fun x hx => hds x (List.mem_cons_of_mem d hx), hd,
        Nat.ofDigits_cons, Nat.mul_comm, Nat.add_comm]

/-- **The numeral is canonical**, if the characters of the digits are read back as these. -/
theorem canonical_numeral (hbase : 1 < base) (hdigit : ∀ d < base, digit (char d) = d) (n : ℕ) :
    Canonical base char digit (numeral base char n) n := by
  have hzero : digit (char 0) = 0 := hdigit 0 (Nat.zero_lt_of_lt hbase)
  rw [numeral]
  split_ifs with hn
  · refine ⟨fun c hc => ⟨0, Nat.zero_lt_of_lt hbase, List.mem_singleton.mp hc⟩,
      List.cons_ne_nil _ _, fun _ => rfl, ?_⟩
    rw [hn, value, valueFrom_cons, hzero, Nat.zero_mul]
    rfl
  · have hlt : ∀ d ∈ Nat.digits base n, d < base := fun d hd => Nat.digits_lt_base hbase hd
    have hne : Nat.digits base n ≠ [] := Nat.digits_ne_nil_iff_ne_zero.mpr hn
    refine ⟨?_, by simpa using hne, ?_, ?_⟩
    · intro c hc
      rw [List.mem_reverse, List.mem_map] at hc
      obtain ⟨d, hd, rfl⟩ := hc
      exact ⟨d, hlt d hd, rfl⟩
    · -- the first character is that of the last digit, which is not 0
      intro hhead
      rw [List.head?_reverse, List.getLast?_map, List.getLast?_eq_getLast_of_ne_nil hne,
        Option.map_some, Option.some_inj] at hhead
      have hlast := hdigit _ (hlt _ (List.getLast_mem hne))
      rw [hhead, hzero] at hlast
      exact absurd hlast.symm (Nat.getLast_digit_ne_zero base hn)
    · rw [value_reverse hdigit hlt, Nat.ofDigits_digits]

/-- A number below the `k`-th power of the base has at most `k` digits. -/
lemma digitLoop_length_le (hbase : 1 < base) {fuel k n : ℕ} (hn : n < base ^ k) (hk : k ≤ fuel) :
    (digitLoop base fuel n).length ≤ k := by
  have hfuel : n < base ^ fuel :=
    Nat.lt_of_lt_of_le hn (Nat.pow_le_pow_right (Nat.zero_lt_of_lt hbase) hk)
  rw [digitLoop_eq hbase hfuel]
  exact (Nat.digits_length_le_iff hbase n).mpr hn

end Numerals
