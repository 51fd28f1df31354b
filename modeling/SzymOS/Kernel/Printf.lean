import SzymOS.Kernel.Screen
import SzymOS.Kernel.Machine
import SzymOS.Lib.Numerals
import SzymOS.Lib.Scan

/-!
# `terminal_printf`

All that `terminal_printf` prints goes to `terminal_putchar` one character at a time, so it is
modelled by these characters (`printfFrom`).  The format is memory: the scan goes on behind a `%`
that ends the string.  The arguments are the words of the argument list, of which `%s` takes one
for an address.

A format that ends in a lone `%` has no end where the scan looks for one, and what is printed
depends on the bytes behind it.  So the scan has as many steps as there are addresses, and says
whether it has come to its end.

The argument list is a function from places to words.  What a program prints for the least number is
left open by C, and is given with the arguments.

* `decimalBuffer_eq` — `%d` prints the decimal numeral of every number but the least.
* `printfFrom_text` — what is printed for a format that does not end in a lone `%`.
-/

set_option autoImplicit false

namespace SzymOS

open Scan Numerals

/-! ## Numbers

The digits are found from the last to the first, and printed from the end of the buffer.  The
numeral that they are compared with is the one of Lib, which knows nothing of a buffer. -/

/-- `while (num > 0) { buffer[i++] = '0' + (num % 10); num /= 10; }`: the characters in the order in
which they are stored.  A positive number of 32 bits is 0 after at most ten divisions. -/
def decimalDigits : (fuel : ℕ) → Int32 → List UInt8
  | 0, _ => []
  | fuel + 1, num =>
      if num > 0 then (48 + num % 10).toUInt32.toUInt8 :: decimalDigits fuel (num / 10) else []

/-- What `%d` leaves in its buffer, the first element first.  `num = -num` overflows for the least
number, which is undefined: the buffer then holds whatever the compiled program leaves in it. -/
def decimalBuffer (leastBuffer : List UInt8) (num : Int32) : List UInt8 :=
  if num = Int32.minValue then leastBuffer
  else
    let isNegative := num < 0
    let num := if num < 0 then -num else num
    let buffer := if num = 0 then [48] else decimalDigits 32 num
    if isNegative then buffer ++ [45] else buffer

/-- The character of a decimal digit. -/
def asciiDigit (d : ℕ) : UInt8 := UInt8.ofNat (48 + d)

/-- The decimal numeral of an integer. -/
def decimal (n : ℤ) : List UInt8 :=
  if n < 0 then 45 :: numeral 10 asciiDigit n.natAbs else numeral 10 asciiDigit n.natAbs

/-- One step of the loop, on a number that is not negative. -/
lemma decimalDigit_eq {num : Int32} (h : 0 ≤ num.toInt) :
    (48 + num % 10).toUInt32.toUInt8 = asciiDigit (num.toInt.toNat % 10) ∧
      (num / 10).toInt = (num.toInt.toNat / 10 : ℕ) := by
  have hlt := num.toInt_lt
  have hten : (10 : Int32).toInt = 10 := rfl
  have hmod : (num % 10).toInt = (num.toInt.toNat % 10 : ℕ) := by
    rw [Int32.toInt_mod, hten, Int.tmod_eq_emod_of_nonneg h]
    omega
  have hchar : (48 + num % 10).toInt = 48 + (num.toInt.toNat % 10 : ℕ) := by
    have hascii : (48 : Int32).toInt = 48 := rfl
    rw [Int32.toInt_add, hmod, hascii]
    exact Int.bmod_eq_of_le (by omega) (by omega)
  constructor
  · refine UInt8.toNat_inj.mp ?_
    have hpos : (0 : Int32) ≤ 48 + num % 10 := by
      rw [Int32.le_iff_toInt_le, hchar]
      exact Int.natCast_nonneg (48 + num.toInt.toNat % 10)
    rw [UInt32.toNat_toUInt8, Int32.toNat_toUInt32_of_le hpos, ← Int32.toNat_toInt, hchar,
      asciiDigit, UInt8.toNat_ofNat']
    omega
  · have hne : num ≠ Int32.minValue := by
      intro hmin
      rw [hmin, Int32.toInt_minValue] at h
      exact absurd h (by decide)
    rw [Int32.toInt_div_of_ne_left _ _ hne, hten, Int.tdiv_eq_ediv_of_nonneg h]
    omega

/-- **The loop of `%d`** finds the digits. -/
lemma decimalDigits_eq {num : Int32} (h : 0 ≤ num.toInt) (fuel : ℕ) :
    decimalDigits fuel num = (digitLoop 10 fuel num.toInt.toNat).map asciiDigit := by
  refine eq_map_digitLoop (fun num : Int32 => num.toInt.toNat) (fun num => 0 ≤ num.toInt) (· / 10)
    ?_ ?_ ?_ fuel h
  · exact fun _ => rfl
  · intro fuel num h
    have hpos : num > 0 ↔ ¬ num.toInt.toNat = 0 := by
      rw [gt_iff_lt, Int32.lt_iff_toInt_lt, Int32.toInt_zero]
      omega
    rw [decimalDigits, (decimalDigit_eq h).1]
    simp only [hpos, ite_not]
  · intro num h
    obtain ⟨-, hquot⟩ := decimalDigit_eq h
    rw [hquot, Int.toNat_natCast]
    exact ⟨Int.natCast_nonneg _, rfl⟩

/-- A number that is not negative, as `%d` prints it. -/
lemma decimalDigits_reverse {num : Int32} (h : 0 ≤ num.toInt) :
    (if num = 0 then [48] else decimalDigits 32 num).reverse
      = numeral 10 asciiDigit num.toInt.toNat := by
  have hlt := num.toInt_lt
  have hfuel : num.toInt.toNat < 10 ^ 32 :=
    Nat.lt_of_lt_of_le (m := 2 ^ 31) (by omega) (by decide)
  have hzero : num = 0 ↔ num.toInt.toNat = 0 := by
    rw [← Int32.toInt_inj, Int32.toInt_zero]
    omega
  rw [numeral]
  by_cases hnum : num = 0
  · rw [if_pos hnum, if_pos (hzero.mp hnum)]
    rfl
  · rw [if_neg hnum, if_neg (mt hzero.mpr hnum), decimalDigits_eq h,
      digitLoop_eq (by decide) hfuel]

/-- **What `%d` prints.**  Every number but the least, which cannot be negated. -/
theorem decimalBuffer_eq (leastBuffer : List UInt8) {num : Int32} (h : num ≠ Int32.minValue) :
    (decimalBuffer leastBuffer num).reverse = decimal num.toInt := by
  have hle := num.le_toInt
  have hlt := num.toInt_lt
  have hneg : num < 0 ↔ num.toInt < 0 := by rw [Int32.lt_iff_toInt_lt, Int32.toInt_zero]
  rw [decimalBuffer, if_neg h, decimal]
  by_cases hnum : num < 0
  · have hmin : num.toInt ≠ -2 ^ 31 := by
      rw [← Int32.toInt_minValue, ne_eq, Int32.toInt_inj]
      exact h
    have hopp : (-num).toInt = -num.toInt := by
      rw [Int32.toInt_neg]
      exact Int.bmod_eq_of_le (by omega) (by omega)
    have habs : (-num).toInt.toNat = num.toInt.natAbs := by
      rw [hneg] at hnum
      omega
    simp only [if_pos hnum, if_pos (hneg.mp hnum), List.reverse_append]
    rw [decimalDigits_reverse (by rw [hopp]; rw [hneg] at hnum; omega), habs]
    rfl
  · have hpos : 0 ≤ num.toInt := by
      rw [hneg] at hnum
      omega
    have habs : num.toInt.toNat = num.toInt.natAbs := by omega
    simp only [if_neg hnum, if_neg (mt hneg.mpr hnum)]
    rw [decimalDigits_reverse hpos, habs]

/-- `while (num > 0) { ... num /= 16; }` -/
def hexDigits : (fuel : ℕ) → UInt32 → List UInt8
  | 0, _ => []
  | fuel + 1, num =>
      if num > 0 then
        let digit := num % 16
        (if digit < 10 then 48 + digit else 65 + digit - 10).toUInt8 :: hexDigits fuel (num / 16)
      else []

/-- What `%x` prints. -/
def hexText (num : UInt32) : List UInt8 :=
  if num = 0 then textBytes "0x0" else textBytes "0x" ++ (hexDigits 32 num).reverse

/-! ## The scan

A step takes one character, or two when the first of them is a `%`.  The same is said of a list of
characters by recursion on it (`formatText`), and this is what is printed whenever the scan ends at
the NUL of the format. -/

/-- The arguments behind the format: the words of the list, and memory from an address on.  What the
program does where C leaves it open is given with them. -/
structure VarArgs where
  word : ℕ → UInt32
  memory : UInt32 → ℕ → UInt8
  leastBuffer : List UInt8

/-- What is printed for the character behind a `%`, and the place of the next argument. -/
def directive (args : VarArgs) (c : UInt8) (n : ℕ) : List UInt8 × ℕ :=
  if c = 115 then (stringAt (args.memory (args.word n)), n + 1)
  else if c = 100 then ((decimalBuffer args.leastBuffer (args.word n).toInt32).reverse, n + 1)
  else if c = 120 then (hexText (args.word n), n + 1)
  else if c = 99 then ([(args.word n).toUInt8], n + 1)
  else if c = 37 then ([37], n)
  else ([], n)

/-- The scan from place `p` of the format and argument `n` on: what is printed, and whether it comes
to an end.  It has not after `2 ^ 32` steps when there is no NUL where it looks for one. -/
def printfFrom (format : ℕ → UInt8) (args : VarArgs) : (fuel p n : ℕ) → Ending × List UInt8
  | 0, _, _ => (.halted, [])
  | fuel + 1, p, n =>
      if format p = 0 then (.returned, [])
      else if format p = 37 then
        let (text, n) := directive args (format (p + 1)) n
        let (ending, rest) := printfFrom format args fuel (p + 2) n
        (ending, text ++ rest)
      else
        let (ending, rest) := printfFrom format args fuel (p + 1) n
        (ending, format p :: rest)

/-- What is printed for a format, read as a list. -/
def formatText (args : VarArgs) : List UInt8 → (n : ℕ) → List UInt8
  | [], _ => []
  | [c], _ => if c = 37 then [] else [c]
  | c :: d :: rest, n =>
      if c = 37 then
        let (text, n) := directive args d n
        text ++ formatText args rest n
      else c :: formatText args (d :: rest) n

/-- Every `%` has a character behind it. -/
def Complete : List UInt8 → Prop
  | [] => True
  | [c] => c ≠ 37
  | c :: d :: rest => if c = 37 then Complete rest else Complete (d :: rest)

/-- **The scan of such a format** stops at its NUL, and prints what the format says. -/
theorem printfFrom_text {format : ℕ → UInt8} (args : VarArgs) {fuel p : ℕ} {text : List UInt8}
    (htext : TextAt format 0 p text) (hnul : 0 ∉ text) (hcomplete : Complete text)
    (hfuel : text.length < fuel) (n : ℕ) :
    printfFrom format args fuel p n = (.returned, formatText args text n) := by
  induction text, n using formatText.induct args generalizing fuel p with
  | case1 n =>
      obtain ⟨fuel, rfl⟩ := Nat.exists_eq_succ_of_ne_zero (Nat.ne_of_gt hfuel)
      have hend : format p = 0 := htext
      rw [printfFrom, if_pos hend]
      rfl
  | case2 n => exact absurd rfl hcomplete
  | case3 n c hc =>
      obtain ⟨fuel, rfl⟩ : ∃ m, fuel = m + 2 := Nat.exists_eq_add_of_le' hfuel
      obtain ⟨hfirst, hend⟩ := htext
      have hend : format (p + 1) = 0 := hend
      have hne : c ≠ 0 := fun h0 => hnul (by rw [h0]; exact List.mem_cons_self)
      rw [printfFrom, hfirst, if_neg hne, if_neg hc, printfFrom, if_pos hend, formatText, if_neg hc]
  | case4 d rest n text n' hdirective ih =>
      obtain ⟨fuel, rfl⟩ := Nat.exists_eq_succ_of_ne_zero (Nat.ne_zero_of_lt hfuel)
      obtain ⟨hfirst, hsecond, hrest⟩ := htext
      have hnul' : 0 ∉ rest := fun h0 =>
        hnul (List.mem_cons_of_mem _ (List.mem_cons_of_mem _ h0))
      have hlen : rest.length < fuel := by
        simp only [List.length_cons] at hfuel
        omega
      rw [Complete, if_pos rfl] at hcomplete
      rw [printfFrom, hfirst, if_neg (by decide), if_pos rfl, hsecond, hdirective, formatText,
        if_pos rfl, hdirective]
      simp only
      rw [ih hrest hnul' hcomplete hlen]
  | case5 c d rest n hc ih =>
      obtain ⟨fuel, rfl⟩ := Nat.exists_eq_succ_of_ne_zero (Nat.ne_zero_of_lt hfuel)
      obtain ⟨hfirst, hrest⟩ := htext
      have hne : c ≠ 0 := fun h0 => hnul (by rw [h0]; exact List.mem_cons_self)
      have hnul' : 0 ∉ d :: rest := fun h0 => hnul (List.mem_cons_of_mem _ h0)
      rw [Complete, if_neg hc] at hcomplete
      rw [printfFrom, hfirst, if_neg hne, if_neg hc,
        ih hrest hnul' hcomplete (Nat.lt_of_succ_lt_succ hfuel), formatText, if_neg hc]

def terminalPrintf (format : ℕ → UInt8) (args : VarArgs) (t : Terminal) : Ending × Terminal :=
  let (ending, text) := printfFrom format args (2 ^ 32) 0 0
  (ending, terminalWrite text t)

end SzymOS
