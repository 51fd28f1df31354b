import SzymOS.Kernel.Strings
import SzymOS.Lib.Lexicographic

/-!
# The order of strings

`strcmp` and `strncmp` are one loop over two strings, which `strncmp` leaves after `n` bytes as
well.  They compare their bytes as `unsigned char`, and so does the order here.  Both strings are
memory; `strcmp` of a string of the kernel is this one (`strcmpAt_eq_strcmp`).

Both are instances of the loop of `Lib/Lexicographic.lean`, with NUL as the byte that ends a
string.  NUL is the least byte, so a string is before all that continue it, and the order of the
texts in memory is the order of the lists.

Where one of the strings has ended the loop stops, and nothing behind its NUL is read.  `strncmp`
reads at most `n` bytes of each.

* `compare_strcmpAt` — the sign of `strcmp` is the lexicographic order of the bytes.
* `compare_strncmp` — that of `strncmp` is the order of their first `n`.
* `strings_ordered` — the order that the two make, and what they read.
-/

set_option autoImplicit false

namespace SzymOS

open Scan Lexicographic Std

/-- `strcmp`, on memory: the loop has all bytes that there are before it. -/
def strcmpAt (str1 str2 : ℕ → UInt8) : ℤ :=
  let i := (agree 0 str1 str2 (2 ^ 32) 0).2
  ((str1 i).toNat : ℤ) - ((str2 i).toNat : ℤ)

def strncmp (str1 str2 : ℕ → UInt8) (n : UInt32) : ℤ :=
  let (n, i) := agree 0 str1 str2 n.toNat 0
  if n = 0 then 0 else ((str1 i).toNat : ℤ) - ((str2 i).toNat : ℤ)

/-- What `strcmp` reads: the two bytes that it subtracts are read again. -/
def strcmpReads (str1 str2 : ℕ → UInt8) : List LoopRead :=
  let i := (agree 0 str1 str2 (2 ^ 32) 0).2
  agreeReads 0 str1 str2 (2 ^ 32) 0 ++ [.first i, .second i]

def strncmpReads (str1 str2 : ℕ → UInt8) (n : UInt32) : List LoopRead :=
  let (left, i) := agree 0 str1 str2 n.toNat 0
  agreeReads 0 str1 str2 n.toNat 0 ++ if left = 0 then [] else [.first i, .second i]

/-! ## The sign

The value is a difference of bytes widened to `int`, so it cannot overflow, and its sign is their
order. -/

/-- The difference of two bytes has the sign of their order. -/
lemma compare_toNat_sub (x y : UInt8) :
    compare ((x.toNat : ℤ) - (y.toNat : ℤ)) 0 = compare x y := by
  cases h : compare x y with
  | lt =>
      rw [compare_eq_lt, UInt8.lt_iff_toNat_lt] at h
      rw [compare_eq_lt]
      omega
  | eq =>
      rw [LawfulEqOrd.eq_of_compare h, sub_self]
      rfl
  | gt =>
      rw [compare_eq_gt, UInt8.lt_iff_toNat_lt] at h
      rw [compare_eq_gt]
      omega

/-- NUL is the least byte. -/
lemma nul_least (x : UInt8) (hx : x ≠ 0) : compare 0 x = .lt := by
  rw [compare_eq_lt]
  exact UInt8.pos_iff_ne_zero.mpr hx

variable {str1 str2 str3 : ℕ → UInt8} {a b c : CString}

/-- **The sign of `strcmp`.** -/
theorem compare_strcmpAt (ha : ∀ j ≤ a.length, str1 j = a.mem j)
    (hb : ∀ j ≤ b.length, str2 j = b.mem j) :
    compare (strcmpAt str1 str2) 0 = compare a.bytes b.bytes := by
  have hfirst := textAt_mem ha
  have hleft : (agree 0 str1 str2 (2 ^ 32) 0).1 ≠ 0 := agree_left hfirst a.fits
  have horder := agree_compare nul_least (2 ^ 32) a.nul_notMem b.nul_notMem hfirst (textAt_mem hb)
  rw [verdict, if_neg hleft, List.take_of_length_le (Nat.le_of_lt a.fits),
    List.take_of_length_le (Nat.le_of_lt b.fits)] at horder
  rw [strcmpAt, compare_toNat_sub]
  exact horder

/-- **The sign of `strncmp`.** -/
theorem compare_strncmp (ha : ∀ j ≤ a.length, str1 j = a.mem j)
    (hb : ∀ j ≤ b.length, str2 j = b.mem j) (n : UInt32) :
    compare (strncmp str1 str2 n) 0
      = compare (a.bytes.take n.toNat) (b.bytes.take n.toNat) := by
  rw [← agree_compare nul_least n.toNat a.nul_notMem b.nul_notMem (textAt_mem ha) (textAt_mem hb),
    strncmp, verdict]
  simp only
  split_ifs with hleft
  · rfl
  · exact compare_toNat_sub _ _

lemma strcmpAt_le_iff (ha : ∀ j ≤ a.length, str1 j = a.mem j)
    (hb : ∀ j ≤ b.length, str2 j = b.mem j) :
    strcmpAt str1 str2 ≤ 0 ↔ (compare a.bytes b.bytes).isLE := by
  rw [← compare_strcmpAt ha hb, isLE_compare]

/-! ## The comparison of the kernel's own strings

The file system compares a name from the disk with a string it was given.  That model counts the
bytes of the string, this one the addresses; they stop at the same place. -/

/-- The loop that counts the bytes of its second string stops where this one does. -/
lemma strcmpFrom_agree {n i : ℕ} {rest : List UInt8} (hrest : TextAt str2 0 i rest)
    (hn : rest.length < n) : strcmpFrom str1 rest i = (agree 0 str1 str2 n i).2 := by
  induction rest generalizing n i with
  | nil =>
      obtain ⟨n, rfl⟩ := Nat.exists_eq_succ_of_ne_zero (Nat.ne_of_gt hn)
      have hend : str2 i = 0 := hrest
      rw [agree, hend, if_neg (fun h => h.1 h.2), strcmpFrom]
  | cons c rest ih =>
      obtain ⟨n, rfl⟩ := Nat.exists_eq_succ_of_ne_zero (Nat.ne_zero_of_lt hn)
      rw [agree, strcmpFrom, hrest.1]
      split_ifs with hsame
      · exact ih hrest.2 (Nat.lt_of_succ_lt_succ hn)
      · rfl

/-- **Both models of `strcmp` are one**, whatever is compared with the string. -/
theorem strcmpAt_eq_strcmp (str1 : ℕ → UInt8) (hb : ∀ j ≤ b.length, str2 j = b.mem j) :
    strcmpAt str1 str2 = strcmp str1 b := by
  have hstop : strcmpStop str1 b = (agree 0 str1 str2 (2 ^ 32) 0).2 :=
    strcmpFrom_agree (textAt_mem hb) b.fits
  rw [strcmpAt, strcmp, ← hstop, hb _ (strcmpStop_spec str1 b).1]

/-- The order by which the directory and the shell compare. -/
theorem compare_strcmp (ha : ∀ j ≤ a.length, str1 j = a.mem j) (b : CString) :
    compare (strcmp str1 b) 0 = compare a.bytes b.bytes := by
  rw [← strcmpAt_eq_strcmp str1 fun _ _ => rfl, compare_strcmpAt ha fun _ _ => rfl]

/-! ## What is read

Up to and including the NUL of either string, and with `strncmp` no further than `n`. -/

lemma strcmpReads_within (ha : ∀ j ≤ a.length, str1 j = a.mem j)
    (hb : ∀ j ≤ b.length, str2 j = b.mem j) :
    ∀ r ∈ strcmpReads str1 str2, r.Within a.length b.length := by
  have hreads := readsAgain_within (2 ^ 32) (textAt_mem ha) (textAt_mem hb)
  rwa [Nat.zero_add, Nat.zero_add] at hreads

/-- Where nothing is left of `n`, no byte is read again. -/
lemma strncmpReads_within (ha : ∀ j ≤ a.length, str1 j = a.mem j)
    (hb : ∀ j ≤ b.length, str2 j = b.mem j) (n : UInt32) :
    ∀ r ∈ strncmpReads str1 str2 n, r.Within a.length b.length := by
  have hreads := readsAgain_within n.toNat (textAt_mem ha) (textAt_mem hb)
  rw [Nat.zero_add, Nat.zero_add] at hreads
  intro r hr
  refine hreads r ?_
  rw [strncmpReads] at hr
  simp only at hr
  split_ifs at hr with hleft
  · rw [List.append_nil] at hr
    exact List.mem_append_left _ hr
  · exact hr

/-! ## The order

An order on strings is reflexive, antisymmetric and transitive, and any two strings are comparable.
What is zero is equality: of the whole strings for `strcmp`, of their first `n` bytes for `strncmp`.
-/

/-- What `strcmp` and `strncmp` make of strings in memory. -/
structure StringsOrdered (str1 str2 str3 : ℕ → UInt8) (a b c : CString) : Prop where
  sign : compare (strcmpAt str1 str2) 0 = compare a.bytes b.bytes
  zero : strcmpAt str1 str2 = 0 ↔ a = b
  swap : compare (strcmpAt str2 str1) 0 = (compare (strcmpAt str1 str2) 0).swap
  trans : strcmpAt str1 str2 ≤ 0 → strcmpAt str2 str3 ≤ 0 → strcmpAt str1 str3 ≤ 0
  reads : ∀ r ∈ strcmpReads str1 str2, r.Within a.length b.length
  cut : ∀ n : UInt32, compare (strncmp str1 str2 n) 0
    = compare (strcmpAt (a.take n.toNat).mem (b.take n.toNat).mem) 0
  cutReads : ∀ n : UInt32, ∀ r ∈ strncmpReads str1 str2 n, r.Within a.length b.length

/-- **Lexicographic order.**  Of all strings, wherever they are in memory. -/
theorem strings_ordered (ha : ∀ j ≤ a.length, str1 j = a.mem j)
    (hb : ∀ j ≤ b.length, str2 j = b.mem j) (hc : ∀ j ≤ c.length, str3 j = c.mem j) :
    StringsOrdered str1 str2 str3 a b c where
  sign := compare_strcmpAt ha hb
  zero := by
    have hzero : strcmpAt str1 str2 = 0 ↔ compare (strcmpAt str1 str2) 0 = .eq :=
      LawfulEqOrd.compare_eq_iff_eq.symm
    rw [hzero, compare_strcmpAt ha hb, LawfulEqOrd.compare_eq_iff_eq, CString.ext_iff]
  swap := by
    rw [compare_strcmpAt hb ha, compare_strcmpAt ha hb]
    exact OrientedOrd.eq_swap
  trans hab hbc := by
    rw [strcmpAt_le_iff ha hb] at hab
    rw [strcmpAt_le_iff hb hc] at hbc
    rw [strcmpAt_le_iff ha hc]
    exact TransOrd.isLE_trans hab hbc
  reads := strcmpReads_within ha hb
  cut n := by
    rw [compare_strncmp ha hb n, compare_strcmpAt (fun _ _ => rfl) (fun _ _ => rfl)]
    rfl
  cutReads := strncmpReads_within ha hb

/-- A string whose last byte is not ASCII, and one that is. -/
def accentText : CString := CString.ofLiterals ["cé"] (by decide)

def plainText : CString := CString.ofLiterals ["ca"] (by decide)

/-- The strings in memory, with other bytes behind their NULs, and the beginning of both. -/
theorem strings_ordered_accent :
    StringsOrdered ([99, 0, 98].getD · 7) ([99, 97, 0, 255].getD · 7) ([99, 0xE9, 0, 1].getD · 7)
      (plainText.take 1) plainText accentText :=
  strings_ordered (by decide) (by decide) (by decide)

end SzymOS
