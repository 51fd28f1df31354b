import Mathlib.Tactic.Common
import Mathlib.Data.List.Basic
import Mathlib.Data.List.TakeWhile
import Mathlib.Data.Int.Notation
import Mathlib.Algebra.Group.Nat.Defs
import SzymOS.Lib.Scan

/-!
# The kernel's string routines

`kernel.c` brings its own `strlen` and `strcmp`.  Both walk memory until a NUL byte, so both are
modelled on memory (a function from addresses to bytes), not on lists: a directory entry read
from a disk need not hold a NUL, and then the walk leaves the array it started in.  A string the
kernel itself passes around is a `CString`, whose bytes are known to end in a NUL.

The loops get as much fuel as there are addresses, so that both are total functions; the lemmas say
where they stop, and a string that is in memory is shorter than that.

The second argument of `strcmp` is a string of the kernel in all calls that the file system and the
shell make, so it is a `CString` here.  The routine on two memories is in `StringOrder.lean`, with a
proof that it is this one where the second memory holds such a string.

* `strcmp_eq_zero_iff` — the comparison is zero exactly when memory holds the string and its NUL.
* `strlen_eq` — the length is the distance to the first NUL.
-/

set_option autoImplicit false

namespace SzymOS

/-- The bytes of a literal that is passed as a string. -/
def textBytes (text : String) : List UInt8 := text.toList.map fun c => UInt8.ofNat c.toNat

def isSpace (c : UInt8) : Bool := c = 32

/-- A NUL-terminated string: the bytes before the NUL.  It lies in a 32-bit address space. -/
@[ext] structure CString where
  bytes : List UInt8
  noNul : ∀ b ∈ bytes, b ≠ 0
  fits : bytes.length < 2 ^ 32
  deriving DecidableEq

namespace CString

/-- The number of bytes before the NUL. -/
def length (s : CString) : ℕ := s.bytes.length

/-- Memory from the address of the string on: its bytes, then the NUL. -/
def mem (s : CString) (j : ℕ) : UInt8 := s.bytes.getD j 0

@[simp] lemma mem_lt (s : CString) {j : ℕ} (h : j < s.bytes.length) : s.mem j = s.bytes[j] := by
  simp only [mem, List.getD_eq_getElem?_getD]
  rw [List.getElem?_eq_getElem h, Option.getD_some]

@[simp] lemma mem_length (s : CString) : s.mem s.length = 0 := by simp [mem, length]

lemma mem_ne_zero (s : CString) {j : ℕ} (h : j < s.length) : s.mem j ≠ 0 := by
  rw [s.mem_lt h]
  exact s.noNul _ (List.getElem_mem _)

lemma nul_notMem (s : CString) : 0 ∉ s.bytes := fun h => s.noNul 0 h rfl

/-- The string from its character `n` on, as a pointer into it sees it. -/
def drop (s : CString) (n : ℕ) : CString where
  bytes := s.bytes.drop n
  noNul b hb := s.noNul b (List.mem_of_mem_drop hb)
  fits := Nat.lt_of_le_of_lt (List.drop_sublist n s.bytes).length_le s.fits

/-- Its first `n` characters, copied. -/
def take (s : CString) (n : ℕ) : CString where
  bytes := s.bytes.take n
  noNul b hb := s.noNul b (List.mem_of_mem_take hb)
  fits := Nat.lt_of_le_of_lt (List.take_sublist n s.bytes).length_le s.fits

@[simp] lemma drop_bytes (s : CString) (n : ℕ) : (s.drop n).bytes = s.bytes.drop n := rfl

@[simp] lemma take_bytes (s : CString) (n : ℕ) : (s.take n).bytes = s.bytes.take n := rfl

/-- The characters of adjacent string literals. -/
def literalChars (literals : List String) : List Char := literals.flatMap String.toList

/-- Adjacent literals of the source are one string, which ends at its first NUL. -/
def ofLiterals (literals : List String) (h : (literalChars literals).length < 2 ^ 32) :
    CString where
  bytes := ((literalChars literals).map fun c => UInt8.ofNat c.toNat).takeWhile (· != 0)
  noNul b hb := by simpa using List.mem_takeWhile_imp hb
  fits := by
    refine Nat.lt_of_le_of_lt (List.takeWhile_sublist _).length_le ?_
    rwa [List.length_map]

lemma ofLiterals_length_le (literals : List String) (h : (literalChars literals).length < 2 ^ 32) :
    (ofLiterals literals h).length ≤ (literalChars literals).length := by
  have hle := (List.takeWhile_sublist (l := (literalChars literals).map fun c =>
    UInt8.ofNat c.toNat) (· != 0)).length_le
  rwa [List.length_map] at hle

end CString

open Scan

/-- Memory that holds the string holds a text. -/
lemma textAt_mem {s : CString} {mem : ℕ → UInt8} (hmem : ∀ j ≤ s.length, mem j = s.mem j) :
    TextAt mem 0 0 s.bytes := by
  rw [textAt_iff]
  intro j hj
  rw [Nat.zero_add]
  exact hmem j hj

/-! ## strlen

The counter is the distance that has been walked, and no byte of it was NUL. -/

/-- The loop `while (str[len]) len++`.  The counter wraps after `2 ^ 32` bytes, which is also all
the memory there is. -/
def strlenFrom (str : ℕ → UInt8) : (fuel len : ℕ) → ℕ
  | 0, len => len
  | fuel + 1, len => if str len ≠ 0 then strlenFrom str fuel (len + 1) else len

def strlen (str : ℕ → UInt8) : ℕ := strlenFrom str (2 ^ 32) 0

lemma strlenFrom_eq {str : ℕ → UInt8} {n : ℕ} (hn : str n = 0) :
    ∀ (fuel len : ℕ), len ≤ n → n - len < fuel → (∀ j, len ≤ j → j < n → str j ≠ 0) →
      strlenFrom str fuel len = n
  | 0, len, _, h, _ => by omega
  | fuel + 1, len, hle, hfuel, hnz => by
      rw [strlenFrom]
      rcases Nat.eq_or_lt_of_le hle with rfl | hlt
      · simp [hn]
      · rw [if_pos (hnz len (Nat.le_refl _) hlt)]
        exact strlenFrom_eq hn fuel (len + 1) hlt (by omega) fun j h1 h2 => hnz j (by omega) h2

/-- `strlen` is the distance to the first NUL. -/
lemma strlen_eq {str : ℕ → UInt8} {n : ℕ} (hn : str n = 0) (hlt : n < 2 ^ 32)
    (hnz : ∀ j < n, str j ≠ 0) : strlen str = n :=
  strlenFrom_eq hn _ _ (Nat.zero_le _) (by omega) fun j _ h => hnz j h

@[simp] lemma strlen_mem (s : CString) : strlen s.mem = s.length :=
  strlen_eq s.mem_length s.fits fun _ h => s.mem_ne_zero h

/-! ## strcmp

The loop is modelled by how far it goes, and the value by the bytes at that distance.  It goes on
while both strings agree and have not ended, so where it stops they differ or both have ended; in
the second case the value is zero. -/

/-- The loop `while (*str1 && (*str1 == *str2))`: how far both pointers have advanced when it
stops, with `rest` the bytes of the second string still ahead. -/
def strcmpFrom (str1 : ℕ → UInt8) : (rest : List UInt8) → (i : ℕ) → ℕ
  | [], i => i
  | c :: rest, i => if str1 i ≠ 0 ∧ str1 i = c then strcmpFrom str1 rest (i + 1) else i

/-- Where `strcmp` stops: it has read both strings up to and including this position. -/
def strcmpStop (str1 : ℕ → UInt8) (str2 : CString) : ℕ := strcmpFrom str1 str2.bytes 0

def strcmp (str1 : ℕ → UInt8) (str2 : CString) : ℤ :=
  ((str1 (strcmpStop str1 str2)).toNat : ℤ) - ((str2.mem (strcmpStop str1 str2)).toNat : ℤ)

/-- What the loop has established when it stops. -/
lemma strcmpFrom_spec (str1 : ℕ → UInt8) : ∀ (rest : List UInt8) (i : ℕ),
    ∃ k, strcmpFrom str1 rest i = i + k ∧ k ≤ rest.length ∧
      (∀ j (_ : j < k) (h : j < rest.length), str1 (i + j) = rest[j] ∧ str1 (i + j) ≠ 0) ∧
      (∀ h : k < rest.length, str1 (i + k) = 0 ∨ str1 (i + k) ≠ rest[k])
  | [], i => ⟨0, rfl, Nat.le_refl _, by simp, by simp⟩
  | c :: rest, i => by
      rw [strcmpFrom]
      split_ifs with hc
      · obtain ⟨k, hstop, hk, hsame, hend⟩ := strcmpFrom_spec str1 rest (i + 1)
        refine ⟨k + 1, by omega, by simpa using hk, ?_, ?_⟩
        · intro j hj h
          cases j with
          | zero => exact ⟨hc.2, hc.1⟩
          | succ j =>
              have hjk := hsame j (by omega) (by simpa using h)
              simpa [Nat.add_assoc, Nat.add_comm 1 j] using hjk
        · intro h
          have hend' := hend (by simpa using h)
          simpa [Nat.add_assoc, Nat.add_comm 1 k] using hend'
      · refine ⟨0, rfl, Nat.zero_le _, by omega, ?_⟩
        intro _
        by_cases h0 : str1 i = 0
        · exact Or.inl h0
        · exact Or.inr fun h => hc ⟨h0, h⟩

/-- Up to where it stops, `strcmp` has found the bytes of the second string and no NUL. -/
lemma strcmpStop_spec (str1 : ℕ → UInt8) (s : CString) :
    strcmpStop str1 s ≤ s.length ∧
      (∀ j < strcmpStop str1 s, str1 j = s.mem j ∧ str1 j ≠ 0) ∧
      (strcmpStop str1 s < s.length →
        str1 (strcmpStop str1 s) = 0 ∨ str1 (strcmpStop str1 s) ≠ s.mem (strcmpStop str1 s)) := by
  obtain ⟨k, hstop, hk, hsame, hend⟩ := strcmpFrom_spec str1 s.bytes 0
  have hk' : strcmpStop str1 s = k := by rw [strcmpStop, hstop, Nat.zero_add]
  rw [hk']
  simp only [Nat.zero_add] at hsame hend
  refine ⟨hk, ?_, ?_⟩
  · intro j hj
    have hlt : j < s.length := Nat.lt_of_lt_of_le hj hk
    rw [s.mem_lt hlt]
    exact hsame j hj hlt
  · intro h
    rw [s.mem_lt h]
    exact hend h

/-- **When `strcmp` is zero.**  Exactly when memory holds the bytes of the string and its NUL. -/
theorem strcmp_eq_zero_iff (str1 : ℕ → UInt8) (s : CString) :
    strcmp str1 s = 0 ↔ ∀ j ≤ s.length, str1 j = s.mem j := by
  obtain ⟨hle, hsame, hend⟩ := strcmpStop_spec str1 s
  have hzero : strcmp str1 s = 0 ↔ str1 (strcmpStop str1 s) = s.mem (strcmpStop str1 s) := by
    rw [strcmp, ← UInt8.toNat_inj]
    omega
  rw [hzero]
  constructor
  · intro heq j hj
    -- the loop can only have stopped at the NUL of the second string
    have hstop : strcmpStop str1 s = s.length := by
      rcases Nat.lt_or_eq_of_le hle with hlt | h
      · rcases hend hlt with h0 | hne
        · exact absurd (heq ▸ h0) (s.mem_ne_zero hlt)
        · exact absurd heq hne
      · exact h
    rcases Nat.lt_or_eq_of_le hj with hlt | rfl
    · exact (hsame j (by omega)).1
    · rw [← hstop]; exact heq
  · exact fun h => h _ hle

end SzymOS
