import Mathlib.Tactic.Common
import Mathlib.Tactic.Ring
import Mathlib.Data.Nat.ModEq

/-!
# Byte-addressed objects

Memory is read as a function from addresses to bytes.  `splice` is the effect of a `memcpy` on
such a function, and `u32Byte`/`u32Of` are the little-endian layout of a 32-bit word, proved to
be inverse to each other in both directions: a word survives being written out, and four bytes
survive being read as a word.

Both are used together where a structure is written out byte by byte and read again: the structure
is then a function of the bytes, its fields are slices and words of it, and a copy into the middle
of it changes exactly the fields that it covers.  The lemmas are stated for functions on all
addresses, so that there is no bound to carry along; where an object ends is up to the caller, who
says which addresses matter.
-/

set_option autoImplicit false

namespace Bytes

variable {α : Type*}

/-! ## Copies

`splice` writes and `slice` reads.  A slice of a splice is what has been written if the ranges are
the same, and what was there if they are apart.  Everything else about the two follows address by
address. -/

/-- `dst` after `len` elements of `src` have been copied to the addresses from `off` on. -/
def splice (dst : ℕ → α) (off len : ℕ) (src : ℕ → α) : ℕ → α := fun p =>
  if off ≤ p ∧ p < off + len then src (p - off) else dst p

lemma splice_inside {dst src : ℕ → α} {off len p : ℕ} (h : off ≤ p) (h' : p < off + len) :
    splice dst off len src p = src (p - off) := if_pos ⟨h, h'⟩

lemma splice_outside {dst src : ℕ → α} {off len p : ℕ} (h : p < off ∨ off + len ≤ p) :
    splice dst off len src p = dst p := if_neg (by omega)

/-- The `len` elements found from address `off` on. -/
def slice (src : ℕ → α) (off len : ℕ) : List α := (List.range len).map fun j => src (off + j)

@[simp] lemma slice_length (src : ℕ → α) (off len : ℕ) : (slice src off len).length = len := by
  simp [slice]

lemma slice_congr {src src' : ℕ → α} {off len : ℕ} (h : ∀ j < len, src (off + j) = src' (off + j)) :
    slice src off len = slice src' off len :=
  List.map_congr_left fun j hj => h j (List.mem_range.mp hj)

/-- Two slices of one length agree exactly when they agree address by address. -/
lemma slice_eq_slice_iff {src src' : ℕ → α} {off off' len : ℕ} :
    slice src off len = slice src' off' len ↔ ∀ j < len, src (off + j) = src' (off' + j) := by
  constructor
  · intro h j hj
    have hget := congrArg (fun l => l[j]?) h
    simpa [slice, hj] using hget
  · intro h
    exact List.map_congr_left fun j hj => h j (List.mem_range.mp hj)

/-- A slice is the list `xs` exactly when it finds the elements of `xs` in their places. -/
lemma slice_eq_iff {src : ℕ → α} {off : ℕ} {xs : List α} :
    slice src off xs.length = xs ↔ ∀ j (h : j < xs.length), src (off + j) = xs[j] := by
  constructor
  · intro h j hj
    have hget := congrArg (fun l => l[j]?) h
    simpa [slice, hj] using hget
  · intro h
    refine List.ext_getElem (by simp) ?_
    intro j h1 h2
    simpa [slice] using h j h2

/-- The first element of a slice, and the rest. -/
lemma slice_cons (src : ℕ → α) (off len : ℕ) :
    slice src off (len + 1) = src off :: slice src (off + 1) len := by
  simp only [slice, List.range_succ_eq_map, List.map_cons, List.map_map, Nat.add_zero]
  refine congrArg _ (List.map_congr_left fun j _ => congrArg src ?_)
  omega

/-- One element more. -/
lemma slice_succ (src : ℕ → α) (off len : ℕ) :
    slice src off (len + 1) = slice src off len ++ [src (off + len)] := by
  rw [slice, List.range_succ, List.map_append, ← slice, List.map_singleton]

/-- A slice that is not empty ends with its last element. -/
lemma slice_of_lt (src : ℕ → α) {off stop : ℕ} (h : off < stop) :
    slice src off (stop - off) = slice src off (stop - 1 - off) ++ [src (stop - 1)] := by
  have hlen : stop - off = stop - 1 - off + 1 := by omega
  have hlast : off + (stop - 1 - off) = stop - 1 := by omega
  rw [hlen, slice_succ, hlast]

/-- What has been copied is found again. -/
lemma slice_splice (dst src : ℕ → α) (off len : ℕ) :
    slice (splice dst off len src) off len = slice src 0 len := by
  rw [slice_eq_slice_iff]
  intro j hj
  rw [splice_inside (by omega) (by omega), Nat.add_sub_cancel_left, Nat.zero_add]

/-- And what lies behind it is as it was. -/
lemma slice_splice_after (dst src : ℕ → α) {off len off' : ℕ} (len' : ℕ) (h : off + len ≤ off') :
    slice (splice dst off len src) off' len' = slice dst off' len' :=
  slice_congr fun j _ => splice_outside (by omega)

/-- A shorter slice is the start of a longer one. -/
lemma slice_take (src : ℕ → α) (off len k : ℕ) (h : k ≤ len) :
    (slice src off len).take k = slice src off k := by
  rw [slice, ← List.map_take, List.take_range, Nat.min_eq_left h, slice]

/-! ## Little-endian words

The four bytes of a word are its digits in base 256, least significant first.  One direction says
that a word comes back from its bytes, the other that bytes come back from their word, and so that
every four bytes are the bytes of some word.  The second is what makes a read of memory that nobody
has written harmless: it is a word like any other. -/

/-- Byte `k` of a 32-bit word, the least significant first. -/
def u32Byte (w : UInt32) (k : ℕ) : UInt8 := UInt8.ofNat (w.toNat / 256 ^ k)

/-- The word that four bytes denote, the least significant first. -/
def u32Of (b : ℕ → UInt8) : UInt32 :=
  UInt32.ofNat ((b 0).toNat + 256 * (b 1).toNat + 65536 * (b 2).toNat + 16777216 * (b 3).toNat)

lemma u32Of_congr {b b' : ℕ → UInt8} (h : ∀ k < 4, b k = b' k) : u32Of b = u32Of b' := by
  simp only [u32Of, h 0 (by omega), h 1 (by omega), h 2 (by omega), h 3 (by omega)]

lemma u32Of_toNat (b : ℕ → UInt8) : (u32Of b).toNat
    = (b 0).toNat + 256 * (b 1).toNat + 65536 * (b 2).toNat + 16777216 * (b 3).toNat := by
  have h0 := (b 0).toNat_lt
  have h1 := (b 1).toNat_lt
  have h2 := (b 2).toNat_lt
  have h3 := (b 3).toNat_lt
  simp only [u32Of, UInt32.toNat_ofNat']
  omega

/-- **Write, then read.**  The four bytes of a word denote that word. -/
@[simp] theorem u32Of_u32Byte (w : UInt32) : u32Of (u32Byte w) = w := by
  have hw := w.toNat_lt
  refine UInt32.toNat_inj.mp ?_
  rw [u32Of_toNat]
  simp only [u32Byte, UInt8.toNat_ofNat']
  omega

/-- **Read, then write.**  The word four bytes denote has those four bytes. -/
theorem u32Byte_u32Of (b : ℕ → UInt8) {k : ℕ} (hk : k < 4) : u32Byte (u32Of b) k = b k := by
  have h0 := (b 0).toNat_lt
  have h1 := (b 1).toNat_lt
  have h2 := (b 2).toNat_lt
  have h3 := (b 3).toNat_lt
  refine UInt8.toNat_inj.mp ?_
  simp only [u32Byte, UInt8.toNat_ofNat', u32Of_toNat]
  obtain rfl | rfl | rfl | rfl : k = 0 ∨ k = 1 ∨ k = 2 ∨ k = 3 := by omega
  all_goals omega

end Bytes
