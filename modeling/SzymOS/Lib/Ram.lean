import SzymOS.Lib.Bytes
import Mathlib.Data.UInt

/-!
# Memory with 32-bit addresses

Addresses wrap around, so what lies `n` bytes from an address on is a matter of the distance from
it.  A program that stores into its objects byte by byte is followed one object at a time: what an
object holds, and which stores are apart from it.

In C an object is given by its first address and its length, and nothing stops it from lying across
the end of memory, where addresses start again.  Comparing addresses does not work then.  The
distance of an address from the beginning of the object does: it is a difference of words, so it
wraps around too, and the object is the set of all addresses at a small distance.

With this a store is a condition on a distance, and two objects are apart if no address has small
distances from both.  No lemma needs to know where in memory anything lies.

* `stored` — memory after some bytes at an address have been replaced.
* `Holds` — what the bytes from an address on are.
* `Holds.stored`, `Holds.stored_apart` — a store into an object, and one somewhere else.
-/

set_option autoImplicit false

namespace Bytes

/-- Memory, by address. -/
abbrev Ram := UInt32 → UInt8

/-! ## Distances

The few facts about differences of words that the rest needs.  They are the only place where the
arithmetic of addresses is done. -/

lemma distance_add (base : UInt32) {j : ℕ} (hj : j < 2 ^ 32) :
    (base + UInt32.ofNat j - base).toNat = j := by
  rw [add_sub_cancel_left, UInt32.toNat_ofNat_of_lt' hj]

/-- Every address is at its distance. -/
lemma add_distance (base a : UInt32) : base + UInt32.ofNat (a - base).toNat = a := by
  rw [UInt32.ofNat_toNat, add_sub_cancel]

lemma add_add_ofNat (base : UInt32) (d j : ℕ) :
    base + UInt32.ofNat d + UInt32.ofNat j = base + UInt32.ofNat (d + j) := by
  rw [UInt32.ofNat_add, add_assoc]

/-- The distance from a place inside an object. -/
lemma distance_inside (base : UInt32) {d j m : ℕ} (hj : j < 2 ^ 32) (hm : d + m ≤ 2 ^ 32) :
    (base + UInt32.ofNat j - (base + UInt32.ofNat d)).toNat < m ↔ d ≤ j ∧ j < d + m := by
  have hsub : base + UInt32.ofNat j - (base + UInt32.ofNat d)
      = UInt32.ofNat j - UInt32.ofNat d := add_sub_add_left_eq_sub _ _ _
  rw [hsub, UInt32.toNat_sub, UInt32.toNat_ofNat', UInt32.toNat_ofNat', Nat.mod_eq_of_lt hj]
  omega

/-! ## Stores

A store replaces the bytes of a range by those of a function of the distance.  What an object holds
is a function of the distance as well, so a store into the middle of an object is a `splice` of the
two functions, and the content of the object is followed without mentioning memory any more. -/

/-- `n` bytes from `base` on have been replaced. -/
def stored (base : UInt32) (n : ℕ) (f : ℕ → UInt8) (mem : Ram) : Ram := fun a =>
  if (a - base).toNat < n then f (a - base).toNat else mem a

lemma stored_inside {base : UInt32} {n : ℕ} {f : ℕ → UInt8} {mem : Ram} {j : ℕ} (hj : j < n)
    (hn : n ≤ 2 ^ 32) : stored base n f mem (base + UInt32.ofNat j) = f j := by
  rw [stored, distance_add base (by omega), if_pos hj]

lemma stored_outside {base : UInt32} {n : ℕ} {f : ℕ → UInt8} {mem : Ram} {a : UInt32}
    (ha : ∀ j < n, a ≠ base + UInt32.ofNat j) : stored base n f mem a = mem a := by
  refine if_neg ?_
  intro hlt
  exact ha _ hlt (add_distance base a).symm

/-- The `n` bytes from `base` on. -/
def Holds (mem : Ram) (base : UInt32) (n : ℕ) (f : ℕ → UInt8) : Prop :=
  ∀ j < n, mem (base + UInt32.ofNat j) = f j

/-- No byte is among both. -/
def Apart (a : UInt32) (n : ℕ) (b : UInt32) (m : ℕ) : Prop :=
  ∀ i < n, ∀ j < m, a + UInt32.ofNat i ≠ b + UInt32.ofNat j

section Objects

variable {mem : Ram} {base other : UInt32} {n m d : ℕ} {f g : ℕ → UInt8}

lemma Apart.symm (h : Apart base n other m) : Apart other m base n :=
  fun i hi j hj heq => h j hj i hi heq.symm

/-- A part of one of them. -/
lemma Apart.part (h : Apart base n other m) {k : ℕ} (hfits : d + k ≤ n) :
    Apart (base + UInt32.ofNat d) k other m := by
  intro i hi j hj heq
  rw [add_add_ofNat] at heq
  exact h (d + i) (by omega) j hj heq

lemma Holds.congr (h : Holds mem base n f) (hfg : ∀ j < n, f j = g j) : Holds mem base n g :=
  fun j hj => (h j hj).trans (hfg j hj)

/-- A part of an object. -/
lemma Holds.part (h : Holds mem base n f) {k : ℕ} (hfits : d + k ≤ n) :
    Holds mem (base + UInt32.ofNat d) k fun j => f (d + j) := by
  intro j hj
  rw [add_add_ofNat]
  exact h (d + j) (by omega)

/-- **A store into an object.** -/
lemma Holds.stored (h : Holds mem base n f) (hn : n ≤ 2 ^ 32) (hfits : d + m ≤ n) :
    Holds (stored (base + UInt32.ofNat d) m g mem) base n (splice f d m g) := by
  intro j hj
  have hinside := distance_inside base (d := d) (m := m) (by omega : j < 2 ^ 32) (by omega)
  by_cases hoff : d ≤ j ∧ j < d + m
  · have hplace : base + UInt32.ofNat j = base + UInt32.ofNat d + UInt32.ofNat (j - d) := by
      rw [add_add_ofNat, Nat.add_sub_cancel' hoff.1]
    rw [splice_inside hoff.1 hoff.2, hplace, stored_inside (by omega) (by omega)]
  · rw [Bytes.stored, if_neg (fun hlt => hoff (hinside.mp hlt)), splice_outside (by omega)]
    exact h j hj

/-- **A store somewhere else.** -/
lemma Holds.stored_apart (h : Holds mem base n f) (hapart : Apart base n other m) :
    Holds (Bytes.stored other m g mem) base n f := by
  intro j hj
  rw [stored_outside fun i hi => hapart j hj i hi]
  exact h j hj

end Objects

/-! ## Bytes and words

The stores that a processor has, as stores of a range of one byte and of four. -/

def store8 (a : UInt32) (b : UInt8) : Ram → Ram := stored a 1 fun _ => b

/-- The least significant byte first. -/
def store32 (a w : UInt32) : Ram → Ram := stored a 4 (u32Byte w)

def load32 (a : UInt32) (mem : Ram) : UInt32 := u32Of fun k => mem (a + UInt32.ofNat k)

lemma store8_self (a : UInt32) (b : UInt8) (mem : Ram) : store8 a b mem a = b := by
  rw [store8, stored, sub_self, if_pos (by decide)]

lemma store8_of_ne {a a' : UInt32} (h : a' ≠ a) (b : UInt8) (mem : Ram) :
    store8 a b mem a' = mem a' := by
  refine stored_outside ?_
  intro j hj heq
  rw [Nat.lt_one_iff.mp hj] at heq
  exact h (heq.trans (add_zero a))

/-- A word of an object. -/
lemma Holds.load32 {mem : Ram} {base : UInt32} {n d : ℕ} {f : ℕ → UInt8}
    (h : Holds mem base n f) (hfits : d + 4 ≤ n) :
    Bytes.load32 (base + UInt32.ofNat d) mem = u32Of fun k => f (d + k) :=
  u32Of_congr fun k hk => h.part hfits k hk

end Bytes
