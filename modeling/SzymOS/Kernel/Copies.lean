import SzymOS.Lib.Ram

/-!
# `memset` and `memcpy`

The two loops of `kernel.c` over memory.  `memcpy` goes upwards, so it is not a copy when its
destination begins inside its source: it reads bytes that it has stored.

The addresses are 32 bits wide and wrap around, and so do the pointers.  A region that goes over the
end of memory is a region like any other, and the length may be as large as memory itself.

* `memset_eq_stored` — the bytes that `memset` leaves.
* `memcpy_eq_stored` — those that `memcpy` leaves, wherever the two regions lie.
* `memcpy_copies_iff` — when it is a copy.
-/

set_option autoImplicit false

namespace SzymOS

open Bytes

/-- `while (len-- > 0) *ptr++ = val;` -/
def memsetFrom (val : UInt8) : (len : ℕ) → (ptr : UInt32) → Ram → Ram
  | 0, _, mem => mem
  | len + 1, ptr, mem => memsetFrom val len (ptr + 1) (store8 ptr val mem)

def memset (dest val len : UInt32) : Ram → Ram := memsetFrom val.toUInt8 len.toNat dest

/-- `while (len--) *d++ = *s++;` -/
def memcpyFrom : (len : ℕ) → (d s : UInt32) → Ram → Ram
  | 0, _, _, mem => mem
  | len + 1, d, s, mem => memcpyFrom len (d + 1) (s + 1) (store8 d (mem s) mem)

def memcpy (dest src len : UInt32) : Ram → Ram := memcpyFrom len.toNat dest src

/-! ## What they leave

Both are compared with a table of bytes stored from an address on.  For `memcpy` the table is the
source as far as it is not overwritten before it is read; where the destination begins `n` bytes
into the source, those `n` bytes are repeated. -/

/-- The distance from the next address. -/
lemma distance_next {a d : UInt32} (hne : a ≠ d) : (a - (d + 1)).toNat + 1 = (a - d).toNat := by
  have hsub : a - (d + 1) = a - d - 1 := (sub_sub a d 1).symm
  have hpos : (a - d).toNat ≠ 0 := fun h0 => sub_ne_zero.mpr hne (UInt32.toNat_inj.mp h0)
  have hle : (1 : UInt32) ≤ a - d := UInt32.le_iff_toNat_le.mpr (Nat.one_le_iff_ne_zero.mpr hpos)
  rw [hsub, UInt32.toNat_sub_of_le _ _ hle]
  exact Nat.sub_add_cancel (Nat.one_le_iff_ne_zero.mpr hpos)

/-- An address is as far as can be from the one behind it. -/
lemma distance_self (d : UInt32) : (d - (d + 1)).toNat = 2 ^ 32 - 1 := by
  rw [sub_add_cancel_left]
  rfl

lemma memsetFrom_eq_stored (val : UInt8) {len : ℕ} (hlen : len ≤ 2 ^ 32) (ptr : UInt32)
    (mem : Ram) : memsetFrom val len ptr mem = stored ptr len (fun _ => val) mem := by
  funext a
  induction len generalizing ptr mem with
  | zero => rw [memsetFrom, stored, if_neg (Nat.not_lt_zero _)]
  | succ len ih =>
      rw [memsetFrom, ih (by omega), stored, stored]
      by_cases ha : a = ptr
      · rw [ha, distance_self, if_neg (by omega), store8_self, sub_self, UInt32.toNat_zero,
          if_pos (Nat.succ_pos len)]
      · have hnext := distance_next ha
        rw [store8_of_ne ha]
        split_ifs
        · rfl
        · omega
        · omega
        · rfl

/-- **What `memset` leaves.** -/
theorem memset_eq_stored (dest val len : UInt32) (mem : Ram) :
    memset dest val len mem = stored dest len.toNat (fun _ => val.toUInt8) mem :=
  memsetFrom_eq_stored _ len.toNat_lt.le dest mem

/-- One more byte of the source, counted from where the destination begins. -/
lemma source_next (d s : UInt32) {i : ℕ} (hi : i + 1 < 2 ^ 32) (mem : Ram) :
    store8 d (mem s) mem (s + 1 + UInt32.ofNat (i % (d - s).toNat))
      = mem (s + UInt32.ofNat ((i + 1) % (d - s).toNat)) := by
  have hplace : s + 1 + UInt32.ofNat (i % (d - s).toNat)
      = s + UInt32.ofNat (i % (d - s).toNat + 1) := by
    rw [UInt32.ofNat_add, add_assoc, add_comm 1]
    rfl
  have hstep : (i + 1) % (d - s).toNat = (i % (d - s).toNat + 1) % (d - s).toNat :=
    (Nat.mod_add_mod i _ 1).symm
  have hle := Nat.mod_le i (d - s).toNat
  rw [hplace, hstep]
  by_cases hwrap : i % (d - s).toNat + 1 = (d - s).toNat
  · -- the destination begins here: this byte has just been stored
    rw [hwrap, add_distance, store8_self, Nat.mod_self]
    exact congrArg mem (add_zero s).symm
  · have hsucc : (i % (d - s).toNat + 1) % (d - s).toNat = i % (d - s).toNat + 1 := by
      rcases Nat.eq_zero_or_pos (d - s).toNat with hzero | hpos
      · rw [hzero, Nat.mod_zero]
      · exact Nat.mod_eq_of_lt (by have := Nat.mod_lt i hpos; omega)
    rw [hsucc, store8_of_ne]
    intro heq
    have hdistance := distance_add s (by omega : i % (d - s).toNat + 1 < 2 ^ 32)
    rw [heq] at hdistance
    exact hwrap hdistance.symm

lemma memcpyFrom_eq_stored {len : ℕ} (hlen : len ≤ 2 ^ 32) (d s : UInt32) (mem : Ram) :
    memcpyFrom len d s mem
      = stored d len (fun i => mem (s + UInt32.ofNat (i % (d - s).toNat))) mem := by
  funext a
  induction len generalizing d s mem with
  | zero => rw [memcpyFrom, stored, if_neg (Nat.not_lt_zero _)]
  | succ len ih =>
      have hsame : d + 1 - (s + 1) = d - s := add_sub_add_right_eq_sub d s 1
      rw [memcpyFrom, ih (by omega), stored, stored, hsame]
      by_cases ha : a = d
      · have hfirst : s + UInt32.ofNat (0 % (d - s).toNat) = s := by
          rw [Nat.zero_mod]
          exact add_zero s
        rw [ha, distance_self, if_neg (by omega), store8_self, sub_self, UInt32.toNat_zero,
          if_pos (Nat.succ_pos len)]
        exact congrArg mem hfirst.symm
      · have hnext := distance_next ha
        rw [store8_of_ne ha, ← hnext]
        have hlt := (a - d).toNat_lt
        split_ifs
        · exact source_next d s (by omega) mem
        · omega
        · omega
        · rfl

/-- **What `memcpy` leaves**: the bytes of the source up to where the destination begins, over and
over. -/
theorem memcpy_eq_stored (dest src len : UInt32) (mem : Ram) :
    memcpy dest src len mem
      = stored dest len.toNat
        (fun i => mem (src + UInt32.ofNat (i % (dest - src).toNat))) mem :=
  memcpyFrom_eq_stored len.toNat_lt.le dest src mem

/-- A copy of bytes that lie somewhere else. -/
lemma memcpy_of_apart {dest src len : UInt32} {mem : Ram} {g : ℕ → UInt8}
    (hheld : Holds mem src len.toNat g) (hapart : Apart dest len.toNat src len.toNat) :
    memcpy dest src len mem = stored dest len.toNat g mem := by
  have hbefore : ∀ i < len.toNat, i % (dest - src).toNat = i := by
    intro i hi
    refine Nat.mod_eq_of_lt ?_
    by_contra hnot
    have hinside : (dest - src).toNat < len.toNat := by omega
    refine hapart 0 (Nat.zero_lt_of_lt hi) _ hinside ?_
    rw [add_distance]
    exact add_zero dest
  rw [memcpy_eq_stored]
  funext a
  rw [stored, stored]
  by_cases ha : (a - dest).toNat < len.toNat
  · rw [if_pos ha, if_pos ha, hbefore _ ha, hheld _ ha]
  · rw [if_neg ha, if_neg ha]

/-- **When `memcpy` copies.**  Every byte of the source is found in its place of the destination,
whatever memory holds, if and only if the destination is the source, or it does not begin among
the bytes of the source. -/
theorem memcpy_copies_iff (dest src len : UInt32) :
    (∀ (mem : Ram) (i : ℕ), i < len.toNat →
        memcpy dest src len mem (dest + UInt32.ofNat i) = mem (src + UInt32.ofNat i)) ↔
      dest = src ∨ len ≤ dest - src := by
  have hlen := len.toNat_lt
  simp only [memcpy_eq_stored]
  constructor
  · intro h
    by_contra hnot
    obtain ⟨hne, hlt⟩ := not_or.mp hnot
    have hinside : (dest - src).toNat < len.toNat := not_le.mp hlt
    -- only the first byte of the source is set
    have hcopy := h (fun a => if a = src then 1 else 0) (dest - src).toNat hinside
    rw [stored_inside hinside hlen.le, Nat.mod_self, add_distance, if_neg hne] at hcopy
    have hfirst : src + UInt32.ofNat 0 = src := add_zero src
    rw [if_pos hfirst] at hcopy
    exact absurd hcopy (by decide)
  · rintro h mem i hi
    rw [stored_inside hi hlen.le]
    rcases h with rfl | hle
    · rw [sub_self, UInt32.toNat_zero, Nat.mod_zero]
    · have hbefore : i < (dest - src).toNat :=
        Nat.lt_of_lt_of_le hi (UInt32.le_iff_toNat_le.mp hle)
      rw [Nat.mod_eq_of_lt hbefore]

end SzymOS
