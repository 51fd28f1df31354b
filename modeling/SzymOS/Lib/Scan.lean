import Mathlib.Tactic.Common
import Mathlib.Data.List.TakeWhile
import Mathlib.Data.Nat.Periodic

/-!
# Scanning text in memory

A loop `while (cond(*p)) { acc = f(acc, *p); p++; }` over memory, which is a function from addresses
to elements.  Where memory holds a list and a terminator that stops the loop, the loop is a
`takeWhile`, and the pointer is where the `dropWhile` begins.

Parsers in C are made of such loops, one for the blanks, one for the digits, one for a word.  Each
takes a pointer and leaves it where the next one begins.  On a text the loops become functions on
lists, and the parser becomes a composition of these; what is left of C is that the loop reads one
element more than it takes, and that this element may be the terminator but nothing behind it.

A loop may also run over memory in which there is no terminator for it.  `scan` has a bound on its
tests for this case, and `scan_periodic` says that it is not needed where addresses wrap around and
some element stops the loop.

* `TextAt` — memory holds a list and, behind it, the terminator.
* `scan_text` — what the loop computes on such a text, and where it stops.
* `scanTrace_text` — and what it emits, if every element that it takes adds to a trace.
* `mem_scanReads` — it reads no address behind the terminator.
* `scan_periodic` — it stops anywhere, if addresses wrap around.
-/

set_option autoImplicit false

namespace Scan

variable {α β : Type*}

/-! ## Text

A text is a list in memory with its terminator.  The terminator does not occur in the list, or the
text would end there. -/

/-- From address `p` on, memory holds the list and then `stop`. -/
def TextAt (mem : ℕ → α) (stop : α) : (p : ℕ) → List α → Prop
  | p, [] => mem p = stop
  | p, x :: xs => mem p = x ∧ TextAt mem stop (p + 1) xs

variable {mem : ℕ → α} {stop : α}

lemma textAt_append {p : ℕ} {xs ys : List α} : TextAt mem stop p (xs ++ ys) →
    TextAt mem stop (p + xs.length) ys := by
  induction xs generalizing p with
  | nil => exact id
  | cons x xs ih =>
      rintro ⟨-, h⟩
      have hrest := ih h
      rwa [Nat.add_right_comm] at hrest

/-- Element by element, the terminator being one of them. -/
lemma textAt_iff [DecidableEq α] {p : ℕ} {xs : List α} :
    TextAt mem stop p xs ↔ ∀ j ≤ xs.length, mem (p + j) = xs.getD j stop := by
  induction xs generalizing p with
  | nil =>
      refine ⟨fun h j hj => ?_, fun h => h 0 (Nat.le_refl 0)⟩
      rw [Nat.le_zero.mp hj]
      exact h
  | cons x xs ih =>
      rw [TextAt, ih]
      constructor
      · rintro ⟨h0, h⟩ j hj
        cases j with
        | zero => exact h0
        | succ j =>
            have hj' := h j (Nat.le_of_succ_le_succ hj)
            rwa [Nat.add_right_comm] at hj'
      · intro h
        refine ⟨h 0 (Nat.zero_le _), ?_⟩
        intro j hj
        rw [Nat.add_right_comm]
        exact h (j + 1) (Nat.succ_le_succ hj)

/-! ## The loop

One definition computes, one lists the addresses, one collects what the body emits.  They are kept
apart so that a proof about values does not carry addresses along, and are tied together by having
the same recursion. -/

/-- The loop from address `p` on: where it stops, and what it has accumulated; `none` if it has not
stopped after `fuel` tests. -/
def scan (cond : α → Bool) (f : β → α → β) (mem : ℕ → α) : (fuel p : ℕ) → β → Option (ℕ × β)
  | 0, _, _ => none
  | fuel + 1, p, acc =>
      if cond (mem p) then scan cond f mem fuel (p + 1) (f acc (mem p)) else some (p, acc)

/-- The addresses it reads. -/
def scanReads (cond : α → Bool) (mem : ℕ → α) : (fuel p : ℕ) → List ℕ
  | 0, _ => []
  | fuel + 1, p => p :: if cond (mem p) then scanReads cond mem fuel (p + 1) else []

/-- What it emits on the way, one piece for each element that it takes. -/
def scanTrace {γ : Type*} (cond : α → Bool) (f : β → α → β) (g : β → α → List γ) (mem : ℕ → α) :
    (fuel p : ℕ) → β → List γ
  | 0, _, _ => []
  | fuel + 1, p, acc =>
      if cond (mem p) then
        g acc (mem p) ++ scanTrace cond f g mem fuel (p + 1) (f acc (mem p))
      else []

/-- The same over a list. -/
def foldTrace {γ : Type*} (f : β → α → β) (g : β → α → List γ) : β → List α → List γ
  | _, [] => []
  | acc, x :: xs => g acc x ++ foldTrace f g (f acc x) xs

variable {cond : α → Bool}

/-- **A loop over a text** takes the elements that meet its condition. -/
theorem scan_text (f : β → α → β) (hstop : cond stop = false) {fuel p : ℕ} {xs : List α}
    (htext : TextAt mem stop p xs) (hfuel : xs.length < fuel) (acc : β) :
    scan cond f mem fuel p acc
      = some (p + (xs.takeWhile cond).length, (xs.takeWhile cond).foldl f acc) := by
  induction xs generalizing fuel p acc with
  | nil =>
      obtain ⟨fuel, rfl⟩ := Nat.exists_eq_succ_of_ne_zero (Nat.ne_of_gt hfuel)
      have hend : mem p = stop := htext
      rw [scan, hend, if_neg (by simp [hstop])]
      rfl
  | cons x xs ih =>
      obtain ⟨fuel, rfl⟩ := Nat.exists_eq_succ_of_ne_zero (Nat.ne_zero_of_lt hfuel)
      obtain ⟨hx, hrest⟩ := htext
      rw [scan, hx, List.takeWhile_cons]
      split_ifs with hcond
      · rw [ih hrest (Nat.lt_of_succ_lt_succ hfuel), List.length_cons, List.foldl_cons,
          Nat.add_right_comm, Nat.add_assoc]
      · rfl

theorem scanTrace_text {γ : Type*} (f : β → α → β) (g : β → α → List γ) (hstop : cond stop = false)
    {fuel p : ℕ} {xs : List α} (htext : TextAt mem stop p xs) (hfuel : xs.length < fuel) (acc : β) :
    scanTrace cond f g mem fuel p acc = foldTrace f g acc (xs.takeWhile cond) := by
  induction xs generalizing fuel p acc with
  | nil =>
      obtain ⟨fuel, rfl⟩ := Nat.exists_eq_succ_of_ne_zero (Nat.ne_of_gt hfuel)
      have hend : mem p = stop := htext
      rw [scanTrace, hend, if_neg (by simp [hstop])]
      rfl
  | cons x xs ih =>
      obtain ⟨fuel, rfl⟩ := Nat.exists_eq_succ_of_ne_zero (Nat.ne_zero_of_lt hfuel)
      obtain ⟨hx, hrest⟩ := htext
      rw [scanTrace, hx, List.takeWhile_cons]
      split_ifs with hcond
      · rw [ih hrest (Nat.lt_of_succ_lt_succ hfuel), foldTrace]
      · rfl

/-- Behind such a loop the text goes on. -/
lemma textAt_dropWhile (cond : α → Bool) {p : ℕ} {xs : List α} (htext : TextAt mem stop p xs) :
    TextAt mem stop (p + (xs.takeWhile cond).length) (xs.dropWhile cond) := by
  refine textAt_append ?_
  rwa [List.takeWhile_append_dropWhile]

/-- **It reads nothing behind the terminator.** -/
theorem mem_scanReads (hstop : cond stop = false) {fuel p : ℕ} {xs : List α}
    (htext : TextAt mem stop p xs) : ∀ q ∈ scanReads cond mem fuel p, q ≤ p + xs.length := by
  induction xs generalizing fuel p with
  | nil =>
      cases fuel with
      | zero => exact fun q hq => absurd hq List.not_mem_nil
      | succ fuel =>
          have hend : mem p = stop := htext
          intro q hq
          rw [scanReads, hend, if_neg (by simp [hstop]), List.mem_singleton] at hq
          rw [hq]
          exact Nat.le_add_right _ _
  | cons x xs ih =>
      cases fuel with
      | zero => exact fun q hq => absurd hq List.not_mem_nil
      | succ fuel =>
          obtain ⟨-, hrest⟩ := htext
          intro q hq
          rw [scanReads, List.mem_cons] at hq
          rcases hq with rfl | hq
          · exact Nat.le_add_right _ _
          · split_ifs at hq
            · have hle := ih hrest q hq
              rw [List.length_cons]
              omega
            · exact absurd hq List.not_mem_nil

/-- A loop that meets an element which stops it. -/
lemma scan_isSome (f : β → α → β) {fuel p k : ℕ} (hk : k < fuel)
    (hstop : cond (mem (p + k)) = false) (acc : β) : (scan cond f mem fuel p acc).isSome := by
  induction fuel generalizing p k acc with
  | zero => exact absurd hk (Nat.not_lt_zero k)
  | succ fuel ih =>
      rw [scan]
      split_ifs with hcond
      · cases k with
        | zero => exact absurd hcond (by rw [Nat.add_zero] at hstop; simp [hstop])
        | succ k =>
            refine ih (Nat.lt_of_succ_lt_succ hk) ?_ _
            rwa [Nat.add_right_comm]
      · rfl

/-- **Addresses that wrap around.**  Wherever the loop begins, it comes by the element at `n`. -/
theorem scan_periodic (f : β → α → β) {size n : ℕ} (hsize : 0 < size)
    (hmem : Function.Periodic mem size) (hstop : cond (mem n) = false) (p : ℕ) (acc : β) :
    (scan cond f mem size p acc).isSome := by
  refine scan_isSome f (k := (n + (size - p % size)) % size) (Nat.mod_lt _ hsize) ?_ acc
  have hplace : (p + (n + (size - p % size)) % size) % size = n % size := by
    have hlt := Nat.mod_lt p hsize
    have hdiv := Nat.div_add_mod p size
    have hsum : p + (n + (size - p % size)) = n + size * (p / size + 1) := by
      rw [Nat.mul_succ]
      omega
    rw [Nat.add_mod_mod, hsum, Nat.add_mul_mod_self_left]
  rw [← hmem.map_mod_nat, hplace, hmem.map_mod_nat]
  exact hstop

end Scan
