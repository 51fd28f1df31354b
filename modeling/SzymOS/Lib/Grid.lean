import Mathlib.Logic.Function.Basic
import Mathlib.Tactic.Common

/-!
# Loops over a grid in one array

An array holds the rows of a grid one after the other.  Two nested loops, over the rows and over
the columns of each, visit the places of the array in order (`map_index_points`), so what such a
loop leaves is what one loop over the places leaves.

A loop over rows and columns that computes its place as `row * width + column` is the usual way to
go through a screen, a matrix or a table in C.  Its body mostly depends on the place alone.  The
lemmas take such a loop apart once, so that the proofs about it are about one loop with one index.

The copy is the one case in which the order of the visits matters.  It reads from places further on,
and a loop that goes upwards comes to a place only after it has been read; the induction carries
just this.

* `foldl_fill` — a loop that stores one value everywhere.
* `foldl_shift` — a loop that copies within the array, from further on: what is read has not been
  overwritten yet.
-/

set_option autoImplicit false

namespace Grid

variable {α : Type*}

/-- Row and column, in the order in which two nested loops visit them. -/
def points (width height : ℕ) : List (ℕ × ℕ) :=
  (List.range height).flatMap fun y => (List.range width).map fun x => (y, x)

/-- The place of a point in the array. -/
def index (width : ℕ) (p : ℕ × ℕ) : ℕ := p.1 * width + p.2

/-- **The nested loops visit the places in order.** -/
theorem map_index_points (width height : ℕ) :
    (points width height).map (index width) = List.range (height * width) := by
  induction height with
  | zero => simp [points]
  | succ height ih =>
      have hsucc : points width (height + 1)
          = points width height ++ (List.range width).map fun x => (height, x) := by
        simp [points, List.range_succ]
      rw [hsucc, List.map_append, ih, List.map_map, Nat.add_mul, Nat.one_mul, List.range_add]
      rfl

/-- A step that depends on the place alone. -/
lemma foldl_points {σ : Type*} (step : σ → ℕ → σ) (width height : ℕ) (s : σ) :
    (points width height).foldl (fun s p => step s (index width p)) s
      = (List.range (height * width)).foldl step s := by
  rw [← map_index_points, List.foldl_map]

/-- **Filling**, from the place `start` on. -/
theorem foldl_fill (value : α) (start n : ℕ) (a : ℕ → α) (j : ℕ) :
    (List.range n).foldl (fun a i => Function.update a (start + i) value) a j
      = if start ≤ j ∧ j < start + n then value else a j := by
  induction n with
  | zero => rw [if_neg (by omega)]; rfl
  | succ n ih =>
      rw [List.range_succ, List.foldl_append, List.foldl_cons, List.foldl_nil,
        Function.update_apply, ih]
      by_cases hj : j = start + n
      · rw [if_pos hj, if_pos (by omega)]
      · rw [if_neg hj]
        exact if_congr (by omega) rfl rfl

/-- **Copying down within the array.** -/
theorem foldl_shift (k n : ℕ) (a : ℕ → α) (j : ℕ) :
    (List.range n).foldl (fun a i => Function.update a i (a (i + k))) a j
      = if j < n then a (j + k) else a j := by
  induction n generalizing j with
  | zero => rfl
  | succ n ih =>
      rw [List.range_succ, List.foldl_append, List.foldl_cons, List.foldl_nil,
        Function.update_apply, ih, ih]
      by_cases hj : j = n
      · rw [if_pos hj, if_neg (by omega), if_pos (by omega), hj]
      · rw [if_neg hj]
        exact if_congr (by omega) rfl rfl

end Grid
