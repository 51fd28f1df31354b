import SzymOS.Lib.Scan

/-!
# Lexicographic order by a loop

The loop `while (n && *p && *p == *q) { p++; q++; n--; }` over two texts in memory.  Where it stops
the elements under the pointers decide which text comes first, because the terminator is below every
element: a text is before its own continuations.

The loop is that of `strcmp`, and with a count that of `strncmp`.  A count that is larger than one
of the texts makes no difference, so that the loop without a count is the loop with a count that is
large enough, and there is one set of lemmas for both.

Nothing depends on what the elements are.  They need a decidable equality for the loop and an order
for the decision, in which the terminator is least.  What order that is, the caller says: for bytes
it matters very much whether they are compared with a sign or without one.

* `agree_compare` — the decision is the lexicographic order of the first `n` elements.
* `agree_left` — the loop stops by itself, if `n` is larger than a text.
* `agreeReads_within`, `readsAgain_within` — it reads nothing behind either terminator.
-/

set_option autoImplicit false

namespace Lexicographic

open Scan Std

/-- One access of the loop. -/
inductive LoopRead where
  | first (i : ℕ)
  | second (i : ℕ)

/-- It is not behind the terminators, if these are at `a` and `b`. -/
def LoopRead.Within (a b : ℕ) : LoopRead → Prop
  | .first i => i ≤ a
  | .second i => i ≤ b

variable {α : Type*} [DecidableEq α]

/-- The loop: what is left of `n`, and how far the pointers have advanced. -/
def agree (stop : α) (first second : ℕ → α) : (n i : ℕ) → ℕ × ℕ
  | 0, i => (0, i)
  | n + 1, i =>
      if first i ≠ stop ∧ first i = second i then agree stop first second n (i + 1) else (n + 1, i)

/-- What its condition reads.  The second text is read only before the end of the first. -/
def agreeReads (stop : α) (first second : ℕ → α) : (n i : ℕ) → List LoopRead
  | 0, _ => []
  | n + 1, i =>
      .first i :: if first i = stop then [] else
        .second i :: if first i = second i then agreeReads stop first second n (i + 1) else []

variable {stop : α} {first second : ℕ → α}

/-! ## Where it stops

Two texts agree on some first elements and then differ, or one of them ends.  In all cases the loop
stops there at the latest, because the terminators are elements like others: where one text ends and
the other goes on, the elements differ, and where both end, the first condition fails.  The lemmas
about the accesses say that it never looks further. -/

/-- **The loop stops by itself** before it has counted down to 0. -/
theorem agree_left {n i : ℕ} {xs : List α} (hfirst : TextAt first stop i xs)
    (hn : xs.length < n) : (agree stop first second n i).1 ≠ 0 := by
  induction xs generalizing n i with
  | nil =>
      obtain ⟨n, rfl⟩ := Nat.exists_eq_succ_of_ne_zero (Nat.ne_of_gt hn)
      have hend : first i = stop := hfirst
      rw [agree, if_neg (fun h => h.1 hend)]
      exact Nat.succ_ne_zero n
  | cons x xs ih =>
      obtain ⟨n, rfl⟩ := Nat.exists_eq_succ_of_ne_zero (Nat.ne_zero_of_lt hn)
      rw [agree]
      split_ifs with hsame
      · exact ih hfirst.2 (Nat.lt_of_succ_lt_succ hn)
      · exact Nat.succ_ne_zero n

/-- The pointers are not behind the terminators. -/
lemma agree_within (n : ℕ) {i : ℕ} {xs ys : List α} (hfirst : TextAt first stop i xs)
    (hsecond : TextAt second stop i ys) :
    (agree stop first second n i).2 ≤ i + xs.length ∧
      (agree stop first second n i).2 ≤ i + ys.length := by
  induction n generalizing i xs ys with
  | zero => exact ⟨Nat.le_add_right i _, Nat.le_add_right i _⟩
  | succ n ih =>
      rw [agree]
      split_ifs with hsame
      · cases xs with
        | nil => exact absurd hfirst hsame.1
        | cons x xs =>
            cases ys with
            | nil => exact absurd (hsame.2.trans hsecond) hsame.1
            | cons y ys =>
                obtain ⟨hxs, hys⟩ := ih hfirst.2 hsecond.2
                rw [List.length_cons, List.length_cons]
                omega
      · exact ⟨Nat.le_add_right i _, Nat.le_add_right i _⟩

/-- **It reads nothing behind the terminators.** -/
theorem agreeReads_within (n : ℕ) {i : ℕ} {xs ys : List α} (hfirst : TextAt first stop i xs)
    (hsecond : TextAt second stop i ys) :
    ∀ r ∈ agreeReads stop first second n i, r.Within (i + xs.length) (i + ys.length) := by
  induction n generalizing i xs ys with
  | zero => exact fun r hr => absurd hr List.not_mem_nil
  | succ n ih =>
      intro r hr
      rw [agreeReads, List.mem_cons] at hr
      rcases hr with rfl | hr
      · exact Nat.le_add_right i _
      · split_ifs at hr with hend hsame
        · exact absurd hr List.not_mem_nil
        · rw [List.mem_cons] at hr
          rcases hr with rfl | hr
          · exact Nat.le_add_right i _
          · cases xs with
            | nil => exact absurd hfirst hend
            | cons x xs =>
                cases ys with
                | nil => exact absurd (hsame.trans hsecond) hend
                | cons y ys =>
                    have hrest := ih hfirst.2 hsecond.2 r hr
                    rwa [Nat.add_right_comm, Nat.add_right_comm i 1] at hrest
        · rw [List.mem_singleton] at hr
          rw [hr]
          exact Nat.le_add_right i _

/-- **Nor does it**, if the elements under the pointers are read once more. -/
theorem readsAgain_within (n : ℕ) {i : ℕ} {xs ys : List α} (hfirst : TextAt first stop i xs)
    (hsecond : TextAt second stop i ys) :
    ∀ r ∈ agreeReads stop first second n i ++ [.first (agree stop first second n i).2,
      .second (agree stop first second n i).2], r.Within (i + xs.length) (i + ys.length) := by
  obtain ⟨hplace, hplace'⟩ := agree_within n hfirst hsecond
  intro r hr
  rw [List.mem_append, List.mem_cons, List.mem_singleton] at hr
  rcases hr with hr | rfl | rfl
  · exact agreeReads_within n hfirst hsecond r hr
  · exact hplace
  · exact hplace'

/-! ## What it decides

After the loop the caller compares the elements under the pointers, unless the count has run out.
By induction along the loop this is the lexicographic order of what the loop has been allowed to
see. -/

variable [Ord α]

/-- The decision: two texts of which nothing is left to compare are equal. -/
def verdict (first second : ℕ → α) (place : ℕ × ℕ) : Ordering :=
  if place.1 = 0 then .eq else compare (first place.2) (second place.2)

/-- **The decision is the lexicographic order** of the first `n` elements. -/
theorem agree_compare [LawfulEqOrd α] [OrientedOrd α]
    (hleast : ∀ x, x ≠ stop → compare stop x = .lt) (n : ℕ) {i : ℕ} {xs ys : List α}
    (hxs : stop ∉ xs) (hys : stop ∉ ys) (hfirst : TextAt first stop i xs)
    (hsecond : TextAt second stop i ys) :
    verdict first second (agree stop first second n i) = compare (xs.take n) (ys.take n) := by
  induction n generalizing i xs ys with
  | zero => rfl
  | succ n ih =>
      cases xs with
      | nil =>
          -- at the end of the first text the second element alone decides
          have hend : first i = stop := hfirst
          rw [agree, if_neg (fun h => h.1 hend), verdict, if_neg (Nat.succ_ne_zero n), hend]
          cases ys with
          | nil =>
              have hend' : second i = stop := hsecond
              rw [hend', ReflOrd.compare_self]
              rfl
          | cons y ys =>
              rw [hsecond.1]
              exact hleast y fun hy => hys (by rw [hy]; exact List.mem_cons_self)
      | cons x xs =>
          have hx : x ≠ stop := fun hx => hxs (by rw [hx]; exact List.mem_cons_self)
          cases ys with
          | nil =>
              have hend : second i = stop := hsecond
              rw [agree, hfirst.1, hend, if_neg (fun h => h.1 h.2), verdict,
                if_neg (Nat.succ_ne_zero n), hfirst.1, hend, OrientedOrd.eq_swap,
                hleast x hx]
              rfl
          | cons y ys =>
              have hxs' : stop ∉ xs := fun h => hxs (List.mem_cons_of_mem x h)
              have hys' : stop ∉ ys := fun h => hys (List.mem_cons_of_mem y h)
              rw [List.take_succ_cons, List.take_succ_cons, List.compare_cons_cons, agree,
                hfirst.1, hsecond.1]
              split_ifs with hsame
              · rw [hsame.2, ReflOrd.compare_self]
                exact ih hxs' hys' hfirst.2 hsecond.2
              · have hne : compare x y ≠ .eq := fun h => hsame ⟨hx, LawfulEqOrd.eq_of_compare h⟩
                rw [verdict, if_neg (Nat.succ_ne_zero n), hfirst.1, hsecond.1]
                cases hxy : compare x y with
                | eq => exact absurd hxy hne
                | lt => rfl
                | gt => rfl

end Lexicographic
