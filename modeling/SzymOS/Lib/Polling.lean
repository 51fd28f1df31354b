import Mathlib.Tactic.Common
import Mathlib.Data.Int.Notation
import Mathlib.Data.Nat.Find

/-!
# Bounded polling

The loop `while (waiting(read()) && timeout--);` over a device whose answers are a stream.  The
counter is tested after the answer and decremented by the test, so a loop that starts with `t`
reads up to `t + 1` answers, and ends with `-1` when none of them was what it waited for.

Two more loops are like it: one whose counter is decremented in the body, and one with a body that
can give up.

Such loops are easy to get wrong by one, and the wrong ones look right.  The counter that the loop
ends with is tested by the code behind it, and what the test decides is not always what it is meant
to decide: the answer that was waited for can be the very last one the loop reads, and then the
counter is as low as after a wait in vain.  The lemmas say for each loop what its final counter
tells about the answers, in terms of the stream alone, and without saying which of the loops is
right.

The stream is a function on the natural numbers, and a loop returns the position behind its last
answer.  So what one wait has read, the next one does not read again, and a device is whatever
stream one likes.

* `poll_le` — how many answers a wait reads at most.
* `poll_congr` — two streams with the same answers lead to the same wait.
* `poll_pos_iff` — the final counter is positive exactly when the answer came in time.
* `poll_last_iff` — what the last answer read satisfies, in terms of the stream alone.
* `poll_judged_iff` — when the counter says whether the last answer was what it waited for.
* `countDown_eq` — the loop that decrements in its body reads the same answers.
* `pollUntil_nonneg` — what the last answer satisfies when the loop with a body ends with its
  counter not negative.
* `pollUntil_judged_iff` — when its counter says whether the last answer was what it waited for.
-/

set_option autoImplicit false

namespace Polling

variable {α : Type*}

/-! ## The loop

The two results are the counter and the position.  Both have simple bounds, which is all that a
proof about time needs; what the counter means needs to know where the first answer is that ends the
wait. -/

/-- The final counter, and the position in the stream after the last answer read. -/
def poll (p : α → Bool) (s : ℕ → α) : (t n : ℕ) → ℤ × ℕ
  | 0, n => if p (s n) then (-1, n + 1) else (0, n + 1)
  | t + 1, n => if p (s n) then poll p s t (n + 1) else (t + 1, n + 1)

variable {p : α → Bool} {s : ℕ → α}

/-- A loop whose first answer is what it waits for. -/
lemma poll_done {n : ℕ} (h : p (s n) = false) (t : ℕ) :
    poll p s (t + 1) n = ((t : ℤ) + 1, n + 1) := by
  rw [poll, if_neg (by simp [h])]

/-- A loop reads at least one answer. -/
lemma lt_poll (t n : ℕ) : n < (poll p s t n).2 := by
  induction t generalizing n with
  | zero =>
      rw [poll]
      split_ifs <;> exact Nat.lt_succ_self n
  | succ t ih =>
      rw [poll]
      split_ifs
      · exact Nat.lt_trans (Nat.lt_succ_self n) (ih (n + 1))
      · exact Nat.lt_succ_self n

/-- And at most one more than its counter. -/
lemma poll_le (t n : ℕ) : (poll p s t n).2 ≤ n + (t + 1) := by
  induction t generalizing n with
  | zero =>
      rw [poll]
      split_ifs <;> exact Nat.le_refl _
  | succ t ih =>
      rw [poll]
      split_ifs
      · exact Nat.le_trans (ih (n + 1)) (by omega)
      · exact Nat.add_le_add_left (by omega) n

/-- No more than its counter if it ends in time. -/
lemma poll_le_of_pos {t n : ℕ} (h : 0 < (poll p s t n).1) : (poll p s t n).2 ≤ n + t := by
  induction t generalizing n with
  | zero =>
      rw [poll] at h
      split_ifs at h <;> exact absurd h (by simp)
  | succ t ih =>
      rw [poll] at h ⊢
      split_ifs at h ⊢ with hp
      · exact Nat.le_trans (ih h) (by omega)
      · exact Nat.add_le_add_left (by omega) n

/-- **Only the answers that are read matter**, and not where in the stream they stand. -/
theorem poll_congr {s' : ℕ → α} {t n n' : ℕ}
    (h : ∀ j, n + j < (poll p s t n).2 → s' (n' + j) = s (n + j)) :
    poll p s' t n' = ((poll p s t n).1, n' + ((poll p s t n).2 - n)) := by
  induction t generalizing n n' with
  | zero =>
      have hend : (poll p s 0 n).2 = n + 1 := by
        rw [poll]
        split_ifs <;> rfl
      have h0 : s' n' = s n := h 0 (by rw [hend]; exact Nat.lt_succ_self n)
      rw [poll, poll, h0]
      split_ifs
      · simp
      · simp
  | succ t ih =>
      have h0 : s' n' = s n := h 0 (lt_poll (t + 1) n)
      rw [poll, h0]
      by_cases hp : p (s n) = true
      · have hlt := lt_poll (p := p) (s := s) t (n + 1)
        have hstep : poll p s (t + 1) n = poll p s t (n + 1) := by rw [poll, if_pos hp]
        rw [hstep] at h ⊢
        rw [if_pos hp, @ih (n + 1) (n' + 1)]
        · exact Prod.ext rfl (by simp only; omega)
        · intro j hj
          have hnext := h (j + 1) (by omega)
          rwa [Nat.add_right_comm n' 1, Nat.add_right_comm n 1]
      · have hdone : poll p s (t + 1) n = ((t : ℤ) + 1, n + 1) := by rw [poll, if_neg hp]
        rw [hdone, if_neg hp]
        simp

/-! ## The answer that ends the wait

The predicate `FirstAt` names the place of that answer.  Every statement about the end of the loop
is by cases on it: the answer comes in time, it comes as the last one, or it does not come at all.
-/

/-- The first answer that ends the wait, `k` answers from `n` on. -/
def FirstAt (p : α → Bool) (s : ℕ → α) (n k : ℕ) : Prop :=
  (∀ j < k, p (s (n + j)) = true) ∧ p (s (n + k)) = false

lemma firstAt_zero {n : ℕ} : FirstAt p s n 0 ↔ p (s n) = false := by
  simp [FirstAt]

lemma firstAt_succ {n k : ℕ} : FirstAt p s n (k + 1) ↔ p (s n) = true ∧ FirstAt p s (n + 1) k := by
  have hadd : n + (k + 1) = n + 1 + k := by omega
  rw [FirstAt, FirstAt, hadd]
  constructor
  · rintro ⟨hall, hend⟩
    refine ⟨hall 0 (by omega), ?_, hend⟩
    intro j hj
    have hnext := hall (j + 1) (by omega)
    rwa [show n + (j + 1) = n + 1 + j by omega] at hnext
  · rintro ⟨h0, hall, hend⟩
    refine ⟨?_, hend⟩
    intro j hj
    cases j with
    | zero => exact h0
    | succ j =>
        rw [show n + (j + 1) = n + 1 + j by omega]
        exact hall j (by omega)

lemma FirstAt.unique {n k l : ℕ} (hk : FirstAt p s n k) (hl : FirstAt p s n l) : k = l := by
  rcases Nat.lt_trichotomy k l with h | h | h
  · exact absurd (hl.1 k h) (by simp [hk.2])
  · exact h
  · exact absurd (hk.1 l h) (by simp [hl.2])

/-- **When the wait is over in time.** -/
theorem poll_pos_iff (t n : ℕ) : 0 < (poll p s t n).1 ↔ ∃ k < t, FirstAt p s n k := by
  induction t generalizing n with
  | zero =>
      rw [poll]
      constructor
      · intro h
        split_ifs at h
        · exact absurd h (by simp)
        · exact absurd h (by simp)
      · rintro ⟨k, hk, -⟩
        exact absurd hk (Nat.not_lt_zero k)
  | succ t ih =>
      rw [poll]
      split_ifs with hp
      · rw [ih]
        constructor
        · rintro ⟨k, hk, hfirst⟩
          exact ⟨k + 1, by omega, firstAt_succ.mpr ⟨hp, hfirst⟩⟩
        · rintro ⟨k, hk, hfirst⟩
          cases k with
          | zero => exact absurd (firstAt_zero.mp hfirst) (by simp [hp])
          | succ k => exact ⟨k, by omega, (firstAt_succ.mp hfirst).2⟩
      · refine ⟨fun _ => ⟨0, by omega, firstAt_zero.mpr (by simpa using hp)⟩, ?_⟩
        intro _
        exact Int.natCast_pos.mpr (Nat.succ_pos t)

/-- **What the last answer satisfies**, for a property that ends the wait: the first of `t + 1`
answers that ends it is there, and satisfies the property. -/
theorem poll_last_iff {Q : α → Prop} (hQ : ∀ a, Q a → p a = false) (t n : ℕ) :
    Q (s ((poll p s t n).2 - 1)) ↔ ∃ k ≤ t, FirstAt p s n k ∧ Q (s (n + k)) := by
  induction t generalizing n with
  | zero =>
      have hlast : (poll p s 0 n).2 - 1 = n := by
        rw [poll]
        split_ifs <;> rfl
      rw [hlast]
      constructor
      · exact fun h => ⟨0, Nat.le_refl 0, firstAt_zero.mpr (hQ _ h), h⟩
      · rintro ⟨k, hk, -, h⟩
        rw [Nat.le_zero.mp hk] at h
        exact h
  | succ t ih =>
      rw [poll]
      split_ifs with hp
      · rw [ih]
        constructor
        · rintro ⟨k, hk, hfirst, h⟩
          refine ⟨k + 1, by omega, firstAt_succ.mpr ⟨hp, hfirst⟩, ?_⟩
          rwa [show n + (k + 1) = n + 1 + k by omega]
        · rintro ⟨k, hk, hfirst, h⟩
          cases k with
          | zero => exact absurd (firstAt_zero.mp hfirst) (by simp [hp])
          | succ k =>
              refine ⟨k, by omega, (firstAt_succ.mp hfirst).2, ?_⟩
              rwa [show n + (k + 1) = n + 1 + k by omega] at h
      · constructor
        · exact fun h => ⟨0, by omega, firstAt_zero.mpr (by simpa using hp), h⟩
        · rintro ⟨k, -, hfirst, h⟩
          cases k with
          | zero => exact h
          | succ k => exact absurd (firstAt_succ.mp hfirst).1 hp

/-- Where the loop ends when the answer comes. -/
lemma poll_snd_of_firstAt {t n k : ℕ} (hk : k ≤ t) (h : FirstAt p s n k) :
    (poll p s t n).2 = n + k + 1 := by
  induction t generalizing n k with
  | zero =>
      rw [Nat.le_zero.mp hk, poll]
      split_ifs <;> rfl
  | succ t ih =>
      cases k with
      | zero => rw [poll, if_neg (by simp [firstAt_zero.mp h]), Nat.add_zero]
      | succ k =>
          obtain ⟨hp, hrest⟩ := firstAt_succ.mp h
          rw [poll, if_pos hp, ih (by omega) hrest]
          omega

/-- **When the counter is right about the last answer.**  It is positive exactly if that answer ends
the wait, unless the first such answer is the last that the loop can read. -/
theorem poll_judged_iff (t n : ℕ) :
    ((0 < (poll p s t n).1) ↔ p (s ((poll p s t n).2 - 1)) = false) ↔ ¬ FirstAt p s n t := by
  have hlast : p (s ((poll p s t n).2 - 1)) = false ↔ ∃ k ≤ t, FirstAt p s n k := by
    rw [poll_last_iff (Q := fun a => p a = false) fun _ h => h]
    exact exists_congr fun k => and_congr_right fun _ => and_iff_left_of_imp fun h => h.2
  rw [poll_pos_iff, hlast]
  constructor
  · intro hiff hfirst
    obtain ⟨k, hk, hk'⟩ := hiff.mpr ⟨t, Nat.le_refl t, hfirst⟩
    exact absurd (hk'.unique hfirst) (Nat.ne_of_lt hk)
  · intro hfirst
    constructor
    · rintro ⟨k, hk, hk'⟩
      exact ⟨k, Nat.le_of_lt hk, hk'⟩
    · rintro ⟨k, hk, hk'⟩
      refine ⟨k, Nat.lt_of_le_of_ne hk ?_, hk'⟩
      rintro rfl
      exact hfirst hk'

/-- A loop that nothing ends in time reads all the answers that it can. -/
lemma poll_of_never {t n : ℕ} (h : ∀ k ≤ t, p (s (n + k)) = true) :
    poll p s t n = (-1, n + (t + 1)) := by
  induction t generalizing n with
  | zero =>
      have hfirst : p (s n) = true := h 0 (Nat.le_refl 0)
      rw [poll, if_pos hfirst]
  | succ t ih =>
      have hfirst : p (s n) = true := h 0 (Nat.zero_le _)
      have hrest : ∀ k ≤ t, p (s (n + 1 + k)) = true := by
        intro k hk
        rw [Nat.add_assoc, Nat.add_comm 1 k]
        exact h (k + 1) (Nat.succ_le_succ hk)
      rw [poll, if_pos hfirst, ih hrest, Nat.add_assoc, Nat.add_comm 1]

/-! ## The counter decremented in the body

This loop stops at zero and not below it.  It reads the same answers as the first one, and its
counter is the same but for the last value; so all that is known about the first loop carries over
by rewriting. -/

/-- `while (waiting(read()) && timeout > 0) timeout--;` -/
def countDown (p : α → Bool) (s : ℕ → α) : (t n : ℕ) → ℕ × ℕ
  | 0, n => (0, n + 1)
  | t + 1, n => if p (s n) then countDown p s t (n + 1) else (t + 1, n + 1)

/-- It reads what `poll` reads, and its counter stops at zero. -/
lemma countDown_eq (t n : ℕ) :
    countDown p s t n = ((poll p s t n).1.toNat, (poll p s t n).2) := by
  induction t generalizing n with
  | zero =>
      rw [countDown, poll]
      split_ifs <;> rfl
  | succ t ih =>
      rw [countDown, poll]
      split_ifs
      · exact ih (n + 1)
      · exact Prod.ext (by simp) rfl

/-! ## A loop with a body

The third loop tests its counter before it reads, so it reads one answer less, and it can end in
three ways: given up by its body, broken off by its body, or run out.  Only in the last case has
nothing been found.  But a loop that its last answer breaks off ends with the counter at zero, and
code that asks for a positive counter takes it for one that has run out. -/

/-- `while (timeout--) { a = read(); if (failed(a)) return; if (done(a)) break; }`: the final
counter, or nothing if it returned from inside. -/
def pollUntil (failed done : α → Bool) (s : ℕ → α) : (t n : ℕ) → Option ℤ × ℕ
  | 0, n => (some (-1), n)
  | t + 1, n =>
      if failed (s n) then (none, n + 1)
      else if done (s n) then (some t, n + 1)
      else pollUntil failed done s t (n + 1)

/-- **What the last answer satisfies** when such a loop ends with its counter not negative. -/
theorem pollUntil_nonneg {failed done : α → Bool} {t n m : ℕ} {k : ℤ} (hk : 0 ≤ k)
    (h : pollUntil failed done s t n = (some k, m)) :
    n < m ∧ failed (s (m - 1)) = false ∧ done (s (m - 1)) = true := by
  induction t generalizing n with
  | zero =>
      rw [pollUntil, Prod.mk.injEq, Option.some.injEq] at h
      omega
  | succ t ih =>
      rw [pollUntil] at h
      split_ifs at h with hf hd
      · exact absurd (Prod.mk.inj h).1 (by simp)
      · obtain ⟨-, rfl⟩ := Prod.mk.inj h
        exact ⟨Nat.lt_succ_self n, by simpa using hf, hd⟩
      · obtain ⟨hlt, hlast⟩ := ih h
        exact ⟨by omega, hlast⟩

/-- What keeps such a loop going. -/
def goesOn (failed done : α → Bool) (a : α) : Bool := !failed a && !done a

/-- **Where such a loop ends**: at the first answer that stops it, if there is one in time. -/
lemma pollUntil_of_firstAt {failed done : α → Bool} {t n k : ℕ} (hk : k < t)
    (h : FirstAt (goesOn failed done) s n k) : pollUntil failed done s t n
      = (if failed (s (n + k)) then none else some ((t - 1 - k : ℕ) : ℤ), n + k + 1) := by
  induction t generalizing n k with
  | zero => exact absurd hk (Nat.not_lt_zero k)
  | succ t ih =>
      rw [pollUntil]
      cases k with
      | zero =>
          have hstop := firstAt_zero.mp h
          rw [goesOn] at hstop
          cases hf : failed (s n) with
          | true => simp
          | false =>
              have hdone : done (s n) = true := by simpa [hf] using hstop
              simp [hdone]
      | succ k =>
          obtain ⟨hgo, hrest⟩ := firstAt_succ.mp h
          rw [goesOn, Bool.and_eq_true, Bool.not_eq_true', Bool.not_eq_true'] at hgo
          rw [hgo.1, hgo.2, ih (Nat.lt_of_succ_lt_succ hk) hrest]
          have hplace : n + 1 + k = n + (k + 1) := by omega
          have hcount : t - 1 - k = t + 1 - 1 - (k + 1) := by omega
          simp only [Bool.false_eq_true, if_false, hplace, hcount]

/-- It runs out if no answer stops it. -/
lemma pollUntil_of_never {failed done : α → Bool} {t n : ℕ}
    (h : ∀ k < t, goesOn failed done (s (n + k)) = true) :
    pollUntil failed done s t n = (some (-1), n + t) := by
  induction t generalizing n with
  | zero => rfl
  | succ t ih =>
      have hgo := h 0 (Nat.zero_lt_succ t)
      rw [goesOn, Bool.and_eq_true, Bool.not_eq_true', Bool.not_eq_true', Nat.add_zero] at hgo
      rw [pollUntil, hgo.1, hgo.2, ih fun k hk => ?_]
      · simp only [Bool.false_eq_true, if_false]
        rw [Nat.add_right_comm, Nat.add_assoc]
      · have hnext := h (k + 1) (Nat.succ_lt_succ hk)
        rwa [Nat.add_right_comm, Nat.add_assoc]

/-- The first answer that stops the loop, or none among the first `t`. -/
lemma firstAt_or_never (p : α → Bool) (s : ℕ → α) (t n : ℕ) :
    (∃ k < t, FirstAt p s n k) ∨ ∀ k < t, p (s (n + k)) = true := by
  by_cases h : ∃ k, k < t ∧ p (s (n + k)) = false
  · obtain ⟨hlt, hstop⟩ := Nat.find_spec h
    refine Or.inl ⟨Nat.find h, hlt, ?_, hstop⟩
    intro j hj
    have hmin := Nat.find_min h hj
    exact Bool.of_not_eq_false fun hc => hmin ⟨Nat.lt_trans hj hlt, hc⟩
  · exact Or.inr fun k hk => Bool.of_not_eq_false fun hc => h ⟨k, hk, hc⟩

/-- **When the counter of such a loop is right about the last answer.** -/
theorem pollUntil_judged_iff (failed done : α → Bool) (t n : ℕ) :
    ((∃ k, 0 < k ∧ (pollUntil failed done s (t + 1) n).1 = some k) ↔
        (!failed (s ((pollUntil failed done s (t + 1) n).2 - 1)) &&
          done (s ((pollUntil failed done s (t + 1) n).2 - 1))) = true) ↔
      ¬ (FirstAt (goesOn failed done) s n t ∧ failed (s (n + t)) = false) := by
  rcases firstAt_or_never (goesOn failed done) s (t + 1) n with ⟨k, hk, hfirst⟩ | hnever
  · have hstop := hfirst.2
    rw [pollUntil_of_firstAt hk hfirst]
    rw [goesOn] at hstop
    simp only [Nat.add_sub_cancel]
    cases hf : failed (s (n + k)) with
    | true =>
        refine iff_of_true (by simp) ?_
        rintro ⟨hlate, hok⟩
        rw [← hfirst.unique hlate, hf] at hok
        exact Bool.noConfusion hok
    | false =>
        have hdone : done (s (n + k)) = true := by simpa [hf] using hstop
        simp only [Bool.false_eq_true, if_false, hdone, Bool.not_false, Bool.and_self,
          Option.some.injEq, iff_true]
        constructor
        · rintro ⟨_, hpos, rfl⟩ ⟨hlate, -⟩
          rw [hfirst.unique hlate] at hpos
          simp at hpos
        · intro hlate
          have hne : k ≠ t := by
            rintro rfl
            exact hlate ⟨hfirst, hf⟩
          exact ⟨_, by omega, rfl⟩
  · have hgo := hnever t (Nat.lt_succ_self t)
    rw [goesOn, Bool.and_eq_true, Bool.not_eq_true', Bool.not_eq_true'] at hgo
    have hlast : n + (t + 1) - 1 = n + t := by omega
    rw [pollUntil_of_never hnever]
    simp only [hlast, hgo.1, hgo.2, Bool.and_false, Bool.false_eq_true, Option.some.injEq]
    refine iff_of_true (iff_of_false ?_ id) ?_
    · rintro ⟨k, hpos, rfl⟩
      omega
    · rintro ⟨hlate, -⟩
      have hend := hlate.2
      rw [hnever t (Nat.lt_succ_self t)] at hend
      exact Bool.noConfusion hend

lemma le_pollUntil (failed done : α → Bool) (t n : ℕ) : n ≤ (pollUntil failed done s t n).2 := by
  induction t generalizing n with
  | zero => exact Nat.le_refl n
  | succ t ih =>
      rw [pollUntil]
      split_ifs
      · exact Nat.le_succ n
      · exact Nat.le_succ n
      · exact Nat.le_trans (Nat.le_succ n) (ih (n + 1))

lemma pollUntil_le (failed done : α → Bool) (t n : ℕ) :
    (pollUntil failed done s t n).2 ≤ n + t := by
  induction t generalizing n with
  | zero => exact Nat.le_refl n
  | succ t ih =>
      rw [pollUntil]
      split_ifs
      · exact Nat.add_le_add_left (Nat.le_add_left 1 t) n
      · exact Nat.add_le_add_left (Nat.le_add_left 1 t) n
      · exact Nat.le_trans (ih (n + 1)) (by omega)

end Polling
