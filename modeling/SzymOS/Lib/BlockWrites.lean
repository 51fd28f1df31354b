import Mathlib.Tactic.Common
import Mathlib.Logic.Function.Basic

/-!
# Writing blocks in order, until a write is refused

A store is a function from block addresses to blocks.  `writeFrom` writes the blocks of a new
image at consecutive addresses, and stops at the first write that is refused; a write may also be
acknowledged and yet not stored.  This is all that happens to a disk when a whole image is written
out sector by sector, so what an interrupted write-out leaves behind is read off one closed form.

What makes the closed form worth having is that a torn image is a statement about single blocks.  A
block is never half written, the blocks behind the first refusal are the old ones, and which of the
blocks before it are old is up to the outcomes.  So a property of the whole image that is a matter
of one block at a time is read off `writeFrom_apply` with no induction, and a property that ties two
blocks together fails exactly where a cut can fall between them.

The blocks and the addresses are arbitrary, and nothing is said about what a block holds.  Whoever
instantiates the file says what the image is, and which outcomes its device can have.

* `writeFrom_ok` — the write-out is acknowledged as a whole exactly when no write was refused.
* `writeFrom_apply` — a block is the new one exactly when its own write was stored and no earlier
  one was refused; otherwise it is the old one.
* `writeFrom_add` — two write-outs, one after the other, are one longer write-out.
* `attempts` — how many writes such a write-out makes.
* `cut k` — the drive that stores `k` writes and refuses the rest; `writeFrom_cut` is the torn
  image it leaves: new below the cut, old from the cut on.
-/

set_option autoImplicit false

namespace Blocks

/-! ## The write-out

The loop goes through the addresses in order and returns at the first refusal, as loops over an
error code do.  Its result is a flag and a store.  The lemmas give both in closed form, and both are
by induction on the number of blocks, the start being general. -/

/-- What becomes of one block write: stored; acknowledged but lost; refused. -/
inductive Outcome where
  | stored
  | lost
  | refused
  deriving DecidableEq, Repr

variable {β : Type*}

/-- Write `b a` at `n` consecutive addresses from `a` on, stopping at the first refusal.  The
flag says whether every write was acknowledged. -/
def writeFrom (o : ℕ → Outcome) (b : ℕ → β) : (n a : ℕ) → (ℕ → β) → Bool × (ℕ → β)
  | 0, _, d => (true, d)
  | n + 1, a, d =>
      match o a with
      | .stored => writeFrom o b n (a + 1) (Function.update d a (b a))
      | .lost => writeFrom o b n (a + 1) d
      | .refused => (false, d)

variable {o : ℕ → Outcome} {b : ℕ → β}

/-- Blocks below the start are not touched, and neither are blocks past the end. -/
lemma writeFrom_outside (n a : ℕ) (d : ℕ → β) {x : ℕ} (hx : x < a ∨ a + n ≤ x) :
    (writeFrom o b n a d).2 x = d x := by
  induction n generalizing a d with
  | zero => rfl
  | succ n ih =>
      rw [writeFrom]
      cases o a with
      | stored => rw [ih (a + 1) _ (by omega), Function.update_of_ne (by omega)]
      | lost => rw [ih (a + 1) _ (by omega)]
      | refused => rfl

theorem writeFrom_ok (n a : ℕ) (d : ℕ → β) :
    (writeFrom o b n a d).1 = true
      ↔ ∀ x, a ≤ x → x < a + n → o x ≠ .refused := by
  induction n generalizing a d with
  | zero => simp only [writeFrom, true_iff]; omega
  | succ n ih =>
      have hsplit : (∀ x, a ≤ x → x < a + (n + 1) → o x ≠ .refused)
          ↔ o a ≠ .refused ∧ ∀ x, a + 1 ≤ x → x < a + 1 + n → o x ≠ .refused := by
        constructor
        · exact fun h => ⟨h a (Nat.le_refl _) (by omega), fun x h1 h2 => h x (by omega) (by omega)⟩
        · rintro ⟨ha, h⟩ x h1 h2
          rcases Nat.eq_or_lt_of_le h1 with rfl | h1
          · exact ha
          · exact h x h1 (by omega)
      rw [hsplit, writeFrom]
      cases ho : o a with
      | stored => simp [ih]
      | lost => simp [ih]
      | refused => simp

/-- **The closed form.**  A block is the new one exactly when the run reached it and its write was
stored. -/
theorem writeFrom_apply (n a : ℕ) (d : ℕ → β) {x : ℕ} (ha : a ≤ x) (hx : x < a + n) :
    ((o x = .stored ∧ ∀ y, a ≤ y → y < x → o y ≠ .refused) →
        (writeFrom o b n a d).2 x = b x) ∧
      (¬ (o x = .stored ∧ ∀ y, a ≤ y → y < x → o y ≠ .refused) →
        (writeFrom o b n a d).2 x = d x) := by
  induction n generalizing a d with
  | zero => omega
  | succ n ih =>
      rcases Nat.eq_or_lt_of_le ha with rfl | ha'
      · -- the write at `x` itself comes first, and no later one touches it
        rw [writeFrom]
        cases ho : o a with
        | stored =>
            rw [writeFrom_outside _ _ _ (by omega), Function.update_self]
            simp only [true_and, not_forall, not_not, implies_true]
            rintro ⟨y, h1, h2, -⟩
            omega
        | lost =>
            rw [writeFrom_outside _ _ _ (by omega)]
            simp
        | refused => simp
      · -- an earlier write comes first: split the condition at `a`
        have hsplit : (o x = .stored ∧ ∀ y, a ≤ y → y < x → o y ≠ .refused)
            ↔ o a ≠ .refused ∧
              (o x = .stored ∧ ∀ y, a + 1 ≤ y → y < x → o y ≠ .refused) := by
          constructor
          · rintro ⟨hs, h⟩
            exact ⟨h a (Nat.le_refl _) ha', hs, fun y h1 h2 => h y (by omega) h2⟩
          · rintro ⟨h0, hs, h⟩
            refine ⟨hs, ?_⟩
            intro y h1 h2
            rcases Nat.eq_or_lt_of_le h1 with rfl | h1
            · exact h0
            · exact h y h1 h2
        rw [hsplit, writeFrom]
        cases ho : o a with
        | stored =>
            obtain ⟨hnew, hold⟩ := ih (a + 1) (Function.update d a (b a)) ha' (by omega)
            refine ⟨fun h => hnew h.2, ?_⟩
            intro h
            rw [hold (fun hc => h ⟨by simp, hc⟩), Function.update_of_ne (by omega)]
        | lost =>
            obtain ⟨hnew, hold⟩ := ih (a + 1) d ha' (by omega)
            exact ⟨fun h => hnew h.2, fun h => hold fun hc => h ⟨by simp, hc⟩⟩
        | refused => simp

/-- Two write-outs, the second starting where the first ends, are one. -/
theorem writeFrom_add (m n a : ℕ) (d : ℕ → β) :
    writeFrom o b (m + n) a d
      = bif (writeFrom o b m a d).1
        then writeFrom o b n (a + m) (writeFrom o b m a d).2
        else writeFrom o b m a d := by
  induction m generalizing a d with
  | zero => simp [writeFrom]
  | succ m ih =>
      have hlen : m + 1 + n = (m + n) + 1 := by omega
      have hnext : a + (m + 1) = a + 1 + m := by omega
      rw [hlen, writeFrom, writeFrom, hnext]
      cases o a with
      | stored => exact ih (a + 1) _
      | lost => exact ih (a + 1) _
      | refused => rfl

/-! ## The writes that are attempted

A device counts what it is asked to do, also when it refuses.  So the number of requests is not the
number of blocks that are there afterwards: it is one more than the index of the first refusal, or
all of them.  This is what a log of requests, or a clock, is compared with. -/

/-- How many of the `n` writes are attempted: all up to the first that is refused, and that one. -/
def attempts (o : ℕ → Outcome) : (n a : ℕ) → ℕ
  | 0, _ => 0
  | n + 1, a => if o a = .refused then 1 else attempts o n (a + 1) + 1

theorem lt_attempts_iff (n a k : ℕ) :
    k < attempts o n a ↔ k < n ∧ ∀ j < k, o (a + j) ≠ .refused := by
  induction n generalizing a k with
  | zero => simp [attempts]
  | succ n ih =>
      rw [attempts]
      cases k with
      | zero =>
          split_ifs
          all_goals simp
      | succ k =>
          have hsplit : (∀ j < k + 1, o (a + j) ≠ .refused)
              ↔ o a ≠ .refused ∧ ∀ j < k, o (a + 1 + j) ≠ .refused := by
            rw [Nat.forall_lt_succ_left]
            refine and_congr Iff.rfl (forall₂_congr ?_)
            intro j _
            rw [Nat.add_right_comm, Nat.add_assoc]
          rw [hsplit]
          split_ifs with ho
          · simp [ho]
          · rw [Nat.succ_lt_succ_iff, ih, Nat.succ_lt_succ_iff, and_iff_right ho]

/-- Of two write-outs, the second is attempted if the first is acknowledged. -/
lemma attempts_add (m n a : ℕ) (d : ℕ → β) :
    attempts o (m + n) a
      = bif (writeFrom o b m a d).1 then m + attempts o n (a + m) else attempts o m a := by
  induction m generalizing a d with
  | zero => simp [writeFrom]
  | succ m ih =>
      have hlen : m + 1 + n = (m + n) + 1 := by omega
      have hnext : a + (m + 1) = a + 1 + m := by omega
      rw [hlen, attempts, attempts, writeFrom, hnext]
      cases ho : o a with
      | stored =>
          rw [if_neg (by simp), if_neg (by simp), ih (a + 1) (Function.update d a (b a))]
          cases (writeFrom o b m (a + 1) (Function.update d a (b a))).1
          all_goals simp only [cond_true, cond_false]
          omega
      | lost =>
          rw [if_neg (by simp), if_neg (by simp), ih (a + 1) d]
          cases (writeFrom o b m (a + 1) d).1
          all_goals simp only [cond_true, cond_false]
          omega
      | refused => rfl

/-- An acknowledged write-out has attempted every write. -/
lemma attempts_of_ok {n a : ℕ} {d : ℕ → β} (h : (writeFrom o b n a d).1 = true) :
    attempts o n a = n := by
  have hadd := attempts_add (o := o) (b := b) n 0 a d
  rwa [h, cond_true, attempts, Nat.add_zero] at hadd

/-! ## All stored, and cut after `k`

Two devices are of special interest.  One stores everything, and leaves the new image.  The other
works for some time and then refuses everything, which is how a loss of power looks from the
outside: the image it leaves has one border, new blocks below it and old ones above. -/

/-- With every write stored the new image is there in full. -/
lemma writeFrom_all_stored (n a : ℕ) (d : ℕ → β)
    (h : ∀ x, a ≤ x → x < a + n → o x = .stored) {x : ℕ} (ha : a ≤ x) (hx : x < a + n) :
    (writeFrom o b n a d).2 x = b x :=
  (writeFrom_apply n a d ha hx).1 ⟨h x ha hx, fun y h1 h2 => by rw [h y h1 (by omega)]; simp⟩

/-- A drive that stores the first `k` writes from address `a` on, and refuses every later one. -/
def cut (a k : ℕ) : ℕ → Outcome := fun x => if x < a + k then .stored else .refused

lemma cut_injective {a k l : ℕ} (h : cut a k = cut a l) : k = l := by
  by_contra hne
  have hfirst := congrFun h (a + min k l)
  simp only [cut] at hfirst
  split_ifs at hfirst <;> omega

/-- **The torn image.**  New below the cut, old from the cut on. -/
theorem writeFrom_cut (n a k : ℕ) (d : ℕ → β) {x : ℕ} (ha : a ≤ x) (hx : x < a + n) :
    (writeFrom (cut a k) b n a d).2 x = if x < a + k then b x else d x := by
  obtain ⟨hnew, hold⟩ := writeFrom_apply (o := cut a k) (b := b) n a d ha hx
  split_ifs with hk
  · refine hnew ⟨by simp [cut, hk], ?_⟩
    intro y _ h2
    have hy : y < a + k := by omega
    simp [cut, hy]
  · exact hold (by simp [cut, hk])

end Blocks
