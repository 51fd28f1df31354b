import SzymOS.Lib.Run
import Mathlib.Data.Set.Lattice
import Mathlib.Data.Set.Piecewise
import Mathlib.Order.CompletePartialOrder

/-!
# Programs whose surroundings decide

An abstract program asks its surroundings at places `i : ι`, and an oracle `(i : ι) → Ω i` is all
that they decide.  A concrete program, whose state shows as one of the abstract program, is
*explained* at a set of places when some oracle makes the abstract program give the same result
and the same state, whatever the oracle says elsewhere.  That last part is what lets two
explanations at different places be put together.

The situation is that of a driver.  The abstract program reads and writes places of a store and is
told by its surroundings how each access ends; the concrete program goes through a protocol with a
device, and how an access ends comes out of the state of the device.  To say that the second is an
instance of the first one has to give the answers in advance, as a function of the place, although
the concrete program finds them out one after the other.

That works as long as no place is asked twice in one program.  The set of places in the definition
is there for this, and the premise of `Explained.bind` is that the two sets are disjoint: the oracle
of the whole is the one oracle at the places of the first part, and the other one elsewhere.

* `Explained.bind` — one program after the other, each asking at places of its own.
* `Explained.exact` — the explanation, with the oracle.
* `exists_oracles` — a run, each step of which has an explanation: one oracle a step.
-/

set_option autoImplicit false

namespace Oracle

open Transition

variable {ι : Type*} {Ω : ι → Type*} {γ σ α β ε ρ : Type*}

/-! ## Programs that are explained

The definition quantifies over all oracles that agree with a given one at the places in question.
It could as well ask for one oracle that works, but then nothing could be put together: a second
program brings an oracle of its own, and the first must not mind what that one says at other places.
-/

/-- Some oracle makes `g` do to `view c` what `f` does to `c`, and only what it says at `A`
matters. -/
def Explained (view : γ → σ) (A : Set ι) (f : γ → α × γ) (g : (∀ i, Ω i) → σ → α × σ) (c : γ) :
    Prop :=
  ∃ o : ∀ i, Ω i, ∀ o' : ∀ i, Ω i, (∀ i ∈ A, o' i = o i) →
    g o' (view c) = ((f c).1, view (f c).2)

variable {view : γ → σ} {A B : Set ι} {f : γ → α × γ} {g : (∀ i, Ω i) → σ → α × σ} {c : γ}

/-- An oracle that explains the program. -/
lemma Explained.exact (h : Explained view A f g c) :
    ∃ o, g o (view c) = ((f c).1, view (f c).2) := by
  obtain ⟨o, ho⟩ := h
  exact ⟨o, ho o fun _ _ => rfl⟩

/-- More places do no harm. -/
lemma Explained.mono (h : Explained view A f g c) (hsub : A ⊆ B) : Explained view B f g c := by
  obtain ⟨o, ho⟩ := h
  exact ⟨o, fun o' heq => ho o' fun i hi => heq i (hsub hi)⟩

/-- A program that asks nothing. -/
lemma explained_of_eq [Nonempty (∀ i, Ω i)] (h : ∀ o, g o (view c) = ((f c).1, view (f c).2)) :
    Explained view A f g c := by
  obtain ⟨o⟩ := (inferInstance : Nonempty (∀ i, Ω i))
  exact ⟨o, fun o' _ => h o'⟩

/-- **One after the other.**  `k` starts with `f`, and `l` with `g`.  If what comes after them is
explained at other places, whatever `f` has done, then so is the whole. -/
theorem Explained.bind {k : γ → β × γ} {l : (∀ i, Ω i) → σ → β × σ} (h : Explained view A f g c)
    (h' : ∀ a c', f c = (a, c') → ∃ o : ∀ i, Ω i, ∀ o' : ∀ i, Ω i, (∀ i ∈ B, o' i = o i) →
      g o' (view c) = (a, view c') → l o' (view c) = ((k c).1, view (k c).2))
    (hdisj : Disjoint A B) : Explained view (A ∪ B) k l c := by
  classical
  obtain ⟨o, ho⟩ := h
  obtain ⟨o', ho'⟩ := h' _ _ rfl
  refine ⟨A.piecewise o o', ?_⟩
  intro o'' heq
  have hfirst : g o'' (view c) = ((f c).1, view (f c).2) := by
    refine ho o'' ?_
    intro i hi
    rw [heq i (.inl hi), Set.piecewise_eq_of_mem _ _ _ hi]
  refine ho' o'' ?_ hfirst
  intro i hi
  have hnot : i ∉ A := fun hA => Set.disjoint_left.mp hdisj hA hi
  rw [heq i (.inr hi), Set.piecewise_eq_of_notMem _ _ _ hnot]

/-- The same when nothing is asked after them. -/
lemma Explained.andThen {k : γ → β × γ} {l : (∀ i, Ω i) → σ → β × σ} (h : Explained view A f g c)
    (h' : ∀ a c' o, f c = (a, c') → g o (view c) = (a, view c') →
      l o (view c) = ((k c).1, view (k c).2)) : Explained view A k l c := by
  obtain ⟨o, ho⟩ := h
  refine ⟨o, ?_⟩
  intro o' heq
  exact h' _ _ o' rfl (ho o' heq)

/-! ## Runs

In a run each step has an oracle of its own, for what the surroundings do in one step says nothing
about the next.  So a run needs no disjointness, only an invariant that makes each of its steps
explained. -/

/-- **Runs.**  If an invariant makes every step explained, a run has one oracle for each of its
steps, and under these the abstract run has the same results and ends in the state that shows. -/
theorem exists_oracles {step : ε → γ → ρ × γ} {astep : (∀ i, Ω i) × ε → σ → ρ × σ}
    {I : γ → Prop} {es : List ε}
    (hstep : ∀ e ∈ es, ∀ c, I c →
      Explained view Set.univ (step e) (fun o => astep (o, e)) c ∧ I (step e c).2)
    (hc : I c) :
    ∃ run : List ((∀ i, Ω i) × ε), run.map Prod.snd = es ∧
      outputs step es c = outputs astep run (view c) ∧
      view (final step es c) = final astep run (view c) := by
  induction es generalizing c with
  | nil => exact ⟨[], rfl, rfl, rfl⟩
  | cons e es ih =>
      obtain ⟨hexplained, hnext⟩ := hstep e List.mem_cons_self c hc
      obtain ⟨o, ho⟩ := hexplained.exact
      obtain ⟨run, hlabels, houts, hfinal⟩ :=
        ih (fun e' he' => hstep e' (List.mem_cons_of_mem _ he')) hnext
      refine ⟨(o, e) :: run, by rw [List.map_cons, hlabels], ?_, ?_⟩
      · rw [outputs, outputs, ho, houts]
      · rw [final_cons, final_cons, ho, hfinal]

end Oracle
