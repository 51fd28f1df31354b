import Mathlib.Tactic.Common

/-!
# Runs of a labelled step function

A component is a step function `ε → σ → ρ × σ`: a label (the call and whatever the surroundings
decide during it), a state, a result and the next state.  This file packages the three inductions
over runs that every component needs, so that no later proof has to repeat them.

The label of a step has in it all that is not in the state: the operation, its arguments, and how
the outside world behaves while it is carried out.  A statement over all lists of labels is then a
statement over all histories and all behaviours of the outside, and there is nothing else to
quantify over.  Steps are total; an operation that cannot be carried out returns an error and leaves
the state.

The rules are stated for step functions, not for relations, since the components here are programs.
Where the outside is meant to be arbitrary it is a part of the label, and where it is meant to be
restricted there is a guard on the steps, `Along`.

* `final`, `outputs` — the state a list of labels leads to, and the results along the way.
* `Along` — a property of every step of a run, read at the state *before* the step.
* `invariant_final`, `along_of_step`, `Along.imp` — the invariant rules.
* `outputs_eq_of_simulation`, `outputs_eq_along` — the simulation rule: a relation that every step
  keeps, and under which results agree, makes the two runs agree.
* `forall_prefix_rel_iff`, `forall_prefix_iff` — when a relation holds in all states of two runs,
  or a property in all states of one.
-/

set_option autoImplicit false

namespace Transition

variable {σ ε ρ τ : Type*}

/-! ## Runs

The three functions on which all rules are stated, and how they split along a list of labels. -/

/-- The state reached from `s` by the labels `es`, in order. -/
def final (step : ε → σ → ρ × σ) : List ε → σ → σ
  | [], s => s
  | e :: es, s => final step es (step e s).2

/-- The results along that run. -/
def outputs (step : ε → σ → ρ × σ) : List ε → σ → List ρ
  | [], _ => []
  | e :: es, s => (step e s).1 :: outputs step es (step e s).2

/-- `P` holds at every step of the run, of the label and of the state the step starts in. -/
def Along (step : ε → σ → ρ × σ) (P : ε → σ → Prop) : List ε → σ → Prop
  | [], _ => True
  | e :: es, s => P e s ∧ Along step P es (step e s).2

variable {step : ε → σ → ρ × σ} {P Q : ε → σ → Prop} {I : σ → Prop}

@[simp] lemma final_nil (s : σ) : final step [] s = s := rfl

@[simp] lemma final_cons (e : ε) (es : List ε) (s : σ) :
    final step (e :: es) s = final step es (step e s).2 := rfl

lemma final_append (es fs : List ε) (s : σ) :
    final step (es ++ fs) s = final step fs (final step es s) := by
  induction es generalizing s with
  | nil => rfl
  | cons e es ih => exact ih _

/-- A run whose labels are given through a function. -/
lemma final_map {η : Type*} (f : η → ε) (es : List η) (s : σ) :
    final step (es.map f) s = final (fun e => step (f e)) es s := by
  induction es generalizing s with
  | nil => rfl
  | cons e es ih => exact ih _

lemma outputs_map {η : Type*} (f : η → ε) (es : List η) (s : σ) :
    outputs step (es.map f) s = outputs (fun e => step (f e)) es s := by
  induction es generalizing s with
  | nil => rfl
  | cons e es ih => exact congrArg (_ :: ·) (ih _)

/-! ## Invariants

The rules come in two kinds.  The plain ones ask that every label of the run keeps the invariant
from every state; the guarded ones ask it only of steps that meet a condition, which may speak of
the state the step begins in.  The second kind is for properties that hold exactly as long as
something does not happen. -/

/-- **The invariant rule.**  What every step of the run preserves holds at its end. -/
theorem invariant_final {es : List ε} {s : σ}
    (hstep : ∀ e ∈ es, ∀ t, I t → I (step e t).2) (hs : I s) : I (final step es s) := by
  induction es generalizing s with
  | nil => exact hs
  | cons e es ih =>
      have hnext : I (step e s).2 := hstep e List.mem_cons_self s hs
      exact ih (fun f hf => hstep f (List.mem_cons_of_mem _ hf)) hnext

/-- What holds of every label of a run, whatever the state, holds along it. -/
lemma along_of_forall {es : List ε} {s : σ} (h : ∀ e ∈ es, ∀ t, P e t) : Along step P es s := by
  induction es generalizing s with
  | nil => exact trivial
  | cons e es ih =>
      exact ⟨h e List.mem_cons_self s, ih fun f hf => h f (List.mem_cons_of_mem _ hf)⟩

lemma along_append {es fs : List ε} {s : σ} :
    Along step P (es ++ fs) s ↔ Along step P es s ∧ Along step P fs (final step es s) := by
  induction es generalizing s with
  | nil => exact ⟨fun h => ⟨trivial, h⟩, fun h => h.2⟩
  | cons e es ih => rw [List.cons_append, Along, ih, Along, final_cons, and_assoc]

lemma along_and {es : List ε} {s : σ} :
    Along step (fun e t => P e t ∧ Q e t) es s ↔ Along step P es s ∧ Along step Q es s := by
  induction es generalizing s with
  | nil => exact ⟨fun _ => ⟨trivial, trivial⟩, fun _ => trivial⟩
  | cons e es ih =>
      simp only [Along, ih]
      exact and_and_and_comm

/-- What holds in all states of a run holds along it. -/
lemma along_of_prefixes {es : List ε} {s : σ} (h : ∀ fs, fs <+: es → I (final step fs s)) :
    Along step (fun _ t => I t) es s := by
  induction es generalizing s with
  | nil => exact trivial
  | cons e es ih =>
      refine ⟨h [] (List.nil_prefix), ih ?_⟩
      intro fs hfs
      exact h (e :: fs) (List.cons_prefix_cons.mpr ⟨rfl, hfs⟩)

/-- **The guarded invariant rule.**  If a step that meets `Q` keeps the invariant and shows `P`,
a run whose steps all meet `Q` shows `P` at every step, and ends inside the invariant. -/
theorem along_of_step {es : List ε} {s : σ}
    (hstep : ∀ e ∈ es, ∀ t, I t → Q e t → P e t ∧ I (step e t).2) (hs : I s)
    (hQ : Along step Q es s) : Along step P es s ∧ I (final step es s) := by
  induction es generalizing s with
  | nil => exact ⟨trivial, hs⟩
  | cons e es ih =>
      obtain ⟨hq, hrest⟩ := hQ
      obtain ⟨hp, hnext⟩ := hstep e List.mem_cons_self s hs hq
      obtain ⟨hP, hI⟩ := ih (fun f hf => hstep f (List.mem_cons_of_mem _ hf)) hnext hrest
      exact ⟨⟨hp, hP⟩, hI⟩

/-- Along an invariant of all steps, a stepwise implication lifts to runs. -/
theorem Along.imp {es : List ε} {s : σ}
    (hinv : ∀ e ∈ es, ∀ t, I t → I (step e t).2) (himp : ∀ e t, I t → P e t → Q e t) (hs : I s)
    (hP : Along step P es s) : Along step Q es s := by
  induction es generalizing s with
  | nil => exact trivial
  | cons e es ih =>
      obtain ⟨hp, hrest⟩ := hP
      have hnext : I (step e s).2 := hinv e List.mem_cons_self s hs
      exact ⟨himp e s hs hp, ih (fun f hf => hinv f (List.mem_cons_of_mem _ hf)) hnext hrest⟩

/-- A property of every step of a run holds at the step after any of its prefixes. -/
theorem Along.after {es fs : List ε} {e : ε} {s : σ}
    (h : Along step P (es ++ e :: fs) s) : P e (final step es s) := by
  induction es generalizing s with
  | nil => exact h.1
  | cons _ _ ih => exact ih h.2

/-! ## Simulations

Two step functions on two state spaces, and a relation between their states.  If matching steps keep
the relation and give the same result, then the one component can be exchanged for the other.  This
is the rule with which a concrete component is compared with an abstract one. -/

/-- **The simulation rule, guarded.**  A relation kept by every pair of matching steps that meet
`P`, under which the results of such steps agree, makes whole runs agree in their results and end
related, if all their steps meet `P`. -/
theorem outputs_eq_along {η : Type*} {g : η → τ → ρ × τ} {R : σ → τ → Prop}
    {f : ε → η} {es : List ε} {s : σ} {t : τ}
    (hstep : ∀ e ∈ es, ∀ s t, P e s → R s t →
      (step e s).1 = (g (f e) t).1 ∧ R (step e s).2 (g (f e) t).2)
    (hP : Along step P es s) (hR : R s t) :
    outputs step es s = outputs g (es.map f) t ∧
      R (final step es s) (final g (es.map f) t) := by
  induction es generalizing s t with
  | nil => exact ⟨rfl, hR⟩
  | cons e es ih =>
      obtain ⟨hp, hrest⟩ := hP
      obtain ⟨hout, hnext⟩ := hstep e List.mem_cons_self s t hp hR
      obtain ⟨houts, hfin⟩ :=
        ih (fun e' he' => hstep e' (List.mem_cons_of_mem _ he')) hrest hnext
      refine ⟨?_, hfin⟩
      simp only [outputs, List.map_cons]
      rw [hout, houts]

/-- **The simulation rule.**  A relation kept by every pair of matching steps, under which the
results of matching steps agree, makes whole runs agree in their results and end related. -/
theorem outputs_eq_of_simulation {η : Type*} {g : η → τ → ρ × τ} {R : σ → τ → Prop}
    {f : ε → η} {es : List ε} {s : σ} {t : τ}
    (hstep : ∀ e ∈ es, ∀ s t, R s t →
      (step e s).1 = (g (f e) t).1 ∧ R (step e s).2 (g (f e) t).2)
    (hR : R s t) :
    outputs step es s = outputs g (es.map f) t ∧
      R (final step es s) (final g (es.map f) t) :=
  outputs_eq_along (P := fun _ _ => True) (fun e he s t _ => hstep e he s t)
    (along_of_forall fun _ _ _ => trivial) hR

/-! ## Exact conditions

Where a step keeps a property if and only if a condition is met, the same holds of all states of a
run: the property holds throughout exactly when the condition is met at every step.  This turns an
equivalence about one step into one about runs, with the condition still read at single steps. -/

/-- The prefixes of a list that is not empty. -/
lemma forall_prefix_cons {p : List ε → Prop} {e : ε} {es : List ε} :
    (∀ fs, fs <+: e :: es → p fs) ↔ p [] ∧ ∀ fs, fs <+: es → p (e :: fs) := by
  constructor
  · intro h
    exact ⟨h [] List.nil_prefix, fun fs hfs => h _ (List.cons_prefix_cons.mpr ⟨rfl, hfs⟩)⟩
  · rintro ⟨hnil, hcons⟩ fs hfs
    cases fs with
    | nil => exact hnil
    | cons e' fs =>
        obtain ⟨rfl, hrest⟩ := List.cons_prefix_cons.mp hfs
        exact hcons fs hrest

/-- **Every pair of states of two runs.**  If a pair of matching steps that meet `P` keeps `R`
exactly when it meets `Q`, then `R` holds in all pairs of states of the two runs exactly when all
steps meet `Q`. -/
theorem forall_prefix_rel_iff {η ρ' : Type*} {g : η → τ → ρ' × τ} {R : σ → τ → Prop}
    {f : ε → η} {es : List ε} {s : σ} {t : τ}
    (hstep : ∀ e ∈ es, ∀ s t, P e s → R s t → (R (step e s).2 (g (f e) t).2 ↔ Q e s))
    (hP : Along step P es s) (hR : R s t) :
    (∀ fs, fs <+: es → R (final step fs s) (final g (fs.map f) t)) ↔ Along step Q es s := by
  induction es generalizing s t with
  | nil =>
      refine ⟨fun _ => trivial, ?_⟩
      intro _ fs hfs
      rw [List.prefix_nil.mp hfs]
      exact hR
  | cons e es ih =>
      obtain ⟨hp, hguards⟩ := hP
      have hfirst := hstep e List.mem_cons_self s t hp hR
      have hrest := fun hnext : R (step e s).2 (g (f e) t).2 =>
        ih (fun f hf => hstep f (List.mem_cons_of_mem _ hf)) hguards hnext
      refine forall_prefix_cons.trans ((and_iff_right hR).trans ?_)
      constructor
      · intro hall
        have hnext : R (step e s).2 (g (f e) t).2 := hall [] List.nil_prefix
        exact ⟨hfirst.mp hnext, (hrest hnext).mp hall⟩
      · rintro ⟨hq, halong⟩
        exact (hrest (hfirst.mpr hq)).mpr halong

/-- **Every state of a run.**  If a step keeps `I` exactly when it meets `Q`, then `I` holds in all
states of a run exactly when all its steps meet `Q`. -/
theorem forall_prefix_iff {es : List ε} {s : σ}
    (hstep : ∀ e ∈ es, ∀ t, I t → (I (step e t).2 ↔ Q e t)) (hs : I s) :
    (∀ fs, fs <+: es → I (final step fs s)) ↔ Along step Q es s :=
  forall_prefix_rel_iff (P := fun _ _ => True) (R := fun s (_ : Unit) => I s)
    (g := fun (_ : ε) t => ((), t)) (f := id) (t := ()) (fun e he t _ _ => hstep e he t)
    (along_of_forall fun _ _ _ => trivial) hs

end Transition
