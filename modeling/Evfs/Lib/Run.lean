import Mathlib.Logic.Relation

/-!
# Runs of a labelled step relation

`Runs step ok` is the reflexive and transitive closure of the steps whose label satisfies the guard
`ok` in the state the step is taken from. `Trace step` remembers the labels, the latest first. Both
come with the induction rule that turns what one step preserves into what a whole run preserves.
-/

namespace Lib
variable {S L : Type}

/-- A step under a guard, its label forgotten. -/
def Guarded (step : S → L → S → Prop) (ok : S → L → Prop) (s s' : S) : Prop :=
  ∃ l, ok s l ∧ step s l s'

/-- Any number of guarded steps. -/
abbrev Runs (step : S → L → S → Prop) (ok : S → L → Prop) : S → S → Prop :=
  Relation.ReflTransGen (Guarded step ok)

variable {step : S → L → S → Prop} {ok ok' : S → L → Prop} {s s' : S}

/-- An invariant of the guarded steps is an invariant of the runs. -/
theorem Runs.invariant {I : S → Prop}
    (pres : ∀ {s l s'}, I s → ok s l → step s l s' → I s')
    (run : Runs step ok s s') (h : I s) : I s' := by
  induction run with
  | refl => exact h
  | tail _ st ih =>
    obtain ⟨l, g, st⟩ := st
    exact pres ih g st

/-- A run with its labels, the latest first. -/
inductive Trace (step : S → L → S → Prop) (s₀ : S) : List L → S → Prop where
  | nil : Trace step s₀ [] s₀
  | snoc {h s l s'} : Trace step s₀ h s → step s l s' → Trace step s₀ (l :: h) s'

/-- A relation between the labels so far and the state that every step extends holds of every
trace. -/
theorem Trace.invariant {s₀ : S} {R : List L → S → Prop} (init : R [] s₀)
    (pres : ∀ {h s l s'}, R h s → step s l s' → R (l :: h) s')
    {h : List L} (tr : Trace step s₀ h s) : R h s := by
  induction tr with
  | nil => exact init
  | snoc _ st ih => exact pres ih st

/-- A relation with more steps has more traces. -/
lemma Trace.mono {step' : S → L → S → Prop} {s₀ : S} {h : List L}
    (imp : ∀ {s l s'}, step s l s' → step' s l s') (tr : Trace step s₀ h s) :
    Trace step' s₀ h s := by
  induction tr with
  | nil => exact .nil
  | snoc _ st ih => exact .snoc ih (imp st)

end Lib
