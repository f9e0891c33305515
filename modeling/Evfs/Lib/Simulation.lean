import Evfs.Lib.Run
import Mathlib.Data.List.Basic

/-!
# Simulations

A relation between the states of two labelled step relations, the second of which answers every step
of the first by a step of its own or by none, turns a trace of the first into one of the second
(`Trace.simulates`). What is seen of the two is the same: `shows` says which label of the second, if
any, belongs to a label of the first.
-/

namespace Lib
variable {S T L M : Type}

/-- A step that has a label, or none without one. -/
inductive MaybeStep (step : T → M → T → Prop) : T → Option M → T → Prop where
  | none {t} : MaybeStep step t none t
  | some {t m t'} : step t m t' → MaybeStep step t (some m) t'

/-- A property of the steps holds where there may be none. -/
lemma MaybeStep.keeps {step : T → M → T → Prop} {R : T → Prop} {t t' : T} {o : Option M}
    (st : MaybeStep step t o t') (r : R t) (pres : ∀ {m}, o = Option.some m → step t m t' → R t') :
    R t' := by
  cases st with
  | none => exact r
  | some st => exact pres rfl st

/-- A trace with one more step, or none. -/
lemma Trace.maybe {step : T → M → T → Prop} {t₀ t t' : T} {h : List M} {o : Option M}
    (tr : Trace step t₀ h t) (st : MaybeStep step t o t') : Trace step t₀ (o.toList ++ h) t' := by
  cases st with
  | none => exact tr
  | some st => exact .snoc tr st

/-- The labels of the second trace, the latest first. -/
inductive Shown (shows : L → Option M → Prop) : List L → List M → Prop where
  | nil : Shown shows [] []
  | cons {l o ls ms} : shows l o → Shown shows ls ms → Shown shows (l :: ls) (o.toList ++ ms)

/-- Every trace of the one system is one of the other, as far as it shows. -/
theorem Trace.simulates {step : S → L → S → Prop} {step' : T → M → T → Prop}
    {shows : L → Option M → Prop} {R : S → T → Prop}
    (sim : ∀ s l s' t, R s t → step s l s' → ∃ o t', shows l o ∧ MaybeStep step' t o t' ∧ R s' t')
    {s₀ s : S} {t₀ : T} {h : List L} (r : R s₀ t₀) (tr : Trace step s₀ h s) :
    ∃ h' t, Shown shows h h' ∧ Trace step' t₀ h' t ∧ R s t := by
  induction tr with
  | nil => exact ⟨[], t₀, .nil, .nil, r⟩
  | snoc _ st ih =>
    obtain ⟨h', t, sh, tr', r'⟩ := ih
    obtain ⟨o, t', so, st', r''⟩ := sim _ _ _ _ r' st
    exact ⟨_, t', .cons so sh, tr'.maybe st', r''⟩

end Lib
