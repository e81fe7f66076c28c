import Mathlib

/-!
# Runs of a partial step function

A system is a function `step : σ → α → Option σ`: `step s a` is the state after
the action `a`, or `none` when `a` is not enabled in `s`.

* `Reach step C s₀ s`: `s` is reached from `s₀` by steps that all satisfy the
  condition `C` on the state before the step and the action. `Reachable` is the
  case without a condition.
* `runFrom step C s as` performs a list of actions, tests the condition at each,
  and can be evaluated; what it leads to is reached (`Reach.of_isSome`).
* `Reach.invariant` is the induction over a run, stated once.
* `Reach.project` carries a run of one system to a run of another, along a map
  of the states under which every step is matched by a run.
-/

namespace SslSocks.Lib

universe u v w x

section Runs

variable {σ : Type u} {α : Type v}

/-- The states reached from `s₀` by steps that satisfy `C`. -/
inductive Reach (step : σ → α → Option σ) (C : σ → α → Prop) (s₀ : σ) : σ → Prop
  | refl : Reach step C s₀ s₀
  | tail {s s' : σ} {a : α} :
    Reach step C s₀ s → C s a → step s a = some s' → Reach step C s₀ s'

/-- No condition on the steps. -/
abbrev anyStep (_ : σ) (_ : α) : Prop := True

/-- Reachability without a condition. -/
abbrev Reachable (step : σ → α → Option σ) : σ → σ → Prop := Reach step anyStep

/-- Perform the actions in order, each under the condition. -/
def runFrom (step : σ → α → Option σ) (C : σ → α → Prop) [∀ s a, Decidable (C s a)] :
    σ → List α → Option σ
  | s, [] => some s
  | s, a :: as =>
    if C s a then
      match step s a with
      | some s' => runFrom step C s' as
      | none => none
    else none

variable {step : σ → α → Option σ} {C D : σ → α → Prop} {s₀ s s' : σ}

/-- A predicate that holds at the start and is kept by every step holds in every
state reached. -/
theorem Reach.invariant {P : σ → Prop} (run : Reach step C s₀ s) (start : P s₀)
    (keep : ∀ {t a t'}, Reach step C s₀ t → P t → C t a → step t a = some t' → P t') :
    P s := by
  induction run with
  | refl => exact start
  | tail before meets enabled ih => exact keep before ih meets enabled

theorem Reach.mono (run : Reach step C s₀ s) (weaker : ∀ {t a}, C t a → D t a) :
    Reach step D s₀ s := by
  induction run with
  | refl => exact .refl
  | tail _ meets enabled ih => exact ih.tail (weaker meets) enabled

/-- Forgetting the condition. -/
theorem Reach.reachable (run : Reach step C s₀ s) : Reachable step s₀ s :=
  run.mono fun _ => trivial

theorem Reach.trans {t : σ} (first : Reach step C s₀ s) (second : Reach step C s t) :
    Reach step C s₀ t := by
  induction second with
  | refl => exact first
  | tail _ meets enabled ih => exact ih.tail meets enabled

/-- What a list of actions leads to is reached. -/
theorem Reach.of_runFrom [∀ s a, Decidable (C s a)] {as : List α}
    (run : runFrom step C s as = some s') : Reach step C s s' := by
  induction as generalizing s with
  | nil =>
    cases run
    exact .refl
  | cons a as ih =>
    simp only [runFrom, Option.ite_none_right_eq_some] at run
    obtain ⟨meets, run⟩ := run
    split at run
    · rename_i t enabled
      exact (Reach.refl.tail meets enabled).trans (ih run)
    · cases run

/-- The same, for a run that is evaluated. -/
theorem Reach.of_isSome [∀ s a, Decidable (C s a)] (as : List α)
    (ok : (runFrom step C s as).isSome) : Reach step C s ((runFrom step C s as).get ok) :=
  Reach.of_runFrom (Option.some_get ok).symm

end Runs

section Projection

variable {σ : Type u} {α : Type v} {τ : Type w} {β : Type x}
variable {step : σ → α → Option σ} {C : σ → α → Prop}
variable {step' : τ → β → Option τ} {D : τ → β → Prop} {s₀ s : σ}

/-- A run projects to a run when every step projects to one. -/
theorem Reach.project (f : σ → τ) (run : Reach step C s₀ s)
    (matched : ∀ {t a t'}, Reach step C s₀ t → C t a → step t a = some t' →
      Reach step' D (f t) (f t')) :
    Reach step' D (f s₀) (f s) := by
  induction run with
  | refl => exact .refl
  | tail before meets enabled ih => exact ih.trans (matched before meets enabled)

end Projection

end SslSocks.Lib
