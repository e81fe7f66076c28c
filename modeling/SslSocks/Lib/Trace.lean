import SslSocks.Lib.Transition

/-!
# Paths with labels

`Trace step s labels t`: a run of steps from `s` to `t`, where one step may show any number
of labels, and `labels` are those that were shown, in order.

* `Trace.trans`, `Trace.single`, `Trace.silent`: paths compose, and their labels append.
* `Trace.invariant` is the induction over a path for what its steps keep, and `Trace.fold`
  the one for a relation between the two ends and the labels.
* `Shows step C shows`: the steps of a partial step function under a condition, where an action
  `a` shows `shows a`. `Trace.reach` forgets the labels, `Trace.of_isSome` gets a path from a
  list of actions.
-/

namespace SslSocks.Lib

universe u v

variable {σ : Type u} {β : Type v}

/-- The states that a path leads to, with the labels shown on the way. -/
inductive Trace (step : σ → List β → σ → Prop) (s : σ) : List β → σ → Prop
  | refl : Trace step s [] s
  | tail {t u : σ} {shown more : List β} :
    Trace step s shown t → step t more u → Trace step s (shown ++ more) u

namespace Trace

variable {step : σ → List β → σ → Prop} {s t u : σ} {shown more : List β}

theorem single (one : step s shown t) : Trace step s shown t := by
  have path := Trace.refl.tail one
  rw [List.nil_append] at path
  exact path

theorem trans (first : Trace step s shown t) (second : Trace step t more u) :
    Trace step s (shown ++ more) u := by
  induction second with
  | refl =>
    rw [List.append_nil]
    exact first
  | tail _ one ih =>
    rw [← List.append_assoc]
    exact ih.tail one

/-- A path that shows nothing, before another. -/
theorem silent (first : Trace step s [] t) (second : Trace step t more u) :
    Trace step s more u := first.trans second

/-- What every step keeps, a path keeps. -/
theorem invariant {P : σ → Prop} (path : Trace step s shown t) (start : P s)
    (keep : ∀ {a b ls}, P a → step a ls b → P b) : P t := by
  induction path with
  | refl => exact start
  | tail _ one ih => exact keep ih one

/-- A relation of the ends and the labels, kept by one more step. Both ends have what every
step keeps. -/
theorem fold {P : σ → Prop} {R : List β → σ → Prop} (path : Trace step s shown t) (start : P s)
    (keep : ∀ {a b ls}, P a → step a ls b → P b) (first : R [] s)
    (next : ∀ {a b ls ls'}, P a → R ls a → step a ls' b → R (ls ++ ls') b) : R shown t := by
  suffices both : P t ∧ R shown t from both.2
  induction path with
  | refl => exact ⟨start, first⟩
  | tail _ one ih => exact ⟨keep ih.1 one, next ih.1 ih.2 one⟩

section Shows

variable {α : Type*} {step : σ → α → Option σ} {C : σ → α → Prop} {shows : α → List β}

/-- A step under the condition, with what its action shows. -/
def Shows (step : σ → α → Option σ) (C : σ → α → Prop) (shows : α → List β) (s : σ)
    (shown : List β) (t : σ) : Prop :=
  ∃ a, C s a ∧ step s a = some t ∧ shown = shows a

theorem reach (path : Trace (Shows step C shows) s shown t) : Reach step C s t := by
  induction path with
  | refl => exact .refl
  | tail _ one ih =>
    obtain ⟨a, meets, enabled, _⟩ := one
    exact ih.tail meets enabled

theorem of_runFrom [∀ s a, Decidable (C s a)] {as : List α}
    (run : runFrom step C s as = some t) :
    Trace (Shows step C shows) s (as.flatMap shows) t := by
  induction as generalizing s with
  | nil =>
    cases run
    exact .refl
  | cons a as ih =>
    simp only [runFrom, Option.ite_none_right_eq_some] at run
    obtain ⟨meets, run⟩ := run
    split at run
    · rename_i enabled
      have one : Shows step C shows s (shows a) _ := ⟨a, meets, enabled, rfl⟩
      exact (single one).trans (ih run)
    · cases run

theorem of_isSome [∀ s a, Decidable (C s a)] (shows : α → List β) (as : List α)
    (ok : (runFrom step C s as).isSome) :
    Trace (Shows step C shows) s (as.flatMap shows) ((runFrom step C s as).get ok) :=
  of_runFrom (Option.some_get ok).symm

/-- Every run shows something. -/
theorem of_reach (shows : α → List β) (run : Reach step C s t) :
    ∃ shown, Trace (Shows step C shows) s shown t := by
  induction run with
  | refl => exact ⟨[], .refl⟩
  | tail _ meets enabled ih =>
    obtain ⟨shown, path⟩ := ih
    exact ⟨_, path.tail ⟨_, meets, enabled, rfl⟩⟩

/-- A part of what is shown. -/
theorem project {γ : Type*} (f : β → Option γ) (path : Trace (Shows step C shows) s shown t) :
    Trace (Shows step C fun a => (shows a).filterMap f) s (shown.filterMap f) t := by
  induction path with
  | refl => exact .refl
  | tail _ one ih =>
    obtain ⟨a, meets, enabled, same⟩ := one
    rw [List.filterMap_append]
    exact ih.tail ⟨a, meets, enabled, congrArg (List.filterMap f) same⟩

/-- A weaker condition. -/
theorem mono {D : σ → α → Prop} (path : Trace (Shows step C shows) s shown t)
    (weaker : ∀ {t a}, C t a → D t a) : Trace (Shows step D shows) s shown t := by
  induction path with
  | refl => exact .refl
  | tail _ one ih =>
    obtain ⟨a, meets, enabled, same⟩ := one
    exact ih.tail ⟨a, weaker meets, enabled, same⟩

end Shows

end Trace

end SslSocks.Lib
