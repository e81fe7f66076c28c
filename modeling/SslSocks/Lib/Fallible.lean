import Mathlib

/-!
# State changes that may throw

A `Fallible σ` is the end of a computation on a state that may throw an exception
and keeps, in both cases, the state it has reached. `Fallible.Both P` is the
postcondition that holds however it ends; `Both.bind` is the rule of sequencing.
-/

namespace SslSocks.Lib

universe u

variable {σ : Type u}

/-- Normal end or exception, with the state. -/
abbrev Fallible (σ : Type u) := Except σ σ

namespace Fallible

/-- The state that is left. -/
def state : Fallible σ → σ
  | .ok s => s
  | .error s => s

/-- The second part runs when the first did not throw. -/
def andThen (x : Fallible σ) (f : σ → Fallible σ) : Fallible σ :=
  match x with
  | .ok s => f s
  | .error s => .error s

/-- `P` holds of the state left. -/
def Both (P : σ → Prop) (x : Fallible σ) : Prop := P x.state

variable {P Q : σ → Prop} {x : Fallible σ} {f : σ → Fallible σ}

theorem Both.mono (holds : x.Both P) (weaker : ∀ s, P s → Q s) : x.Both Q := weaker _ holds

/-- The rule of sequencing: a part that throws skips the second, so its
postcondition has to give the final one too. -/
theorem Both.andThen_of (first : x.Both P) (stops : ∀ s, P s → Q s)
    (second : ∀ s, P s → (f s).Both Q) : (x.andThen f).Both Q := by
  cases x with
  | ok s => exact second s first
  | error s => exact stops s first

/-- Sequencing for an invariant. -/
theorem Both.andThen (first : x.Both P) (second : ∀ s, P s → (f s).Both P) :
    (x.andThen f).Both P :=
  first.andThen_of (fun _ holds => holds) second

end Fallible

end SslSocks.Lib
