import Mathlib

/-!
# Histories with heralds

In a history, a list of events in the order in which they happened, some events need
another one before them: a message its connection, a use its declaration. `Heralded`
says that they have it. It is checked one event at a time (`heralded_concat`) and holds
of every earlier history (`Heralded.of_prefix`).
-/

namespace SslSocks.Lib

universe u

variable {α : Type u} {needs : α → Prop} {herald : α → α → Prop} {xs ys : List α} {x : α}

/-- Every event that needs a herald comes after one. -/
def Heralded (needs : α → Prop) (herald : α → α → Prop) (xs : List α) : Prop :=
  ∀ pre x post, xs = pre ++ x :: post → needs x → ∃ y ∈ pre, herald y x

theorem heralded_nil : Heralded needs herald [] := by
  intro pre x post same _
  exact absurd same (by simp)

theorem Heralded.of_prefix (heralded : Heralded needs herald xs) (begins : ys <+: xs) :
    Heralded needs herald ys := by
  intro pre x post same
  obtain ⟨later, rfl⟩ := begins
  exact heralded pre x (post ++ later) (by rw [same, List.append_assoc, List.cons_append])

/-- One more event. -/
theorem heralded_concat : Heralded needs herald (xs ++ [x]) ↔
    Heralded needs herald xs ∧ (needs x → ∃ y ∈ xs, herald y x) := by
  constructor
  · intro heralded
    exact ⟨heralded.of_prefix (List.prefix_append _ _), heralded xs x [] rfl⟩
  · rintro ⟨heralded, last⟩ pre y post same
    rcases List.eq_nil_or_concat post with rfl | ⟨middle, z, rfl⟩
    · obtain ⟨rfl, one⟩ := List.append_inj' same rfl
      cases one
      exact last
    · refine heralded pre y middle ?_
      rw [List.concat_eq_append, ← List.cons_append, ← List.append_assoc] at same
      exact (List.append_inj' same rfl).1

/-- Events that need no herald. -/
theorem Heralded.append (heralded : Heralded needs herald xs) (free : ∀ y ∈ ys, ¬ needs y) :
    Heralded needs herald (xs ++ ys) := by
  induction ys generalizing xs with
  | nil => rwa [List.append_nil]
  | cons y ys ih =>
    have next : Heralded needs herald (xs ++ [y]) :=
      heralded_concat.mpr ⟨heralded, fun need => absurd need (free y List.mem_cons_self)⟩
    have rest := ih next fun z member => free z (List.mem_cons_of_mem _ member)
    rwa [List.append_assoc, List.singleton_append] at rest

end SslSocks.Lib
