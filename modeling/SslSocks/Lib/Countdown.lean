import SslSocks.Lib.Transition

/-!
# Counters that run out

A round of a system counts something down and removes it when its time is over; other steps may
give it its full time again. `left s` is the time that it has in `s`, `none` when it is not
there, and `Unwound` a run whose steps between the rounds never set the time. `Rounds` says of
the steps themselves what they may be; it is such a run when these steps do not set the time.

`Unwound.expired`: after as many rounds as it can have time it is gone.
-/

namespace SslSocks.Lib

universe u v

variable {σ : Type u} {α : Type v}

/-- What is still there has the time that it had. -/
def Unset (left : σ → Option Nat) (s t : σ) : Prop := ∀ time, left t = some time → left s = some time

/-- A run with a number of rounds, the other steps of which do not set the time. -/
inductive Unwound (step : σ → α → Option σ) (round : α) (left : σ → Option Nat) (s : σ) :
    Nat → σ → Prop
  | refl : Unwound step round left s 0 s
  | round {k : Nat} {t u : σ} :
    Unwound step round left s k t → step t round = some u → Unwound step round left s (k + 1) u
  | other {k : Nat} {t u : σ} {a : α} :
    Unwound step round left s k t → a ≠ round → step t a = some u → Unset left t u →
    Unwound step round left s k u

/-- A round takes one from the time, and removes what has none left. -/
def Counts (left : σ → Option Nat) (s t : σ) : Prop :=
  ∀ time, left t = some time → 0 < time ∧ left s = some (time + 1)

namespace Unwound

variable {step : σ → α → Option σ} {round : α} {left : σ → Option Nat} {s t : σ} {k : Nat}

theorem reachable (run : Unwound step round left s k t) : Reachable step s t := by
  induction run with
  | refl => exact .refl
  | round _ enabled ih => exact ih.tail trivial enabled
  | other _ _ enabled _ ih => exact ih.tail trivial enabled

/-- A round before. -/
theorem cons {r : σ} (enabled : step r round = some s) (run : Unwound step round left s k t) :
    Unwound step round left r (k + 1) t := by
  induction run with
  | refl => exact .round .refl enabled
  | round _ later ih => exact .round ih later
  | other _ other later unset ih => exact .other ih other later unset

/-- Rounds alone. -/
theorem of_rounds {C : σ → α → Prop} [∀ s a, Decidable (C s a)]
    (run : runFrom step C s (List.replicate k round) = some t) :
    Unwound step round left s k t := by
  induction k generalizing s with
  | zero =>
    cases run
    exact .refl
  | succ k ih =>
    simp only [List.replicate_succ, runFrom, Option.ite_none_right_eq_some] at run
    obtain ⟨_, run⟩ := run
    split at run
    · rename_i enabled
      exact .cons enabled (ih run)
    · cases run

theorem of_isSome {C : σ → α → Prop} [∀ s a, Decidable (C s a)]
    (ok : (runFrom step C s (List.replicate k round)).isSome) :
    Unwound step round left s k ((runFrom step C s (List.replicate k round)).get ok) :=
  of_rounds (Option.some_get ok).symm

/-- The time after a number of rounds. -/
theorem time {P : σ → Prop} (run : Unwound step round left s k t) (start : P s)
    (keep : ∀ {t a u}, P t → step t a = some u → P u)
    (counts : ∀ {t u}, P t → step t round = some u → Counts left t u) :
    P t ∧ ∀ time, left t = some time → left s = some (time + k) ∧ (0 < k → 0 < time) := by
  induction run with
  | refl => exact ⟨start, fun time there => ⟨there, fun more => absurd more (Nat.lt_irrefl 0)⟩⟩
  | round before enabled ih =>
    refine ⟨keep ih.1 enabled, fun time there => ?_⟩
    obtain ⟨some, was⟩ := counts ih.1 enabled time there
    refine ⟨?_, fun _ => some⟩
    rw [(ih.2 _ was).1, Nat.add_right_comm]
    rfl
  | other _ _ enabled unset ih =>
    exact ⟨keep ih.1 enabled, fun time there => ih.2 time (unset time there)⟩

/-- **What is not set again runs out.** -/
theorem expired {P : σ → Prop} (run : Unwound step round left s k t) (start : P s)
    (keep : ∀ {t a u}, P t → step t a = some u → P u)
    (counts : ∀ {t u}, P t → step t round = some u → Counts left t u) {limit : Nat}
    (bounded : ∀ time, left s = some time → time ≤ limit) (some : 0 < limit) (long : limit ≤ k) :
    left t = none := by
  by_contra there
  obtain ⟨time, there⟩ := Option.ne_none_iff_exists'.mp there
  obtain ⟨was, positive⟩ := (run.time start keep counts).2 time there
  have most := bounded _ was
  have more := positive (by omega)
  omega

end Unwound

/-- A run with a number of rounds, the other steps of which meet `C`. -/
inductive Rounds (step : σ → α → Option σ) (round : α) (C : σ → α → Prop) (s : σ) : Nat → σ → Prop
  | refl : Rounds step round C s 0 s
  | round {k : Nat} {t u : σ} :
    Rounds step round C s k t → step t round = some u → Rounds step round C s (k + 1) u
  | other {k : Nat} {t u : σ} {a : α} :
    Rounds step round C s k t → a ≠ round → C t a → step t a = some u → Rounds step round C s k u

namespace Rounds

variable {step : σ → α → Option σ} {round : α} {C : σ → α → Prop} {s t u : σ} {j k : Nat}

theorem trans (first : Rounds step round C s j t) (second : Rounds step round C t k u) :
    Rounds step round C s (j + k) u := by
  induction second with
  | refl => exact first
  | round _ enabled ih => exact .round ih enabled
  | other _ other meets enabled ih => exact .other ih other meets enabled

theorem reachable (run : Rounds step round C s k t) : Reachable step s t := by
  induction run with
  | refl => exact .refl
  | round _ enabled ih => exact ih.tail trivial enabled
  | other _ _ _ enabled ih => exact ih.tail trivial enabled

/-- A list of actions makes as many rounds as there are in it. -/
theorem of_runFrom [DecidableEq α] [∀ s a, Decidable (C s a)] {as : List α}
    (run : runFrom step (fun s a => a ≠ round → C s a) s as = some t) :
    Rounds step round C s (as.count round) t := by
  induction as generalizing s with
  | nil =>
    cases run
    exact .refl
  | cons a as ih =>
    simp only [runFrom, Option.ite_none_right_eq_some] at run
    obtain ⟨meets, run⟩ := run
    split at run
    · rename_i enabled
      have rest := ih run
      by_cases isRound : a = round
      · subst isRound
        rw [List.count_cons_self, Nat.add_comm]
        exact (Rounds.refl.round enabled).trans rest
      · rw [List.count_cons_of_ne isRound]
        have one : Rounds step round C _ 0 _ := Rounds.refl.other isRound (meets isRound) enabled
        rw [← Nat.zero_add (as.count round)]
        exact one.trans rest
    · cases run

theorem of_isSome [DecidableEq α] [∀ s a, Decidable (C s a)] (as : List α)
    (ok : (runFrom step (fun s a => a ≠ round → C s a) s as).isSome) :
    Rounds step round C s (as.count round)
      ((runFrom step (fun s a => a ≠ round → C s a) s as).get ok) :=
  of_runFrom (Option.some_get ok).symm

/-- Steps that do not set the time let it run out. -/
theorem unwound {left : σ → Option Nat} (run : Rounds step round C s k t)
    (unset : ∀ {t a u}, a ≠ round → C t a → step t a = some u → Unset left t u) :
    Unwound step round left s k t := by
  induction run with
  | refl => exact .refl
  | round _ enabled ih => exact .round ih enabled
  | other _ other meets enabled ih => exact .other ih other enabled (unset other meets enabled)

end Rounds

end SslSocks.Lib
