import Mathlib

/-!
# The gaps between the occurrences of a word

A search for a word from the left, which goes on behind each occurrence that it finds,
cuts a text into gaps. `Gaps` says which: the first gap ends at the leftmost occurrence,
the others are the gaps of what is behind that. A nonempty word has one list of gaps in
every text (`exists_gaps`, `Gaps.unique`), and the text is its gaps joined by the word.
-/

namespace SslSocks.Lib

universe u

variable {α : Type u} {word text gap rest : List α} {gaps : List (List α)}

/-- `gap` ends where the leftmost occurrence of `word` in the text begins. -/
def Leftmost (word gap text : List α) : Prop :=
  gap ++ word <+: text ∧ ∀ before, before ++ word <+: text → gap.length ≤ before.length

inductive Gaps (word : List α) : List α → List (List α) → Prop
  | last {text : List α} : ¬ word <:+: text → Gaps word text [text]
  | cut {text gap rest : List α} {gaps : List (List α)} :
      Leftmost word gap text → text = gap ++ word ++ rest → Gaps word rest gaps →
      Gaps word text (gap :: gaps)

theorem infix_of_occurs (occurs : gap ++ word <+: text) : word <:+: text := by
  obtain ⟨rest, rfl⟩ := occurs
  exact ⟨gap, rest, rfl⟩

theorem Leftmost.unique {other : List α} (left : Leftmost word gap text)
    (left' : Leftmost word other text) : gap = other := by
  have same : gap.length = other.length :=
    Nat.le_antisymm (left.2 other left'.1) (left'.2 gap left.1)
  have before : gap <+: text := (List.prefix_append gap word).trans left.1
  have before' : other <+: text := (List.prefix_append other word).trans left'.1
  exact (List.prefix_of_prefix_length_le before before' same.le).eq_of_length same

/-- A word that occurs has a leftmost occurrence. -/
theorem exists_leftmost (occurs : word <:+: text) : ∃ gap, Leftmost word gap text := by
  classical
  have some : ∃ i, ∃ before : List α, before.length = i ∧ before ++ word <+: text := by
    obtain ⟨before, rest, rfl⟩ := occurs
    exact ⟨_, before, rfl, List.prefix_append _ _⟩
  obtain ⟨gap, first, here⟩ := Nat.find_spec some
  refine ⟨gap, here, ?_⟩
  intro before there
  rw [first]
  exact Nat.find_min' some ⟨before, rfl, there⟩

theorem Gaps.ne_nil (cuts : Gaps word text gaps) : gaps ≠ [] := by
  cases cuts with
  | last _ => exact List.cons_ne_nil _ _
  | cut _ _ _ => exact List.cons_ne_nil _ _

/-- The text is its gaps joined by the word. -/
theorem Gaps.intercalate (cuts : Gaps word text gaps) : word.intercalate gaps = text := by
  induction cuts with
  | last _ => exact List.intercalate_singleton
  | cut _ same cuts ih =>
    rw [List.intercalate_cons_of_ne_nil cuts.ne_nil, ih, same]

theorem Gaps.unique {others : List (List α)} (cuts : Gaps word text gaps)
    (cuts' : Gaps word text others) : gaps = others := by
  induction cuts generalizing others with
  | last absent =>
    cases cuts' with
    | last _ => rfl
    | cut left _ _ => exact absurd (infix_of_occurs left.1) absent
  | cut left same _ ih =>
    cases cuts' with
    | last absent => exact absurd (infix_of_occurs left.1) absent
    | cut left' same' cuts' =>
      obtain rfl := left.unique left'
      obtain rfl := List.append_cancel_left (same.symm.trans same')
      rw [ih cuts']

/-- Each occurrence takes a character of the text. -/
theorem Gaps.length_le (nonempty : word ≠ []) (cuts : Gaps word text gaps) :
    gaps.length ≤ text.length + 1 := by
  induction cuts with
  | last _ => exact Nat.succ_le_succ (Nat.zero_le _)
  | cut _ same _ ih =>
    have taken := List.length_pos_of_ne_nil nonempty
    rw [same, List.length_cons, List.length_append, List.length_append]
    omega

theorem exists_gaps (nonempty : word ≠ []) (text : List α) : ∃ gaps, Gaps word text gaps := by
  induction length : text.length using Nat.strong_induction_on generalizing text with
  | _ n ih =>
    by_cases occurs : word <:+: text
    · obtain ⟨gap, left⟩ := exists_leftmost occurs
      obtain ⟨rest, same⟩ := left.1
      have taken := List.length_pos_of_ne_nil nonempty
      have shorter : rest.length < n := by
        rw [← length, ← same, List.length_append, List.length_append]
        omega
      obtain ⟨gaps, cuts⟩ := ih rest.length shorter rest rfl
      exact ⟨gap :: gaps, .cut left same.symm cuts⟩
    · exact ⟨[text], .last occurs⟩

end SslSocks.Lib
