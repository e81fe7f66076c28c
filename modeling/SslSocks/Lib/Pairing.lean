import Mathlib.Data.List.Forall2
import Mathlib.Logic.Function.Basic

/-!
# Lists of equal images

Two lists with equal images are two projections of one list of pairs (`exists_pairs`). When the
elements of a list have keys, and the images of those of each key are some of the images of a
list of that key, then each element has a partner there, and the partners of a key are in order
(`exists_keyed`). A list that is matched in order with a part of another is `SublistForall₂`;
`exists_of_sublistForall₂` is the partner of one element.
-/

namespace SslSocks.Lib

variable {α β γ κ : Type*} {f : α → γ} {g : β → γ}

/-- Lists of equal images, side by side. -/
theorem exists_pairs {as : List α} {bs : List β} (same : as.map f = bs.map g) :
    ∃ pairs : List (α × β), pairs.map Prod.fst = as ∧ pairs.map Prod.snd = bs ∧
      ∀ pair ∈ pairs, f pair.1 = g pair.2 := by
  induction as generalizing bs with
  | nil =>
    cases List.map_eq_nil_iff.mp same.symm
    exact ⟨[], rfl, rfl, nofun⟩
  | cons a as ih =>
    obtain ⟨b, bs, rfl, first, rest⟩ := List.map_eq_cons_iff.mp same.symm
    obtain ⟨pairs, isFst, isSnd, all⟩ := ih rest.symm
    refine ⟨(a, b) :: pairs, ?_, ?_, ?_⟩
    · rw [List.map_cons, isFst]
    · rw [List.map_cons, isSnd]
    · intro pair there
      rcases List.mem_cons.mp there with rfl | before
      · exact first.symm
      · exact all pair before

/-- A partner for the first element, and what is left for the others. -/
theorem exists_first {a : α} {as : List α} {bs : List β}
    (fewer : ((a :: as).map f).Sublist (bs.map g)) :
    ∃ b front back, bs = front ++ back ∧ b ∈ front ∧ f a = g b ∧
      (as.map f).Sublist (back.map g) := by
  rw [List.map_cons, List.cons_sublist_iff] at fewer
  obtain ⟨front', back', split, there, rest⟩ := fewer
  obtain ⟨front, back, rfl, rfl, rfl⟩ := List.map_eq_append_iff.mp split
  obtain ⟨b, member, same⟩ := List.mem_map.mp there
  exact ⟨b, front, back, rfl, member, same.symm, rest⟩

/-- **Partners by key.** -/
theorem exists_keyed [DecidableEq κ] (key : α → κ) {as : List α} {bs : κ → List β}
    (fewer : ∀ k, ((as.filter fun a => key a = k).map f).Sublist ((bs k).map g)) :
    ∃ pairs : List (α × β), pairs.map Prod.fst = as ∧ (∀ pair ∈ pairs, f pair.1 = g pair.2) ∧
      ∀ k, ((pairs.filter fun pair => key pair.1 = k).map Prod.snd).Sublist (bs k) := by
  induction as generalizing bs with
  | nil => exact ⟨[], rfl, nofun, fun k => List.nil_sublist _⟩
  | cons a as ih =>
    have own := fewer (key a)
    rw [List.filter_cons_of_pos (by simp)] at own
    obtain ⟨b, front, back, split, there, same, rest⟩ := exists_first own
    -- the others are matched with what is left behind `b`
    obtain ⟨pairs, isFst, all, each⟩ := @ih (Function.update bs (key a) back) fun k => by
      by_cases isKey : k = key a
      · subst isKey
        rw [Function.update_self]
        exact rest
      · have others := fewer k
        rw [List.filter_cons_of_neg (by simpa using Ne.symm isKey)] at others
        rw [Function.update_of_ne isKey]
        exact others
    refine ⟨(a, b) :: pairs, ?_, fun pair member => ?_, fun k => ?_⟩
    · rw [List.map_cons, isFst]
    · rcases List.mem_cons.mp member with rfl | before
      · exact same
      · exact all pair before
    · have later := each k
      by_cases isKey : k = key a
      · subst isKey
        rw [Function.update_self] at later
        rw [List.filter_cons_of_pos (by simp), List.map_cons, split]
        exact (List.singleton_sublist.mpr there).append later
      · rw [Function.update_of_ne isKey] at later
        rw [List.filter_cons_of_neg (by simpa using Ne.symm isKey)]
        exact later

/-- What is matched with an element of the first list. -/
theorem exists_of_sublistForall₂ {R : α → β → Prop} {as : List α} {bs : List β}
    (some : List.SublistForall₂ R as bs) {a : α} (there : a ∈ as) : ∃ b ∈ bs, R a b := by
  induction some with
  | nil => cases there
  | cons first _ ih =>
    rcases List.mem_cons.mp there with rfl | later
    · exact ⟨_, List.mem_cons_self, first⟩
    · obtain ⟨b, member, is⟩ := ih later
      exact ⟨b, List.mem_cons_of_mem _ member, is⟩
  | cons_right _ ih =>
    obtain ⟨b, member, is⟩ := ih there
    exact ⟨b, List.mem_cons_of_mem _ member, is⟩

end SslSocks.Lib
