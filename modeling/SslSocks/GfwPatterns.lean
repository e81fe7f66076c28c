import SslSocks.GfwList
import SslSocks.Lib.RegexSyntax

/-!
# Rules that are no patterns

`is_blocked` constructs a `std::regex` from every pattern that it comes to, and the
constructor throws on a text that is none. `load_list` escapes dots and expands stars, and
leaves brackets, braces, parentheses, quantifiers and backslashes as they are.
`lookups_total_iff` says for which rule files no lookup throws. A rule of the plain alphabet
is too long at about 100000 characters, and nothing else is wrong with it.
-/

namespace SslSocks

open Lib

/-- The loop of `is_blocked`, where `none` is an exception of the constructor;
`regexSearch` is `std::regex_search`. -/
def searchHostsWith (regexSearch : List Char → List Char → Bool) (host : List Char) :
    List (List Char) → Option Bool
  | [] => some false
  | i :: hosts =>
    if Regex.valid i then
      if regexSearch host i then some true else searchHostsWith regexSearch host hosts
    else none

/-- `is_blocked` with all of `std::regex`. -/
def isBlockedWith (regexSearch : List Char → List Char → Bool) (g : GfwList) (host : List Char) :
    Option Bool :=
  if g.hosts.length = 0 then some true else searchHostsWith regexSearch host g.hosts

section Patterns

variable {text host : List Char} {hosts ps : List (List Char)} {g : GfwList}
  {regexSearch : List Char → List Char → Bool}

/-- On the fragment this is `isBlocked`, as long as no pattern is too long. -/
theorem isBlockedWith_eq {blocked : Bool} (answer : isBlocked g host = some blocked)
    (short : ∀ i ∈ g.hosts, i.length + 4 ≤ Regex.stateLimit)
    (agrees : ∀ i entry, Regex.compile i = some entry →
      regexSearch host i = Regex.search entry host) :
    isBlockedWith regexSearch g host = some blocked := by
  have searched (hosts : List (List Char)) (answer : searchHosts host hosts = some blocked)
      (short : ∀ i ∈ hosts, i.length + 4 ≤ Regex.stateLimit) :
      searchHostsWith regexSearch host hosts = some blocked := by
    induction hosts with
    | nil => exact answer
    | cons i hosts ih =>
      obtain ⟨first, short⟩ := List.forall_mem_cons.mp short
      rw [searchHosts] at answer
      cases compiled : Regex.compile i with
      | none =>
        rw [compiled] at answer
        cases answer
      | some entry =>
        rw [compiled] at answer
        have valid : Regex.valid i := Regex.valid_of_compile (by rw [compiled]; rfl) first
        rw [searchHostsWith, if_pos valid, agrees i entry compiled]
        simp only at answer
        split at answer
        · rename_i found
          rw [if_pos found]
          exact answer
        · rename_i other
          rw [if_neg other]
          exact ih answer short
  unfold isBlocked at answer
  unfold isBlockedWith
  split at answer
  · rename_i none
    rw [if_pos none]
    exact answer
  · rename_i some
    rw [if_neg some]
    exact searched _ answer short

theorem searchHostsWith_unique (hosts : List (List Char)) :
    searchHostsWith regexSearch host (unique hosts) = searchHostsWith regexSearch host hosts := by
  apply apply_unique (searchHostsWith regexSearch host)
  · intro i hosts
    simp only [searchHostsWith]
    split
    · split <;> rfl
    · rfl
  · intro i hosts hosts' same
    rw [searchHostsWith, searchHostsWith, same]

theorem mem_unique {i : List Char} : i ∈ unique hosts ↔ i ∈ hosts := by
  have same : (i ∈ unique hosts) = (i ∈ hosts) := by
    apply apply_unique (fun hosts => i ∈ hosts)
    · intro j hosts
      simp
    · intro j hosts hosts' same
      rw [List.mem_cons, List.mem_cons, same]
  exact iff_of_eq same

theorem isBlockedWith_unique (hosts : List (List Char)) :
    isBlockedWith regexSearch ⟨unique hosts⟩ host = isBlockedWith regexSearch ⟨hosts⟩ host := by
  unfold isBlockedWith
  simp only [searchHostsWith_unique, List.length_eq_zero_iff, unique_eq_nil]

/-- The search has an answer when each pattern that is none has one before it that is found
in the host. -/
theorem isSome_searchHostsWith :
    (searchHostsWith regexSearch host (ps.map pattern)).isSome ↔
      ∀ before rule after, ps = before ++ rule :: after →
        Regex.globValid rule ∨ ∃ p ∈ before, regexSearch host (pattern p) := by
  induction ps with
  | nil =>
    refine iff_of_true rfl fun before rule after parts => ?_
    exact absurd parts.symm (List.append_ne_nil_of_right_ne_nil before (List.cons_ne_nil rule after))
  | cons p ps ih =>
    rw [List.map_cons, searchHostsWith, pattern, Regex.valid_globText]
    split
    · rename_i wellFormed
      split
      · rename_i found
        refine iff_of_true rfl fun before rule after parts => ?_
        cases before with
        | nil =>
          cases parts
          exact .inl wellFormed
        | cons q before =>
          cases parts
          exact .inr ⟨p, List.mem_cons_self, found⟩
      · rename_i other
        rw [ih]
        constructor
        · intro rest before rule after parts
          cases before with
          | nil =>
            cases parts
            exact .inl wellFormed
          | cons q before =>
            cases parts
            refine (rest before rule after rfl).imp id ?_
            rintro ⟨r, there, found⟩
            exact ⟨r, List.mem_cons_of_mem p there, found⟩
        · intro all before rule after parts
          refine (all (p :: before) rule after (congrArg (p :: ·) parts)).imp id ?_
          rintro ⟨r, there, found⟩
          rcases List.mem_cons.mp there with rfl | there
          · exact absurd found other
          · exact ⟨r, there, found⟩
    · rename_i illFormed
      refine iff_of_false Bool.false_ne_true fun all => ?_
      rcases all [] p ps rfl with wellFormed | ⟨r, there, _⟩
      · exact illFormed wellFormed
      · cases there

/-- **Lookups do not throw** for any host if and only if every rule that survives is well
formed, with its dots for themselves and its stars for any string; a rule of the plain
alphabet is, unless it is too long. One lookup does not throw if and only if each rule that
is not well formed comes behind one that is found in the host. -/
theorem lookups_total_iff (text : List Char) :
    ∃ g, loadList {} (some text) = some g ∧
      ((∀ i ∈ g.hosts, Regex.valid i) ↔ ∀ rule ∈ cores text, Regex.globValid rule) ∧
      ((∀ regexSearch host, (isBlockedWith regexSearch g host).isSome) ↔
        ∀ rule ∈ cores text, Regex.globValid rule) ∧
      (∀ regexSearch host, (isBlockedWith regexSearch g host).isSome ↔
        ∀ before rule after, cores text = before ++ rule :: after →
          Regex.globValid rule ∨ ∃ p ∈ before, regexSearch host (pattern p)) ∧
      (PlainRules text → ∀ rule ∈ cores text,
        (Regex.globValid rule ↔ rule.length + rule.count '*' + 5 ≤ Regex.stateLimit)) := by
  have loaded : loadList {} (some text) = some ⟨unique ((cores text).map pattern)⟩ := by
    have folded : (getLines text).tail.foldlM loadLine [] = some ((cores text).map pattern) :=
      foldlM_loadLine _ []
    rw [loadList, folded]
    rfl
  have one (regexSearch : List Char → List Char → Bool) (host : List Char) :
      (isBlockedWith regexSearch ⟨unique ((cores text).map pattern)⟩ host).isSome ↔
        ∀ before rule after, cores text = before ++ rule :: after →
          Regex.globValid rule ∨ ∃ p ∈ before, regexSearch host (pattern p) := by
    rw [isBlockedWith_unique, isBlockedWith, ← isSome_searchHostsWith]
    simp only [List.length_map, List.length_eq_zero_iff]
    split
    · rename_i none
      rw [none]
      exact iff_of_true rfl rfl
    · exact Iff.rfl
  refine ⟨_, loaded, ?_, ?_, one, ?_⟩
  · simp only [mem_unique, List.forall_mem_map, pattern, Regex.valid_globText]
  · simp only [one]
    constructor
    · intro all rule there
      obtain ⟨before, after, parts⟩ := List.append_of_mem there
      -- a search that finds nothing
      rcases all (fun _ _ => false) [] before rule after parts with wellFormed | ⟨_, _, found⟩
      · exact wellFormed
      · cases found
    · intro wellFormed regexSearch host before rule after parts
      have there : rule ∈ cores text := by
        rw [parts]
        exact List.mem_append_right before List.mem_cons_self
      exact .inl (wellFormed rule there)
  · intro plain rule there
    exact Regex.globValid_iff_of_globChar (globChar_of_mem_cores plain there)

end Patterns

/-- A title, and a rule that opens a group. -/
def openRule : List Char := ['[', ']', '\n', '(', '\n']

/-- **A parenthesis alone** is stored, and every lookup throws. -/
theorem lookups_throw : ∃ g, loadList {} (some openRule) = some g ∧ g.hosts = [['(', '$']] ∧
    Regex.valid ['(', '$'] = false ∧
    ∀ regexSearch host, isBlockedWith regexSearch g host = none := by
  refine ⟨⟨[['(', '$']]⟩, by decide +kernel, rfl, by decide +kernel, ?_⟩
  intro regexSearch host
  rfl

end SslSocks
