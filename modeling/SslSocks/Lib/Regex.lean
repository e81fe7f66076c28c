import Mathlib

/-!
# A fragment of ECMAScript regular expressions, and globs

`compile` reads a pattern made of ordinary characters, escaped syntax characters, `.`,
`$` and `*` after a character or a dot; other constructs are outside of the fragment.
`search` looks for a match anywhere in the subject, by backtracking.

A glob is a text in which `*` stands for any string and every other character for
itself. `globText` writes it as a pattern, and `search_globTerms` shows that the search
for that pattern with a `$` at its end finds the subjects with a suffix that the glob
matches.
-/

namespace SslSocks.Lib.Regex

/-! ## Patterns -/

/-- The characters that do not stand for themselves. -/
def syntaxChar (c : Char) : Bool :=
  c ∈ ['^', '$', '\\', '.', '*', '+', '?', '(', ')', '[', ']', '{', '}', '|']

def lineTerminator (c : Char) : Bool := c ∈ ['\n', '\r', '\u2028', '\u2029']

/-- A character that is given, or any but a line terminator. -/
inductive Atom
  | char (c : Char)
  | any
  deriving DecidableEq

inductive Token
  | atom (a : Atom)
  | star
  | dollar
  deriving DecidableEq

inductive Term
  | one (a : Atom)
  | many (a : Atom)
  | atEnd
  deriving DecidableEq

def tokens : List Char → Option (List Token)
  | [] => some []
  | '.' :: cs => (tokens cs).map (.atom .any :: ·)
  | '*' :: cs => (tokens cs).map (.star :: ·)
  | '$' :: cs => (tokens cs).map (.dollar :: ·)
  | '\\' :: c :: cs =>
    if syntaxChar c then (tokens cs).map (.atom (.char c) :: ·) else none
  | c :: cs => if syntaxChar c then none else (tokens cs).map (.atom (.char c) :: ·)

/-- A quantifier follows an atom. -/
def terms : List Token → Option (List Term)
  | [] => some []
  | .atom a :: .star :: ts => (terms ts).map (.many a :: ·)
  | .atom a :: ts => (terms ts).map (.one a :: ·)
  | .dollar :: ts => (terms ts).map (.atEnd :: ·)
  | .star :: _ => none

/-- `none` is a pattern outside of the fragment. -/
def compile (text : List Char) : Option (List Term) := (tokens text).bind terms

/-! ## Matching -/

def Atom.accepts : Atom → Char → Bool
  | .char c, d => d = c
  | .any, d => !lineTerminator d

/-- As many of `a` as possible, and then `next`. -/
def repeated (a : Atom) (next : List Char → Bool) : List Char → Bool
  | [] => next []
  | c :: cs => (a.accepts c && repeated a next cs) || next (c :: cs)

/-- There is a match at the start of the subject. -/
def matchHere : List Term → List Char → Bool
  | [], _ => true
  | .one _ :: _, [] => false
  | .one a :: ts, c :: cs => a.accepts c && matchHere ts cs
  | .many a :: ts, cs => repeated a (matchHere ts) cs
  | .atEnd :: ts, cs => cs.isEmpty && matchHere ts cs

/-- There is a match somewhere. -/
def search (ts : List Term) (subject : List Char) : Bool := subject.tails.any (matchHere ts)

variable {a : Atom} {next : List Char → Bool} {ts : List Term} {p cs : List Char} {c : Char}

theorem repeated_iff :
    repeated a next cs ↔ ∃ s t, cs = s ++ t ∧ (∀ d ∈ s, a.accepts d) ∧ next t := by
  induction cs with
  | nil =>
    constructor
    · intro here
      exact ⟨[], [], rfl, nofun, here⟩
    · rintro ⟨s, t, eq, _, here⟩
      obtain ⟨rfl, rfl⟩ := List.append_eq_nil_iff.mp eq.symm
      exact here
  | cons c cs ih =>
    simp only [repeated, Bool.or_eq_true, Bool.and_eq_true, ih]
    constructor
    · rintro (⟨first, s, t, rfl, all, here⟩ | here)
      · exact ⟨c :: s, t, rfl, List.forall_mem_cons.mpr ⟨first, all⟩, here⟩
      · exact ⟨[], c :: cs, rfl, nofun, here⟩
    · rintro ⟨s, t, eq, all, here⟩
      cases s with
      | nil =>
        rw [eq]
        exact .inr here
      | cons d s =>
        obtain ⟨rfl, rfl⟩ := List.cons.inj eq
        obtain ⟨first, all⟩ := List.forall_mem_cons.mp all
        exact .inl ⟨first, s, t, rfl, all, here⟩

theorem search_iff : search ts cs ↔ ∃ suffix, suffix <:+ cs ∧ matchHere ts suffix := by
  simp only [search, List.any_eq_true, List.mem_tails]

/-! ## Globs -/

/-- The glob `p` matches a text. -/
inductive Glob : List Char → List Char → Prop
  | nil : Glob [] []
  | star {p t : List Char} (s : List Char) : Glob p t → Glob ('*' :: p) (s ++ t)
  | char {c : Char} {p t : List Char} : c ≠ '*' → Glob p t → Glob (c :: p) (c :: t)

/-- The characters of a glob that can be written as a pattern by `globText`. -/
def globChar (c : Char) : Bool := c = '.' || c = '*' || !syntaxChar c

/-- A dot is escaped, and a star becomes `.*`. -/
def escape (c : Char) : List Char :=
  if c = '.' then ['\\', '.'] else if c = '*' then ['.', '*'] else [c]

def globText (p : List Char) : List Char := p.flatMap escape

def globTokens (c : Char) : List Token :=
  if c = '*' then [.atom .any, .star] else [.atom (.char c)]

def globTerm (c : Char) : Term := if c = '*' then .many .any else .one (.char c)

theorem globTokens_of_ne (other : c ≠ '*') : globTokens c = [.atom (.char c)] := if_neg other

theorem globTerm_of_ne (other : c ≠ '*') : globTerm c = .one (.char c) := if_neg other

theorem tokens_ordinary (ordinary : syntaxChar c = false) :
    tokens (c :: cs) = (tokens cs).map (.atom (.char c) :: ·) := by
  have ne (d : Char) (special : syntaxChar d) : c ≠ d := by
    rintro rfl
    rw [special] at ordinary
    cases ordinary
  rw [tokens]
  · rw [if_neg (by rw [ordinary]; exact nofun)]
  · exact ne '.' rfl
  · exact ne '*' rfl
  · exact ne '$' rfl
  · intro d ds same
    exact absurd same (ne '\\' rfl)

theorem tokens_escape (plain : globChar c) :
    tokens (escape c ++ cs) = (tokens cs).map (globTokens c ++ ·) := by
  by_cases dot : c = '.'
  · subst dot
    rfl
  · by_cases star : c = '*'
    · subst star
      show ((tokens cs).map (.star :: ·)).map (.atom .any :: ·) = _
      rw [Option.map_map]
      rfl
    · have ordinary : syntaxChar c = false := by simpa [globChar, dot, star] using plain
      have same : escape c = [c] := by rw [escape, if_neg dot, if_neg star]
      rw [same, globTokens_of_ne star]
      exact tokens_ordinary ordinary

theorem tokens_globText (plain : ∀ c ∈ p, globChar c) :
    tokens (globText p ++ ['$']) = some (p.flatMap globTokens ++ [.dollar]) := by
  induction p with
  | nil => rfl
  | cons c p ih =>
    obtain ⟨first, plain⟩ := List.forall_mem_cons.mp plain
    have split : globText (c :: p) ++ ['$'] = escape c ++ (globText p ++ ['$']) := by
      rw [globText, List.flatMap_cons, List.append_assoc]
      rfl
    rw [split, tokens_escape first, ih plain, Option.map_some, List.flatMap_cons,
      List.append_assoc]

/-- No quantifier starts the tokens of a glob: a star follows its dot. -/
theorem globTokens_ne_star (p : List Char) (ts : List Token) :
    p.flatMap globTokens ++ [.dollar] ≠ .star :: ts := by
  intro eq
  cases p with
  | nil => cases eq
  | cons d p =>
    rw [List.flatMap_cons, List.append_assoc] at eq
    unfold globTokens at eq
    split at eq <;> cases eq

theorem terms_globTokens (p : List Char) :
    terms (p.flatMap globTokens ++ [.dollar]) = some (p.map globTerm ++ [.atEnd]) := by
  induction p with
  | nil => rfl
  | cons c p ih =>
    rw [List.flatMap_cons, List.append_assoc, List.map_cons, List.cons_append]
    by_cases star : c = '*'
    · subst star
      show (terms (p.flatMap globTokens ++ [.dollar])).map (.many .any :: ·) = _
      rw [ih]
      rfl
    · rw [globTokens_of_ne star, globTerm_of_ne star, List.singleton_append, terms, ih]
      · rfl
      · intro ts eq
        exact globTokens_ne_star p ts eq

/-- A glob becomes a pattern of the fragment. -/
theorem compile_globText (plain : ∀ c ∈ p, globChar c) :
    compile (globText p ++ ['$']) = some (p.map globTerm ++ [.atEnd]) := by
  rw [compile, tokens_globText plain, Option.bind_some, terms_globTokens]

theorem glob_star : Glob ('*' :: p) cs ↔ ∃ s t, cs = s ++ t ∧ Glob p t := by
  constructor
  · intro matched
    cases matched with
    | star s matched => exact ⟨s, _, rfl, matched⟩
    | char other _ => exact absurd rfl other
  · rintro ⟨s, t, rfl, matched⟩
    exact .star s matched

theorem glob_char (other : c ≠ '*') : Glob (c :: p) cs ↔ ∃ t, cs = c :: t ∧ Glob p t := by
  constructor
  · intro matched
    cases matched with
    | star s _ => exact absurd rfl other
    | char _ matched => exact ⟨_, rfl, matched⟩
  · rintro ⟨t, rfl, matched⟩
    exact .char other matched

/-- The pattern matches from here to the end what the glob matches. -/
theorem matchHere_globTerms (unbroken : ∀ d ∈ cs, lineTerminator d = false) :
    matchHere (p.map globTerm ++ [.atEnd]) cs ↔ Glob p cs := by
  induction p generalizing cs with
  | nil =>
    cases cs with
    | nil => exact iff_of_true rfl .nil
    | cons d cs => exact iff_of_false nofun nofun
  | cons c p ih =>
    rw [List.map_cons, List.cons_append]
    by_cases star : c = '*'
    · subst star
      rw [glob_star]
      show repeated .any (matchHere (p.map globTerm ++ [.atEnd])) cs ↔ _
      rw [repeated_iff]
      constructor
      · rintro ⟨s, t, rfl, _, here⟩
        exact ⟨s, t, rfl, (ih fun d there => unbroken d (List.mem_append_right s there)).mp here⟩
      · rintro ⟨s, t, rfl, matched⟩
        refine ⟨s, t, rfl, fun d there => ?_,
          (ih fun d there => unbroken d (List.mem_append_right s there)).mpr matched⟩
        have ordinary := unbroken d (List.mem_append_left t there)
        rw [Atom.accepts, ordinary]
        rfl
    · rw [glob_char star, globTerm_of_ne star]
      cases cs with
      | nil => exact iff_of_false nofun (by rintro ⟨_, eq, _⟩; cases eq)
      | cons d cs =>
        obtain ⟨_, rest⟩ := List.forall_mem_cons.mp unbroken
        rw [matchHere, Bool.and_eq_true, ih rest]
        constructor
        · rintro ⟨same, matched⟩
          obtain rfl : d = c := of_decide_eq_true same
          exact ⟨cs, rfl, matched⟩
        · rintro ⟨t, eq, matched⟩
          obtain ⟨rfl, rfl⟩ := List.cons.inj eq
          exact ⟨decide_eq_true rfl, matched⟩

/-- **The search for the pattern of a glob** finds a suffix that the glob matches. -/
theorem search_globTerms (unbroken : ∀ d ∈ cs, lineTerminator d = false) :
    search (p.map globTerm ++ [.atEnd]) cs ↔ ∃ suffix, suffix <:+ cs ∧ Glob p suffix := by
  rw [search_iff]
  constructor
  · rintro ⟨suffix, isSuffix, here⟩
    exact ⟨suffix, isSuffix,
      (matchHere_globTerms fun d there => unbroken d (isSuffix.mem there)).mp here⟩
  · rintro ⟨suffix, isSuffix, matched⟩
    exact ⟨suffix, isSuffix,
      (matchHere_globTerms fun d there => unbroken d (isSuffix.mem there)).mpr matched⟩

end SslSocks.Lib.Regex
