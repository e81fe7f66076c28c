import Mathlib
import SslSocks.Lib.Gaps
import SslSocks.Lib.Regex

/-!
# `gfw_list`

`load_list` turns the lines of a rule file into patterns and `is_blocked` searches a host
for them. `isBlocked_iff` says what this comes to for the rules of a plain alphabet: a
host is blocked when some rule, read as a glob, matches a suffix of it.

A text is the list of its characters. The result of `isBlocked` is `none` when it comes
to a pattern outside of the fragment of `Lib.Regex`.
-/

namespace SslSocks

open Lib

/-! ## `std::string` -/

/-- `find(src, pos)`. -/
def findAt (orig src : List Char) (pos : Nat) : Option Nat :=
  (List.range (orig.length + 1)).find? fun i => pos ≤ i && src.isPrefixOf (orig.drop i)

/-- The loop of `replace_string` from its test, for so many rounds; `none` is a loop that
goes on. -/
def replaceLoop (src dest : List Char) : Nat → List Char → Nat → Option (List Char)
  | 0, _, _ => none
  | fuel + 1, orig, pos =>
    match findAt orig src pos with
    | none => some orig
    | some pos =>
      replaceLoop src dest fuel (orig.take pos ++ dest ++ orig.drop (pos + src.length))
        (pos + dest.length)

/-- `replace_string`. -/
def replaceString (orig src dest : List Char) : Option (List Char) :=
  replaceLoop src dest (orig.length + 1) orig 0

/-- `isspace`. -/
def isSpace (c : Char) : Bool := c ∈ [' ', '\t', '\n', '\u000b', '\u000c', '\r']

/-- What successive `std::getline` calls read. -/
def getLines : List Char → List (List Char)
  | [] => []
  | '\n' :: cs => [] :: getLines cs
  | c :: cs =>
    match getLines cs with
    | [] => [[c]]
    | line :: lines => (c :: line) :: lines

/-! ## `gfw_list` -/

structure GfwList where
  hosts : List (List Char) := []
  deriving DecidableEq

/-- `line[i]`; behind the last character there is a null. -/
def charAt (line : List Char) (i : Nat) : Char := line.getD i '\u0000'

/-- The test at the start of the loop of `load_list`. -/
def skipped (line : List Char) : Bool :=
  charAt line 0 = '!' || (charAt line 0 = '@' && charAt line 1 = '@') || isSpace (charAt line 0)

/-- A round of the loop of `load_list`. -/
def loadLine (hosts : List (List Char)) (line : List Char) : Option (List (List Char)) :=
  if skipped line then some hosts
  else do
    let line ← replaceString line ['|'] []
    let line :=
      match findAt line ['/', '/'] 0 with
      | some pos => line.drop (pos + 2)
      | none => line
    let line :=
      match findAt line ['/'] 0 with
      | some pos => line.take pos
      | none => line
    let line ← replaceString line ['.'] ['\\', '.']
    let line ← replaceString line ['*'] ['.', '*']
    if line = [] then some hosts else some (hosts ++ [line ++ ['$']])

/-- `std::unique` and `erase`. -/
def unique (hosts : List (List Char)) : List (List Char) := hosts.destutter (· ≠ ·)

/-- `load_list` on a file with this text; `none` is an empty name. A file that cannot be
opened reads as an empty one. -/
def loadList (g : GfwList) (file : Option (List Char)) : Option GfwList :=
  match file with
  | none => some g
  | some text => do
    let hosts ← (getLines text).tail.foldlM loadLine g.hosts
    some ⟨unique hosts⟩

/-- The loop of `is_blocked`. -/
def searchHosts (host : List Char) : List (List Char) → Option Bool
  | [] => some false
  | i :: hosts =>
    match Regex.compile i with
    | none => none
    | some entry => if Regex.search entry host then some true else searchHosts host hosts

/-- `is_blocked`. -/
def isBlocked (g : GfwList) (host : List Char) : Option Bool :=
  if g.hosts.length = 0 then some true else searchHosts host g.hosts

/-! ## `find` and `replace_string` -/

section Text

variable {orig src dest : List Char} {c d : Char} {pos : Nat}

theorem findAt_nil (nonempty : src ≠ []) : findAt [] src 0 = none := by
  cases src with
  | nil => exact absurd rfl nonempty
  | cons c src => rfl

/-- The search behind the first character. -/
theorem findAt_succ (c : Char) (orig src : List Char) (pos : Nat) :
    findAt (c :: orig) src (pos + 1) = (findAt orig src pos).map (· + 1) := by
  unfold findAt
  rw [List.length_cons, List.range_succ_eq_map, List.find?_cons_of_neg (by simp), List.find?_map]
  congr 1
  apply congrArg (List.find? · _)
  funext i
  simp

theorem findAt_cons (c : Char) (orig src : List Char) :
    findAt (c :: orig) src 0 =
      if src.isPrefixOf (c :: orig) then some 0 else (findAt orig src 0).map (· + 1) := by
  unfold findAt
  rw [List.length_cons, List.range_succ_eq_map, List.find?_cons]
  by_cases here : src.isPrefixOf (c :: orig)
  · simp [here]
  · simp only [Nat.le_refl, decide_true, List.drop_zero, Bool.true_and, here, if_false,
      Bool.false_eq_true, List.find?_map]
    congr 1

/-- The search in the part that is left. -/
theorem findAt_append (front rest src : List Char) :
    findAt (front ++ rest) src front.length = (findAt rest src 0).map (· + front.length) := by
  induction front with
  | nil => simp
  | cons c front ih =>
    rw [List.cons_append, List.length_cons, findAt_succ, ih, Option.map_map]
    apply congrArg (Option.map · _)
    funext i
    simp only [Function.comp_apply]
    omega

/-- What a character becomes when `src` is replaced by `dest`. -/
def substitute (src : Char) (dest : List Char) (c : Char) : List Char :=
  if c = src then dest else [c]

/-- The loop has dealt with `front`; at most one round for each character is left. -/
theorem replaceLoop_single (src : Char) (dest front rest : List Char) {fuel : Nat}
    (enough : rest.length < fuel) :
    replaceLoop [src] dest fuel (front ++ rest) front.length =
      some (front ++ rest.flatMap (substitute src dest)) := by
  induction rest generalizing front fuel with
  | nil =>
    obtain ⟨fuel, rfl⟩ := Nat.exists_eq_add_of_lt enough
    rw [replaceLoop, findAt_append, findAt_nil (List.cons_ne_nil src [])]
    rfl
  | cons c rest ih =>
    obtain ⟨fuel, rfl⟩ : ∃ k, fuel = k + 1 := ⟨fuel - 1, by omega⟩
    rw [List.length_cons] at enough
    rw [List.flatMap_cons, replaceLoop, findAt_append, findAt_cons]
    by_cases same : c = src
    · subst same
      have first : [c].isPrefixOf (c :: rest) = true := by simp
      rw [if_pos first, substitute, if_pos rfl]
      have replaced := @ih (front ++ dest) fuel (by omega)
      rw [List.length_append] at replaced
      simpa using replaced
    · have other : ¬ [src].isPrefixOf (c :: rest) = true := by simpa using Ne.symm same
      have skips := @ih (front ++ [c]) (fuel + 1) (by omega)
      rw [replaceLoop, findAt_append, List.length_append, List.length_singleton] at skips
      rw [if_neg other, substitute, if_neg same]
      simpa [Option.map_map, Function.comp_def, Nat.add_assoc, Nat.add_comm 1] using skips

/-- `replace_string` of one character ends, with every occurrence replaced. -/
theorem replaceString_single (src : Char) (dest orig : List Char) :
    replaceString orig [src] dest = some (orig.flatMap (substitute src dest)) :=
  replaceLoop_single src dest [] orig (Nat.lt_succ_self _)

/-- `find` looks at every place, from the left. -/
theorem findAt_eq_none : findAt orig src 0 = none ↔ ¬ src <:+: orig := by
  unfold findAt
  rw [List.find?_range_eq_none]
  constructor
  · rintro absent ⟨before, rest, same⟩
    have place : before.length < orig.length + 1 := by
      rw [← same, List.length_append, List.length_append]
      omega
    have here := absent before.length place
    rw [← same, List.append_assoc, List.drop_left] at here
    simp [List.isPrefixOf_iff_prefix.mpr (List.prefix_append src rest)] at here
  · intro absent i _
    simp only [Nat.zero_le, decide_true, Bool.true_and, Bool.not_eq_true', Bool.eq_false_iff]
    intro here
    obtain ⟨rest, same⟩ := List.isPrefixOf_iff_prefix.mp here
    exact absent ⟨orig.take i, rest, by rw [List.append_assoc, same, List.take_append_drop]⟩

theorem findAt_leftmost {gap rest : List Char} (left : Leftmost src gap (gap ++ src ++ rest)) :
    findAt (gap ++ src ++ rest) src 0 = some gap.length := by
  unfold findAt
  rw [List.find?_range_eq_some]
  refine ⟨?_, ?_, ?_⟩
  · rw [List.append_assoc, List.drop_left]
    simp
  · rw [List.mem_range, List.length_append, List.length_append]
    omega
  · intro i earlier
    simp only [Nat.zero_le, decide_true, Bool.true_and, Bool.not_eq_true', Bool.eq_false_iff]
    intro here
    obtain ⟨after, same⟩ := List.isPrefixOf_iff_prefix.mp here
    have inside : i ≤ (gap ++ src ++ rest).length := by
      rw [List.length_append, List.length_append]
      omega
    have first := left.2 ((gap ++ src ++ rest).take i)
      ⟨after, by rw [List.append_assoc, same, List.take_append_drop]⟩
    rw [List.length_take_of_le inside] at first
    omega

/-- The loop has dealt with `front`, and goes once round for each gap. -/
theorem replaceLoop_gaps {rest : List Char} {gaps : List (List Char)} (dest front : List Char)
    (cuts : Gaps src rest gaps) {fuel : Nat} (enough : gaps.length ≤ fuel) :
    replaceLoop src dest fuel (front ++ rest) front.length =
      some (front ++ dest.intercalate gaps) := by
  induction cuts generalizing front fuel with
  | last absent =>
    obtain ⟨fuel, rfl⟩ : ∃ k, fuel = k + 1 := ⟨fuel - 1, by simp at enough; omega⟩
    rw [replaceLoop, findAt_append, findAt_eq_none.mpr absent, List.intercalate_singleton]
    rfl
  | @cut text gap rest gaps left same cuts ih =>
    subst same
    rw [List.length_cons] at enough
    obtain ⟨fuel, rfl⟩ : ∃ k, fuel = k + 1 := ⟨fuel - 1, by omega⟩
    rw [replaceLoop, findAt_append, findAt_leftmost left]
    -- what is in front of the occurrence stays, and the search goes on behind `dest`
    have kept : (front ++ (gap ++ src ++ rest)).take (gap.length + front.length) =
        front ++ gap := by
      rw [Nat.add_comm, List.append_assoc gap, ← List.append_assoc, ← List.length_append,
        List.take_left]
    have behind : (front ++ (gap ++ src ++ rest)).drop (gap.length + front.length + src.length) =
        rest := by
      rw [Nat.add_comm gap.length, ← List.append_assoc, ← List.append_assoc, ← List.length_append,
        ← List.length_append, List.drop_left]
    have next := ih (front ++ gap ++ dest) (Nat.le_of_succ_le_succ enough)
    rw [List.length_append, List.length_append, Nat.add_comm front.length] at next
    rw [Option.map_some]
    simp only [kept, behind]
    rw [next, List.intercalate_cons_of_ne_nil cuts.ne_nil]
    simp only [List.append_assoc]

/-- **`replace_string` substitutes from the left and ends**: a text has one list of gaps
between the occurrences of a nonempty `src`, whatever is put in their place. The loop goes
round once for each gap, and its result is the gaps joined by `dest`. -/
theorem replaceString_gaps (orig : List Char) {src : List Char} (nonempty : src ≠ []) :
    ∃ gaps, Gaps src orig gaps ∧ (∀ others, Gaps src orig others → others = gaps) ∧
      src.intercalate gaps = orig ∧
      ∀ dest, replaceString orig src dest = some (dest.intercalate gaps) ∧
        ∀ fuel, gaps.length ≤ fuel →
          replaceLoop src dest fuel orig 0 = some (dest.intercalate gaps) := by
  obtain ⟨gaps, cuts⟩ := exists_gaps nonempty orig
  refine ⟨gaps, cuts, fun others cuts' => cuts'.unique cuts, cuts.intercalate, fun dest => ?_⟩
  have ends {fuel : Nat} (enough : gaps.length ≤ fuel) :
      replaceLoop src dest fuel orig 0 = some (dest.intercalate gaps) :=
    replaceLoop_gaps dest [] cuts enough
  exact ⟨ends (cuts.length_le nonempty), fun fuel => ends⟩

/-- `aab` with `b` for `ab` is `ab`: what is put in is not searched again. -/
theorem replaceString_gaps_once :
    Gaps ['a', 'b'] ['a', 'a', 'b'] [['a'], []] ∧
      replaceString ['a', 'a', 'b'] ['a', 'b'] ['b'] = some ['a', 'b'] := by
  have left : Leftmost ['a', 'b'] ['a'] ['a', 'a', 'b'] := by
    refine ⟨by decide, ?_⟩
    intro before here
    cases before with
    | nil => exact absurd here (by decide)
    | cons c before => exact Nat.succ_le_succ (Nat.zero_le _)
  have cuts : Gaps ['a', 'b'] ['a', 'a', 'b'] [['a'], []] :=
    .cut left rfl (.last (by decide))
  obtain ⟨gaps, _, unique, _, result⟩ :=
    @replaceString_gaps ['a', 'a', 'b'] ['a', 'b'] (List.cons_ne_nil _ _)
  obtain rfl := unique _ cuts
  exact ⟨cuts, (result ['b']).1⟩

end Text

/-! ## The core of a rule -/

/-- The text behind the first `//`, if there is one. -/
def behindSlashes : List Char → Option (List Char)
  | '/' :: '/' :: rest => some rest
  | _ :: rest => behindSlashes rest
  | [] => none

/-- A rule without its anchors, its scheme and its path. -/
def core (line : List Char) : List Char :=
  let bare := line.filter (· ≠ '|')
  ((behindSlashes bare).getD bare).takeWhile (· ≠ '/')

/-- A line that is no rule: a comment, an exception, or one that starts with white space. -/
def excluded : List Char → Bool
  | '!' :: _ => true
  | '@' :: '@' :: _ => true
  | c :: _ => isSpace c
  | [] => false

/-- The rules of a file that survive; its first line is none. -/
def cores (text : List Char) : List (List Char) :=
  (((getLines text).tail.filter (!excluded ·)).map core).filter (· ≠ [])

/-- The alphabet of the plain rules. -/
def ruleChar (c : Char) : Bool := c.isAlphanum || c ∈ ['-', '_', ':', '.', '*', '|', '/']

/-- All rules of the file are written in the plain alphabet. -/
def PlainRules (text : List Char) : Prop :=
  ∀ line ∈ (getLines text).tail, excluded line = false → ∀ c ∈ line, ruleChar c

instance (text : List Char) : Decidable (PlainRules text) :=
  decidable_of_iff
    ((getLines text).tail.all fun line => excluded line || line.all ruleChar) <| by
      unfold PlainRules
      simp only [List.all_eq_true, Bool.or_eq_true, or_iff_not_imp_left, Bool.not_eq_true]

/-- The pattern stored for a rule. -/
def pattern (core : List Char) : List Char := Regex.globText core ++ ['$']

/-- A rule read as a glob matches a suffix of the host. -/
def Blocks (core host : List Char) : Prop := ∃ suffix, suffix <:+ host ∧ Regex.Glob core suffix

section Rules

variable {text line host : List Char} {hosts : List (List Char)} {c : Char}

theorem skipped_eq (line : List Char) : skipped line = excluded line := by
  rcases line with _ | ⟨c, _ | ⟨d, line⟩⟩
  · rfl
  · by_cases bang : c = '!'
    · subst bang
      rfl
    · by_cases alone : c = '@'
      · subst alone
        rfl
      · simp [skipped, charAt, excluded, bang, alone]
  · by_cases bang : c = '!'
    · subst bang
      rfl
    · by_cases first : c = '@'
      · subst first
        by_cases second : d = '@'
        · subst second
          rfl
        · simp [skipped, charAt, excluded, second]
      · simp [skipped, charAt, excluded, bang, first]

/-- The first cut of `load_list`. -/
theorem cut_behindSlashes (line : List Char) :
    (match findAt line ['/', '/'] 0 with
      | some pos => line.drop (pos + 2)
      | none => line) = (behindSlashes line).getD line := by
  have found : (findAt line ['/', '/'] 0).map (fun pos => line.drop (pos + 2)) =
      behindSlashes line := by
    induction line with
    | nil => rfl
    | cons c line ih =>
      rw [findAt_cons]
      by_cases here : ['/', '/'].isPrefixOf (c :: line)
      · rw [if_pos here]
        obtain ⟨rest, eq⟩ := List.isPrefixOf_iff_prefix.mp here
        rw [← eq]
        rfl
      · rw [if_neg here, Option.map_map]
        have skips : behindSlashes (c :: line) = behindSlashes line := by
          rw [behindSlashes]
          rintro rest rfl rfl
          simp at here
        rw [skips, ← ih]
        apply congrArg (Option.map · _)
        funext pos
        rw [Function.comp_apply, Nat.add_right_comm, List.drop_succ_cons]
  rw [← found]
  cases findAt line ['/', '/'] 0 <;> rfl

/-- The second cut. -/
theorem cut_takeWhile (line : List Char) :
    (match findAt line ['/'] 0 with
      | some pos => line.take pos
      | none => line) = line.takeWhile (· ≠ '/') := by
  induction line with
  | nil => rfl
  | cons c line ih =>
    rw [findAt_cons]
    by_cases slash : c = '/'
    · subst slash
      simp
    · have here : ¬ ['/'].isPrefixOf (c :: line) = true := by simpa using Ne.symm slash
      rw [if_neg here, List.takeWhile_cons_of_pos (by simpa using slash), ← ih]
      cases findAt line ['/'] 0 <;> rfl

theorem substitute_bar (line : List Char) :
    line.flatMap (substitute '|' []) = line.filter (· ≠ '|') := by
  induction line with
  | nil => rfl
  | cons c line ih =>
    rw [List.flatMap_cons, ih, substitute]
    by_cases bar : c = '|'
    · subst bar
      rfl
    · rw [if_neg bar, List.filter_cons_of_pos (by simpa using bar)]
      rfl

/-- Dots are escaped before stars are expanded, so that the dots of stars stay. -/
theorem substitute_escape (p : List Char) :
    (p.flatMap (substitute '.' ['\\', '.'])).flatMap (substitute '*' ['.', '*']) =
      Regex.globText p := by
  rw [List.flatMap_assoc, Regex.globText]
  apply congrArg (List.flatMap · p)
  funext c
  rw [substitute, Regex.escape]
  by_cases dot : c = '.'
  · subst dot
    rfl
  · rw [if_neg dot, if_neg dot, List.flatMap_singleton, substitute]

theorem globText_eq_nil {p : List Char} : Regex.globText p = [] ↔ p = [] := by
  cases p with
  | nil => exact iff_of_true rfl rfl
  | cons c p =>
    refine iff_of_false ?_ (List.cons_ne_nil c p)
    rw [Regex.globText, List.flatMap_cons, Regex.escape]
    intro none
    split at none
    · cases none
    · split at none <;> cases none

/-- What a line adds to `_hosts`. -/
theorem loadLine_eq (hosts : List (List Char)) (line : List Char) :
    loadLine hosts line =
      some (hosts ++ ((([line].filter (!excluded ·)).map core).filter (· ≠ [])).map pattern) := by
  unfold loadLine
  rw [skipped_eq]
  by_cases skip : excluded line
  · simp [skip]
  · rw [if_neg skip]
    simp only [replaceString_single, substitute_bar, cut_behindSlashes, cut_takeWhile,
      substitute_escape, Option.bind_eq_bind, Option.bind_some, globText_eq_nil]
    have kept : [line].filter (!excluded ·) = [line] := by simpa using skip
    rw [kept]
    show (if core line = [] then some hosts else some (hosts ++ [pattern (core line)])) = _
    by_cases empty : core line = []
    · simp [empty]
    · simp [empty]

/-- The loop of `load_list` ends, with a pattern for each rule that survives. -/
theorem foldlM_loadLine (lines hosts : List (List Char)) :
    lines.foldlM loadLine hosts =
      some (hosts ++ (((lines.filter (!excluded ·)).map core).filter (· ≠ [])).map pattern) := by
  induction lines generalizing hosts with
  | nil => simp
  | cons line lines ih =>
    rw [List.foldlM_cons, loadLine_eq, Option.bind_eq_bind, Option.bind_some, ih,
      List.append_assoc, ← List.map_append, ← List.filter_append, ← List.map_append,
      ← List.filter_append, List.singleton_append]

/-- What an element does at its second place in a row it need not do. -/
theorem apply_unique {β : Type*} (f : List (List Char) → β)
    (twice : ∀ i hosts, f (i :: i :: hosts) = f (i :: hosts))
    (behind : ∀ i {hosts hosts'}, f hosts = f hosts' → f (i :: hosts) = f (i :: hosts'))
    (hosts : List (List Char)) : f (unique hosts) = f hosts := by
  have tail (i : List Char) (hosts : List (List Char)) :
      f (hosts.destutter' (· ≠ ·) i) = f (i :: hosts) := by
    induction hosts generalizing i with
    | nil => rfl
    | cons j hosts ih =>
      by_cases same : i = j
      · subst same
        rw [List.destutter'_cons_neg _ (by simp), ih, twice]
      · rw [List.destutter'_cons_pos _ same]
        exact behind i (ih j)
  cases hosts with
  | nil => rfl
  | cons i hosts => exact tail i hosts

/-- Without adjacent duplicates the search has the same answer. -/
theorem searchHosts_unique (host : List Char) (hosts : List (List Char)) :
    searchHosts host (unique hosts) = searchHosts host hosts := by
  apply apply_unique (searchHosts host)
  · intro i hosts
    simp only [searchHosts]
    cases Regex.compile i with
    | none => rfl
    | some entry =>
      simp only
      split <;> rfl
  · intro i hosts hosts' same
    rw [searchHosts, searchHosts, same]

theorem unique_eq_nil : unique hosts = [] ↔ hosts = [] := List.destutter_eq_nil _

theorem isBlocked_unique (host : List Char) (hosts : List (List Char)) :
    isBlocked ⟨unique hosts⟩ host = isBlocked ⟨hosts⟩ host := by
  unfold isBlocked
  simp only [searchHosts_unique, List.length_eq_zero_iff, unique_eq_nil]

/-! ## Rules of the plain alphabet -/

theorem behindSlashes_suffix {rest : List Char} (behind : behindSlashes line = some rest) :
    rest <:+ line := by
  induction line with
  | nil => cases behind
  | cons c line ih =>
    unfold behindSlashes at behind
    split at behind
    · rename_i eq
      obtain ⟨rfl, rfl⟩ := List.cons.inj eq
      cases behind
      exact (List.suffix_cons _ _).trans (List.suffix_cons _ _)
    · rename_i eq
      obtain ⟨rfl, rfl⟩ := List.cons.inj eq
      exact (ih behind).trans (List.suffix_cons _ _)
    · rename_i eq
      cases eq

theorem of_mem_core (there : c ∈ core line) : c ∈ line ∧ c ≠ '|' ∧ c ≠ '/' := by
  have kept := List.mem_takeWhile_imp there
  have before := (List.takeWhile_sublist _).subset there
  have bare : c ∈ line.filter (· ≠ '|') := by
    cases behind : behindSlashes (line.filter (· ≠ '|')) with
    | none =>
      rw [behind] at before
      exact before
    | some rest =>
      rw [behind] at before
      exact (behindSlashes_suffix behind).subset before
  obtain ⟨member, bar⟩ := List.mem_filter.mp bare
  exact ⟨member, of_decide_eq_true bar, of_decide_eq_true kept⟩

/-- No character of a core is special, but for the dot and the star. -/
theorem globChar_of_ruleChar (rule : ruleChar c) (bar : c ≠ '|') (slash : c ≠ '/') :
    Regex.globChar c := by
  by_contra special
  simp only [Regex.globChar, Bool.or_eq_true, decide_eq_true_eq, Bool.not_eq_true', not_or,
    Bool.not_eq_false] at special
  obtain ⟨⟨dot, star⟩, syntaxChar⟩ := special
  have cases := of_decide_eq_true syntaxChar
  simp only [List.mem_cons, List.not_mem_nil, or_false] at cases
  rcases cases with rfl | rfl | rfl | rfl | rfl | rfl | rfl | rfl | rfl | rfl | rfl | rfl | rfl | rfl
    <;> first | exact absurd rfl bar | exact absurd rfl dot | exact absurd rfl star |
      exact absurd rule (by decide)

theorem globChar_of_mem_cores (plain : PlainRules text) {p : List Char} (there : p ∈ cores text) :
    ∀ c ∈ p, Regex.globChar c := by
  intro c member
  obtain ⟨mapped, _⟩ := List.mem_filter.mp there
  obtain ⟨line, kept, rfl⟩ := List.mem_map.mp mapped
  obtain ⟨read, rule⟩ := List.mem_filter.mp kept
  obtain ⟨inLine, bar, slash⟩ := of_mem_core member
  exact globChar_of_ruleChar (plain line read (by simpa using rule) c inLine) bar slash

theorem searchHosts_patterns {ps : List (List Char)}
    (plain : ∀ p ∈ ps, ∀ c ∈ p, Regex.globChar c)
    (unbroken : ∀ c ∈ host, Regex.lineTerminator c = false) :
    ∃ blocked, searchHosts host (ps.map pattern) = some blocked ∧
      (blocked ↔ ∃ p ∈ ps, Blocks p host) := by
  induction ps with
  | nil => exact ⟨false, rfl, iff_of_false nofun (by rintro ⟨_, none, _⟩; cases none)⟩
  | cons p ps ih =>
    obtain ⟨first, plain⟩ := List.forall_mem_cons.mp plain
    obtain ⟨blocked, searched, meaning⟩ := ih plain
    have found : Regex.search (p.map Regex.globTerm ++ [.atEnd]) host ↔ Blocks p host :=
      Regex.search_globTerms unbroken
    rw [List.map_cons, searchHosts, pattern, Regex.compile_globText first]
    simp only [List.exists_mem_cons_iff]
    by_cases here : Regex.search (p.map Regex.globTerm ++ [.atEnd]) host
    · exact ⟨true, if_pos here, iff_of_true rfl (.inl (found.mp here))⟩
    · refine ⟨blocked, by rw [if_neg here, searched], ?_⟩
      rw [meaning, or_iff_right fun matched => here (found.mpr matched)]

/-- **Rule matching is suffix globbing**: `load_list` ends, `is_blocked` has an answer,
and it is yes when no rule survives or one of them matches a suffix of the host. The
list with its adjacent duplicates has the same answer. -/
theorem isBlocked_iff (plain : PlainRules text)
    (unbroken : ∀ c ∈ host, Regex.lineTerminator c = false) :
    ∃ hosts, (getLines text).tail.foldlM loadLine [] = some hosts ∧
      loadList {} (some text) = some ⟨unique hosts⟩ ∧
      isBlocked ⟨unique hosts⟩ host = isBlocked ⟨hosts⟩ host ∧
      ∃ blocked, isBlocked ⟨unique hosts⟩ host = some blocked ∧
        (blocked ↔ cores text = [] ∨ ∃ rule ∈ cores text, Blocks rule host) := by
  have loaded : (getLines text).tail.foldlM loadLine [] = some ((cores text).map pattern) :=
    foldlM_loadLine _ []
  refine ⟨(cores text).map pattern, loaded, ?_, isBlocked_unique host _, ?_⟩
  · rw [loadList, loaded]
    rfl
  · rw [isBlocked_unique, isBlocked]
    simp only [List.length_map, List.length_eq_zero_iff]
    by_cases none : cores text = []
    · exact ⟨true, if_pos none, iff_of_true rfl (.inl none)⟩
    · obtain ⟨blocked, searched, meaning⟩ :=
        searchHosts_patterns (fun p there => globChar_of_mem_cores plain there) unbroken
      exact ⟨blocked, by rw [if_neg none, searched], by rw [meaning, or_iff_right none]⟩

end Rules

/-- A title, a comment, a rule with anchors and a path, and the same rule again. -/
def someRules : List Char :=
  ['[', ']', '\n', '!', '\n', '|', 'a', '*', '.', 'b', '/', 'x', '\n', 'a', '*', '.', 'b', '\n']

/-- `c.aa.b` is blocked by the rule `a*.b`. -/
theorem isBlocked_iff_someRules :
    cores someRules = [['a', '*', '.', 'b'], ['a', '*', '.', 'b']] ∧
      ∃ g, loadList {} (some someRules) = some g ∧
        isBlocked g ['c', '.', 'a', 'a', '.', 'b'] = some true := by
  have unbroken : ['c', '.', 'a', 'a', '.', 'b'].all (Regex.lineTerminator · = false) := by decide
  obtain ⟨hosts, _, loaded, _, blocked, answer, meaning⟩ :=
    @isBlocked_iff someRules ['c', '.', 'a', 'a', '.', 'b'] (by decide) fun c there =>
      of_decide_eq_true (List.all_eq_true.mp unbroken c there)
  refine ⟨by decide +kernel, _, loaded, ?_⟩
  rw [answer, meaning.mpr]
  have matched : Regex.Glob ['a', '*', '.', 'b'] ['a', 'a', '.', 'b'] :=
    .char (by decide) (.star ['a'] (.char (by decide) (.char (by decide) .nil)))
  exact .inr ⟨['a', '*', '.', 'b'], by decide +kernel, ['a', 'a', '.', 'b'], by decide +kernel, matched⟩

end SslSocks
