import SslSocks.Lib.Regex

/-!
# The patterns of ECMAScript

`valid` tells which texts the constructor of `std::regex` of libstdc++ takes as ECMAScript:
groups and lookaheads, quantifiers, escapes, back references, and classes with ranges and
named sets, as long as the automaton that it builds has no more states than `stateLimit`.
A pattern is read from left to right by `Scan.step`, which keeps the groups that are open
and counts the states. A character is a byte, and bytes compare as signed ones. The stack
that the recursion of the constructor takes is not bounded here.

A glob over such patterns has a dot for itself and a star for any string, and keeps the
meaning of every other character; `globText` writes it as a pattern. `Scan.globStep` reads
the glob itself, and `valid_globText` says that the pattern is one if and only if the glob
is well formed (`globValid`).
-/

namespace SslSocks.Lib.Regex

/-! ## Classes -/

/-- The names in `[:name:]`. -/
def classNames : List String :=
  ["alnum", "alpha", "blank", "cntrl", "d", "digit", "graph", "lower", "print", "punct", "s",
    "space", "upper", "w", "xdigit"]

/-- The names of the characters from 0 on in `[.name.]`. -/
def collateNames : List String :=
  ["NUL", "SOH", "STX", "ETX", "EOT", "ENQ", "ACK", "alert", "backspace", "tab", "newline",
    "vertical-tab", "form-feed", "carriage-return", "SO", "SI", "DLE", "DC1", "DC2", "DC3",
    "DC4", "NAK", "SYN", "ETB", "CAN", "EM", "SUB", "ESC", "IS4", "IS3", "IS2", "IS1", "space",
    "exclamation-mark", "quotation-mark", "number-sign", "dollar-sign", "percent-sign",
    "ampersand", "apostrophe", "left-parenthesis", "right-parenthesis", "asterisk", "plus-sign",
    "comma", "hyphen", "period", "slash", "zero", "one", "two", "three", "four", "five", "six",
    "seven", "eight", "nine", "colon", "semicolon", "less-than-sign", "equals-sign",
    "greater-than-sign", "question-mark", "commercial-at", "A", "B", "C", "D", "E", "F", "G",
    "H", "I", "J", "K", "L", "M", "N", "O", "P", "Q", "R", "S", "T", "U", "V", "W", "X", "Y",
    "Z", "left-square-bracket", "backslash", "right-square-bracket", "circumflex",
    "underscore", "grave-accent", "a", "b", "c", "d", "e", "f", "g", "h", "i", "j", "k", "l",
    "m", "n", "o", "p", "q", "r", "s", "t", "u", "v", "w", "x", "y", "z", "left-curly-bracket",
    "vertical-line", "right-curly-bracket", "tilde", "DEL"]

/-- The character that a name in `[.name.]` stands for. -/
def collate (name : List Char) : Option Nat := collateNames.idxOf? (String.ofList name)

def hexDigit (c : Char) : Option Nat :=
  if c.isDigit then some (c.toNat - 48)
  else if c ∈ ['a', 'b', 'c', 'd', 'e', 'f'] then some (c.toNat - 87)
  else if c ∈ ['A', 'B', 'C', 'D', 'E', 'F'] then some (c.toNat - 55)
  else none

/-- The value of a byte as a character. -/
def charValue (n : Nat) : Int := (BitVec.ofNat 8 n).toInt

/-- A member of a class. -/
inductive Member
  | char (value : Int)
  | dash
  /-- A set, by an escape or a name. -/
  | set
  /-- A character, by its name. -/
  | symbol (value : Int)
  deriving DecidableEq

/-- How the members of a class end so far: none that a range could start with, a character,
a set, or one of these and a dash. -/
inductive Item
  | fresh
  | char (value : Int)
  | set
  | dash (low : Int)
  | setDash
  deriving DecidableEq

/-- What a bracket in a class begins a name of. -/
inductive Mark
  | className
  | equivalence
  | symbol
  deriving DecidableEq

def Mark.char : Mark → Char
  | .className => ':'
  | .equivalence => '='
  | .symbol => '.'

/-- Where the reading stands in a class. -/
inductive ClassMode
  /-- Behind the bracket. -/
  | first
  | items (item : Item)
  /-- Behind a backslash. -/
  | escape (item : Item)
  /-- One hexadecimal digit and `left` more are to come. -/
  | hex (item : Item) (left value : Nat)
  | control (item : Item)
  /-- Behind a bracket among the members. -/
  | bracket (item : Item)
  | name (item : Item) (mark : Mark) (known : List Char)
  | nameEnd (item : Item) (mark : Mark) (known : List Char)
  deriving DecidableEq

/-- A member is added; behind a dash it ends a range. -/
def Item.put (item : Item) (member : Member) : Option Item :=
  match item with
  | .fresh | .char _ | .set =>
    match member with
    | .char value | .symbol value => some (.char value)
    | .set => some .set
    | .dash =>
      match item with
      | .char low => some (.dash low)
      | .set => some .setDash
      | _ => some (.char 45)
  | .dash low =>
    match member with
    | .char high => if low ≤ high then some .fresh else none
    | .dash => if low ≤ 45 then some .fresh else none
    | .set | .symbol _ => none
  | .setDash => none

/-- In the modes of a class, `none` inside of `some` is its end. -/
def Item.add (item : Item) (member : Member) : Option (Option ClassMode) :=
  (item.put member).map fun item => some (.items item)

/-- A character of a class. -/
def Item.read (item : Item) (c : Char) : Option (Option ClassMode) :=
  if c = ']' then some none
  else if c = '\\' then some (some (.escape item))
  else if c = '[' then some (some (.bracket item))
  else if c = '-' then item.add .dash
  else item.add (.char (charValue c.toNat))

/-- The characters that have an escape of their own in a class. -/
def escapes : List (Char × Int) :=
  [('0', 0), ('b', 8), ('t', 9), ('n', 10), ('v', 11), ('f', 12), ('r', 13)]

/-- The character behind a backslash in a class. -/
def Item.escaped (item : Item) (c : Char) : Option (Option ClassMode) :=
  if c ∈ ['d', 'D', 's', 'S', 'w', 'W'] then item.add .set
  else if c = 'x' then some (some (.hex item 1 0))
  else if c = 'u' then some (some (.hex item 3 0))
  else if c = 'c' then some (some (.control item))
  else
    match escapes.lookup c with
    | some value => item.add (.char value)
    | none =>
      if c = 'B' ∨ c.isDigit then none else item.add (.char (charValue c.toNat))

/-- The member that a name stands for. -/
def Mark.member (mark : Mark) (known : List Char) : Option Member :=
  match mark with
  | .className =>
    if String.ofList (known.map Char.toLower) ∈ classNames then some .set else none
  | .equivalence => (collate known).map fun _ => .set
  | .symbol => (collate known).map fun n => .symbol n

def ClassMode.step (mode : ClassMode) (c : Char) : Option (Option ClassMode) :=
  match mode with
  | .first => if c = '^' then some (some (.items .fresh)) else Item.fresh.read c
  | .items item => item.read c
  | .escape item => item.escaped c
  | .hex item left value =>
    match hexDigit c, left with
    | none, _ => none
    | some digit, 0 => item.add (.char (charValue (16 * value + digit)))
    | some digit, left + 1 => some (some (.hex item left (16 * value + digit)))
  | .control item => item.add (.char (charValue c.toNat))
  | .bracket item =>
    if c = ':' then some (some (.name item .className []))
    else if c = '=' then some (some (.name item .equivalence []))
    else if c = '.' then some (some (.name item .symbol []))
    else (item.put (.char 91)).bind fun item => item.read c
  | .name item mark known =>
    if c = mark.char then some (some (.nameEnd item mark known))
    else some (some (.name item mark (known ++ [c])))
  | .nameEnd item mark known =>
    if c = ']' then (mark.member known).bind item.add else none

/-! ## Patterns -/

/-- Where the reading stands. -/
inductive Mode
  /-- Between terms, with nothing to repeat. -/
  | start
  /-- Behind an atom. -/
  | atom
  /-- Behind a quantifier. -/
  | quantified
  | escape
  | hex (left : Nat)
  | control
  | decimal (value : Nat)
  /-- Behind a parenthesis, and behind a question mark that follows one. -/
  | paren
  | parenQuestion
  /-- Behind a brace, in the least number, behind its comma, in the largest number. -/
  | brace
  | least (low : Nat)
  | comma (low : Nat)
  | most (low high : Nat)
  | cls (mode : ClassMode)
  deriving DecidableEq

inductive GroupKind
  | capture (index : Nat)
  | plain
  | lookahead
  deriving DecidableEq

/-- The states of the terms of a group that are read: those of the last one, which a
quantifier may repeat, and all others. -/
structure Level where
  before : Nat := 0
  last : Nat := 0
  deriving DecidableEq

/-- A term that may be repeated. -/
def Level.atom (l : Level) (size : Nat) : Level := ⟨l.before + l.last, size⟩

def Level.assertion (l : Level) (size : Nat) : Level := ⟨l.before + l.last + size, 0⟩

/-- All states, with the one that joins the last alternative. -/
def Level.size (l : Level) : Nat := l.before + l.last + 1

/-- The most states of an automaton. -/
def stateLimit : Nat := 100000

/-- A pattern that is partly read: the open groups, the last one first, each with the terms
before it; the groups that capture; and the states so far. -/
structure Scan where
  mode : Mode := .start
  level : Level := {}
  groups : List (GroupKind × Level) := []
  captures : Nat := 0
  states : Nat := 1
  deriving DecidableEq

namespace Scan

def atom (s : Scan) : Scan :=
  { s with mode := .atom, level := s.level.atom 1, states := s.states + 1 }

def assertion (s : Scan) : Scan :=
  { s with mode := .start, level := s.level.assertion 1, states := s.states + 1 }

/-- A bar. -/
def alternative (s : Scan) : Scan :=
  { s with mode := .start, level := s.level.assertion 3, states := s.states + 3 }

/-- A group is open. -/
def opened (s : Scan) (kind : GroupKind) (size : Nat) : Scan :=
  { s with
    mode := .start, level := {}, groups := (kind, s.level) :: s.groups
    states := s.states + size }

/-- A group that captures is open. -/
def capture (s : Scan) : Scan :=
  { s.opened (.capture (s.captures + 1)) 1 with captures := s.captures + 1 }

/-- A group is closed. -/
def close (s : Scan) : Option Scan :=
  match s.groups with
  | [] => none
  | (.capture _, outer) :: groups =>
    some { s with
      mode := .atom, level := outer.atom (s.level.size + 2), groups, states := s.states + 2 }
  | (.plain, outer) :: groups =>
    some { s with
      mode := .atom, level := outer.atom (s.level.size + 1), groups, states := s.states + 1 }
  | (.lookahead, outer) :: groups =>
    some { s with
      mode := .start, level := outer.assertion (s.level.size + 2), groups
      states := s.states + 3 }

/-- A star, a plus or a question mark. -/
def quantify (s : Scan) (size : Nat) : Scan :=
  { s with
    mode := .quantified, level := { s.level with last := s.level.last + size }
    states := s.states + size }

/-- The last term is copied for a brace. -/
def copied (s : Scan) (size : Nat) : Scan :=
  { s with
    mode := .quantified, level := { s.level with last := size }, states := s.states + size }

/-- Between `low` and `high` times. -/
def range (s : Scan) (low high : Nat) : Option Scan :=
  if low ≤ high then
    some (s.copied (2 + low * s.level.last + (high - low) * (s.level.last + 1)))
  else none

/-- At least `low` times. -/
def atLeast (s : Scan) (low : Nat) : Scan :=
  s.copied (1 + low * s.level.last + s.level.last + 1)

/-- Behind an atom or a quantifier. -/
def repeatable (s : Scan) : Bool := s.mode = .atom || s.mode = .quantified

/-- A character between terms. -/
def term (s : Scan) (c : Char) : Option Scan :=
  match c with
  | '^' | '$' => some s.assertion
  | '|' => some s.alternative
  | '\\' => some { s with mode := .escape }
  | '[' => some { s with mode := .cls .first }
  | '(' => some { s with mode := .paren }
  | ')' => s.close
  | '{' => if s.repeatable then some { s with mode := .brace } else none
  | '?' =>
    -- behind a quantifier it makes that one lazy
    if s.mode = .quantified then some { s with mode := .atom }
    else if s.mode = .atom then some (s.quantify 2)
    else none
  | '*' | '+' => if s.repeatable then some (s.quantify 1) else none
  | _ => some s.atom

/-- The character behind a backslash. -/
def escaped (s : Scan) (c : Char) : Scan :=
  if c = 'b' ∨ c = 'B' then s.assertion
  else if c = 'x' then { s with mode := .hex 1 }
  else if c = 'u' then { s with mode := .hex 3 }
  else if c = 'c' then { s with mode := .control }
  else if c.isDigit ∧ c ≠ '0' then { s with mode := .decimal (c.toNat - 48) }
  else s.atom

/-- A back reference is complete. Its group is there and closed. -/
def refer (s : Scan) (value : Nat) : Option Scan :=
  if value ≤ s.captures ∧ .capture value ∉ s.groups.map Prod.fst then some s.atom else none

/-- A class that is read on, or complete. -/
def inClass (s : Scan) : Option ClassMode → Scan
  | none => s.atom
  | some mode => { s with mode := .cls mode }

def step (s : Scan) (c : Char) : Option Scan :=
  match s.mode with
  | .start | .atom | .quantified => s.term c
  | .escape => some (s.escaped c)
  | .hex left =>
    match hexDigit c, left with
    | none, _ => none
    | some _, 0 => some s.atom
    | some _, left + 1 => some { s with mode := .hex left }
  | .control => some s.atom
  | .decimal value =>
    if c.isDigit then some { s with mode := .decimal (10 * value + (c.toNat - 48)) }
    else (s.refer value).bind fun s => s.term c
  | .paren => if c = '?' then some { s with mode := .parenQuestion } else s.capture.term c
  | .parenQuestion =>
    if c = ':' then some (s.opened .plain 1)
    else if c = '=' ∨ c = '!' then some (s.opened .lookahead 0)
    else none
  | .brace => if c.isDigit then some { s with mode := .least (c.toNat - 48) } else none
  | .least low =>
    if c.isDigit then some { s with mode := .least (10 * low + (c.toNat - 48)) }
    else if c = ',' then some { s with mode := .comma low }
    else if c = '}' then s.range low low
    else none
  | .comma low =>
    if c.isDigit then some { s with mode := .most low (c.toNat - 48) }
    else if c = '}' then some (s.atLeast low)
    else none
  | .most low high =>
    if c.isDigit then some { s with mode := .most low (10 * high + (c.toNat - 48)) }
    else if c = '}' then s.range low high
    else none
  | .cls mode => (mode.step c).map s.inClass

/-- Nothing is left open, and there is room for the three states that end the automaton. -/
def closed (s : Scan) : Bool := s.groups.isEmpty && s.states + 3 ≤ stateLimit

/-- The pattern may end here. -/
def ends (s : Scan) : Bool :=
  match s.mode with
  | .start | .atom | .quantified => s.closed
  | .decimal value => (s.refer value).any closed
  | _ => false

end Scan

/-- The text is a pattern. -/
def valid (text : List Char) : Bool := (text.foldlM Scan.step {}).any Scan.ends

/-- Brackets and braces that close nothing are ordinary, and quantifiers may be repeated. -/
example : valid ['a', ']', '}', '+', '?', '+'] := by decide +kernel

/-- A reference to a group that is open, and too many copies. -/
example : valid ['(', '\\', '1', ')'] = false ∧
    valid ['a', '{', '9', '9', '9', '9', '9', '}'] = false := by decide +kernel

/-! ## Globs over patterns -/

/-- Some characters are added. -/
def Item.adds (item : Item) (members : List Int) : Option ClassMode :=
  (members.foldlM (fun (item : Item) member => item.put (.char member)) item).map .items

/-- A dot of a glob is itself; behind a backslash, that is a character too. -/
def ClassMode.dot : ClassMode → Option ClassMode
  | .first => Item.fresh.adds [46]
  | .items item => item.adds [46]
  | .escape item | .control item => item.adds [92, 46]
  | .bracket item => item.adds [91, 46]
  | .name item .symbol known => some (.nameEnd item .symbol (known ++ ['\\']))
  | .name item mark known => some (.name item mark (known ++ ['\\', '.']))
  | .hex _ _ _ | .nameEnd _ _ _ => none

/-- A star of a glob in a class is a dot and a star; behind a bracket it begins a name. -/
def ClassMode.star : ClassMode → Option ClassMode
  | .first => Item.fresh.adds [46, 42]
  | .items item | .escape item | .control item => item.adds [46, 42]
  | .bracket item => some (.name item .symbol ['*'])
  | .name _ .symbol _ => none
  | .name item mark known => some (.name item mark (known ++ ['.', '*']))
  | .hex _ _ _ | .nameEnd _ _ _ => none

namespace Scan

/-- A dot of a glob is a character; behind a backslash it is one more. -/
def dot (s : Scan) : Option Scan :=
  match s.mode with
  | .start | .atom | .quantified => some s.atom
  | .escape | .control => some s.atom.atom
  | .decimal value => (s.refer value).map atom
  | .paren => some s.capture.atom
  | .cls mode => mode.dot.map fun mode => { s with mode := .cls mode }
  | _ => none

/-- A star of a glob has its own atom. -/
def star (s : Scan) : Option Scan :=
  match s.mode with
  | .start | .atom | .quantified | .escape | .control => some (s.atom.quantify 1)
  | .decimal value => (s.refer value).map fun s => s.atom.quantify 1
  | .paren => some (s.capture.atom.quantify 1)
  | .cls mode => mode.star.map fun mode => { s with mode := .cls mode }
  | _ => none

/-- A character of a glob. -/
def globStep (s : Scan) (c : Char) : Option Scan :=
  if c = '.' then s.dot else if c = '*' then s.star else s.step c

/-- The glob may end here. A backslash at its end is a dollar. -/
def globEnds (s : Scan) : Bool :=
  match s.mode with
  | .start | .atom | .quantified | .escape | .control => s.atom.closed
  | .decimal value => (s.refer value).any fun s => s.atom.closed
  | _ => false

end Scan

/-- The glob is well formed. -/
def globValid (p : List Char) : Bool := (p.foldlM Scan.globStep {}).any Scan.globEnds

section Globs

variable {item : Item} {mode : ClassMode} {s : Scan} {p : List Char}

theorem Item.adds_cons (item : Item) (member : Int) (members : List Int) :
    item.adds (member :: members) =
      (item.put (.char member)).bind fun item => item.adds members := by
  unfold Item.adds
  rw [List.foldlM_cons]
  cases item.put (.char member) <;> rfl

theorem Item.adds_singleton (item : Item) (member : Int) :
    item.adds [member] = (item.put (.char member)).map .items := by
  rw [item.adds_cons]
  cases item.put (.char member) <;> rfl

theorem Item.add_char (item : Item) (member : Int) :
    item.add (.char member) = (item.adds [member]).map some := by
  rw [item.adds_singleton, Option.map_map]
  rfl

/-- A member is added, and the next character is one too. -/
theorem Item.adds_pair {next : Item → ClassMode} {c : Char} {second : Int} (item : Item)
    (first : Int)
    (read : ∀ item : Item, (next item).step c = (item.adds [second]).map some) :
    (((item.put (.char first)).map next).bind fun mode => mode.step c) =
      (item.adds [first, second]).map some := by
  rw [item.adds_cons]
  cases item.put (.char first) with
  | none => rfl
  | some item => exact read item

theorem ClassMode.items_dot (item : Item) :
    (ClassMode.items item).step '.' = (item.adds [46]).map some := item.add_char 46

theorem ClassMode.items_star (item : Item) :
    (ClassMode.items item).step '*' = (item.adds [42]).map some := item.add_char 42

theorem ClassMode.escape_dot (item : Item) :
    (ClassMode.escape item).step '.' = (item.adds [46]).map some := item.add_char 46

/-- A class does not end with a backslash, and what comes of the dot behind it. -/
theorem ClassMode.step_backslash_dot (mode : ClassMode) :
    ∃ next, mode.step '\\' = Option.map some next ∧
      (next.bind fun mode => mode.step '.') = mode.dot.map some := by
  cases mode with
  | first => exact ⟨some (.escape .fresh), rfl, ClassMode.escape_dot .fresh⟩
  | items item => exact ⟨some (.escape item), rfl, ClassMode.escape_dot item⟩
  | escape item =>
    refine ⟨(item.put (.char 92)).map .items, ?_, item.adds_pair 92 ClassMode.items_dot⟩
    rw [← item.adds_singleton, ← item.add_char]
    rfl
  | hex item left value => exact ⟨none, rfl, rfl⟩
  | control item =>
    refine ⟨(item.put (.char 92)).map .items, ?_, item.adds_pair 92 ClassMode.items_dot⟩
    rw [← item.adds_singleton, ← item.add_char]
    rfl
  | bracket item =>
    refine ⟨(item.put (.char 91)).map .escape, ?_, item.adds_pair 91 ClassMode.escape_dot⟩
    show ((item.put (.char 91)).bind fun item => item.read '\\') = _
    cases item.put (.char 91) <;> rfl
  | name item mark known =>
    refine ⟨some (.name item mark (known ++ ['\\'])), by cases mark <;> rfl, ?_⟩
    cases mark with
    | symbol => rfl
    | className =>
      show some (some (ClassMode.name item .className (known ++ ['\\'] ++ ['.']))) = _
      rw [List.append_assoc]
      rfl
    | equivalence =>
      show some (some (ClassMode.name item .equivalence (known ++ ['\\'] ++ ['.']))) = _
      rw [List.append_assoc]
      rfl
  | nameEnd item mark known => exact ⟨none, rfl, rfl⟩

/-- A class does not end with a dot, and what comes of the star behind it. -/
theorem ClassMode.step_dot_star (mode : ClassMode) :
    ∃ next, mode.step '.' = Option.map some next ∧
      (next.bind fun mode => mode.step '*') = mode.star.map some := by
  have member (item : Item) : item.add (.char 46) =
      ((item.put (.char 46)).map ClassMode.items).map some := by
    rw [← item.adds_singleton, ← item.add_char]
  cases mode with
  | first =>
    exact ⟨_, member .fresh, Item.fresh.adds_pair 46 ClassMode.items_star⟩
  | items item => exact ⟨_, member item, item.adds_pair 46 ClassMode.items_star⟩
  | escape item => exact ⟨_, member item, item.adds_pair 46 ClassMode.items_star⟩
  | hex item left value => exact ⟨none, rfl, rfl⟩
  | control item => exact ⟨_, member item, item.adds_pair 46 ClassMode.items_star⟩
  | bracket item => exact ⟨some (.name item .symbol []), rfl, rfl⟩
  | name item mark known =>
    cases mark with
    | symbol => exact ⟨some (.nameEnd item .symbol known), rfl, rfl⟩
    | className =>
      refine ⟨some (.name item .className (known ++ ['.'])), rfl, ?_⟩
      show some (some (ClassMode.name item .className (known ++ ['.'] ++ ['*']))) = _
      rw [List.append_assoc]
      rfl
    | equivalence =>
      refine ⟨some (.name item .equivalence (known ++ ['.'])), rfl, ?_⟩
      show some (some (ClassMode.name item .equivalence (known ++ ['.'] ++ ['*']))) = _
      rw [List.append_assoc]
      rfl
  | nameEnd item mark known => exact ⟨none, rfl, rfl⟩

/-- Two characters of a class that does not end between them or with them. -/
theorem Scan.inClass_pair {s : Scan} {first : Option (Option ClassMode)}
    {second : Option ClassMode} {c : Char}
    (read : ∃ next, first = Option.map some next ∧
      (next.bind fun mode => mode.step c) = second.map some) :
    (first.map s.inClass).bind (fun s => s.step c) =
      second.map fun mode => { s with mode := .cls mode } := by
  obtain ⟨next, rfl, read⟩ := read
  have steps : ((next.map some).map s.inClass).bind (fun s => s.step c) =
      (next.bind fun mode => mode.step c).map s.inClass := by
    cases next <;> rfl
  rw [steps, read]
  cases second <;> rfl

/-- A dot of a glob is written with a backslash. -/
theorem Scan.step_backslash_dot (s : Scan) :
    (s.step '\\').bind (fun s => s.step '.') = s.dot := by
  obtain ⟨mode, level, groups, captures, states⟩ := s
  cases mode with
  | decimal value =>
    show ((Scan.refer _ value).bind fun s => s.term '\\').bind _ = (Scan.refer _ value).map _
    generalize referred : Scan.refer _ value = reference
    cases reference <;> rfl
  | cls mode =>
    exact Scan.inClass_pair (s := ⟨.cls mode, level, groups, captures, states⟩)
      mode.step_backslash_dot
  | _ => rfl

/-- A star is written as a dot and a star. -/
theorem Scan.step_dot_star (s : Scan) : (s.step '.').bind (fun s => s.step '*') = s.star := by
  obtain ⟨mode, level, groups, captures, states⟩ := s
  cases mode with
  | decimal value =>
    show ((Scan.refer _ value).bind fun s => s.term '.').bind _ = (Scan.refer _ value).map _
    generalize referred : Scan.refer _ value = reference
    cases reference <;> rfl
  | cls mode =>
    exact Scan.inClass_pair (s := ⟨.cls mode, level, groups, captures, states⟩)
      mode.step_dot_star
  | _ => rfl

theorem Scan.foldlM_pair (s : Scan) (c d : Char) :
    [c, d].foldlM Scan.step s = (s.step c).bind (fun s => s.step d) := by
  simp only [List.foldlM_cons, List.foldlM_nil, Option.bind_eq_bind, Option.pure_def,
    Option.bind_fun_some]

theorem Scan.foldlM_escape (s : Scan) (c : Char) :
    (escape c).foldlM Scan.step s = s.globStep c := by
  unfold escape Scan.globStep
  by_cases dot : c = '.'
  · rw [if_pos dot, if_pos dot, Scan.foldlM_pair]
    exact s.step_backslash_dot
  · rw [if_neg dot, if_neg dot]
    by_cases star : c = '*'
    · rw [if_pos star, if_pos star, Scan.foldlM_pair]
      exact s.step_dot_star
    · rw [if_neg star, if_neg star, List.foldlM_cons]
      exact Option.bind_fun_some _

theorem Scan.foldlM_globText (s : Scan) (p : List Char) :
    (globText p).foldlM Scan.step s = p.foldlM Scan.globStep s := by
  induction p generalizing s with
  | nil => rfl
  | cons c p ih =>
    rw [globText, List.flatMap_cons, List.foldlM_append, s.foldlM_escape, List.foldlM_cons]
    apply congrArg (Option.bind _ ·)
    funext t
    exact ih t

/-- Nothing but a bracket ends a class. -/
theorem ClassMode.step_dollar (mode : ClassMode) :
    ∃ next, mode.step '$' = Option.map some next := by
  have member (item : Item) (value : Int) : ∃ next, item.add (.char value) = Option.map some next :=
    ⟨_, item.add_char value⟩
  cases mode with
  | first => exact member .fresh 36
  | items item => exact member item 36
  | escape item => exact member item 36
  | hex item left value => exact ⟨none, rfl⟩
  | control item => exact member item 36
  | bracket item =>
    show ∃ next, ((item.put (.char 91)).bind fun item => item.read '$') = Option.map some next
    cases item.put (.char 91) with
    | none => exact ⟨none, rfl⟩
    | some item => exact member item 36
  | name item mark known =>
    exact ⟨some (.name item mark (known ++ ['$'])), by cases mark <;> rfl⟩
  | nameEnd item mark known => exact ⟨none, rfl⟩

/-- The dollar at the end of a pattern. -/
theorem Scan.ends_dollar (s : Scan) : (s.step '$').any Scan.ends = s.globEnds := by
  obtain ⟨mode, level, groups, captures, states⟩ := s
  cases mode with
  | decimal value =>
    show ((Scan.refer _ value).bind fun s => s.term '$').any _ = (Scan.refer _ value).any _
    generalize referred : Scan.refer _ value = reference
    cases reference <;> rfl
  | cls mode =>
    obtain ⟨next, step⟩ := mode.step_dollar
    show ((mode.step '$').map _).any Scan.ends = false
    rw [step]
    cases next <;> rfl
  | _ => rfl

/-- **A glob written as a pattern**, with a dollar behind it, is one if and only if the glob
is well formed. -/
theorem valid_globText (p : List Char) : valid (globText p ++ ['$']) = globValid p := by
  unfold valid globValid
  rw [List.foldlM_append, Scan.foldlM_globText]
  cases p.foldlM Scan.globStep {} with
  | none => rfl
  | some s =>
    show ((s.step '$').bind some).any Scan.ends = s.globEnds
    rw [Option.bind_fun_some]
    exact s.ends_dollar

end Globs

/-! ## The fragment -/

section Fragment

variable {s : Scan} {m : Mode} {cs : List Char} {ts : List Token} {c : Char} {p : List Char}

/-- Between terms. -/
def Mode.Between (m : Mode) : Prop := m = .start ∨ m = .atom ∨ m = .quantified

/-- The tokens may follow, where a quantifier follows an atom. -/
def Mode.Awaits (m : Mode) (ts : List Token) : Prop :=
  (terms (if m = .atom then .atom .any :: ts else ts)).isSome

theorem Scan.step_between (between : s.mode.Between) (c : Char) : s.step c = s.term c := by
  unfold Scan.step
  rcases between with mode | mode | mode
  · rw [mode]
  · rw [mode]
  · rw [mode]

theorem Scan.term_ordinary (ordinary : syntaxChar c = false) : s.term c = some s.atom := by
  have other (d : Char) (special : syntaxChar d) : c ≠ d := by
    intro same
    rw [same, special] at ordinary
    cases ordinary
  unfold Scan.term
  split
  all_goals first | rfl | exact absurd rfl (other _ (by decide))

theorem Scan.escaped_syntaxChar (special : syntaxChar c) : s.escaped c = s.atom := by
  have cases := of_decide_eq_true special
  simp only [List.mem_cons, List.not_mem_nil, or_false] at cases
  rcases cases with rfl | rfl | rfl | rfl | rfl | rfl | rfl | rfl | rfl | rfl | rfl | rfl | rfl | rfl
  all_goals rfl

theorem terms_one (a : Atom) (once : ∀ rest, ts ≠ .star :: rest) :
    terms (.atom a :: ts) = (terms ts).map (.one a :: ·) := by
  rw [terms]
  exact once

/-- A quantifier is read with its atom, whichever that is. -/
theorem isSome_terms_atom (a : Atom) (ts : List Token) :
    (terms (.atom a :: ts)).isSome ↔
      (∃ rest, ts = .star :: rest ∧ (terms rest).isSome) ∨ (terms ts).isSome := by
  by_cases star : ∃ rest, ts = .star :: rest
  · obtain ⟨rest, rfl⟩ := star
    rw [terms, Option.isSome_map]
    constructor
    · intro some
      exact .inl ⟨rest, rfl, some⟩
    · rintro (⟨rest', same, some⟩ | some)
      · cases same
        exact some
      · cases some
  · have once : ∀ rest, ts ≠ .star :: rest := fun rest same => star ⟨rest, same⟩
    rw [terms_one a once, Option.isSome_map]
    constructor
    · exact .inr
    · rintro (⟨rest, same, _⟩ | some)
      · exact absurd same (once rest)
      · exact some

theorem Mode.awaits_atom :
    Mode.Awaits .atom ts ↔ (∃ rest, ts = .star :: rest ∧ (terms rest).isSome) ∨ (terms ts).isSome :=
  isSome_terms_atom .any ts

theorem Mode.awaits_other (other : m ≠ .atom) : m.Awaits ts ↔ (terms ts).isSome := by
  unfold Mode.Awaits
  rw [if_neg other]

/-- What is awaited behind the first token. -/
theorem Mode.Awaits.atom {a : Atom} (awaits : m.Awaits (.atom a :: ts)) :
    Mode.Awaits .atom ts := by
  rw [Mode.awaits_atom, ← isSome_terms_atom a]
  by_cases atom : m = .atom
  · subst atom
    rcases Mode.awaits_atom.mp awaits with ⟨rest, same, _⟩ | some
    · cases same
    · exact some
  · exact (Mode.awaits_other atom).mp awaits

theorem Mode.Awaits.star (awaits : m.Awaits (.star :: ts)) :
    m = .atom ∧ Mode.Awaits .quantified ts := by
  have notFirst : ¬ (terms (.star :: ts)).isSome := by
    rw [terms]
    intro some
    cases some
  rw [Mode.awaits_other (by decide : Mode.quantified ≠ .atom)]
  by_cases atom : m = .atom
  · subst atom
    rcases Mode.awaits_atom.mp awaits with ⟨rest, same, some⟩ | some
    · cases same
      exact ⟨rfl, some⟩
    · exact absurd some notFirst
  · exact absurd ((Mode.awaits_other atom).mp awaits) notFirst

theorem Mode.Awaits.dollar (awaits : m.Awaits (.dollar :: ts)) : Mode.Awaits .start ts := by
  rw [Mode.awaits_other (by decide : Mode.start ≠ .atom)]
  suffices some : (terms (.dollar :: ts)).isSome by
    rw [terms, Option.isSome_map] at some
    exact some
  by_cases atom : m = .atom
  · subst atom
    rcases Mode.awaits_atom.mp awaits with ⟨rest, same, _⟩ | some
    · cases same
    · exact some
  · exact (Mode.awaits_other atom).mp awaits

/-- Some states are added, and no group is open that was not. -/
structure Scan.Adds (s : Scan) (n : Nat) (t : Scan) : Prop where
  between : t.mode.Between
  groups : t.groups = s.groups
  states : t.states = s.states + n

theorem Scan.Adds.trans {t u : Scan} {m n : Nat} (first : s.Adds m t) (rest : t.Adds n u) :
    s.Adds (n + m) u where
  between := rest.between
  groups := rest.groups.trans first.groups
  states := by
    rw [rest.states, first.states]
    omega

theorem Scan.adds_atom (s : Scan) : s.Adds 1 s.atom := ⟨.inr (.inl rfl), rfl, rfl⟩

theorem Scan.adds_assertion (s : Scan) : s.Adds 1 s.assertion := ⟨.inl rfl, rfl, rfl⟩

theorem Scan.adds_quantify (s : Scan) (size : Nat) : s.Adds size (s.quantify size) :=
  ⟨.inr (.inr rfl), rfl, rfl⟩

/-- One step, and the steps behind it. -/
theorem Scan.Adds.read {t : Scan} {n : Nat} (step : s.step c = some t) (first : s.Adds 1 t)
    (rest : ∃ u, cs.foldlM Scan.step t = some u ∧ t.Adds n u) :
    ∃ u, (c :: cs).foldlM Scan.step s = some u ∧ s.Adds (n + 1) u := by
  obtain ⟨u, run, adds⟩ := rest
  refine ⟨u, ?_, first.trans adds⟩
  rw [List.foldlM_cons, step]
  exact run

/-- A text of the fragment is read to its end, with one state for each token. -/
theorem Scan.foldlM_tokens (read : tokens cs = some ts) (between : s.mode.Between)
    (awaits : s.mode.Awaits ts) :
    ∃ t, cs.foldlM Scan.step s = some t ∧ s.Adds ts.length t := by
  induction cs using tokens.induct generalizing s ts with
  | case1 =>
    cases read
    exact ⟨s, rfl, between, rfl, rfl⟩
  | case2 cs ih =>
    rw [tokens] at read
    obtain ⟨rest, readRest, rfl⟩ := Option.map_eq_some_iff.mp read
    exact s.adds_atom.read (s.step_between between '.')
      (ih readRest s.adds_atom.between awaits.atom)
  | case3 cs ih =>
    rw [tokens] at read
    obtain ⟨rest, readRest, rfl⟩ := Option.map_eq_some_iff.mp read
    obtain ⟨atom, awaits⟩ := awaits.star
    have quantified : s.step '*' = some (s.quantify 1) := by
      rw [Scan.step_between between]
      refine if_pos ?_
      rw [Scan.repeatable, atom]
      rfl
    exact (s.adds_quantify 1).read quantified
      (ih readRest (s.adds_quantify 1).between awaits)
  | case4 cs ih =>
    rw [tokens] at read
    obtain ⟨rest, readRest, rfl⟩ := Option.map_eq_some_iff.mp read
    exact s.adds_assertion.read (s.step_between between '$')
      (ih readRest s.adds_assertion.between awaits.dollar)
  | case5 c cs special ih =>
    rw [tokens, if_pos special] at read
    obtain ⟨rest, readRest, rfl⟩ := Option.map_eq_some_iff.mp read
    have escaped : Scan.step { s with mode := .escape } c = some s.atom :=
      congrArg some (Scan.escaped_syntaxChar special)
    -- the backslash has no state of its own
    obtain ⟨t, run, adds⟩ := Scan.Adds.read (s := { s with mode := .escape }) escaped
      ⟨s.adds_atom.between, rfl, rfl⟩ (ih readRest s.adds_atom.between awaits.atom)
    refine ⟨t, ?_, adds.between, adds.groups, adds.states⟩
    rw [List.foldlM_cons, Scan.step_between between]
    exact run
  | case6 c cs special =>
    rw [tokens, if_neg special] at read
    cases read
  | case7 c cs dot star dollar backslash special =>
    have stuck : tokens (c :: cs) = none := by
      rw [tokens, if_pos special]
      · exact dot
      · exact star
      · exact dollar
      · exact backslash
    rw [stuck] at read
    cases read
  | case8 c cs _ _ _ _ special ih =>
    have ordinary : syntaxChar c = false := eq_false_of_ne_true special
    rw [tokens_ordinary ordinary] at read
    obtain ⟨rest, readRest, rfl⟩ := Option.map_eq_some_iff.mp read
    have step : s.step c = some s.atom := by
      rw [Scan.step_between between, Scan.term_ordinary ordinary]
    exact s.adds_atom.read step (ih readRest s.adds_atom.between awaits.atom)

theorem Scan.ends_between (between : s.mode.Between) : s.ends = s.closed := by
  unfold Scan.ends
  rcases between with mode | mode | mode
  · rw [mode]
  · rw [mode]
  · rw [mode]

/-- A text of the fragment is a pattern if and only if it is not too long. -/
theorem valid_iff_of_tokens (read : tokens cs = some ts) (some : (terms ts).isSome) :
    valid cs ↔ ts.length + 4 ≤ stateLimit := by
  have awaits : Mode.Awaits .start ts :=
    (Mode.awaits_other (by decide : Mode.start ≠ .atom)).mpr some
  obtain ⟨t, run, adds⟩ := Scan.foldlM_tokens (s := {}) read (.inl rfl) awaits
  have closed : t.closed = decide (t.states + 3 ≤ stateLimit) := by
    rw [Scan.closed, adds.groups]
    rfl
  have states : t.states = 1 + ts.length := adds.states
  rw [valid, run, Option.any_some, Scan.ends_between adds.between, closed, decide_eq_true_iff]
  omega

theorem length_tokens_le (read : tokens cs = some ts) : ts.length ≤ cs.length := by
  induction cs using tokens.induct generalizing ts with
  | case1 =>
    cases read
    exact Nat.le_refl 0
  | case2 cs ih =>
    rw [tokens] at read
    obtain ⟨rest, readRest, rfl⟩ := Option.map_eq_some_iff.mp read
    exact Nat.succ_le_succ (ih readRest)
  | case3 cs ih =>
    rw [tokens] at read
    obtain ⟨rest, readRest, rfl⟩ := Option.map_eq_some_iff.mp read
    exact Nat.succ_le_succ (ih readRest)
  | case4 cs ih =>
    rw [tokens] at read
    obtain ⟨rest, readRest, rfl⟩ := Option.map_eq_some_iff.mp read
    exact Nat.succ_le_succ (ih readRest)
  | case5 c cs special ih =>
    rw [tokens, if_pos special] at read
    obtain ⟨rest, readRest, rfl⟩ := Option.map_eq_some_iff.mp read
    exact Nat.le_succ_of_le (Nat.succ_le_succ (ih readRest))
  | case6 c cs special =>
    rw [tokens, if_neg special] at read
    cases read
  | case7 c cs dot star dollar backslash special =>
    rw [tokens, if_pos special] at read
    · cases read
    · exact dot
    · exact star
    · exact dollar
    · exact backslash
  | case8 c cs _ _ _ _ special ih =>
    rw [tokens_ordinary (eq_false_of_ne_true special)] at read
    obtain ⟨rest, readRest, rfl⟩ := Option.map_eq_some_iff.mp read
    exact Nat.succ_le_succ (ih readRest)

/-- What `compile` reads is a pattern, as long as it is short. -/
theorem valid_of_compile (compiled : (compile cs).isSome) (short : cs.length + 4 ≤ stateLimit) :
    valid cs := by
  obtain ⟨entry, compiled⟩ := Option.isSome_iff_exists.mp compiled
  obtain ⟨ts, tokensRead, termsRead⟩ := Option.bind_eq_some_iff.mp compiled
  refine (valid_iff_of_tokens tokensRead (by rw [termsRead]; rfl)).mpr ?_
  have fewer := length_tokens_le tokensRead
  omega

theorem length_globTokens (p : List Char) :
    (p.flatMap globTokens).length = p.length + p.count '*' := by
  induction p with
  | nil => rfl
  | cons c p ih =>
    rw [List.flatMap_cons, List.length_append, ih, List.length_cons]
    by_cases star : c = '*'
    · subst star
      rw [List.count_cons_self]
      show 2 + _ = _
      omega
    · rw [globTokens_of_ne star, List.count_cons_of_ne star]
      show 1 + _ = _
      omega

/-- A glob without special characters is well formed if and only if it is not too long. -/
theorem globValid_iff_of_globChar (plain : ∀ c ∈ p, globChar c) :
    globValid p ↔ p.length + p.count '*' + 5 ≤ stateLimit := by
  have some : (terms (p.flatMap globTokens ++ [.dollar])).isSome := by
    rw [terms_globTokens]
    rfl
  rw [← valid_globText, valid_iff_of_tokens (tokens_globText plain) some, List.length_append,
    length_globTokens]
  rfl

end Fragment

end SslSocks.Lib.Regex
