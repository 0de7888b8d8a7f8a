import LogicConsole.LogFilter.Pattern.Bracket
/-!
Patterns that a filter asks of a field's value: regular expressions. Only whether one can be read
matters here, because no record is ever held against one. A comma and a closing brace never reach a
pattern, which leaves no use for an opening brace.
-/
namespace LogicConsole.LogFilter.Pattern

open Text

/-! Groups -/

inductive Opening
  /-- A group, with its name. -/
  | group (mode : Mode) (name : Option (List Char))
  /-- Flags for the rest of the group around them. -/
  | flags (mode : Mode)
  deriving DecidableEq, Repr

def isNameStart (c : Char) : Bool := c == '_' || isAlphabetic c

def isNameChar (c : Char) : Bool := isWordChar c || c == '.' || c == '[' || c == ']'

def isGroupName (s : List Char) : Bool :=
  s.head?.any isNameStart && (s.drop 1).all isNameChar

/-- Flags in any order, each once; those behind a hyphen are taken back. -/
def areFlags (s : List Char) : Bool :=
  s.all (· ∈ ['i', 'm', 's', 'U', 'u', 'R', 'x', '-']) && s.getLast? != some '-' &&
    s.all fun c => s.count c = 1

def Mode.set (m : Mode) (s : List Char) : Mode :=
  let on := s.takeWhile (· ≠ '-')
  { ignoreCase := 'i' ∈ on || (m.ignoreCase && 'i' ∉ s)
    unicode := 'u' ∈ on || (m.unicode && 'u' ∉ s)
    spaced := 'x' ∈ on || (m.spaced && 'x' ∉ s) }

/-- What follows an opening parenthesis. There are no groups that look ahead or behind. -/
def readOpening? (m : Mode) : List Char → Option (Opening × List Char)
  | '?' :: '<' :: '!' :: _ | '?' :: '<' :: '=' :: _ => none
  | '?' :: 'P' :: '<' :: s | '?' :: '<' :: s =>
    let name := s.takeWhile (· ≠ '>')
    match s.dropWhile (· ≠ '>') with
    | _ :: rest => if isGroupName name then some (.group m (some name), rest) else none
    | [] => none
  | '?' :: s =>
    let flags := s.takeWhile fun c => c ≠ ':' && c ≠ ')'
    if !areFlags flags then none
    else
      match s.drop flags.length with
      | ':' :: rest => some (.group (m.set flags) none, rest)
      | ')' :: rest => if flags.isEmpty then none else some (.flags (m.set flags), rest)
      | _ => none
  | s => some (.group m none, s)

/-- The part of an open group that has been read. -/
structure OpenGroup where
  mode : Mode := {}
  /-- How deep the alternatives before the last bar nest. -/
  before : Option Nat := none
  items : Sequence := {}
  /-- How deep the last item nests, if it can be repeated. -/
  last : Option Nat := none
  deriving DecidableEq, Repr

namespace OpenGroup

def depth (g : OpenGroup) : Nat :=
  match g.before with
  | none => g.items.depth
  | some before => max before g.items.depth + 1

def add (depth : Nat) (g : OpenGroup) : OpenGroup :=
  { g with items := g.items.add depth, last := some depth }

def setMode (mode : Mode) (g : OpenGroup) : OpenGroup :=
  { g with mode, items := g.items.add 0, last := none }

def bar (g : OpenGroup) : OpenGroup :=
  { mode := g.mode, before := some (max (g.before.getD 0) g.items.depth) }

/-- Repeat the last item. -/
def repeat? (g : OpenGroup) : Option OpenGroup :=
  g.last.map fun depth =>
    { g with
      items := { g.items with deepest := max g.items.deepest (depth + 1) }
      last := some (depth + 1) }

end OpenGroup

/-! Whole patterns -/

/-- The greatest depth to which the parts of a pattern may nest. -/
def nestLimit : Nat := 250

/-- Can the rest of a pattern be read, within the open groups and after the named ones? There has to
be more fuel than characters. -/
def scan : Nat → (names : List (List Char)) → (around : List OpenGroup) → OpenGroup → List Char →
    Bool
  | 0, _, _, _, _ => false
  | fuel + 1, names, around, g, text =>
    let m := g.mode
    let item (depth : Nat) (rest : List Char) : Bool := scan fuel names around (g.add depth) rest
    match m.skip text with
    | [] => around.isEmpty && g.depth ≤ nestLimit
    | '(' :: rest =>
      match readOpening? m (m.skip rest) with
      | none => false
      | some (.flags mode, rest) => scan fuel names around (g.setMode mode) rest
      | some (.group mode name, rest) =>
        name.all (· ∉ names) && scan fuel (name.toList ++ names) (g :: around) { mode } rest
    | ')' :: rest =>
      match around with
      | [] => false
      | outer :: around => scan fuel names around (outer.add (g.depth + 1)) rest
    | '|' :: rest => scan fuel names around g.bar rest
    | '[' :: rest =>
      ((OpenSet.read? m fuel rest).bind fun (set, rest) => readSet? m fuel [] set rest).any
        fun (depth, rest) => item depth rest
    | '?' :: rest | '*' :: rest | '+' :: rest =>
      g.repeat?.any fun g =>
        scan fuel names around g (if rest.head? = some '?' then rest.drop 1 else rest)
    | '{' :: _ => false
    | '\\' :: rest =>
      match readEscape? m rest with
      | none => false
      | some (.character _, rest) => m.knowsCase && item 0 rest
      | some (_, rest) => item 0 rest
    | '.' :: rest => m.unicode && item 0 rest
    | '^' :: rest | '$' :: rest => item 0 rest
    | _ :: rest => m.knowsCase && item 0 rest

def isReadable (s : List Char) : Bool := scan (s.length + 1) [] [] {} s

end LogicConsole.LogFilter.Pattern
