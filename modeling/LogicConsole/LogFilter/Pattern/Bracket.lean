import LogicConsole.LogFilter.Pattern.Escape
/-!
Sets of characters in brackets. A set is made of characters, ranges, named sets and other sets, and
of what the operators for intersection and the two differences make of these.
-/
namespace LogicConsole.LogFilter.Pattern

open Text

def setNames : List String :=
  ["alnum", "alpha", "ascii", "blank", "cntrl", "digit", "graph", "lower", "print", "punct",
    "space", "upper", "word", "xdigit"]

/-- A named set, of which the opening bracket is read already. What is no byte of ASCII is in the
complement of every set, and no set of bytes. -/
def readNamedSet? (m : Mode) : List Char → Option (Option (List Char))
  | ':' :: s =>
    let name := if s.head? = some '^' then s.drop 1 else s
    match name.dropWhile (· ≠ ':') with
    | ':' :: ']' :: rest =>
      if String.ofList (name.takeWhile (· ≠ ':')) ∈ setNames then
        some (if m.unicode || s.head? ≠ some '^' then some rest else none)
      else none
    | _ => none
  | _ => none

/-- The part of an open set that has been read. -/
structure OpenSet where
  /-- How deep everything before the last operator nests. -/
  left : Option Nat := none
  items : Sequence := {}
  deriving DecidableEq, Repr

namespace OpenSet

def depth (s : OpenSet) : Nat :=
  match s.left with
  | none => s.items.depth
  | some left => max left s.items.depth + 1

def add (depth : Nat) (s : OpenSet) : OpenSet := { s with items := s.items.add depth }

def operator (s : OpenSet) : OpenSet := { left := some s.depth }

/-- Add characters that the pattern names. If case means nothing, those that differ from them in
case alone have to be known too. A set that names none holds everything or nothing. -/
def addCharacters? (m : Mode) (s : OpenSet) : Option OpenSet :=
  if m.knowsCase then some (s.add 0) else none

/-- Hyphens that open a set mean themselves. -/
def addHyphens? (m : Mode) : Nat → List Char → OpenSet → Option (OpenSet × List Char)
  | fuel + 1, '-' :: rest, set => (set.addCharacters? m).bind (addHyphens? m fuel (m.skip rest))
  | _, s, set => some (set, s)

/-- What follows an opening bracket: a caret, and then hyphens or a closing bracket, which mean
themselves here. A complement among bytes would hold halves of characters. -/
def read? (m : Mode) (fuel : Nat) (s : List Char) : Option (OpenSet × List Char) :=
  match m.skip s with
  | '^' :: rest => if m.unicode then firstItems? (m.skip rest) else none
  | s => firstItems? s
where
  firstItems? : List Char → Option (OpenSet × List Char)
    | ']' :: rest => (addCharacters? m {}).map (·, rest)
    | s => addHyphens? m fuel s {}

end OpenSet

/-- One item of a set: a character, or no single one. -/
def readItem? (m : Mode) : List Char → Option (Option Char × List Char)
  | [] => none
  | '\\' :: s =>
    match readEscape? m s with
    | some (.character c, rest) => single c rest
    | some (.category, rest) => some (none, rest)
    | _ => none
  | c :: rest => single c rest
where
  single (c : Char) (rest : List Char) : Option (Option Char × List Char) :=
    if m.unicode || c.toNat < 0x80 then some (some c, rest) else none

/-- The character behind a hyphen, blanks left out, that tells whether the hyphen makes a range. The
sign that opens a comment is left out like a blank, the words of the comment are not. -/
def Mode.behindHyphen? (m : Mode) (s : List Char) : Option Char :=
  if m.spaced then
    match s.dropWhile isBlank with
    | '#' :: comment => (comment.dropWhile isBlank).head?
    | s => s.head?
  else s.head?

/-- An item or a range, whose ends are characters in order. A hyphen before the closing bracket or
another hyphen makes no range. -/
def readRange? (m : Mode) (s : List Char) : Option (List Char) := do
  let (low, rest) ← readItem? m s
  match m.skip rest with
  | '-' :: behind =>
    if (m.behindHyphen? behind).any (· ∈ [']', '-']) then return '-' :: behind
    else
      let (high, rest) ← readItem? m (m.skip behind)
      if (← low) ≤ (← high) then return rest else none
  | rest => return rest

/-- The rest of a set that is open within others, and how deep it nests. There has to be more fuel
than characters. -/
def readSet? (m : Mode) : (fuel : Nat) → (around : List OpenSet) → OpenSet → List Char →
    Option (Nat × List Char)
  | 0, _, _, _ => none
  | fuel + 1, around, set, s =>
    match m.skip s with
    | [] => none
    | ']' :: rest =>
      match around with
      | [] => some (set.depth + 1, rest)
      | outer :: around => readSet? m fuel around (outer.add (set.depth + 1)) rest
    | '[' :: rest =>
      match readNamedSet? m rest with
      | some rest => do readSet? m fuel around (← set.addCharacters? m) (← rest)
      | none =>
        (OpenSet.read? m fuel rest).bind fun (inner, rest) =>
          readSet? m fuel (set :: around) inner rest
    | '&' :: '&' :: rest | '-' :: '-' :: rest | '~' :: '~' :: rest =>
      readSet? m fuel around set.operator rest
    | s => do readSet? m fuel around (← set.addCharacters? m) (← readRange? m s)

end LogicConsole.LogFilter.Pattern
