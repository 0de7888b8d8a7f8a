import LogicConsole.Text.Alphanumeric
import LogicConsole.Text.Blank
/-!
The smallest parts of a pattern: what stands behind a backslash, and the blanks and comments that a
pattern may be spaced with. Classes of characters are known of ASCII alone, so a pattern that asks
for them among all characters cannot be read.
-/
namespace LogicConsole.LogFilter.Pattern

open Text

/-- What the flags in a pattern say. -/
structure Mode where
  ignoreCase : Bool := false
  /-- The pattern speaks of characters, not of bytes. -/
  unicode : Bool := true
  /-- Blanks and comments mean nothing. -/
  spaced : Bool := false
  deriving DecidableEq, Repr

/-- The letters that differ in case alone are known among bytes only. -/
def Mode.knowsCase (m : Mode) : Bool := !(m.ignoreCase && m.unicode)

/-- The rest behind blanks and comments; a comment goes to the end of its line. -/
def skipSpace : (inComment : Bool) → List Char → List Char
  | _, [] => []
  | true, c :: rest => skipSpace (c != '\n') rest
  | false, c :: rest =>
    if isBlank c then skipSpace false rest
    else if c = '#' then skipSpace true rest
    else c :: rest

def Mode.skip (m : Mode) (s : List Char) : List Char := if m.spaced then skipSpace false s else s

inductive Atom
  | character (c : Char)
  | category
  | position
  deriving DecidableEq, Repr

def hexValue? (c : Char) : Option Nat :=
  if isAsciiDigit c then some (c.toNat - '0'.toNat)
  else if 'a' ≤ c && c ≤ 'f' then some (c.toNat - 'a'.toNat + 10)
  else if 'A' ≤ c && c ≤ 'F' then some (c.toNat - 'A'.toNat + 10)
  else none

/-- Exactly so many hexadecimal digits. -/
def readHex? (m : Mode) : (digits value : Nat) → List Char → Option (Nat × List Char)
  | 0, n, s => some (n, s)
  | digits + 1, n, s =>
    match m.skip s with
    | [] => none
    | c :: rest => (hexValue? c).bind fun d => readHex? m digits (16 * n + d) rest

/-- The character with the number that so many hexadecimal digits give. -/
def readNumbered? (m : Mode) (digits : Nat) (s : List Char) : Option (Char × List Char) :=
  (readHex? m digits 0 s).bind fun (n, rest) =>
    if n.isValidChar then some (Char.ofNat n, rest) else none

/-- ASCII characters other than letters and digits stand for themselves behind a backslash. -/
def isPlainEscape (c : Char) : Bool :=
  c.toNat < 0x80 && !isAlphanumeric c && c != '<' && c != '>'

/-- What stands behind a backslash. The bytes beyond ASCII are no characters. -/
def readEscape? (m : Mode) : List Char → Option (Atom × List Char)
  | [] => none
  | c :: rest =>
    let character : Char × List Char → Atom × List Char := fun (c, rest) => (.character c, rest)
    match c with
    | 'x' =>
      ((readNumbered? m 2 rest).filter fun (c, _) => m.unicode || c.toNat < 0x80).map character
    | 'u' => (readNumbered? m 4 rest).map character
    | 'U' => (readNumbered? m 8 rest).map character
    | 'd' | 's' | 'w' => if m.unicode then none else some (.category, rest)
    | 'b' | 'B' | '<' | '>' => if m.unicode then none else some (.position, rest)
    | 'A' | 'z' => some (.position, rest)
    | 'a' => some (.character '\x07', rest)
    | 'f' => some (.character '\x0c', rest)
    | 't' => some (.character '\t', rest)
    | 'n' => some (.character '\n', rest)
    | 'r' => some (.character '\r', rest)
    | 'v' => some (.character '\x0b', rest)
    | c => if isPlainEscape c then some (.character c, rest) else none

/-- How many items a part of a pattern has, and how deep they nest. Two or more of them are one
level above each of them. -/
structure Sequence where
  items : Nat := 0
  deepest : Nat := 0
  deriving DecidableEq, Repr

namespace Sequence

def add (depth : Nat) (s : Sequence) : Sequence := ⟨s.items + 1, max s.deepest depth⟩

def depth (s : Sequence) : Nat := if s.items ≤ 1 then s.deepest else s.deepest + 1

end Sequence

end LogicConsole.LogFilter.Pattern
