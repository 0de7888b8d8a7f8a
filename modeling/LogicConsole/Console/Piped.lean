import LogicConsole.Console
import LogicConsole.Text.Cluster
/-!
A console fed from a byte stream, for a session whose input is no terminal. Query lines and answers
to questions come from the same stream, a line each; of an answer only the first character counts.
-/
namespace LogicConsole

structure PipedConsole where
  input : List UInt8
  deriving DecidableEq, Repr

namespace PipedConsole

def newline : UInt8 := 10

/-- The bytes up to the first line feed, with it. -/
def firstLine (input : List UInt8) : List UInt8 :=
  input.takeWhile (· ≠ newline) ++ (input.dropWhile (· ≠ newline)).take 1

def restLines (input : List UInt8) : List UInt8 := (input.dropWhile (· ≠ newline)).drop 1

/-- The next line with its terminator, unless the input has ended. -/
def takeLine (c : PipedConsole) : Option (Except IoError (List Char)) × PipedConsole :=
  if c.input.isEmpty then (none, c)
  else
    let line := match String.fromUTF8? ⟨(firstLine c.input).toArray⟩ with
      | some text => .ok text.toList
      | none => .error .invalidText
    (some line, ⟨restLines c.input⟩)

/-- A line without its line feed and a carriage return directly before it. -/
def dropTerminator (line : List Char) : List Char :=
  if line.getLast? = some '\n' then
    if line.dropLast.getLast? = some '\r' then line.dropLast.dropLast else line.dropLast
  else line

/-- What the line editor gives up with when a backspace would cut a character. -/
def cutCharacter : SessionError :=
  .panic "assertion failed: self.is_char_boundary(new_len)"

/-- The text of a line, with its backspaces applied. -/
def lineOf (line : List Char) : Except SessionError LineInput :=
  match Text.applyBackspaces? (dropTerminator line) with
  | some text => .ok (.line (String.ofList text))
  | none => .error cutCharacter

def readLine (c : PipedConsole) : Except SessionError LineInput × PipedConsole :=
  match c.takeLine with
  | (none, c) => (.ok .endOfInput, c)
  | (some (.ok line), c) => (lineOf line, c)
  | (some (.error e), c) => (.error (.lineEditor (.io e)), c)

def readKey (c : PipedConsole) : Except SessionError (Option Char) × PipedConsole :=
  match c.takeLine with
  | (none, c) => (.ok none, c)
  | (some (.ok line), c) => (.ok line.head?, c)
  | (some (.error e), c) => (.error (.io e), c)

instance : FiniteConsole PipedConsole where
  readLine _ c := (⟨c.readLine.1, false⟩, c.readLine.2)
  readKey c := (⟨c.readKey.1, false⟩, c.readKey.2)
  remember _ c := (.ok (), c)
  supply c := c.input.length

end PipedConsole

end LogicConsole
