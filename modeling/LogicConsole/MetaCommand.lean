import LogicConsole.History
import LogicConsole.Text.Lines
import LogicConsole.Text.Numeral
/-!
Queries the console answers itself: the listing of the history, an entry of the history to be run
again, and help. Every other query is the engine's.
-/
namespace LogicConsole

inductive MetaCommand
  | history
  | help
  /-- Run an entry of the history again. -/
  | rerun (n : Nat)
  deriving DecidableEq, Repr

namespace MetaCommand

open Text

def ofChars (query : List Char) : Option MetaCommand :=
  match trim query with
  | ['!', '!'] => some .history
  | ['!', 'h', 'e', 'l', 'p'] => some .help
  | '!' :: number => (readWord64 number).map .rerun
  | _ => none

def parse (query : String) : Option MetaCommand := ofChars query.toList

def helpText : String :=
  "Console commands:\n" ++
  "  !!        - List the queries entered so far\n" ++
  "  !N        - Run query number N again\n" ++
  "  !help     - Show this help message\n" ++
  "\n" ++
  "Queries end with '.' or '/'; a line starting with '!' is a command.\n" ++
  "Answer 'y' or ';' at \"more?\" to see the next solution."

end MetaCommand

namespace History

open Text

def digits (n : Nat) : List Char := Nat.toDigits 10 n

/-- A line of the listing: the label flush right in the number column, then the text. -/
def listingLine (width : Nat) (label : List Char) (line : List Char) : List Char :=
  List.replicate (width - label.length) ' ' ++ label ++ ' ' :: ' ' :: line

/-- The number stands before an entry's first line, and its other lines are indented. -/
def listingEntry (width n : Nat) (entry : String) : List (List Char) :=
  match lines entry.toList with
  | [] => []
  | first :: rest => listingLine width (digits n) first :: rest.map (listingLine width [])

def listingLines (entries : List String) : List (List Char) :=
  (entries.mapIdx fun i entry =>
    listingEntry (digits entries.length).length (i + 1) entry).flatten

/-- The numbered listing of the entries. -/
def listing (h : History) : String :=
  if h.entries.isEmpty then "No queries yet."
  else String.ofList (['\n'].intercalate (listingLines h.entries))

end History

end LogicConsole
