import LogicConsole.Fault
import LogicConsole.Text.Blank
/-!
The queries of a session, oldest first. An entry is a query without its trailing line ends, so no
entry is empty or ends in a line end. Entries are numbered from one.
-/
namespace LogicConsole

structure History where
  entries : List String := []
  /-- The entries have been handed over for persistence; this happens once. -/
  flushed : Bool := false
  deriving DecidableEq, Repr

namespace History

open Text

def isLineEnd (c : Char) : Bool := c == '\r' || c == '\n'

/-- A query as an entry, or `none` when nothing but line ends was typed. -/
def entryOf (query : String) : Option String :=
  match dropEnd isLineEnd query.toList with
  | [] => none
  | entry => some (String.ofList entry)

def add (entry : String) (h : History) : History := { h with entries := h.entries ++ [entry] }

def record (query : String) (h : History) : History :=
  match entryOf query with
  | some entry => h.add entry
  | none => h

/-- The entry numbered `n`; numbers start at one. -/
def get? (h : History) : Nat → Option String
  | 0 => none
  | n + 1 => h.entries[n]?

@[simp] theorem get?_zero (h : History) : h.get? 0 = none := rfl

@[simp] theorem entries_add (entry : String) (h : History) :
    (h.add entry).entries = h.entries ++ [entry] := rfl

end History

end LogicConsole
