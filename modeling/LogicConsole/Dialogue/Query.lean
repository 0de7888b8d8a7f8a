import LogicConsole.Dialogue
/-!
Reading one query. Lines are collected until one of them ends the query: a line that ends in a
period or a slash, or starts with an exclamation mark. An interrupt while a line is read keeps what
has been typed; the end of input discards it.
-/
namespace LogicConsole

/-- Shown before every line of a query but the first. -/
def continuationMarker : String := "|  "

inductive QueryInput
  /-- A complete query, every line ended by a line feed. -/
  | query (text : String)
  | endOfInput
  deriving DecidableEq, Repr

/-- Does a line end the query it belongs to? Trailing carriage returns do not count. -/
def completesQuery (line : String) : Bool :=
  let text := Text.dropEnd (· == '\r') line.toList
  text.getLast? == some '/' || text.head? == some '!' || text.getLast? == some '.'

namespace Dialogue

variable {κ ο : Type} [Console κ] [Output ο]

/-- Collect lines behind `typed`, which holds the lines so far. -/
def collectLines (prompt : String) : Nat → String → Operation (Dialogue κ ο) QueryInput
  | 0, _ => .unfinished
  | fuel + 1, typed => do
    match ← readLine (if typed.isEmpty then prompt else continuationMarker) with
    | .interrupted => collectLines prompt fuel typed
    | .endOfInput => return .endOfInput
    | .line line =>
      let typed := typed ++ line ++ "\n"
      if completesQuery line then return .query typed else collectLines prompt fuel typed

/-- Read one query and enter it into the history. -/
def readQuery (prompt : String) (fuel : Nat) : Operation (Dialogue κ ο) QueryInput := do
  let input ← collectLines prompt fuel ""
  if let .query text := input then
    mark (.completed text)
    record text
  return input

end Dialogue

end LogicConsole
