import LogicConsole.Term.Parser
/-!
What a query asks of the fact engine. The terminator and a leading `?-` are dropped, and the rest is
a command word, a call of `assert` or `retract`, or a goal.
-/
namespace LogicConsole

inductive Directive
  | halt
  | listing
  | help
  | assert (fact : Term)
  | retract (pattern : Term)
  | goal (goal : Term)
  deriving DecidableEq, Repr

namespace Directive

open Text

/-- Drop one final period, or else one final slash. -/
def dropTerminator (s : List Char) : List Char :=
  let s := trim s
  trimEnd (if s.getLast? == some '.' || s.getLast? == some '/' then s.dropLast else s)

/-- A query without its terminator and its `?-`. -/
def normalise (query : List Char) : List Char :=
  let body := dropTerminator query
  trim (("?-".toList.isPrefixOf? body).getD body)

/-- What stands between the parentheses of a call of `name`. -/
def argumentOf (name : String) (s : List Char) : Option (List Char) := do
  let rest ← name.toList.isPrefixOf? s
  match trimStart rest with
  | '(' :: inner => if inner.getLast? == some ')' then some inner.dropLast else none
  | _ => none

def ofChars (query : List Char) : Except SyntaxError Directive :=
  let body := normalise query
  if body = "halt".toList then .ok .halt
  else if body = "listing".toList then .ok .listing
  else if body = "help".toList then .ok .help
  else
    match argumentOf "assert" body with
    | some inner => do
      let fact ← Term.parseChars inner
      if fact.isGround then return .assert fact else throw (.expected .groundFact)
    | none =>
      match argumentOf "retract" body with
      | some inner => return .retract (← Term.parseChars inner)
      | none => return .goal (← Term.parseChars body)

def parse (query : String) : Except SyntaxError Directive := ofChars query.toList

end Directive

end LogicConsole
