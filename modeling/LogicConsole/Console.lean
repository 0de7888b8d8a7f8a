import LogicConsole.Solution
/-!
The operator's keyboard. A console reads whole lines at a prompt and single keys at a question, and
keeps entries for recall. A read that was interrupted raises a flag besides its result.
-/
namespace LogicConsole

inductive LineInput
  /-- A line without its terminator. -/
  | line (text : String)
  | interrupted
  | endOfInput
  deriving DecidableEq, Repr

/-- The result of a read, and whether the operator interrupted meanwhile. -/
structure Reading (α : Type) where
  result : Except SessionError α
  raised : Bool := false

class Console (κ : Type) where
  /-- Show `marker` and read one line. -/
  readLine (marker : String) : κ → Reading LineInput × κ
  /-- Read one key; `none` when there is none left or the operator interrupted. -/
  readKey : κ → Reading (Option Char) × κ
  /-- Offer an entry for recall. -/
  remember (entry : String) : Call κ Unit

/-- A console that gives at most `supply` more lines and keys. -/
class FiniteConsole (κ : Type) extends Console κ where
  supply : κ → Nat

end LogicConsole
