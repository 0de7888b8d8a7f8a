import LogicConsole.Fault
/-!
Solutions and the sequences that deliver them. A sequence is pulled one solution at a time and may
be abandoned; either call may fault, and changes the sequence in any case.
-/
namespace LogicConsole

structure Solution where
  text : String
  isLast : Bool
  deriving DecidableEq, Repr

def Solution.last (text : String) : Solution := ⟨text, true⟩

/-- A call of a collaborator in state `σ`: what came of it, and the state afterwards. -/
abbrev Call (σ α : Type) := σ → Except SessionError α × σ

class SolutionStream (τ : Type) where
  /-- The next solution, or `none` once the sequence has run dry. -/
  next : Call τ (Option Solution)
  abandon : Call τ Unit

/-- What a consumer asks of a sequence. -/
inductive Request
  | next
  | abandon
  deriving DecidableEq, Repr

/-- What came of a request; nothing but a fault comes of abandoning. -/
abbrev Answer (ε : Type) := Except ε (Option Solution)

namespace SolutionStream

variable {τ : Type} [SolutionStream τ]

def serve : Request → Call τ (Option Solution)
  | .next, s => next s
  | .abandon, s => ((abandon s).1.map fun _ => none, (abandon s).2)

/-- Make requests one after the other. -/
def serveAll : List Request → τ → List (Answer SessionError) × τ
  | [], s => ([], s)
  | request :: rest, s =>
    let (answer, s) := serve request s
    let (answers, s) := serveAll rest s
    (answer :: answers, s)

end SolutionStream

end LogicConsole
