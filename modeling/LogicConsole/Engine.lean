import LogicConsole.Solution
/-!
The engine behind the console. It starts the search for a query's solutions, is told of interrupts,
and keeps the queries of a session. The session state it is given holds the query in hand and the
flag by which the engine ends the session. The solutions of a query are pulled from the engine
together with the sequence it returned, for the two may share their resources.
-/
namespace LogicConsole

/-- Shown before a query, unless configured otherwise. -/
def defaultPrompt : String := "?- "

structure SessionState where
  /-- The query dispatched last, line ends included. -/
  query : String := ""
  /-- No further query is to be dispatched. -/
  halted : Bool := false
  deriving DecidableEq, Repr

class Engine (ε : Type) (τ : outParam Type) where
  /-- The text shown once when a session starts. -/
  intro : Call ε String
  prompt : Call ε String
  /-- Begin the search for the solutions of the state's query. -/
  solve : Call (ε × SessionState) τ
  next : Call (ε × τ) (Option Solution)
  abandon : Call (ε × τ) Unit
  interrupt : Call (ε × SessionState) Unit
  persist (entries : List String) : ε → Except EngineError Unit × ε

instance {ε τ : Type} [Engine ε τ] : SolutionStream (ε × τ) where
  next := Engine.next
  abandon := Engine.abandon

end LogicConsole
