import LogicConsole.Console
import LogicConsole.MetaCommand
/-!
What happened in a session, event by event: the phases it went through and every call of a
collaborator with what came of it. The last event comes first.
-/
namespace LogicConsole

inductive Phase
  | starting
  | ready
  | awaitingQuery
  | executing
  | halted
  deriving DecidableEq, Repr

/-- Why the display of solutions ended. -/
inductive PageEnd
  | exhausted
  | declined
  | interrupted
  deriving DecidableEq, Repr

structure PageSummary where
  /-- Solutions shown. -/
  shown : Nat
  /-- Questions asked. -/
  prompts : Nat
  ending : PageEnd
  deriving DecidableEq, Repr

inductive Event
  | entered (phase : Phase)
  | introduced
  | handlerInstalled
  | prompted
  | wrote (text : String) (accepted : Bool)
  | flushed
  | readLine (marker : String) (input : Except SessionError LineInput)
  | readKey (key : Except SessionError (Option Char))
  | completed (query : String)
  | remembered (entry : String)
  /-- The interrupt flag was raised. -/
  | raised
  /-- A pending interrupt was taken off the flag. -/
  | taken
  /-- A query is a console command and is carried out. -/
  | commanded (command : MetaCommand)
  /-- A query went to the engine, which left its halt flag at `halted`. -/
  | solved (query : String) (result : Except SessionError Unit) (halted : Bool)
  | pulled (solution : Except SessionError (Option Solution))
  | abandoned
  | paged (summary : PageSummary)
  /-- A pending interrupt went to the engine, which left its halt flag at `halted`. -/
  | interrupted (result : Except SessionError Unit) (halted : Bool)
  | persisted (entries : List String) (result : Except EngineError Unit)

abbrev Journal := List Event

end LogicConsole
