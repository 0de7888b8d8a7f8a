import LogicConsole.Engine
import LogicConsole.Engine.Directive
import LogicConsole.History.File
import LogicConsole.Stream.Channel
import LogicConsole.Stream.Ready
import LogicConsole.Term.Matching
import LogicConsole.Term.Printer
/-!
The built-in engine: a store of facts, goals answered by matching against it in order, and a few
directives. A goal is answered from the store as it was when the query was dispatched.
-/
namespace LogicConsole

inductive FactStream
  | ready (solutions : Queue)
  | search (channel : Channel)

namespace FactStream

def next : Call FactStream (Option Solution)
  | .ready q => let (result, q) := SolutionStream.next q; (result, .ready q)
  | .search c => let (result, c) := SolutionStream.next c; (result, .search c)

def abandon : FactStream → FactStream
  | .ready q => .ready q.abandon
  | .search c => .search c.abandon

instance : SolutionStream FactStream where
  next := next
  abandon s := (.ok (), s.abandon)

end FactStream

structure FactEngine where
  facts : List Term := []
  prompt : String := defaultPrompt
  /-- Where the queries of a session are kept. -/
  historyFile : Option HistoryFile := none
  interrupts : Nat := 0
  files : FileSystem := {}

namespace FactEngine

def intro : String :=
  "plconsole v0.3.0 - interactive logic console\n" ++
  "Add facts with assert(parent(tom, bob)). and ask parent(tom, X).\n" ++
  "Type help. for engine directives, halt. to leave."

def helpText : String :=
  "Directives:\n" ++
  "  assert(f(a, b)).   add a fact\n" ++
  "  retract(f(a, _)).  remove the first matching fact\n" ++
  "  f(X, b).           ask a question; variables start with A-Z or _\n" ++
  "  listing.           show all facts\n" ++
  "  halt.              end the session"

def listing (facts : List Term) : String :=
  if facts.isEmpty then "% no facts"
  else "\n".intercalate (facts.map fun fact => fact.render ++ ".")

/-- The text of one answer. -/
def renderBindings (bindings : Bindings) : String :=
  if bindings.isEmpty then "yes"
  else ", ".intercalate (bindings.map fun (name, value) => name ++ " = " ++ value)

/-- The answers to a goal, one for each matching fact. -/
def answers (goal : Term) (facts : List Term) : List String :=
  facts.filterMap fun fact => (goal.matchFact fact).map renderBindings

/-- Remove the first fact that matches, if one does. -/
def retract (pattern : Term) (facts : List Term) : List Term :=
  facts.eraseP fun fact => (pattern.matchFact fact).isSome

def reply (answer : String) : FactStream := .ready (.single answer)

def execute (e : FactEngine) (s : SessionState) :
    Directive → FactStream × FactEngine × SessionState
  | .halt => (.ready .empty, e, { s with halted := true })
  | .listing => (reply (listing e.facts), e, s)
  | .help => (reply helpText, e, s)
  | .assert fact => (reply "yes", { e with facts := e.facts ++ [fact] }, s)
  | .retract pattern =>
    let found := e.facts.any fun fact => (pattern.matchFact fact).isSome
    (reply (if found then "yes" else "no"), { e with facts := retract pattern e.facts }, s)
  | .goal goal =>
    (.search (.spawn (.ofList (answers goal e.facts)) (some "no")), e, s)

def solve (e : FactEngine) (s : SessionState) : FactStream × FactEngine × SessionState :=
  match Directive.parse s.query with
  | .ok directive => e.execute s directive
  | .error error => (reply ("syntax error: " ++ error.message), e, s)

/-- Append a session's queries to the history file, if there is one. -/
def persist (entries : List String) (e : FactEngine) : Except EngineError Unit × FactEngine :=
  match e.historyFile with
  | none => (.ok (), e)
  | some file =>
    let (result, files) := (file.append entries).run.run e.files
    (result.mapError EngineError.history, { e with files })

instance : Engine FactEngine FactStream where
  intro e := (.ok intro, e)
  prompt e := (.ok e.prompt, e)
  solve es :=
    let (stream, es) := es.1.solve es.2
    (.ok stream, es)
  next es :=
    let (result, stream) := SolutionStream.next es.2
    (result, es.1, stream)
  abandon es := (.ok (), es.1, es.2.abandon)
  interrupt es := (.ok (), { es.1 with interrupts := es.1.interrupts + 1 }, es.2)
  persist := persist

end FactEngine

end LogicConsole
