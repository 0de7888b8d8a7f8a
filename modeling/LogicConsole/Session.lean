import LogicConsole.Dialogue.Pager
import LogicConsole.Dialogue.Query
import LogicConsole.Engine
import LogicConsole.MetaCommand
import LogicConsole.Theme
/-!
A session: after a start-up, queries are read and run until the engine halts or the input ends. A
query is a console command, or goes to the engine and its solutions are shown. Whatever way a run
ends, by a fault too, the history is handed over for persistence once, and the theme is reset.
-/
namespace LogicConsole

inductive SessionEnd
  | halted
  | endOfInput
  deriving DecidableEq, Repr

inductive Outcome
  | ended (how : SessionEnd)
  | faulted (error : SessionError)
  /-- The run was cut short before its end. -/
  | unfinished
  deriving DecidableEq, Repr

/-- Whether a session installs an interrupt handler, which a process can do once. -/
inductive HandlerUse
  | unused
  | free
  | taken
  deriving DecidableEq, Repr

structure Session (ε κ ο : Type) where
  engine : ε
  dialogue : Dialogue κ ο
  theme : Theme := .default
  handler : HandlerUse := .unused
  state : SessionState := {}
  phase : Phase := .starting

namespace Session

variable {ε τ κ ο α : Type} [Engine ε τ] [Console κ] [Output ο]

def onDialogue (op : Operation (Dialogue κ ο) α) : Operation (Session ε κ ο) α :=
  op.focus Session.dialogue fun dialogue s => { s with dialogue }

def say (text : String) : Operation (Session ε κ ο) Unit := onDialogue (Dialogue.say text)

def history : Operation (Session ε κ ο) History := return (← get).dialogue.history

def isHalted : Operation (Session ε κ ο) Bool := return (← get).state.halted

def enter (phase : Phase) : Operation (Session ε κ ο) Unit :=
  modify fun s => { s with phase, dialogue := s.dialogue.note (.entered phase) }

/-- A call of the engine alone. -/
def ask (call : Call ε α) (event : Event) : Operation (Session ε κ ο) α := .ofCall fun s =>
  let (result, engine) := call s.engine
  (result, { s with engine, dialogue := s.dialogue.note event })

/-- A call of the engine that may change the session state. -/
def drive (call : Call (ε × SessionState) α) (event : Except SessionError Unit → Bool → Event) :
    Operation (Session ε κ ο) α := .ofCall fun s =>
  let (result, engine, state) := call (s.engine, s.state)
  let dialogue := s.dialogue.note (event (result.map fun _ => ()) state.halted)
  (result, { s with engine, state, dialogue })

/-- Install the interrupt handler, if the session uses one. -/
def installHandler : Operation (Session ε κ ο) Unit := do
  match (← get).handler with
  | .unused => return
  | .taken => throw (.fault .handlerTaken)
  | .free =>
    modify fun s =>
      { s with handler := .taken, dialogue := s.dialogue.note .handlerInstalled }

def hint : String := "\n--- Enter !! for command history, !help for console commands\n\n"

def start : Operation (Session ε κ ο) Unit := do
  let theme := (← get).theme
  if theme.colors.isSome then
    say theme.apply
    onDialogue Dialogue.flush
  let intro ← ask Engine.intro .introduced
  say (intro ++ "\n")
  say hint
  installHandler

/-- Hand a pending interrupt to the engine. -/
def serviceInterrupts : Operation (Session ε κ ο) Unit := do
  if ← onDialogue Dialogue.takeInterrupt then drive Engine.interrupt .interrupted

/-- Show the solutions of a query. -/
def page (solutions : τ) (fuel : Nat) : Operation (Session ε κ ο) PageSummary :=
  ExceptT.mk fun s =>
    let (result, p) := (Paging.page fuel).run.run (⟨(s.engine, solutions), s.dialogue⟩ :
      Paging (ε × τ) κ ο)
    (result, { s with engine := p.solutions.1, dialogue := p.dialogue })

/-- Send a query to the engine and show its solutions. -/
def dispatch (query : String) (fuel : Nat) : Operation (Session ε κ ο) Unit := do
  modify fun s => { s with state := { s.state with query } }
  let solutions ← drive Engine.solve (.solved query)
  let summary ← page solutions fuel
  if summary.ending = .interrupted then serviceInterrupts

/-- Run an entry of the history again, unless there is none or it is a command itself. -/
def rerun (n : Nat) (fuel : Nat) : Operation (Session ε κ ο) Unit := do
  match (← history).get? n with
  | none => say ("No history entry " ++ toString n ++ ".\n\n")
  | some entry =>
    if (MetaCommand.parse entry).isSome then
      say ("History entry " ++ toString n ++ " is itself a command.\n\n")
    else
      say (entry ++ "\n")
      onDialogue (Dialogue.record entry)
      dispatch (entry ++ "\n") fuel

/-- Carry out a console command. -/
def obey (command : MetaCommand) (fuel : Nat) : Operation (Session ε κ ο) Unit := do
  modify fun s => { s with dialogue := s.dialogue.note (.commanded command) }
  match command with
  | .history => say ((← history).listing ++ "\n\n")
  | .help => say (MetaCommand.helpText ++ "\n\n")
  | .rerun n => rerun n fuel

def execute (query : String) (fuel : Nat) : Operation (Session ε κ ο) Unit :=
  match MetaCommand.parse query with
  | none => dispatch query fuel
  | some command => obey command fuel

/-- Read and run queries until the session ends. -/
def serve : Nat → Operation (Session ε κ ο) SessionEnd
  | 0 => .unfinished
  | fuel + 1 => do
    enter .awaitingQuery
    serviceInterrupts
    if ← isHalted then
      enter .halted
      return .halted
    let prompt ← ask Engine.prompt .prompted
    onDialogue Dialogue.flush
    match ← onDialogue (Dialogue.readQuery prompt (fuel + 1)) with
    | .endOfInput =>
      say "\n"
      enter .halted
      return .endOfInput
    | .query query =>
      serviceInterrupts
      if ← isHalted then
        enter .halted
        return .halted
      enter .executing
      execute query (fuel + 1)
      serve fuel

def phases (fuel : Nat) : Operation (Session ε κ ο) SessionEnd := do
  enter .starting
  start
  enter .ready
  serve fuel

/-- Hand the history over for persistence, the first time this is asked for. -/
def flushHistory (s : Session ε κ ο) : Session ε κ ο :=
  if s.dialogue.history.flushed then s
  else
    let entries := s.dialogue.history.entries
    let (result, engine) := Engine.persist entries s.engine
    let dialogue := { s.dialogue with history := { s.dialogue.history with flushed := true } }
    { s with engine, dialogue := dialogue.note (.persisted entries result) }

/-- Restore the terminal's colours as far as the output permits. -/
def resetTheme (s : Session ε κ ο) : Session ε κ ο :=
  if s.theme.colors.isSome then
    let op : Operation (Session ε κ ο) Unit := do
      say s.theme.reset
      onDialogue Dialogue.flush
    (op.run.run s).2
  else s

def close (s : Session ε κ ο) : Session ε κ ο := s.flushHistory.resetTheme

/-- A run of at most `fuel` queries, `fuel` reads for each and `fuel` solutions for each. -/
def runFor (fuel : Nat) (s : Session ε κ ο) : Outcome × Session ε κ ο :=
  match (phases fuel).run.run s with
  | (.ok how, s) => (.ended how, s.close)
  | (.error (.fault error), s) => (.faulted error, s.close)
  | (.error .unfinished, s) => (.unfinished, s)

end Session

/-- Run a session whose console gives a limited number of lines and keys to its end. -/
def Session.run {ε τ κ ο : Type} [Engine ε τ] [FiniteConsole κ] [Output ο]
    (s : Session ε κ ο) : Outcome × Session ε κ ο :=
  s.runFor (FiniteConsole.supply s.dialogue.console + 2)

end LogicConsole
