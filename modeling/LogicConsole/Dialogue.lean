import LogicConsole.History
import LogicConsole.Interrupt
import LogicConsole.Journal
import LogicConsole.Output
/-!
The dialogue with the operator: a console to read from, an output to write to, the interrupt flag,
the history of queries, and the journal of all that happened. An `Operation` changes such a state
and may stop early, by a fault or because the steps it was allowed ran out.
-/
namespace LogicConsole

inductive Stop
  | fault (error : SessionError)
  /-- The allowed number of steps was used up; nothing has ended. -/
  | unfinished
  deriving DecidableEq, Repr

abbrev Operation (σ α : Type) := ExceptT Stop (StateM σ) α

namespace Operation

variable {σ ρ α : Type}

def ofCall (call : Call σ α) : Operation σ α := ExceptT.mk fun s =>
  let (result, s) := call s
  (result.mapError Stop.fault, s)

def unfinished : Operation σ α := throw .unfinished

/-- Run an operation on a part of the state. -/
def focus (get : σ → ρ) (put : ρ → σ → σ) (op : Operation ρ α) : Operation σ α :=
  ExceptT.mk fun s =>
    let (result, part) := op.run.run (get s)
    (result, put part s)

@[simp] theorem run_pure (a : α) (s : σ) :
    StateT.run (ExceptT.run (pure a : Operation σ α)) s = (.ok a, s) := rfl

theorem run_bind {β : Type} (op : Operation σ α) (next : α → Operation σ β) (s : σ) :
    StateT.run (ExceptT.run (op >>= next)) s =
      match StateT.run (ExceptT.run op) s with
      | (.ok a, s) => StateT.run (ExceptT.run (next a)) s
      | (.error stop, s) => (.error stop, s) := by
  simp only [ExceptT.run, StateT.run, bind, ExceptT.bind, ExceptT.mk, StateT.bind]
  cases op s with
  | mk result s => cases result <;> rfl

@[simp] theorem run_ofCall (call : Call σ α) (s : σ) :
    StateT.run (ExceptT.run (ofCall call)) s = ((call s).1.mapError Stop.fault, (call s).2) := rfl

end Operation

structure Dialogue (κ ο : Type) where
  console : κ
  output : ο
  interrupt : InterruptFlag := {}
  /-- The flag the console raises, if it is not the dialogue's own. -/
  otherFlag : Option InterruptFlag := none
  /-- Does a signal from outside raise the flag when this much has happened? -/
  signals : Journal → Bool := fun _ => false
  history : History := {}
  journal : Journal := []

namespace Dialogue

variable {κ ο : Type}

def raise (d : Dialogue κ ο) : Dialogue κ ο :=
  { d with interrupt := d.interrupt.raise, journal := .raised :: d.journal }

/-- An interrupt typed at the console raises the flag the console knows. -/
def hear (interrupted : Bool) (d : Dialogue κ ο) : Dialogue κ ο :=
  if interrupted then
    match d.otherFlag with
    | none => d.raise
    | some flag => { d with otherFlag := some flag.raise }
  else d

def note (event : Event) (d : Dialogue κ ο) : Dialogue κ ο :=
  let d := { d with journal := event :: d.journal }
  if d.signals d.journal then d.raise else d

def mark (event : Event) : Operation (Dialogue κ ο) Unit := modify (note event)

/-- Is an interrupt pending? The flag stays as it is. -/
def pending : Operation (Dialogue κ ο) Bool := return (← get).interrupt.isRaised

/-- Take a pending interrupt off the flag. -/
def takeInterrupt : Operation (Dialogue κ ο) Bool := do
  let (raised, interrupt) := (← get).interrupt.take
  if raised then modify fun d => { d with interrupt }.note .taken
  return raised

section Collaborators

variable [Console κ] [Output ο]

def say (text : String) : Operation (Dialogue κ ο) Unit := .ofCall fun d =>
  let (result, output) := Output.write text d.output
  (result, { d with output }.note (.wrote text result.isOk))

def flush : Operation (Dialogue κ ο) Unit := .ofCall fun d =>
  let (result, output) := Output.flush d.output
  (result, { d with output }.note .flushed)

def readLine (marker : String) : Operation (Dialogue κ ο) LineInput := .ofCall fun d =>
  let (reading, console) := Console.readLine marker d.console
  let d := { d with console }.note (.readLine marker reading.result)
  (reading.result, d.hear reading.raised)

def readKey : Operation (Dialogue κ ο) (Option Char) := .ofCall fun d =>
  let (reading, console) := Console.readKey d.console
  let d := { d with console }.note (.readKey reading.result)
  (reading.result, d.hear reading.raised)

/-- Enter a query into the history and offer the entry for recall. -/
def record (query : String) : Operation (Dialogue κ ο) Unit :=
  match History.entryOf query with
  | none => pure ()
  | some entry => .ofCall fun d =>
    let (result, console) := Console.remember entry d.console
    (result, { d with console, history := d.history.add entry }.note (.remembered entry))

end Collaborators

end Dialogue

end LogicConsole
