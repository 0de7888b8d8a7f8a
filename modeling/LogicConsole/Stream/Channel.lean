import LogicConsole.Solution
/-!
Solutions searched for by a producer that runs beside the consumer. The producer looks one answer
ahead, so that it knows whether the answer in hand is the last one, and then waits until the
consumer takes it; nothing is searched for that nobody asked for. `advance` is one step of the
producer, `next` and `abandon` are what the consumer does: it lets the producer come to rest and
then takes what is on offer, or dismisses the producer and waits for its end.
-/
namespace LogicConsole

/-- What one call of an answer iterator comes to. -/
inductive SearchStep
  | answer (text : String)
  | exhausted
  | panics
  deriving DecidableEq, Repr

/-- An answer iterator: what its call number `n` comes to. -/
abbrev Search := Nat → SearchStep

/-- The search that finds the listed answers. -/
def Search.ofList (answers : List String) : Search := fun n =>
  match answers[n]? with
  | some text => .answer text
  | none => .exhausted

inductive Producer
  /-- About to make the first call of the search. -/
  | opening
  /-- Holds an answer, and is about to see whether it has been dismissed. -/
  | checking (pending : String)
  /-- Holds an answer, and is about to search for the one after it. -/
  | searching (pending : String)
  /-- Waits for the consumer to take a solution; `found` is the answer after it. -/
  | offering (solution : Solution) (found : Option String)
  | exited
  | panicked
  deriving DecidableEq, Repr

/-- A producer that holds an answer goes on; one that holds none has done its work. -/
def Producer.holding : Option String → Producer
  | some text => .checking text
  | none => .exited

structure Channel where
  search : Search
  /-- The one solution of a search that finds no answer. -/
  fallback : Option String := none
  /-- Calls of the search made so far. -/
  calls : Nat := 0
  producer : Producer := .opening
  /-- The consumer has told the producer to stop. -/
  cancelled : Bool := false
  /-- The consumer may still take a solution. -/
  connected : Bool := true
  /-- The consumer has seen the producer's end. -/
  joined : Bool := false
  finished : Bool := false

namespace Channel

def spawn (search : Search) (fallback : Option String) : Channel := { search, fallback }

/-- One step of the producer. It does not move while it offers a solution to a consumer that may
still take it, nor after its end. -/
def advance (c : Channel) : Channel :=
  match c.producer with
  | .opening =>
    match c.search c.calls with
    | .answer text => { c with calls := c.calls + 1, producer := .checking text }
    | .exhausted =>
      let producer := match c.fallback with
        | some text => .offering (.last text) none
        | none => .exited
      { c with calls := c.calls + 1, producer }
    | .panics => { c with calls := c.calls + 1, producer := .panicked }
  | .checking pending =>
    { c with producer := if c.cancelled then .exited else .searching pending }
  | .searching pending =>
    let producer := match c.search c.calls with
      | .answer text => .offering ⟨pending, false⟩ (some text)
      | .exhausted => .offering (.last pending) none
      | .panics => .panicked
    { c with calls := c.calls + 1, producer }
  | .offering _ _ => if c.connected then c else { c with producer := .exited }
  | .exited | .panicked => c

/-- Let the producer run until it rests; four steps suffice from anywhere. -/
def settle (c : Channel) : Channel := c.advance.advance.advance.advance

/-- The producer rests: it offers a solution that can be taken, or has come to its end. -/
def AtRest (c : Channel) : Prop := c.advance = c

theorem settle_atRest (c : Channel) : c.settle.AtRest := by
  obtain ⟨search, fallback, calls, producer, cancelled, connected, joined, finished⟩ := c
  cases connected <;> cases cancelled <;> cases producer <;> cases fallback <;>
    cases h : search calls <;> cases h2 : search (calls + 1) <;>
    simp [AtRest, settle, advance, h, h2]

def hasEnded (c : Channel) : Bool := c.producer == .exited || c.producer == .panicked

/-- Wait for the producer's end; that it panicked is reported once. -/
def join (c : Channel) : Except EngineError Unit × Channel :=
  let lost := !c.joined && c.producer == .panicked
  (if lost then .error .producerLost else .ok (), { c with joined := true })

/-- Take no more solutions from the producer. -/
def disconnect (c : Channel) : Channel := { c with finished := true, connected := false }

def next (c : Channel) : Except EngineError (Option Solution) × Channel :=
  if c.finished then (.ok none, c)
  else
    let c := if c.connected then c.settle else c
    match c.producer, c.connected with
    | .offering solution found, true =>
      let c := { c with producer := .holding found }
      if solution.isLast then
        let (ended, c) := c.disconnect.settle.join
        (ended.map fun _ => some solution, c)
      else (.ok (some solution), c)
    | _, _ =>
      let (ended, c) := c.disconnect.settle.join
      (ended.map fun _ => none, c)

/-- Dismiss the producer; a panic of a dismissed producer concerns nobody. -/
def abandon (c : Channel) : Channel :=
  if c.joined && !c.connected then c
  else { c.disconnect with cancelled := true }.settle.join.2

instance : SolutionStream Channel where
  next c := (c.next.1.mapError SessionError.engine, c.next.2)
  abandon c := (.ok (), c.abandon)

end Channel

end LogicConsole
