import LogicConsole.Stream.Channel
/-!
Producer and consumer in turns. The consumer works through a list of requests, each of which takes
it several steps, and the producer may run between any two of them. A schedule says whose turn it
is; whoever has to wait for the other uses its turn for nothing.
-/
namespace LogicConsole

/-- What the consumer does at its next turn. -/
inductive Consumer
  /-- Turn to the next request. -/
  | idle
  /-- Wait for a solution, or else for the producer's end. -/
  | receiving
  /-- Take no more solutions; the request is answered by `solution`. -/
  | closing (solution : Option Solution)
  /-- Wait for the producer's end. -/
  | joining (solution : Option Solution)
  /-- Tell the producer to stop. -/
  | cancelling
  /-- Take no more solutions of a producer that was told to stop. -/
  | leaving
  /-- Wait for the end of a producer that was told to stop. -/
  | parting
  deriving DecidableEq, Repr

inductive Turn
  | producer
  | consumer
  deriving DecidableEq, Repr

structure Exchange where
  channel : Channel
  consumer : Consumer := .idle
  /-- The requests that are not answered yet, the one in hand included. -/
  requests : List Request
  /-- The answers, the oldest first. -/
  answers : List (Answer EngineError) := []

namespace Exchange

def reply (answer : Answer EngineError) (x : Exchange) : Exchange :=
  { x with consumer := .idle, requests := x.requests.tail, answers := x.answers ++ [answer] }

/-- Turn to a request. -/
def begin (x : Exchange) : Exchange :=
  match x.requests with
  | [] => x
  | .next :: _ =>
    if x.channel.finished then x.reply (.ok none)
    else { x with consumer := if x.channel.connected then .receiving else .closing none }
  | .abandon :: _ =>
    if x.channel.joined && !x.channel.connected then x.reply (.ok none)
    else { x with consumer := .cancelling }

def receive (x : Exchange) : Exchange :=
  match x.channel.producer with
  | .offering solution found =>
    let x := { x with channel := { x.channel with producer := .holding found } }
    if solution.isLast then { x with consumer := .closing (some solution) }
    else x.reply (.ok (some solution))
  | .exited | .panicked => { x with consumer := .closing none }
  | .opening | .checking _ | .searching _ => x

def consume (x : Exchange) : Exchange :=
  match x.consumer with
  | .idle => x.begin
  | .receiving => x.receive
  | .closing solution =>
    { x with channel := x.channel.disconnect, consumer := .joining solution }
  | .joining solution =>
    if x.channel.hasEnded then
      let (ended, channel) := x.channel.join
      { x with channel }.reply (ended.map fun _ => solution)
    else x
  | .cancelling =>
    { x with channel := { x.channel with cancelled := true }, consumer := .leaving }
  | .leaving => { x with channel := x.channel.disconnect, consumer := .parting }
  | .parting =>
    if x.channel.hasEnded then { x with channel := x.channel.join.2 }.reply (.ok none) else x

def take (x : Exchange) : Turn → Exchange
  | .producer => { x with channel := x.channel.advance }
  | .consumer => x.consume

/-- The exchange after the turns of a schedule. -/
def run (schedule : List Turn) (x : Exchange) : Exchange := schedule.foldl take x

@[simp] theorem run_nil (x : Exchange) : x.run [] = x := rfl

@[simp] theorem run_cons (turn : Turn) (schedule : List Turn) (x : Exchange) :
    x.run (turn :: schedule) = (x.take turn).run schedule := rfl

/-- Every request has been answered. -/
def IsDone (x : Exchange) : Prop := x.requests = []

/-- Nothing changes at anybody's turn. -/
def IsStuck (x : Exchange) : Prop := ∀ turn, x.take turn = x

end Exchange

end LogicConsole
