import LogicConsole.Engine
import LogicConsole.Stream.Ready
/-!
An engine that answers from a list of replies, one for each query, and with a single `yes` once the
list is used up. It keeps count of what is asked of it and of its solutions.
-/
namespace LogicConsole

inductive Reply
  | answers (answers : List String)
  /-- The query itself fails. -/
  | fault (message : String)
  /-- Answers of which none is marked last, and then a failure. -/
  | failAfter (answers : List String) (message : String)
  | panic (message : String)
  | halt
  deriving DecidableEq, Repr

/-- Solutions, and what happens when they have run out; an ended sequence yields nothing more. -/
structure ScriptedStream where
  pending : List Solution
  failure : Option String := none
  ended : Bool := false
  deriving DecidableEq, Repr

structure ScriptedEngine where
  prompt : String := defaultPrompt
  replies : List Reply := []
  haltOnInterrupt : Bool := false
  queries : List String := []
  interrupts : Nat := 0
  /-- The entries of every request to persist. -/
  persisted : List (List String) := []
  /-- Solutions handed out. -/
  pulled : Nat := 0
  /-- Sequences abandoned before they ran dry. -/
  abandoned : Nat := 0
  deriving DecidableEq, Repr

namespace ScriptedEngine

def intro : String := "Scripted engine for console tests"

def defaultReply : Reply := .answers ["yes"]

def solve (e : ScriptedEngine) (s : SessionState) :
    Except SessionError ScriptedStream × ScriptedEngine × SessionState :=
  let next := { e with queries := e.queries ++ [s.query], replies := e.replies.tail }
  match e.replies.head?.getD defaultReply with
  | .answers answers => (.ok { pending := Queue.mark answers }, next, s)
  | .fault message => (.error (.engine (.fault message)), next, s)
  | .failAfter answers message =>
    (.ok { pending := answers.map (⟨·, false⟩), failure := some message }, next, s)
  | .panic message => (.error (.panic message), next, s)
  | .halt => (.ok { pending := [], ended := true }, next, { s with halted := true })

def next (e : ScriptedEngine) (s : ScriptedStream) :
    Except SessionError (Option Solution) × ScriptedEngine × ScriptedStream :=
  if s.ended then (.ok none, e, s)
  else
    match s.pending with
    | solution :: pending =>
      (.ok (some solution), { e with pulled := e.pulled + 1 }, { s with pending })
    | [] =>
      let result := match s.failure with
        | some message => .error (.engine (.fault message))
        | none => .ok none
      (result, e, { s with failure := none, ended := true })

def abandon (e : ScriptedEngine) (s : ScriptedStream) : ScriptedEngine × ScriptedStream :=
  if s.ended then (e, s)
  else ({ e with abandoned := e.abandoned + 1 }, { s with pending := [], ended := true })

instance : Engine ScriptedEngine ScriptedStream where
  intro e := (.ok intro, e)
  prompt e := (.ok e.prompt, e)
  solve es := es.1.solve es.2
  next es := es.1.next es.2
  abandon es := (.ok (), es.1.abandon es.2)
  interrupt es :=
    let (e, s) := es
    (.ok (), { e with interrupts := e.interrupts + 1 },
      { s with halted := s.halted || e.haltOnInterrupt })
  persist entries e := (.ok (), { e with persisted := e.persisted ++ [entries] })

end ScriptedEngine

end LogicConsole
