import LogicConsole.Proofs.Facts.Store
import LogicConsole.Proofs.Stream.Refinement
/-!
The fact engine with any number of goals open at a time. Queries come in, and every stream of
solutions is asked for more or left, in any order, while producers and consumers take turns. A
stream goes on as if it were alone: its answers are those of the facts that were stored when it was
opened.
-/
namespace LogicConsole

namespace Exchange

/-- What happens to one stream: its consumer is asked for something, or somebody takes a turn. To
drop a stream is to abandon it. -/
inductive Act
  | request (request : Request)
  | turn (turn : Turn)
  deriving DecidableEq, Repr

/-- The exchange with more to be asked. -/
def queue (more : List Request) (x : Exchange) : Exchange :=
  { x with requests := x.requests ++ more }

def make (x : Exchange) : Act → Exchange
  | .request request => x.queue [request]
  | .turn turn => x.take turn

def makeAll (acts : List Act) (x : Exchange) : Exchange := acts.foldl make x

/-- What a stream was asked for. -/
def asked (acts : List Act) : List Request :=
  acts.filterMap fun
    | .request request => some request
    | .turn _ => none

/-- A stream of answers to a goal, before anything has happened to it. -/
def opened (goal : Term) (facts : List Term) : Exchange :=
  start (.ofList (FactEngine.answers goal facts)) (some "no") []

def answered : Answer EngineError → Option Solution
  | .ok solution => solution
  | .error _ => none

/-- The solutions that have been handed out. -/
def yielded (x : Exchange) : List Solution := x.answers.filterMap answered

end Exchange

/-- The answers to a goal as the solutions of a sequence, the final one marked as last. -/
def FactEngine.solutions (goal : Term) (facts : List Term) : Queue :=
  .ofSearch (answers goal facts) (some "no")

structure Desk where
  engine : FactEngine
  state : SessionState := {}
  /-- The streams of all goals so far, the oldest first. -/
  streams : List Exchange := []

namespace Desk

inductive Move
  | call (act : FactEngine.Act)
  | act (stream : Nat) (act : Exchange.Act)
  deriving DecidableEq, Repr

/-- The stream that a call of the engine opens. -/
def opens (d : Desk) : FactEngine.Act → List Exchange
  | .solve query =>
    match (Engine.solve (d.engine, { d.state with query })).1 with
    | .ok (.search channel) => [{ channel, requests := [] }]
    | _ => []
  | _ => []

def make (d : Desk) : Move → Desk
  | .call act =>
    let es := FactEngine.perform (d.engine, d.state) act
    { engine := es.1, state := es.2, streams := d.streams ++ d.opens act }
  | .act k act => { d with streams := d.streams.modify k (·.make act) }

def run (moves : List Move) (d : Desk) : Desk := moves.foldl make d

/-- What happens to one of the streams. -/
def actsOn (k : Nat) (moves : List Move) : List Exchange.Act :=
  moves.filterMap fun
    | .act i act => if i = k then some act else none
    | .call _ => none

def calls (moves : List Move) : List FactEngine.Act :=
  moves.filterMap fun
    | .call act => some act
    | .act _ _ => none

end Desk

namespace Plan

theorem yields_nothing (requests : List Request) :
    (respond requests nothing).filterMap Exchange.answered = [] := by
  induction requests with
  | nil => rfl
  | cons request requests ih => cases request <;> exact ih

/-- However a sequence is asked, it yields its solutions from the first on. -/
theorem yields_ofList (requests : List Request) (solutions : List Solution) :
    (respond requests (ofList solutions)).filterMap Exchange.answered <+: solutions := by
  induction requests generalizing solutions with
  | nil => exact List.nil_prefix
  | cons request requests ih =>
    cases request with
    | abandon =>
      have hnone : (respond (.abandon :: requests) (ofList solutions)).filterMap
          Exchange.answered = [] := yields_nothing requests
      rw [hnone]
      exact List.nil_prefix
    | next =>
      cases solutions with
      | nil =>
        have hnone : (respond (.next :: requests) (ofList [])).filterMap
            Exchange.answered = [] := yields_nothing (.next :: requests)
        simp only [hnone, List.nil_prefix]
      | cons solution rest =>
        rw [ofList_cons]
        exact (List.prefix_cons_inj _).2 (ih rest)

end Plan

namespace Exchange

variable {x : Exchange}

theorem Sound.queue (h : x.Sound) (more : List Request) : (x.queue more).Sound := by
  obtain ⟨c, consumer, requests, answers⟩ := x
  have hmore {request : Request} (h : ∃ rest, requests = request :: rest) :
      ∃ rest, requests ++ more = request :: rest := by
    obtain ⟨rest, rfl⟩ := h
    exact ⟨rest ++ more, rfl⟩
  cases consumer with
  | idle => exact h
  | receiving => exact ⟨h.1, hmore h.2⟩
  | closing solution => exact ⟨h.1, h.2.1, hmore h.2.2⟩
  | joining solution => exact ⟨h.1, h.2.1, h.2.2.1, h.2.2.2.1, hmore h.2.2.2.2⟩
  | cancelling => exact ⟨h.1, hmore h.2⟩
  | leaving => exact ⟨h.1, hmore h.2⟩
  | parting => exact ⟨h.1, h.2.1, h.2.2.1, hmore h.2.2.2⟩

/-- Only a consumer with nothing to do acts otherwise if it is asked for more. -/
theorem consume_queue (h : x.requests ≠ [] ∨ x.consumer ≠ .idle) (hsound : x.Sound)
    (more : List Request) : x.consume.queue more = (x.queue more).consume := by
  obtain ⟨c, consumer, requests, answers⟩ := x
  cases requests with
  | nil =>
    -- A consumer that is at work on a request has it at hand.
    cases consumer <;> simp [Sound] at h hsound
  | cons request rest =>
    cases consumer with
    | idle =>
      cases request with
      | next =>
        cases hfinished : c.finished <;> cases hconnected : c.connected <;>
          simp [queue, consume, begin, reply, hfinished, hconnected]
      | abandon =>
        cases hover : (c.joined && !c.connected) <;>
          simp [queue, consume, begin, reply, hover]
    | receiving =>
      cases hproducer : c.producer with
      | offering solution found =>
        cases hlast : solution.isLast <;>
          simp [queue, consume, receive, reply, hproducer, hlast]
      | _ => simp [queue, consume, receive, hproducer]
    | joining solution =>
      cases hended : c.hasEnded <;> simp [queue, consume, reply, hended]
    | parting =>
      cases hended : c.hasEnded <;> simp [queue, consume, reply, hended]
    | _ => rfl

/-- The answers given and those to come are the planned ones, however much more is asked for. -/
structure Follows (plan : Plan) (made : List Request) (x : Exchange) : Prop where
  sound : x.Sound
  answers (more : List Request) :
    x.answers ++ (x.queue more).future = Plan.respond (made ++ more) plan

namespace Follows

variable {plan : Plan} {made : List Request}

theorem request (h : Follows plan made x) (request : Request) :
    Follows plan (made ++ [request]) (x.queue [request]) where
  sound := h.sound.queue [request]
  answers more := by
    have hqueue : (x.queue [request]).queue more = x.queue (request :: more) := by
      simp [queue]
    rw [hqueue, List.append_assoc]
    exact h.answers (request :: more)

theorem turn (h : Follows plan made x) (turn : Turn) : Follows plan made (x.take turn) := by
  have hgo (hqueue : ∀ more, (x.take turn).queue more = (x.queue more).take turn) :
      Follows plan made (x.take turn) := by
    refine ⟨(sound_take turn h.sound).1, fun more => ?_⟩
    have hanswers := (sound_take turn (h.sound.queue more)).2
    rw [← hqueue] at hanswers
    exact hanswers.trans (h.answers more)
  cases turn with
  | producer => exact hgo fun _ => rfl
  | consumer =>
    by_cases hwork : x.requests ≠ [] ∨ x.consumer ≠ .idle
    · exact hgo (consume_queue hwork h.sound)
    · have hsame : x.take .consumer = x := by
        simp only [ne_eq, not_or, not_not] at hwork
        simp [take, consume, begin, hwork.1, hwork.2]
      rw [hsame]
      exact h

theorem makeAll (h : Follows plan made x) (acts : List Act) :
    Follows plan (made ++ asked acts) (x.makeAll acts) := by
  induction acts generalizing x made with
  | nil => simpa [asked, Exchange.makeAll] using h
  | cons act acts ih =>
    cases act with
    | request request =>
      have hmade : made ++ asked (.request request :: acts) = made ++ [request] ++ asked acts := by
        simp [asked]
      rw [hmade]
      exact ih (h.request request)
    | turn turn => exact ih (h.turn turn)

theorem opened (goal : Term) (facts : List Term) :
    Follows (Plan.ofList (FactEngine.solutions goal facts).pending) []
      (Exchange.opened goal facts) where
  sound := sound_start _ _ []
  answers more := by
    rw [FactEngine.solutions, ← Queue.plan_ofSearch]
    exact run_respond (.ofList (FactEngine.answers goal facts)) (some "no") more []

theorem prefix_respond (h : Follows plan made x) : x.answers <+: Plan.respond made plan :=
  ⟨_, by simpa using h.answers []⟩

theorem eq_respond (h : Follows plan made x) (hdone : x.IsDone) :
    x.answers = Plan.respond made plan := by
  have hall := h.answers []
  have hqueue : x.queue [] = x := by simp [queue]
  rwa [hqueue, h.sound.future_of_done hdone, List.append_nil, List.append_nil] at hall

end Follows

/-- A stream that goes on as if it were alone with the facts it was opened on: after some acts it is
what these acts alone have made of it, and its answers are those of a sequence of all solutions. -/
structure Isolated (goal : Term) (facts : List Term) (acts : List Act) (x : Exchange) : Prop where
  alone : x = (opened goal facts).makeAll acts
  answers : x.answers.map (·.mapError SessionError.engine) <+:
    (SolutionStream.serveAll (asked acts) (FactEngine.solutions goal facts)).1
  complete : x.IsDone → x.answers.map (·.mapError SessionError.engine) =
    (SolutionStream.serveAll (asked acts) (FactEngine.solutions goal facts)).1
  yielded : x.yielded <+: (FactEngine.solutions goal facts).pending

theorem isolated_makeAll (goal : Term) (facts : List Term) (acts : List Act) :
    Isolated goal facts acts ((opened goal facts).makeAll acts) := by
  have hfollows : Follows (Plan.ofList (FactEngine.solutions goal facts).pending) (asked acts)
      ((opened goal facts).makeAll acts) := (Follows.opened goal facts).makeAll acts
  refine ⟨rfl, ?_, fun hdone => ?_, ?_⟩
  · rw [Queue.serveAll_eq]
    exact hfollows.prefix_respond.map _
  · rw [Queue.serveAll_eq, hfollows.eq_respond hdone]
  · exact (hfollows.prefix_respond.filterMap _).trans (Plan.yields_ofList _ _)

end Exchange

namespace Desk

variable {d : Desk}

theorem run_cons (move : Move) (moves : List Move) (d : Desk) :
    d.run (move :: moves) = (d.make move).run moves := rfl

theorem engine_call (d : Desk) (act : FactEngine.Act) :
    (d.make (.call act)).engine = (FactEngine.perform (d.engine, d.state) act).1 := rfl

theorem streams_call (d : Desk) (act : FactEngine.Act) :
    (d.make (.call act)).streams = d.streams ++ d.opens act := rfl

theorem engine_run (moves : List Move) (d : Desk) :
    ((d.run moves).engine, (d.run moves).state) =
      FactEngine.performAll (calls moves) (d.engine, d.state) := by
  induction moves generalizing d with
  | nil => rfl
  | cons move moves ih => cases move <;> exact ih _

/-- A stream is moved by nothing but what happens to it. -/
theorem streams_run (moves : List Move) {k : Nat} {x : Exchange} (h : d.streams[k]? = some x) :
    (d.run moves).streams[k]? = some (x.makeAll (actsOn k moves)) := by
  induction moves generalizing d x with
  | nil => exact h
  | cons move moves ih =>
    cases move with
    | call act =>
      have hkept : (d.make (.call act)).streams[k]? = some x := by
        rw [streams_call, List.getElem?_append_left (List.getElem?_eq_some_iff.1 h).1, h]
      exact ih hkept
    | act i act =>
      have hmoved : (d.make (.act i act)).streams[k]? =
          some (if i = k then x.make act else x) := by
        change (d.streams.modify i (·.make act))[k]? = _
        rw [List.getElem?_modify, h]
        split <;> simp_all
      by_cases hi : i = k
      · rw [if_pos hi] at hmoved
        have hacts : actsOn k (.act i act :: moves) = act :: actsOn k moves := by
          simp [actsOn, hi]
        rw [hacts]
        exact ih hmoved
      · rw [if_neg hi] at hmoved
        have hacts : actsOn k (.act i act :: moves) = actsOn k moves := by
          simp [actsOn, hi]
        rw [hacts]
        exact ih hmoved

theorem opens_goal {query : String} {goal : Term} (h : Directive.parse query = .ok (.goal goal))
    (d : Desk) : d.opens (.solve query) = [.opened goal d.engine.facts] := by
  simp only [opens, Engine.solve, FactEngine.solve, h]
  rfl

theorem isolated_run {query : String} {goal : Term}
    (h : Directive.parse query = .ok (.goal goal)) (d : Desk) (after : List Move) :
    ∃ x, (d.run (.call (.solve query) :: after)).streams[d.streams.length]? = some x ∧
      x.Isolated goal d.engine.facts (actsOn d.streams.length after) := by
  have hopened : (d.make (.call (.solve query))).streams[d.streams.length]? =
      some (.opened goal d.engine.facts) := by
    rw [streams_call, opens_goal h, List.getElem?_concat_length]
  rw [run_cons]
  exact ⟨_, streams_run after hopened, Exchange.isolated_makeAll _ _ _⟩

theorem opens_cases (d : Desk) (act : FactEngine.Act) :
    d.opens act = [] ∨ ∃ query goal, act = .solve query ∧
      Directive.parse query = .ok (.goal goal) ∧ d.opens act = [.opened goal d.engine.facts] := by
  cases act with
  | interrupt => exact .inl rfl
  | persist entries => exact .inl rfl
  | solve query =>
    by_cases h : ∃ goal, Directive.parse query = .ok (.goal goal)
    · obtain ⟨goal, h⟩ := h
      exact .inr ⟨query, goal, rfl, h, opens_goal h d⟩
    · refine .inl ?_
      simp only [opens, Engine.solve, FactEngine.solve]
      cases hparse : Directive.parse query with
      | error error => rfl
      | ok directive =>
        cases directive with
        | goal goal => exact absurd ⟨goal, hparse⟩ h
        | _ => rfl

/-- Every stream was there before or has been opened for a goal. -/
theorem opened_by_goal (moves : List Move) {d : Desk} {k : Nat}
    (hk : k < (d.run moves).streams.length) :
    k < d.streams.length ∨ ∃ before query goal after,
      moves = before ++ .call (.solve query) :: after ∧
        Directive.parse query = .ok (.goal goal) ∧ (d.run before).streams.length = k := by
  induction moves generalizing d with
  | nil => exact .inl hk
  | cons move moves ih =>
    rcases ih (d := d.make move) hk with hnext | ⟨before, query, goal, after, rfl, hgoal, hlength⟩
    · cases move with
      | act i act => exact .inl (by simpa [make] using hnext)
      | call act =>
        rw [streams_call] at hnext
        rcases d.opens_cases act with hnone | ⟨query, goal, rfl, hgoal, hone⟩
        · rw [hnone, List.append_nil] at hnext
          exact .inl hnext
        · rw [hone, List.length_append, List.length_singleton] at hnext
          rcases Nat.lt_succ_iff_lt_or_eq.1 hnext with hold | hnew
          · exact .inl hold
          · exact .inr ⟨[], query, goal, moves, rfl, hgoal, hnew.symm⟩
    · exact .inr ⟨move :: before, query, goal, after, rfl, hgoal, hlength⟩

theorem run_append (before after : List Move) (d : Desk) :
    d.run (before ++ after) = (d.run before).run after := List.foldl_append

/-- Whatever the moves, each stream is that of a goal, on the facts of the time. -/
theorem isolated_streams (moves : List Move) {d : Desk} (hnew : d.streams = []) {k : Nat}
    {x : Exchange} (hx : (d.run moves).streams[k]? = some x) :
    ∃ before query goal after, moves = before ++ .call (.solve query) :: after ∧
      Directive.parse query = .ok (.goal goal) ∧
      x.Isolated goal (d.run before).engine.facts (actsOn k after) := by
  rcases opened_by_goal moves (List.getElem?_eq_some_iff.1 hx).1 with hold | hgoal
  · simp [hnew] at hold
  · obtain ⟨before, query, goal, after, rfl, hgoal, rfl⟩ := hgoal
    obtain ⟨y, hy, hisolated⟩ := isolated_run hgoal (d.run before) after
    rw [run_append, hy] at hx
    exact ⟨before, query, goal, after, rfl, hgoal, Option.some.inj hx ▸ hisolated⟩

end Desk

namespace FactStream

/-- Requests to a stream, each made of the engine as it is at the time. -/
def serveAmid : List (FactEngine × Request) → FactStream → List (Answer SessionError)
  | [], _ => []
  | (e, request) :: rest, stream =>
    (SolutionStream.serve request (e, stream)).1 ::
      serveAmid rest (SolutionStream.serve request (e, stream)).2.2

/-- The engine has no part in what a stream is asked for. -/
theorem serve_eq (request : Request) (e : FactEngine) (stream : FactStream) :
    SolutionStream.serve request (e, stream) =
      ((SolutionStream.serve request stream).1, e, (SolutionStream.serve request stream).2) := by
  cases request <;> rfl

theorem serveAmid_search (requests : List (FactEngine × Request)) (channel : Channel) :
    serveAmid requests (.search channel) =
      (SolutionStream.serveAll (requests.map Prod.snd) channel).1 := by
  induction requests generalizing channel with
  | nil => rfl
  | cons request requests ih =>
    obtain ⟨e, request⟩ := request
    rw [serveAmid, serve_eq]
    cases request with
    | next => exact congrArg (_ :: ·) (ih _)
    | abandon => exact congrArg (_ :: ·) (ih _)

theorem serveAmid_goal (goal : Term) (facts : List Term)
    (requests : List (FactEngine × Request)) :
    serveAmid requests
        (.search (.spawn (.ofList (FactEngine.answers goal facts)) (some "no"))) =
      (SolutionStream.serveAll (requests.map Prod.snd) (FactEngine.solutions goal facts)).1 := by
  rw [serveAmid_search, FactEngine.solutions, Queue.serveAll_eq, ← Queue.plan_ofSearch]
  exact Channel.serveAll_eq _ (.inl (Channel.live_spawn _ _))

end FactStream

end LogicConsole
