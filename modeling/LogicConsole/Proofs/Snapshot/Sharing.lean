import LogicConsole.Proofs.Snapshot.Desk
import Mathlib.Data.List.Forall2
/-!
The facts are not copied when a goal is opened. The engine and the producers of its streams share
cells: a producer reads its cell whenever it looks for an answer, and the engine changes its cell in
place if no producer reads it any more, and a copy of it otherwise. Still every stream is answered
as if it had facts of its own.
-/
namespace LogicConsole

/-- Where the search for a goal stands. -/
structure Reader where
  goal : Term
  /-- The cell that holds the facts. -/
  cell : Nat
  position : Nat := 0
  /-- Facts not looked at yet. -/
  left : Nat

namespace Reader

/-- Look for the next fact that matches. -/
def scan (goal : Term) (facts : List Term) : (position left : Nat) → SearchStep × Nat × Nat
  | position, 0 => (.exhausted, position, 0)
  | position, left + 1 =>
    match facts[position]? with
    | none => (.panics, position + 1, left)
    | some fact =>
      match goal.matchFact fact with
      | some bindings => (.answer (FactEngine.renderBindings bindings), position + 1, left)
      | none => scan goal facts (position + 1) left

end Reader

/-- The producer is about to call its search. -/
def Producer.searches : Producer → Bool
  | .opening | .searching _ => true
  | _ => false

namespace Exchange

def withSearch (search : Search) (x : Exchange) : Exchange :=
  { x with channel := { x.channel with search } }

/-- No search of its own: what is found is looked up in a cell. -/
def blind : Search := fun _ => .panics

end Exchange

structure SharedStore where
  cells : List (List Term)
  /-- The cell of the engine. -/
  current : Nat := 0
  streams : List (Reader × Exchange) := []

namespace SharedStore

open Exchange (blind)

def start (facts : List Term) : SharedStore := { cells := [facts] }

def facts (s : SharedStore) : List Term := s.cells[s.current]?.getD []

/-- Some producer may still read the cell of the engine. -/
def isRead (s : SharedStore) : Bool :=
  s.streams.any fun (reader, x) => reader.cell == s.current && !x.channel.hasEnded

/-- Change the facts of the engine. A cell that is read is copied; one that is not may be copied,
too, by an engine that has not learnt yet of a producer's end. -/
def edit (copies : Bool) (change : List Term → List Term) (s : SharedStore) : SharedStore :=
  if copies || s.isRead then
    { s with cells := s.cells ++ [change s.facts], current := s.cells.length }
  else { s with cells := s.cells.set s.current (change s.facts) }

def solve (copies : Bool) (query : String) (s : SharedStore) : SharedStore :=
  match Directive.parse query with
  | .ok (.assert fact) => s.edit copies (· ++ [fact])
  | .ok (.retract pattern) =>
    if s.facts.any fun fact => (pattern.matchFact fact).isSome then
      s.edit copies (FactEngine.retract pattern)
    else s
  | .ok (.goal goal) =>
    let reader : Reader := { goal, cell := s.current, left := s.facts.length }
    { s with streams := s.streams ++ [(reader, .start blind (some "no") [])] }
  | _ => s

/-- A step of a producer, which reads its cell if it has to find an answer. -/
def produce (cells : List (List Term)) : Reader × Exchange → Reader × Exchange
  | (reader, x) =>
    if x.channel.producer.searches then
      let (found, position, left) :=
        Reader.scan reader.goal (cells[reader.cell]?.getD []) reader.position reader.left
      ({ reader with position, left },
        ((x.withSearch fun _ => found).take .producer).withSearch blind)
    else (reader, x.take .producer)

def act (cells : List (List Term)) : Exchange.Act → Reader × Exchange → Reader × Exchange
  | .request request, (reader, x) => (reader, x.queue [request])
  | .turn .producer, stream => produce cells stream
  | .turn .consumer, (reader, x) => (reader, x.take .consumer)

/-- A move on the store, with the engine copying its cell or not. -/
def make (s : SharedStore) : Desk.Move × Bool → SharedStore
  | (.call (.solve query), copies) => s.solve copies query
  | (.call _, _) => s
  | (.act k act, _) => { s with streams := s.streams.modify k (SharedStore.act s.cells act) }

def run (moves : List (Desk.Move × Bool)) (s : SharedStore) : SharedStore := moves.foldl make s

end SharedStore

namespace Reader

open FactEngine (answers)

variable {goal fact : Term} {facts rest : List Term}

theorem answers_of_match {bindings : Bindings} (h : goal.matchFact fact = some bindings) :
    answers goal (fact :: rest) = FactEngine.renderBindings bindings :: answers goal rest := by
  simp [answers, h]

theorem answers_of_mismatch (h : goal.matchFact fact = none) :
    answers goal (fact :: rest) = answers goal rest := by
  simp [answers, h]

/-- As far as a reader has come, there are the answers left that a search through all of them finds
from call number `calls` on. -/
structure At (goal : Term) (facts : List Term) (calls position left : Nat) : Prop where
  length : facts.length = position + left
  rest : answers goal (facts.drop position) = (answers goal facts).drop calls

theorem At.start (goal : Term) (facts : List Term) : At goal facts 0 0 facts.length :=
  ⟨(Nat.zero_add _).symm, rfl⟩

/-- A look into the facts comes to the same as a call of the search. -/
theorem At.scan {calls position left : Nat} (h : At goal facts calls position left) :
    (scan goal facts position left).1 = Search.ofList (answers goal facts) calls ∧
      At goal facts (calls + 1) (scan goal facts position left).2.1
        (scan goal facts position left).2.2 := by
  induction left generalizing position with
  | zero =>
    have hend : facts.drop position = [] := List.drop_eq_nil_iff.2 (by have := h.length; omega)
    have hnone : (answers goal facts).drop calls = [] := by
      rw [← h.rest, hend]
      rfl
    have hlength := List.drop_eq_nil_iff.1 hnone
    refine ⟨?_, h.length, ?_⟩
    · simp only [Reader.scan, Search.ofList, List.getElem?_eq_none hlength]
    · rw [Reader.scan, hend, List.drop_eq_nil_of_le (by omega)]
      rfl
  | succ left ih =>
    have hposition : position < facts.length := by
      have := h.length
      omega
    have hlength : facts.length = position + 1 + left := by
      have := h.length
      omega
    have hget : facts[position]? = some facts[position] := List.getElem?_eq_getElem hposition
    have hrest := h.rest
    rw [List.drop_eq_getElem_cons hposition] at hrest
    cases hmatch : goal.matchFact facts[position] with
    | none =>
      rw [answers_of_mismatch hmatch] at hrest
      have hnext := ih ⟨hlength, hrest⟩
      simpa only [Reader.scan, hget, hmatch] using hnext
    | some bindings =>
      rw [answers_of_match hmatch] at hrest
      have hfound : (answers goal facts)[calls]? = some (FactEngine.renderBindings bindings) := by
        rw [← List.head?_drop, ← hrest, List.head?_cons]
      simp only [Reader.scan, hget, hmatch, Search.ofList, hfound, true_and]
      exact ⟨hlength, by simpa [List.tail_drop] using congrArg List.tail hrest⟩

end Reader

namespace Channel

variable (c : Channel)

/-- A step of the producer calls its search at most once, and only when it is about to. -/
theorem advance_search {search search' : Search}
    (h : c.producer.searches → search c.calls = search' c.calls) (last : Search) :
    { Channel.advance { c with search } with search := last } =
      { Channel.advance { c with search := search' } with search := last } := by
  obtain ⟨own, fallback, calls, producer, cancelled, connected, joined, finished⟩ := c
  cases producer with
  | opening =>
    have hcall : search calls = search' calls := h rfl
    cases hfound : search' calls <;> simp [Channel.advance, hcall, hfound]
  | searching pending =>
    have hcall : search calls = search' calls := h rfl
    cases hfound : search' calls <;> simp [Channel.advance, hcall, hfound]
  | offering solution found => cases connected <;> rfl
  | _ => rfl

theorem advance_calls :
    c.advance.calls = if c.producer.searches then c.calls + 1 else c.calls := by
  obtain ⟨own, fallback, calls, producer, cancelled, connected, joined, finished⟩ := c
  cases producer with
  | opening => cases h : own calls <;> simp [Channel.advance, Producer.searches, h]
  | offering solution found => cases connected <;> rfl
  | _ => rfl

theorem hasEnded_advance (h : c.hasEnded = true) : c.advance = c := by
  simp only [hasEnded, Bool.or_eq_true, beq_iff_eq] at h
  rcases h with h | h <;> simp only [advance, h]

end Channel

namespace Exchange

theorem withSearch_of_search {search : Search} {x : Exchange} (h : x.channel.search = search) :
    x.withSearch search = x := by
  subst h
  rfl

theorem produce_withSearch (x : Exchange) {search : Search}
    (h : x.channel.producer.searches → search x.channel.calls = x.channel.search x.channel.calls)
    (last : Search) :
    ((x.withSearch search).take .producer).withSearch last = (x.take .producer).withSearch last :=
  congrArg (fun channel : Channel => { x with channel }) (x.channel.advance_search h last)

theorem consume_withSearch (search : Search) (x : Exchange) :
    (x.withSearch search).consume = x.consume.withSearch search := by
  obtain ⟨c, consumer, requests, answers⟩ := x
  cases consumer with
  | idle =>
    cases requests with
    | nil => rfl
    | cons request rest =>
      cases request with
      | next => cases hfinished : c.finished <;> simp [withSearch, consume, begin, reply, hfinished]
      | abandon =>
        cases hover : (c.joined && !c.connected) <;> simp [withSearch, consume, begin, reply, hover]
  | receiving =>
    cases hproducer : c.producer with
    | offering solution found =>
      cases hlast : solution.isLast <;> simp [withSearch, consume, receive, reply, hproducer, hlast]
    | _ => simp [withSearch, consume, receive, hproducer]
  | joining solution =>
    cases hended : c.hasEnded <;>
      simp [withSearch, consume, reply, Channel.join, Channel.hasEnded] at hended ⊢ <;>
      simp [hended]
  | parting =>
    cases hended : c.hasEnded <;>
      simp [withSearch, consume, reply, Channel.join, Channel.hasEnded] at hended ⊢ <;>
      simp [hended]
  | _ => rfl

/-- What the consumer does leaves the search where it was, and does not bring a producer back. -/
theorem consume_frame (y : Exchange) :
    y.consume.channel.search = y.channel.search ∧ y.consume.channel.calls = y.channel.calls ∧
      (y.consume.channel.hasEnded = false → y.channel.hasEnded = false) := by
  obtain ⟨c, consumer, requests, answers⟩ := y
  cases consumer with
  | idle =>
    cases requests with
    | nil => exact ⟨rfl, rfl, id⟩
    | cons request rest =>
      cases request with
      | next => cases hfinished : c.finished <;> simp [consume, begin, reply, hfinished]
      | abandon => cases hover : (c.joined && !c.connected) <;> simp [consume, begin, reply, hover]
  | receiving =>
    cases hproducer : c.producer with
    | offering solution found =>
      cases hlast : solution.isLast <;>
        simp [consume, receive, reply, hproducer, hlast, Channel.hasEnded]
    | _ => simp [consume, receive, hproducer]
  | joining solution =>
    simp only [consume]
    split <;> exact ⟨rfl, rfl, id⟩
  | parting =>
    simp only [consume]
    split <;> exact ⟨rfl, rfl, id⟩
  | _ => exact ⟨rfl, rfl, id⟩

end Exchange

namespace SharedStore

open Exchange (blind)

/-- The store holds the facts of the desk, and its streams differ only in how they search. -/
structure Views (s : SharedStore) (d : Desk) : Prop where
  facts : s.facts = d.engine.facts
  streams : s.streams.map Prod.snd = d.streams.map (·.withSearch blind)

/-- A stream over a cell goes along with one that has facts of its own. As long as its producer may
look for answers, the cell holds these facts. -/
structure Tracks (cells : List (List Term)) (stream : Reader × Exchange) (y : Exchange) : Prop where
  same : stream.2 = y.withSearch blind
  reads : y.channel.hasEnded = false → ∃ facts, cells[stream.1.cell]? = some facts ∧
    y.channel.search = .ofList (FactEngine.answers stream.1.goal facts) ∧
    Reader.At stream.1.goal facts y.channel.calls stream.1.position stream.1.left

structure Tracked (s : SharedStore) (d : Desk) : Prop where
  current : s.cells[s.current]? = some d.engine.facts
  streams : List.Forall₂ (Tracks s.cells) s.streams d.streams

variable {s : SharedStore} {d d' : Desk} {cells cells' : List (List Term)}
  {stream : Reader × Exchange} {y : Exchange}

theorem Tracked.facts (h : s.Tracked d) : s.facts = d.engine.facts := by
  simp [SharedStore.facts, h.current]

theorem Tracked.views (h : s.Tracked d) : s.Views d where
  facts := h.facts
  streams := by
    have hsame : List.Forall₂ (fun stream y => stream.2 = Exchange.withSearch blind y)
        s.streams d.streams := h.streams.imp fun _ _ hstream => hstream.same
    rwa [← List.forall₂_eq_eq_eq, List.forall₂_map_left_iff, List.forall₂_map_right_iff]

/-- Changes of cells that no producer reads go unnoticed. -/
theorem Tracks.frame (h : Tracks cells stream y)
    (hcells : y.channel.hasEnded = false → cells'[stream.1.cell]? = cells[stream.1.cell]?) :
    Tracks cells' stream y where
  same := h.same
  reads hlive := by
    rw [hcells hlive]
    exact h.reads hlive

theorem Tracks.produce (h : Tracks cells stream y) :
    Tracks cells (produce cells stream) (y.take .producer) := by
  obtain ⟨reader, x⟩ := stream
  obtain ⟨hsame, hreads⟩ := h
  obtain rfl : x = y.withSearch blind := hsame
  have hproducer : (y.withSearch blind).channel.producer = y.channel.producer := rfl
  cases hsearches : y.channel.producer.searches with
  | true =>
    have hlive : y.channel.hasEnded = false := by
      cases hcase : y.channel.producer <;> simp_all [Producer.searches, Channel.hasEnded]
    obtain ⟨facts, hcell, hsearch, hat⟩ := hreads hlive
    obtain ⟨hfound, hnext⟩ := hat.scan
    simp only [SharedStore.produce, hproducer, hsearches, if_true, hcell, Option.getD_some]
    refine ⟨y.produce_withSearch (fun _ => by rw [hfound, hsearch]) blind, fun _ => ?_⟩
    refine ⟨facts, hcell, (y.channel.advance_frame).1.trans hsearch, ?_⟩
    simp only [Exchange.take, Channel.advance_calls, hsearches, if_true]
    exact hnext
  | false =>
    simp only [SharedStore.produce, hproducer, hsearches, Bool.false_eq_true, if_false]
    have hblind : ((y.withSearch blind).take .producer).withSearch blind =
        (y.withSearch blind).take .producer :=
      Exchange.withSearch_of_search (Channel.advance_frame _).1
    have hsame : ((y.withSearch blind).take .producer).withSearch blind =
        (y.take .producer).withSearch blind :=
      y.produce_withSearch (fun h => by simp [hsearches] at h) blind
    refine ⟨hblind.symm.trans hsame, fun hlive => ?_⟩
    have hbefore : y.channel.hasEnded = false := by
      by_contra hended
      rw [Bool.not_eq_false] at hended
      simp only [Exchange.take, y.channel.hasEnded_advance hended, hended] at hlive
      cases hlive
    obtain ⟨facts, hcell, hsearch, hat⟩ := hreads hbefore
    refine ⟨facts, hcell, (y.channel.advance_frame).1.trans hsearch, ?_⟩
    simp only [Exchange.take, Channel.advance_calls, hsearches, Bool.false_eq_true, if_false]
    exact hat

theorem Tracks.act (h : Tracks cells stream y) (act : Exchange.Act) :
    Tracks cells (SharedStore.act cells act stream) (y.make act) := by
  cases act with
  | request request => exact ⟨congrArg (·.queue [request]) h.same, h.reads⟩
  | turn turn =>
    cases turn with
    | producer => exact h.produce
    | consumer =>
      obtain ⟨hsearch, hcalls, hended⟩ := y.consume_frame
      refine ⟨?_, fun hlive => ?_⟩
      · exact (congrArg (·.take .consumer) h.same).trans (y.consume_withSearch blind)
      · obtain ⟨facts, hcell, hreads, hat⟩ := h.reads (hended hlive)
        exact ⟨facts, hcell, hsearch.trans hreads, hcalls.symm ▸ hat⟩

theorem forall₂_modify {α β : Type} {R : α → β → Prop} {f : α → α} {g : β → β}
    (hfg : ∀ a b, R a b → R (f a) (g b)) {as : List α} {bs : List β} (h : List.Forall₂ R as bs)
    (k : Nat) : List.Forall₂ R (as.modify k f) (bs.modify k g) := by
  induction h generalizing k with
  | nil => cases k <;> exact .nil
  | cons hab _ ih =>
    cases k with
    | zero => exact .cons (hfg _ _ hab) ‹_›
    | succ k => exact .cons hab (ih k)

/-- A producer that may still look for answers keeps its cell as it is. -/
theorem edit_cell (s : SharedStore) (copies : Bool) (change : List Term → List Term)
    (hmem : stream ∈ s.streams) (hlive : stream.2.channel.hasEnded = false)
    (hcell : stream.1.cell < s.cells.length) :
    (s.edit copies change).cells[stream.1.cell]? = s.cells[stream.1.cell]? := by
  unfold edit
  split
  · exact List.getElem?_append_left hcell
  · rename_i hfree
    have hother : s.current ≠ stream.1.cell := by
      intro heq
      refine hfree (Bool.or_eq_true_iff.2 (.inr (List.any_eq_true.2 ⟨stream, hmem, ?_⟩)))
      simp [heq, hlive]
    exact List.getElem?_set_ne hother

theorem Tracked.edit (h : s.Tracked d) (copies : Bool) {change : List Term → List Term}
    (hfacts : d'.engine.facts = change d.engine.facts) (hstreams : d'.streams = d.streams) :
    (s.edit copies change).Tracked d' where
  current := by
    have hcurrent : s.current < s.cells.length := (List.getElem?_eq_some_iff.1 h.current).1
    unfold SharedStore.edit
    split
    · simp [hfacts, h.facts]
    · simp [hfacts, h.facts, hcurrent]
  streams := by
    have hkept : (s.edit copies change).streams = s.streams := by
      unfold SharedStore.edit
      split <;> rfl
    rw [hkept, hstreams]
    have hboth := (List.forall₂_and_left _ _).2 ⟨fun stream hmem => hmem, h.streams⟩
    refine hboth.imp fun stream y ⟨hmem, htracks⟩ => htracks.frame fun hlive => ?_
    obtain ⟨facts, hcell, -, -⟩ := htracks.reads hlive
    refine s.edit_cell copies change hmem ?_ (List.getElem?_eq_some_iff.1 hcell).1
    rw [htracks.same]
    exact hlive

theorem Tracked.same (h : s.Tracked d) (hfacts : d'.engine.facts = d.engine.facts)
    (hstreams : d'.streams = d.streams) : s.Tracked d' where
  current := by rw [hfacts, h.current]
  streams := by
    rw [hstreams]
    exact h.streams

theorem Tracked.solve (h : s.Tracked d) (copies : Bool) (query : String) :
    (s.solve copies query).Tracked (d.make (.call (.solve query))) := by
  have hengine := d.engine_call (.solve query)
  rw [FactEngine.perform_solve] at hengine
  have hstreams (hother : ∀ goal, Directive.parse query ≠ .ok (.goal goal)) :
      (d.make (.call (.solve query))).streams = d.streams := by
    rcases d.opens_cases (.solve query) with hnone | ⟨query', goal, hquery, hgoal, -⟩
    · rw [Desk.streams_call, hnone, List.append_nil]
    · cases hquery
      exact absurd hgoal (hother goal)
  unfold SharedStore.solve
  cases hparse : Directive.parse query with
  | error error =>
    simp only [hparse] at hengine
    exact h.same (congrArg FactEngine.facts hengine) (hstreams (by simp [hparse]))
  | ok directive =>
    simp only [hparse] at hengine
    cases directive with
    | assert fact =>
      exact h.edit copies (congrArg FactEngine.facts hengine) (hstreams (by simp [hparse]))
    | retract pattern =>
      dsimp only
      split
      · exact h.edit copies (congrArg FactEngine.facts hengine) (hstreams (by simp [hparse]))
      · rename_i hnone
        refine h.same ((congrArg FactEngine.facts hengine).trans (FactEngine.retract_of_none ?_))
          (hstreams (by simp [hparse]))
        rw [h.facts] at hnone
        simpa using hnone
    | goal goal =>
      refine ⟨?_, ?_⟩
      · rw [hengine]
        exact h.current
      · rw [Desk.streams_call, Desk.opens_goal hparse]
        refine List.rel_append h.streams (.cons ⟨rfl, fun _ => ?_⟩ .nil)
        refine ⟨d.engine.facts, h.current, rfl, ?_⟩
        rw [h.facts]
        exact .start goal d.engine.facts
    | _ => exact h.same (congrArg FactEngine.facts hengine) (hstreams (by simp [hparse]))

theorem Tracked.make (h : s.Tracked d) (move : Desk.Move) (copies : Bool) :
    (s.make (move, copies)).Tracked (d.make move) := by
  cases move with
  | act k act => exact ⟨h.current, forall₂_modify (fun _ _ htracks => htracks.act act) h.streams k⟩
  | call act =>
    cases act with
    | solve query => exact h.solve copies query
    | interrupt => exact h.same rfl (List.append_nil _)
    | persist entries =>
      exact h.same (FactEngine.facts_persist entries d.engine) (List.append_nil _)

theorem Tracked.run (h : s.Tracked d) (moves : List (Desk.Move × Bool)) :
    (s.run moves).Tracked (d.run (moves.map Prod.fst)) := by
  induction moves generalizing s d with
  | nil => exact h
  | cons move moves ih => exact ih (h.make move.1 move.2)

theorem tracked_start (e : FactEngine) (state : SessionState) :
    (start e.facts).Tracked { engine := e, state } := ⟨rfl, .nil⟩

/-- Whoever shares cells with the engine, every stream goes on as if it had facts of its own: those
that were stored when its goal was opened. It is moved by nothing but what happens to it, and the
facts by nothing but calls of the engine. So it is for a consumer that waits for every answer, too,
whatever has become of the engine meanwhile. -/
theorem snapshot_isolation :
    (∀ (e : FactEngine) (state : SessionState) (moves : List (Desk.Move × Bool)),
      ((start e.facts).run moves).Views (Desk.run (moves.map Prod.fst) { engine := e, state })) ∧
    (∀ (d : Desk) (query : String) (goal : Term) (after : List Desk.Move),
      Directive.parse query = .ok (.goal goal) →
      ∃ x, (d.run (.call (.solve query) :: after)).streams[d.streams.length]? = some x ∧
        x.Isolated goal d.engine.facts (Desk.actsOn d.streams.length after)) ∧
    (∀ (e : FactEngine) (state : SessionState) (moves : List Desk.Move) (k : Nat) (x : Exchange),
      (Desk.run moves { engine := e, state }).streams[k]? = some x →
      ∃ before query goal after, moves = before ++ .call (.solve query) :: after ∧
        Directive.parse query = .ok (.goal goal) ∧
        x.Isolated goal (Desk.run before { engine := e, state }).engine.facts
          (Desk.actsOn k after)) ∧
    (∀ (d : Desk) (moves : List Desk.Move),
      ((d.run moves).engine, (d.run moves).state) =
        FactEngine.performAll (Desk.calls moves) (d.engine, d.state)) ∧
    (∀ (e : FactEngine) (state : SessionState) (query : String) (goal : Term),
      Directive.parse query = .ok (.goal goal) →
      ∃ stream, (Engine.solve (e, { state with query })).1 = .ok stream ∧
        ∀ requests : List (FactEngine × Request),
          FactStream.serveAmid requests stream =
            (SolutionStream.serveAll (requests.map Prod.snd)
              (FactEngine.solutions goal e.facts)).1) ∧
    ∀ (request : Request) (e : FactEngine) (stream : FactStream),
      (SolutionStream.serve request (e, stream)).2.1 = e := by
  refine ⟨fun e state moves => ((tracked_start e state).run moves).views,
    fun d query goal after h => Desk.isolated_run h d after,
    fun e state moves k x hx => Desk.isolated_streams moves rfl hx,
    fun d moves => Desk.engine_run moves d, fun e state query goal h => ?_,
    fun request e stream => by rw [FactStream.serve_eq]⟩
  refine ⟨.search (.spawn (.ofList (FactEngine.answers goal e.facts)) (some "no")), ?_,
    FactStream.serveAmid_goal goal e.facts⟩
  simp only [Engine.solve, FactEngine.solve, h, FactEngine.execute]

/-- Two facts. -/
def family : Desk where
  engine := { facts := [⟨"parent", [.atom "tom", .atom "bob"]⟩,
    ⟨"parent", [.atom "tom", .atom "ann"]⟩] }

/-- A goal that both of them match. -/
def toms : Term := ⟨"parent", [.atom "tom", .var "X"]⟩

/-- The second answer is asked for when its fact is no longer stored. -/
def forgetting : List Desk.Move :=
  .call (.solve "parent(tom, X).") :: .act 0 (.request .next) ::
    .call (.solve "retract(parent(tom, ann)).") :: .act 0 (.request .next) ::
    (List.range 14).map fun n => .act 0 (.turn (Exchange.alternately n))

theorem forgetting_isolated :
    (family.run forgetting).engine.facts = [⟨"parent", [.atom "tom", .atom "bob"]⟩] ∧
    (∃ x, (family.run forgetting).streams[0]? = some x ∧
      x.yielded = [⟨"X = bob", false⟩, ⟨"X = ann", true⟩] ∧
      x.Isolated toms family.engine.facts (Desk.actsOn 0 forgetting.tail) ∧
      ∃ before query goal after, forgetting = before ++ .call (.solve query) :: after ∧
        Directive.parse query = .ok (.goal goal) ∧
        x.Isolated goal (family.run before).engine.facts (Desk.actsOn 0 after)) ∧
    ∃ stream, (Engine.solve (family.engine, { query := "parent(tom, X)." })).1 = .ok stream ∧
      ∀ requests : List (FactEngine × Request), FactStream.serveAmid requests stream =
        (SolutionStream.serveAll (requests.map Prod.snd)
          (FactEngine.solutions toms family.engine.facts)).1 := by
  have hgoal : Directive.parse "parent(tom, X)." = .ok (.goal toms) := by decide +kernel
  have hyielded : (family.run forgetting).streams[0]?.map Exchange.yielded =
      some [⟨"X = bob", false⟩, ⟨"X = ann", true⟩] := by decide +kernel
  obtain ⟨-, hopened, hstreams, -, hpulled, -⟩ := snapshot_isolation
  obtain ⟨x, hx, hisolated⟩ := hopened family _ toms forgetting.tail hgoal
  refine ⟨by decide +kernel, ⟨x, hx, ?_, hisolated, ?_⟩, hpulled family.engine {} _ toms hgoal⟩
  · rw [show (family.run forgetting).streams[0]? = some x from hx] at hyielded
    exact Option.some.inj hyielded
  · exact hstreams family.engine {} forgetting 0 x hx

end SharedStore

end LogicConsole
