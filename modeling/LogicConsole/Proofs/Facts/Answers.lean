import LogicConsole.Proofs.Snapshot.Sharing
import LogicConsole.Proofs.Term.Instance
/-!
What a query is answered by. A stream yields its texts one by one, the final one marked as last, and
nothing after them. A goal is answered by one text for each stored fact it matches, in the order of
the store, or else by a single `no`; the store stays as it is, and so does the halt flag. It makes
no difference in which steps the facts are looked up.
-/
namespace LogicConsole.FactEngine

open Directive (Asks)

/-- What pull number `i` of a stream of these texts comes to. -/
def solutionAt (texts : List String) (i : Nat) : Option Solution :=
  texts[i]?.map fun text => ⟨text, decide (i + 1 = texts.length)⟩

/-- Pulled any number of times, the stream yields the texts and then nothing, and never fails; the
engine stays as it is. -/
structure Yields (e : FactEngine) (stream : FactStream) (texts : List String) : Prop where
  answers (n : Nat) : (SolutionStream.serveAll (List.replicate n .next) (e, stream)).1 =
    (List.range n).map fun i => .ok (solutionAt texts i)
  engine (n : Nat) : (SolutionStream.serveAll (List.replicate n .next) (e, stream)).2.1 = e

/-- The query is answered by these texts, and takes the engine and the state to what they are
afterwards. -/
def Solves (query : String) (texts : List String) (es es' : FactEngine × SessionState) : Prop :=
  ∃ stream, Engine.solve (es.1, { es.2 with query }) = (.ok stream, es') ∧
    Yields es'.1 stream texts

/-- The text of an answer: `yes`, or the bindings with commas between them. -/
inductive Spells : Bindings → String → Prop
  | yes : Spells [] "yes"
  | one (name value : String) : Spells [(name, value)] (name ++ " = " ++ value)
  | more (name value : String) {next : String × String} {rest : Bindings} {text : String}
    (h : Spells (next :: rest) text) :
    Spells ((name, value) :: next :: rest) (name ++ " = " ++ value ++ ", " ++ text)

/-- The answers found in a store, one for each stored fact that matches. The bindings of an answer
stand in the order in which the goal first mentions their variables. -/
inductive Finds (goal : Term) : List Term → List String → Prop
  | nil : Finds goal [] []
  | hit {fact : Term} {facts : List Term} {bindings : Bindings} {values : goal.Assignment}
    {text : String} {texts : List String} (hmatch : goal.matchFact fact = some bindings)
    (hmakes : values.Makes fact) (hlists : values.Lists bindings) (htext : Spells bindings text)
    (h : Finds goal facts texts) : Finds goal (fact :: facts) (text :: texts)
  | miss {fact : Term} {facts : List Term} {texts : List String}
    (hmatch : goal.matchFact fact = none)
    (hother : ∀ values : goal.Assignment, ¬ values.Makes fact) (h : Finds goal facts texts) :
    Finds goal (fact :: facts) texts

/-- The answers to a goal: those that are found, or a single `no`. -/
inductive Replies (goal : Term) (facts : List Term) : List String → Prop
  | found {texts : List String} (h : Finds goal facts texts) (hne : texts ≠ []) :
    Replies goal facts texts
  | no (h : Finds goal facts []) : Replies goal facts ["no"]

/-- An exchange that has been asked for `n` solutions gives those of a stream of these texts, as
many as it has come to so far. -/
structure Gives (texts : List String) (n : Nat) (x : Exchange) : Prop where
  begun : x.answers <+: (List.range n).map fun i => .ok (solutionAt texts i)
  complete (h : x.IsDone) : x.answers = (List.range n).map fun i => .ok (solutionAt texts i)

/-- A goal is opened over shared cells, and then something happens to its stream. -/
def opening (query : String) (acts : List Exchange.Act) : List (Desk.Move × Bool) :=
  (.call (.solve query), false) :: acts.map fun act => (.act 0 act, false)

section Streams

variable {e : FactEngine} {stream : FactStream} {texts : List String}

/-- The marked solutions are what the pulls come to. -/
theorem getElem?_mark (texts : List String) (i : Nat) :
    (Queue.mark texts)[i]? = solutionAt texts i := by
  unfold solutionAt
  induction texts generalizing i with
  | nil => simp [Queue.mark]
  | cons text rest ih =>
    cases rest with
    | nil => cases i <;> simp [Queue.mark, Solution.last]
    | cons next rest =>
      cases i with
      | zero => simp [Queue.mark]
      | succ i => simpa [Queue.mark] using ih i

theorem respond_pulls (n : Nat) (plan : Plan) :
    Plan.respond (List.replicate n .next) plan = (List.range n).map plan := by
  induction n generalizing plan with
  | zero => rfl
  | succ n ih =>
    rw [List.replicate_succ, Plan.respond, ih, List.range_succ_eq_map, List.map_cons, List.map_map]
    rfl

theorem respond_mark (n : Nat) (texts : List String) :
    Plan.respond (List.replicate n .next) (.ofList (Queue.mark texts)) =
      (List.range n).map fun i => .ok (solutionAt texts i) := by
  rw [respond_pulls]
  exact List.map_congr_left fun i _ => congrArg Except.ok (getElem?_mark texts i)

theorem pulls_queue (n : Nat) (texts : List String) :
    (SolutionStream.serveAll (List.replicate n .next) (Queue.ofAnswers texts)).1 =
      (List.range n).map fun i => .ok (solutionAt texts i) := by
  rw [Queue.serveAll_eq]
  have hrespond := congrArg (List.map (Except.mapError SessionError.engine)) (respond_mark n texts)
  rw [List.map_map] at hrespond
  exact hrespond

/-- Serving a stream beside the engine is serving the stream. -/
theorem serveAll_beside (requests : List Request) (e : FactEngine) (stream : FactStream) :
    SolutionStream.serveAll requests (e, stream) =
      ((SolutionStream.serveAll requests stream).1, e,
        (SolutionStream.serveAll requests stream).2) := by
  induction requests generalizing stream with
  | nil => rfl
  | cons request requests ih =>
    simp only [SolutionStream.serveAll, FactStream.serve_eq, ih]

theorem serveAll_ready (requests : List Request) (q : Queue) :
    (SolutionStream.serveAll requests (FactStream.ready q)).1 =
      (SolutionStream.serveAll requests q).1 := by
  induction requests generalizing q with
  | nil => rfl
  | cons request requests ih => cases request <;> exact congrArg (_ :: ·) (ih _)

theorem serveAll_search (requests : List Request) (c : Channel) :
    (SolutionStream.serveAll requests (FactStream.search c)).1 =
      (SolutionStream.serveAll requests c).1 := by
  induction requests generalizing c with
  | nil => rfl
  | cons request requests ih => cases request <;> exact congrArg (_ :: ·) (ih _)

theorem yields_of_pulls (h : ∀ n, (SolutionStream.serveAll (List.replicate n .next) stream).1 =
    (List.range n).map fun i => .ok (solutionAt texts i)) : Yields e stream texts where
  answers n := by rw [serveAll_beside, h]
  engine n := by rw [serveAll_beside]

theorem yields_reply (e : FactEngine) (answer : String) : Yields e (reply answer) [answer] :=
  yields_of_pulls fun n => (serveAll_ready _ _).trans (pulls_queue n [answer])

/-- The texts of the answers to a goal. -/
def replies (goal : Term) (facts : List Term) : List String :=
  if answers goal facts = [] then ["no"] else answers goal facts

theorem solutions_eq (goal : Term) (facts : List Term) :
    solutions goal facts = Queue.ofAnswers (replies goal facts) := by
  unfold solutions replies
  cases answers goal facts with
  | nil => rfl
  | cons text rest => rfl

theorem yields_goal (e : FactEngine) (goal : Term) (facts : List Term) :
    Yields e (.search (.spawn (.ofList (answers goal facts)) (some "no")))
      (replies goal facts) := by
  refine yields_of_pulls fun n => ?_
  rw [serveAll_search, ← pulls_queue, ← solutions_eq, solutions, Queue.serveAll_eq,
    ← Queue.plan_ofSearch]
  exact Channel.serveAll_eq _ (.inl (Channel.live_spawn _ _))

end Streams

section Texts

variable {goal : Term} {facts : List Term} {texts : List String}

theorem renderBindings_one (name value : String) :
    renderBindings [(name, value)] = name ++ " = " ++ value := by
  simp [renderBindings]

theorem renderBindings_more (name value : String) (next : String × String) (rest : Bindings) :
    renderBindings ((name, value) :: next :: rest) =
      name ++ " = " ++ value ++ ", " ++ renderBindings (next :: rest) := by
  simp [renderBindings, String.append_assoc]

theorem spells_iff {bindings : Bindings} {text : String} :
    Spells bindings text ↔ renderBindings bindings = text := by
  constructor
  · intro h
    induction h with
    | yes => rfl
    | one name value => exact renderBindings_one name value
    | more name value _ ih => rw [renderBindings_more, ih]
  · rintro rfl
    induction bindings with
    | nil => exact .yes
    | cons binding rest ih =>
      obtain ⟨name, value⟩ := binding
      cases rest with
      | nil =>
        rw [renderBindings_one]
        exact .one name value
      | cons next rest =>
        rw [renderBindings_more]
        exact .more name value ih

theorem finds_iff : Finds goal facts texts ↔ answers goal facts = texts := by
  constructor
  · intro h
    induction h with
    | nil => rfl
    | hit hmatch _ _ htext _ ih => rw [Reader.answers_of_match hmatch, spells_iff.1 htext, ih]
    | miss hmatch _ _ ih => rw [Reader.answers_of_mismatch hmatch, ih]
  · rintro rfl
    induction facts with
    | nil => exact .nil
    | cons fact facts ih =>
      cases hmatch : goal.matchFact fact with
      | none =>
        rw [Reader.answers_of_mismatch hmatch]
        refine .miss hmatch (fun values hmakes => ?_) ih
        obtain ⟨bindings, hsome, -⟩ := hmakes.matchFact
        rw [hmatch] at hsome
        cases hsome
      | some bindings =>
        rw [Reader.answers_of_match hmatch]
        obtain ⟨values, hmakes, hlists, -⟩ := Term.exists_of_matchFact hmatch
        exact .hit hmatch hmakes hlists (spells_iff.2 rfl) ih

theorem replies_iff : Replies goal facts texts ↔ replies goal facts = texts := by
  unfold replies
  constructor
  · intro h
    cases h with
    | found h hne =>
      obtain rfl := finds_iff.1 h
      exact if_neg hne
    | no h => exact if_pos (finds_iff.1 h)
  · rintro rfl
    split
    · rename_i hnone
      exact .no (finds_iff.2 hnone)
    · rename_i hsome
      exact .found (finds_iff.2 rfl) hsome

end Texts

section Goals

variable {query : String} {goal : Term} {facts : List Term}

theorem solves_goal (h : Asks query goal) (e : FactEngine) (s : SessionState) :
    Solves query (replies goal e.facts) (e, s) (e, { s with query }) := by
  have hparse : Directive.parse query = .ok (.goal goal) := Directive.parse_eq_ok_iff.2 h
  refine ⟨_, ?_, yields_goal e goal e.facts⟩
  simp only [Engine.solve, FactEngine.solve, hparse, execute]

/-- A stream that is only pulled, however the turns fall, gives the answers to its goal. -/
theorem gives_makeAll {acts : List Exchange.Act} (hpulls : .request .abandon ∉ acts) (goal : Term)
    (facts : List Term) : Gives (replies goal facts) (Exchange.asked acts).length
      ((Exchange.opened goal facts).makeAll acts) := by
  have hasked : Exchange.asked acts = List.replicate (Exchange.asked acts).length .next := by
    refine List.eq_replicate_of_mem fun request hrequest => ?_
    obtain ⟨act, hact, hsome⟩ := List.mem_filterMap.1 hrequest
    cases act with
    | turn turn => cases hsome
    | request other =>
      cases hsome
      cases request with
      | next => rfl
      | abandon => exact absurd hact hpulls
  have hfollows := (Exchange.Follows.opened goal facts).makeAll acts
  rw [List.nil_append, solutions_eq] at hfollows
  have hprefix := hfollows.prefix_respond
  have hcomplete := hfollows.eq_respond
  rw [hasked] at hprefix hcomplete
  exact ⟨(respond_mark _ _) ▸ hprefix, fun hdone => (hcomplete hdone).trans (respond_mark _ _)⟩

theorem makeAll_turns (x : Exchange) (acts : List Exchange.Act) (turns : List Turn) :
    x.makeAll (acts ++ turns.map .turn) = (x.makeAll acts).run turns := by
  unfold Exchange.makeAll Exchange.run
  rw [List.foldl_append, List.foldl_map]
  rfl

theorem actsOn_opening (acts : List Exchange.Act) :
    Desk.actsOn 0 ((acts.map fun act => (Desk.Move.act 0 act, false)).map Prod.fst) = acts := by
  induction acts with
  | nil => rfl
  | cons act acts ih => exact congrArg (act :: ·) ih

theorem calls_opening (acts : List Exchange.Act) :
    Desk.calls ((acts.map fun act => (Desk.Move.act 0 act, false)).map Prod.fst) = [] := by
  induction acts with
  | nil => rfl
  | cons act acts ih => exact ih

/-- Over shared cells the stream of a goal does as if it had facts of its own, and the facts stay as
they are. -/
theorem run_opening (h : Asks query goal) (facts : List Term) (acts : List Exchange.Act) :
    ((SharedStore.start facts).run (opening query acts)).facts = facts ∧
      ∃ reader, ((SharedStore.start facts).run (opening query acts)).streams[0]? =
        some (reader, ((Exchange.opened goal facts).makeAll acts).withSearch Exchange.blind) := by
  have hparse : Directive.parse query = .ok (.goal goal) := Directive.parse_eq_ok_iff.2 h
  let d : Desk := { engine := { facts } }
  have htracked := (SharedStore.tracked_start d.engine d.state).run (opening query acts)
  constructor
  · have hengine := Desk.engine_run ((opening query acts).map Prod.fst) d
    have hcalls : Desk.calls ((opening query acts).map Prod.fst) = [.solve query] :=
      congrArg (FactEngine.Act.solve query :: ·) (calls_opening acts)
    have hsolve : performAll [.solve query] (d.engine, d.state) =
        (d.engine, { d.state with query }) := by
      change perform (d.engine, d.state) (.solve query) = _
      rw [perform_solve, hparse]
      rfl
    rw [hcalls, hsolve] at hengine
    exact htracked.facts.trans (congrArg (fun es => es.1.facts) hengine)
  · obtain ⟨x, hx, hisolated⟩ := Desk.isolated_run hparse d
      ((acts.map fun act => (Desk.Move.act 0 act, false)).map Prod.fst)
    have halone := hisolated.alone
    rw [show d.streams.length = 0 from rfl, actsOn_opening] at halone
    subst halone
    have hstreams := congrArg (·[0]?) htracked.views.streams
    have hdesk : (d.run ((opening query acts).map Prod.fst)).streams[0]? =
        some ((Exchange.opened goal facts).makeAll acts) := hx
    simp only [List.getElem?_map] at hstreams
    rw [hdesk, Option.map_some, Option.map_eq_some_iff] at hstreams
    obtain ⟨⟨reader, x⟩, hfound, rfl⟩ := hstreams
    exact ⟨reader, hfound⟩

/-- A goal has exactly the answers of the store: a text for each fact that matches, in the order of
the store, or else `no`, the final one marked as last. Neither solving nor pulling changes the store
or the halt flag. So it is over shared cells, too, however the turns of producer and consumer fall,
and if both have their turn again and again, every pull is answered. -/
theorem goal_answered_from_store (h : Asks query goal) (e : FactEngine) (s : SessionState) :
    ∃ texts, Replies goal e.facts texts ∧ Solves query texts (e, s) (e, { s with query }) ∧
      (∀ acts : List Exchange.Act, .request .abandon ∉ acts →
        ((SharedStore.start e.facts).run (opening query acts)).facts = e.facts ∧
        ∃ reader x, ((SharedStore.start e.facts).run (opening query acts)).streams[0]? =
          some (reader, x) ∧ Gives texts (Exchange.asked acts).length x) ∧
      ∀ (acts : List Exchange.Act) (schedule : Nat → Turn), Exchange.Fair schedule →
        ∃ n reader x, ((SharedStore.start e.facts).run
          (opening query (acts ++ (Exchange.turns schedule n).map .turn))).streams[0]? =
            some (reader, x) ∧ x.IsDone := by
  refine ⟨replies goal e.facts, replies_iff.2 rfl, solves_goal h e s,
    fun acts hpulls => ?_, fun acts schedule hfair => ?_⟩
  · obtain ⟨hfacts, reader, hstream⟩ := run_opening h e.facts acts
    obtain ⟨hbegun, hcomplete⟩ := gives_makeAll hpulls goal e.facts
    exact ⟨hfacts, reader, _, hstream, hbegun, hcomplete⟩
  · have hsound := ((Exchange.Follows.opened goal e.facts).makeAll acts).sound
    obtain ⟨n, hdone⟩ := Exchange.done_of_fair hsound hfair
    obtain ⟨-, reader, hstream⟩ :=
      run_opening h e.facts (acts ++ (Exchange.turns schedule n).map .turn)
    rw [makeAll_turns] at hstream
    exact ⟨n, reader, _, hstream, hdone⟩

/-- Two facts that match, one of them stored twice, around two that do not. -/
def likings : List Term :=
  [⟨"likes", [.atom "tom", .atom "it's", .atom "tom"]⟩, ⟨"likes", [.atom "tom"]⟩,
    ⟨"likes", [.atom "ann", .atom "tea", .atom "ann"]⟩,
    ⟨"likes", [.atom "ann", .atom "tea", .atom "bob"]⟩,
    ⟨"likes", [.atom "ann", .atom "tea", .atom "ann"]⟩]

theorem likings_answered :
    Asks "?- likes(X,\n _, X) .\n" ⟨"likes", [.var "X", .var "_", .var "X"]⟩ ∧
      Solves "?- likes(X,\n _, X) .\n" ["X = tom", "X = ann", "X = ann"]
        ({ facts := likings }, { halted := true })
        ({ facts := likings }, { query := "?- likes(X,\n _, X) .\n", halted := true }) := by
  have hparse : Directive.parse "?- likes(X,\n _, X) .\n" =
      .ok (.goal ⟨"likes", [.var "X", .var "_", .var "X"]⟩) := by decide +kernel
  have hasks : Asks "?- likes(X,\n _, X) .\n" ⟨"likes", [.var "X", .var "_", .var "X"]⟩ :=
    Directive.parse_eq_ok_iff.1 hparse
  obtain ⟨texts, hreplies, hsolves, -⟩ :=
    goal_answered_from_store hasks { facts := likings } { halted := true }
  have htexts : replies ⟨"likes", [.var "X", .var "_", .var "X"]⟩ likings =
      ["X = tom", "X = ann", "X = ann"] := by decide +kernel
  obtain rfl := htexts.symm.trans (replies_iff.1 hreplies)
  exact ⟨hasks, hsolves⟩

end Goals

end LogicConsole.FactEngine
