import LogicConsole.Proofs.Stream.Fairness
/-! A channel is a queue. Whether producer and consumer run side by side under any schedule, or the
consumer lets the producer come to rest before each pull, the requests are answered as by a queue
that holds the answers of the search from the start. -/
namespace LogicConsole

namespace Channel

variable {c : Channel}

/-- What the next pulls are answered by, the producer dismissed or not. -/
def remaining (c : Channel) : Plan := if c.finished then Plan.nothing else c.plan

theorem Live.settle (h : c.Live) : c.settle.Live ∧ c.settle.plan = c.plan := by
  refine ⟨h.advance.advance.advance.advance, ?_⟩
  unfold Channel.settle
  rw [h.advance.advance.advance.plan_advance, h.advance.advance.plan_advance,
    h.advance.plan_advance, h.plan_advance]

theorem settle_frame (c : Channel) :
    c.settle.connected = c.connected ∧ c.settle.joined = c.joined ∧
      c.settle.finished = c.finished := by
  unfold settle
  obtain ⟨-, -, -, h₁, h₁', h₁''⟩ := c.advance_frame
  obtain ⟨-, -, -, h₂, h₂', h₂''⟩ := c.advance.advance_frame
  obtain ⟨-, -, -, h₃, h₃', h₃''⟩ := c.advance.advance.advance_frame
  obtain ⟨-, -, -, h₄, h₄', h₄''⟩ := c.advance.advance.advance.advance_frame
  exact ⟨by rw [h₄, h₃, h₂, h₁], by rw [h₄', h₃', h₂', h₁'], by rw [h₄'', h₃'', h₂'', h₁'']⟩

/-- A live producer at rest offers a solution or has ended. -/
theorem AtRest.cases (h : c.AtRest) :
    c.producer = .exited ∨ c.producer = .panicked ∨
      ∃ solution found, c.producer = .offering solution found := by
  rcases c.advance_cases with hmove | ⟨-, hended | ⟨-, hoffer⟩⟩
  · rw [show c.advance = c from h] at hmove
    omega
  · simp only [hasEnded, Bool.or_eq_true, beq_iff_eq] at hended
    rcases hended with hended | hended
    · exact .inl hended
    · exact .inr (.inl hended)
  · exact .inr (.inr hoffer)

/-- A pull from a producer at rest. -/
def collect (c : Channel) : Except EngineError (Option Solution) × Channel :=
  match c.producer, c.connected with
  | .offering solution found, true =>
    let c := { c with producer := .holding found }
    if solution.isLast then
      let (ended, c) := c.disconnect.settle.join
      (ended.map fun _ => some solution, c)
    else (.ok (some solution), c)
  | _, _ =>
    let (ended, c) := c.disconnect.settle.join
    (ended.map fun _ => none, c)

theorem Live.next_eq (h : c.Live) : c.next = c.settle.collect := by
  unfold next
  simp only [h.finished, h.connected, Bool.false_eq_true, if_false, if_true]
  rfl

/-- It takes what is next in the plan. -/
theorem collect_live (hlive : c.Live) (hrest : c.AtRest) :
    c.collect.1 = c.plan 0 ∧ (c.collect.2.Live ∨ c.collect.2.Over) ∧
      c.collect.2.remaining = c.plan.tail := by
  obtain ⟨search, fallback, calls, producer, cancelled, connected, joined, finished⟩ := c
  obtain rfl : cancelled = false := hlive.cancelled
  obtain rfl : connected = true := hlive.connected
  obtain rfl : joined = false := hlive.joined
  obtain rfl : finished = false := hlive.finished
  rcases hrest.cases with hproducer | hproducer | ⟨solution, found, hproducer⟩
  · obtain rfl : producer = .exited := hproducer
    exact ⟨rfl, .inr ⟨rfl, rfl, rfl⟩, rfl⟩
  · obtain rfl : producer = .panicked := hproducer
    exact ⟨rfl, .inr ⟨rfl, rfl, rfl⟩, rfl⟩
  · obtain rfl : producer = .offering solution found := hproducer
    have hmarked := hlive.marked solution found rfl
    have htaken := hlive.take found
    cases hlast : solution.isLast with
    | false =>
      cases found with
      | none => simp [hlast] at hmarked
      | some text =>
        simp only [collect, hlast, Bool.false_eq_true, if_false]
        exact ⟨rfl, .inl htaken, rfl⟩
    | true =>
      cases found with
      | some text => simp [hlast] at hmarked
      | none =>
        simp only [collect, hlast, if_true]
        exact ⟨rfl, .inr ⟨rfl, rfl, rfl⟩, rfl⟩

theorem next_live (h : c.Live) :
    c.next.1 = c.plan 0 ∧ (c.next.2.Live ∨ c.next.2.Over) ∧ c.next.2.remaining = c.plan.tail := by
  obtain ⟨hlive, hplan⟩ := h.settle
  rw [h.next_eq, ← hplan]
  exact collect_live hlive c.settle_atRest

theorem abandon_live (h : c.Live) : c.abandon.Over := by
  obtain ⟨hconnected, -, hfinished⟩ := settle_frame { c.disconnect with cancelled := true }
  simp only [abandon, h.joined, Bool.false_and, Bool.false_eq_true, if_false]
  exact ⟨hconnected, rfl, hfinished⟩

theorem Live.remaining_eq (h : c.Live) : c.remaining = c.plan := by
  simp only [remaining, h.finished, Bool.false_eq_true, if_false]

theorem Over.remaining_eq (h : c.Over) : c.remaining = Plan.nothing := by
  simp only [remaining, h.finished, if_true]

theorem Over.next_eq (h : c.Over) : c.next = (.ok none, c) := by
  simp only [next, h.finished, if_true]

theorem Over.abandon_eq (h : c.Over) : c.abandon = c := by
  simp [abandon, h.joined, h.connected]

/-- Whoever waits for the producer at every pull is answered by its plan. -/
theorem serveAll_eq (requests : List Request) (h : c.Live ∨ c.Over) :
    (SolutionStream.serveAll requests c).1 =
      (Plan.respond requests c.remaining).map (·.mapError SessionError.engine) := by
  induction requests generalizing c with
  | nil => rfl
  | cons request requests ih =>
    rcases h with h | h
    · cases request with
      | next =>
        obtain ⟨hanswer, hnext, htail⟩ := next_live h
        change c.next.1.mapError SessionError.engine ::
          (SolutionStream.serveAll requests c.next.2).1 = _
        rw [ih hnext, hanswer, htail, h.remaining_eq]
        rfl
      | abandon =>
        have hover := abandon_live h
        change .ok none :: (SolutionStream.serveAll requests c.abandon).1 = _
        rw [ih (.inr hover), hover.remaining_eq]
        rfl
    · have hrest := ih (.inr h)
      rw [h.remaining_eq] at hrest ⊢
      cases request with
      | next =>
        change c.next.1.mapError SessionError.engine ::
          (SolutionStream.serveAll requests c.next.2).1 = _
        rw [h.next_eq, hrest]
        rfl
      | abandon =>
        change .ok none :: (SolutionStream.serveAll requests c.abandon).1 = _
        rw [h.abandon_eq, hrest]
        rfl

end Channel

namespace Exchange

/-- A channel over a list of answers is a queue: whatever the schedule, the answers given are those
of the queue, all of them once a fair schedule has come to the end, and so are the answers of a
consumer that waits for the producer. From an unending search every pull yields the next answer. -/
theorem channel_refines_queue (fallback : Option String) (requests : List Request) :
    (∀ (answers : List String) (schedule : List Turn),
      ((start (.ofList answers) fallback requests).run schedule).answers.map
          (·.mapError SessionError.engine) <+:
        (SolutionStream.serveAll requests (Queue.ofSearch answers fallback)).1 ∧
      (((start (.ofList answers) fallback requests).run schedule).IsDone →
        ((start (.ofList answers) fallback requests).run schedule).answers.map
            (·.mapError SessionError.engine) =
          (SolutionStream.serveAll requests (Queue.ofSearch answers fallback)).1)) ∧
    (∀ answers : List String,
      (SolutionStream.serveAll requests (Channel.spawn (.ofList answers) fallback)).1 =
        (SolutionStream.serveAll requests (Queue.ofSearch answers fallback)).1) ∧
    (∀ (answer : Nat → String) (schedule : List Turn) (k : Nat) (given : Answer EngineError),
      (∀ i, i ≤ k → requests[i]? = some .next) →
      ((start (fun n => .answer (answer n)) fallback requests).run schedule).answers[k]? =
        some given → given = .ok (some ⟨answer k, false⟩)) ∧
    ∀ (search : Search) (schedule : Nat → Turn), Fair schedule →
      ∃ n, ((start search fallback requests).run (turns schedule n)).IsDone := by
  refine ⟨fun answers schedule => ⟨?_, fun hdone => ?_⟩, fun answers => ?_,
    fun answer schedule k given hpulls hgiven => ?_, fun search schedule hfair => ?_⟩
  · rw [Queue.serveAll_eq, ← Queue.plan_ofSearch]
    exact (answers_agree _ fallback requests schedule).map _
  · rw [Queue.serveAll_eq, ← Queue.plan_ofSearch,
      answers_of_done _ fallback requests schedule hdone]
  · rw [Queue.serveAll_eq, ← Queue.plan_ofSearch]
    exact Channel.serveAll_eq requests
      (.inl ⟨(fun _ _ h => by cases h), rfl, rfl, rfl, rfl⟩)
  · obtain ⟨rest, hrest⟩ := answers_agree (fun n => .answer (answer n)) fallback requests schedule
    have hplan : (Search.opening (fun n => .answer (answer n)) 0 fallback) k =
        .ok (some ⟨answer k, false⟩) := by
      have hunending : Search.holding (fun n => .answer (answer n)) 1 (answer 0) k =
          .ok (some ⟨answer (0 + k), false⟩) := Search.holding_unending (fun _ => rfl) 0 k
      rwa [Nat.zero_add k] at hunending
    have hk :=
      Plan.respond_of_pulls hpulls (Search.opening (fun n => .answer (answer n)) 0 fallback)
    rw [← hrest, List.getElem?_append_left (List.getElem?_eq_some_iff.1 hgiven).1, hgiven,
      hplan] at hk
    exact Option.some.inj hk
  · exact done_of_fair (sound_start search fallback requests) hfair

/-- Producer and consumer by turns. -/
def alternately : Nat → Turn := fun n => if n % 2 = 0 then .producer else .consumer

theorem fair_alternately : Fair alternately := by
  intro turn n
  cases turn with
  | producer => exact ⟨2 * n, by omega, by simp [alternately]⟩
  | consumer => exact ⟨2 * n + 1, by omega, by simp [alternately]⟩

theorem alternating_channel_refines_queue :
    ((start (.ofList ["X = 1", "X = 2"]) none [.next, .next]).run
        (turns alternately 20)).answers.map (·.mapError SessionError.engine) =
      (SolutionStream.serveAll [.next, .next] (Queue.ofAnswers ["X = 1", "X = 2"])).1 ∧
    ((start (fun n => .answer (String.ofList (List.replicate n '.'))) none [.next, .next]).run
        (turns alternately 20)).answers[1]? = some (.ok (some ⟨".", false⟩)) ∧
    ∃ n, ((start (fun _ => .panics) none [.next, .next]).run (turns alternately n)).IsDone := by
  obtain ⟨hqueue, -, hpulls, hends⟩ := channel_refines_queue none [.next, .next]
  refine ⟨(hqueue _ _).2 rfl, ?_, hends _ alternately fair_alternately⟩
  cases hgiven : ((start (fun n => .answer (String.ofList (List.replicate n '.'))) none
      [.next, .next]).run (turns alternately 20)).answers[1]? with
  | none => cases hgiven
  | some given =>
    have hboth : ∀ i, i ≤ 1 → [Request.next, .next][i]? = some .next := by decide
    rw [hpulls _ _ 1 given hboth hgiven]
    rfl

end Exchange

end LogicConsole
