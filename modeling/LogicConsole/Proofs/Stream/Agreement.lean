import LogicConsole.Proofs.Stream.Plan
import LogicConsole.Stream.Exchange
/-! What the consumer is answered does not depend on the schedule. At any point of an exchange the
answers given and those the producer's plan still holds are all the answers, and no turn changes
them. -/
namespace LogicConsole

namespace Channel

/-- What the producer holds for the next pulls, as long as it is not dismissed. -/
def plan (c : Channel) : Plan :=
  match c.producer with
  | .opening => c.search.opening c.calls c.fallback
  | .checking pending | .searching pending => c.search.holding c.calls pending
  | .offering solution found =>
    Plan.cons (.ok (some solution)) (match found with
      | some text => c.search.holding c.calls text
      | none => Plan.nothing)
  | .exited => Plan.nothing
  | .panicked => Plan.cons (.error .producerLost) Plan.nothing

/-- A solution on offer is marked as last if no answer was found after it. -/
def Marked (c : Channel) : Prop :=
  ∀ solution found, c.producer = .offering solution found → solution.isLast = found.isNone

/-- The consumer has neither dismissed the producer nor seen its end. -/
structure Live (c : Channel) : Prop where
  marked : c.Marked
  cancelled : c.cancelled = false
  connected : c.connected = true
  joined : c.joined = false
  finished : c.finished = false

theorem live_spawn (search : Search) (fallback : Option String) : (spawn search fallback).Live :=
  ⟨(fun _ _ h => by cases h), rfl, rfl, rfl, rfl⟩

/-- The consumer has seen the producer's end. -/
structure Over (c : Channel) : Prop where
  connected : c.connected = false
  joined : c.joined = true
  finished : c.finished = true

/-- The producer has ended; if the consumer holds a solution, not by a panic. -/
def EndedWith (c : Channel) (solution : Option Solution) : Prop :=
  c.producer = .exited ∨ c.producer = .panicked ∧ solution = none

/-- A step of the producer changes nothing but its own position. -/
theorem advance_frame (c : Channel) :
    c.advance.search = c.search ∧ c.advance.fallback = c.fallback ∧
      c.advance.cancelled = c.cancelled ∧ c.advance.connected = c.connected ∧
      c.advance.joined = c.joined ∧ c.advance.finished = c.finished := by
  obtain ⟨search, fallback, calls, producer, cancelled, connected, joined, finished⟩ := c
  cases producer with
  | opening => cases h : search calls <;> simp [advance, h]
  | offering solution found => cases connected <;> simp [advance]
  | _ => simp [advance]

theorem Marked.advance {c : Channel} (h : c.Marked) : c.advance.Marked := by
  obtain ⟨search, fallback, calls, producer, cancelled, connected, joined, finished⟩ := c
  intro solution found hoffer
  cases producer with
  | opening =>
    cases hsearch : search calls with
    | exhausted =>
      cases fallback with
      | none => simp [Channel.advance, hsearch] at hoffer
      | some text =>
        simp only [Channel.advance, hsearch, Producer.offering.injEq] at hoffer
        obtain ⟨rfl, rfl⟩ := hoffer
        rfl
    | _ => simp [Channel.advance, hsearch] at hoffer
  | checking pending => cases cancelled <;> simp [Channel.advance] at hoffer
  | searching pending =>
    cases hsearch : search calls with
    | panics => simp [Channel.advance, hsearch] at hoffer
    | _ =>
      simp only [Channel.advance, hsearch, Producer.offering.injEq] at hoffer
      obtain ⟨rfl, rfl⟩ := hoffer
      rfl
  | offering solution' found' =>
    cases connected with
    | true => exact h solution found hoffer
    | false => simp [Channel.advance] at hoffer
  | exited => simp [Channel.advance] at hoffer
  | panicked => simp [Channel.advance] at hoffer

theorem Live.advance {c : Channel} (h : c.Live) : c.advance.Live := by
  obtain ⟨-, -, hcancelled, hconnected, hjoined, hfinished⟩ := advance_frame c
  exact ⟨h.marked.advance, hcancelled.trans h.cancelled, hconnected.trans h.connected,
    hjoined.trans h.joined, hfinished.trans h.finished⟩

theorem Over.advance {c : Channel} (h : c.Over) : c.advance.Over := by
  obtain ⟨-, -, -, hconnected, hjoined, hfinished⟩ := advance_frame c
  exact ⟨hconnected.trans h.connected, hjoined.trans h.joined, hfinished.trans h.finished⟩

theorem EndedWith.advance {c : Channel} {solution : Option Solution} (h : c.EndedWith solution) :
    c.advance = c := by
  rcases h with h | ⟨h, -⟩ <;> simp only [Channel.advance, h]

theorem EndedWith.hasEnded {c : Channel} {solution : Option Solution} (h : c.EndedWith solution) :
    c.hasEnded = true := by
  rcases h with h | ⟨h, -⟩ <;> simp [Channel.hasEnded, h]

/-- A producer that is not dismissed keeps to its plan. -/
theorem Live.plan_advance {c : Channel} (h : c.Live) : c.advance.plan = c.plan := by
  obtain ⟨search, fallback, calls, producer, cancelled, connected, joined, finished⟩ := c
  obtain ⟨-, hcancelled, hconnected, -, -⟩ := h
  cases hcancelled
  cases hconnected
  cases producer with
  | opening =>
    cases hsearch : search calls with
    | answer text => simp [Channel.advance, plan, Search.opening, hsearch]
    | exhausted => cases fallback <;> simp [Channel.advance, plan, Search.opening, hsearch]
    | panics => simp [Channel.advance, plan, Search.opening, hsearch]
  | checking pending => rfl
  | searching pending =>
    cases hsearch : search calls with
    | answer text =>
      simp [Channel.advance, plan, hsearch, Search.holding_of_answer hsearch]
    | exhausted =>
      simp [Channel.advance, plan, hsearch, Search.holding_of_exhausted hsearch]
    | panics =>
      simp [Channel.advance, plan, hsearch, Search.holding_of_panics hsearch]
  | offering solution found => rfl
  | exited => rfl
  | panicked => rfl

/-- The channel once the solution on offer has been taken. -/
theorem Live.take {c : Channel} (h : c.Live) (found : Option String) :
    { c with producer := .holding found }.Live := by
  refine ⟨fun solution found' hoffer => ?_, h.cancelled, h.connected, h.joined, h.finished⟩
  cases found <;> cases hoffer

theorem plan_take {c : Channel} {solution : Solution} {found : Option String}
    (h : c.producer = .offering solution found) :
    c.plan 0 = .ok (some solution) ∧ c.plan.tail = { c with producer := .holding found }.plan := by
  have hplan : c.plan =
      Plan.cons (.ok (some solution)) { c with producer := .holding found }.plan := by
    cases found <;> simp only [plan, h, Producer.holding]
  rw [hplan]
  exact ⟨rfl, rfl⟩

end Channel

namespace Exchange

def start (search : Search) (fallback : Option String) (requests : List Request) : Exchange :=
  { channel := .spawn search fallback, requests }

/-- What the consumer is to be answered from here on. -/
def future (x : Exchange) : List (Answer EngineError) :=
  match x.consumer with
  | .idle =>
    Plan.respond x.requests (if x.channel.finished then Plan.nothing else x.channel.plan)
  | .receiving => Plan.respond x.requests x.channel.plan
  | .closing solution | .joining solution =>
    (if x.channel.producer = .panicked then .error .producerLost else .ok solution) ::
      Plan.respond x.requests.tail Plan.nothing
  | .cancelling | .leaving | .parting => .ok none :: Plan.respond x.requests.tail Plan.nothing

/-- What is true of the channel and the requests wherever the consumer is. -/
def Sound (x : Exchange) : Prop :=
  match x.consumer with
  | .idle => x.channel.Live ∨ x.channel.Over
  | .receiving => x.channel.Live ∧ ∃ rest, x.requests = .next :: rest
  | .closing solution =>
    x.channel.Live ∧ x.channel.EndedWith solution ∧ ∃ rest, x.requests = .next :: rest
  | .joining solution =>
    x.channel.connected = false ∧ x.channel.finished = true ∧ x.channel.joined = false ∧
      x.channel.EndedWith solution ∧ ∃ rest, x.requests = .next :: rest
  | .cancelling => x.channel.Live ∧ ∃ rest, x.requests = .abandon :: rest
  | .leaving => x.channel.joined = false ∧ ∃ rest, x.requests = .abandon :: rest
  | .parting =>
    x.channel.connected = false ∧ x.channel.finished = true ∧ x.channel.joined = false ∧
      ∃ rest, x.requests = .abandon :: rest

variable {x : Exchange}

theorem sound_produce (h : x.Sound) :
    (x.take .producer).Sound ∧ (x.take .producer).future = x.future := by
  obtain ⟨c, consumer, requests, answers⟩ := x
  obtain ⟨-, -, hcancelled, hconnected, hjoined, hfinished⟩ := c.advance_frame
  cases consumer with
  | idle =>
    rcases h with h | h
    · refine ⟨.inl h.advance, ?_⟩
      simp only [take, future, hfinished, h.plan_advance]
    · refine ⟨.inr h.advance, ?_⟩
      have hover : c.finished = true := h.finished
      simp only [take, future, hfinished, hover, if_true]
  | receiving =>
    refine ⟨⟨h.1.advance, h.2⟩, ?_⟩
    simp only [take, future]
    rw [h.1.plan_advance]
  | closing solution =>
    have hrest : c.advance = c := h.2.1.advance
    simp only [take, hrest, and_true]
    exact h
  | joining solution =>
    have hrest : c.advance = c := h.2.2.2.1.advance
    simp only [take, hrest, and_true]
    exact h
  | cancelling => exact ⟨⟨h.1.advance, h.2⟩, rfl⟩
  | leaving => exact ⟨⟨hjoined.trans h.1, h.2⟩, rfl⟩
  | parting =>
    exact ⟨⟨hconnected.trans h.1, hfinished.trans h.2.1, hjoined.trans h.2.2.1, h.2.2.2⟩, rfl⟩

theorem sound_begin (hidle : x.consumer = .idle) (h : x.Sound) :
    x.begin.Sound ∧ x.begin.answers ++ x.begin.future = x.answers ++ x.future := by
  obtain ⟨c, consumer, requests, answers⟩ := x
  cases hidle
  cases requests with
  | nil => exact ⟨h, rfl⟩
  | cons request rest =>
    rcases h with h | h
    · have hlive : c.Live := h
      cases request with
      | next =>
        simp only [begin, hlive.finished, hlive.connected, if_true]
        refine ⟨⟨h, rest, rfl⟩, ?_⟩
        simp only [future, hlive.finished]
        rfl
      | abandon =>
        simp only [begin, hlive.joined, Bool.false_and]
        exact ⟨⟨h, rest, rfl⟩, rfl⟩
    · have hover : c.Over := h
      cases request with
      | next =>
        simp only [begin, hover.finished, if_true]
        refine ⟨.inr h, ?_⟩
        simp only [reply, future, hover.finished, if_true, List.tail_cons, Plan.respond,
          Plan.tail_nothing, List.append_assoc]
        rfl
      | abandon =>
        simp only [begin, hover.joined, hover.connected, Bool.not_false, Bool.and_true, if_true]
        refine ⟨.inr h, ?_⟩
        simp only [reply, future, hover.finished, if_true, List.tail_cons, Plan.respond,
          List.append_assoc]
        rfl

theorem sound_receive (hreceiving : x.consumer = .receiving) (h : x.Sound) :
    x.receive.Sound ∧ x.receive.answers ++ x.receive.future = x.answers ++ x.future := by
  obtain ⟨c, consumer, requests, answers⟩ := x
  cases hreceiving
  obtain ⟨hlive, rest, hrequests⟩ := h
  obtain rfl : requests = .next :: rest := hrequests
  have hfinished : c.finished = false := hlive.finished
  cases hproducer : c.producer with
  | offering solution found =>
    obtain ⟨hfirst, hplan⟩ := c.plan_take hproducer
    have hmarked := hlive.marked solution found hproducer
    cases hlast : solution.isLast with
    | false =>
      simp only [receive, hproducer, hlast, Bool.false_eq_true, if_false, reply, List.tail_cons]
      refine ⟨.inl (hlive.take found), ?_⟩
      simp only [future, Plan.respond, hfirst, hplan, hfinished, List.append_assoc]
      rfl
    | true =>
      cases found with
      | some text => simp [hlast] at hmarked
      | none =>
        simp only [receive, hproducer, hlast, if_true]
        refine ⟨⟨hlive.take none, .inl rfl, rest, rfl⟩, ?_⟩
        simp only [future, Plan.respond, hfirst, hplan, Producer.holding]
        rfl
  | exited =>
    simp only [receive, hproducer]
    refine ⟨⟨hlive, .inl hproducer, rest, rfl⟩, ?_⟩
    simp only [future, Plan.respond, Channel.plan, hproducer]
    rfl
  | panicked =>
    simp only [receive, hproducer]
    refine ⟨⟨hlive, .inr ⟨hproducer, rfl⟩, rest, rfl⟩, ?_⟩
    simp only [future, Plan.respond, Channel.plan, hproducer]
    rfl
  | _ =>
    simp only [receive, hproducer, and_true]
    exact ⟨hlive, rest, rfl⟩

/-- The answer to a request is due, and nothing comes after it. -/
theorem sound_reply {answer : Answer EngineError} (h : x.channel.Over) :
    (x.reply answer).Sound ∧ (x.reply answer).answers ++ (x.reply answer).future =
      x.answers ++ answer :: Plan.respond x.requests.tail Plan.nothing := by
  refine ⟨.inr h, ?_⟩
  simp only [reply, future, h.finished, if_true, List.append_assoc]
  rfl

theorem sound_consume (h : x.Sound) :
    x.consume.Sound ∧ x.consume.answers ++ x.consume.future = x.answers ++ x.future := by
  cases hconsumer : x.consumer with
  | idle =>
    simp only [consume, hconsumer]
    exact sound_begin hconsumer h
  | receiving =>
    simp only [consume, hconsumer]
    exact sound_receive hconsumer h
  | closing solution =>
    obtain ⟨c, consumer, requests, answers⟩ := x
    cases hconsumer
    exact ⟨⟨rfl, rfl, h.1.joined, h.2⟩, rfl⟩
  | joining solution =>
    obtain ⟨c, consumer, requests, answers⟩ := x
    cases hconsumer
    obtain ⟨hconnected, hfinished, hjoined, hended, -⟩ := h
    have hended' : c.hasEnded = true := hended.hasEnded
    have hjoined' : c.joined = false := hjoined
    have hanswer : c.join.1.map (fun _ => solution) =
        if c.producer = .panicked then .error .producerLost else .ok solution := by
      rcases hended with hproducer | ⟨hproducer, -⟩ <;>
        simp [Channel.join, hjoined', show c.producer = _ from hproducer, Except.map]
    have hover : c.join.2.Over := ⟨hconnected, rfl, hfinished⟩
    simp only [consume, hended', if_true]
    rw [hanswer]
    exact sound_reply (x := ⟨c.join.2, .joining solution, requests, answers⟩) hover
  | cancelling =>
    obtain ⟨c, consumer, requests, answers⟩ := x
    cases hconsumer
    exact ⟨⟨h.1.joined, h.2⟩, rfl⟩
  | leaving =>
    obtain ⟨c, consumer, requests, answers⟩ := x
    cases hconsumer
    exact ⟨⟨rfl, rfl, h.1, h.2⟩, rfl⟩
  | parting =>
    obtain ⟨c, consumer, requests, answers⟩ := x
    cases hconsumer
    cases hended : c.hasEnded with
    | false =>
      simp only [consume, hended]
      exact ⟨h, rfl⟩
    | true =>
      have hover : c.join.2.Over := ⟨h.1, rfl, h.2.1⟩
      simp only [consume, hended, if_true]
      exact sound_reply (x := ⟨c.join.2, .parting, requests, answers⟩) hover

/-- One turn of either changes nothing of what the consumer is answered. -/
theorem sound_take (turn : Turn) (h : x.Sound) :
    (x.take turn).Sound ∧
      (x.take turn).answers ++ (x.take turn).future = x.answers ++ x.future := by
  cases turn with
  | producer =>
    obtain ⟨hsound, hfuture⟩ := sound_produce h
    exact ⟨hsound, by rw [hfuture]; rfl⟩
  | consumer => exact sound_consume h

theorem sound_run (schedule : List Turn) (h : x.Sound) :
    (x.run schedule).Sound ∧
      (x.run schedule).answers ++ (x.run schedule).future = x.answers ++ x.future := by
  induction schedule generalizing x with
  | nil => exact ⟨h, rfl⟩
  | cons turn schedule ih =>
    obtain ⟨hsound, hanswers⟩ := sound_take turn h
    obtain ⟨hend, hrest⟩ := ih hsound
    exact ⟨hend, hrest.trans hanswers⟩

variable (search : Search) (fallback : Option String) (requests : List Request)

theorem sound_start : (start search fallback requests).Sound :=
  .inl (Channel.live_spawn search fallback)

/-- Whatever the schedule, the consumer is answered by the plan of the search. -/
theorem run_respond (schedule : List Turn) :
    ((start search fallback requests).run schedule).answers ++
        ((start search fallback requests).run schedule).future =
      Plan.respond requests (search.opening 0 fallback) :=
  (sound_run schedule (sound_start search fallback requests)).2

theorem answers_agree (schedule : List Turn) :
    ((start search fallback requests).run schedule).answers <+:
      Plan.respond requests (search.opening 0 fallback) :=
  ⟨_, run_respond search fallback requests schedule⟩

theorem Sound.future_of_done (h : x.Sound) (hdone : x.IsDone) : x.future = [] := by
  obtain ⟨c, consumer, requests, answers⟩ := x
  obtain rfl : requests = [] := hdone
  cases consumer with
  | idle => rfl
  | receiving => rfl
  | closing solution => obtain ⟨-, -, rest, hrest⟩ := h; cases hrest
  | joining solution => obtain ⟨-, -, -, -, rest, hrest⟩ := h; cases hrest
  | cancelling => obtain ⟨-, rest, hrest⟩ := h; cases hrest
  | leaving => obtain ⟨-, rest, hrest⟩ := h; cases hrest
  | parting => obtain ⟨-, -, -, rest, hrest⟩ := h; cases hrest

theorem answers_of_done (schedule : List Turn)
    (hdone : ((start search fallback requests).run schedule).IsDone) :
    ((start search fallback requests).run schedule).answers =
      Plan.respond requests (search.opening 0 fallback) := by
  have hrun := run_respond search fallback requests schedule
  have hsound := (sound_run schedule (sound_start search fallback requests)).1
  rwa [hsound.future_of_done hdone, List.append_nil] at hrun

end Exchange

end LogicConsole
