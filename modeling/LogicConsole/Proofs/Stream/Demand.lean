import LogicConsole.Proofs.Stream.Fairness
/-! The producer searches on demand. Whatever the schedule, it is never more than two calls of its
search ahead of the solutions the consumer was given, and being dismissed lets it make no more. Nor
do the two ever wait for each other: who waits for the producer waits for one that moves on. -/
namespace LogicConsole

/-- Calls of the search that the producer may still make before it gives a solution away. -/
def Producer.allowance : Producer → Nat
  | .opening => 2
  | .checking _ | .searching _ => 1
  | .offering _ _ | .exited | .panicked => 0

theorem Producer.allowance_holding (found : Option String) :
    (Producer.holding found).allowance ≤ 1 := by
  cases found <;> simp [Producer.holding, Producer.allowance]

/-- A call of the search is paid for out of the producer's allowance. -/
theorem Channel.allowance_advance (c : Channel) :
    c.advance.calls + c.advance.producer.allowance ≤ c.calls + c.producer.allowance := by
  obtain ⟨search, fallback, calls, producer, cancelled, connected, joined, finished⟩ := c
  cases producer with
  | opening =>
    cases hsearch : search calls with
    | exhausted => cases fallback <;> simp [advance, hsearch, Producer.allowance]
    | _ => simp [advance, hsearch, Producer.allowance]
  | checking pending => cases cancelled <;> simp [advance, Producer.allowance]
  | searching pending =>
    cases hsearch : search calls <;> simp [advance, hsearch, Producer.allowance]
  | offering solution found => cases connected <;> simp [advance, Producer.allowance]
  | exited => simp [advance]
  | panicked => simp [advance]

/-- Is the answer a solution? -/
def Answer.isSolution {ε : Type} : Answer ε → Bool
  | .ok (some _) => true
  | _ => false

/-- A consumer that can do nothing before the producer does something. -/
def Consumer.Waits : Consumer → Prop
  | .receiving | .joining _ | .parting => True
  | .idle | .closing _ | .cancelling | .leaving => False

namespace Exchange

/-- Solutions the consumer was given. One it still closes the channel for is not among them yet. -/
def given (x : Exchange) : Nat := x.answers.countP Answer.isSolution

/-- The calls made and those still allowed are at most two more than the solutions given. -/
def OnDemand (x : Exchange) : Prop :=
  x.channel.calls + x.channel.producer.allowance ≤ x.given + 2

/-- The producer can go on: by a step of its own, or by handing its solution to a consumer that is
there to receive it. -/
inductive ProducerMoves (x : Exchange) : Prop
  | alone (h : x.channel.advance.producer ≠ x.channel.producer)
  | handsOver {solution : Solution} {found : Option String}
    (hoffer : x.channel.producer = .offering solution found) (hreceiving : x.consumer = .receiving)

variable {x : Exchange}

theorem given_le_reply (answer : Answer EngineError) (x : Exchange) :
    x.given ≤ (x.reply answer).given := by
  simp [given, reply]

theorem OnDemand.reply (h : x.OnDemand) (answer : Answer EngineError) :
    (x.reply answer).OnDemand := by
  have hgiven := given_le_reply answer x
  exact Nat.le_trans h (by omega)

theorem onDemand_begin (h : x.OnDemand) : x.begin.OnDemand := by
  have hreply := h.reply (.ok none)
  obtain ⟨c, consumer, requests, answers⟩ := x
  cases requests with
  | nil => exact h
  | cons request rest =>
    cases request with
    | next =>
      simp only [begin]
      split
      · exact hreply
      · exact h
    | abandon =>
      simp only [begin]
      split
      · exact hreply
      · exact h

/-- Taking a solution that is not the last lets the producer look one answer further. -/
theorem onDemand_receive (hreceiving : x.consumer = .receiving) (hsound : x.Sound)
    (h : x.OnDemand) : x.receive.OnDemand := by
  obtain ⟨c, consumer, requests, answers⟩ := x
  obtain rfl : consumer = .receiving := hreceiving
  have hlive : c.Live := hsound.1
  have hcalls : c.calls + c.producer.allowance ≤ answers.countP Answer.isSolution + 2 := h
  cases hproducer : c.producer with
  | offering solution found =>
    have hmarked := hlive.marked solution found hproducer
    rw [hproducer] at hcalls
    simp only [Producer.allowance] at hcalls
    cases hlast : solution.isLast with
    | false =>
      have hfound := Producer.allowance_holding found
      have hsolution : Answer.isSolution (.ok (some solution) : Answer EngineError) = true := rfl
      simp only [receive, hproducer, hlast, Bool.false_eq_true, if_false]
      simp only [OnDemand, given, reply, List.countP_append, List.countP_singleton, hsolution,
        if_true]
      omega
    | true =>
      -- Nothing was found behind it, so the producer has exited.
      cases found with
      | some text => simp [hlast] at hmarked
      | none =>
        simp only [receive, hproducer, hlast, if_true]
        simp only [OnDemand, given, Producer.holding, Producer.allowance]
        omega
  | _ =>
    simp only [receive, hproducer]
    exact h

theorem onDemand_consume (hsound : x.Sound) (h : x.OnDemand) : x.consume.OnDemand := by
  cases hconsumer : x.consumer with
  | idle =>
    simp only [consume, hconsumer]
    exact onDemand_begin h
  | receiving =>
    simp only [consume, hconsumer]
    exact onDemand_receive hconsumer hsound h
  | joining solution =>
    simp only [consume, hconsumer]
    split
    · exact OnDemand.reply h _
    · exact h
  | parting =>
    simp only [consume, hconsumer]
    split
    · exact OnDemand.reply h _
    · exact h
  | closing solution =>
    simp only [consume, hconsumer]
    exact h
  | cancelling =>
    simp only [consume, hconsumer]
    exact h
  | leaving =>
    simp only [consume, hconsumer]
    exact h

theorem onDemand_take (turn : Turn) (hsound : x.Sound) (h : x.OnDemand) :
    (x.take turn).OnDemand := by
  cases turn with
  | producer => exact Nat.le_trans x.channel.allowance_advance h
  | consumer => exact onDemand_consume hsound h

theorem onDemand_run (schedule : List Turn) (hsound : x.Sound) (h : x.OnDemand) :
    (x.run schedule).OnDemand := by
  induction schedule generalizing x with
  | nil => exact h
  | cons turn schedule ih => exact ih (sound_take turn hsound).1 (onDemand_take turn hsound h)

theorem moves_of_rank (h : x.channel.advance.producer.rank < x.channel.producer.rank) :
    x.ProducerMoves := by
  refine .alone fun hsame => ?_
  rw [hsame] at h
  omega

/-- A consumer that waits is not left waiting: the producer has ended or moves. -/
theorem moves_of_waits (hsound : x.Sound) (hwaits : x.consumer.Waits) :
    x.channel.hasEnded = true ∨ x.ProducerMoves := by
  rcases x.channel.advance_cases with hmove | ⟨-, hended | ⟨hconnected, solution, found, hoffer⟩⟩
  · exact .inr (moves_of_rank hmove)
  · exact .inl hended
  · -- The producer offers a solution that can still be taken, so the consumer is there to take it.
    cases hconsumer : x.consumer with
    | receiving => exact .inr (.handsOver hoffer hconsumer)
    | joining solution =>
      have hdisconnected : x.channel.connected = false := by
        simp only [Sound, hconsumer] at hsound
        exact hsound.1
      rw [hdisconnected] at hconnected
      cases hconnected
    | parting =>
      have hdisconnected : x.channel.connected = false := by
        simp only [Sound, hconsumer] at hsound
        exact hsound.1
      rw [hdisconnected] at hconnected
      cases hconnected
    | _ =>
      rw [hconsumer] at hwaits
      exact hwaits.elim

theorem not_isStuck (hsound : x.Sound) (hopen : ¬ x.IsDone) : ¬ x.IsStuck := by
  obtain ⟨turn, hturn⟩ := exists_take_lt hsound hopen
  intro hstuck
  rw [hstuck turn] at hturn
  omega

/-- In every state that producer and consumer come to, the search has been called at most twice more
often than the consumer was given a solution, the requests made so far dismissing the producer or
not. A consumer that waits has a producer that has ended or goes on, and as long as a request is
open somebody's turn changes something. -/
theorem searches_on_demand (search : Search) (fallback : Option String) (requests : List Request)
    (schedule : List Turn) :
    ((start search fallback requests).run schedule).channel.calls ≤
        ((start search fallback requests).run schedule).given + 2 ∧
      (((start search fallback requests).run schedule).consumer.Waits →
        ((start search fallback requests).run schedule).channel.hasEnded = true ∨
          ((start search fallback requests).run schedule).ProducerMoves) ∧
      (¬ ((start search fallback requests).run schedule).IsDone →
        ¬ ((start search fallback requests).run schedule).IsStuck) := by
  have hstart := sound_start search fallback requests
  have hsound := (sound_run schedule hstart).1
  have hbegin : (start search fallback requests).OnDemand := Nat.le_refl 2
  have hdemand := onDemand_run schedule hstart hbegin
  refine ⟨?_, moves_of_waits hsound, not_isStuck hsound⟩
  unfold OnDemand at hdemand
  omega

/-- The consumer has taken one of unendingly many answers and dismisses the producer, which has
looked ahead meanwhile and offers the next one. -/
def dismissing : Exchange :=
  (start (fun _ => .answer "X = 1") none [.next, .abandon]).run
    [.consumer, .producer, .producer, .producer, .consumer, .producer, .producer, .consumer,
      .consumer, .consumer]

theorem dismissing_on_demand :
    dismissing.channel.calls = 3 ∧ dismissing.given = 1 ∧
      dismissing.channel.calls ≤ dismissing.given + 2 ∧ dismissing.consumer = .parting ∧
      (dismissing.channel.hasEnded = true ∨ dismissing.ProducerMoves) ∧
      ¬ dismissing.IsDone ∧ ¬ dismissing.IsStuck := by
  obtain ⟨hcalls, hwaits, hopen⟩ := searches_on_demand (fun _ => .answer "X = 1") none
    [.next, .abandon] [.consumer, .producer, .producer, .producer, .consumer, .producer, .producer,
      .consumer, .consumer, .consumer]
  exact ⟨rfl, rfl, hcalls, rfl, hwaits trivial, List.cons_ne_nil _ _, hopen (List.cons_ne_nil _ _)⟩

end Exchange

end LogicConsole
