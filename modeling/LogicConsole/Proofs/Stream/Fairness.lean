import LogicConsole.Proofs.Stream.Agreement
/-! Every request is answered in the end. A turn that changes anything brings the exchange nearer to
its end, and as long as a request is open somebody's turn does, so that a fair schedule, which gives
both their turn again and again, gets there. -/
namespace LogicConsole

/-- Steps the producer may still take without the consumer's help. -/
def Producer.rank : Producer → Nat
  | .opening => 4
  | .checking _ => 3
  | .searching _ => 2
  | .offering _ _ => 1
  | .exited | .panicked => 0

def Consumer.rank : Consumer → Nat
  | .idle => 10
  | .receiving | .cancelling => 9
  | .closing _ | .leaving => 4
  | .joining _ | .parting => 3

theorem Producer.rank_holding (found : Option String) : (Producer.holding found).rank ≤ 3 := by
  cases found <;> simp [Producer.holding, Producer.rank]

/-- The producer moves on its own, unless it offers a solution that can be taken or has ended. -/
theorem Channel.advance_cases (c : Channel) :
    c.advance.producer.rank < c.producer.rank ∨
      c.advance = c ∧ (c.hasEnded = true ∨
        c.connected = true ∧ ∃ solution found, c.producer = .offering solution found) := by
  obtain ⟨search, fallback, calls, producer, cancelled, connected, joined, finished⟩ := c
  cases producer with
  | opening =>
    left
    cases hsearch : search calls with
    | exhausted => cases fallback <;> simp [advance, hsearch, Producer.rank]
    | _ => simp [advance, hsearch, Producer.rank]
  | checking pending =>
    left
    cases cancelled <;> simp [advance, Producer.rank]
  | searching pending =>
    left
    cases hsearch : search calls <;> simp [advance, hsearch, Producer.rank]
  | offering solution found =>
    cases connected with
    | true => exact .inr ⟨rfl, .inr ⟨rfl, solution, found, rfl⟩⟩
    | false =>
      left
      simp [advance, Producer.rank]
  | exited => exact .inr ⟨rfl, .inl rfl⟩
  | panicked => exact .inr ⟨rfl, .inl rfl⟩

namespace Exchange

/-- How far the exchange is from its end. -/
def rank (x : Exchange) : Nat :=
  20 * x.requests.length + x.consumer.rank + x.channel.producer.rank

variable {x : Exchange}

/-- An answer makes up for what it lets the producer do next. -/
theorem rank_reply (answer : Answer EngineError) (h : x.requests ≠ []) :
    (x.reply answer).rank + 10 = 20 * x.requests.length + x.channel.producer.rank := by
  obtain ⟨c, consumer, requests, answers⟩ := x
  cases requests with
  | nil => exact absurd rfl h
  | cons request rest =>
    simp only [rank, reply, List.tail_cons, List.length_cons, Consumer.rank]
    omega

theorem rank_begin (hidle : x.consumer = .idle) (h : x.requests ≠ []) : x.begin.rank < x.rank := by
  have hreply := rank_reply (.ok none) h
  have hrank : x.rank = 20 * x.requests.length + 10 + x.channel.producer.rank := by
    simp only [rank, hidle, Consumer.rank]
  obtain ⟨c, consumer, requests, answers⟩ := x
  obtain rfl : consumer = .idle := hidle
  cases requests with
  | nil => exact absurd rfl h
  | cons request rest =>
    cases request with
    | next =>
      simp only [begin]
      split
      · omega
      · split <;> simp [rank, Consumer.rank]
    | abandon =>
      simp only [begin]
      split
      · omega
      · simp [rank, Consumer.rank]

/-- A consumer that waits for a solution leaves the move to the producer. -/
theorem rank_receive (hreceiving : x.consumer = .receiving) (h : x.Sound) :
    x.receive.rank < x.rank ∨
      x.receive = x ∧ x.channel.advance.producer.rank < x.channel.producer.rank := by
  obtain ⟨c, consumer, requests, answers⟩ := x
  obtain rfl : consumer = .receiving := hreceiving
  obtain ⟨-, rest, hrequests⟩ := h
  obtain rfl : requests = .next :: rest := hrequests
  cases hproducer : c.producer with
  | offering solution found =>
    left
    have hfound := Producer.rank_holding found
    have hoffered : (Producer.offering solution found).rank = 1 := rfl
    cases hlast : solution.isLast with
    | false =>
      simp only [receive, hproducer, hlast, Bool.false_eq_true, if_false, reply, rank,
        Consumer.rank, hoffered, List.tail_cons, List.length_cons]
      omega
    | true =>
      simp only [receive, hproducer, hlast, if_true, rank, Consumer.rank, hoffered]
      omega
  | exited =>
    left
    simp [receive, hproducer, rank, Consumer.rank]
  | panicked =>
    left
    simp [receive, hproducer, rank, Consumer.rank]
  | _ =>
    right
    rcases c.advance_cases with hmove | ⟨-, hended | ⟨-, solution, found, hoffer⟩⟩
    · exact ⟨by simp [receive, hproducer], hproducer ▸ hmove⟩
    · simp [Channel.hasEnded, hproducer] at hended
    · rw [hproducer] at hoffer
      cases hoffer

theorem consume_cases (h : x.Sound) (hopen : ¬ x.IsDone) :
    x.consume.rank < x.rank ∨
      x.consume = x ∧ x.channel.advance.producer.rank < x.channel.producer.rank := by
  cases hconsumer : x.consumer with
  | idle =>
    simp only [consume, hconsumer]
    exact .inl (rank_begin hconsumer hopen)
  | receiving =>
    simp only [consume, hconsumer]
    exact rank_receive hconsumer h
  | closing solution =>
    left
    simp [consume, hconsumer, rank, Consumer.rank, Channel.disconnect]
  | joining solution =>
    left
    have hreply := rank_reply (x := { x with channel := x.channel.join.2 })
      (x.channel.join.1.map fun _ => solution) hopen
    obtain ⟨c, consumer, requests, answers⟩ := x
    obtain rfl : consumer = .joining solution := hconsumer
    have hended : c.hasEnded = true := h.2.2.2.1.hasEnded
    simp only [consume, hended, if_true]
    simp only [rank, Consumer.rank] at hreply ⊢
    have hproducer : c.join.2.producer = c.producer := rfl
    rw [hproducer] at hreply
    omega
  | cancelling =>
    left
    simp [consume, hconsumer, rank, Consumer.rank]
  | leaving =>
    left
    simp [consume, hconsumer, rank, Consumer.rank, Channel.disconnect]
  | parting =>
    have hreply := rank_reply (x := { x with channel := x.channel.join.2 }) (.ok none) hopen
    obtain ⟨c, consumer, requests, answers⟩ := x
    obtain rfl : consumer = .parting := hconsumer
    cases hended : c.hasEnded with
    | true =>
      left
      simp only [consume, hended, if_true]
      simp only [rank, Consumer.rank] at hreply ⊢
      have hproducer : c.join.2.producer = c.producer := rfl
      rw [hproducer] at hreply
      omega
    | false =>
      right
      refine ⟨by simp [consume, hended], ?_⟩
      rcases c.advance_cases with hmove | ⟨-, hended' | ⟨hconnected, -⟩⟩
      · exact hmove
      · rw [hended] at hended'
        cases hended'
      · have hdisconnected : c.connected = false := h.1
        rw [hdisconnected] at hconnected
        cases hconnected

/-- A turn changes nothing or brings the exchange nearer to its end. -/
theorem take_cases (turn : Turn) (h : x.Sound) (hopen : ¬ x.IsDone) :
    x.take turn = x ∨ (x.take turn).rank < x.rank := by
  cases turn with
  | producer =>
    rcases x.channel.advance_cases with hmove | ⟨hrest, -⟩
    · right
      simp only [take, rank]
      omega
    · left
      simp only [take, hrest]
  | consumer =>
    rcases consume_cases h hopen with hmove | ⟨hrest, -⟩
    · exact .inr hmove
    · exact .inl hrest

/-- While a request is open, somebody's turn brings the exchange nearer to its end. -/
theorem exists_take_lt (h : x.Sound) (hopen : ¬ x.IsDone) :
    ∃ turn, (x.take turn).rank < x.rank := by
  rcases consume_cases h hopen with hmove | ⟨-, hmove⟩
  · exact ⟨.consumer, hmove⟩
  · refine ⟨.producer, ?_⟩
    simp only [take, rank]
    omega

/-- The first turns of an unending schedule. -/
def turns (schedule : Nat → Turn) (n : Nat) : List Turn := (List.range n).map schedule

/-- Producer and consumer have their turn again and again. -/
def Fair (schedule : Nat → Turn) : Prop := ∀ turn n, ∃ m, n ≤ m ∧ schedule m = turn

theorem Fair.shift {schedule : Nat → Turn} (h : Fair schedule) (n : Nat) :
    Fair fun m => schedule (n + m) := by
  intro turn m
  obtain ⟨k, hle, hk⟩ := h turn (n + m)
  refine ⟨k - n, by omega, ?_⟩
  change schedule (n + (k - n)) = turn
  rw [Nat.add_sub_of_le (by omega), hk]

theorem run_turns_add (schedule : Nat → Turn) (n m : Nat) (x : Exchange) :
    x.run (turns schedule (n + m)) =
      (x.run (turns schedule n)).run (turns (fun k => schedule (n + k)) m) := by
  unfold run turns
  rw [List.range_add, List.map_append, List.foldl_append, List.map_map]
  rfl

/-- Until a turn that matters comes, nothing changes. -/
theorem exists_run_lt (h : x.Sound) (hopen : ¬ x.IsDone) {schedule : Nat → Turn} {m : Nat}
    (hturn : (x.take (schedule m)).rank < x.rank) :
    ∃ n, (x.run (turns schedule n)).rank < x.rank := by
  induction m generalizing schedule with
  | zero => exact ⟨1, hturn⟩
  | succ m ih =>
    rcases take_cases (schedule 0) h hopen with hsame | hmove
    · have hshift : (x.take (schedule (1 + m))).rank < x.rank := by
        rwa [Nat.add_comm]
      obtain ⟨n, hn⟩ := @ih (fun k => schedule (1 + k)) hshift
      refine ⟨1 + n, ?_⟩
      rw [run_turns_add]
      have hfirst : x.run (turns schedule 1) = x := hsame
      rwa [hfirst]
    · exact ⟨1, hmove⟩

theorem done_of_fair (h : x.Sound) {schedule : Nat → Turn} (hfair : Fair schedule) :
    ∃ n, (x.run (turns schedule n)).IsDone := by
  induction hrank : x.rank using Nat.strongRecOn generalizing x schedule with
  | _ rank ih =>
    by_cases hdone : x.IsDone
    · exact ⟨0, hdone⟩
    · obtain ⟨turn, hturn⟩ := exists_take_lt h hdone
      obtain ⟨m, -, rfl⟩ := hfair turn 0
      obtain ⟨n, hn⟩ := exists_run_lt h hdone hturn
      obtain ⟨k, hk⟩ := ih _ (hrank ▸ hn) (sound_run _ h).1 (hfair.shift n) rfl
      refine ⟨n + k, ?_⟩
      rwa [run_turns_add]

end Exchange

end LogicConsole
