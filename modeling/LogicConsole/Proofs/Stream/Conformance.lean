import LogicConsole.Proofs.Stream.Protocol
/-! Every sequence of the console keeps the protocol: queues, channels under any schedule, panicking
searches included, and the sequences of a scripted engine. Being abandoned is final for all of
them. -/
namespace LogicConsole

def SearchStep.answer? : SearchStep → Option String
  | .answer text => some text
  | .exhausted | .panics => none

namespace Search

variable {search : Search} {n : Nat} {text : String}

/-- The answers found from call number `n` on, until a call finds none. -/
def upcoming (search : Search) : Nat → Nat → Option String
  | n, 0 => (search n).answer?
  | n, k + 1 =>
    match search n with
    | .answer _ => search.upcoming (n + 1) k
    | .exhausted | .panics => none

theorem upcoming_zero (h : search n = .answer text) : search.upcoming n 0 = some text := by
  simp [upcoming, h, SearchStep.answer?]

theorem upcoming_succ (h : search n = .answer text) (k : Nat) :
    search.upcoming n (k + 1) = search.upcoming (n + 1) k := by
  simp only [upcoming, h]

/-- The answers of a sequence searched for; the fallback is the one answer of a search that has
none. -/
def offered (search : Search) (fallback : Option String) : Nat → Option String :=
  if search 0 = .exhausted then (fallback.toList[·]?) else search.upcoming 0

theorem holding_inOrder {k : Nat} {solution : Solution} (h : search n = .answer text)
    (hk : search.holding (n + 1) text k = .ok (some solution)) :
    search.upcoming n k = some solution.text := by
  induction k generalizing n text with
  | zero =>
    rw [upcoming_zero h]
    cases hnext : search (n + 1) with
    | panics => simp [holding, hnext] at hk
    | _ =>
      simp only [holding, hnext, Except.ok.injEq, Option.some.injEq] at hk
      subst hk
      rfl
  | succ k ih =>
    rw [upcoming_succ h]
    cases hnext : search (n + 1) with
    | answer next =>
      simp only [holding, hnext] at hk
      exact ih hnext hk
    | _ => simp [holding, hnext] at hk

theorem holding_closed {k m : Nat} (hm : k < m)
    (hcloses : Request.next.Closes (search.holding n text k)) :
    search.holding n text m = .ok none := by
  induction k generalizing n text m with
  | zero =>
    cases m with
    | zero => omega
    | succ m =>
      cases hnext : search n with
      | answer next => simp [holding, hnext, Request.Closes] at hcloses
      | _ => simp only [holding, hnext]
  | succ k ih =>
    cases m with
    | zero => omega
    | succ m =>
      cases hnext : search n with
      | answer next =>
        simp only [holding, hnext] at hcloses ⊢
        exact ih (by omega) hcloses
      | _ => simp only [holding, hnext]

/-- A search yields its answers in order, and nothing once it is exhausted or has panicked. -/
theorem orderly_opening (search : Search) (fallback : Option String) :
    (search.opening 0 fallback).Orderly (search.offered fallback) := by
  cases hfirst : search 0 with
  | answer text =>
    simp only [opening, hfirst, offered, reduceCtorEq, if_false]
    exact ⟨fun k solution => holding_inOrder hfirst,
      fun k hcloses m hm => holding_closed hm hcloses⟩
  | exhausted =>
    simp only [opening, hfirst, offered, if_true]
    cases fallback with
    | none => exact Plan.orderly_nothing _
    | some text => exact Plan.orderly_cons_nothing fun solution h => by cases h; rfl
  | panics =>
    simp only [opening, hfirst]
    exact Plan.orderly_cons_nothing fun solution h => by cases h

end Search

namespace SolutionStream

variable {τ : Type} [SolutionStream τ] {s : τ}

/-- No request gets anything out of the sequence, nor changes it. -/
def Spent (s : τ) : Prop := ∀ request, serve request s = (.ok none, s)

/-- Wherever the sequence is abandoned, it is spent. -/
def AbandonedForGood (s : τ) : Prop :=
  ∀ requests, Spent (serve .abandon (serveAll requests s).2).2

theorem Spent.serveAll_eq (h : Spent s) (requests : List Request) :
    (serveAll requests s).2 = s := by
  induction requests with
  | nil => rfl
  | cons request requests ih =>
    simp only [serveAll, h request]
    exact ih

/-- What requests were answered. -/
def log (requests : List Request) (s : τ) : List (Request × Answer SessionError) :=
  requests.zip (serveAll requests s).1

end SolutionStream

open SolutionStream

theorem Queue.abandonedForGood (q : Queue) : AbandonedForGood q := by
  intro requests request
  cases request <;> rfl

namespace Channel

variable {c : Channel}

theorem Over.spent (h : c.Over) : Spent c := by
  intro request
  cases request with
  | next =>
    change (c.next.1.mapError SessionError.engine, c.next.2) = _
    rw [h.next_eq]
    rfl
  | abandon =>
    change ((.ok none : Answer SessionError), c.abandon) = _
    rw [h.abandon_eq]

theorem live_or_over_serveAll (requests : List Request) (h : c.Live ∨ c.Over) :
    (serveAll requests c).2.Live ∨ (serveAll requests c).2.Over := by
  induction requests generalizing c with
  | nil => exact h
  | cons request requests ih =>
    rcases h with h | h
    · cases request with
      | next => exact ih (next_live h).2.1
      | abandon => exact ih (.inr (abandon_live h))
    · rw [h.spent.serveAll_eq]
      exact .inr h

theorem abandonedForGood (h : c.Live ∨ c.Over) : AbandonedForGood c := by
  intro requests
  rcases live_or_over_serveAll requests h with h | h
  · exact (abandon_live h).spent
  · rw [h.spent .abandon]
    exact h.spent

end Channel

/-- What the next pulls of a scripted sequence are answered by. -/
def ScriptedStream.plan (s : ScriptedStream) : Plan :=
  if s.ended then .nothing
  else .pendingThen
    (match s.failure with
      | some message => .cons (.error (.fault message)) .nothing
      | none => .nothing) s.pending

namespace ScriptedEngine

variable {e : ScriptedEngine} {s : ScriptedStream}

theorem spent_of_ended (h : s.ended = true) : Spent (e, s) := by
  intro request
  cases request with
  | next =>
    change e.next s = _
    simp only [next, h, if_true]
  | abandon =>
    change ((.ok none : Answer SessionError), e.abandon s) = _
    simp only [abandon, h, if_true]

theorem ended_abandon (e : ScriptedEngine) (s : ScriptedStream) : (e.abandon s).2.ended = true := by
  cases h : s.ended <;> simp [abandon, h]

theorem abandonedForGood (e : ScriptedEngine) (s : ScriptedStream) : AbandonedForGood (e, s) := by
  intro requests
  exact spent_of_ended (ended_abandon _ _)

theorem plan_of_ended (h : s.ended = true) : s.plan = .nothing := by
  simp only [ScriptedStream.plan, h, if_true]

/-- A pull takes what is next in the plan. -/
theorem next_plan (e : ScriptedEngine) (s : ScriptedStream) :
    (e.next s).1 = (s.plan 0).mapError SessionError.engine ∧
      (e.next s).2.2.plan = s.plan.tail := by
  obtain ⟨pending, failure, ended⟩ := s
  cases ended with
  | true => exact ⟨rfl, rfl⟩
  | false =>
    cases pending with
    | cons solution pending => exact ⟨rfl, rfl⟩
    | nil => cases failure <;> exact ⟨rfl, rfl⟩

theorem serveAll_eq (requests : List Request) (e : ScriptedEngine) (s : ScriptedStream) :
    (serveAll requests (e, s)).1 =
      (Plan.respond requests s.plan).map (·.mapError SessionError.engine) := by
  induction requests generalizing e s with
  | nil => rfl
  | cons request requests ih =>
    cases request with
    | next =>
      obtain ⟨hanswer, htail⟩ := next_plan e s
      change (e.next s).1 :: (serveAll requests (e.next s).2).1 = _
      rw [ih, hanswer, htail]
      rfl
    | abandon =>
      change .ok none :: (serveAll requests (e.abandon s)).1 = _
      rw [ih, plan_of_ended (ended_abandon e s)]
      rfl

/-- Some request abandons the sequence, and every pull before it was answered by a solution. -/
def leftEarly {ε : Type} : List (Request × Answer ε) → Bool
  | (.abandon, _) :: _ => true
  | (.next, .ok (some _)) :: rest => leftEarly rest
  | _ => false

/-- A sequence is counted as abandoned if it is before it has run dry or failed, and then once. -/
theorem abandoned_serveAll (requests : List Request) (e : ScriptedEngine) (s : ScriptedStream) :
    (serveAll requests (e, s)).2.1.abandoned =
      e.abandoned + if !s.ended && leftEarly (log requests (e, s)) then 1 else 0 := by
  cases hended : s.ended with
  | true =>
    rw [(spent_of_ended hended).serveAll_eq]
    rfl
  | false =>
    induction requests generalizing e s with
    | nil => rfl
    | cons request requests ih =>
      obtain ⟨pending, failure, ended⟩ := s
      obtain rfl : ended = false := hended
      cases request with
      | next =>
        cases pending with
        | cons solution pending => exact ih _ ⟨pending, failure, false⟩ rfl
        | nil =>
          have hspent := spent_of_ended (e := e) (s := ⟨[], none, true⟩) rfl
          have hdry : (serveAll requests (e, ScriptedStream.mk [] none true)).2.1.abandoned =
              e.abandoned := by rw [hspent.serveAll_eq]
          cases failure with
          | none => exact hdry
          | some message => exact hdry
      | abandon =>
        have hspent := spent_of_ended (e := { e with abandoned := e.abandoned + 1 })
          (s := ⟨[], failure, true⟩) rfl
        change (serveAll requests ({ e with abandoned := e.abandoned + 1 },
          ScriptedStream.mk [] failure true)).2.1.abandoned = _
        rw [hspent.serveAll_eq]
        rfl

end ScriptedEngine

/-- The answers of the sequence that a reply comes to. -/
def Reply.answered : Reply → List String
  | .answers texts | .failAfter texts _ => texts
  | .fault _ | .panic _ | .halt => []

/-- Whatever the reply, the sequence that comes of it is orderly. -/
theorem ScriptedEngine.orderly_solve {e e' : ScriptedEngine} {state state' : SessionState}
    {stream : ScriptedStream} (h : e.solve state = (.ok stream, e', state')) :
    stream.plan.Orderly ((e.replies.head?.getD defaultReply).answered[·]?) := by
  unfold solve at h
  cases hreply : e.replies.head?.getD defaultReply with
  | answers answers =>
    simp only [hreply, Prod.mk.injEq, Except.ok.injEq] at h
    obtain ⟨rfl, -⟩ := h
    change (Plan.pendingThen .nothing (Queue.mark answers)).Orderly _
    rw [Plan.pendingThen_nothing]
    exact Plan.orderly_mark answers
  | failAfter answers message =>
    simp only [hreply, Prod.mk.injEq, Except.ok.injEq] at h
    obtain ⟨rfl, -⟩ := h
    exact Plan.orderly_pendingThen (Plan.orderly_failure message) answers
  | halt =>
    simp only [hreply, Prod.mk.injEq, Except.ok.injEq] at h
    obtain ⟨rfl, -⟩ := h
    exact Plan.orderly_nothing _
  | _ => simp [hreply] at h

theorem Channel.advance_of_hasEnded {c : Channel} (h : c.hasEnded = true) : c.advance = c := by
  simp only [hasEnded, Bool.or_eq_true, beq_iff_eq] at h
  rcases h with h | h <;> simp only [advance, h]

namespace Exchange

variable {requests : List Request} {x : Exchange}

/-- The requests in hand are those not answered yet, and once one of them has abandoned the sequence
the consumer has seen the producer's end. -/
structure Abiding (requests : List Request) (x : Exchange) : Prop where
  open_eq : x.requests = requests.drop x.answers.length
  ended : x.channel.joined = true → x.channel.hasEnded = true
  parted : .abandon ∈ requests.take x.answers.length → x.consumer = .idle ∧ x.channel.Over

/-- A consumer in the middle of a request has not abandoned the sequence before. -/
theorem Abiding.not_parted (h : Abiding requests x) (hbusy : x.consumer ≠ .idle) :
    .abandon ∉ requests.take x.answers.length :=
  fun hparted => hbusy (h.parted hparted).1

theorem abiding_reply (answer : Answer EngineError)
    (hopen : x.requests = requests.drop x.answers.length)
    (hended : x.channel.joined = true → x.channel.hasEnded = true)
    (hover : .abandon ∈ requests.take (x.answers.length + 1) → x.channel.Over) :
    Abiding requests (x.reply answer) := by
  have hlength : (x.reply answer).answers.length = x.answers.length + 1 := by simp [reply]
  refine ⟨?_, hended, fun hparted => ⟨rfl, hover (hlength ▸ hparted)⟩⟩
  rw [hlength]
  simp only [reply, hopen, List.tail_drop]

theorem abiding_begin (hsound : x.Sound) (hidle : x.consumer = .idle) (h : Abiding requests x) :
    Abiding requests x.begin := by
  have hover : x.channel.Live ∨ x.channel.Over := by
    simpa only [Sound, hidle] using hsound
  cases hrequests : x.requests with
  | nil =>
    simp only [begin, hrequests]
    exact h
  | cons request rest =>
    have hopen := hrequests.symm.trans h.open_eq
    rcases hover with hlive | hover
    · have hnever : .abandon ∉ requests.take x.answers.length := fun hparted => by
        have hfinished := (h.parted hparted).2.finished
        rw [hlive.finished] at hfinished
        cases hfinished
      cases request with
      | next =>
        simp only [begin, hrequests, hlive.finished, hlive.connected, Bool.false_eq_true, if_false,
          if_true]
        exact ⟨hopen, h.ended, fun hparted => absurd hparted hnever⟩
      | abandon =>
        simp only [begin, hrequests, hlive.joined, Bool.false_and, Bool.false_eq_true, if_false]
        exact ⟨hopen, h.ended, fun hparted => absurd hparted hnever⟩
    · have hreply := abiding_reply (.ok none) h.open_eq h.ended fun _ => hover
      cases request with
      | next =>
        simp only [begin, hrequests, hover.finished, if_true]
        exact hreply
      | abandon =>
        simp only [begin, hrequests, hover.joined, hover.connected, Bool.not_false, Bool.and_true,
          if_true]
        exact hreply

theorem abiding_receive (hsound : x.Sound) (hreceiving : x.consumer = .receiving)
    (h : Abiding requests x) : Abiding requests x.receive := by
  have hnever := h.not_parted (by simp [hreceiving])
  obtain ⟨hlive, rest, hrequests⟩ : x.channel.Live ∧ ∃ rest, x.requests = .next :: rest := by
    simpa only [Sound, hreceiving] using hsound
  cases hproducer : x.channel.producer with
  | offering solution found =>
    cases hlast : solution.isLast with
    | true =>
      simp only [receive, hproducer, hlast, if_true]
      exact ⟨h.open_eq, fun hjoined => absurd hjoined (by simp [hlive.joined]),
        fun hparted => absurd hparted hnever⟩
    | false =>
      simp only [receive, hproducer, hlast, Bool.false_eq_true, if_false]
      refine abiding_reply (x := { x with channel := { x.channel with producer := _ } }) _ h.open_eq
        (fun hjoined => absurd hjoined (by simp [hlive.joined])) fun hparted => ?_
      -- The request answered here is a pull.
      have hnext : requests[x.answers.length]? = some .next := by
        rw [← List.head?_drop, ← h.open_eq, hrequests, List.head?_cons]
      rw [List.take_add_one, hnext] at hparted
      simp only [Option.toList_some, List.mem_append, List.mem_singleton, reduceCtorEq,
        or_false] at hparted
      exact absurd hparted hnever
  | exited | panicked =>
    simp only [receive, hproducer]
    exact ⟨h.open_eq, h.ended, fun hparted => absurd hparted hnever⟩
  | _ =>
    simp only [receive, hproducer]
    exact h

/-- Having seen the producer's end after giving up its own, the consumer answers and is done. -/
theorem abiding_joined (answer : Answer EngineError) (hconnected : x.channel.connected = false)
    (hfinished : x.channel.finished = true) (hended : x.channel.hasEnded = true)
    (h : Abiding requests x) :
    Abiding requests ({ x with channel := x.channel.join.2 }.reply answer) :=
  abiding_reply (x := { x with channel := x.channel.join.2 }) answer h.open_eq (fun _ => hended)
    fun _ => ⟨hconnected, rfl, hfinished⟩

theorem abiding_consume (hsound : x.Sound) (h : Abiding requests x) :
    Abiding requests x.consume := by
  cases hconsumer : x.consumer with
  | idle =>
    simp only [consume, hconsumer]
    exact abiding_begin hsound hconsumer h
  | receiving =>
    simp only [consume, hconsumer]
    exact abiding_receive hsound hconsumer h
  | joining solution =>
    simp only [Sound, hconsumer] at hsound
    simp only [consume, hconsumer]
    split
    · rename_i hended
      exact abiding_joined _ hsound.1 hsound.2.1 hended h
    · exact h
  | parting =>
    simp only [Sound, hconsumer] at hsound
    simp only [consume, hconsumer]
    split
    · rename_i hended
      exact abiding_joined _ hsound.1 hsound.2.1 hended h
    · exact h
  | closing solution | cancelling | leaving =>
    have hnever := h.not_parted (by simp [hconsumer])
    simp only [consume, hconsumer]
    exact ⟨h.open_eq, h.ended, fun hparted => absurd hparted hnever⟩

theorem abiding_take (turn : Turn) (hsound : x.Sound) (h : Abiding requests x) :
    Abiding requests (x.take turn) := by
  cases turn with
  | consumer => exact abiding_consume hsound h
  | producer =>
    refine ⟨h.open_eq, fun hjoined => ?_, fun hparted => ?_⟩
    · obtain ⟨-, -, -, -, hsame, -⟩ := x.channel.advance_frame
      have hended := h.ended (hsame.symm.trans hjoined)
      simp only [take, Channel.advance_of_hasEnded hended]
      exact hended
    · obtain ⟨hidle, hover⟩ := h.parted hparted
      exact ⟨hidle, hover.advance⟩

theorem abiding_run (schedule : List Turn) (hsound : x.Sound) (h : Abiding requests x) :
    Abiding requests (x.run schedule) := by
  induction schedule generalizing x with
  | nil => exact h
  | cons turn schedule ih => exact ih (sound_take turn hsound).1 (abiding_take turn hsound h)

/-- Who has seen the producer's end asks nothing of it, and it does nothing more. -/
theorem channel_run_of_over (schedule : List Turn) (hidle : x.consumer = .idle)
    (hover : x.channel.Over) (hended : x.channel.hasEnded = true) :
    (x.run schedule).channel = x.channel := by
  induction schedule generalizing x with
  | nil => rfl
  | cons turn schedule ih =>
    have hturn : (x.take turn).consumer = .idle ∧ (x.take turn).channel = x.channel := by
      cases turn with
      | producer => exact ⟨hidle, Channel.advance_of_hasEnded hended⟩
      | consumer =>
        simp only [take, consume, hidle, begin]
        split
        · exact ⟨hidle, rfl⟩
        · simp [hover.finished, reply]
        · simp [hover.joined, hover.connected, reply]
    rw [run_cons, ih hturn.1 (hturn.2 ▸ hover) (hturn.2 ▸ hended), hturn.2]

/-- Once an abandoning request has been answered, nothing changes the channel. -/
theorem channel_run_of_abandoned (search : Search) (fallback : Option String)
    (requests : List Request) (schedule more : List Turn)
    (h : .abandon ∈
      requests.take ((start search fallback requests).run schedule).answers.length) :
    (((start search fallback requests).run schedule).run more).channel =
      ((start search fallback requests).run schedule).channel := by
  have hstart : Abiding requests (start search fallback requests) :=
    ⟨rfl, (fun hjoined => by cases hjoined), fun hparted => by cases hparted⟩
  have habiding := abiding_run schedule (sound_start search fallback requests) hstart
  obtain ⟨hidle, hover⟩ := habiding.parted h
  exact channel_run_of_over more hidle hover (habiding.ended hover.joined)

end Exchange

theorem zip_prefix_zip {α β : Type} {ys zs : List β} (xs : List α) (h : ys <+: zs) :
    xs.zip ys <+: xs.zip zs := by
  obtain ⟨rest, rfl⟩ := h
  induction xs generalizing ys with
  | nil => exact List.nil_prefix
  | cons x xs ih =>
    cases ys with
    | nil => exact List.nil_prefix
    | cons y ys =>
      rw [List.cons_append, List.zip_cons_cons, List.zip_cons_cons, List.prefix_cons_inj]
      exact ih

/-- Every sequence keeps the protocol, whatever is asked of it, and is spent once it has been
abandoned: a queue of marked or unmarked solutions, a channel whose consumer waits for the producer,
one under any schedule, and a scripted sequence, which moreover is counted as abandoned once, and
only if it was abandoned before it had run dry or failed. -/
theorem streams_keep_protocol (requests : List Request) :
    (∀ answers : List String,
      KeepsProtocol (answers[·]?) (log requests (Queue.ofAnswers answers)) ∧
        AbandonedForGood (Queue.ofAnswers answers)) ∧
    (∀ answers : List String,
      KeepsProtocol (answers[·]?) (log requests (Queue.unmarked answers)) ∧
        AbandonedForGood (Queue.unmarked answers)) ∧
    (∀ (search : Search) (fallback : Option String),
      KeepsProtocol (search.offered fallback) (log requests (Channel.spawn search fallback)) ∧
        AbandonedForGood (Channel.spawn search fallback)) ∧
    (∀ (search : Search) (fallback : Option String) (schedule more : List Turn),
      KeepsProtocol (search.offered fallback) (requests.zip
        (((Exchange.start search fallback requests).run schedule).answers.map
          (·.mapError SessionError.engine))) ∧
      (.abandon ∈
          requests.take ((Exchange.start search fallback requests).run schedule).answers.length →
        (((Exchange.start search fallback requests).run schedule).run more).channel =
          ((Exchange.start search fallback requests).run schedule).channel)) ∧
    ∀ (e e' : ScriptedEngine) (state state' : SessionState) (stream : ScriptedStream),
      e.solve state = (.ok stream, e', state') →
      KeepsProtocol ((e.replies.head?.getD ScriptedEngine.defaultReply).answered[·]?)
        (log requests (e', stream)) ∧
      AbandonedForGood (e', stream) ∧
      (serveAll requests (e', stream)).2.1.abandoned = e'.abandoned +
        if !stream.ended && ScriptedEngine.leftEarly (log requests (e', stream)) then 1 else 0 := by
  refine ⟨fun answers => ⟨?_, Queue.abandonedForGood _⟩,
    fun answers => ⟨?_, Queue.abandonedForGood _⟩,
    fun search fallback => ?_, fun search fallback schedule more => ⟨?_, ?_⟩,
    fun e e' state state' stream hsolve => ⟨?_, ?_, ?_⟩⟩
  · unfold log
    rw [Queue.serveAll_eq]
    exact (Plan.orderly_mark answers).keepsProtocol requests
  · unfold log
    rw [Queue.serveAll_eq]
    exact (Plan.orderly_unmarked answers).keepsProtocol requests
  · have hlive : (Channel.spawn search fallback).Live :=
      ⟨(fun _ _ h => by cases h), rfl, rfl, rfl, rfl⟩
    refine ⟨?_, Channel.abandonedForGood (.inl hlive)⟩
    unfold log
    rw [Channel.serveAll_eq requests (.inl hlive)]
    exact (Search.orderly_opening search fallback).keepsProtocol requests
  · have hagree := (Exchange.answers_agree search fallback requests schedule).map
      (·.mapError SessionError.engine)
    exact .of_earlier (zip_prefix_zip requests hagree)
      ((Search.orderly_opening search fallback).keepsProtocol requests)
  · exact Exchange.channel_run_of_abandoned search fallback requests schedule more
  · unfold log
    rw [ScriptedEngine.serveAll_eq]
    exact (ScriptedEngine.orderly_solve hsolve).keepsProtocol requests
  · exact ScriptedEngine.abandonedForGood e' stream
  · exact ScriptedEngine.abandoned_serveAll requests e' stream

/-- A consumer that goes on asking a search that has panicked, and abandons it. -/
def panicking : Exchange :=
  (Exchange.start (fun n => if n < 2 then .answer "X = 1" else .panics) none
    [.next, .next, .next, .abandon]).run (Exchange.turns Exchange.alternately 40)

/-- A scripted sequence that is to fail after one answer is abandoned before it does, and abandoned
again. A search that panics after two answers keeps the second to itself. -/
theorem failing_streams_keep_protocol :
    (log [.next, .abandon, .next, .abandon] (({ queries := [""] } : ScriptedEngine),
        (⟨[⟨"X = 1", false⟩], some "worker died", false⟩ : ScriptedStream)) =
      [(.next, .ok (some ⟨"X = 1", false⟩)), (.abandon, .ok none), (.next, .ok none),
        (.abandon, .ok none)] ∧
    KeepsProtocol (["X = 1"][·]?) (log [.next, .abandon, .next, .abandon]
      (({ queries := [""] } : ScriptedEngine),
        (⟨[⟨"X = 1", false⟩], some "worker died", false⟩ : ScriptedStream))) ∧
    (serveAll [.next, .abandon, .next, .abandon] (({ queries := [""] } : ScriptedEngine),
      (⟨[⟨"X = 1", false⟩], some "worker died", false⟩ : ScriptedStream))).2.1.abandoned = 1) ∧
    panicking.answers = [.ok (some ⟨"X = 1", false⟩), .error .producerLost, .ok none, .ok none] ∧
    ∀ more, (panicking.run more).channel = panicking.channel := by
  obtain ⟨-, -, -, -, hscripted⟩ := streams_keep_protocol [.next, .abandon, .next, .abandon]
  obtain ⟨hkeeps, -, hcount⟩ := hscripted
    { replies := [.failAfter ["X = 1"] "worker died"] } { queries := [""] } {} {}
    ⟨[⟨"X = 1", false⟩], some "worker died", false⟩ rfl
  obtain ⟨-, -, -, hexchange, -⟩ := streams_keep_protocol [.next, .next, .next, .abandon]
  have hanswers : panicking.answers =
      [.ok (some ⟨"X = 1", false⟩), .error .producerLost, .ok none, .ok none] := rfl
  refine ⟨⟨rfl, hkeeps, hcount⟩, hanswers, fun more => ?_⟩
  refine (hexchange (fun n => if n < 2 then .answer "X = 1" else .panics) none
    (Exchange.turns Exchange.alternately 40) more).2 ?_
  change .abandon ∈ [Request.next, .next, .next, .abandon].take panicking.answers.length
  rw [hanswers]
  decide

end LogicConsole
