import LogicConsole.Proofs.Stream.Refinement
/-!
A search that panics. Its last answer is never confirmed, so it is lost with the producer, and no
fallback takes its place. The consumer is told of the loss once, whenever the panic came about, and
not at all if it has abandoned the sequence before.
-/
namespace LogicConsole

/-- The search finds the answers, and the call after them panics. -/
structure Search.PanicsAfter (search : Search) (answers : List String) : Prop where
  finds (i : Nat) (text : String) (h : answers[i]? = some text) : search i = .answer text
  panics : search answers.length = .panics

namespace Plan

/-- The answers in a list, and nothing after them. -/
def ofAnswers (answers : List (Answer EngineError)) : Plan := answers.foldr cons nothing

/-- So often nothing. -/
def silence (n : Nat) : List (Answer EngineError) := List.replicate n (.ok none)

theorem silence_succ (n : Nat) : silence (n + 1) = .ok none :: silence n := List.replicate_succ

theorem respond_nothing (requests : List Request) :
    respond requests nothing = silence requests.length := by
  induction requests with
  | nil => rfl
  | cons request requests ih => cases request <;> exact congrArg (_ :: ·) ih

/-- Answers are taken from a list the same, however much nothing stands behind it. -/
theorem take_append_silence (answers : List (Answer EngineError)) {pulls n : Nat} (h : pulls ≤ n) :
    (answers ++ silence n).take pulls = (answers ++ silence pulls).take pulls := by
  have hmore : pulls - answers.length ≤ pulls := Nat.sub_le _ _
  simp only [silence, List.take_append, List.take_replicate, Nat.min_eq_left hmore,
    Nat.min_eq_left (Nat.le_trans hmore h)]

/-- Pulls take the listed answers one after the other. -/
theorem respond_ofAnswers (answers : List (Answer EngineError)) (pulls : Nat)
    (requests : List Request) :
    respond (List.replicate pulls .next ++ requests) (ofAnswers answers) =
      (answers ++ silence pulls).take pulls ++
        respond requests (ofAnswers (answers.drop pulls)) := by
  induction pulls generalizing answers with
  | zero => rfl
  | succ pulls ih =>
    rw [List.replicate_succ, List.cons_append, respond]
    cases answers with
    | nil =>
      have hrest := ih []
      have htail : (ofAnswers []).tail = ofAnswers [] := tail_nothing
      have hfirst : ofAnswers [] 0 = .ok none := rfl
      rw [htail, hfirst, hrest]
      simp [silence_succ]
    | cons answer answers =>
      have htail : (ofAnswers (answer :: answers)).tail = ofAnswers answers := tail_cons _ _
      have hfirst : ofAnswers (answer :: answers) 0 = answer := rfl
      rw [htail, hfirst, ih, List.cons_append, List.take_succ_cons, List.drop_succ_cons,
        take_append_silence answers (Nat.le_succ pulls), List.cons_append]

end Plan

namespace Search

/-- An answer is confirmed once the search has gone on behind it, so the last one is not. -/
def confirmed (answers : List String) : List (Answer EngineError) :=
  answers.dropLast.map fun text => .ok (some ⟨text, false⟩)

/-- All that is ever reported of a search that panics. -/
def reported (answers : List String) : List (Answer EngineError) :=
  confirmed answers ++ [.error .producerLost]

/-- The plan of a producer that holds an answer, the panic ahead of it. -/
theorem holding_panicking {search : Search} {rest : List String} {n : Nat}
    (hfinds : ∀ (i : Nat) (text : String), rest[i]? = some text → search (n + i) = .answer text)
    (hpanics : search (n + rest.length) = .panics) (pending : String) :
    search.holding n pending = Plan.ofAnswers (reported (pending :: rest)) := by
  induction rest generalizing n pending with
  | nil => exact holding_of_panics hpanics pending
  | cons text rest ih =>
    have hnext : search n = .answer text := hfinds 0 text rfl
    have hrest := ih (n := n + 1)
      (fun i text h => by rw [Nat.add_right_comm]; exact hfinds (i + 1) text h)
      (by rw [← hpanics, List.length_cons, Nat.add_right_comm, Nat.add_assoc]) text
    rw [holding_of_answer hnext, hrest]
    rfl

theorem PanicsAfter.opening {search : Search} {answers : List String}
    (h : search.PanicsAfter answers) (fallback : Option String) :
    search.opening 0 fallback = Plan.ofAnswers (reported answers) := by
  cases answers with
  | nil =>
    have hstart : search 0 = .panics := h.panics
    simp only [Search.opening, hstart]
    rfl
  | cons text rest =>
    have hstart : search 0 = .answer text := h.finds 0 text rfl
    simp only [Search.opening, hstart]
    refine holding_panicking (fun i text hi => ?_) ?_ text
    · rw [Nat.add_comm]
      exact h.finds (i + 1) text hi
    · rw [Nat.add_comm]
      exact h.panics

/-- What so many pulls from a search that panics are answered by. -/
def report (answers : List String) (pulls : Nat) : List (Answer EngineError) :=
  (reported answers ++ Plan.silence pulls).take pulls

end Search

namespace Exchange

/-- Whatever the schedule, the requests come to these answers, and to all of them where producer and
consumer have their turns again and again. So they do if the consumer waits for the producer. -/
structure AnsweredBy (search : Search) (fallback : Option String) (requests : List Request)
    (expected : List (Answer EngineError)) : Prop where
  begun (schedule : List Turn) :
    ((start search fallback requests).run schedule).answers <+: expected
  complete (schedule : List Turn) (h : ((start search fallback requests).run schedule).IsDone) :
    ((start search fallback requests).run schedule).answers = expected
  ends (schedule : Nat → Turn) (h : Fair schedule) :
    ∃ n, ((start search fallback requests).run (turns schedule n)).IsDone
  waiting : (SolutionStream.serveAll requests (Channel.spawn search fallback)).1 =
    expected.map (·.mapError SessionError.engine)

theorem answeredBy_respond (search : Search) (fallback : Option String)
    (requests : List Request) :
    AnsweredBy search fallback requests
      (Plan.respond requests (search.opening 0 fallback)) where
  begun schedule := answers_agree search fallback requests schedule
  complete schedule h := answers_of_done search fallback requests schedule h
  ends _ h := done_of_fair (sound_start search fallback requests) h
  waiting := Channel.serveAll_eq requests (.inl (Channel.live_spawn search fallback))

/-- Pulls from a search that panics come to the confirmed answers, none of them marked as last, then
to the loss of the producer, and then to nothing. A consumer that abandons the sequence somewhere on
the way, or drops it, is told of nothing more. -/
theorem panic_reported_once {search : Search} {answers : List String}
    (h : search.PanicsAfter answers) (fallback : Option String) (pulls : Nat) :
    AnsweredBy search fallback (List.replicate pulls .next) (Search.report answers pulls) ∧
      ∀ more, AnsweredBy search fallback (List.replicate pulls .next ++ .abandon :: more)
        (Search.report answers pulls ++ Plan.silence (more.length + 1)) := by
  constructor
  · have hpulls := Plan.respond_ofAnswers (Search.reported answers) pulls []
    rw [Plan.respond, List.append_nil, List.append_nil, ← h.opening fallback] at hpulls
    rw [Search.report, ← hpulls]
    exact answeredBy_respond search fallback _
  · intro more
    have hall := Plan.respond_ofAnswers (Search.reported answers) pulls (.abandon :: more)
    rw [Plan.respond, Plan.respond_nothing, ← h.opening fallback] at hall
    rw [Search.report, Plan.silence_succ, ← hall]
    exact answeredBy_respond search fallback _

/-- Two answers are found before the panic, the first of them confirmed. -/
theorem exploding_reported_once :
    ((start (fun n => if n < 2 then .answer "X = 1" else .panics) (some "no")
        [.next, .next, .next, .next]).run (turns alternately 40)).answers =
      [.ok (some ⟨"X = 1", false⟩), .error .producerLost, .ok none, .ok none] ∧
    ((start (fun n => if n < 2 then .answer "X = 1" else .panics) (some "no")
        [.next, .abandon, .next]).run (turns alternately 40)).answers =
      [.ok (some ⟨"X = 1", false⟩), .ok none, .ok none] ∧
    (SolutionStream.serveAll [.abandon, .next]
        (Channel.spawn (fun n => if n < 2 then .answer "X = 1" else .panics) (some "no"))).1 =
      [.ok none, .ok none] := by
  have hpanics : Search.PanicsAfter (fun n => if n < 2 then .answer "X = 1" else .panics)
      ["X = 1", "X = 1"] := by
    refine ⟨fun i text h => ?_, rfl⟩
    match i with
    | 0 => cases h; rfl
    | 1 => cases h; rfl
    | i + 2 => cases h
  have hdrained := (panic_reported_once hpanics (some "no") 4).1
  have habandoned := (panic_reported_once hpanics (some "no") 1).2 [.next]
  have hdropped := (panic_reported_once hpanics (some "no") 0).2 [.next]
  exact ⟨hdrained.complete (turns alternately 40) rfl,
    habandoned.complete (turns alternately 40) rfl, hdropped.waiting⟩

end Exchange

end LogicConsole
