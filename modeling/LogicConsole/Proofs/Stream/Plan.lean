import LogicConsole.Stream.Channel
import LogicConsole.Stream.Ready
/-! Plans: what each pull of a sequence will be answered by, the pulls counted from the next one. A
plan is all that requests can tell of a sequence. A producer follows one plan from its start, at
whatever point of its work it is, until it is dismissed. -/
namespace LogicConsole

/-- What the next pulls are answered by. -/
abbrev Plan := Nat → Answer EngineError

namespace Plan

/-- Nothing more comes. -/
def nothing : Plan := fun _ => .ok none

def cons (answer : Answer EngineError) (rest : Plan) : Plan
  | 0 => answer
  | k + 1 => rest k

def tail (plan : Plan) : Plan := fun k => plan (k + 1)

@[simp] theorem tail_cons (answer : Answer EngineError) (rest : Plan) :
    (cons answer rest).tail = rest := rfl

@[simp] theorem tail_nothing : nothing.tail = nothing := rfl

/-- The solutions in a list, and nothing after them. -/
def ofList (solutions : List Solution) : Plan := fun k => .ok solutions[k]?

@[simp] theorem ofList_nil : ofList [] = nothing := by
  funext k
  simp [ofList, nothing]

theorem ofList_cons (solution : Solution) (rest : List Solution) :
    ofList (solution :: rest) = cons (.ok (some solution)) (ofList rest) := by
  funext k
  cases k <;> simp [ofList, cons]

/-- The answers to requests: a pull takes the next answer, and abandoning leaves nothing. -/
def respond : List Request → Plan → List (Answer EngineError)
  | [], _ => []
  | .next :: requests, plan => plan 0 :: respond requests plan.tail
  | .abandon :: requests, _ => .ok none :: respond requests nothing

/-- Until a request abandons the sequence, pulls are answered in their order. -/
theorem respond_of_pulls {requests : List Request} {k : Nat}
    (h : ∀ i, i ≤ k → requests[i]? = some .next) (plan : Plan) :
    (respond requests plan)[k]? = some (plan k) := by
  induction k generalizing requests plan with
  | zero =>
    cases requests with
    | nil => simpa using h 0 (Nat.le_refl 0)
    | cons request requests =>
      have hfirst := h 0 (Nat.le_refl 0)
      simp only [List.getElem?_cons_zero, Option.some.injEq] at hfirst
      subst hfirst
      rfl
  | succ k ih =>
    cases requests with
    | nil => simpa using h 0 (Nat.zero_le _)
    | cons request requests =>
      have hfirst := h 0 (Nat.zero_le _)
      simp only [List.getElem?_cons_zero, Option.some.injEq] at hfirst
      subst hfirst
      have hrest : ∀ i, i ≤ k → requests[i]? = some .next := fun i hi => by
        have := h (i + 1) (by omega)
        simpa using this
      exact ih hrest plan.tail

end Plan

namespace Search

/-- The plan of a producer that holds an answer, when call number `n` comes next. -/
def holding (search : Search) (n : Nat) (pending : String) : Plan
  | 0 =>
    match search n with
    | .answer _ => .ok (some ⟨pending, false⟩)
    | .exhausted => .ok (some (.last pending))
    | .panics => .error .producerLost
  | k + 1 =>
    match search n with
    | .answer text => holding search (n + 1) text k
    | .exhausted | .panics => .ok none

/-- The plan of a producer about to make its first call. -/
def opening (search : Search) (n : Nat) (fallback : Option String) : Plan :=
  match search n with
  | .answer text => search.holding (n + 1) text
  | .exhausted =>
    match fallback with
    | some text => Plan.cons (.ok (some (.last text))) Plan.nothing
    | none => Plan.nothing
  | .panics => Plan.cons (.error .producerLost) Plan.nothing

theorem holding_of_answer {search : Search} {n : Nat} {text : String}
    (h : search n = .answer text) (pending : String) :
    search.holding n pending =
      Plan.cons (.ok (some ⟨pending, false⟩)) (search.holding (n + 1) text) := by
  funext k
  cases k <;> simp [holding, h, Plan.cons]

theorem holding_of_exhausted {search : Search} {n : Nat} (h : search n = .exhausted)
    (pending : String) :
    search.holding n pending = Plan.cons (.ok (some (.last pending))) Plan.nothing := by
  funext k
  cases k <;> simp [holding, h, Plan.cons, Plan.nothing]

theorem holding_of_panics {search : Search} {n : Nat} (h : search n = .panics) (pending : String) :
    search.holding n pending = Plan.cons (.error .producerLost) Plan.nothing := by
  funext k
  cases k <;> simp [holding, h, Plan.cons, Plan.nothing]

/-- A search through a list comes upon its answers in order, the final one marked as last. -/
theorem holding_ofList {answers rest : List String} {n : Nat} (h : answers.drop n = rest)
    (pending : String) :
    (ofList answers).holding n pending = Plan.ofList (Queue.mark (pending :: rest)) := by
  induction rest generalizing n pending with
  | nil =>
    have hend : ofList answers n = .exhausted := by
      have : answers[n]? = none := by
        rw [List.getElem?_eq_none_iff]
        exact List.drop_eq_nil_iff.1 h
      simp only [ofList, this]
    rw [holding_of_exhausted hend, Queue.mark, Plan.ofList_cons, Plan.ofList_nil]
  | cons text rest ih =>
    have hget : answers[n]? = some text := by
      rw [← List.head?_drop, h, List.head?_cons]
    have hnext : ofList answers n = .answer text := by
      simp only [ofList, hget]
    have hdrop : answers.drop (n + 1) = rest := by
      rw [← List.tail_drop, h, List.tail_cons]
    rw [holding_of_answer hnext, ih hdrop]
    exact (Plan.ofList_cons _ _).symm

/-- A search that never runs out yields every answer, none of them marked as last. -/
theorem holding_unending {search : Search} {answer : Nat → String}
    (h : ∀ n, search n = .answer (answer n)) (n k : Nat) :
    search.holding (n + 1) (answer n) k = .ok (some ⟨answer (n + k), false⟩) := by
  induction k generalizing n with
  | zero => rw [holding_of_answer (h (n + 1))]; rfl
  | succ k ih =>
    rw [holding_of_answer (h (n + 1))]
    change search.holding (n + 1 + 1) (answer (n + 1)) k = _
    rw [ih, Nat.add_right_comm, Nat.add_assoc]

end Search

namespace Queue

/-- The queue of what a search through a list is to yield. -/
def ofSearch (answers : List String) (fallback : Option String) : Queue :=
  match answers, fallback with
  | [], some text => single text
  | [], none => empty
  | answers, _ => ofAnswers answers

/-- A queue answers requests by what it holds. -/
theorem serveAll_eq (requests : List Request) (q : Queue) :
    (SolutionStream.serveAll requests q).1 =
      (Plan.respond requests (Plan.ofList q.pending)).map (·.mapError SessionError.engine) := by
  induction requests generalizing q with
  | nil => rfl
  | cons request requests ih =>
    cases request with
    | next =>
      obtain ⟨pending⟩ := q
      cases pending with
      | nil =>
        have hrest := ih ⟨[]⟩
        change .ok none :: (SolutionStream.serveAll requests (Queue.mk [])).1 = _
        rw [hrest, Plan.ofList_nil]
        rfl
      | cons solution pending =>
        have hrest := ih ⟨pending⟩
        change .ok (some solution) :: (SolutionStream.serveAll requests (Queue.mk pending)).1 = _
        rw [hrest, Plan.ofList_cons]
        rfl
    | abandon =>
      have hrest := ih Queue.empty
      change .ok none :: (SolutionStream.serveAll requests Queue.empty).1 = _
      have hempty : Plan.ofList Queue.empty.pending = Plan.nothing := Plan.ofList_nil
      rw [hrest, hempty]
      rfl

theorem plan_ofSearch (answers : List String) (fallback : Option String) :
    (Search.ofList answers).opening 0 fallback =
      Plan.ofList (ofSearch answers fallback).pending := by
  cases answers with
  | nil =>
    cases fallback with
    | none => simp [Search.opening, Search.ofList, ofSearch, empty]
    | some text =>
      simp [Search.opening, Search.ofList, ofSearch, single, ofAnswers, mark, Plan.ofList_cons]
  | cons text rest =>
    have hstart : Search.ofList (text :: rest) 0 = .answer text := rfl
    simp only [Search.opening, hstart]
    exact Search.holding_ofList rfl text

end Queue

end LogicConsole
