import LogicConsole.Engine.Scripted
import LogicConsole.Proofs.Stream.Refinement
/-! The protocol of sequences, whoever produces them. Solutions come in the order of the answers
they are made from, and a sequence is closed by a solution marked as last, by running dry, by a
failure or by being abandoned: nothing comes of any request after that. -/
namespace LogicConsole

/-- Nothing more is to come once the request has been answered so. -/
def Request.Closes {ε : Type} : Request → Answer ε → Prop
  | .next, .ok (some solution) => solution.isLast = true
  | .next, .ok none | .next, .error _ | .abandon, _ => True

def Answer.solution? {ε : Type} : Answer ε → Option Solution
  | .ok solution => solution
  | .error _ => none

def Answer.isError {ε : Type} : Answer ε → Bool
  | .ok _ => false
  | .error _ => true

/-- The solutions among what requests were answered. -/
def solutionsIn {ε : Type} (log : List (Request × Answer ε)) : List Solution :=
  log.filterMap fun served => Answer.solution? served.2

/-- What requests were answered, by a sequence of which `offered` tells the answers. -/
structure KeepsProtocol {ε : Type} (offered : Nat → Option String)
    (log : List (Request × Answer ε)) : Prop where
  inOrder : ∀ i solution, (solutionsIn log)[i]? = some solution → offered i = some solution.text
  lastOnce : (solutionsIn log).countP Solution.isLast ≤ 1
  failsOnce : log.countP (fun served => Answer.isError served.2) ≤ 1
  closed : log.Pairwise fun earlier later => earlier.1.Closes earlier.2 → later.2 = .ok none
  dismissed : ∀ answer, (.abandon, answer) ∈ log → answer = .ok none

theorem countP_le_one {α : Type} {p : α → Bool} {xs : List α}
    (h : xs.Pairwise fun x y => p x = true → p y = false) : xs.countP p ≤ 1 := by
  induction h with
  | nil => simp
  | @cons x xs hx _ ih =>
    cases hp : p x with
    | false =>
      rw [List.countP_cons_of_neg (by simp [hp])]
      exact ih
    | true =>
      have hnone : xs.countP p = 0 := List.countP_eq_zero.2 fun y hy => by simp [hx y hy hp]
      simp [List.countP_cons_of_pos hp, hnone]

namespace KeepsProtocol

variable {ε : Type} {offered : Nat → Option String} {log : List (Request × Answer ε)}

/-- A failure and a solution marked as last close the sequence, so there is one of each at most. -/
theorem of_closed
    (inOrder : ∀ i solution, (solutionsIn log)[i]? = some solution → offered i = some solution.text)
    (closed : log.Pairwise fun earlier later => earlier.1.Closes earlier.2 → later.2 = .ok none)
    (dismissed : ∀ answer, (.abandon, answer) ∈ log → answer = .ok none) :
    KeepsProtocol offered log := by
  refine ⟨inOrder, ?_, ?_, closed, dismissed⟩
  · unfold solutionsIn
    rw [List.countP_filterMap]
    refine countP_le_one (closed.imp fun {earlier later} hclosed hlast => ?_)
    obtain ⟨request, answer⟩ := earlier
    have hcloses : request.Closes answer := by
      cases request with
      | abandon => trivial
      | next =>
        match answer, hlast with
        | .ok (some solution), hlast => simpa [Request.Closes, Answer.solution?] using hlast
        | .ok none, _ => trivial
        | .error _, _ => trivial
    simp [hclosed hcloses, Answer.solution?]
  · refine countP_le_one (closed.imp fun {earlier later} hclosed herror => ?_)
    obtain ⟨request, answer⟩ := earlier
    have hcloses : request.Closes answer := by
      cases answer with
      | ok solution => simp [Answer.isError] at herror
      | error e => cases request <;> trivial
    simp [hclosed hcloses, Answer.isError]

/-- The protocol holds of what has happened so far. -/
theorem of_earlier {earlier : List (Request × Answer ε)} (hearlier : earlier <+: log)
    (h : KeepsProtocol offered log) : KeepsProtocol offered earlier := by
  refine of_closed (fun i solution hsolution => h.inOrder i solution ?_)
    (h.closed.sublist hearlier.sublist) fun answer hmem => h.dismissed answer (hearlier.subset hmem)
  obtain ⟨later, rfl⟩ := hearlier
  have hlt := (List.getElem?_eq_some_iff.1 hsolution).1
  unfold solutionsIn at hsolution hlt ⊢
  rwa [List.filterMap_append, List.getElem?_append_left hlt]

/-- Only silence follows an answer that may have closed the sequence. -/
theorem cons_silent {request : Request} {answer : Answer ε}
    (hsilent : ∀ served ∈ log, served.2 = .ok none)
    (hanswer : ∀ solution, answer = .ok (some solution) → offered 0 = some solution.text)
    (hdismissed : request = .abandon → answer = .ok none) :
    KeepsProtocol offered ((request, answer) :: log) := by
  have hnone : solutionsIn log = [] := by
    refine List.filterMap_eq_nil_iff.2 fun served hserved => ?_
    simp [hsilent served hserved, Answer.solution?]
  refine of_closed (fun i solution hsolution => ?_) ?_ fun answer' hmem => ?_
  · unfold solutionsIn at hsolution hnone
    rw [List.filterMap_cons, hnone] at hsolution
    cases answer with
    | error e => simp [Answer.solution?] at hsolution
    | ok given =>
      cases given with
      | none => simp [Answer.solution?] at hsolution
      | some given =>
        cases i with
        | zero =>
          simp only [Answer.solution?, List.getElem?_cons_zero, Option.some.injEq] at hsolution
          exact hanswer solution (by rw [hsolution])
        | succ i => simp [Answer.solution?] at hsolution
  · refine .cons (fun later hlater _ => hsilent later hlater) ?_
    exact List.pairwise_of_forall_mem_list fun _ _ later hlater _ => hsilent later hlater
  · rcases List.mem_cons.1 hmem with hfirst | hlater
    · cases hfirst
      exact hdismissed rfl
    · exact hsilent _ hlater

/-- A pull answered by a solution that is not the last leaves the sequence open. -/
theorem cons_open {solution : Solution} (hlast : solution.isLast = false)
    (hoffered : offered 0 = some solution.text)
    (h : KeepsProtocol (fun i => offered (i + 1)) log) :
    KeepsProtocol offered ((.next, .ok (some solution)) :: log) := by
  refine of_closed (fun i solution' hsolution => ?_) ?_ fun answer hmem => ?_
  · cases i with
    | zero =>
      obtain rfl : solution = solution' := Option.some.inj hsolution
      exact hoffered
    | succ i => exact h.inOrder i solution' hsolution
  · refine .cons (fun later _ hcloses => ?_) h.closed
    have hopen : solution.isLast = true := hcloses
    rw [hlast] at hopen
    cases hopen
  · rcases List.mem_cons.1 hmem with hfirst | hlater
    · cases hfirst
    · exact h.dismissed answer hlater

end KeepsProtocol

namespace Plan

/-- A plan that keeps the protocol as long as it is not abandoned. -/
structure Orderly (offered : Nat → Option String) (plan : Plan) : Prop where
  inOrder : ∀ k solution, plan k = .ok (some solution) → offered k = some solution.text
  closed : ∀ k, Request.next.Closes (plan k) → ∀ m, k < m → plan m = .ok none

variable {offered : Nat → Option String} {plan : Plan}

theorem orderly_nothing (offered : Nat → Option String) : nothing.Orderly offered :=
  ⟨(fun _ _ h => by cases h), fun _ _ _ _ => rfl⟩

/-- An answer that may close the sequence, with nothing after it. -/
theorem orderly_cons_nothing {answer : Answer EngineError}
    (h : ∀ solution, answer = .ok (some solution) → offered 0 = some solution.text) :
    (cons answer nothing).Orderly offered := by
  refine ⟨fun k solution hk => ?_, fun k _ m hm => ?_⟩
  · cases k with
    | zero => exact h solution hk
    | succ k => cases hk
  · cases m with
    | zero => omega
    | succ m => rfl

/-- A solution that is not the last, and then an orderly plan. -/
theorem orderly_cons {solution : Solution} (hlast : solution.isLast = false)
    (hoffered : offered 0 = some solution.text)
    (h : plan.Orderly fun k => offered (k + 1)) :
    (cons (.ok (some solution)) plan).Orderly offered := by
  refine ⟨fun k solution' hk => ?_, fun k hcloses m hm => ?_⟩
  · cases k with
    | zero => cases hk; exact hoffered
    | succ k => exact h.inOrder k solution' hk
  · cases m with
    | zero => omega
    | succ m =>
      cases k with
      | zero =>
        have hopen : solution.isLast = true := hcloses
        rw [hlast] at hopen
        cases hopen
      | succ k => exact h.closed k hcloses m (by omega)

theorem Orderly.tail (h : plan.Orderly offered) : plan.tail.Orderly fun k => offered (k + 1) :=
  ⟨fun k => h.inOrder (k + 1), fun k hcloses m hm => h.closed (k + 1) hcloses (m + 1) (by omega)⟩

theorem Orderly.tail_eq (h : plan.Orderly offered) (hcloses : Request.next.Closes (plan 0)) :
    plan.tail = nothing := by
  funext k
  exact h.closed 0 hcloses (k + 1) (by omega)

theorem orderly_mark (answers : List String) :
    (ofList (Queue.mark answers)).Orderly (answers[·]?) := by
  fun_induction Queue.mark answers with
  | case1 =>
    rw [ofList_nil]
    exact orderly_nothing _
  | case2 answer =>
    rw [ofList_cons, ofList_nil]
    exact orderly_cons_nothing fun solution h => by cases h; rfl
  | case3 answer rest _ ih =>
    rw [ofList_cons]
    exact orderly_cons rfl rfl ih

/-- Pending solutions, and then a failure. -/
def pendingThen (failure : Plan) : List Solution → Plan
  | [] => failure
  | solution :: pending => cons (.ok (some solution)) (pendingThen failure pending)

theorem pendingThen_nothing (pending : List Solution) :
    pendingThen nothing pending = ofList pending := by
  induction pending with
  | nil => exact ofList_nil.symm
  | cons solution pending ih => rw [pendingThen, ih, ofList_cons]

theorem orderly_pendingThen {failure : Plan} (h : ∀ offered, failure.Orderly offered)
    (answers : List String) :
    (pendingThen failure (answers.map (⟨·, false⟩))).Orderly (answers[·]?) := by
  induction answers with
  | nil => exact h _
  | cons answer answers ih => exact orderly_cons rfl rfl ih

theorem orderly_unmarked (answers : List String) :
    (ofList (answers.map (⟨·, false⟩))).Orderly (answers[·]?) := by
  rw [← pendingThen_nothing]
  exact orderly_pendingThen orderly_nothing answers

theorem orderly_failure (message : String) (offered : Nat → Option String) :
    (cons (.error (.fault message)) nothing).Orderly offered :=
  orderly_cons_nothing fun _ h => by cases h

/-- What requests are answered by a plan, as the session is told. -/
def log (requests : List Request) (plan : Plan) : List (Request × Answer SessionError) :=
  requests.zip ((respond requests plan).map (·.mapError SessionError.engine))

theorem log_nothing {requests : List Request} {served : Request × Answer SessionError}
    (h : served ∈ log requests nothing) : served.2 = .ok none := by
  induction requests with
  | nil => cases h
  | cons request requests ih =>
    have hlog :
        log (request :: requests) nothing = (request, .ok none) :: log requests nothing := by
      cases request <;> rfl
    rw [hlog, List.mem_cons] at h
    rcases h with rfl | h
    · rfl
    · exact ih h

/-- Requests answered by an orderly plan are answered by the protocol. -/
theorem Orderly.keepsProtocol (h : plan.Orderly offered) (requests : List Request) :
    KeepsProtocol offered (log requests plan) := by
  induction requests generalizing plan offered with
  | nil =>
    refine .of_closed (fun i solution hsolution => ?_) .nil fun answer hmem => ?_
    · simp [log, solutionsIn] at hsolution
    · cases hmem
  | cons request requests ih =>
    cases request with
    | abandon =>
      change KeepsProtocol offered ((.abandon, .ok none) :: log requests nothing)
      exact .cons_silent (fun _ => log_nothing) (fun _ hnone => by cases hnone) fun _ => rfl
    | next =>
      change KeepsProtocol offered
        ((.next, (plan 0).mapError SessionError.engine) :: log requests plan.tail)
      by_cases hcloses : Request.next.Closes (plan 0)
      · rw [h.tail_eq hcloses]
        refine .cons_silent (fun _ => log_nothing) (fun solution hsolution => ?_) nofun
        refine h.inOrder 0 solution ?_
        cases hfirst : plan 0 with
        | error e => rw [hfirst] at hsolution; cases hsolution
        | ok given => rw [hfirst] at hsolution; cases hsolution; rfl
      · -- A pull that closes nothing was answered by a solution that is not the last.
        match hfirst : plan 0 with
        | .error _ | .ok none =>
          rw [hfirst] at hcloses
          exact absurd trivial hcloses
        | .ok (some solution) =>
          rw [hfirst] at hcloses
          have hopen : ¬ solution.isLast = true := hcloses
          exact .cons_open (by simpa using hopen) (h.inOrder 0 solution hfirst) (ih h.tail)

end Plan

end LogicConsole
