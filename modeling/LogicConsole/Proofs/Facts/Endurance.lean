import LogicConsole.Proofs.Facts.Store
import LogicConsole.Proofs.Faultless
import LogicConsole.Proofs.HaltFlag
import LogicConsole.Proofs.Stream.Refinement
/-! Sessions with the fact engine. Any text is answered, every search of the store comes to its end
without a panic, and the halt flag goes up at a query that says `halt` and at nothing else. So such
a session never faults, and ends as its queries say. -/
namespace LogicConsole

open Operation Relation
open Directive (Normalises)

namespace Channel

variable {c : Channel}

/-- Nothing that is still to be taken from the channel is a fault. -/
structure Wholesome (c : Channel) : Prop where
  state : c.Live ∨ c.Over
  fine : ∀ k error, c.remaining k ≠ .error error

theorem wholesome_spawn (answers : List String) (fallback : Option String) :
    (spawn (.ofList answers) fallback).Wholesome := by
  refine ⟨.inl (live_spawn _ _), fun k error h => ?_⟩
  change (Search.ofList answers).opening 0 fallback k = _ at h
  rw [Queue.plan_ofSearch] at h
  cases h

theorem Over.wholesome (h : c.Over) : c.Wholesome := by
  refine ⟨.inr h, fun k error hk => ?_⟩
  rw [h.remaining_eq] at hk
  cases hk

theorem Wholesome.next (h : c.Wholesome) : c.next.1.isOk = true ∧ c.next.2.Wholesome := by
  rcases h.state with hlive | hover
  · obtain ⟨hanswer, hstate, htail⟩ := next_live hlive
    have hplan := hlive.remaining_eq
    refine ⟨?_, hstate, fun k error hk => ?_⟩
    · rw [hanswer]
      cases hfirst : c.plan 0 with
      | ok solution => rfl
      | error error => exact absurd (hplan ▸ hfirst) (h.fine 0 error)
    · rw [htail, ← hplan] at hk
      exact h.fine (k + 1) error hk
  · rw [hover.next_eq]
    exact ⟨rfl, h⟩

theorem Wholesome.abandon (h : c.Wholesome) : c.abandon.Wholesome := by
  rcases h.state with hlive | hover
  · exact (abandon_live hlive).wholesome
  · rwa [hover.abandon_eq]

end Channel

namespace FactStream

inductive Wholesome : FactStream → Prop
  | ready (q : Queue) : Wholesome (.ready q)
  | search {c : Channel} (h : c.Wholesome) : Wholesome (.search c)

theorem next_search (c : Channel) :
    SolutionStream.next (search c) =
      (c.next.1.mapError SessionError.engine, .search c.next.2) := rfl

theorem faultless : SolutionStream.Faultless Wholesome where
  next {s} h := by
    cases h with
    | ready q => exact ⟨rfl, .ready _⟩
    | @search c h =>
      obtain ⟨hok, hnext⟩ := h.next
      rw [next_search]
      refine ⟨?_, .search hnext⟩
      cases hanswer : c.next.1 with
      | ok solution => rfl
      | error error =>
        rw [hanswer] at hok
        cases hok
  abandon {s} h := by
    cases h with
    | ready q => exact ⟨rfl, .ready _⟩
    | search h => exact ⟨rfl, .search h.abandon⟩

end FactStream

namespace FactEngine

theorem solve_eq (es : FactEngine × SessionState) :
    Engine.solve es = (.ok (es.1.solve es.2).1, (es.1.solve es.2).2) := by
  simp only [Engine.solve]

theorem wholesome_solve (e : FactEngine) (s : SessionState) : (e.solve s).1.Wholesome := by
  unfold solve
  cases Directive.parse s.query with
  | error error => exact .ready _
  | ok directive =>
    cases directive with
    | goal goal => exact .search (Channel.wholesome_spawn _ _)
    | _ => exact .ready _

theorem next_eq (es : FactEngine × FactStream) :
    SolutionStream.next es =
      ((SolutionStream.next es.2).1, es.1, (SolutionStream.next es.2).2) := rfl

/-- Whatever it is asked, the fact engine has an answer. -/
theorem faultless : Engine.Faultless (ε := FactEngine) FactStream.Wholesome where
  intro _ := rfl
  prompt _ := rfl
  solve es := ⟨(es.1.solve es.2).1, by rw [solve_eq], wholesome_solve es.1 es.2⟩
  interrupt _ := rfl
  stream :=
    { next := fun {es} h => by
        rw [next_eq]
        exact FactStream.faultless.next h
      abandon := fun {es} h => ⟨rfl, (FactStream.faultless.abandon h).2⟩ }

end FactEngine

namespace Session

variable {κ ο : Type} [Console κ] [Output ο] {s₀ s s' : Session FactEngine κ ο}

/-- The halt flag is up if it was before, or if one of these queries says `halt`. -/
def HaltsAsTold (before : Bool) (queries : List String) (after : Bool) : Prop :=
  after = true ↔ before = true ∨ ∃ query ∈ queries, Normalises query.toList "halt".toList

theorem HaltsAsTold.refl (before : Bool) : HaltsAsTold before [] before := by simp [HaltsAsTold]

theorem HaltsAsTold.trans {before between after : Bool} {earlier later : List String}
    (h : HaltsAsTold before earlier between) (h' : HaltsAsTold between later after) :
    HaltsAsTold before (earlier ++ later) after := by
  unfold HaltsAsTold at h h' ⊢
  rw [h', h, or_assoc]
  refine or_congr_right ⟨?_, ?_⟩
  · rintro (⟨query, hmem, hhalt⟩ | ⟨query, hmem, hhalt⟩)
    · exact ⟨query, List.mem_append_left _ hmem, hhalt⟩
    · exact ⟨query, List.mem_append_right _ hmem, hhalt⟩
  · rintro ⟨query, hmem, hhalt⟩
    rcases List.mem_append.1 hmem with hmem | hmem
    · exact .inl ⟨query, hmem, hhalt⟩
    · exact .inr ⟨query, hmem, hhalt⟩

omit [Console κ] [Output ο] in
theorem report_solve (query : String) (s : Session FactEngine κ ο) :
    (report Engine.solve (s.pose query)).2 =
      (FactEngine.perform (s.engine, s.state) (.solve query)).2.halted := by
  simp only [report, pose, FactEngine.perform]

/-- What a step makes of the halt flag is what the query it sends says, if it sends one. -/
theorem halted_step {e : Event} (h : Step e s s') :
    HaltsAsTold s.state.halted (queriesSolved [e]) s'.state.halted := by
  have hhalted := h.halted
  have hsame (hflag : e.flag = none) (hquery : queriesSolved [e] = []) :
      HaltsAsTold s.state.halted (queriesSolved [e]) s'.state.halted := by
    rw [hhalted, hflag, hquery]
    exact .refl _
  cases h with
  | solved query =>
    rw [hhalted]
    simp only [Event.flag, Option.getD_some, queriesSolved]
    unfold HaltsAsTold
    rw [report_solve, FactEngine.halted_perform]
    simp [FactEngine.Act.Halts]
  | interrupted =>
    rw [hhalted]
    exact .refl _
  | dialogue h => exact hsame (by cases h <;> rfl) (by cases h <;> rfl)
  | paging h =>
    cases h with
    | dialogue h => exact hsame (by cases h <;> rfl) (by cases h <;> rfl)
    | _ => exact hsame rfl rfl
  | _ => exact hsame rfl rfl

/-- The queries sent since the journal was that of `s₀` tell the halt flag. -/
def Tells (s₀ s : Session FactEngine κ ο) : Prop :=
  ∃ t, s.dialogue.journal = t.reverse ++ s₀.dialogue.journal ∧
    HaltsAsTold s₀.state.halted (queriesSolved t) s.state.halted

theorem tells_of_steps (h : ReflTransGen AnyStep s₀ s) : Tells s₀ s := by
  induction h with
  | refl => exact ⟨[], rfl, .refl _⟩
  | tail _ hstep ih =>
    obtain ⟨t, ht, htold⟩ := ih
    obtain ⟨e, hstep⟩ := hstep
    obtain ⟨u, hu, hraised⟩ := hstep.journal
    refine ⟨t ++ e :: u.reverse, ?_, ?_⟩
    · rw [hu, ht]
      simp
    · have hquiet : queriesSolved u.reverse = [] :=
        queriesSolved_of_unbooked fun x hx => hraised x (List.mem_reverse.1 hx) ▸ trivial
      have hqueries :
          queriesSolved (t ++ e :: u.reverse) = queriesSolved t ++ queriesSolved [e] := by
        rw [queriesSolved_append, ← List.singleton_append, queriesSolved_append, hquiet,
          List.append_nil]
      rw [hqueries]
      exact htold.trans (halted_step hstep)

/-- Closing a session sends no query. -/
theorem Tells.close (h : Tells s₀ s) :
    ∃ t, s.close.dialogue.journal = t.reverse ++ s₀.dialogue.journal ∧
      HaltsAsTold s₀.state.halted (queriesSolved t) s.state.halted := by
  obtain ⟨t, ht, htold⟩ := h
  obtain ⟨u, hu, hclosing⟩ := close_journal s
  have hquiet : queriesSolved u.reverse = [] := by
    refine queriesSolved_of_unbooked fun x hx => ?_
    have hkind := hclosing x (List.mem_reverse.1 hx)
    -- Neither a hand-over nor a write is a query.
    cases x <;> first | trivial | exact (hkind.elim id id).elim
  refine ⟨t ++ u.reverse, ?_, ?_⟩
  · rw [hu, ht]
    simp
  · rw [queriesSolved_append, hquiet, List.append_nil]
    exact htold

variable {accepts : ο → Prop} {received : ο → List UInt8}

/-- A session with the fact engine at a scripted console, whose handler can be installed if it uses
one, never faults. It comes to its end, by a halt if some query that was sent says `halt` or the
flag was up from the start, and otherwise with the input, whatever facts are stored, whatever the
script says and wherever signals arrive. -/
theorem run_endures (hsink : Output.Infallible accepts received)
    (s : Session FactEngine ScriptedConsole ο) (hout : accepts s.dialogue.output)
    (hhandler : s.handler ≠ .taken) :
    ∃ how t, s.run.1 = .ended how ∧
      s.run.2.dialogue.journal = t.reverse ++ s.dialogue.journal ∧
      (how = .halted ↔ s.state.halted = true ∨
        ∃ query ∈ queriesSolved t, Normalises query.toList "halt".toList) := by
  have hends := run_ends s
  have hloop := triple_phases_concluded hsink ScriptedConsole.reliable FactEngine.faultless
    (FiniteConsole.supply s.dialogue.console + 2) s ⟨hout, hhandler⟩
  have htells := tells_of_steps (within_phases (FiniteConsole.supply s.dialogue.console + 2) s)
  have hclose := runFor_of_finished hends
  unfold run at hends ⊢
  rw [hclose]
  rw [runFor_eq] at hends ⊢
  cases hrun : exec (phases (FiniteConsole.supply s.dialogue.console + 2)) s with
  | mk r s₁ =>
    rw [hrun] at hloop htells hends
    cases r with
    | error stop =>
      obtain rfl : stop = .unfinished := hloop
      exact absurd rfl hends
    | ok how =>
      obtain ⟨t, ht, htold⟩ := htells.close
      exact ⟨how, t, rfl, ht, hloop.trans htold⟩

/-- A goal of which one answer is enough, a malformed query, and a halt over two lines. -/
def leaving : Session FactEngine ScriptedConsole Buffer where
  engine := { facts := [⟨"p", [.atom "a"]⟩, ⟨"p", [.atom "b"]⟩] }
  dialogue :=
    { console :=
        { events := [.line "p(X).", .line "p(.", .line "?- halt", .interrupted, .line "."]
          keys := ['n'] }
      output := {} }

theorem leaving_endures :
    leaving.run.1 = .ended .halted ∧
      ∃ t, leaving.run.2.dialogue.journal = t.reverse ∧
        ∃ query ∈ queriesSolved t, Normalises query.toList "halt".toList := by
  have hhalted : leaving.run.1 = .ended .halted := by decide +kernel
  obtain ⟨how, t, hrun, hjournal, htold⟩ := run_endures Buffer.infallible leaving rfl (by decide)
  obtain rfl : how = .halted := by simpa [hhalted] using hrun.symm
  obtain hstart | hquery := htold.1 rfl
  · cases hstart
  · exact ⟨hhalted, t, by simpa [leaving] using hjournal, hquery⟩

end Session

end LogicConsole
