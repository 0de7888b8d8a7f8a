import LogicConsole.Engine.Facts
import LogicConsole.Proofs.Facts.Wording
/-!
The store of the fact engine over any sequence of its acts. A query that asserts a ground term
appends it, one that retracts takes out the first fact that matches, and nothing else touches the
store. The halt flag goes up at a query that says `halt`, and never down.
-/
namespace LogicConsole.FactEngine

open Directive (Normalises Asserts Retracts parse_eq_ok_iff)

/-- What a session asks of the engine besides solutions. -/
inductive Act
  | solve (query : String)
  | interrupt
  | persist (entries : List String)
  deriving DecidableEq, Repr

def perform : FactEngine × SessionState → Act → FactEngine × SessionState
  | (e, s), .solve query => (Engine.solve (e, { s with query })).2
  | es, .interrupt => (Engine.interrupt es).2
  | (e, s), .persist entries => ((Engine.persist entries e).2, s)

def performAll (acts : List Act) (es : FactEngine × SessionState) : FactEngine × SessionState :=
  acts.foldl perform es

/-- What one act makes of the stored facts. -/
inductive Stores : Act → List Term → List Term → Prop
  | asserted {query : String} {fact : Term} (h : Asserts query fact) (facts : List Term) :
    Stores (.solve query) facts (facts ++ [fact])
  | retracted {query : String} {pattern fact : Term} {before : List Term}
    (h : Retracts query pattern)
    (hfirst : ∀ other ∈ before, pattern.matchFact other = none)
    (hmatch : pattern.matchFact fact ≠ none) (after : List Term) :
    Stores (.solve query) (before ++ fact :: after) (before ++ after)
  | missed {query : String} {pattern : Term} {facts : List Term} (h : Retracts query pattern)
    (hnone : ∀ fact ∈ facts, pattern.matchFact fact = none) : Stores (.solve query) facts facts
  | other {query : String} (hassert : ∀ fact, ¬ Asserts query fact)
    (hretract : ∀ pattern, ¬ Retracts query pattern) (facts : List Term) :
    Stores (.solve query) facts facts
  | interrupted (facts : List Term) : Stores .interrupt facts facts
  | persisted (entries : List String) (facts : List Term) : Stores (.persist entries) facts facts

/-- What acts make of the stored facts, one after the other. -/
inductive StoresAll : List Act → List Term → List Term → Prop
  | nil (facts : List Term) : StoresAll [] facts facts
  | cons {act : Act} {acts : List Act} {facts facts' facts'' : List Term}
    (h : Stores act facts facts') (hrest : StoresAll acts facts' facts'') :
    StoresAll (act :: acts) facts facts''

/-- A fact that has been read and holds no variable. -/
def IsStorable (fact : Term) : Prop := fact.isGround ∧ ∃ src, Term.parse src = .ok fact

variable {query : String} {fact pattern : Term} {act : Act} {facts facts' : List Term}

theorem perform_solve (e : FactEngine) (s : SessionState) (query : String) :
    perform (e, s) (.solve query) = match Directive.parse query with
      | .ok directive => (e.execute { s with query } directive).2
      | .error _ => (e, { s with query }) := by
  simp only [perform, Engine.solve, solve]
  cases Directive.parse query <;> rfl

theorem facts_persist (entries : List String) (e : FactEngine) :
    (Engine.persist entries e).2.facts = e.facts := by
  change (persist entries e).2.facts = e.facts
  unfold persist
  cases e.historyFile <;> rfl

theorem retract_of_none (h : ∀ fact ∈ facts, pattern.matchFact fact = none) :
    retract pattern facts = facts :=
  List.eraseP_of_forall_not fun fact hfact => by simp [h fact hfact]

theorem retract_of_first {before : List Term}
    (hfirst : ∀ other ∈ before, pattern.matchFact other = none)
    (hmatch : pattern.matchFact fact ≠ none) (after : List Term) :
    retract pattern (before ++ fact :: after) = before ++ after := by
  have hsome : (pattern.matchFact fact).isSome := Option.isSome_iff_ne_none.2 hmatch
  unfold retract
  rw [List.eraseP_append_right _ fun other hother => by simp [hfirst other hother],
    List.eraseP_cons, hsome, cond_true]

theorem stores_retract (h : Retracts query pattern) (facts : List Term) :
    Stores (.solve query) facts (retract pattern facts) := by
  by_cases hnone : ∀ fact ∈ facts, pattern.matchFact fact = none
  · rw [retract_of_none hnone]
    exact .missed h hnone
  · have hany : ∃ fact ∈ facts, (pattern.matchFact fact).isSome := by
      simpa [Option.isSome_iff_ne_none] using hnone
    obtain ⟨first, hmem, hsome⟩ := hany
    obtain ⟨fact, before, after, hbefore, hmatch, hfacts, herase⟩ :=
      List.exists_of_eraseP hmem (p := fun fact => (pattern.matchFact fact).isSome) hsome
    rw [retract, herase, hfacts]
    refine .retracted h (fun other hother => ?_) (Option.isSome_iff_ne_none.1 hmatch) after
    simpa using hbefore other hother

theorem stores_perform (act : Act) (es : FactEngine × SessionState) :
    Stores act es.1.facts (perform es act).1.facts := by
  obtain ⟨e, s⟩ := es
  cases act with
  | interrupt => exact .interrupted _
  | persist entries =>
    change Stores (.persist entries) e.facts (Engine.persist entries e).2.facts
    rw [facts_persist]
    exact .persisted entries _
  | solve query =>
    rw [perform_solve]
    cases hparse : Directive.parse query with
    | error error =>
      refine .other (fun fact h => ?_) (fun pattern h => ?_) _
      · have hread : Directive.parse query = .ok (.assert fact) := parse_eq_ok_iff.2 h
        cases hparse.symm.trans hread
      · have hread : Directive.parse query = .ok (.retract pattern) := parse_eq_ok_iff.2 h
        cases hparse.symm.trans hread
    | ok directive =>
      have hother (hassert : ∀ fact, directive ≠ .assert fact)
          (hretract : ∀ pattern, directive ≠ .retract pattern) :
          Stores (.solve query) e.facts e.facts := by
        refine .other (fun fact h => hassert fact ?_) (fun pattern h => hretract pattern ?_) _
        · have hread : Directive.parse query = .ok (.assert fact) := parse_eq_ok_iff.2 h
          exact Except.ok.inj (hparse.symm.trans hread)
        · have hread : Directive.parse query = .ok (.retract pattern) := parse_eq_ok_iff.2 h
          exact Except.ok.inj (hparse.symm.trans hread)
      cases directive with
      | assert fact => exact .asserted (parse_eq_ok_iff.1 hparse) _
      | retract pattern => exact stores_retract (parse_eq_ok_iff.1 hparse) _
      | _ => exact hother nofun nofun

theorem facts_of_stores {e : FactEngine} (s : SessionState) (h : Stores act e.facts facts) :
    (perform (e, s) act).1.facts = facts := by
  have hperform {query : String} (directive : Directive) (h : Directive.Says query directive) :
      perform (e, s) (.solve query) = (e.execute { s with query } directive).2 := by
    rw [perform_solve, parse_eq_ok_iff.2 h]
  generalize hfacts : e.facts = stored at h
  cases h with
  | asserted h =>
    rw [hperform (.assert _) h]
    exact congrArg (· ++ _) hfacts
  | retracted h hfirst hmatch after =>
    rw [hperform (.retract _) h]
    exact (congrArg (retract _) hfacts).trans (retract_of_first hfirst hmatch after)
  | missed h hnone =>
    rw [hperform (.retract _) h]
    exact (congrArg (retract _) hfacts).trans (retract_of_none hnone)
  | @other query hassert hretract =>
    rw [perform_solve]
    cases hparse : Directive.parse query with
    | error error => exact hfacts
    | ok directive =>
      have hread := parse_eq_ok_iff.1 hparse
      cases directive with
      | assert fact => exact absurd hread (hassert fact)
      | retract pattern => exact absurd hread (hretract pattern)
      | _ => exact hfacts
  | interrupted => exact hfacts
  | persisted entries => exact (facts_persist entries e).trans hfacts

/-- Acts make of the store what they are told to, and nothing else. -/
theorem storesAll_iff (acts : List Act) (es : FactEngine × SessionState) :
    StoresAll acts es.1.facts facts ↔ (performAll acts es).1.facts = facts := by
  induction acts generalizing es with
  | nil =>
    constructor
    · intro h
      cases h
      rfl
    · rintro rfl
      exact .nil _
  | cons act acts ih =>
    change _ ↔ (performAll acts (perform es act)).1.facts = facts
    constructor
    · intro h
      cases h with
      | cons hact hrest =>
        rw [← facts_of_stores es.2 hact] at hrest
        exact (ih _).1 hrest
    · intro h
      exact .cons (stores_perform act es) ((ih _).2 h)

theorem Stores.storable (h : Stores act facts facts') (hfacts : ∀ fact ∈ facts, IsStorable fact) :
    ∀ fact ∈ facts', IsStorable fact := by
  cases h with
  | @asserted query fact h =>
    obtain ⟨-, inner, -, -, hparse, hground⟩ := h
    intro other hother
    rcases List.mem_append.1 hother with hother | hother
    · exact hfacts other hother
    · obtain rfl := List.mem_singleton.1 hother
      exact ⟨hground, _, hparse⟩
  | @retracted query pattern fact before h hfirst hmatch after =>
    intro other hother
    refine hfacts other ?_
    simp only [List.mem_append, List.mem_cons] at hother ⊢
    tauto
  | _ => exact hfacts

theorem StoresAll.storable {acts : List Act} (h : StoresAll acts facts facts')
    (hfacts : ∀ fact ∈ facts, IsStorable fact) : ∀ fact ∈ facts', IsStorable fact := by
  induction h with
  | nil => exact hfacts
  | cons hact _ ih => exact ih (hact.storable hfacts)

/-- The query says `halt`. -/
def Act.Halts (act : Act) : Prop :=
  ∃ query, act = .solve query ∧ Normalises query.toList "halt".toList

theorem halted_perform (act : Act) (es : FactEngine × SessionState) :
    (perform es act).2.halted = true ↔ es.2.halted = true ∨ act.Halts := by
  obtain ⟨e, s⟩ := es
  cases act with
  | interrupt => simp [perform, Engine.interrupt, Act.Halts]
  | persist entries => simp [perform, Act.Halts]
  | solve query =>
    have hhalts : Act.Halts (.solve query) ↔ Directive.parse query = .ok .halt := by
      rw [parse_eq_ok_iff]
      simp [Act.Halts, Directive.Says]
    rw [hhalts, perform_solve]
    cases hparse : Directive.parse query with
    | error error => simp
    | ok directive => cases directive <;> simp [execute]

theorem halted_performAll (acts : List Act) (es : FactEngine × SessionState) :
    (performAll acts es).2.halted = true ↔
      es.2.halted = true ∨ ∃ act ∈ acts, act.Halts := by
  induction acts generalizing es with
  | nil => simp [performAll]
  | cons act acts ih =>
    change (performAll acts (perform es act)).2.halted = true ↔ _
    rw [ih, halted_perform]
    simp [or_assoc]

/-- From an empty store, any acts leave ground facts that have been read, namely those that the
asserting queries appended and the retracting ones did not take out again. The halt flag is up if it
was before or a query said `halt`. -/
theorem performAll_store (e : FactEngine) (s : SessionState) (acts : List Act) :
    (∀ facts, StoresAll acts [] facts ↔
        (performAll acts ({ e with facts := [] }, s)).1.facts = facts) ∧
      (∀ fact ∈ (performAll acts ({ e with facts := [] }, s)).1.facts,
        fact.isGround ∧ ∃ src, Term.parse src = .ok fact) ∧
      ((performAll acts ({ e with facts := [] }, s)).2.halted = true ↔
        s.halted = true ∨
          ∃ query, .solve query ∈ acts ∧ Normalises query.toList "halt".toList) := by
  have hstore (facts : List Term) : StoresAll acts [] facts ↔
      (performAll acts ({ e with facts := [] }, s)).1.facts = facts :=
    storesAll_iff acts ({ e with facts := [] }, s)
  refine ⟨hstore, ((hstore _).2 rfl).storable nofun, ?_⟩
  rw [halted_performAll]
  refine or_congr_right ⟨?_, ?_⟩
  · rintro ⟨act, hmem, query, rfl, hhalt⟩
    exact ⟨query, hmem, hhalt⟩
  · rintro ⟨query, hmem, hhalt⟩
    exact ⟨_, hmem, query, rfl, hhalt⟩

end LogicConsole.FactEngine
