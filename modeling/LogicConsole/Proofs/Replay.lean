import LogicConsole.Proofs.Bookkeeping
/-! Every operation of a session keeps the books, whether it succeeds or stops. So the books of a
run are those of the queries it read, in their order. -/
namespace LogicConsole

open Operation Relation

/-- The scripted engine keeps the queries it is asked to solve. -/
theorem ScriptedEngine.queries_of_performed {κ ο : Type} [Console κ] [Output ο] {j : Journal}
    {a b : Parties ScriptedEngine ScriptedStream κ ο} (h : j.Performed Parties.Performs a b) :
    b.engine.queries = a.engine.queries ++ queriesSolved j.reverse := by
  induction h with
  | here => exact (List.append_nil _).symm
  | @event e j b c _ hnext ih =>
    have htold : c.engine.queries = (b.engine.told e).1 :=
      congrArg Prod.fst (told_of_performs hnext)
    rw [List.reverse_cons, queriesSolved_append, ← List.append_assoc, ← ih, htold]
    cases e with
    | solved => rfl
    | _ => exact (List.append_nil _).symm

namespace Dialogue

variable {κ ο : Type} [Console κ] [Output ο] {accepts : ο → Prop} {received : ο → List UInt8}
variable {l₀ : Ledger} {j₀ : Journal} {owed owed' : Ledger → Ledger} {α : Type}
variable {d d' : Dialogue κ ο} {e : Event} {query : String} {added : List String}

theorem Step.canonical (h : Step e d d') (hd : d.history.Canonical) : d'.history.Canonical := by
  rcases h.history_cases with h | ⟨query, entry, -, hentry, h⟩ <;> rw [h]
  · exact hd
  · exact hd.add hentry

/-- What is no business of the books keeps them. -/
theorem triple_idle (hsink : Output.Infallible accepts received) {op : Operation (Dialogue κ ο) α}
    (h : Within IdleStep op) :
    Triple (Account accepts l₀ j₀ owed) op (fun _ => Account accepts l₀ j₀ owed)
      fun _ => Account accepts l₀ j₀ owed :=
  h.triple fun _ _ ⟨_, he, hstep⟩ hd =>
    hd.unbooked he.unbooked hstep.journal (hstep.history_of_idle he)
      (hstep.output_accepted hsink hd.output).1

theorem triple_say (hsink : Output.Infallible accepts received) (text : String)
    {E : Stop → Dialogue κ ο → Prop} :
    Triple (Account accepts l₀ j₀ owed) (say text : Operation (Dialogue κ ο) Unit)
      (fun _ => Account accepts l₀ j₀ owed) E := by
  refine triple_of_exec (fun d a d' hd hrun => ?_) fun d stop d' hd hrun => ?_
  · exact (triple_idle hsink (within_say text)).ok hd hrun
  · have hok := (hsink.write hd.output text).1
    have hresult := congrArg Prod.fst hrun
    simp only [say, exec_ofCall, hok] at hresult
    cases hresult

theorem triple_collectLines (hsink : Output.Infallible accepts received) (prompt : String)
    (fuel : Nat) :
    Triple (Account accepts l₀ j₀ id) (collectLines prompt fuel "" : Operation (Dialogue κ ο) _)
      (fun input d => Account accepts l₀ j₀ id d ∧
        ∀ query, input = .query query → stripped query ≠ "")
      fun _ => Account accepts l₀ j₀ id := by
  have hidle : Triple (Account accepts l₀ j₀ id)
      (collectLines prompt fuel "" : Operation (Dialogue κ ο) QueryInput)
      (fun _ => Account accepts l₀ j₀ id) fun _ => Account accepts l₀ j₀ id :=
    triple_idle hsink (within_collectLines prompt fuel "")
  refine triple_of_exec (fun d input d' hd hrun => ⟨hidle.ok hd hrun, ?_⟩)
    fun d stop d' hd hrun => hidle.error hd hrun
  rintro query rfl
  exact collectLines_query hrun

omit [Output ο] in
theorem history_record {entry : String} (hentry : History.entryOf query = some entry)
    (d : Dialogue κ ο) : (exec (record query) d).2.history = d.history.add entry := by
  simp [record, hentry]

/-- A console that keeps every entry offered never makes recording one fail. -/
theorem triple_record (hkeep : ∀ entry (c : κ), (Console.remember entry c).1 = .ok ())
    {entry : String} (hentry : History.entryOf query = some entry) {P Q : Dialogue κ ο → Prop}
    {E : Stop → Dialogue κ ο → Prop} (h : ∀ d d', Step (.remembered entry) d d' →
      d'.history = d.history.add entry → P d → Q d') :
    Triple P (record query : Operation (Dialogue κ ο) Unit) (fun _ => Q) E := by
  intro d hd
  have hok : (exec (record query) d).1 = .ok () := by
    simp only [record, hentry, exec_ofCall, hkeep]
    rfl
  have hnext := h d _ (.remembered hentry d) (history_record hentry d) hd
  cases hrun : exec (record query) d with
  | mk r d' =>
    rw [hrun] at hok hnext
    cases hok
    exact hnext

/-- Reading a query leaves it pending; without one the books are as they were. -/
theorem triple_readQuery (hsink : Output.Infallible accepts received)
    (hkeep : ∀ entry (c : κ), (Console.remember entry c).1 = .ok ()) (prompt : String)
    (fuel : Nat) :
    Triple (Account accepts l₀ j₀ id) (readQuery prompt fuel : Operation (Dialogue κ ο) QueryInput)
      (fun input d => match input with
        | .query query => Pending accepts l₀ j₀ query [stripped query] none d
        | .endOfInput => Account accepts l₀ j₀ id d)
      fun _ => Account accepts l₀ j₀ id := by
  refine triple_bind (triple_collectLines hsink prompt fuel) fun input => ?_
  cases input with
  | endOfInput => exact triple_pure _ fun d hd => hd.1
  | query query =>
    by_cases hquery : stripped query = ""
    · exact fun d hd => absurd hquery (hd.2 query rfl)
    have hentry : History.entryOf query = some (stripped query) := by
      rw [entryOf_eq, if_neg hquery]
    have hmark : Triple (fun d => Account accepts l₀ j₀ id d ∧
          ∀ query', QueryInput.query query = .query query' → stripped query' ≠ "")
        (mark (.completed query) : Operation (Dialogue κ ο) Unit)
        (fun _ => Pending accepts l₀ j₀ query [] none) fun _ => Account accepts l₀ j₀ id :=
      triple_modify _ fun d hd => hd.1.complete hquery (journal_note _ d) (history_note _ d)
        ((output_note _ d).symm ▸ hd.1.output)
    refine triple_bind hmark fun _ => triple_bind
      (Q := fun _ => Pending accepts l₀ j₀ query [stripped query] none)
      (triple_record hkeep hentry fun d d' hstep hhistory hd => ?_)
      fun _ => triple_pure _ fun d hd => hd
    refine hd.extend (e := .remembered (stripped query)) trivial hstep.journal (fun entries h => ?_)
      (hstep.canonical hd.canonical) (hstep.output_accepted hsink hd.output).1
    rw [hhistory, History.entries_add, h, List.append_nil]

theorem triple_takeInterrupt (hsink : Output.Infallible accepts received)
    {E : Stop → Dialogue κ ο → Prop} :
    Triple (Pending accepts l₀ j₀ query added none)
      (takeInterrupt : Operation (Dialogue κ ο) Bool)
      (fun _ => Pending accepts l₀ j₀ query added none) E := by
  intro d hd
  rw [exec_takeInterrupt]
  by_cases h : d.interrupt.isRaised
  · rw [if_pos h]
    have hstep := Step.taken d h
    exact hd.unbooked (e := .taken) trivial hstep.journal (hstep.history_of_idle trivial)
      (hstep.output_accepted hsink hd.output).1
  · rw [if_neg h]
    exact hd

end Dialogue

namespace Session

/-- Operations of the dialogue leave the session's state alone. -/
theorem triple_onDialogue {ε κ ο α : Type} {P : Dialogue κ ο → Prop} {Q : α → Dialogue κ ο → Prop}
    {E : Stop → Dialogue κ ο → Prop} {op : Operation (Dialogue κ ο) α} (h : Triple P op Q E)
    (R : SessionState → Prop) :
    Triple (fun s : Session ε κ ο => P s.dialogue ∧ R s.state) (onDialogue op)
      (fun a s => Q a s.dialogue ∧ R s.state) fun stop s => E stop s.dialogue := by
  refine triple_of_exec (fun s a s' hs hrun => ?_) fun s stop s' hs hrun => ?_
  · obtain ⟨hresult, rfl⟩ := Prod.mk.inj hrun
    exact ⟨h.ok hs.1 (Prod.ext hresult rfl), hs.2⟩
  · obtain ⟨hresult, rfl⟩ := Prod.mk.inj hrun
    exact h.error hs.1 (Prod.ext hresult rfl)

theorem triple_dialogue {ε κ ο α : Type} {P : Dialogue κ ο → Prop} {Q : α → Dialogue κ ο → Prop}
    {E : Stop → Dialogue κ ο → Prop} {op : Operation (Dialogue κ ο) α} (h : Triple P op Q E) :
    Triple (fun s : Session ε κ ο => P s.dialogue) (onDialogue op) (fun a s => Q a s.dialogue)
      fun stop s => E stop s.dialogue := by
  refine triple_of_exec (fun s a s' hs hrun => ?_) fun s stop s' hs hrun => ?_
  · exact ((triple_onDialogue h fun _ => True).ok ⟨hs, trivial⟩ hrun).1
  · exact (triple_onDialogue h fun _ => True).error ⟨hs, trivial⟩ hrun

theorem triple_enter {ε κ ο : Type} {accepts : ο → Prop} {l₀ : Ledger} {j₀ : Journal}
    {owed : Ledger → Ledger} {E : Stop → Session ε κ ο → Prop} (phase : Phase) :
    Triple (fun s => Account accepts l₀ j₀ owed s.dialogue)
      (enter phase : Operation (Session ε κ ο) Unit)
      (fun _ s => Account accepts l₀ j₀ owed s.dialogue) E :=
  triple_modify _ fun _ hs => hs.note trivial

theorem triple_ending {ε κ ο : Type} {accepts : ο → Prop} {l₀ : Ledger} {j₀ : Journal}
    (how : SessionEnd) :
    Triple (fun s => Account accepts l₀ j₀ id s.dialogue)
      (do enter .halted; return how : Operation (Session ε κ ο) SessionEnd)
      (fun _ s => Final l₀ j₀ s.dialogue) fun _ s => Final l₀ j₀ s.dialogue :=
  triple_bind (triple_enter _) fun _ => triple_pure _ fun _ hs => hs.final

variable {ε τ κ ο α : Type} [Engine ε τ] [Console κ] [Output ο] {accepts : ο → Prop}
variable {received : ο → List UInt8} {l₀ : Ledger} {j₀ : Journal} {owed owed' : Ledger → Ledger}
variable {s s' : Session ε κ ο} {e : Event} {query : String}

theorem Step.canonical (h : Step e s s') (hs : s.dialogue.history.Canonical) :
    s'.dialogue.history.Canonical := by
  rcases h.history_cases with h | ⟨query, entry, -, hentry, h⟩ <;> rw [h]
  · exact hs
  · exact hs.add hentry

theorem Step.output_accepted (hsink : Output.Infallible accepts received) (h : Step e s s')
    (hs : accepts s.dialogue.output) : accepts s'.dialogue.output :=
  (accepted_of_steps hsink (.single ⟨e, h⟩) hs).1

/-- A step that is no business of the books and leaves the history alone. -/
def QuietStep (s s' : Session ε κ ο) : Prop :=
  ∃ e, e.Unbooked ∧ s'.dialogue.history = s.dialogue.history ∧ Step e s s'

theorem IdleStep.quiet (h : IdleStep s s') : QuietStep s s' := by
  obtain ⟨e, he, hstep⟩ := h
  exact ⟨e, he.unbooked, hstep.history_of_idle he, hstep⟩

theorem quiet_serviceInterrupts :
    Within QuietStep (serviceInterrupts : Operation (Session ε κ ο) Unit) := by
  have htake : Within QuietStep
      (onDialogue Dialogue.takeInterrupt : Operation (Session ε κ ο) Bool) :=
    (within_idle Dialogue.within_takeInterrupt).mono fun _ _ => IdleStep.quiet
  refine within_bind htake fun raised => within_ite (within_of_step fun s => ?_) (within_pure _)
  exact ⟨.interrupted (report Engine.interrupt s).1 (report Engine.interrupt s).2, trivial,
    Dialogue.history_note _ s.dialogue, .interrupted s⟩

section Triples

variable (hsink : Output.Infallible accepts received)
include hsink

/-- What is no business of the books keeps them. -/
theorem triple_quiet {op : Operation (Session ε κ ο) α} (h : Within QuietStep op) :
    Triple (fun s => Account accepts l₀ j₀ owed s.dialogue) op
      (fun _ s => Account accepts l₀ j₀ owed s.dialogue)
      fun _ s => Account accepts l₀ j₀ owed s.dialogue :=
  h.triple fun _ _ ⟨_, he, hhistory, hstep⟩ hs =>
    hs.unbooked he hstep.journal hhistory (hstep.output_accepted hsink hs.output)

theorem triple_idle {op : Operation (Session ε κ ο) α} (h : Within IdleStep op) :
    Triple (fun s => Account accepts l₀ j₀ owed s.dialogue) op
      (fun _ s => Account accepts l₀ j₀ owed s.dialogue)
      fun _ s => Account accepts l₀ j₀ owed s.dialogue :=
  triple_quiet hsink (h.mono fun _ _ => IdleStep.quiet)

/-- Sending a query pays what is owed. -/
theorem triple_dispatch (query : String) (fuel : Nat) :
    Triple (fun s => Account accepts l₀ j₀ (Ledger.dispatch query) s.dialogue)
      (dispatch query fuel : Operation (Session ε κ ο) Unit)
      (fun _ s => Account accepts l₀ j₀ id s.dialogue)
      fun _ s => Account accepts l₀ j₀ id s.dialogue := by
  have hsolve (s : Session ε κ ο) (hs : Account accepts l₀ j₀ (Ledger.dispatch query) s.dialogue) :
      Account accepts l₀ j₀ id
        (exec (drive Engine.solve (.solved query)) (s.pose query)).2.dialogue := by
    have hstep := Step.solved query s
    have hhistory : (exec (drive Engine.solve (.solved query)) (s.pose query)).2.dialogue.history =
        s.dialogue.history := Dialogue.history_note _ s.dialogue
    refine hs.extend (e := .solved query _ _) trivial hstep.journal (hstep.canonical hs.canonical)
      (hstep.output_accepted hsink hs.output) fun sent => ?_
    rw [hhistory]
    rfl
  have hrest (solutions : τ) : Triple (fun s => Account accepts l₀ j₀ id s.dialogue) (do
      let summary ← page solutions fuel
      if summary.ending = .interrupted then serviceInterrupts : Operation (Session ε κ ο) Unit)
      (fun _ s => Account accepts l₀ j₀ id s.dialogue)
      fun _ s => Account accepts l₀ j₀ id s.dialogue :=
    triple_bind (triple_idle hsink (within_page solutions fuel)) fun _ =>
      triple_ite (fun _ => triple_quiet hsink quiet_serviceInterrupts) fun _ =>
        triple_pure _ fun _ hs => hs
  have hdrive : Triple
      (fun s => ∃ s₀ : Session ε κ ο, s = s₀.pose query ∧
        Account accepts l₀ j₀ (Ledger.dispatch query) s₀.dialogue)
      (drive Engine.solve (.solved query)) (fun _ s => Account accepts l₀ j₀ id s.dialogue)
      fun _ s => Account accepts l₀ j₀ id s.dialogue := by
    refine triple_of_exec ?_ ?_
    · rintro - a s' ⟨s₀, rfl, hs⟩ hrun
      have hnext := hsolve s₀ hs
      rwa [hrun] at hnext
    · rintro - stop s' ⟨s₀, rfl, hs⟩ hrun
      have hnext := hsolve s₀ hs
      rwa [hrun] at hnext
  exact triple_bind (triple_modify _ fun s hs => ⟨s, rfl, hs⟩) fun _ => triple_bind hdrive hrest

variable (hkeep : ∀ entry (c : κ), (Console.remember entry c).1 = .ok ())
include hkeep

theorem triple_rerun (n fuel : Nat) :
    Triple (fun s => Account accepts l₀ j₀ (Ledger.rerun n) s.dialogue)
      (rerun n fuel : Operation (Session ε κ ο) Unit)
      (fun _ s => Account accepts l₀ j₀ id s.dialogue)
      fun _ s => Account accepts l₀ j₀ id s.dialogue := by
  have hnth (h : History) (sent : List String) : Ledger.nth n ⟨h.entries, sent⟩ = h.get? n := by
    cases n <;> rfl
  refine triple_bind (Q := fun h s => Account accepts l₀ j₀ (Ledger.rerun n) s.dialogue ∧
    h = s.dialogue.history) (fun s hs => ⟨hs, rfl⟩) fun h => ?_
  cases hget : h.get? n with
  | none =>
    refine (triple_dialogue (Dialogue.triple_say hsink _)).of_pre fun s hs => ?_
    refine hs.1.congr fun sent => ?_
    simp only [Ledger.rerun, ← hs.2, hnth, hget]
    rfl
  | some entry =>
    refine triple_ite (fun hcommand => ?_) fun hcommand => ?_
    · refine (triple_dialogue (Dialogue.triple_say hsink _)).of_pre fun s hs => ?_
      refine hs.1.congr fun sent => ?_
      simp only [Ledger.rerun, ← hs.2, hnth, hget, hcommand, if_true]
      rfl
    · by_cases hentry : History.entryOf entry = some entry
      · have howed : Triple (fun s => Account accepts l₀ j₀ (Ledger.rerun n) s.dialogue ∧
            h = s.dialogue.history) (say (entry ++ "\n") : Operation (Session ε κ ο) Unit)
            (fun _ s => Account accepts l₀ j₀ (fun l => (l.enter entry).dispatch (entry ++ "\n"))
              s.dialogue) fun _ s => Account accepts l₀ j₀ id s.dialogue := by
          refine (triple_dialogue (Dialogue.triple_say hsink _)).of_pre fun s hs =>
            hs.1.congr fun sent => ?_
          simp only [Ledger.rerun, ← hs.2, hnth, hget, if_neg hcommand]
        have hrecord : Triple
            (Account accepts l₀ j₀ fun l => (l.enter entry).dispatch (entry ++ "\n"))
            (Dialogue.record entry : Operation (Dialogue κ ο) Unit)
            (fun _ => Account accepts l₀ j₀ (Ledger.dispatch (entry ++ "\n")))
            fun _ => Account accepts l₀ j₀ id := by
          refine Dialogue.triple_record hkeep hentry fun d d' hstep hhistory hd => ?_
          refine hd.extend (e := .remembered entry) trivial hstep.journal
            (hstep.canonical hd.canonical) (hstep.output_accepted hsink hd.output).1 fun sent => ?_
          rw [hhistory]
          simp [queriesSolved, Ledger.enter]
        exact triple_bind howed fun _ => triple_bind (triple_dialogue hrecord) fun _ =>
          triple_dispatch hsink _ fuel
      · intro s hs
        have hmem : entry ∈ s.dialogue.history.entries := by
          rw [← hs.2]
          cases n with
          | zero => cases hget
          | succ n => exact List.mem_of_getElem? hget
        exact absurd (hs.1.canonical entry hmem) hentry

/-- Handling a query pays what is owed. -/
theorem triple_execute (query : String) (fuel : Nat) :
    Triple (fun s => Account accepts l₀ j₀ (Ledger.handle query) s.dialogue)
      (execute query fuel : Operation (Session ε κ ο) Unit)
      (fun _ s => Account accepts l₀ j₀ id s.dialogue)
      fun _ s => Account accepts l₀ j₀ id s.dialogue := by
  unfold execute Ledger.handle
  cases MetaCommand.parse query with
  | none => exact triple_dispatch hsink query fuel
  | some command =>
    have hnote (owed : Ledger → Ledger) : Triple
        (fun s : Session ε κ ο => Account accepts l₀ j₀ owed s.dialogue)
        (modify fun s => { s with dialogue := s.dialogue.note (.commanded command) })
        (fun _ s => Account accepts l₀ j₀ owed s.dialogue)
        fun _ s => Account accepts l₀ j₀ id s.dialogue :=
      triple_modify _ fun _ hs => hs.note trivial
    refine triple_bind (hnote _) fun _ => ?_
    cases command with
    | history =>
      have hhistory : Triple (fun s : Session ε κ ο => Account accepts l₀ j₀ id s.dialogue) history
          (fun _ s => Account accepts l₀ j₀ id s.dialogue)
          fun _ s => Account accepts l₀ j₀ id s.dialogue := fun _ hs => hs
      exact triple_bind hhistory fun _ => triple_dialogue (Dialogue.triple_say hsink _)
    | help => exact triple_dialogue (Dialogue.triple_say hsink _)
    | rerun n => exact triple_rerun hsink hkeep n fuel

omit hkeep

/-- A query that was read is left for good if the interrupt served next stops the session. -/
theorem triple_serviceInterrupts (query : String) :
    Triple
      (fun s => Pending accepts l₀ j₀ query [stripped query] none s.dialogue ∧
        s.state.halted = false)
      (serviceInterrupts : Operation (Session ε κ ο) Unit)
      (fun _ s => ∃ stops, Pending accepts l₀ j₀ query [stripped query] stops s.dialogue ∧
        s.state.halted = (stops == some true))
      fun _ s => Final l₀ j₀ s.dialogue := by
  have hserved (s : Session ε κ ο)
      (hs : Pending accepts l₀ j₀ query [stripped query] none s.dialogue) :
      Pending accepts l₀ j₀ query [stripped query]
        (some ((report Engine.interrupt s).2 || !(report Engine.interrupt s).1.isOk))
        (exec (drive Engine.interrupt .interrupted) s).2.dialogue :=
    hs.note (e := .interrupted _ _) trivial
  have hdrive : Triple
      (fun s : Session ε κ ο => Pending accepts l₀ j₀ query [stripped query] none s.dialogue ∧
        s.state.halted = false) (drive Engine.interrupt .interrupted)
      (fun _ s => ∃ stops, Pending accepts l₀ j₀ query [stripped query] stops s.dialogue ∧
        s.state.halted = (stops == some true))
      fun _ s => Final l₀ j₀ s.dialogue := by
    refine triple_ofCall (fun s a hs hcall => ?_) fun s error hs hcall => ?_
    · have hresult : (report Engine.interrupt s).1.isOk = true := by
        change ((Engine.interrupt (s.engine, s.state)).1.map fun _ => ()).isOk = true
        rw [show (Engine.interrupt (s.engine, s.state)).1 = .ok a from hcall]
        rfl
      refine ⟨_, hserved s hs.1, ?_⟩
      rw [hresult]
      change (Engine.interrupt (s.engine, s.state)).2.2.halted = _
      unfold report
      cases (Engine.interrupt (s.engine, s.state)).2.2.halted <;> rfl
    · have hresult : (report Engine.interrupt s).1.isOk = false := by
        change ((Engine.interrupt (s.engine, s.state)).1.map fun _ => ()).isOk = false
        rw [show (Engine.interrupt (s.engine, s.state)).1 = .error error from hcall]
        rfl
      have hstopped := hserved s hs.1
      rw [hresult, Bool.not_false, Bool.or_true] at hstopped
      exact hstopped.final
  refine triple_bind (triple_onDialogue (Dialogue.triple_takeInterrupt hsink) (·.halted = false))
    fun raised => triple_ite (fun _ => hdrive) fun _ => ?_
  exact triple_pure _ fun s hs => ⟨none, hs.1, hs.2⟩

/-- Asking for a query and reading it leaves the halt flag down. -/
theorem triple_prompt {op : Operation (Session ε κ ο) α} (h : Within IdleStep op) :
    Triple (fun s => Account accepts l₀ j₀ id s.dialogue ∧ s.state.halted = false) op
      (fun _ s => Account accepts l₀ j₀ id s.dialogue ∧ s.state.halted = false)
      fun _ s => Final l₀ j₀ s.dialogue := by
  refine Triple.of_error (h.triple fun s s' hstep hs => ?_) fun _ _ hs => hs.1.final
  obtain ⟨e, he, hstep⟩ := hstep
  refine ⟨hs.1.unbooked he.unbooked hstep.journal (hstep.history_of_idle he)
    (hstep.output_accepted hsink hs.1.output), ?_⟩
  rw [hstep.state_of_idle he]
  exact hs.2

variable (hkeep : ∀ entry (c : κ), (Console.remember entry c).1 = .ok ())
include hkeep

/-- After a query was read, the session stops or handles it and goes on. -/
theorem triple_afterRead (query : String) {fuel : Nat} {next : Operation (Session ε κ ο) SessionEnd}
    (hnext : Triple (fun s => Account accepts l₀ j₀ id s.dialogue) next
      (fun _ s => Final l₀ j₀ s.dialogue) fun _ s => Final l₀ j₀ s.dialogue) :
    Triple
      (fun s => Pending accepts l₀ j₀ query [stripped query] none s.dialogue ∧
        s.state.halted = false)
      (do
        serviceInterrupts
        if ← isHalted then
          enter .halted
          return .halted
        enter .executing
        execute query fuel
        next)
      (fun _ s => Final l₀ j₀ s.dialogue) fun _ s => Final l₀ j₀ s.dialogue := by
  refine triple_bind (triple_serviceInterrupts hsink query) fun _ => ?_
  refine triple_bind (Q := fun halted (s : Session ε κ ο) => ∃ stops,
    Pending accepts l₀ j₀ query [stripped query] stops s.dialogue ∧
      halted = (stops == some true)) (fun s hs => hs) fun halted => triple_ite ?_ ?_
  · rintro rfl
    have hstop : Triple (fun s => ∃ stops,
          Pending accepts l₀ j₀ query [stripped query] stops s.dialogue ∧
            true = (stops == some true)) (enter .halted : Operation (Session ε κ ο) Unit)
        (fun _ s => Final l₀ j₀ s.dialogue) fun _ s => Final l₀ j₀ s.dialogue := by
      refine triple_modify _ fun s hs => ?_
      obtain ⟨stops, hpending, hstops⟩ := hs
      obtain rfl := beq_iff_eq.1 hstops.symm
      exact (hpending.note (e := .entered .halted) trivial).final
    exact triple_bind hstop fun _ => triple_pure _ fun _ hs => hs
  · intro hhalted
    have hgo : Triple (fun s => ∃ stops,
          Pending accepts l₀ j₀ query [stripped query] stops s.dialogue ∧
            halted = (stops == some true)) (enter .executing : Operation (Session ε κ ο) Unit)
        (fun _ s => Account accepts l₀ j₀ (Ledger.handle query) s.dialogue)
        fun _ s => Final l₀ j₀ s.dialogue := by
      refine triple_modify _ fun s hs => ?_
      obtain ⟨stops, hpending, hstops⟩ := hs
      have hfalse : stops.or (some false) = some false := by
        rcases stops with _ | _ | _
        · rfl
        · rfl
        · exact absurd hstops hhalted
      have hnext := hpending.note (e := .entered .executing) trivial
      exact (hfalse ▸ hnext).account
    exact triple_bind hgo fun _ => triple_bind
      ((triple_execute hsink hkeep query fuel).of_error fun _ _ hs => hs.final) fun _ => hnext

/-- However a session goes on, it keeps its books to the end. -/
theorem triple_serve (fuel : Nat) :
    Triple (fun s => Account accepts l₀ j₀ id s.dialogue)
      (serve fuel : Operation (Session ε κ ο) SessionEnd)
      (fun _ s => Final l₀ j₀ s.dialogue) fun _ s => Final l₀ j₀ s.dialogue := by
  have hprompt : Within IdleStep (ask Engine.prompt .prompted : Operation (Session ε κ ο) String) :=
    within_of_step fun s => (Step.prompted s).idle trivial
  induction fuel with
  | zero => exact fun s hs => hs.final
  | succ fuel ih =>
    refine triple_bind (triple_enter _) fun _ => ?_
    refine triple_bind ((triple_quiet hsink quiet_serviceInterrupts).of_error
      fun _ _ hs => hs.final) fun _ => ?_
    refine triple_bind (Q := fun halted (s : Session ε κ ο) => Account accepts l₀ j₀ id s.dialogue ∧
      halted = s.state.halted) (fun s hs => ⟨hs, rfl⟩) fun halted => triple_ite (fun _ => ?_) ?_
    · exact (triple_ending _).of_pre fun s hs => hs.1
    · intro hhalted
      refine Triple.of_pre (P := fun s => Account accepts l₀ j₀ id s.dialogue ∧
        s.state.halted = false) ?_ fun s hs => ⟨hs.1, by simpa [← hs.2] using hhalted⟩
      refine triple_bind (triple_prompt hsink hprompt) fun prompt => ?_
      refine triple_bind (triple_prompt hsink within_flush) fun _ => ?_
      refine triple_bind ((triple_onDialogue (Dialogue.triple_readQuery hsink hkeep prompt _)
        (·.halted = false)).of_error fun _ _ hs => hs.final) fun input => ?_
      cases input with
      | endOfInput =>
        have hsay : Triple (fun s => Account accepts l₀ j₀ id s.dialogue ∧ s.state.halted = false)
            (say "\n" : Operation (Session ε κ ο) Unit)
            (fun _ s => Account accepts l₀ j₀ id s.dialogue) fun _ s => Final l₀ j₀ s.dialogue :=
          (triple_dialogue (Dialogue.triple_say hsink _)).of_pre fun s hs => hs.1
        exact triple_bind hsay fun _ => triple_ending _
      | query query => exact triple_afterRead hsink hkeep query ih

theorem triple_phases (fuel : Nat) :
    Triple (fun s => Account accepts l₀ j₀ id s.dialogue)
      (phases fuel : Operation (Session ε κ ο) SessionEnd)
      (fun _ s => Final l₀ j₀ s.dialogue) fun _ s => Final l₀ j₀ s.dialogue :=
  triple_bind (triple_enter _) fun _ => triple_bind
    ((triple_quiet hsink (within_start.mono fun _ _ => IdleStep.quiet)).of_error
      fun _ _ hs => hs.final) fun _ =>
    triple_bind (triple_enter _) fun _ => triple_serve hsink hkeep fuel

end Triples

omit [Console κ] [Output ο] in
theorem Final.flushHistory (h : Final l₀ j₀ s.dialogue) : Final l₀ j₀ s.flushHistory.dialogue := by
  cases hflushed : s.dialogue.history.flushed with
  | true => rwa [flushHistory_of_flushed hflushed]
  | false =>
    obtain ⟨hjournal, hhistory, -⟩ := flushHistory_of_not_flushed hflushed
    exact h.extend (hjournal.of_raised trivial trivial) (by rw [hhistory])

theorem Final.close (h : Final l₀ j₀ s.dialogue) : Final l₀ j₀ s.close.dialogue := by
  obtain ⟨-, -, hhistory, hout⟩ := resetTheme_frame s.flushHistory
  refine (Final.flushHistory h).extend (hout.mono fun e he => ?_)
    (congrArg History.entries hhistory)
  cases e <;> trivial

theorem close_entries (s : Session ε κ ο) :
    s.close.dialogue.history.entries = s.dialogue.history.entries := by
  unfold Session.close
  rw [(resetTheme_frame s.flushHistory).2.2.1]
  cases hflushed : s.dialogue.history.flushed with
  | true => rw [flushHistory_of_flushed hflushed]
  | false =>
    obtain ⟨-, hhistory, -⟩ := flushHistory_of_not_flushed hflushed
    rw [hhistory]

theorem canonical_runFor (fuel : Nat) (hs : s.dialogue.history.Canonical) :
    (s.runFor fuel).2.dialogue.history.Canonical := by
  have hstep (s s' : Session ε κ ο) (h : AnyStep s s') (hs : s.dialogue.history.Canonical) :
      s'.dialogue.history.Canonical := h.choose_spec.canonical hs
  have hloop : (exec (phases fuel) s).2.dialogue.history.Canonical :=
    holds_of_steps hstep (within_phases fuel s) hs
  rcases runFor_cases fuel s with hrun | hrun <;> rw [hrun]
  · exact hloop
  · unfold History.Canonical
    rwa [close_entries]

theorem canonical_runsFor (fuels : List Nat) (hs : s.dialogue.history.Canonical) :
    (s.runsFor fuels).2.dialogue.history.Canonical := by
  induction fuels generalizing s with
  | nil => exact hs
  | cons fuel fuels ih => exact ih (canonical_runFor fuel hs)

theorem final_runFor (hsink : Output.Infallible accepts received)
    (hkeep : ∀ entry (c : κ), (Console.remember entry c).1 = .ok ()) (fuel : Nat)
    (hcanonical : s.dialogue.history.Canonical) (hout : accepts s.dialogue.output) :
    Final ⟨s.dialogue.history.entries, []⟩ s.dialogue.journal (s.runFor fuel).2.dialogue := by
  have hstart : Account accepts ⟨s.dialogue.history.entries, []⟩ s.dialogue.journal id s.dialogue :=
    ⟨⟨[], ⟨rfl, sealed_nil, by simp [queriesRead], rfl⟩, by simp [queriesRead]⟩, hcanonical, hout⟩
  have hloop : Final ⟨s.dialogue.history.entries, []⟩ s.dialogue.journal
      (exec (phases fuel) s).2.dialogue := by
    have hphases := triple_phases hsink hkeep fuel s hstart
    cases hrun : exec (phases fuel) s with
    | mk r s' =>
      rw [hrun] at hphases
      cases r with
      | ok how => exact hphases
      | error stop => exact hphases
  rcases runFor_cases fuel s with hrun | hrun <;> rw [hrun]
  · exact hloop
  · exact Final.close hloop

/-- A run of a session at a scripted console comes to its end, and leaves the history that comes of
the queries it read; the queries that come of them are those it asked its engine to solve, and
whatever else was asked of its parties is told as well. This holds whatever runs went before. -/
theorem run_keeps_books (hsink : Output.Infallible accepts received)
    (s : Session ε ScriptedConsole ο) (hnew : s.dialogue.history = {})
    (hout : accepts s.dialogue.output) (fuels : List Nat) :
    (s.runsFor fuels).2.run.1 ≠ .unfinished ∧
      ∃ t, (s.runsFor fuels).2.run.2.dialogue.journal =
          t.reverse ++ (s.runsFor fuels).2.dialogue.journal ∧
        (queriesRead t).foldl Ledger.take ⟨(s.runsFor fuels).2.dialogue.history.entries, []⟩ =
          ⟨(s.runsFor fuels).2.run.2.dialogue.history.entries, queriesSolved t⟩ ∧
        (∀ read ∈ queriesRead t, stripped read.1 ≠ "") ∧
        (∀ read ∈ (queriesRead t).dropLast, read.2 = false) ∧
        (s.runsFor fuels).2.Performs t.reverse (s.runsFor fuels).2.run.2 := by
  have hcanonical : s.dialogue.history.Canonical := by
    rw [hnew]
    intro entry hentry
    cases hentry
  have hout' := (runsFor_frame hsink hout fuels).2
  obtain ⟨t, htold, hlast⟩ := final_runFor hsink (fun _ _ => rfl)
    (FiniteConsole.supply (s.runsFor fuels).2.dialogue.console + 2)
    (canonical_runsFor fuels hcanonical) hout'
  exact ⟨run_ends _, t, htold.journal, htold.balance, htold.entered, hlast,
    runFor_performs htold.journal⟩

omit [Engine ε τ] in
/-- The scripted engine has kept the queries that went to it. -/
theorem Performs.queries {s s' : Session ScriptedEngine κ ο} {t : List Event}
    (h : s.Performs t.reverse s') : s'.engine.queries = s.engine.queries ++ queriesSolved t := by
  obtain ⟨solutions, hperformed⟩ := h
  have hqueries := ScriptedEngine.queries_of_performed hperformed
  rwa [List.reverse_reverse] at hqueries

/-- A session that runs its first query again, and then that command. -/
def rerunning : Session ScriptedEngine ScriptedConsole Buffer where
  engine := {}
  dialogue := { console := { events := [.line "p.", .line "!1", .line "!2"] }, output := {} }

theorem rerunning_keeps_books :
    ∃ t, (rerunning.runsFor [1]).2.run.2.dialogue.journal =
        t.reverse ++ (rerunning.runsFor [1]).2.dialogue.journal ∧
      (queriesRead t).foldl Ledger.take ⟨["p."], []⟩ =
        ⟨["p.", "!1", "p.", "!2"], queriesSolved t⟩ ∧
      (rerunning.runsFor [1]).2.Performs t.reverse (rerunning.runsFor [1]).2.run.2 ∧
      (rerunning.runsFor [1]).2.engine.queries = ["p.\n"] ∧
      (rerunning.runsFor [1]).2.run.2.engine.queries = ["p.\n", "p.\n"] ∧
      queriesSolved t = ["p.\n"] := by
  have hbefore : (rerunning.runsFor [1]).2.dialogue.history.entries = ["p."] := by decide +kernel
  have hafter : (rerunning.runsFor [1]).2.run.2.dialogue.history.entries =
      ["p.", "!1", "p.", "!2"] := by decide +kernel
  have hfirst : (rerunning.runsFor [1]).2.engine.queries = ["p.\n"] := by decide +kernel
  have hsecond : (rerunning.runsFor [1]).2.run.2.engine.queries = ["p.\n", "p.\n"] := by
    decide +kernel
  obtain ⟨-, t, hjournal, hbooks, -, -, hperforms⟩ :=
    run_keeps_books Buffer.infallible rerunning rfl rfl [1]
  rw [hbefore, hafter] at hbooks
  have hqueries := hperforms.queries
  rw [hfirst, hsecond] at hqueries
  exact ⟨t, hjournal, hbooks, hperforms, hfirst, hsecond, (List.cons.inj hqueries).2.symm⟩

end Session

end LogicConsole
