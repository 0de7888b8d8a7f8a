import LogicConsole.Proofs.Closing
/-! What the journal tells has been done. An event is a call of a collaborator, with the answer that
the collaborator gives in the state it is in, or it concerns none of them. These calls, made one
after the other from the collaborators a run begins with, lead to those it leaves behind: none of
them was left out, and none was made besides. -/
namespace LogicConsole

open Operation Relation

/-- The console and the output of a dialogue, and whether its interrupt flag is up. -/
structure Terminal (κ ο : Type) where
  console : κ
  output : ο
  flag : Bool

/-- The parties of a session: its engine with the session state and the solutions found last, and
its terminal. -/
structure Parties (ε τ κ ο : Type) where
  engine : ε
  state : SessionState
  solutions : Option τ
  terminal : Terminal κ ο

/-- What no collaborator has a part in. -/
def Event.Internal : Event → Prop
  | .entered _ | .handlerInstalled | .completed _ | .commanded _ | .paged _ => True
  | _ => False

section Performs

variable {ε τ κ ο : Type} [Console κ] [Output ο]

/-- The terminal does what the event tells, and answers what the event tells. -/
inductive Terminal.Performs : Event → Terminal κ ο → Terminal κ ο → Prop
  | wrote (text : String) (t : Terminal κ ο) :
    Performs (.wrote text (Output.write text t.output).1.isOk) t
      { t with output := (Output.write text t.output).2 }
  | flushed (t : Terminal κ ο) :
    Performs .flushed t { t with output := (Output.flush t.output).2 }
  | lineRead (marker : String) (t : Terminal κ ο) :
    Performs (.readLine marker (Console.readLine marker t.console).1.result) t
      { t with console := (Console.readLine marker t.console).2 }
  | keyRead (t : Terminal κ ο) :
    Performs (.readKey (Console.readKey t.console).1.result) t
      { t with console := (Console.readKey t.console).2 }
  | remembered (entry : String) (t : Terminal κ ο) :
    Performs (.remembered entry) t { t with console := (Console.remember entry t.console).2 }
  | raised (t : Terminal κ ο) : Performs .raised t { t with flag := true }
  | taken (t : Terminal κ ο) (h : t.flag = true) : Performs .taken t { t with flag := false }
  | internal {e : Event} (h : e.Internal) (t : Terminal κ ο) : Performs e t t

/-- The sequence that is shown, or the terminal, does what the event tells. -/
inductive Paging.Performs [SolutionStream τ] :
    Event → τ × Terminal κ ο → τ × Terminal κ ο → Prop
  | terminal {e : Event} {s : τ} {t t' : Terminal κ ο} (h : Terminal.Performs e t t') :
    Performs e (s, t) (s, t')
  | pulled (s : τ) (t : Terminal κ ο) :
    Performs (.pulled (SolutionStream.next s).1) (s, t) ((SolutionStream.next s).2, t)
  | abandoned (s : τ) (t : Terminal κ ο) :
    Performs .abandoned (s, t) ((SolutionStream.abandon s).2, t)

/-- The party the event is about does what it tells, and answers what it tells. A query is solved in
the session state that has it for its query; solutions are those the engine gave last. -/
inductive Parties.Performs [Engine ε τ] : Event → Parties ε τ κ ο → Parties ε τ κ ο → Prop
  | terminal {e : Event} {p : Parties ε τ κ ο} {t : Terminal κ ο}
    (h : Terminal.Performs e p.terminal t) : Performs e p { p with terminal := t }
  | introduced (p : Parties ε τ κ ο) :
    Performs .introduced p { p with engine := (Engine.intro p.engine).2 }
  | prompted (p : Parties ε τ κ ο) :
    Performs .prompted p { p with engine := (Engine.prompt p.engine).2 }
  | solved {query : String} {p : Parties ε τ κ ο} {result : Except SessionError τ} {engine : ε}
    {state : SessionState}
    (h : Engine.solve (p.engine, { p.state with query }) = (result, engine, state)) :
    Performs (.solved query (result.map fun _ => ()) state.halted) p
      { p with engine, state, solutions := result.toOption }
  | pulled {p : Parties ε τ κ ο} {s s' : τ} {result : Except SessionError (Option Solution)}
    {engine : ε} (hs : p.solutions = some s)
    (h : Engine.next (p.engine, s) = (result, engine, s')) :
    Performs (.pulled result) p { p with engine, solutions := some s' }
  | abandoned {p : Parties ε τ κ ο} {s s' : τ} {result : Except SessionError Unit} {engine : ε}
    (hs : p.solutions = some s) (h : Engine.abandon (p.engine, s) = (result, engine, s')) :
    Performs .abandoned p { p with engine, solutions := some s' }
  | interrupted {p : Parties ε τ κ ο} {result : Except SessionError Unit} {engine : ε}
    {state : SessionState} (h : Engine.interrupt (p.engine, p.state) = (result, engine, state)) :
    Performs (.interrupted result state.halted) p { p with engine, state }
  | persisted {entries : List String} {p : Parties ε τ κ ο} {result : Except EngineError Unit}
    {engine : ε} (h : Engine.persist entries p.engine = (result, engine)) :
    Performs (.persisted entries result) p { p with engine }

end Performs

namespace Journal

variable {σ ρ : Type} {performs : Event → σ → σ → Prop} {a b c : σ} {j j' j'' : Journal}

/-- The events of a journal are performed one after the other, the last one first in the journal. -/
inductive Performed (performs : Event → σ → σ → Prop) (a : σ) : Journal → σ → Prop
  | here : Performed performs a [] a
  | event {e : Event} {j : Journal} {b c : σ} (h : Performed performs a j b)
    (hnext : performs e b c) : Performed performs a (e :: j) c

theorem Performed.append (h : Performed performs a j b) (h' : Performed performs b j' c) :
    Performed performs a (j' ++ j) c := by
  induction h' with
  | here => exact h
  | event _ hnext ih => exact ih.event hnext

theorem Performed.map {does : Event → ρ → ρ → Prop} {f : σ → ρ} (h : Performed performs a j b)
    (hf : ∀ e a b, performs e a b → does e (f a) (f b)) : Performed does (f a) j (f b) := by
  induction h with
  | here => exact .here
  | event _ hnext ih => exact ih.event (hf _ _ _ hnext)

/-- A journal goes on with events that lead from `a` to `b`. -/
def Leads (performs : Event → σ → σ → Prop) (j : Journal) (a : σ) (j' : Journal) (b : σ) : Prop :=
  ∃ t, j' = t ++ j ∧ Performed performs a t b

namespace Leads

theorem refl (j : Journal) (a : σ) : Leads performs j a j a := ⟨[], rfl, .here⟩

theorem event {e : Event} (h : Leads performs j a j' b) (hnext : performs e b c) :
    Leads performs j a (e :: j') c := by
  obtain ⟨t, rfl, ht⟩ := h
  exact ⟨e :: t, rfl, ht.event hnext⟩

theorem trans (h : Leads performs j a j' b) (h' : Leads performs j' b j'' c) :
    Leads performs j a j'' c := by
  obtain ⟨t, rfl, ht⟩ := h
  obtain ⟨u, rfl, hu⟩ := h'
  exact ⟨u ++ t, (List.append_assoc u t j).symm, ht.append hu⟩

theorem map {does : Event → ρ → ρ → Prop} {f : σ → ρ} (h : Leads performs j a j' b)
    (hf : ∀ e a b, performs e a b → does e (f a) (f b)) : Leads does j (f a) j' (f b) := by
  obtain ⟨t, ht, hperformed⟩ := h
  exact ⟨t, ht, hperformed.map hf⟩

end Leads

end Journal

open Journal

namespace Dialogue

variable {κ ο σ : Type}

def terminal (d : Dialogue κ ο) : Terminal κ ο := ⟨d.console, d.output, d.interrupt.isRaised⟩

section Notes

variable {performs : Event → σ → σ → Prop} {f : Terminal κ ο → σ} {j : Journal} {a : σ}

theorem leads_raise (hraise : ∀ t, performs .raised (f t) (f { t with flag := true }))
    {d : Dialogue κ ο} (h : Leads performs j a d.journal (f d.terminal)) :
    Leads performs j a d.raise.journal (f d.raise.terminal) := h.event (hraise d.terminal)

/-- To note an event that was performed may raise the flag besides. -/
theorem leads_note (hraise : ∀ t, performs .raised (f t) (f { t with flag := true }))
    {d : Dialogue κ ο} {e : Event} {b : σ} (h : Leads performs j a d.journal b)
    (hnext : performs e b (f d.terminal)) :
    Leads performs j a (d.note e).journal (f (d.note e).terminal) := by
  have hnoted := h.event hnext
  dsimp only [note]
  split
  · exact leads_raise (d := { d with journal := e :: d.journal }) hraise hnoted
  · exact hnoted

theorem leads_hear (hraise : ∀ t, performs .raised (f t) (f { t with flag := true }))
    {d : Dialogue κ ο} (h : Leads performs j a d.journal (f d.terminal)) (raised : Bool) :
    Leads performs j a (d.hear raised).journal (f (d.hear raised).terminal) := by
  rcases hear_cases raised d with hd | hd | ⟨flag, hd⟩ <;> rw [hd]
  · exact h
  · exact leads_raise hraise h
  · exact h

end Notes

variable [Console κ] [Output ο] {d d' : Dialogue κ ο} {e : Event}

/-- A step is performed by the terminal and then noted, and the console may have heard an interrupt
meanwhile. -/
theorem Step.noted (h : Step e d d') : ∃ (d₁ : Dialogue κ ο) (raised : Bool),
    d₁.journal = d.journal ∧ Terminal.Performs e d.terminal d₁.terminal ∧
      d' = (d₁.note e).hear raised := by
  cases h with
  | wrote text =>
    exact ⟨{ d with output := (Output.write text d.output).2 }, false, rfl,
      .wrote text d.terminal, rfl⟩
  | flushed =>
    exact ⟨{ d with output := (Output.flush d.output).2 }, false, rfl, .flushed d.terminal, rfl⟩
  | lineRead marker =>
    exact ⟨{ d with console := (Console.readLine marker d.console).2 }, _, rfl,
      .lineRead marker d.terminal, rfl⟩
  | keyRead =>
    exact ⟨{ d with console := (Console.readKey d.console).2 }, _, rfl, .keyRead d.terminal, rfl⟩
  | completed query =>
    exact ⟨d, false, rfl, .internal (e := .completed query) trivial d.terminal, rfl⟩
  | @remembered query entry hentry =>
    simp only [record, hentry]
    exact ⟨{ d with
      console := (Console.remember entry d.console).2, history := d.history.add entry }, false, rfl,
      .remembered entry d.terminal, rfl⟩
  | paged summary =>
    exact ⟨d, false, rfl, .internal (e := .paged summary) trivial d.terminal, rfl⟩
  | taken _ hup =>
    exact ⟨{ d with interrupt := ⟨false⟩ }, false, rfl, .taken d.terminal hup, rfl⟩

theorem Step.leads (h : Step e d d') :
    Leads Terminal.Performs d.journal d.terminal d'.journal d'.terminal := by
  obtain ⟨d₁, raised, hjournal, hperforms, rfl⟩ := h.noted
  exact leads_hear (f := id) Terminal.Performs.raised
    (leads_note (f := id) Terminal.Performs.raised (hjournal ▸ .refl _ _) hperforms) raised

end Dialogue

theorem SolutionStream.serveAll_append {τ : Type} [SolutionStream τ] (requests more : List Request)
    (s : τ) : (serveAll (requests ++ more) s).2 = (serveAll more (serveAll requests s).2).2 := by
  induction requests generalizing s with
  | nil => rfl
  | cons request requests ih => exact ih _

def Event.requests : Event → List Request
  | .pulled _ => [.next]
  | .abandoned => [.abandon]
  | _ => []

/-- Everything a stream was asked for, in its order. -/
def Journal.requests : Journal → List Request
  | [] => []
  | e :: t => requests t ++ e.requests

theorem Terminal.Performs.requests {κ ο : Type} [Console κ] [Output ο] {e : Event}
    {t t' : Terminal κ ο} (h : Performs e t t') : e.requests = [] := by
  cases h with
  | internal he => cases e <;> first | rfl | exact he.elim
  | _ => rfl

namespace Paging

variable {τ κ ο : Type} [SolutionStream τ] [Console κ] [Output ο] {p p' : Paging τ κ ο} {e : Event}

/-- The sequence shown is served what it is asked for. -/
theorem Performs.solutions {a b : τ × Terminal κ ο} (h : Performs e a b) :
    b.1 = (SolutionStream.serveAll e.requests a.1).2 := by
  cases h with
  | terminal h =>
    rw [h.requests]
    rfl
  | pulled => rfl
  | abandoned => rfl

def parties (p : Paging τ κ ο) : τ × Terminal κ ο := (p.solutions, p.dialogue.terminal)

theorem Step.leads (h : Step e p p') :
    Leads Performs p.dialogue.journal p.parties p'.dialogue.journal p'.parties := by
  have hraise (s : τ) (t : Terminal κ ο) :
      Performs .raised (s, t) (s, { t with flag := true }) := .terminal (.raised t)
  cases h with
  | dialogue h => exact h.leads.map fun _ _ _ => .terminal
  | pulled =>
    exact Dialogue.leads_note (hraise _) (.refl _ _) (.pulled p.solutions p.dialogue.terminal)
  | abandoned =>
    exact Dialogue.leads_note (hraise _) (.refl _ _) (.abandoned p.solutions p.dialogue.terminal)

theorem leads_of_steps {P : Event → Prop}
    (h : ReflTransGen (fun p p' : Paging τ κ ο => ∃ e, P e ∧ Step e p p') p p') :
    Leads Performs p.dialogue.journal p.parties p'.dialogue.journal p'.parties := by
  induction h with
  | refl => exact .refl _ _
  | tail _ hstep ih =>
    obtain ⟨e, -, hstep⟩ := hstep
    exact ih.trans hstep.leads

end Paging

namespace Session

variable {ε τ κ ο α : Type} [Engine ε τ] [Console κ] [Output ο] {s s' s'' : Session ε κ ο}
variable {e : Event} {solutions solutions' : Option τ}

omit [Engine ε τ] [Console κ] [Output ο] in
/-- The parties of a session in which these are the solutions found last. -/
def parties (s : Session ε κ ο) (solutions : Option τ) : Parties ε τ κ ο :=
  ⟨s.engine, s.state, solutions, s.dialogue.terminal⟩

/-- What the journal of a session tells on the way from `s` to `s'` was performed. -/
def Leads (s : Session ε κ ο) (solutions : Option τ) (s' : Session ε κ ο)
    (solutions' : Option τ) : Prop :=
  Journal.Leads Parties.Performs s.dialogue.journal (s.parties solutions) s'.dialogue.journal
    (s'.parties solutions')

/-- Whatever solutions were found last, what the journal tells was performed. -/
def Attested (s s' : Session ε κ ο) : Prop :=
  ∀ solutions : Option τ, ∃ solutions', s.Leads solutions s' solutions'

theorem Attested.refl (s : Session ε κ ο) : Attested s s := fun solutions =>
  ⟨solutions, .refl _ _⟩

theorem Attested.trans (h : Attested s s') (h' : Attested s' s'') : Attested s s'' := by
  intro solutions
  obtain ⟨solutions', hfirst⟩ := h solutions
  obtain ⟨solutions'', hsecond⟩ := h' solutions'
  exact ⟨solutions'', Journal.Leads.trans hfirst hsecond⟩

theorem attested_of_steps (h : ReflTransGen Attested s s') : Attested s s' := by
  induction h with
  | refl => exact .refl _
  | tail _ hlast ih => exact ih.trans hlast

/-- An event noted behind what a party did leads on. -/
theorem leads_note {engine : ε} {state : SessionState} {phase : Phase} {handler : HandlerUse}
    (h : Parties.Performs e (s.parties solutions)
      ⟨engine, state, solutions', s.dialogue.terminal⟩) :
    s.Leads solutions
      { s with engine, state, phase, handler, dialogue := s.dialogue.note e } solutions' :=
  Dialogue.leads_note (f := fun t => (⟨engine, state, solutions', t⟩ : Parties ε τ κ ο))
    (fun t => .terminal (.raised t)) (.refl _ _) h

theorem leads_internal {phase : Phase} {handler : HandlerUse} (he : e.Internal) :
    s.Leads solutions { s with phase, handler, dialogue := s.dialogue.note e } solutions :=
  leads_note (.terminal (.internal he _))

theorem leads_dialogue {d : Dialogue κ ο} (h : Dialogue.Step e s.dialogue d) :
    s.Leads solutions { s with dialogue := d } solutions :=
  h.leads.map (f := fun t => (⟨s.engine, s.state, solutions, t⟩ : Parties ε τ κ ο))
    fun _ t _ => .terminal (p := ⟨s.engine, s.state, solutions, t⟩)

/-- The solutions of a query that was sent are those found last, if there are any. -/
theorem leads_send (query : String) (s : Session ε κ ο) (solutions : Option τ) :
    s.Leads solutions (exec (send query) s).2 (exec (send query) s).1.toOption := by
  have hsolved : (exec (send query) s).1.toOption =
      (Engine.solve (s.engine, { s.state with query })).1.toOption := by
    change ((Engine.solve (s.engine, { s.state with query })).1.mapError Stop.fault).toOption = _
    cases (Engine.solve (s.engine, { s.state with query })).1 <;> rfl
  rw [hsolved]
  exact leads_note (.solved rfl)

theorem leads_interrupt (s : Session ε κ ο) (solutions : Option τ) :
    s.Leads solutions (exec (drive Engine.interrupt .interrupted) s).2 solutions := by
  have hunit (result : Except SessionError Unit) : (result.map fun _ => ()) = result := by
    cases result <;> rfl
  cases hcall : Engine.interrupt (s.engine, s.state) with
  | mk result after =>
    simp only [drive, exec_ofCall, hcall, hunit]
    exact leads_note (.interrupted hcall)

theorem Step.attested (h : Step e s s') (he : ¬ e.Draws) : Attested s s' := by
  intro solutions
  cases h with
  | dialogue h => exact ⟨solutions, leads_dialogue h⟩
  | paging h =>
    cases h with
    | dialogue h => exact ⟨solutions, leads_dialogue h⟩
    | pulled => exact absurd trivial he
    | abandoned => exact absurd trivial he
  | entered phase => exact ⟨solutions, leads_internal trivial⟩
  | introduced => exact ⟨solutions, leads_note (.introduced _)⟩
  | prompted => exact ⟨solutions, leads_note (.prompted _)⟩
  | handlerInstalled => exact ⟨solutions, leads_internal trivial⟩
  | commanded command => exact ⟨solutions, leads_internal trivial⟩
  | solved query => exact ⟨_, leads_send query s solutions⟩
  | interrupted => exact ⟨solutions, leads_interrupt s solutions⟩

theorem attested_service :
    Within Attested (serviceInterrupts : Operation (Session ε κ ο) Unit) := by
  have htake : Within Attested
      (onDialogue Dialogue.takeInterrupt : Operation (Session ε κ ο) Bool) :=
    within_focus Dialogue.calm_takeInterrupt (fun _ => rfl)
      fun _ _ _ ⟨_, _, hstep⟩ => Step.attested (.dialogue hstep) hstep.not_draws
  refine within_bind htake fun raised => within_ite ?_ (within_pure _)
  exact within_of_step fun s => (Step.interrupted s).attested id

/-- A display draws on the solutions it was given. -/
theorem leads_page (solutions : τ) (fuel : Nat) (s : Session ε κ ο) :
    ∃ solutions', s.Leads (some solutions) (exec (page solutions fuel) s).2 solutions' := by
  let place (p : (ε × τ) × Terminal κ ο) : Parties ε τ κ ο := ⟨p.1.1, s.state, some p.1.2, p.2⟩
  have hplace (e : Event) (p p' : (ε × τ) × Terminal κ ο) (h : Paging.Performs e p p') :
      Parties.Performs e (place p) (place p') := by
    cases h with
    | terminal h => exact .terminal h
    | pulled => exact .pulled rfl rfl
    | abandoned => exact .abandoned rfl rfl
  have hpage := Paging.leads_of_steps
    (Paging.shows_page fuel (⟨(s.engine, solutions), s.dialogue⟩ : Paging (ε × τ) κ ο))
  exact ⟨_, hpage.map hplace⟩

theorem attested_dispatch (query : String) (fuel : Nat) :
    Within Attested (dispatch query fuel : Operation (Session ε κ ο) Unit) := by
  refine within_of_step fun s solutions => ?_
  have hsend := leads_send query s solutions
  rw [dispatch_eq, exec_bind]
  cases hsent : exec (send query) s with
  | mk result s₁ =>
    rw [hsent] at hsend
    cases result with
    | error stop => exact ⟨_, hsend⟩
    | ok found =>
      obtain ⟨solutions', hpage⟩ := leads_page found fuel s₁
      have hservice : ReflTransGen Attested (exec (page found fuel) s₁).2
          (exec (present found fuel) s₁).2 :=
        steps_bind _ (fun _ => within_ite attested_service (within_pure _)) s₁
      obtain ⟨solutions'', hlast⟩ := attested_of_steps hservice solutions'
      exact ⟨solutions'', (Journal.Leads.trans hsend hpage).trans hlast⟩

theorem along_attested : Along (Attested : Session ε κ ο → Session ε κ ο → Prop) where
  step _ _ := fun ⟨_, he, hstep⟩ => hstep.attested he.2
  service := attested_service
  dispatch := attested_dispatch

theorem attested_close (s : Session ε κ ο) : Attested s s.close := by
  have hflush : Attested s s.flushHistory := by
    intro solutions
    refine ⟨solutions, ?_⟩
    unfold flushHistory
    split
    · exact .refl _ _
    · exact Dialogue.leads_note
        (f := fun t => (⟨_, s.state, solutions, t⟩ : Parties ε τ κ ο))
        (fun t => .terminal (.raised t)) (.refl _ _) (.persisted rfl)
  have hwrote : Attested s.flushHistory (exec (say s.flushHistory.theme.reset) s.flushHistory).2 :=
    Step.attested (.dialogue (.wrote _ s.flushHistory.dialogue)) id
  unfold close
  rcases resetTheme_cases s.flushHistory with hreset | hreset | hreset <;> rw [hreset]
  · exact hflush
  · exact hflush.trans hwrote
  · exact hflush.trans (hwrote.trans (Step.attested (.dialogue (.flushed _)) id))

theorem attested_runFor (s : Session ε κ ο) (fuel : Nat) : Attested s (s.runFor fuel).2 := by
  have hloop : Attested s (exec (phases fuel) s).2 :=
    attested_of_steps (along_attested.phases fuel s)
  rcases runFor_cases fuel s with hrun | hrun <;> rw [hrun]
  · exact hloop
  · exact hloop.trans (attested_close _)

/-- The parties of `s` perform these events, and are then those of `s'`. -/
def Performs (s : Session ε κ ο) (t : Journal) (s' : Session ε κ ο) : Prop :=
  ∃ solutions, Journal.Performed Parties.Performs (s.parties none) t (s'.parties solutions)

/-- What a run adds to its journal was performed. -/
theorem runFor_performs {t : Journal} {fuel : Nat}
    (ht : (s.runFor fuel).2.dialogue.journal = t ++ s.dialogue.journal) :
    s.Performs t (s.runFor fuel).2 := by
  obtain ⟨solutions, u, hu, hperformed⟩ := attested_runFor s fuel none
  obtain rfl : t = u := List.append_cancel_right (ht.symm.trans hu)
  exact ⟨solutions, hperformed⟩

end Session

namespace ScriptedEngine

theorem solve_engine {e e' : ScriptedEngine} {s s' : SessionState}
    {result : Except SessionError ScriptedStream} (h : Engine.solve (e, s) = (result, e', s')) :
    e' = { e with queries := e.queries ++ [s.query], replies := e.replies.tail } := by
  have hengine : (e.solve s).2.1 = e' := congrArg (·.2.1) h
  rw [← hengine, solve]
  split <;> rfl

theorem next_engine {e e' : ScriptedEngine} {s s' : ScriptedStream}
    {result : Except SessionError (Option Solution)} (h : Engine.next (e, s) = (result, e', s')) :
    ∃ pulled, e' = { e with pulled } := by
  have hengine : (e.next s).2.1 = e' := congrArg (·.2.1) h
  rw [← hengine, next]
  split
  · exact ⟨e.pulled, rfl⟩
  · split
    · exact ⟨e.pulled + 1, rfl⟩
    · exact ⟨e.pulled, rfl⟩

theorem abandon_engine {e e' : ScriptedEngine} {s s' : ScriptedStream}
    {result : Except SessionError Unit} (h : Engine.abandon (e, s) = (result, e', s')) :
    ∃ abandoned, e' = { e with abandoned } := by
  have hengine : (e.abandon s).1 = e' := congrArg (·.2.1) h
  rw [← hengine, abandon]
  split
  · exact ⟨e.abandoned, rfl⟩
  · exact ⟨e.abandoned + 1, rfl⟩

/-- The queries and the interrupts that the engine has been told of, after the event. -/
def told (engine : ScriptedEngine) : Event → List String × Nat
  | .solved query _ _ => (engine.queries ++ [query], engine.interrupts)
  | .interrupted _ _ => (engine.queries, engine.interrupts + 1)
  | _ => (engine.queries, engine.interrupts)

/-- The scripted engine keeps count of the events that concern it, and of no others. -/
theorem told_of_performs {κ ο : Type} [Console κ] [Output ο] {e : Event}
    {a b : Parties ScriptedEngine ScriptedStream κ ο} (h : Parties.Performs e a b) :
    (b.engine.queries, b.engine.interrupts) = a.engine.told e := by
  cases h with
  | terminal h =>
    cases h with
    | internal he => cases e <;> first | rfl | exact he.elim
    | _ => rfl
  | introduced => rfl
  | prompted => rfl
  | solved h =>
    obtain rfl := solve_engine h
    rfl
  | pulled _ h =>
    obtain ⟨_, rfl⟩ := next_engine h
    rfl
  | abandoned _ h =>
    obtain ⟨_, rfl⟩ := abandon_engine h
    rfl
  | interrupted h =>
    obtain ⟨-, rfl, -⟩ := Prod.mk.inj h
    rfl
  | persisted h =>
    obtain ⟨-, rfl⟩ := Prod.mk.inj h
    rfl

end ScriptedEngine

end LogicConsole
