import LogicConsole.Proofs.Operation
import LogicConsole.Session

/-! What can happen in a session, one event at a time. Every operation of a session is a sequence of
such steps, so a property of single steps is a property of whole runs. Steps that are idle touch
neither the history nor the queries, and change no phase. -/
namespace LogicConsole

open Operation Relation

/-- Neither a query, nor an entry, a phase or an interrupt served. -/
def Event.Idle : Event → Prop
  | .completed _ | .remembered _ | .solved _ _ _ | .entered _ | .interrupted _ _
  | .persisted _ _ => False
  | _ => True

/-- Output, keys, solutions and the texts of the engine: what a session may do at any time. -/
def Event.Calm : Event → Prop
  | .introduced | .handlerInstalled | .prompted | .wrote _ _ | .flushed | .readKey _ | .raised
  | .taken | .pulled _ | .abandoned => True
  | _ => False

/-- No interrupt is served: none is taken off the flag, and none goes to the engine. -/
def Event.Unserved : Event → Prop
  | .taken | .interrupted _ _ => False
  | _ => True

/-- Calm, and no interrupt served. -/
def Event.Steady (e : Event) : Prop := e.Calm ∧ e.Unserved

/-- The display of solutions is calm, and its end is noted. -/
def Event.Displays (e : Event) : Prop := e.Calm ∨ ∃ summary, e = .paged summary

/-- A solution is asked for, or the rest of them is given up. -/
def Event.Draws : Event → Prop
  | .pulled _ | .abandoned => True
  | _ => False

theorem Event.Calm.idle {e : Event} (h : e.Calm) : e.Idle := by
  cases e <;> trivial

theorem Event.Displays.idle {e : Event} (h : e.Displays) : e.Idle := by
  rcases h with h | ⟨summary, rfl⟩
  · exact h.idle
  · trivial

/-- The entries of a session's history are handed over. -/
def Event.Persists : Event → Prop
  | .persisted _ _ => True
  | _ => False

/-- A journal goes on with events such as `p`. -/
def Journal.Adds (p : Event → Prop) (before after : Journal) : Prop :=
  ∃ t, after = t ++ before ∧ ∀ e ∈ t, p e

namespace Journal.Adds

variable {p q : Event → Prop} {j j' j'' : Journal}

theorem refl (j : Journal) : Adds p j j := ⟨[], rfl, by simp⟩

theorem cons {e : Event} (he : p e) : Adds p j (e :: j) := ⟨[e], rfl, by simpa using he⟩

theorem trans (h : Adds p j j') (h' : Adds p j' j'') : Adds p j j'' := by
  obtain ⟨t, rfl, ht⟩ := h
  obtain ⟨u, rfl, hu⟩ := h'
  refine ⟨u ++ t, by rw [List.append_assoc], fun e he => ?_⟩
  rcases List.mem_append.1 he with he | he
  · exact hu e he
  · exact ht e he

theorem mono (h : Adds p j j') (hpq : ∀ e, p e → q e) : Adds q j j' := by
  obtain ⟨t, ht, hall⟩ := h
  exact ⟨t, ht, fun e he => hpq e (hall e he)⟩

/-- Only `e` need be looked at where nothing but a raised flag comes behind it. -/
theorem of_raised {e : Event} (h : Adds (· = .raised) (e :: j) j') (he : p e)
    (hraised : p .raised) : Adds p j j' :=
  (cons he).trans (h.mono fun _ hx => hx ▸ hraised)

end Journal.Adds

namespace Dialogue

variable {κ ο : Type}

/-- Noting an event adds it to the journal, and a signal may raise the interrupt flag besides. -/
theorem note_cases (e : Event) (d : Dialogue κ ο) :
    d.note e = { d with journal := e :: d.journal } ∨
      d.note e = { d with interrupt := ⟨true⟩, journal := .raised :: e :: d.journal } := by
  dsimp only [note, raise, InterruptFlag.raise]
  split
  · exact .inr rfl
  · exact .inl rfl

theorem hear_cases (raised : Bool) (d : Dialogue κ ο) :
    d.hear raised = d ∨ d.hear raised = d.raise ∨
      ∃ flag, d.hear raised = { d with otherFlag := some flag } := by
  unfold hear
  split
  · split
    · exact .inr (.inl rfl)
    · exact .inr (.inr ⟨_, rfl⟩)
  · exact .inl rfl

@[simp] theorem history_note (e : Event) (d : Dialogue κ ο) : (d.note e).history = d.history := by
  rcases note_cases e d with h | h <;> rw [h]

@[simp] theorem output_note (e : Event) (d : Dialogue κ ο) : (d.note e).output = d.output := by
  rcases note_cases e d with h | h <;> rw [h]

@[simp] theorem history_hear (raised : Bool) (d : Dialogue κ ο) :
    (d.hear raised).history = d.history := by
  rcases hear_cases raised d with h | h | ⟨flag, h⟩ <;> rw [h]
  rfl

@[simp] theorem output_hear (raised : Bool) (d : Dialogue κ ο) :
    (d.hear raised).output = d.output := by
  rcases hear_cases raised d with h | h | ⟨flag, h⟩ <;> rw [h]
  rfl

@[simp] theorem console_note (e : Event) (d : Dialogue κ ο) : (d.note e).console = d.console := by
  rcases note_cases e d with h | h <;> rw [h]

@[simp] theorem console_hear (raised : Bool) (d : Dialogue κ ο) :
    (d.hear raised).console = d.console := by
  rcases hear_cases raised d with h | h | ⟨flag, h⟩ <;> rw [h]
  rfl

theorem journal_note (e : Event) (d : Dialogue κ ο) :
    Journal.Adds (· = .raised) (e :: d.journal) (d.note e).journal := by
  rcases note_cases e d with h | h <;> rw [h]
  · exact .refl _
  · exact .cons rfl

theorem journal_hear (raised : Bool) (d : Dialogue κ ο) :
    Journal.Adds (· = .raised) d.journal (d.hear raised).journal := by
  rcases hear_cases raised d with h | h | ⟨flag, h⟩ <;> rw [h]
  · exact .refl _
  · exact .cons rfl
  · exact .refl _

variable [Console κ] [Output ο]

/-- One thing that happens in a dialogue, told by the event that notes it. -/
inductive Step : Event → Dialogue κ ο → Dialogue κ ο → Prop
  | wrote (text : String) (d : Dialogue κ ο) :
    Step (.wrote text (Output.write text d.output).1.isOk) d (exec (say text) d).2
  | flushed (d : Dialogue κ ο) : Step .flushed d (exec flush d).2
  | lineRead (marker : String) (d : Dialogue κ ο) :
    Step (.readLine marker (Console.readLine marker d.console).1.result) d
      (exec (readLine marker) d).2
  | keyRead (d : Dialogue κ ο) :
    Step (.readKey (Console.readKey d.console).1.result) d (exec readKey d).2
  | completed (query : String) (d : Dialogue κ ο) :
    Step (.completed query) d (d.note (.completed query))
  | remembered {query entry : String} (h : History.entryOf query = some entry)
      (d : Dialogue κ ο) : Step (.remembered entry) d (exec (record query) d).2
  | paged (summary : PageSummary) (d : Dialogue κ ο) :
    Step (.paged summary) d (d.note (.paged summary))
  | taken (d : Dialogue κ ο) (h : d.interrupt.isRaised) :
    Step .taken d (note .taken { d with interrupt := ⟨false⟩ })

abbrev IdleStep (d d' : Dialogue κ ο) : Prop := ∃ e, e.Idle ∧ Step e d d'

abbrev CalmStep (d d' : Dialogue κ ο) : Prop := ∃ e, e.Calm ∧ Step e d d'

abbrev SteadyStep (d d' : Dialogue κ ο) : Prop := ∃ e, e.Steady ∧ Step e d d'

abbrev UnservedStep (d d' : Dialogue κ ο) : Prop := ∃ e, e.Unserved ∧ Step e d d'

abbrev LineStep (d d' : Dialogue κ ο) : Prop := ∃ marker input, Step (.readLine marker input) d d'

abbrev AnyStep (d d' : Dialogue κ ο) : Prop := ∃ e, Step e d d'

theorem Step.idle {e : Event} {d d' : Dialogue κ ο} (h : Step e d d') (he : e.Idle) :
    IdleStep d d' := ⟨e, he, h⟩

theorem Step.calm {e : Event} {d d' : Dialogue κ ο} (h : Step e d d') (he : e.Calm) :
    CalmStep d d' := ⟨e, he, h⟩

theorem Step.steady {e : Event} {d d' : Dialogue κ ο} (h : Step e d d') (he : e.Steady) :
    SteadyStep d d' := ⟨e, he, h⟩

theorem Step.unserved {e : Event} {d d' : Dialogue κ ο} (h : Step e d d') (he : e.Unserved) :
    UnservedStep d d' := ⟨e, he, h⟩

theorem Step.not_persisted {e : Event} {d d' : Dialogue κ ο} (h : Step e d d') :
    ¬ e.Persists := by
  cases h <;> exact id

theorem Step.not_draws {e : Event} {d d' : Dialogue κ ο} (h : Step e d d') : ¬ e.Draws := by
  cases h <;> exact id

/-- A step adds its event to the journal, behind which the interrupt flag may be raised. -/
theorem Step.journal {e : Event} {d d' : Dialogue κ ο} (h : Step e d d') :
    Journal.Adds (· = .raised) (e :: d.journal) d'.journal := by
  have hread (d : Dialogue κ ο) (raised : Bool) :
      Journal.Adds (· = .raised) (e :: d.journal) ((d.note e).hear raised).journal :=
    (journal_note e d).trans (journal_hear raised (d.note e))
  cases h with
  | wrote text => exact journal_note _ _
  | flushed => exact journal_note _ _
  | lineRead marker => exact hread _ _
  | keyRead => exact hread _ _
  | completed query => exact journal_note _ _
  | remembered h =>
    simp only [record, h]
    exact journal_note _ _
  | paged summary => exact journal_note _ _
  | taken h => exact journal_note _ _

theorem Step.flushed_eq {e : Event} {d d' : Dialogue κ ο} (h : Step e d d') :
    d'.history.flushed = d.history.flushed := by
  cases h with
  | remembered h => simp [record, h, History.add]
  | _ => simp [say, flush, readLine, readKey]

theorem Step.history_cases {e : Event} {d d' : Dialogue κ ο} (h : Step e d d') :
    d'.history = d.history ∨ ∃ query entry, e = .remembered entry ∧
      History.entryOf query = some entry ∧ d'.history = d.history.add entry := by
  cases h with
  | @remembered query entry h =>
    refine .inr ⟨query, entry, rfl, h, ?_⟩
    simp [record, h]
  | _ => exact .inl (by simp [say, flush, readLine, readKey])

theorem Step.history_of_idle {e : Event} {d d' : Dialogue κ ο} (h : Step e d d') (he : e.Idle) :
    d'.history = d.history := by
  rcases h.history_cases with h | ⟨query, entry, rfl, -⟩
  · exact h
  · exact he.elim

theorem IdleStep.any {d d' : Dialogue κ ο} (h : IdleStep d d') : AnyStep d d' :=
  ⟨h.choose, h.choose_spec.2⟩

theorem UnservedStep.any {d d' : Dialogue κ ο} (h : UnservedStep d d') : AnyStep d d' :=
  ⟨h.choose, h.choose_spec.2⟩

theorem within_idle {α : Type} {op : Operation (Dialogue κ ο) α} (h : Within CalmStep op) :
    Within IdleStep op := h.mono fun _ _ ⟨_, he, hstep⟩ => hstep.idle he.idle

theorem calm_of_steady {α : Type} {op : Operation (Dialogue κ ο) α} (h : Within SteadyStep op) :
    Within CalmStep op := h.mono fun _ _ ⟨_, he, hstep⟩ => hstep.calm he.1

theorem steady_say (text : String) :
    Within SteadyStep (say text : Operation (Dialogue κ ο) Unit) :=
  within_of_step fun d => (Step.wrote text d).steady ⟨trivial, trivial⟩

theorem steady_flush : Within SteadyStep (flush : Operation (Dialogue κ ο) Unit) :=
  within_of_step fun d => (Step.flushed d).steady ⟨trivial, trivial⟩

theorem calm_say (text : String) : Within CalmStep (say text : Operation (Dialogue κ ο) Unit) :=
  calm_of_steady (steady_say text)

theorem calm_flush : Within CalmStep (flush : Operation (Dialogue κ ο) Unit) :=
  calm_of_steady steady_flush

theorem within_say (text : String) : Within IdleStep (say text : Operation (Dialogue κ ο) Unit) :=
  within_idle (calm_say text)

theorem steady_readKey : Within SteadyStep (readKey : Operation (Dialogue κ ο) (Option Char)) :=
  within_of_step fun d => (Step.keyRead d).steady ⟨trivial, trivial⟩

theorem steady_pending : Within SteadyStep (pending : Operation (Dialogue κ ο) Bool) :=
  fun _ => .refl

omit [Console κ] [Output ο] in
theorem exec_takeInterrupt (d : Dialogue κ ο) :
    exec takeInterrupt d =
      if d.interrupt.isRaised then (.ok true, note .taken { d with interrupt := ⟨false⟩ })
      else (.ok false, d) := by
  obtain ⟨console, output, ⟨raised⟩, otherFlag, signals, history, journal⟩ := d
  cases raised <;> rfl

theorem calm_takeInterrupt : Within CalmStep (takeInterrupt : Operation (Dialogue κ ο) Bool) := by
  intro d
  rw [exec_takeInterrupt]
  split
  · rename_i h
    exact .single ((Step.taken d h).calm trivial)
  · exact .refl

theorem within_takeInterrupt : Within IdleStep (takeInterrupt : Operation (Dialogue κ ο) Bool) :=
  within_idle calm_takeInterrupt

theorem unserved_record (query : String) :
    Within UnservedStep (record query : Operation (Dialogue κ ο) Unit) := by
  intro d
  cases h : History.entryOf query with
  | none => simp only [record, h, exec_pure, ReflTransGen.refl]
  | some entry => exact .single ((Step.remembered h d).unserved trivial)

theorem within_record (query : String) :
    Within AnyStep (record query : Operation (Dialogue κ ο) Unit) :=
  (unserved_record query).mono fun _ _ => UnservedStep.any

theorem lines_collectLines (prompt : String) (fuel : Nat) (typed : String) :
    Within LineStep (collectLines prompt fuel typed : Operation (Dialogue κ ο) QueryInput) := by
  have hread (marker : String) :
      Within LineStep (readLine marker : Operation (Dialogue κ ο) LineInput) :=
    within_of_step fun d => ⟨marker, _, .lineRead marker d⟩
  induction fuel generalizing typed with
  | zero => exact within_unfinished
  | succ fuel ih =>
    refine within_bind (hread _) fun input => ?_
    cases input with
    | interrupted => exact ih typed
    | endOfInput => exact within_pure _
    | line line => exact within_ite (within_pure _) (ih _)

theorem within_collectLines (prompt : String) (fuel : Nat) (typed : String) :
    Within IdleStep (collectLines prompt fuel typed : Operation (Dialogue κ ο) QueryInput) :=
  (lines_collectLines prompt fuel typed).mono fun _ _ ⟨_, _, hstep⟩ => hstep.idle trivial

theorem unserved_readQuery (prompt : String) (fuel : Nat) :
    Within UnservedStep (readQuery prompt fuel : Operation (Dialogue κ ο) QueryInput) := by
  have hlines := (lines_collectLines (κ := κ) (ο := ο) prompt fuel "").mono
    fun _ _ ⟨_, _, hstep⟩ => hstep.unserved trivial
  refine within_bind hlines fun input => ?_
  cases input with
  | endOfInput => exact within_pure _
  | query text =>
    have hmark : Within UnservedStep (mark (.completed text) : Operation (Dialogue κ ο) Unit) :=
      within_of_step fun d => (Step.completed text d).unserved trivial
    exact within_bind hmark fun _ => within_bind (unserved_record text) fun _ => within_pure _

theorem within_readQuery (prompt : String) (fuel : Nat) :
    Within AnyStep (readQuery prompt fuel : Operation (Dialogue κ ο) QueryInput) :=
  (unserved_readQuery prompt fuel).mono fun _ _ => UnservedStep.any

end Dialogue

namespace Paging

variable {τ κ ο : Type} [SolutionStream τ] [Console κ] [Output ο] {α : Type}

inductive Step : Event → Paging τ κ ο → Paging τ κ ο → Prop
  | dialogue {e : Event} {p : Paging τ κ ο} {d : Dialogue κ ο} (h : Dialogue.Step e p.dialogue d) :
    Step e p { p with dialogue := d }
  | pulled (p : Paging τ κ ο) :
    Step (.pulled (SolutionStream.next p.solutions).1) p (exec pull p).2
  | abandoned (p : Paging τ κ ο) : Step .abandoned p (exec abandon p).2

abbrev CalmStep (p p' : Paging τ κ ο) : Prop := ∃ e, e.Calm ∧ Step e p p'

abbrev SteadyStep (p p' : Paging τ κ ο) : Prop := ∃ e, e.Steady ∧ Step e p p'

abbrev DisplayStep (p p' : Paging τ κ ο) : Prop := ∃ e, e.Displays ∧ Step e p p'

abbrev ShowStep (p p' : Paging τ κ ο) : Prop := ∃ e, (e.Displays ∧ e.Unserved) ∧ Step e p p'

theorem Step.steady {e : Event} {p p' : Paging τ κ ο} (h : Step e p p') (he : e.Steady) :
    SteadyStep p p' := ⟨e, he, h⟩

theorem calm_of_steady {op : Operation (Paging τ κ ο) α} (h : Within SteadyStep op) :
    Within CalmStep op := h.mono fun _ _ ⟨e, he, hstep⟩ => ⟨e, he.1, hstep⟩

theorem within_onDialogue {op : Operation (Dialogue κ ο) α} (h : Within Dialogue.CalmStep op) :
    Within CalmStep (onDialogue op : Operation (Paging τ κ ο) α) :=
  within_focus h (fun _ => rfl) fun _ _ _ ⟨e, he, hstep⟩ => ⟨e, he, .dialogue hstep⟩

theorem steady_onDialogue {op : Operation (Dialogue κ ο) α} (h : Within Dialogue.SteadyStep op) :
    Within SteadyStep (onDialogue op : Operation (Paging τ κ ο) α) :=
  within_focus h (fun _ => rfl) fun _ _ _ ⟨e, he, hstep⟩ => ⟨e, he, .dialogue hstep⟩

theorem steady_say (text : String) :
    Within SteadyStep (say text : Operation (Paging τ κ ο) Unit) :=
  steady_onDialogue (Dialogue.steady_say text)

theorem within_say (text : String) : Within CalmStep (say text : Operation (Paging τ κ ο) Unit) :=
  calm_of_steady (steady_say text)

theorem steady_pull : Within SteadyStep (pull : Operation (Paging τ κ ο) (Option Solution)) :=
  within_of_step fun p => (Step.pulled p).steady ⟨trivial, trivial⟩

theorem steady_abandon : Within SteadyStep (abandon : Operation (Paging τ κ ο) Unit) :=
  within_of_step fun p => (Step.abandoned p).steady ⟨trivial, trivial⟩

theorem steady_askForMore : Within SteadyStep (askForMore : Operation (Paging τ κ ο) Bool) := by
  refine within_bind (steady_say _) fun _ => ?_
  refine within_bind (steady_onDialogue Dialogue.steady_flush) fun _ => ?_
  refine within_bind (steady_onDialogue Dialogue.steady_readKey) fun answer => ?_
  exact within_bind (steady_say _) fun _ => within_bind (steady_say _) fun _ => within_pure _

theorem steady_showFrom (fuel shown prompts : Nat) :
    Within SteadyStep (showFrom fuel shown prompts : Operation (Paging τ κ ο) PageSummary) := by
  induction fuel generalizing shown prompts with
  | zero => exact within_unfinished
  | succ fuel ih =>
    have hstop (summary : PageSummary) :
        Within SteadyStep (do abandon; return summary : Operation (Paging τ κ ο) PageSummary) :=
      within_bind steady_abandon fun _ => within_pure _
    refine within_bind (steady_onDialogue Dialogue.steady_pending) fun raised => ?_
    refine within_ite ?_ (within_bind steady_pull fun solution => ?_)
    · exact within_bind steady_abandon fun _ => within_bind (steady_say _) fun _ => within_pure _
    · cases solution with
      | none => exact within_pure _
      | some solution =>
        refine within_bind (steady_say _) fun _ => within_ite ?_ ?_
        · exact within_bind (steady_say _) fun _ => within_pure _
        · exact within_bind steady_askForMore fun more => within_ite (ih _ _) (hstop _)

theorem within_showFrom (fuel shown prompts : Nat) :
    Within CalmStep (showFrom fuel shown prompts : Operation (Paging τ κ ο) PageSummary) :=
  calm_of_steady (steady_showFrom fuel shown prompts)

theorem shows_of_steady {op : Operation (Paging τ κ ο) α} (h : Within SteadyStep op) :
    Within ShowStep op := h.mono fun _ _ ⟨e, he, hstep⟩ => ⟨e, ⟨.inl he.1, he.2⟩, hstep⟩

/-- Behind the solutions shown, the end of the display. -/
def finish (summary : PageSummary) : Operation (Paging τ κ ο) PageSummary := do
  say "\n"
  onDialogue Dialogue.flush
  onDialogue (Dialogue.mark (.paged summary))
  return summary

theorem page_eq (fuel : Nat) :
    (page fuel : Operation (Paging τ κ ο) PageSummary) = showFrom fuel 0 0 >>= finish := rfl

theorem shows_finish (summary : PageSummary) :
    Within ShowStep (finish summary : Operation (Paging τ κ ο) PageSummary) := by
  have hmark : Within ShowStep
      (onDialogue (Dialogue.mark (.paged summary)) : Operation (Paging τ κ ο) Unit) :=
    within_of_step fun p =>
      ⟨_, ⟨.inr ⟨summary, rfl⟩, trivial⟩, .dialogue (.paged summary p.dialogue)⟩
  refine within_bind (shows_of_steady (steady_say _)) fun _ => ?_
  refine within_bind (shows_of_steady (steady_onDialogue Dialogue.steady_flush)) fun _ => ?_
  exact within_bind hmark fun _ => within_pure _

omit [SolutionStream τ] [Console κ] in
theorem finish_eq_ok {summary summary' : PageSummary} {p p' : Paging τ κ ο}
    (h : exec (finish summary) p = (.ok summary', p')) : summary' = summary := by
  rcases exec_bind_cases h with ⟨_, _, -, h⟩ | ⟨_, -, h⟩
  · rcases exec_bind_cases h with ⟨_, _, -, h⟩ | ⟨_, -, h⟩
    · cases h
      rfl
    · cases h
  · cases h

theorem shows_page (fuel : Nat) :
    Within ShowStep (page fuel : Operation (Paging τ κ ο) PageSummary) := by
  rw [page_eq]
  exact within_bind (shows_of_steady (steady_showFrom fuel 0 0)) shows_finish

theorem within_page (fuel : Nat) :
    Within DisplayStep (page fuel : Operation (Paging τ κ ο) PageSummary) :=
  (shows_page fuel).mono fun _ _ ⟨e, he, hstep⟩ => ⟨e, he.1, hstep⟩

end Paging

namespace Session

variable {ε τ κ ο α : Type} [Engine ε τ] [Console κ] [Output ο]

/-- The session with its state's query set. -/
def pose (query : String) (s : Session ε κ ο) : Session ε κ ο :=
  { s with state := { s.state with query } }

/-- What came of a call that drives the session state, and the halt flag it leaves. -/
def report (call : Call (ε × SessionState) α) (s : Session ε κ ο) :
    Except SessionError Unit × Bool :=
  ((call (s.engine, s.state)).1.map fun _ => (), (call (s.engine, s.state)).2.2.halted)

/-- One thing that happens in a session: in the dialogue, in the display of solutions, or in the
session's own dealings with the engine. -/
inductive Step : Event → Session ε κ ο → Session ε κ ο → Prop
  | dialogue {e : Event} {s : Session ε κ ο} {d : Dialogue κ ο} (h : Dialogue.Step e s.dialogue d) :
    Step e s { s with dialogue := d }
  | paging {e : Event} {s : Session ε κ ο} {solutions : τ} {p : Paging (ε × τ) κ ο}
    (h : Paging.Step e ⟨(s.engine, solutions), s.dialogue⟩ p) :
    Step e s { s with engine := p.solutions.1, dialogue := p.dialogue }
  | entered (phase : Phase) (s : Session ε κ ο) : Step (.entered phase) s (exec (enter phase) s).2
  | introduced (s : Session ε κ ο) :
    Step .introduced s (exec (ask Engine.intro .introduced) s).2
  | prompted (s : Session ε κ ο) : Step .prompted s (exec (ask Engine.prompt .prompted) s).2
  | handlerInstalled (s : Session ε κ ο) :
    Step .handlerInstalled s
      { s with handler := .taken, dialogue := s.dialogue.note .handlerInstalled }
  | commanded (command : MetaCommand) (s : Session ε κ ο) :
    Step (.commanded command) s { s with dialogue := s.dialogue.note (.commanded command) }
  | solved (query : String) (s : Session ε κ ο) :
    Step (.solved query (report Engine.solve (s.pose query)).1
        (report Engine.solve (s.pose query)).2) s
      (exec (drive Engine.solve (.solved query)) (s.pose query)).2
  | interrupted (s : Session ε κ ο) :
    Step (.interrupted (report Engine.interrupt s).1 (report Engine.interrupt s).2) s
      (exec (drive Engine.interrupt .interrupted) s).2

abbrev IdleStep (s s' : Session ε κ ο) : Prop := ∃ e, e.Idle ∧ Step e s s'

abbrev CalmStep (s s' : Session ε κ ο) : Prop := ∃ e, e.Calm ∧ Step e s s'

/-- A steady step outside the display of solutions. -/
abbrev SteadyStep (s s' : Session ε κ ο) : Prop := ∃ e, (e.Steady ∧ ¬ e.Draws) ∧ Step e s s'

abbrev UnservedStep (s s' : Session ε κ ο) : Prop := ∃ e, e.Unserved ∧ Step e s s'

/-- A step that serves no interrupt, outside the display of solutions. -/
abbrev OutsideStep (s s' : Session ε κ ο) : Prop := ∃ e, (e.Unserved ∧ ¬ e.Draws) ∧ Step e s s'

abbrev DisplayStep (s s' : Session ε κ ο) : Prop := ∃ e, e.Displays ∧ Step e s s'

abbrev AnyStep (s s' : Session ε κ ο) : Prop := ∃ e, Step e s s'

theorem Step.idle {e : Event} {s s' : Session ε κ ο} (h : Step e s s') (he : e.Idle) :
    IdleStep s s' := ⟨e, he, h⟩

theorem Step.calm {e : Event} {s s' : Session ε κ ο} (h : Step e s s') (he : e.Calm) :
    CalmStep s s' := ⟨e, he, h⟩

theorem Step.steady {e : Event} {s s' : Session ε κ ο} (h : Step e s s') (he : e.Steady)
    (hdraws : ¬ e.Draws) : SteadyStep s s' := ⟨e, ⟨he, hdraws⟩, h⟩

theorem Step.outside {e : Event} {s s' : Session ε κ ο} (h : Step e s s') (he : e.Unserved)
    (hdraws : ¬ e.Draws) : OutsideStep s s' := ⟨e, ⟨he, hdraws⟩, h⟩

theorem Step.unserved {e : Event} {s s' : Session ε κ ο} (h : Step e s s') (he : e.Unserved) :
    UnservedStep s s' := ⟨e, he, h⟩

theorem IdleStep.any {s s' : Session ε κ ο} (h : IdleStep s s') : AnyStep s s' :=
  ⟨h.choose, h.choose_spec.2⟩

/-- A step of a session is a step of its dialogue, or only notes its event there. -/
theorem Step.dialogue_cases {e : Event} {s s' : Session ε κ ο} (h : Step e s s') :
    Dialogue.Step e s.dialogue s'.dialogue ∨
      s'.dialogue = s.dialogue.note e ∧ ¬ e.Persists := by
  cases h with
  | dialogue h => exact .inl h
  | paging h =>
    cases h with
    | dialogue h => exact .inl h
    | _ => exact .inr ⟨rfl, id⟩
  | _ => exact .inr ⟨rfl, id⟩

theorem Step.theme_eq {e : Event} {s s' : Session ε κ ο} (h : Step e s s') :
    s'.theme = s.theme := by
  cases h <;> rfl

theorem Step.not_persisted {e : Event} {s s' : Session ε κ ο} (h : Step e s s') :
    ¬ e.Persists := by
  rcases h.dialogue_cases with h | ⟨-, he⟩
  · exact h.not_persisted
  · exact he

theorem Step.journal {e : Event} {s s' : Session ε κ ο} (h : Step e s s') :
    Journal.Adds (· = .raised) (e :: s.dialogue.journal) s'.dialogue.journal := by
  rcases h.dialogue_cases with h | ⟨h, -⟩
  · exact h.journal
  · rw [h]
    exact Dialogue.journal_note _ _

theorem Step.flushed_eq {e : Event} {s s' : Session ε κ ο} (h : Step e s s') :
    s'.dialogue.history.flushed = s.dialogue.history.flushed := by
  rcases h.dialogue_cases with h | ⟨h, -⟩
  · exact h.flushed_eq
  · rw [h, Dialogue.history_note]

theorem Step.history_cases {e : Event} {s s' : Session ε κ ο} (h : Step e s s') :
    s'.dialogue.history = s.dialogue.history ∨ ∃ query entry, e = .remembered entry ∧
      History.entryOf query = some entry ∧
      s'.dialogue.history = s.dialogue.history.add entry := by
  rcases h.dialogue_cases with h | ⟨h, -⟩
  · exact h.history_cases
  · rw [h, Dialogue.history_note]
    exact .inl rfl

theorem Step.state_of_idle {e : Event} {s s' : Session ε κ ο} (h : Step e s s') (he : e.Idle) :
    s'.state = s.state := by
  cases h <;> first | rfl | exact he.elim

theorem Step.history_of_idle {e : Event} {s s' : Session ε κ ο} (h : Step e s s') (he : e.Idle) :
    s'.dialogue.history = s.dialogue.history := by
  rcases h.dialogue_cases with h | ⟨h, -⟩
  · exact h.history_of_idle he
  · rw [h, Dialogue.history_note]

section Paths

variable {s s' : Session ε κ ο}

/-- Steps only add to the journal, and they never hand the history over. -/
theorem journal_of_steps (h : ReflTransGen AnyStep s s') :
    Journal.Adds (¬ ·.Persists) s.dialogue.journal s'.dialogue.journal := by
  induction h with
  | refl => exact .refl _
  | tail _ hstep ih =>
    obtain ⟨e, hstep⟩ := hstep
    exact ih.trans (hstep.journal.of_raised hstep.not_persisted id)

theorem flushed_of_steps (h : ReflTransGen AnyStep s s') :
    s'.dialogue.history.flushed = s.dialogue.history.flushed :=
  eq_of_steps (·.dialogue.history.flushed) (fun _ _ ⟨_, hstep⟩ => hstep.flushed_eq) h

theorem theme_of_steps (h : ReflTransGen AnyStep s s') : s'.theme = s.theme :=
  eq_of_steps (·.theme) (fun _ _ ⟨_, hstep⟩ => hstep.theme_eq) h

end Paths

theorem within_any {op : Operation (Session ε κ ο) α} (h : Within IdleStep op) :
    Within AnyStep op := h.mono fun _ _ => IdleStep.any

theorem within_idle {op : Operation (Dialogue κ ο) α} (h : Within Dialogue.IdleStep op) :
    Within IdleStep (onDialogue op : Operation (Session ε κ ο) α) :=
  within_focus h (fun _ => rfl) fun _ _ _ ⟨e, he, hstep⟩ => ⟨e, he, .dialogue hstep⟩

theorem outside_onDialogue {op : Operation (Dialogue κ ο) α} (h : Within Dialogue.UnservedStep op) :
    Within OutsideStep (onDialogue op : Operation (Session ε κ ο) α) :=
  within_focus h (fun _ => rfl) fun _ _ _ ⟨e, he, hstep⟩ =>
    ⟨e, ⟨he, hstep.not_draws⟩, .dialogue hstep⟩

theorem idle_of_calm {op : Operation (Session ε κ ο) α} (h : Within CalmStep op) :
    Within IdleStep op := h.mono fun _ _ ⟨_, he, hstep⟩ => hstep.idle he.idle

theorem calm_of_steady {op : Operation (Session ε κ ο) α} (h : Within SteadyStep op) :
    Within CalmStep op := h.mono fun _ _ ⟨_, he, hstep⟩ => hstep.calm he.1.1

theorem outside_of_steady {op : Operation (Session ε κ ο) α} (h : Within SteadyStep op) :
    Within OutsideStep op := h.mono fun _ _ ⟨_, he, hstep⟩ => hstep.outside he.1.2 he.2

theorem within_calm {op : Operation (Dialogue κ ο) α} (h : Within Dialogue.CalmStep op) :
    Within CalmStep (onDialogue op : Operation (Session ε κ ο) α) :=
  within_focus h (fun _ => rfl) fun _ _ _ ⟨e, he, hstep⟩ => ⟨e, he, .dialogue hstep⟩

theorem within_steady {op : Operation (Dialogue κ ο) α} (h : Within Dialogue.SteadyStep op) :
    Within SteadyStep (onDialogue op : Operation (Session ε κ ο) α) :=
  within_focus h (fun _ => rfl) fun _ _ _ ⟨e, he, hstep⟩ =>
    ⟨e, ⟨he, hstep.not_draws⟩, .dialogue hstep⟩

theorem steady_say (text : String) :
    Within SteadyStep (say text : Operation (Session ε κ ο) Unit) :=
  within_steady (Dialogue.steady_say text)

theorem calm_say (text : String) : Within CalmStep (say text : Operation (Session ε κ ο) Unit) :=
  calm_of_steady (steady_say text)

theorem steady_flush :
    Within SteadyStep (onDialogue Dialogue.flush : Operation (Session ε κ ο) Unit) :=
  within_steady Dialogue.steady_flush

theorem within_flush :
    Within IdleStep (onDialogue Dialogue.flush : Operation (Session ε κ ο) Unit) :=
  idle_of_calm (calm_of_steady steady_flush)

theorem outside_enter (phase : Phase) :
    Within OutsideStep (enter phase : Operation (Session ε κ ο) Unit) :=
  within_of_step fun s => (Step.entered phase s).outside trivial id

theorem within_enter (phase : Phase) :
    Within AnyStep (enter phase : Operation (Session ε κ ο) Unit) :=
  within_of_step fun s => ⟨_, .entered phase s⟩

theorem steady_installHandler :
    Within SteadyStep (installHandler : Operation (Session ε κ ο) Unit) := by
  refine within_bind within_get fun s => ?_
  cases s.handler with
  | unused => exact within_pure _
  | taken => exact within_throw _
  | free => exact within_of_step fun s => (Step.handlerInstalled s).steady ⟨trivial, trivial⟩ id

theorem calm_installHandler :
    Within CalmStep (installHandler : Operation (Session ε κ ο) Unit) :=
  calm_of_steady steady_installHandler

/-- What a start does once the theme is set. -/
def greet : Operation (Session ε κ ο) Unit := do
  let intro ← ask Engine.intro .introduced
  say (intro ++ "\n")
  say hint
  installHandler

theorem steady_greet : Within SteadyStep (greet : Operation (Session ε κ ο) Unit) := by
  have hintro :
      Within SteadyStep (ask Engine.intro .introduced : Operation (Session ε κ ο) String) :=
    within_of_step fun s => (Step.introduced s).steady ⟨trivial, trivial⟩ id
  refine within_bind hintro fun _ => within_bind (steady_say _) fun _ => ?_
  exact within_bind (steady_say _) fun _ => steady_installHandler

theorem within_greet : Within IdleStep (greet : Operation (Session ε κ ο) Unit) :=
  idle_of_calm (calm_of_steady steady_greet)

theorem steady_start : Within SteadyStep (start : Operation (Session ε κ ο) Unit) := by
  refine within_bind within_get fun s => within_ite ?_ steady_greet
  exact within_bind (steady_say _) fun _ => within_bind steady_flush fun _ => steady_greet

theorem calm_start : Within CalmStep (start : Operation (Session ε κ ο) Unit) :=
  calm_of_steady steady_start

theorem within_start : Within IdleStep (start : Operation (Session ε κ ο) Unit) :=
  idle_of_calm calm_start

omit [Console κ] [Output ο] in
theorem exec_serviceInterrupts (s : Session ε κ ο) :
    exec serviceInterrupts s =
      if s.dialogue.interrupt.isRaised then
        exec (drive Engine.interrupt .interrupted)
          { s with dialogue := Dialogue.note .taken { s.dialogue with interrupt := ⟨false⟩ } }
      else (.ok (), s) := by
  unfold serviceInterrupts onDialogue
  rw [exec_bind, exec_focus, Dialogue.exec_takeInterrupt]
  by_cases h : s.dialogue.interrupt.isRaised
  · rw [if_pos h, if_pos h]
    rfl
  · rw [if_neg h, if_neg h]
    rfl

theorem within_serviceInterrupts :
    Within AnyStep (serviceInterrupts : Operation (Session ε κ ο) Unit) := by
  refine within_bind (within_any (within_idle Dialogue.within_takeInterrupt)) fun raised => ?_
  exact within_ite (within_of_step fun s => ⟨_, .interrupted s⟩) (within_pure _)

/-- The steps of a display are steps of the session. -/
theorem page_steps {P : Event → Prop} {fuel : Nat}
    (h : Within (fun p p' => ∃ e, P e ∧ Paging.Step e p p')
      (Paging.page fuel : Operation (Paging (ε × τ) κ ο) PageSummary)) (solutions : τ) :
    Within (fun s s' => ∃ e, P e ∧ Step e s s')
      (page solutions fuel : Operation (Session ε κ ο) PageSummary) := by
  intro s
  let whole (p : Paging (ε × τ) κ ο) : Session ε κ ο :=
    { s with engine := p.solutions.1, dialogue := p.dialogue }
  exact (h ⟨(s.engine, solutions), s.dialogue⟩).lift whole
    fun _ _ ⟨e, he, hstep⟩ => ⟨e, he, .paging hstep⟩

/-- What a display makes of its dialogue it makes of the session's. -/
theorem triple_page_of {P : Paging (ε × τ) κ ο → Prop} {Q : PageSummary → Dialogue κ ο → Prop}
    {E : Stop → Dialogue κ ο → Prop} {fuel : Nat}
    (h : Triple P (Paging.page fuel) (fun a p => Q a p.dialogue) fun stop p => E stop p.dialogue)
    (solutions : τ) :
    Triple (fun s : Session ε κ ο => P ⟨(s.engine, solutions), s.dialogue⟩) (page solutions fuel)
      (fun a s => Q a s.dialogue) fun stop s => E stop s.dialogue := by
  refine triple_of_exec (fun s a s' hs hrun => ?_) fun s stop s' hs hrun => ?_
  · obtain ⟨hresult, rfl⟩ := Prod.mk.inj hrun
    exact h.ok hs (Prod.ext hresult rfl)
  · obtain ⟨hresult, rfl⟩ := Prod.mk.inj hrun
    exact h.error hs (Prod.ext hresult rfl)

theorem display_page (solutions : τ) (fuel : Nat) :
    Within DisplayStep (page solutions fuel : Operation (Session ε κ ο) PageSummary) :=
  page_steps (Paging.within_page fuel) solutions

theorem within_page (solutions : τ) (fuel : Nat) :
    Within IdleStep (page solutions fuel : Operation (Session ε κ ο) PageSummary) :=
  (display_page solutions fuel).mono fun _ _ ⟨_, he, hstep⟩ => hstep.idle he.idle

theorem unserved_page (solutions : τ) (fuel : Nat) :
    Within UnservedStep (page solutions fuel : Operation (Session ε κ ο) PageSummary) :=
  (page_steps (Paging.shows_page fuel) solutions).mono
    fun _ _ ⟨_, he, hstep⟩ => hstep.unserved he.2

/-- Send a query: setting it notes nothing, so that this is one step. -/
def send (query : String) : Operation (Session ε κ ο) τ := do
  modify (pose query)
  drive Engine.solve (.solved query)

theorem unserved_send (query : String) :
    Within UnservedStep (send query : Operation (Session ε κ ο) τ) :=
  within_of_step fun s => (Step.solved query s).unserved trivial

/-- Show the solutions of a query, and serve the interrupt that ends the display. -/
def present (solutions : τ) (fuel : Nat) : Operation (Session ε κ ο) Unit := do
  let summary ← page solutions fuel
  if summary.ending = .interrupted then serviceInterrupts

theorem dispatch_eq (query : String) (fuel : Nat) :
    (dispatch query fuel : Operation (Session ε κ ο) Unit) =
      send query >>= fun solutions => present solutions fuel := rfl

/-- A session goes along `R`: by steps outside the display, by the service of interrupts, and by
sending a query and showing its solutions, the last two taken as a whole. -/
structure Along (R : Session ε κ ο → Session ε κ ο → Prop) : Prop where
  step (s s' : Session ε κ ο) (h : OutsideStep s s') : R s s'
  service : Within R (serviceInterrupts : Operation (Session ε κ ο) Unit)
  dispatch (query : String) (fuel : Nat) :
    Within R (dispatch query fuel : Operation (Session ε κ ο) Unit)

namespace Along

variable {R : Session ε κ ο → Session ε κ ο → Prop} (h : Along R)
include h

theorem outside {op : Operation (Session ε κ ο) α} (hop : Within OutsideStep op) : Within R op :=
  hop.mono h.step

theorem say (text : String) : Within R (say text : Operation (Session ε κ ο) Unit) :=
  h.outside (outside_of_steady (steady_say text))

theorem enter (phase : Phase) : Within R (enter phase : Operation (Session ε κ ο) Unit) :=
  h.outside (outside_enter phase)

theorem rerun (n fuel : Nat) : Within R (rerun n fuel : Operation (Session ε κ ο) Unit) := by
  refine within_bind (within_bind within_get fun _ => within_pure _) fun history => ?_
  cases history.get? n with
  | none => exact h.say _
  | some entry =>
    refine within_ite (h.say _) (within_bind (h.say _) fun _ => ?_)
    exact within_bind (h.outside (outside_onDialogue (Dialogue.unserved_record entry))) fun _ =>
      h.dispatch _ fuel

theorem obey (command : MetaCommand) (fuel : Nat) :
    Within R (obey command fuel : Operation (Session ε κ ο) Unit) := by
  have hnote : Within R (modify fun s =>
      { s with dialogue := s.dialogue.note (.commanded command) } :
      Operation (Session ε κ ο) Unit) :=
    within_of_step fun s => h.step _ _ ((Step.commanded command s).outside trivial id)
  refine within_bind hnote fun _ => ?_
  cases command with
  | history => exact within_bind (within_bind within_get fun _ => within_pure _) fun _ => h.say _
  | help => exact h.say _
  | rerun n => exact h.rerun n fuel

theorem execute (query : String) (fuel : Nat) :
    Within R (execute query fuel : Operation (Session ε κ ο) Unit) := by
  unfold Session.execute
  cases MetaCommand.parse query with
  | none => exact h.dispatch query fuel
  | some command => exact h.obey command fuel

theorem serve (fuel : Nat) : Within R (serve fuel : Operation (Session ε κ ο) SessionEnd) := by
  have hend (how : SessionEnd) : Within R
      (do Session.enter .halted; return how : Operation (Session ε κ ο) SessionEnd) :=
    within_bind (h.enter _) fun _ => within_pure _
  have hhalted : Within R (isHalted : Operation (Session ε κ ο) Bool) :=
    within_bind within_get fun _ => within_pure _
  have hprompt : Within R (ask Engine.prompt .prompted : Operation (Session ε κ ο) String) :=
    within_of_step fun s => h.step _ _ ((Step.prompted s).outside trivial id)
  induction fuel with
  | zero => exact within_unfinished
  | succ fuel ih =>
    refine within_bind (h.enter _) fun _ => within_bind h.service fun _ => ?_
    refine within_bind hhalted fun _ => within_ite (hend _) ?_
    refine within_bind hprompt fun prompt => ?_
    refine within_bind (h.outside (outside_of_steady steady_flush)) fun _ => ?_
    refine within_bind (h.outside (outside_onDialogue (Dialogue.unserved_readQuery prompt _)))
      fun input => ?_
    cases input with
    | endOfInput => exact within_bind (h.say _) fun _ => hend _
    | query query =>
      refine within_bind h.service fun _ => within_bind hhalted fun _ => within_ite (hend _) ?_
      exact within_bind (h.enter _) fun _ => within_bind (h.execute query _) fun _ => ih

theorem phases (fuel : Nat) : Within R (phases fuel : Operation (Session ε κ ο) SessionEnd) :=
  within_bind (h.enter _) fun _ => within_bind (h.outside (outside_of_steady steady_start)) fun _ =>
    within_bind (h.enter _) fun _ => h.serve fuel

end Along

/-- A session goes along `R` by steps that serve no interrupt, those of a display included, and by
the service of interrupts, taken as a whole. -/
structure Follows (R : Session ε κ ο → Session ε κ ο → Prop) : Prop where
  step (s s' : Session ε κ ο) (h : UnservedStep s s') : R s s'
  service : Within R (serviceInterrupts : Operation (Session ε κ ο) Unit)

theorem Follows.along {R : Session ε κ ο → Session ε κ ο → Prop} (h : Follows R) : Along R where
  step s s' := fun ⟨_, he, hstep⟩ => h.step s s' (hstep.unserved he.1)
  service := h.service
  dispatch query fuel := by
    rw [dispatch_eq]
    refine within_bind ((unserved_send query).mono h.step) fun solutions => ?_
    exact within_bind ((unserved_page solutions fuel).mono h.step) fun _ =>
      within_ite h.service (within_pure _)

theorem along_any : Along (AnyStep : Session ε κ ο → Session ε κ ο → Prop) :=
  Follows.along ⟨fun _ _ ⟨e, _, hstep⟩ => ⟨e, hstep⟩, within_serviceInterrupts⟩

theorem within_serve (fuel : Nat) :
    Within AnyStep (serve fuel : Operation (Session ε κ ο) SessionEnd) := along_any.serve fuel

theorem within_phases (fuel : Nat) :
    Within AnyStep (phases fuel : Operation (Session ε κ ο) SessionEnd) := along_any.phases fuel

end Session

end LogicConsole
