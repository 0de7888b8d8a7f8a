import LogicConsole.Proofs.Closing
import LogicConsole.Proofs.Coupling
/-! Two sessions side by side, with engines that behave alike and dialogues that are kin. Dialogues
are kin in two ways: `rel true` says that their interrupt flags agree too, which is what the display
of solutions depends on, while `rel false` holds all the time. What keeps the dialogues kin keeps
whole sessions so: they run to the same end, unless the first one is left behind at a fault. -/
namespace LogicConsole

open Operation Relation

/-- From states alike a call gives the same result, and leaves states alike. -/
def Preserves {σ α : Type} (alike : σ → σ → Prop) (call : σ → α × σ) : Prop :=
  ∀ s s', alike s s' → (call s).1 = (call s').1 ∧ alike (call s).2 (call s').2

/-- Alike, and in the same company. -/
def Along {ε ρ : Type} (alike : ε → ε → Prop) (p p' : ε × ρ) : Prop :=
  alike p.1 p'.1 ∧ p.2 = p'.2

/-- The engine cannot tell states apart that are alike, except by an interrupt. -/
structure Engine.Respects {ε τ : Type} [Engine ε τ] (alike : ε → ε → Prop) : Prop where
  intro : Preserves alike (Engine.intro : Call ε String)
  prompt : Preserves alike (Engine.prompt : Call ε String)
  solve : Preserves (Along alike) (Engine.solve : Call (ε × SessionState) τ)
  next : Preserves (Along alike) (Engine.next : Call (ε × τ) (Option Solution))
  abandon : Preserves (Along alike) (Engine.abandon : Call (ε × τ) Unit)
  persist (entries : List String) : Preserves alike (Engine.persist (ε := ε) entries)

theorem Engine.respects_eq {ε τ : Type} [Engine ε τ] : Engine.Respects (Eq : ε → ε → Prop) := by
  have along {ρ α : Type} (call : Call (ε × ρ) α) : Preserves (Along Eq) call := by
    rintro ⟨e, r⟩ ⟨-, -⟩ ⟨rfl, rfl⟩
    exact ⟨rfl, rfl, rfl⟩
  have alone {α : Type} (call : ε → α × ε) : Preserves Eq call := by
    rintro e - rfl
    exact ⟨rfl, rfl⟩
  exact ⟨alone _, alone _, along _, along _, along _, fun _ => alone _⟩

/-- Whatever a session does to its dialogue. -/
def Dialogue.Moves {κ ο : Type} [Console κ] [Output ο] (d d' : Dialogue κ ο) : Prop :=
  ∃ e, Dialogue.Step e d d' ∨ d' = d.note e

theorem Dialogue.Moves.note {κ ο : Type} [Console κ] [Output ο] (e : Event) (d : Dialogue κ ο) :
    Moves d (d.note e) := ⟨e, .inr rfl⟩

/-- The dialogue after its history was handed over. -/
def Dialogue.handedOver {κ ο : Type} (d : Dialogue κ ο) : Dialogue κ ο :=
  { d with history := { d.history with flushed := true } }

namespace Session

variable {ε τ κ ο : Type}

theorem flushHistory_eq [Engine ε τ] {s : Session ε κ ο}
    (h : s.dialogue.history.flushed = false) :
    s.flushHistory =
      { s with
        engine := (Engine.persist s.dialogue.history.entries s.engine).2
        dialogue := s.dialogue.handedOver.note (.persisted s.dialogue.history.entries
          (Engine.persist s.dialogue.history.entries s.engine).1) } := by
  simp only [flushHistory, h, Bool.false_eq_true, if_false]
  rfl

/-- Writing and flushing fail at most. -/
theorem reset_ends [Output ο] (text : String) (s : Session ε κ ο) :
    (exec (say text >>= fun _ => onDialogue Dialogue.flush) s).1 ≠ .error .unfinished := by
  have hcall (call : Call (Dialogue κ ο) Unit) : Triple (fun _ : Session ε κ ο => True)
      (onDialogue (ofCall call)) (fun _ _ => True) fun stop _ => stop ≠ .unfinished := by
    intro s _
    simp only [onDialogue, exec_focus, exec_ofCall]
    cases (call s.dialogue).1 with
    | ok a => trivial
    | error error => exact Stop.noConfusion
  have hreset : Triple (fun _ : Session ε κ ο => True)
      (say text >>= fun _ => onDialogue Dialogue.flush) (fun _ _ => True)
      fun stop _ => stop ≠ .unfinished := triple_bind (hcall _) fun _ => hcall _
  intro hcut
  exact hreset.error trivial (Prod.ext hcut rfl) rfl

end Session

namespace Dialogue

variable {κ κ' ο ο' : Type} [Console κ] [Console κ'] [Output ο] [Output ο']
variable {P : Dialogue κ ο → Dialogue κ' ο' → Prop}
variable {behind : SessionError → Dialogue κ ο → Dialogue κ' ο' → Prop}

omit [Console κ] [Output ο] in
theorem endures_of_within {α : Type} {op' : Operation (Dialogue κ' ο') α}
    (hmove : ∀ error d d' d'', behind error d d' → Moves d' d'' → behind error d d'')
    (hop : Within AnyStep op') (error : SessionError) (d : Dialogue κ ο) (d' : Dialogue κ' ο')
    (hd : behind error d d') : behind error d (exec op' d').2 :=
  holds_of_steps (P := fun t => behind error d t)
    (fun t t' hstep ht => hmove error d t t' ht ⟨hstep.choose, .inl hstep.choose_spec⟩) (hop d') hd

omit [Output ο] in
/-- Where line after line is read in step, so are the lines of a query. -/
theorem coupled_collectLines
    (hmove : ∀ error d d' d'', behind error d d' → Moves d' d'' → behind error d d'')
    (hread : ∀ marker, Coupled P (readLine marker) (readLine marker) (fun _ => P) P behind)
    (prompt : String) (fuel fuel' : Nat) (typed : String) :
    Coupled P (collectLines prompt fuel typed) (collectLines prompt fuel' typed) (fun _ => P) P
      behind := by
  induction fuel generalizing fuel' typed with
  | zero =>
    exact coupled_unfinished_left (endures_of_within hmove
      ((within_collectLines _ _ _).mono fun _ _ => IdleStep.any))
  | succ fuel ih =>
    cases fuel' with
    | zero => exact coupled_unfinished_right
    | succ fuel' =>
      refine coupled_bind (hread _) fun input => ?_
      cases input with
      | interrupted => exact ih fuel' typed
      | endOfInput => exact coupled_pure _ fun _ _ hd => hd
      | line line =>
        exact coupled_ite (fun _ => coupled_pure _ fun _ _ hd => hd) fun _ => ih fuel' _

end Dialogue

section Types

variable {ε τ κ κ' ο ο' : Type}

structure Paging.Twin (alike : ε → ε → Prop) (kin : Dialogue κ ο → Dialogue κ' ο' → Prop)
    (p : Paging (ε × τ) κ ο) (p' : Paging (ε × τ) κ' ο') : Prop where
  solutions : Along alike p.solutions p'.solutions
  dialogue : kin p.dialogue p'.dialogue

structure Session.Twin (alike : ε → ε → Prop) (kin : Dialogue κ ο → Dialogue κ' ο' → Prop)
    (s : Session ε κ ο) (s' : Session ε κ' ο') : Prop where
  engine : alike s.engine s'.engine
  dialogue : kin s.dialogue s'.dialogue
  theme : s.theme = s'.theme
  handler : s.handler = s'.handler
  state : s.state = s'.state
  phase : s.phase = s'.phase

/-- Twins of one kind turn into twins of the kind that the result tells. -/
abbrev Operation.Keeps {σ σ' α : Type} (twin : Bool → σ → σ' → Prop)
    (behind : SessionError → σ → σ' → Prop) (flags : Bool) (op : Operation σ α)
    (op' : Operation σ' α) (after : α → Bool) : Prop :=
  Coupled (twin flags) op op' (fun a => twin (after a)) (twin false) behind

variable [Engine ε τ] [Console κ] [Console κ'] [Output ο] [Output ο']

/-- What is done to both dialogues keeps them kin, the engine does not tell the sessions apart, and
a dialogue that was left behind stays so whatever the other one does. -/
structure Pairing (alike : ε → ε → Prop) (rel : Bool → Dialogue κ ο → Dialogue κ' ο' → Prop)
    (behind : SessionError → Dialogue κ ο → Dialogue κ' ο' → Prop) : Prop where
  engine : Engine.Respects alike
  loosen (flags : Bool) {d : Dialogue κ ο} {d' : Dialogue κ' ο'} : rel flags d d' → rel false d d'
  pending {d : Dialogue κ ο} {d' : Dialogue κ' ο'} :
    rel true d d' → d.interrupt.isRaised = d'.interrupt.isRaised
  history {d : Dialogue κ ο} {d' : Dialogue κ' ο'} : rel false d d' → d.history = d'.history
  note (flags : Bool) (e : Event) {d : Dialogue κ ο} {d' : Dialogue κ' ο'} :
    rel flags d d' → rel flags (d.note e) (d'.note e)
  handedOver {d : Dialogue κ ο} {d' : Dialogue κ' ο'} :
    rel false d d' → rel false d.handedOver d'.handedOver
  say (flags : Bool) (text : String) :
    Keeps rel behind flags (Dialogue.say text) (Dialogue.say text) fun _ => flags
  flush (flags : Bool) : Keeps rel behind flags Dialogue.flush Dialogue.flush fun _ => flags
  record (flags : Bool) (query : String) :
    Keeps rel behind flags (Dialogue.record query) (Dialogue.record query) fun _ => flags
  readKey : Keeps rel behind true Dialogue.readKey Dialogue.readKey wantsMore
  collectLines (prompt : String) (fuel fuel' : Nat) : Keeps rel behind true
    (Dialogue.collectLines prompt fuel "") (Dialogue.collectLines prompt fuel' "") fun _ => false
  endures {error : SessionError} {d : Dialogue κ ο} {d' d'' : Dialogue κ' ο'} :
    behind error d d' → Dialogue.Moves d' d'' → behind error d d''

/-- Sessions in step. -/
abbrev SessionKeeps (alike : ε → ε → Prop) (rel : Bool → Dialogue κ ο → Dialogue κ' ο' → Prop)
    (behind : SessionError → Dialogue κ ο → Dialogue κ' ο' → Prop) {α : Type} (flags : Bool)
    (op : Operation (Session ε κ ο) α) (op' : Operation (Session ε κ' ο') α)
    (after : α → Bool) : Prop :=
  Keeps (fun flags => Session.Twin alike (rel flags))
    (fun error s s' => behind error s.dialogue s'.dialogue) flags op op' after

/-- Besides, interrupts are served without telling the sessions apart, and then the flags agree. -/
structure Twinning (alike : ε → ε → Prop) (rel : Bool → Dialogue κ ο → Dialogue κ' ο' → Prop)
    (behind : SessionError → Dialogue κ ο → Dialogue κ' ο' → Prop) : Prop
    extends Pairing alike rel behind where
  service : SessionKeeps alike rel behind false Session.serviceInterrupts Session.serviceInterrupts
    fun _ => true

end Types

namespace Pairing

variable {ε τ κ κ' ο ο' α : Type} [Engine ε τ] [Console κ] [Console κ'] [Output ο] [Output ο']
variable {alike : ε → ε → Prop} {rel : Bool → Dialogue κ ο → Dialogue κ' ο' → Prop}
variable {behind : SessionError → Dialogue κ ο → Dialogue κ' ο' → Prop}
variable (h : Pairing alike rel behind) {flags : Bool}

include h in
theorem readQuery (prompt : String) (fuel fuel' : Nat) : Keeps rel behind true
    (Dialogue.readQuery prompt fuel) (Dialogue.readQuery prompt fuel') fun _ => false := by
  refine coupled_bind (h.collectLines prompt fuel fuel') fun input => ?_
  cases input with
  | endOfInput => exact coupled_pure _ fun _ _ hd => hd
  | query text =>
    have hmark : Keeps rel behind false (Dialogue.mark (.completed text))
        (Dialogue.mark (.completed text)) fun _ => false :=
      coupled_modify (fun _ _ => h.note false _) fun _ _ _ hd => h.endures hd (.note _ _)
    refine coupled_bind hmark fun _ => coupled_bind (h.record false text) fun _ => ?_
    exact coupled_pure _ fun _ _ hd => hd

section Paging

variable {op : Operation (Dialogue κ ο) α} {op' : Operation (Dialogue κ' ο') α}

/-- Displays of solutions in step. -/
abbrev PagingKeeps (alike : ε → ε → Prop) (rel : Bool → Dialogue κ ο → Dialogue κ' ο' → Prop)
    (behind : SessionError → Dialogue κ ο → Dialogue κ' ο' → Prop) (flags : Bool)
    (op : Operation (Paging (ε × τ) κ ο) α) (op' : Operation (Paging (ε × τ) κ' ο') α)
    (after : α → Bool) : Prop :=
  Keeps (fun flags => Paging.Twin alike (rel flags))
    (fun error p p' => behind error p.dialogue p'.dialogue) flags op op' after

omit [Engine ε τ] [Console κ] [Console κ'] [Output ο] [Output ο'] in
theorem paging_onDialogue {after : α → Bool} (hop : Keeps rel behind flags op op' after) :
    PagingKeeps (τ := τ) alike rel behind flags (Paging.onDialogue op) (Paging.onDialogue op')
      after where
  meets p p' hp := (hop.meets _ _ hp.dialogue).map
    (fun d => { p with dialogue := d }) (fun d => { p' with dialogue := d })
    (fun _ _ _ hd => ⟨hp.solutions, hd⟩) (fun _ _ hd => ⟨hp.solutions, hd⟩) fun _ _ _ hd => hd
  endures _ _ _ hp := hop.endures _ _ _ hp

include h

theorem paging_loosen {p : Paging (ε × τ) κ ο} {p' : Paging (ε × τ) κ' ο'}
    (hp : p.Twin alike (rel flags) p') : p.Twin alike (rel false) p' :=
  ⟨hp.solutions, h.loosen flags hp.dialogue⟩

theorem paging_say (text : String) :
    PagingKeeps (τ := τ) alike rel behind flags (Paging.say text) (Paging.say text)
      fun _ => flags := paging_onDialogue (h.say flags text)

theorem paging_pull :
    PagingKeeps (τ := τ) alike rel behind flags Paging.pull Paging.pull fun _ => flags := by
  refine coupled_ofCall_same (fun p p' hp => ?_) (fun _ _ => h.paging_loosen)
    fun _ _ _ hp => h.endures hp (.note _ _)
  obtain ⟨hsame, hnext⟩ := h.engine.next _ _ hp.solutions
  refine ⟨hsame, hnext, ?_⟩
  change rel flags (p.dialogue.note (.pulled (Engine.next p.solutions).1))
    (p'.dialogue.note (.pulled (Engine.next p'.solutions).1))
  rw [hsame]
  exact h.note flags _ hp.dialogue

theorem paging_abandon :
    PagingKeeps (τ := τ) alike rel behind flags Paging.abandon Paging.abandon fun _ => flags := by
  refine coupled_ofCall_same (fun p p' hp => ?_) (fun _ _ => h.paging_loosen)
    fun _ _ _ hp => h.endures hp (.note _ _)
  obtain ⟨hsame, hnext⟩ := h.engine.abandon _ _ hp.solutions
  exact ⟨hsame, hnext, h.note flags _ hp.dialogue⟩

/-- Once more is wanted no interrupt is pending on either side. -/
theorem paging_askForMore :
    PagingKeeps (τ := τ) alike rel behind true Paging.askForMore Paging.askForMore id := by
  refine coupled_bind (h.paging_say _) fun _ => ?_
  refine coupled_bind (paging_onDialogue (h.flush true)) fun _ => ?_
  refine coupled_bind (paging_onDialogue h.readKey) fun answer => ?_
  refine coupled_bind (h.paging_say _) fun _ => coupled_bind (h.paging_say _) fun _ => ?_
  exact coupled_pure _ fun _ _ hp => hp

theorem paging_endures {op' : Operation (Paging (ε × τ) κ' ο') α}
    (hop : Within Paging.CalmStep op') (error : SessionError) (p : Paging (ε × τ) κ ο)
    (p' : Paging (ε × τ) κ' ο') (hp : behind error p.dialogue p'.dialogue) :
    behind error p.dialogue (exec op' p').2.dialogue := by
  refine holds_of_steps (P := fun q => behind error p.dialogue q.dialogue)
    (fun q q' hstep hq => ?_) (hop p') hp
  obtain ⟨e, -, hstep⟩ := hstep
  cases hstep with
  | dialogue hstep => exact h.endures hq ⟨e, .inl hstep⟩
  | pulled => exact h.endures hq (.note _ _)
  | abandoned => exact h.endures hq (.note _ _)

theorem paging_showFrom (fuel fuel' shown prompts : Nat) :
    PagingKeeps (τ := τ) alike rel behind true (Paging.showFrom fuel shown prompts)
      (Paging.showFrom fuel' shown prompts) fun _ => false := by
  have hdone {flags : Bool} (summary : PageSummary) : PagingKeeps (τ := τ) alike rel behind flags
      (pure summary) (pure summary) fun _ => false := coupled_pure _ fun _ _ => h.paging_loosen
  induction fuel generalizing fuel' shown prompts with
  | zero => exact coupled_unfinished_left (h.paging_endures (Paging.within_showFrom _ _ _))
  | succ fuel ih =>
    cases fuel' with
    | zero => exact coupled_unfinished_right
    | succ fuel' =>
      have hpending : PagingKeeps (τ := τ) alike rel behind true
          (Paging.onDialogue Dialogue.pending) (Paging.onDialogue Dialogue.pending)
          fun _ => true := paging_onDialogue (coupled_read fun _ _ => h.pending)
      refine coupled_bind hpending fun raised => coupled_ite (fun _ => ?_) fun _ => ?_
      · refine coupled_bind h.paging_abandon fun _ => coupled_bind (h.paging_say _) fun _ => ?_
        exact hdone _
      · refine coupled_bind h.paging_pull fun solution => ?_
        cases solution with
        | none => exact hdone _
        | some solution =>
          refine coupled_bind (h.paging_say _) fun _ => coupled_ite (fun _ => ?_) fun _ => ?_
          · exact coupled_bind (h.paging_say _) fun _ => hdone _
          · refine coupled_bind h.paging_askForMore fun more => ?_
            cases more with
            | true => exact ih fuel' _ _
            | false => exact coupled_bind h.paging_abandon fun _ => hdone _

theorem paging_page (fuel fuel' : Nat) :
    PagingKeeps (τ := τ) alike rel behind true (Paging.page fuel) (Paging.page fuel')
      fun _ => false := by
  refine coupled_bind (h.paging_showFrom fuel fuel' 0 0) fun summary => ?_
  have hmark : Keeps rel behind false (Dialogue.mark (.paged summary))
      (Dialogue.mark (.paged summary)) fun _ => false :=
    coupled_modify (fun _ _ => h.note false _) fun _ _ _ hd => h.endures hd (.note _ _)
  refine coupled_bind (h.paging_say _) fun _ => ?_
  refine coupled_bind (paging_onDialogue (h.flush false)) fun _ => ?_
  exact coupled_bind (paging_onDialogue hmark) fun _ => coupled_pure _ fun _ _ hp => hp

end Paging

section Session

omit [Engine ε τ] [Console κ] [Console κ'] [Output ο] [Output ο'] in
theorem session_onDialogue {op : Operation (Dialogue κ ο) α} {op' : Operation (Dialogue κ' ο') α}
    {after : α → Bool} (hop : Keeps rel behind flags op op' after) :
    SessionKeeps alike rel behind flags (Session.onDialogue op) (Session.onDialogue op')
      after where
  meets s s' hs := (hop.meets _ _ hs.dialogue).map
    (fun d => { s with dialogue := d }) (fun d => { s' with dialogue := d })
    (fun _ _ _ hd => ⟨hs.engine, hd, hs.theme, hs.handler, hs.state, hs.phase⟩)
    (fun _ _ hd => ⟨hs.engine, hd, hs.theme, hs.handler, hs.state, hs.phase⟩) fun _ _ _ hd => hd
  endures _ _ _ hs := hop.endures _ _ _ hs

include h

theorem session_loosen {s : Session ε κ ο} {s' : Session ε κ' ο'}
    (hs : s.Twin alike (rel flags) s') : s.Twin alike (rel false) s' :=
  ⟨hs.engine, h.loosen flags hs.dialogue, hs.theme, hs.handler, hs.state, hs.phase⟩

theorem session_endures {op' : Operation (Session ε κ' ο') α} (hop : Within Session.AnyStep op')
    (error : SessionError) (s : Session ε κ ο) (s' : Session ε κ' ο')
    (hs : behind error s.dialogue s'.dialogue) :
    behind error s.dialogue (exec op' s').2.dialogue := by
  refine holds_of_steps (P := fun t => behind error s.dialogue t.dialogue)
    (fun t t' hstep ht => ?_) (hop s') hs
  obtain ⟨e, hstep⟩ := hstep
  rcases hstep.dialogue_cases with hstep | ⟨hnote, -⟩
  · exact h.endures ht ⟨e, .inl hstep⟩
  · exact h.endures ht ⟨e, .inr hnote⟩

theorem session_say (text : String) :
    SessionKeeps alike rel behind flags (Session.say text) (Session.say text) fun _ => flags :=
  session_onDialogue (h.say flags text)

theorem session_enter (phase : Phase) :
    SessionKeeps alike rel behind flags (Session.enter phase) (Session.enter phase)
      fun _ => flags :=
  coupled_modify
    (fun _ _ hs => ⟨hs.engine, h.note flags _ hs.dialogue, hs.theme, hs.handler, hs.state, rfl⟩)
    fun _ _ _ hs => h.endures hs (.note _ _)

theorem session_ask {call : Call ε α} (hcall : Preserves alike call) (event : Event) :
    SessionKeeps alike rel behind flags (Session.ask call event) (Session.ask call event)
      fun _ => flags := by
  refine coupled_ofCall_same (fun s s' hs => ?_) (fun _ _ => h.session_loosen)
    fun _ _ _ hs => h.endures hs (.note _ _)
  obtain ⟨hsame, hnext⟩ := hcall _ _ hs.engine
  exact ⟨hsame, hnext, h.note flags _ hs.dialogue, hs.theme, hs.handler, hs.state, hs.phase⟩

theorem session_drive {call : Call (ε × SessionState) α} (hcall : Preserves (Along alike) call)
    (event : Except SessionError Unit → Bool → Event) :
    SessionKeeps alike rel behind flags (Session.drive call event) (Session.drive call event)
      fun _ => flags := by
  refine coupled_ofCall_same (fun s s' hs => ?_) (fun _ _ => h.session_loosen)
    fun _ _ _ hs => h.endures hs (.note _ _)
  obtain ⟨hsame, hnext, hstate⟩ := hcall (s.engine, s.state) (s'.engine, s'.state)
    ⟨hs.engine, hs.state⟩
  refine ⟨hsame, hnext, ?_, hs.theme, hs.handler, hstate, hs.phase⟩
  have hreport : Session.report call s = Session.report call s' := by
    simp only [Session.report, hsame, hstate]
  change rel flags
    (s.dialogue.note (event (Session.report call s).1 (Session.report call s).2))
    (s'.dialogue.note (event (Session.report call s').1 (Session.report call s').2))
  rw [hreport]
  exact h.note flags _ hs.dialogue

theorem session_installHandler :
    SessionKeeps alike rel behind flags Session.installHandler Session.installHandler
      fun _ => flags := by
  refine ⟨fun s s' hs => ?_, h.session_endures
    (Session.within_any (Session.idle_of_calm Session.calm_installHandler))⟩
  simp only [Session.installHandler, exec_get_bind, hs.handler]
  cases s'.handler with
  | unused => exact .ok hs
  | taken => exact .fault (h.session_loosen hs)
  | free =>
    exact .ok ⟨hs.engine, h.note flags _ hs.dialogue, hs.theme, rfl, hs.state, hs.phase⟩

theorem session_start :
    SessionKeeps alike rel behind false Session.start Session.start fun _ => false := by
  have hgreet : SessionKeeps alike rel behind false Session.greet Session.greet fun _ => false :=
    coupled_bind (h.session_ask h.engine.intro _) fun _ => coupled_bind (h.session_say _) fun _ =>
      coupled_bind (h.session_say _) fun _ => h.session_installHandler
  refine ⟨fun s s' hs => ?_, h.session_endures (Session.within_any Session.within_start)⟩
  have hcolor (theme : Theme) : SessionKeeps alike rel behind false
      (Session.say theme.apply >>= fun _ => Session.onDialogue Dialogue.flush >>= fun _ =>
        Session.greet)
      (Session.say theme.apply >>= fun _ => Session.onDialogue Dialogue.flush >>= fun _ =>
        Session.greet) fun _ => false :=
    coupled_bind (h.session_say _) fun _ =>
      coupled_bind (session_onDialogue (h.flush false)) fun _ => hgreet
  change Meets _ _ _ (exec (if s.theme.colors.isSome then _ else _) s)
    (exec (if s'.theme.colors.isSome then _ else _) s')
  rw [hs.theme]
  exact (coupled_ite (fun _ => hcolor s'.theme) fun _ => hgreet).meets s s' hs

theorem session_page (solutions : τ) (fuel fuel' : Nat) :
    SessionKeeps alike rel behind true (Session.page solutions fuel)
      (Session.page solutions fuel') fun _ => false where
  meets s s' hs :=
    ((h.paging_page fuel fuel').meets ⟨(s.engine, solutions), s.dialogue⟩
      ⟨(s'.engine, solutions), s'.dialogue⟩ ⟨⟨hs.engine, rfl⟩, hs.dialogue⟩).map
      (fun p => { s with engine := p.solutions.1, dialogue := p.dialogue })
      (fun p => { s' with engine := p.solutions.1, dialogue := p.dialogue })
      (fun _ _ _ hp => ⟨hp.solutions.1, hp.dialogue, hs.theme, hs.handler, hs.state, hs.phase⟩)
      (fun _ _ hp => ⟨hp.solutions.1, hp.dialogue, hs.theme, hs.handler, hs.state, hs.phase⟩)
      fun _ _ _ hp => hp
  endures error s s' hs :=
    (h.paging_page fuel fuel').endures error ⟨(s.engine, solutions), s.dialogue⟩
      ⟨(s'.engine, solutions), s'.dialogue⟩ hs

/-- Where interrupts are taken in step they are served so. -/
theorem twinning (hinterrupt : Preserves (Along alike) (Engine.interrupt (ε := ε)))
    (htake : Keeps rel behind false Dialogue.takeInterrupt Dialogue.takeInterrupt fun _ => true) :
    Twinning alike rel behind where
  toPairing := h
  service := coupled_bind (session_onDialogue htake) fun _ =>
    coupled_ite (fun _ => h.session_drive hinterrupt _) fun _ => coupled_pure _ fun _ _ hs => hs

theorem session_history :
    SessionKeeps alike rel behind flags Session.history Session.history fun _ => flags :=
  coupled_read fun _ _ hs => h.history (h.loosen flags hs.dialogue)

/-- Something said at the end of a command. -/
theorem session_answer (text : String) :
    SessionKeeps alike rel behind flags (Session.say text) (Session.say text) fun _ => false :=
  (h.session_say text).mono (fun _ _ hs => hs) fun _ _ _ => h.session_loosen

theorem session_flushHistory {s : Session ε κ ο} {s' : Session ε κ' ο'}
    (hs : s.Twin alike (rel false) s') :
    s.flushHistory.Twin alike (rel false) s'.flushHistory := by
  have hhistory := h.history hs.dialogue
  cases hflushed : s'.dialogue.history.flushed with
  | true =>
    rw [Session.flushHistory_of_flushed hflushed,
      Session.flushHistory_of_flushed (hhistory ▸ hflushed)]
    exact hs
  | false =>
    obtain ⟨hsame, hnext⟩ := h.engine.persist s'.dialogue.history.entries _ _ hs.engine
    rw [Session.flushHistory_eq hflushed, Session.flushHistory_eq (hhistory ▸ hflushed), hhistory,
      hsame]
    exact ⟨hnext, h.note false _ (h.handedOver hs.dialogue), hs.theme, hs.handler, hs.state,
      hs.phase⟩

/-- The clean-up keeps twins as they are, unless the first one falls behind at the theme. -/
theorem session_close {s : Session ε κ ο} {s' : Session ε κ' ο'}
    (hs : s.Twin alike (rel false) s') :
    s.close.Twin alike (rel false) s'.close ∨
      ∃ error, behind error s.close.dialogue s'.close.dialogue := by
  have hflushed := h.session_flushHistory hs
  unfold Session.close
  by_cases hcolors : s'.flushHistory.theme.colors.isSome
  · have hreset (text : String) : SessionKeeps alike rel behind false
        (Session.say text >>= fun _ => Session.onDialogue Dialogue.flush)
        (Session.say text >>= fun _ => Session.onDialogue Dialogue.flush) fun _ => false :=
      coupled_bind (h.session_say _) fun _ => session_onDialogue (h.flush false)
    rw [Session.resetTheme_of_colors hcolors,
      Session.resetTheme_of_colors (hflushed.theme ▸ hcolors), hflushed.theme]
    rcases ((hreset _).meets _ _ hflushed).cases_of_finished (Session.reset_ends _ _)
      (Session.reset_ends _ _) with ⟨-, hend⟩ | ⟨error, -, hend⟩
    · rcases hend with ⟨_, hend⟩ | hend
      · exact .inl hend
      · exact .inl hend
    · exact .inr ⟨error, hend⟩
  · have hplain : ¬ s.flushHistory.theme.colors.isSome := hflushed.theme ▸ hcolors
    simp only [Session.resetTheme, if_neg hcolors, if_neg hplain]
    exact .inl hflushed

end Session

end Pairing

namespace Twinning

variable {ε τ κ κ' ο ο' α : Type} [Engine ε τ] [Console κ] [Console κ'] [Output ο] [Output ο']
variable {alike : ε → ε → Prop} {rel : Bool → Dialogue κ ο → Dialogue κ' ο' → Prop}
variable {behind : SessionError → Dialogue κ ο → Dialogue κ' ο' → Prop}
variable (h : Twinning alike rel behind)
include h

theorem session_dispatch (query : String) (fuel fuel' : Nat) :
    SessionKeeps alike rel behind true (Session.dispatch query fuel)
      (Session.dispatch query fuel') fun _ => false := by
  have hpose : SessionKeeps alike rel behind true
      (modify fun s => { s with state := { s.state with query } })
      (modify fun s => { s with state := { s.state with query } }) fun _ => true :=
    coupled_modify (fun s s' hs => ⟨hs.engine, hs.dialogue, hs.theme, hs.handler,
      congrArg (fun state : SessionState => { state with query }) hs.state, hs.phase⟩)
      fun _ _ _ hs => hs
  refine coupled_bind hpose fun _ => ?_
  refine coupled_bind (h.session_drive h.engine.solve _) fun solutions => ?_
  refine coupled_bind (h.session_page solutions fuel fuel') fun summary => ?_
  refine coupled_ite (fun _ => ?_) fun _ => coupled_pure _ fun _ _ hs => hs
  exact h.service.mono (fun _ _ hs => hs) fun _ _ _ => h.session_loosen

theorem session_execute (query : String) (fuel fuel' : Nat) :
    SessionKeeps alike rel behind true (Session.execute query fuel)
      (Session.execute query fuel') fun _ => false := by
  have hrerun (n : Nat) : SessionKeeps alike rel behind true (Session.rerun n fuel)
      (Session.rerun n fuel') fun _ => false := by
    refine coupled_bind h.session_history fun history => ?_
    cases history.get? n with
    | none => exact h.session_answer _
    | some entry =>
      refine coupled_ite (fun _ => h.session_answer _) fun _ => ?_
      refine coupled_bind (h.session_say _) fun _ => ?_
      exact coupled_bind (Pairing.session_onDialogue (h.record true entry)) fun _ =>
        h.session_dispatch _ _ _
  unfold Session.execute
  cases MetaCommand.parse query with
  | none => exact h.session_dispatch query fuel fuel'
  | some command =>
    have hnote : SessionKeeps alike rel behind true
        (modify fun s => { s with dialogue := s.dialogue.note (.commanded command) })
        (modify fun s => { s with dialogue := s.dialogue.note (.commanded command) })
        fun _ => true :=
      coupled_modify (fun _ _ hs =>
        ⟨hs.engine, h.note true _ hs.dialogue, hs.theme, hs.handler, hs.state, hs.phase⟩)
        fun _ _ _ hs => h.endures hs (.note _ _)
    refine coupled_bind hnote fun _ => ?_
    cases command with
    | history => exact coupled_bind h.session_history fun _ => h.session_answer _
    | help => exact h.session_answer _
    | rerun n => exact hrerun n

theorem session_serve (fuel fuel' : Nat) :
    SessionKeeps alike rel behind false (Session.serve fuel) (Session.serve fuel')
      fun _ => false := by
  have hhalted : SessionKeeps alike rel behind true Session.isHalted Session.isHalted
      fun _ => true := coupled_read fun _ _ hs => congrArg SessionState.halted hs.state
  have hend {flags : Bool} (how : SessionEnd) : SessionKeeps alike rel behind flags
      (do Session.enter .halted; return how) (do Session.enter .halted; return how)
      fun _ => false :=
    coupled_bind (h.session_enter _) fun _ => coupled_pure _ fun _ _ => h.session_loosen
  induction fuel generalizing fuel' with
  | zero => exact coupled_unfinished_left (h.session_endures (Session.within_serve fuel'))
  | succ fuel ih =>
    cases fuel' with
    | zero => exact coupled_unfinished_right
    | succ fuel' =>
      refine coupled_bind (h.session_enter _) fun _ => coupled_bind h.service fun _ => ?_
      refine coupled_bind hhalted fun _ => coupled_ite (fun _ => hend _) fun _ => ?_
      refine coupled_bind (h.session_ask h.engine.prompt _) fun prompt => ?_
      refine coupled_bind (Pairing.session_onDialogue (h.flush true)) fun _ => ?_
      refine coupled_bind (Pairing.session_onDialogue (h.readQuery prompt _ _)) fun input => ?_
      cases input with
      | endOfInput => exact coupled_bind (h.session_say _) fun _ => hend _
      | query query =>
        refine coupled_bind h.service fun _ => ?_
        refine coupled_bind hhalted fun _ => coupled_ite (fun _ => hend _) fun _ => ?_
        refine coupled_bind (h.session_enter _) fun _ => ?_
        exact coupled_bind (h.session_execute query _ _) fun _ => ih fuel'

theorem session_phases (fuel fuel' : Nat) :
    SessionKeeps alike rel behind false (Session.phases fuel) (Session.phases fuel')
      fun _ => false :=
  coupled_bind (h.session_enter _) fun _ => coupled_bind h.session_start fun _ =>
    coupled_bind (h.session_enter _) fun _ => h.session_serve fuel fuel'

/-- Runs of twins that come to their end do so in the same way, unless the first one was left
behind at a fault. -/
theorem runFor_cases {s : Session ε κ ο} {s' : Session ε κ' ο'} {fuel fuel' : Nat}
    (hs : s.Twin alike (rel false) s') (hleft : (s.runFor fuel).1 ≠ .unfinished)
    (hright : (s'.runFor fuel').1 ≠ .unfinished) :
    ((s.runFor fuel).1 = (s'.runFor fuel').1 ∧
        (exec (Session.phases fuel) s).2.Twin alike (rel false)
          (exec (Session.phases fuel') s').2) ∨
      ∃ error, (s.runFor fuel).1 = .faulted error ∧
        behind error (exec (Session.phases fuel) s).2.dialogue
          (exec (Session.phases fuel') s').2.dialogue := by
  have hmeet := (h.session_phases fuel fuel').meets s s' hs
  rw [Session.runFor_eq] at hleft hright ⊢
  rw [Session.runFor_eq]
  rcases hmeet.cases_of_finished (fun hcut => hleft (by simp [hcut, Outcome.ofLoop]))
    (fun hcut => hright (by simp [hcut, Outcome.ofLoop])) with ⟨hsame, hend⟩ | ⟨error, hstop, hend⟩
  · refine .inl ⟨by rw [hsame], ?_⟩
    rcases hend with ⟨_, hend⟩ | hend
    · exact hend
    · exact hend
  · exact .inr ⟨error, by rw [hstop]; rfl, hend⟩

end Twinning

end LogicConsole
