import LogicConsole.Engine.Scripted
import LogicConsole.Proofs.Closing
import LogicConsole.Proofs.Faults
import Mathlib.Data.List.Chain

/-! The phases of a session. Whatever its engine, console and output do, a run goes from phase to
phase along the edges of one graph, each thing happens in a phase it belongs to, and the phase a run
is left in tells how it ended. -/
namespace LogicConsole

open Operation Relation

/-- The phases that may come behind the one a run is in, if it is in one. -/
def Phase.next : Option Phase → List Phase
  | none => [.starting]
  | some .starting => [.ready]
  | some .ready => [.awaitingQuery]
  | some .awaitingQuery => [.executing, .halted]
  | some .executing => [.awaitingQuery]
  | some .halted => []

/-- The phases a run may be in when something other than a change of phase happens in its loop. -/
def Event.phases : Event → List Phase
  | .introduced | .handlerInstalled => [.starting]
  | .prompted | .readLine _ _ | .completed _ => [.awaitingQuery]
  | .commanded _ | .solved _ _ _ | .pulled _ | .readKey _ | .abandoned | .paged _ => [.executing]
  | .remembered _ | .taken | .interrupted _ _ => [.awaitingQuery, .executing]
  | .wrote _ _ | .flushed => [.starting, .awaitingQuery, .executing]
  | .raised => [.starting, .ready, .awaitingQuery, .executing, .halted]
  | .entered _ | .persisted _ _ => []

namespace Journal

/-- The phases gone through, the last one first. -/
def phases : Journal → List Phase := List.filterMap fun
  | .entered phase => some phase
  | _ => none

/-- Each phase comes behind one that leads to it, and all else happens in a phase it belongs to. -/
def Staged : Journal → Prop
  | [] => True
  | .entered phase :: t => phase ∈ Phase.next (phases t).head? ∧ Staged t
  | e :: t => (∃ phase ∈ e.phases, (phases t).head? = some phase) ∧ Staged t

/-- A staged journal that has come to phase `p`. -/
structure StagedAt (p : Phase) (t : Journal) : Prop where
  staged : t.Staged
  phase : t.phases.head? = some p

variable {p : Phase} {t : Journal} {e : Event}

theorem StagedAt.entered (h : t.Staged) (hnext : p ∈ Phase.next t.phases.head?) :
    StagedAt p (.entered p :: t) := ⟨⟨hnext, h⟩, rfl⟩

theorem StagedAt.cons (h : t.StagedAt p) (he : p ∈ e.phases) : StagedAt p (e :: t) := by
  cases e <;> first | exact ⟨⟨⟨p, he, h.phase⟩, h.staged⟩, h.phase⟩ | cases he

/-- A signal may come in any phase. -/
theorem StagedAt.raised {u : List Event} (h : t.StagedAt p) (hu : ∀ x ∈ u, x = .raised) :
    StagedAt p (u ++ t) := by
  induction u with
  | nil => exact h
  | cons x u ih =>
    obtain rfl := hu x (by simp)
    exact (ih fun y hy => hu y (by simp [hy])).cons (by cases p <;> decide)

theorem Staged.tail (h : Staged (e :: t)) : t.Staged := by
  cases e <;> exact h.2

/-- The phases of a staged journal form a path. -/
theorem Staged.isChain (h : t.Staged) :
    t.phases.IsChain fun later earlier => later ∈ Phase.next (some earlier) := by
  induction t with
  | nil => exact .nil
  | cons e t ih =>
    cases e with
    | entered phase =>
      obtain ⟨hnext, ht⟩ := h
      change List.IsChain _ (phase :: phases t)
      cases hphases : phases t with
      | nil => exact .singleton _
      | cons earlier rest =>
        have hrest := ih ht
        rw [hphases] at hnext hrest
        exact .cons_cons hnext hrest
    | _ => exact ih h.tail

/-- A path through the phases begins with the first one. -/
theorem Staged.starting (h : t.Staged) : ∀ first ∈ t.phases.getLast?, first = .starting := by
  induction t with
  | nil => simp [phases]
  | cons e t ih =>
    cases e with
    | entered phase =>
      obtain ⟨hnext, ht⟩ := h
      change ∀ first ∈ (phase :: phases t).getLast?, first = .starting
      cases hphases : phases t with
      | nil =>
        rw [hphases] at hnext
        simpa [Phase.next] using hnext
      | cons earlier rest =>
        have hrest := ih ht
        rw [hphases] at hrest
        simpa using hrest
    | _ => exact ih h.tail

end Journal

namespace Dialogue

variable {κ ο α : Type} [Console κ] [Output ο] {p : Phase}

abbrev StepIn (p : Phase) (d d' : Dialogue κ ο) : Prop := ∃ e, p ∈ e.phases ∧ Step e d d'

/-- All the operation does belongs to the phase. -/
abbrev Belongs (p : Phase) (op : Operation (Dialogue κ ο) α) : Prop := Goes (StepIn p) Fails op

theorem belongs_say (hp : p ∈ Event.flushed.phases) (text : String) :
    Belongs p (say text : Operation (Dialogue κ ο) Unit) :=
  goes_of_step (fun d => ⟨.wrote _ _, hp, .wrote text d⟩) fun _ _ _ => .wrote

theorem belongs_flush (hp : p ∈ Event.flushed.phases) :
    Belongs p (flush : Operation (Dialogue κ ο) Unit) :=
  goes_of_step (fun d => ⟨_, hp, .flushed d⟩) fun _ _ _ => .flushed

theorem belongs_readKey :
    Belongs .executing (readKey : Operation (Dialogue κ ο) (Option Char)) :=
  goes_of_step (fun d => ⟨_, .head _, .keyRead d⟩) fun _ _ _ => .keyRead

theorem belongs_pending : Belongs p (pending : Operation (Dialogue κ ο) Bool) :=
  goes_bind goes_get fun _ => goes_pure _

theorem belongs_record (hp : ∀ entry, p ∈ (Event.remembered entry).phases) (query : String) :
    Belongs p (record query : Operation (Dialogue κ ο) Unit) := by
  cases h : History.entryOf query with
  | none =>
    have hrecord : (record query : Operation (Dialogue κ ο) Unit) = pure () := by
      simp only [record, h]
    rw [hrecord]
    exact goes_pure _
  | some entry =>
    exact goes_of_step (fun d => ⟨_, hp entry, .remembered h d⟩) fun _ _ _ => .remembered

theorem belongs_collectLines (prompt : String) (fuel : Nat) (typed : String) :
    Belongs .awaitingQuery
      (collectLines prompt fuel typed : Operation (Dialogue κ ο) QueryInput) := by
  have hread (marker : String) :
      Belongs .awaitingQuery (readLine marker : Operation (Dialogue κ ο) LineInput) :=
    goes_of_step (fun d => ⟨_, .head _, .lineRead marker d⟩) fun _ _ _ => .lineRead
  induction fuel generalizing typed with
  | zero => exact goes_unfinished
  | succ fuel ih =>
    refine goes_bind (hread _) fun input => ?_
    cases input with
    | interrupted => exact ih typed
    | endOfInput => exact goes_pure _
    | line line => exact goes_ite (goes_pure _) (ih _)

theorem belongs_readQuery (prompt : String) (fuel : Nat) :
    Belongs .awaitingQuery (readQuery prompt fuel : Operation (Dialogue κ ο) QueryInput) := by
  refine goes_bind (belongs_collectLines prompt fuel "") fun input => ?_
  cases input with
  | endOfInput => exact goes_pure _
  | query text =>
    have hmark : Belongs .awaitingQuery
        (mark (.completed text) : Operation (Dialogue κ ο) Unit) :=
      goes_of_step (fun d => ⟨_, .head _, .completed text d⟩) fun _ _ _ h => by cases h
    have hrecord := belongs_record (κ := κ) (ο := ο) (p := .awaitingQuery) (fun _ => .head _) text
    exact goes_bind hmark fun _ => goes_bind hrecord fun _ => goes_pure _

end Dialogue

namespace Paging

variable {τ κ ο α : Type} [SolutionStream τ] [Console κ] [Output ο]

/-- All the display does belongs to the execution of a query. -/
abbrev Belongs (op : Operation (Paging τ κ ο) α) : Prop :=
  Goes (fun p p' => ∃ e, .executing ∈ e.phases ∧ Step e p p') Fails op

theorem belongs_onDialogue {op : Operation (Dialogue κ ο) α} (h : Dialogue.Belongs .executing op) :
    Belongs (onDialogue op : Operation (Paging τ κ ο) α) :=
  goes_focus h (fun _ => rfl) (fun _ _ _ ⟨e, he, hstep⟩ => ⟨e, he, .dialogue hstep⟩)
    fun p dialogue _ _ hfails => .dialogue (p := { p with dialogue }) hfails

theorem belongs_say (text : String) : Belongs (say text : Operation (Paging τ κ ο) Unit) :=
  belongs_onDialogue (Dialogue.belongs_say (by decide) text)

theorem belongs_flush :
    Belongs (onDialogue Dialogue.flush : Operation (Paging τ κ ο) Unit) :=
  belongs_onDialogue (Dialogue.belongs_flush (by decide))

theorem belongs_abandon : Belongs (abandon : Operation (Paging τ κ ο) Unit) :=
  goes_of_step (fun p => ⟨_, .head _, .abandoned p⟩) fun _ _ _ => .abandoned

theorem belongs_askForMore : Belongs (askForMore : Operation (Paging τ κ ο) Bool) := by
  refine goes_bind (belongs_say _) fun _ => goes_bind belongs_flush fun _ => ?_
  refine goes_bind (belongs_onDialogue Dialogue.belongs_readKey) fun answer => ?_
  exact goes_bind (belongs_say _) fun _ => goes_bind (belongs_say _) fun _ => goes_pure _

theorem belongs_showFrom (fuel shown prompts : Nat) :
    Belongs (showFrom fuel shown prompts : Operation (Paging τ κ ο) PageSummary) := by
  have hpull : Belongs (pull : Operation (Paging τ κ ο) (Option Solution)) :=
    goes_of_step (fun p => ⟨_, .head _, .pulled p⟩) fun _ _ _ => .pulled
  induction fuel generalizing shown prompts with
  | zero => exact goes_unfinished
  | succ fuel ih =>
    refine goes_bind (belongs_onDialogue Dialogue.belongs_pending) fun raised => ?_
    refine goes_ite ?_ (goes_bind hpull fun solution => ?_)
    · exact goes_bind belongs_abandon fun _ => goes_bind (belongs_say _) fun _ => goes_pure _
    · cases solution with
      | none => exact goes_pure _
      | some solution =>
        refine goes_bind (belongs_say _) fun _ => goes_ite ?_ ?_
        · exact goes_bind (belongs_say _) fun _ => goes_pure _
        · refine goes_bind belongs_askForMore fun more => goes_ite (ih _ _) ?_
          exact goes_bind belongs_abandon fun _ => goes_pure _

theorem belongs_page (fuel : Nat) :
    Belongs (page fuel : Operation (Paging τ κ ο) PageSummary) := by
  have hmark (summary : PageSummary) : Dialogue.Belongs .executing
      (Dialogue.mark (.paged summary) : Operation (Dialogue κ ο) Unit) :=
    goes_of_step (fun d => ⟨_, .head _, .paged summary d⟩) fun _ _ _ h => by cases h
  refine goes_bind (belongs_showFrom fuel 0 0) fun summary => goes_bind (belongs_say _) fun _ => ?_
  refine goes_bind belongs_flush fun _ => ?_
  exact goes_bind (belongs_onDialogue (hmark summary)) fun _ => goes_pure _

end Paging

namespace Session

variable {ε τ κ ο α : Type} [Engine ε τ] [Console κ] [Output ο] {p later : Phase}

abbrev StepIn (p : Phase) (s s' : Session ε κ ο) : Prop := ∃ e, p ∈ e.phases ∧ Step e s s'

/-- All the operation does belongs to the phase. -/
abbrev Belongs (p : Phase) (op : Operation (Session ε κ ο) α) : Prop := Goes (StepIn p) Fails op

theorem belongs_onDialogue {op : Operation (Dialogue κ ο) α} (h : Dialogue.Belongs p op) :
    Belongs p (onDialogue op : Operation (Session ε κ ο) α) :=
  goes_focus h (fun _ => rfl) (fun _ _ _ ⟨e, he, hstep⟩ => ⟨e, he, .dialogue hstep⟩)
    fun s dialogue _ _ hfails => .dialogue (s := { s with dialogue }) hfails

theorem belongs_say (hp : p ∈ Event.flushed.phases) (text : String) :
    Belongs p (say text : Operation (Session ε κ ο) Unit) :=
  belongs_onDialogue (Dialogue.belongs_say hp text)

theorem belongs_flush (hp : p ∈ Event.flushed.phases) :
    Belongs p (onDialogue Dialogue.flush : Operation (Session ε κ ο) Unit) :=
  belongs_onDialogue (Dialogue.belongs_flush hp)

theorem belongs_installHandler :
    Belongs .starting (installHandler : Operation (Session ε κ ο) Unit) where
  within := by
    refine within_bind within_get fun s => ?_
    cases s.handler with
    | unused => exact within_pure _
    | free => exact within_of_step fun s => ⟨_, .head _, .handlerInstalled s⟩
    | taken => exact within_throw _
  fault := by
    intro s s' error h
    rw [installHandler, exec_get_bind] at h
    cases hhandler : s.handler with
    | unused =>
      rw [hhandler] at h
      cases h
    | free =>
      rw [hhandler] at h
      cases h
    | taken =>
      rw [hhandler] at h
      cases h
      exact ⟨s, .refl, .handlerTaken hhandler⟩

theorem belongs_start : Belongs .starting (start : Operation (Session ε κ ο) Unit) := by
  have hintro : Belongs .starting
      (ask Engine.intro .introduced : Operation (Session ε κ ο) String) :=
    goes_of_step (fun s => ⟨_, .head _, .introduced s⟩) fun _ _ _ => .introduced
  have hgreet : Belongs .starting (greet : Operation (Session ε κ ο) Unit) :=
    goes_bind hintro fun _ => goes_bind (belongs_say (by decide) _) fun _ =>
      goes_bind (belongs_say (by decide) _) fun _ => belongs_installHandler
  refine goes_bind goes_get fun s => goes_ite ?_ hgreet
  exact goes_bind (belongs_say (by decide) _) fun _ =>
    goes_bind (belongs_flush (by decide)) fun _ => hgreet

theorem belongs_serviceInterrupts (hp : p ∈ Event.taken.phases) :
    Belongs p (serviceInterrupts : Operation (Session ε κ ο) Unit) := by
  have htake : Dialogue.Belongs p (Dialogue.takeInterrupt : Operation (Dialogue κ ο) Bool) := by
    refine ⟨fun d => ?_, fun {d d' error} h => ?_⟩
    · rw [Dialogue.exec_takeInterrupt]
      split
      · exact .single ⟨_, hp, .taken d ‹_›⟩
      · exact .refl
    · rw [Dialogue.exec_takeInterrupt] at h
      split at h <;> cases h
  have hserve : Belongs p
      (drive Engine.interrupt .interrupted : Operation (Session ε κ ο) Unit) :=
    goes_of_step (fun s => ⟨.interrupted _ _, hp, .interrupted s⟩) fun _ _ _ => .interrupted
  exact goes_bind (belongs_onDialogue htake) fun raised => goes_ite hserve (goes_pure _)

theorem belongs_page (solutions : τ) (fuel : Nat) :
    Belongs .executing (page solutions fuel : Operation (Session ε κ ο) PageSummary) where
  within := page_steps (Paging.belongs_page fuel).within solutions
  fault := by
    intro s s' error h
    let whole (p : Paging (ε × τ) κ ο) : Session ε κ ο :=
      { s with engine := p.solutions.1, dialogue := p.dialogue }
    obtain ⟨hresult, rfl⟩ := Prod.mk.inj h
    obtain ⟨p, hpath, hfails⟩ := (Paging.belongs_page fuel).fault
      (s := ⟨(s.engine, solutions), s.dialogue⟩) (Prod.ext hresult rfl)
    exact ⟨whole p, hpath.lift whole fun _ _ ⟨e, he, hstep⟩ => ⟨e, he, .paging hstep⟩,
      .paging hfails⟩

theorem belongs_dispatch (query : String) (fuel : Nat) :
    Belongs .executing (dispatch query fuel : Operation (Session ε κ ο) Unit) := by
  have hsend : Belongs .executing (send query : Operation (Session ε κ ο) τ) :=
    goes_of_step (fun s => ⟨_, .head _, .solved query s⟩) fun _ _ _ => .solved
  rw [dispatch_eq]
  refine goes_bind hsend fun solutions => goes_bind (belongs_page solutions fuel) fun summary => ?_
  exact goes_ite (belongs_serviceInterrupts (by decide)) (goes_pure _)

theorem belongs_history : Belongs .executing (history : Operation (Session ε κ ο) History) :=
  goes_bind goes_get fun _ => goes_pure _

theorem belongs_rerun (n fuel : Nat) :
    Belongs .executing (rerun n fuel : Operation (Session ε κ ο) Unit) := by
  refine goes_bind belongs_history fun history => ?_
  cases history.get? n with
  | none => exact belongs_say (by decide) _
  | some entry =>
    have hrecord : Belongs .executing
        (onDialogue (Dialogue.record entry) : Operation (Session ε κ ο) Unit) :=
      belongs_onDialogue (Dialogue.belongs_record (fun _ => .tail _ (.head _)) entry)
    refine goes_ite (belongs_say (by decide) _) (goes_bind (belongs_say (by decide) _) fun _ => ?_)
    exact goes_bind hrecord fun _ => belongs_dispatch _ fuel

theorem belongs_obey (command : MetaCommand) (fuel : Nat) :
    Belongs .executing (obey command fuel : Operation (Session ε κ ο) Unit) := by
  have hnote : Belongs .executing (modify fun s =>
      { s with dialogue := s.dialogue.note (.commanded command) } :
      Operation (Session ε κ ο) Unit) :=
    goes_of_step (fun s => ⟨_, .head _, .commanded command s⟩) fun _ _ _ h => by cases h
  refine goes_bind hnote fun _ => ?_
  cases command with
  | history => exact goes_bind belongs_history fun _ => belongs_say (by decide) _
  | help => exact belongs_say (by decide) _
  | rerun n => exact belongs_rerun n fuel

theorem belongs_execute (query : String) (fuel : Nat) :
    Belongs .executing (execute query fuel : Operation (Session ε κ ο) Unit) := by
  unfold execute
  cases MetaCommand.parse query with
  | none => exact belongs_dispatch query fuel
  | some command => exact belongs_obey command fuel

section Stages

variable {s₀ s s' : Session ε κ ο} {e : Event}

/-- A run that began in `s₀` has come to phase `p`. -/
structure Stage (s₀ : Session ε κ ο) (p : Phase) (s : Session ε κ ο) : Prop where
  path : ReflTransGen AnyStep s₀ s
  phase : s.phase = p
  journal : ∃ t, s.dialogue.journal = t ++ s₀.dialogue.journal ∧ Journal.StagedAt p t

/-- A run that began in `s₀` stops before it is through: by a fault of the last thing it does, in
the phase it was in, or because it is cut short. -/
inductive Broke (s₀ : Session ε κ ο) : Stop → Session ε κ ο → Prop
  | fault {p : Phase} {error : SessionError} {s s' : Session ε κ ο} (h : Stage s₀ p s)
    (hfails : Fails error s s') (h' : Stage s₀ p s') (hp : p ≠ .halted) :
    Broke s₀ (.fault error) s'
  | unfinished {p : Phase} {s : Session ε κ ο} (h : Stage s₀ p s) (hp : p ≠ .halted) :
    Broke s₀ .unfinished s

theorem Step.phase_eq (h : Step e s s') (he : p ∈ e.phases) : s'.phase = s.phase := by
  cases h with
  | entered later => cases he
  | _ => rfl

theorem Stage.step (h : Stage s₀ p s) (hstep : StepIn p s s') : Stage s₀ p s' := by
  obtain ⟨e, he, hstep⟩ := hstep
  obtain ⟨u, hu, hraised⟩ := hstep.journal
  obtain ⟨t, ht, hstaged⟩ := h.journal
  refine ⟨h.path.tail ⟨e, hstep⟩, (hstep.phase_eq he).trans h.phase, u ++ e :: t, ?_, ?_⟩
  · rw [hu, ht, List.append_assoc, List.cons_append]
  · exact (hstaged.cons he).raised hraised

/-- What belongs to a phase neither leaves it nor breaks in another. -/
theorem triple_stage {op : Operation (Session ε κ ο) α} (h : Belongs p op) (hp : p ≠ .halted) :
    Triple (Stage s₀ p) op (fun _ => Stage s₀ p) (Broke s₀) := by
  have hstages : Triple (Stage s₀ p) op (fun _ => Stage s₀ p) fun _ => Stage s₀ p :=
    h.within.triple fun _ _ hstep hs => hs.step hstep
  refine triple_of_exec (fun s a s' hs hrun => hstages.ok hs hrun) fun s stop s' hs hrun => ?_
  have hend := hstages.error hs hrun
  cases stop with
  | unfinished => exact .unfinished hend hp
  | fault error =>
    obtain ⟨s₁, hpath, hfails⟩ := h.fault hrun
    exact .fault (holds_of_steps (fun _ _ hstep hs => hs.step hstep) hpath hs) hfails hend hp

theorem stage_enter {E : Stop → Session ε κ ο → Prop} (hnext : later ∈ Phase.next (some p)) :
    Triple (Stage s₀ p) (enter later : Operation (Session ε κ ο) Unit)
      (fun _ => Stage s₀ later) E := by
  refine triple_modify _ fun s hs => ?_
  have hstep : Step (.entered later) s (exec (enter later) s).2 := .entered later s
  obtain ⟨u, hu, hraised⟩ := hstep.journal
  obtain ⟨t, ht, hstaged⟩ := hs.journal
  refine ⟨hs.path.tail ⟨_, hstep⟩, rfl, u ++ .entered later :: t, ?_, ?_⟩
  · exact hu.trans (by simp [ht])
  · exact (Journal.StagedAt.entered hstaged.staged (hstaged.phase ▸ hnext)).raised hraised

/-- Every run, also a later one, begins with the first phase. -/
theorem stage_enter_starting {E : Stop → Session ε κ ο → Prop} :
    Triple (· = s₀) (enter .starting : Operation (Session ε κ ο) Unit)
      (fun _ => Stage s₀ .starting) E := by
  refine triple_modify _ fun s hs => ?_
  subst hs
  have hstep : Step (.entered .starting) s (exec (enter .starting) s).2 := .entered .starting s
  obtain ⟨u, hu, hraised⟩ := hstep.journal
  have hstart : Journal.StagedAt .starting [.entered .starting] := .entered trivial (.head _)
  exact ⟨.single ⟨_, hstep⟩, rfl, u ++ [.entered .starting], hu.trans (by simp),
    hstart.raised hraised⟩

theorem stage_serve (fuel : Nat) (hp : .awaitingQuery ∈ Phase.next (some p)) :
    Triple (Stage s₀ p) (serve fuel : Operation (Session ε κ ο) SessionEnd)
      (fun _ => Stage s₀ .halted) (Broke s₀) := by
  have hend (how : SessionEnd) : Triple (Stage s₀ .awaitingQuery)
      (do enter .halted; return how : Operation (Session ε κ ο) SessionEnd)
      (fun _ => Stage s₀ .halted) (Broke s₀) :=
    triple_bind (stage_enter (by decide)) fun _ => triple_pure how fun _ hs => hs
  have hawaiting {α : Type} {op : Operation (Session ε κ ο) α} (h : Belongs .awaitingQuery op) :
      Triple (Stage s₀ .awaitingQuery) op (fun _ => Stage s₀ .awaitingQuery) (Broke s₀) :=
    triple_stage h (by decide)
  have hservice : Triple (Stage s₀ .awaitingQuery)
      (serviceInterrupts : Operation (Session ε κ ο) Unit) (fun _ => Stage s₀ .awaitingQuery)
      (Broke s₀) := hawaiting (belongs_serviceInterrupts (by decide))
  have hhalted : Triple (Stage s₀ .awaitingQuery)
      (isHalted : Operation (Session ε κ ο) Bool) (fun _ => Stage s₀ .awaitingQuery) (Broke s₀) :=
    hawaiting (goes_bind goes_get fun _ => goes_pure _)
  have hprompt : Belongs .awaitingQuery
      (ask Engine.prompt .prompted : Operation (Session ε κ ο) String) :=
    goes_of_step (fun s => ⟨_, .head _, .prompted s⟩) fun _ _ _ => .prompted
  induction fuel generalizing p with
  | zero =>
    intro s hs
    exact .unfinished hs fun h => by
      subst h
      cases hp
  | succ fuel ih =>
    refine triple_bind (stage_enter hp) fun _ => triple_bind hservice fun _ => ?_
    refine triple_bind hhalted fun _ => triple_ite (fun _ => hend _) fun _ => ?_
    refine triple_bind (hawaiting hprompt) fun prompt => ?_
    refine triple_bind (hawaiting (belongs_flush (by decide))) fun _ => ?_
    refine triple_bind (hawaiting (belongs_onDialogue (Dialogue.belongs_readQuery prompt _)))
      fun input => ?_
    cases input with
    | endOfInput =>
      exact triple_bind (hawaiting (belongs_say (by decide) _)) fun _ => hend .endOfInput
    | query query =>
      refine triple_bind hservice fun _ => triple_bind hhalted fun _ => ?_
      refine triple_ite (fun _ => hend _) fun _ => ?_
      refine triple_bind (stage_enter (by decide)) fun _ => ?_
      exact triple_bind (triple_stage (belongs_execute query _) (by decide)) fun _ => ih (by decide)

theorem stage_phases (fuel : Nat) :
    Triple (· = s₀) (phases fuel : Operation (Session ε κ ο) SessionEnd)
      (fun _ => Stage s₀ .halted) (Broke s₀) := by
  refine triple_bind stage_enter_starting fun _ => ?_
  refine triple_bind (triple_stage belongs_start (by decide)) fun _ => ?_
  exact triple_bind (stage_enter (by decide)) fun _ => stage_serve fuel (by decide)

omit [Console κ] in
/-- The clean-up belongs to no phase, and stays in the one it finds. -/
theorem close_phase (s : Session ε κ ο) : s.close.phase = s.phase := by
  have hflush : s.flushHistory.phase = s.phase := by
    unfold flushHistory
    split <;> rfl
  rw [← hflush, close]
  rcases resetTheme_cases s.flushHistory with h | h | h <;> rw [h] <;> rfl

end Stages

/-- What a run of a session has to do with its phases: `loop` is what happened in its loop, and
`closing` its clean-up. -/
structure KeepsPhases (s : Session ε κ ο) (fuel : Nat) (loop closing : Journal) : Prop where
  journal : (s.runFor fuel).2.dialogue.journal = closing ++ loop ++ s.dialogue.journal
  closing : ∀ e ∈ closing, e.Persists ∨ e.IsOutput
  /-- Everything happened in a phase it belongs to. -/
  staged : loop.Staged
  /-- The phases form a path, the last one first, that begins in `starting`. -/
  path : loop.phases.IsChain fun later earlier => later ∈ Phase.next (some earlier)
  first : loop.phases.getLast? = some .starting
  last : loop.phases.head? = some (s.runFor fuel).2.phase
  halted : (s.runFor fuel).2.phase = .halted ↔ ∃ how, (s.runFor fuel).1 = .ended how
  /-- A fault is that of the last thing done in the loop, in the phase the session is left in. -/
  faulted (error : SessionError) (h : (s.runFor fuel).1 = .faulted error) :
    ∃ s₁ s₂, Stage s (s.runFor fuel).2.phase s₁ ∧ Fails error s₁ s₂ ∧
      s₂.dialogue.journal = loop ++ s.dialogue.journal ∧ (s.runFor fuel).2 = s₂.close

theorem Stage.keeps {s : Session ε κ ο} {fuel : Nat} (h : Stage s p (exec (phases fuel) s).2)
    (hhalted : p = .halted ↔ ∃ how, (s.runFor fuel).1 = .ended how)
    (hfaulted : ∀ error, (s.runFor fuel).1 = .faulted error →
      ∃ s₁, Stage s p s₁ ∧ Fails error s₁ (exec (phases fuel) s).2) :
    ∃ loop closing, KeepsPhases s fuel loop closing := by
  obtain ⟨loop, hloop, hstaged⟩ := h.journal
  obtain ⟨closing, hjournal, hclosing⟩ : Journal.Adds (fun e => e.Persists ∨ e.IsOutput)
      (exec (phases fuel) s).2.dialogue.journal (s.runFor fuel).2.dialogue.journal := by
    rcases runFor_cases fuel s with hrun | hrun <;> rw [hrun]
    · exact .refl _
    · exact close_journal _
  have hphase : (s.runFor fuel).2.phase = p := by
    rcases runFor_cases fuel s with hrun | hrun <;> rw [hrun]
    · exact h.phase
    · exact (close_phase _).trans h.phase
  have hnonempty : loop.phases ≠ [] := fun hnil => by
    have hlast := hstaged.phase
    rw [hnil] at hlast
    cases hlast
  refine ⟨loop, closing, ?_, hclosing, hstaged.staged, hstaged.staged.isChain, ?_, ?_, ?_, ?_⟩
  · rw [hjournal, hloop, List.append_assoc]
  · rw [List.getLast?_eq_some_getLast hnonempty]
    exact congrArg some
      (hstaged.staged.starting _ (by rw [List.getLast?_eq_some_getLast hnonempty]; rfl))
  · rw [hstaged.phase, hphase]
  · rw [hphase, hhalted]
  · intro error herror
    obtain ⟨s₁, hs₁, hfails⟩ := hfaulted error herror
    have hdone : (s.runFor fuel).1 ≠ .unfinished := by
      rw [herror]
      exact Outcome.noConfusion
    exact ⟨s₁, _, hphase ▸ hs₁, hfails, hloop, runFor_of_finished hdone⟩

/-- Whatever comes of a run, the first one or a later one, it keeps the discipline of phases; and a
run comes to an end when the console gives finitely much. -/
theorem runFor_keeps_phases (s : Session ε κ ο) (fuel : Nat) :
    (∃ loop closing, KeepsPhases s fuel loop closing) ∧
      ∀ (κ' : Type) [FiniteConsole κ'] [LawfulConsole κ'] (s' : Session ε κ' ο),
        s'.run.1 ≠ .unfinished := by
  refine ⟨?_, fun κ' _ _ s' => run_ends s'⟩
  have houtcome : (s.runFor fuel).1 = .ofLoop (exec (phases fuel) s).1 :=
    (reportsLoop s fuel).outcome
  have hphases : Triple (· = s) (phases fuel : Operation (Session ε κ ο) SessionEnd)
      (fun _ => Stage s .halted) (Broke s) := stage_phases fuel
  cases hrun : exec (phases fuel) s with
  | mk r s' =>
    rw [hrun] at houtcome
    cases r with
    | ok how =>
      have hstage : Stage s .halted (exec (phases fuel) s).2 := by
        rw [hrun]
        exact hphases.ok rfl hrun
      refine hstage.keeps ⟨fun _ => ⟨how, houtcome⟩, fun _ => rfl⟩ fun error herror => ?_
      exact Outcome.noConfusion (houtcome.symm.trans herror)
    | error stop =>
      cases hphases.error rfl hrun with
      | @fault p error s₁ _ h hfails h' hp =>
        have hstage : Stage s p (exec (phases fuel) s).2 := by rwa [hrun]
        refine hstage.keeps ⟨fun hhalted => absurd hhalted hp, fun ⟨how, hended⟩ => ?_⟩
          fun error' herror => ?_
        · exact Outcome.noConfusion (houtcome.symm.trans hended)
        · obtain rfl := Outcome.faulted.inj (houtcome.symm.trans herror)
          exact ⟨s₁, h, by rwa [hrun]⟩
      | @unfinished p _ h hp =>
        have hstage : Stage s p (exec (phases fuel) s).2 := by rwa [hrun]
        refine hstage.keeps ⟨fun hhalted => absurd hhalted hp, fun ⟨how, hended⟩ => ?_⟩
          fun error' herror => ?_
        · exact Outcome.noConfusion (houtcome.symm.trans hended)
        · exact Outcome.noConfusion (houtcome.symm.trans herror)

/-- A session whose output has no room left for the newline at the end of the input. -/
def stifled : Session ScriptedEngine ScriptedConsole Buffer where
  engine := {}
  dialogue := { console := {}, output := { limit := some 97 } }

/-- The end of the input does not halt the session while its newline is not out. -/
theorem stifled_keeps_phases :
    (∃ loop closing, KeepsPhases stifled 2 loop closing) ∧ stifled.run.1 ≠ .unfinished ∧
      stifled.run = stifled.runFor 2 ∧
      (stifled.runFor 2).1 = .faulted (.io (.other "sink full")) ∧
      (stifled.runFor 2).2.phase = .awaitingQuery :=
  have hrun := runFor_keeps_phases stifled 2
  ⟨hrun.1, hrun.2 ScriptedConsole stifled, rfl, by decide +kernel, by decide +kernel⟩

end Session

end LogicConsole
