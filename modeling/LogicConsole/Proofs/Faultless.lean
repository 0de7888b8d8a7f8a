import LogicConsole.Console.Scripted
import LogicConsole.Proofs.Steps
/-! Sessions that nothing fails. If every call of the engine, of its sequences, of the console and
of the output comes to a result, no run faults, and how it ends tells whether the engine has raised
the halt flag. -/
namespace LogicConsole

/-- A console whose reads never fail, and which keeps every entry offered. -/
structure Console.Reliable (κ : Type) [Console κ] : Prop where
  readLine (marker : String) (c : κ) : (Console.readLine marker c).1.result.isOk = true
  readKey (c : κ) : (Console.readKey c).1.result.isOk = true
  remember (entry : String) (c : κ) : (Console.remember entry c).1.isOk = true

theorem ScriptedConsole.reliable : Console.Reliable ScriptedConsole where
  readLine _ _ := rfl
  readKey c := by
    rw [readKey_eq]
    split <;> rfl
  remember _ _ := rfl

/-- The sequences of a kind whose calls never fail and stay of this kind. -/
structure SolutionStream.Faultless {τ : Type} [SolutionStream τ] (sound : τ → Prop) : Prop where
  next {s : τ} (h : sound s) :
    (SolutionStream.next s).1.isOk = true ∧ sound (SolutionStream.next s).2
  abandon {s : τ} (h : sound s) :
    (SolutionStream.abandon s).1.isOk = true ∧ sound (SolutionStream.abandon s).2

/-- An engine whose calls never fail, and which begins no sequence that does. -/
structure Engine.Faultless {ε τ : Type} [Engine ε τ] (sound : τ → Prop) : Prop where
  intro (e : ε) : (Engine.intro e).1.isOk = true
  prompt (e : ε) : (Engine.prompt e).1.isOk = true
  solve (es : ε × SessionState) : ∃ solutions, (Engine.solve es).1 = .ok solutions ∧ sound solutions
  interrupt (es : ε × SessionState) : (Engine.interrupt es).1.isOk = true
  stream : SolutionStream.Faultless fun es : ε × τ => sound es.2

namespace Operation

variable {σ ρ α β : Type} {P : σ → Prop}

/-- From a state in `P` the operation comes to a result and a state in `P`, unless it is cut
short. -/
def Smooth (P : σ → Prop) (op : Operation σ α) : Prop :=
  Triple P op (fun _ => P) fun stop _ => stop = .unfinished

theorem smooth_pure (a : α) : Smooth P (pure a : Operation σ α) := triple_pure a fun _ hs => hs

theorem smooth_unfinished : Smooth P (unfinished : Operation σ α) := fun _ _ => rfl

theorem smooth_bind {op : Operation σ α} {next : α → Operation σ β} (hop : Smooth P op)
    (hnext : ∀ a, Smooth P (next a)) : Smooth P (op >>= next) := triple_bind hop hnext

theorem smooth_ite {c : Prop} [Decidable c] {op op' : Operation σ α} (h : Smooth P op)
    (h' : Smooth P op') : Smooth P (if c then op else op') := triple_ite (fun _ => h) fun _ => h'

theorem smooth_modify {f : σ → σ} (h : ∀ s, P s → P (f s)) :
    Smooth P (modify f : Operation σ Unit) := triple_modify f h

theorem triple_ofCall_isOk {call : Call σ α} {Q : α → σ → Prop} {E : Stop → σ → Prop}
    (hok : ∀ s, P s → (call s).1.isOk = true)
    (h : ∀ s a, P s → (call s).1 = .ok a → Q a (call s).2) : Triple P (ofCall call) Q E := by
  refine triple_ofCall h fun s error hs herror => ?_
  have hfine := hok s hs
  rw [herror] at hfine
  cases hfine

theorem smooth_ofCall {call : Call σ α} (hok : ∀ s, P s → (call s).1.isOk = true)
    (h : ∀ s, P s → P (call s).2) : Smooth P (ofCall call) :=
  triple_ofCall_isOk hok fun s _ hs _ => h s hs

/-- On a part of the state an operation runs as smoothly, and what it does not touch stays. -/
theorem smooth_focus {get : σ → ρ} {put : ρ → σ → σ} {part : ρ → Prop} {op : Operation ρ α}
    (h : Smooth part op) (R : σ → Prop) (hget : ∀ r s, get (put r s) = r)
    (hR : ∀ r s, R s → R (put r s)) :
    Smooth (fun s => part (get s) ∧ R s) (focus get put op) := by
  refine triple_of_exec (fun s a s' hs hrun => ?_) fun s stop s' hs hrun => ?_
  · rw [exec_focus] at hrun
    obtain ⟨hresult, rfl⟩ := Prod.mk.inj hrun
    refine ⟨?_, hR _ s hs.2⟩
    rw [hget]
    exact Triple.ok h hs.1 (Prod.ext hresult rfl)
  · rw [exec_focus] at hrun
    obtain ⟨hresult, rfl⟩ := Prod.mk.inj hrun
    exact Triple.error h hs.1 (Prod.ext hresult rfl)

end Operation

open Operation

namespace Dialogue

variable {κ ο α : Type} [Console κ] [Output ο] {accepts : ο → Prop} {received : ο → List UInt8}

omit [Console κ] [Output ο] in
theorem accepts_note {d : Dialogue κ ο} (h : accepts d.output) (event : Event) :
    accepts (d.note event).output := by rwa [output_note]

omit [Console κ] in
theorem smooth_say (hsink : Output.Infallible accepts received) (text : String) :
    Smooth (fun d => accepts d.output) (say text : Operation (Dialogue κ ο) Unit) := by
  refine smooth_ofCall (fun d hd => ?_) fun d hd => ?_
  · rw [(hsink.write hd text).1]
    rfl
  · exact accepts_note (hsink.write hd text).2.1 _

omit [Console κ] in
theorem smooth_flush (hsink : Output.Infallible accepts received) :
    Smooth (fun d => accepts d.output) (flush : Operation (Dialogue κ ο) Unit) := by
  refine smooth_ofCall (fun d hd => ?_) fun d hd => ?_
  · rw [(hsink.flush hd).1]
    rfl
  · exact accepts_note (hsink.flush hd).2.1 _

omit [Output ο] in
theorem smooth_readLine (hconsole : Console.Reliable κ) (marker : String) :
    Smooth (fun d => accepts d.output) (readLine marker : Operation (Dialogue κ ο) LineInput) := by
  refine smooth_ofCall (fun d _ => hconsole.readLine marker d.console) fun d hd => ?_
  rw [output_hear, output_note]
  exact hd

omit [Output ο] in
theorem smooth_readKey (hconsole : Console.Reliable κ) :
    Smooth (fun d => accepts d.output) (readKey : Operation (Dialogue κ ο) (Option Char)) := by
  refine smooth_ofCall (fun d _ => hconsole.readKey d.console) fun d hd => ?_
  rw [output_hear, output_note]
  exact hd

omit [Console κ] [Output ο] in
theorem smooth_mark (event : Event) :
    Smooth (fun d => accepts d.output) (mark event : Operation (Dialogue κ ο) Unit) :=
  smooth_modify fun _ hd => accepts_note hd event

omit [Output ο] in
theorem smooth_record (hconsole : Console.Reliable κ) (query : String) :
    Smooth (fun d => accepts d.output) (record query : Operation (Dialogue κ ο) Unit) := by
  unfold record
  cases History.entryOf query with
  | none => exact smooth_pure _
  | some entry =>
    refine smooth_ofCall (fun d _ => hconsole.remember entry d.console) fun d hd => ?_
    rw [output_note]
    exact hd

omit [Output ο] in
theorem smooth_collectLines (hconsole : Console.Reliable κ) (prompt : String) (fuel : Nat)
    (typed : String) :
    Smooth (fun d => accepts d.output)
      (collectLines prompt fuel typed : Operation (Dialogue κ ο) QueryInput) := by
  induction fuel generalizing typed with
  | zero => exact smooth_unfinished
  | succ fuel ih =>
    refine smooth_bind (smooth_readLine hconsole _) fun input => ?_
    cases input with
    | interrupted => exact ih typed
    | endOfInput => exact smooth_pure _
    | line line => exact smooth_ite (smooth_pure _) (ih _)

omit [Output ο] in
theorem smooth_readQuery (hconsole : Console.Reliable κ) (prompt : String) (fuel : Nat) :
    Smooth (fun d => accepts d.output)
      (readQuery prompt fuel : Operation (Dialogue κ ο) QueryInput) := by
  refine smooth_bind (smooth_collectLines hconsole prompt fuel "") fun input => ?_
  cases input with
  | endOfInput => exact smooth_pure _
  | query text =>
    exact smooth_bind (smooth_mark _) fun _ =>
      smooth_bind (smooth_record hconsole text) fun _ => smooth_pure _

end Dialogue

namespace Paging

variable {τ κ ο α : Type} [SolutionStream τ] [Console κ] [Output ο] {accepts : ο → Prop}
variable {received : ο → List UInt8} {sound : τ → Prop}

/-- The output is still accepted, and the sequence still sound. -/
def Fit (accepts : ο → Prop) (sound : τ → Prop) (p : Paging τ κ ο) : Prop :=
  accepts p.dialogue.output ∧ sound p.solutions

omit [SolutionStream τ] [Console κ] [Output ο] in
theorem smooth_onDialogue {op : Operation (Dialogue κ ο) α}
    (h : Smooth (fun d => accepts d.output) op) :
    Smooth (Fit accepts sound) (onDialogue op : Operation (Paging τ κ ο) α) :=
  smooth_focus h (fun p : Paging τ κ ο => sound p.solutions) (fun _ _ => rfl) fun _ _ hs => hs

omit [SolutionStream τ] [Console κ] in
theorem smooth_say (hsink : Output.Infallible accepts received) (text : String) :
    Smooth (Fit accepts sound) (say text : Operation (Paging τ κ ο) Unit) :=
  smooth_onDialogue (Dialogue.smooth_say hsink text)

omit [SolutionStream τ] [Console κ] in
theorem smooth_flush (hsink : Output.Infallible accepts received) :
    Smooth (Fit accepts sound) (onDialogue Dialogue.flush : Operation (Paging τ κ ο) Unit) :=
  smooth_onDialogue (Dialogue.smooth_flush hsink)

omit [Console κ] [Output ο] in
theorem smooth_pull (hstream : SolutionStream.Faultless sound) :
    Smooth (Fit accepts sound) (pull : Operation (Paging τ κ ο) (Option Solution)) := by
  exact smooth_ofCall (fun p hp => (hstream.next hp.2).1) fun p hp =>
    ⟨Dialogue.accepts_note hp.1 _, (hstream.next hp.2).2⟩

omit [Console κ] [Output ο] in
theorem smooth_abandon (hstream : SolutionStream.Faultless sound) :
    Smooth (Fit accepts sound) (abandon : Operation (Paging τ κ ο) Unit) := by
  exact smooth_ofCall (fun p hp => (hstream.abandon hp.2).1) fun p hp =>
    ⟨Dialogue.accepts_note hp.1 _, (hstream.abandon hp.2).2⟩

variable (hsink : Output.Infallible accepts received) (hconsole : Console.Reliable κ)
include hsink hconsole

omit [SolutionStream τ] in
theorem smooth_askForMore :
    Smooth (Fit accepts sound) (askForMore : Operation (Paging τ κ ο) Bool) := by
  refine smooth_bind (smooth_say hsink _) fun _ => ?_
  refine smooth_bind (smooth_flush hsink) fun _ => ?_
  refine smooth_bind (smooth_onDialogue (Dialogue.smooth_readKey hconsole)) fun answer => ?_
  refine smooth_bind (smooth_say hsink _) fun _ => ?_
  exact smooth_bind (smooth_say hsink _) fun _ => smooth_pure _

variable (hstream : SolutionStream.Faultless sound)
include hstream

theorem smooth_showFrom (fuel shown prompts : Nat) :
    Smooth (Fit accepts sound)
      (showFrom fuel shown prompts : Operation (Paging τ κ ο) PageSummary) := by
  have hpending : Smooth (Fit accepts sound)
      (onDialogue Dialogue.pending : Operation (Paging τ κ ο) Bool) := fun _ hp => hp
  induction fuel generalizing shown prompts with
  | zero => exact smooth_unfinished
  | succ fuel ih =>
    refine smooth_bind hpending fun raised => smooth_ite ?_ ?_
    · refine smooth_bind (smooth_abandon hstream) fun _ => ?_
      exact smooth_bind (smooth_say hsink _) fun _ => smooth_pure _
    refine smooth_bind (smooth_pull hstream) fun solution => ?_
    cases solution with
    | none => exact smooth_pure _
    | some solution =>
      refine smooth_bind (smooth_say hsink _) fun _ => smooth_ite ?_ ?_
      · exact smooth_bind (smooth_say hsink _) fun _ => smooth_pure _
      · refine smooth_bind (smooth_askForMore hsink hconsole) fun more => smooth_ite (ih _ _) ?_
        exact smooth_bind (smooth_abandon hstream) fun _ => smooth_pure _

theorem smooth_page (fuel : Nat) :
    Smooth (Fit accepts sound) (page fuel : Operation (Paging τ κ ο) PageSummary) := by
  refine smooth_bind (smooth_showFrom hsink hconsole hstream fuel 0 0) fun summary => ?_
  refine smooth_bind (smooth_say hsink _) fun _ => ?_
  refine smooth_bind (smooth_flush hsink) fun _ => ?_
  exact smooth_bind (smooth_onDialogue (Dialogue.smooth_mark _)) fun _ => smooth_pure _

end Paging

namespace Session

variable {ε τ κ ο α : Type} {accepts : ο → Prop} {received : ο → List UInt8} {sound : τ → Prop}

/-- The output is still accepted, and `R` tells of the handler and the state. -/
def Fit (accepts : ο → Prop) (R : HandlerUse → SessionState → Prop) (s : Session ε κ ο) : Prop :=
  accepts s.dialogue.output ∧ R s.handler s.state

/-- Nothing is known of the handler and the state. -/
abbrev Anyhow : HandlerUse → SessionState → Prop := fun _ _ => True

/-- The session's end tells whether the halt flag is up. -/
def Concluded (how : SessionEnd) (s : Session ε κ ο) : Prop :=
  how = .halted ↔ s.state.halted = true

variable {R : HandlerUse → SessionState → Prop}

theorem Fit.anyhow {s : Session ε κ ο} (h : s.Fit accepts R) : s.Fit accepts Anyhow :=
  ⟨h.1, trivial⟩

theorem smooth_onDialogue {op : Operation (Dialogue κ ο) α}
    (h : Smooth (fun d => accepts d.output) op) :
    Smooth (Fit accepts R) (onDialogue op : Operation (Session ε κ ο) α) :=
  smooth_focus h (fun s : Session ε κ ο => R s.handler s.state) (fun _ _ => rfl) fun _ _ hs => hs

theorem smooth_enter (phase : Phase) :
    Smooth (Fit accepts R) (enter phase : Operation (Session ε κ ο) Unit) :=
  smooth_modify fun _ hs => ⟨Dialogue.accepts_note hs.1 _, hs.2⟩

theorem smooth_ask {call : Call ε α} (event : Event) (hcall : ∀ e, (call e).1.isOk = true) :
    Smooth (Fit accepts R) (ask call event : Operation (Session ε κ ο) α) :=
  smooth_ofCall (fun s _ => hcall s.engine) fun _ hs => ⟨Dialogue.accepts_note hs.1 _, hs.2⟩

theorem smooth_history : Smooth (Fit accepts R) (history : Operation (Session ε κ ο) History) :=
  fun _ hs => hs

theorem triple_ending_concluded {E : Stop → Session ε κ ο → Prop} (how : SessionEnd) :
    Triple (Concluded how) (do enter .halted; return how : Operation (Session ε κ ο) SessionEnd)
      Concluded E :=
  triple_bind (triple_modify _ fun _ hs => hs) fun _ => triple_pure _ fun _ hs => hs

/-- The halt flag is looked at: the session ends as it says, or goes on with the flag down. -/
theorem triple_unless_halted_concluded {next : Operation (Session ε κ ο) SessionEnd}
    {E : Stop → Session ε κ ο → Prop}
    (hnext : Triple (Fit accepts fun _ state => state.halted = false) next Concluded E) :
    Triple (Fit accepts Anyhow)
      (do
        if ← isHalted then
          enter .halted
          return .halted
        next) Concluded E := by
  refine triple_bind (Q := fun halted s => s.Fit accepts Anyhow ∧ halted = s.state.halted)
    (fun s hs => ⟨hs, rfl⟩) fun halted => triple_ite (fun hhalted => ?_) fun hawake => ?_
  · refine (triple_ending_concluded _).of_pre fun s hs => ?_
    exact iff_of_true rfl (hs.2 ▸ hhalted)
  · exact hnext.of_pre fun s hs => ⟨hs.1.1, by simpa [← hs.2] using hawake⟩

variable [Engine ε τ] [Console κ] [Output ο]

omit [Engine ε τ] [Console κ] in
theorem smooth_say (hsink : Output.Infallible accepts received) (text : String) :
    Smooth (Fit accepts R) (say text : Operation (Session ε κ ο) Unit) :=
  smooth_onDialogue (Dialogue.smooth_say hsink text)

omit [Engine ε τ] [Console κ] in
theorem smooth_flush (hsink : Output.Infallible accepts received) :
    Smooth (Fit accepts R) (onDialogue Dialogue.flush : Operation (Session ε κ ο) Unit) :=
  smooth_onDialogue (Dialogue.smooth_flush hsink)

omit [Console κ] in
/-- A start fails at nothing but a handler that is taken. -/
theorem triple_start (hsink : Output.Infallible accepts received)
    (hengine : Engine.Faultless (ε := ε) sound) :
    Triple (Fit accepts fun handler _ => handler ≠ .taken)
      (start : Operation (Session ε κ ο) Unit) (fun _ => Fit accepts Anyhow)
      fun stop _ => stop = .unfinished := by
  have hinstall : Triple (Fit accepts fun handler _ => handler ≠ .taken)
      (installHandler : Operation (Session ε κ ο) Unit) (fun _ => Fit accepts Anyhow)
      fun stop _ => stop = .unfinished := by
    intro s hs
    unfold installHandler
    rw [exec_get_bind]
    cases hhandler : s.handler with
    | unused => exact hs.anyhow
    | taken => exact absurd hhandler hs.2
    | free => exact ⟨Dialogue.accepts_note hs.1 .handlerInstalled, trivial⟩
  have hgreet : Triple (Fit accepts fun handler _ => handler ≠ .taken)
      (greet : Operation (Session ε κ ο) Unit) (fun _ => Fit accepts Anyhow)
      fun stop _ => stop = .unfinished :=
    triple_bind (smooth_ask .introduced hengine.intro) fun _ =>
      triple_bind (smooth_say hsink _) fun _ => triple_bind (smooth_say hsink _) fun _ => hinstall
  refine triple_bind (Q := fun _ => Fit accepts fun handler _ => handler ≠ .taken)
    (fun _ hs => hs) fun s => triple_ite (fun _ => ?_) fun _ => hgreet
  exact triple_bind (smooth_say hsink _) fun _ => triple_bind (smooth_flush hsink) fun _ => hgreet

omit [Console κ] [Output ο] in
theorem smooth_serviceInterrupts (hengine : Engine.Faultless (ε := ε) sound) :
    Smooth (Fit accepts Anyhow) (serviceInterrupts : Operation (Session ε κ ο) Unit) := by
  have hdrive : Smooth (Fit accepts Anyhow)
      (drive Engine.interrupt .interrupted : Operation (Session ε κ ο) Unit) :=
    smooth_ofCall (fun s _ => hengine.interrupt (s.engine, s.state)) fun _ hs =>
      ⟨Dialogue.accepts_note hs.1 _, trivial⟩
  intro s hs
  rw [exec_serviceInterrupts]
  by_cases hraised : s.dialogue.interrupt.isRaised
  · rw [if_pos hraised]
    refine hdrive _ ⟨?_, trivial⟩
    rw [Dialogue.output_note]
    exact hs.1
  · rw [if_neg hraised]
    exact hs

section Serving

variable (hsink : Output.Infallible accepts received) (hconsole : Console.Reliable κ)
variable (hengine : Engine.Faultless (ε := ε) sound)
include hsink hconsole hengine

theorem smooth_page {solutions : τ} (hsound : sound solutions) (fuel : Nat) :
    Smooth (Fit accepts Anyhow) (page solutions fuel : Operation (Session ε κ ο) PageSummary) := by
  have hpage := (Paging.smooth_page hsink hconsole hengine.stream fuel).mono (fun _ hp => hp)
    (fun _ _ hp => hp.1) fun _ _ hstop => hstop
  have hshown := triple_page_of (Q := fun _ d => accepts d.output)
    (E := fun stop _ => stop = .unfinished) hpage solutions
  exact hshown.mono (fun _ hs => ⟨hs.1, hsound⟩) (fun _ _ hs => ⟨hs, trivial⟩)
    fun _ _ hstop => hstop

theorem smooth_dispatch (query : String) (fuel : Nat) :
    Smooth (Fit accepts Anyhow) (dispatch query fuel : Operation (Session ε κ ο) Unit) := by
  have hsolve : Triple (Fit accepts Anyhow)
      (drive Engine.solve (.solved query) : Operation (Session ε κ ο) τ)
      (fun solutions s => s.Fit accepts Anyhow ∧ sound solutions)
      fun stop _ => stop = .unfinished := by
    refine triple_ofCall_isOk (fun s _ => ?_) fun s solutions hs hcall => ?_
    · obtain ⟨solutions, hok, -⟩ := hengine.solve (s.engine, s.state)
      change (Engine.solve (s.engine, s.state)).1.isOk = true
      rw [hok]
      rfl
    · obtain ⟨solutions', hok, hsound⟩ := hengine.solve (s.engine, s.state)
      obtain rfl : solutions = solutions' := Except.ok.inj (hcall.symm.trans hok)
      exact ⟨⟨Dialogue.accepts_note hs.1 _, trivial⟩, hsound⟩
  refine smooth_bind (smooth_modify fun s hs => hs) fun _ => triple_bind hsolve fun solutions => ?_
  intro s hs
  refine smooth_bind (smooth_page hsink hconsole hengine hs.2 fuel) (fun summary => ?_) s hs.1
  exact smooth_ite (smooth_serviceInterrupts hengine) (smooth_pure _)

theorem smooth_rerun (n fuel : Nat) :
    Smooth (Fit accepts Anyhow) (rerun n fuel : Operation (Session ε κ ο) Unit) := by
  refine smooth_bind smooth_history fun h => ?_
  cases h.get? n with
  | none => exact smooth_say hsink _
  | some entry =>
    refine smooth_ite (smooth_say hsink _) (smooth_bind (smooth_say hsink _) fun _ => ?_)
    exact smooth_bind (smooth_onDialogue (Dialogue.smooth_record hconsole entry)) fun _ =>
      smooth_dispatch hsink hconsole hengine _ fuel

theorem smooth_execute (query : String) (fuel : Nat) :
    Smooth (Fit accepts Anyhow) (execute query fuel : Operation (Session ε κ ο) Unit) := by
  unfold execute
  cases MetaCommand.parse query with
  | none => exact smooth_dispatch hsink hconsole hengine query fuel
  | some command =>
    have hnote : Smooth (Fit accepts Anyhow) (modify fun s =>
        { s with dialogue := s.dialogue.note (.commanded command) } :
        Operation (Session ε κ ο) Unit) :=
      smooth_modify fun _ hs => ⟨Dialogue.accepts_note hs.1 _, trivial⟩
    refine smooth_bind hnote fun _ => ?_
    cases command with
    | history => exact smooth_bind smooth_history fun _ => smooth_say hsink _
    | help => exact smooth_say hsink _
    | rerun n => exact smooth_rerun hsink hconsole hengine n fuel

/-- However long it goes on, a session that nothing fails ends as its halt flag says. -/
theorem triple_serve_concluded (fuel : Nat) :
    Triple (Fit accepts Anyhow) (serve fuel : Operation (Session ε κ ο) SessionEnd) Concluded
      fun stop _ => stop = .unfinished := by
  induction fuel with
  | zero => exact fun _ _ => rfl
  | succ fuel ih =>
    refine triple_bind (smooth_enter _) fun _ => ?_
    refine triple_bind (smooth_serviceInterrupts hengine) fun _ =>
      triple_unless_halted_concluded ?_
    refine triple_bind (smooth_ask .prompted hengine.prompt) fun prompt => ?_
    refine triple_bind (smooth_flush hsink) fun _ => ?_
    refine triple_bind (smooth_onDialogue (Dialogue.smooth_readQuery hconsole prompt _))
      fun input => ?_
    cases input with
    | endOfInput =>
      refine triple_bind (smooth_say hsink _) fun _ => ?_
      refine (triple_ending_concluded _).of_pre fun s hs => ?_
      have hawake : s.state.halted = false := hs.2
      simp [Concluded, hawake]
    | query query =>
      refine triple_bind ((smooth_serviceInterrupts hengine).of_pre fun _ => Fit.anyhow) fun _ =>
        triple_unless_halted_concluded ?_
      refine triple_bind (smooth_enter _) fun _ => ?_
      exact triple_bind ((smooth_execute hsink hconsole hengine query _).of_pre fun _ => Fit.anyhow)
        fun _ => ih

/-- A session that nothing fails comes to its end unless it is cut short. -/
theorem triple_phases_concluded (fuel : Nat) :
    Triple (Fit accepts fun handler _ => handler ≠ .taken)
      (phases fuel : Operation (Session ε κ ο) SessionEnd) Concluded
      fun stop _ => stop = .unfinished :=
  triple_bind (smooth_enter _) fun _ => triple_bind (triple_start hsink hengine) fun _ =>
    triple_bind (smooth_enter _) fun _ => triple_serve_concluded hsink hconsole hengine fuel

end Serving

end Session

end LogicConsole
