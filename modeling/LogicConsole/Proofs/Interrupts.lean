import LogicConsole.Engine.Facts
import LogicConsole.Proofs.Ledger
import LogicConsole.Proofs.Twins
/-! Interrupts typed at a line prompt change nothing but counters. A session that is interrupted
there runs as the session with no interrupts in its script: what was typed before an interrupt is
kept, and every interrupt is served before solutions are displayed. -/
namespace LogicConsole

open Operation Relation

/-- Told of an interrupt the engine does no more than count it: its state stays alike. -/
structure Engine.OnlyCounts {ε τ : Type} [Engine ε τ] (alike : ε → ε → Prop) : Prop
    extends Engine.Respects alike where
  symm {e e' : ε} : alike e e' → alike e' e
  trans {e e' e'' : ε} : alike e e' → alike e' e'' → alike e e''
  interrupt {e : ε} (h : alike e e) (state : SessionState) :
    (Engine.interrupt (e, state)).1 = .ok () ∧ alike e (Engine.interrupt (e, state)).2.1 ∧
      (Engine.interrupt (e, state)).2.2 = state

/-- Two engines with the same facts and files, whatever their counts. -/
def FactEngine.SameFacts (e e' : FactEngine) : Prop := ∃ n, e' = { e with interrupts := n }

/-- Two engines that go on in the same way, and do not halt at an interrupt. -/
def ScriptedEngine.SameReplies (e e' : ScriptedEngine) : Prop :=
  e.haltOnInterrupt = false ∧ ∃ n, e' = { e with interrupts := n }

theorem FactEngine.onlyCounts : Engine.OnlyCounts FactEngine.SameFacts where
  intro := by
    rintro e - ⟨n, rfl⟩
    exact ⟨rfl, n, rfl⟩
  prompt := by
    rintro e - ⟨n, rfl⟩
    exact ⟨rfl, n, rfl⟩
  solve := by
    rintro ⟨e, state⟩ ⟨-, -⟩ ⟨⟨n, rfl⟩, rfl⟩
    simp only [Engine.solve, FactEngine.solve]
    cases Directive.parse state.query with
    | error error => exact ⟨rfl, ⟨n, rfl⟩, rfl⟩
    | ok directive => cases directive <;> exact ⟨rfl, ⟨n, rfl⟩, rfl⟩
  next := by
    rintro ⟨e, stream⟩ ⟨-, -⟩ ⟨⟨n, rfl⟩, rfl⟩
    exact ⟨rfl, ⟨n, rfl⟩, rfl⟩
  abandon := by
    rintro ⟨e, stream⟩ ⟨-, -⟩ ⟨⟨n, rfl⟩, rfl⟩
    exact ⟨rfl, ⟨n, rfl⟩, rfl⟩
  persist entries := by
    rintro ⟨facts, prompt, file, count, files⟩ - ⟨n, rfl⟩
    cases file <;> exact ⟨rfl, n, rfl⟩
  symm := by
    rintro e - ⟨n, rfl⟩
    exact ⟨e.interrupts, rfl⟩
  trans := by
    rintro e - - ⟨n, rfl⟩ ⟨m, rfl⟩
    exact ⟨m, rfl⟩
  interrupt _ _ := ⟨rfl, ⟨_, rfl⟩, rfl⟩

theorem ScriptedEngine.onlyCounts : Engine.OnlyCounts ScriptedEngine.SameReplies where
  intro := by
    rintro e - ⟨h, n, rfl⟩
    exact ⟨rfl, h, n, rfl⟩
  prompt := by
    rintro e - ⟨h, n, rfl⟩
    exact ⟨rfl, h, n, rfl⟩
  solve := by
    rintro ⟨e, state⟩ ⟨-, -⟩ ⟨⟨h, n, rfl⟩, rfl⟩
    simp only [Engine.solve, ScriptedEngine.solve]
    cases e.replies.head?.getD defaultReply <;> exact ⟨rfl, ⟨h, n, rfl⟩, rfl⟩
  next := by
    rintro ⟨e, stream⟩ ⟨-, -⟩ ⟨⟨h, n, rfl⟩, rfl⟩
    simp only [Engine.next, ScriptedEngine.next]
    cases stream.ended <;> cases stream.pending <;> exact ⟨rfl, ⟨h, n, rfl⟩, rfl⟩
  abandon := by
    rintro ⟨e, stream⟩ ⟨-, -⟩ ⟨⟨h, n, rfl⟩, rfl⟩
    refine ⟨rfl, ?_⟩
    simp only [Engine.abandon, ScriptedEngine.abandon]
    cases stream.ended <;> exact ⟨⟨h, n, rfl⟩, rfl⟩
  persist entries := by
    rintro e - ⟨h, n, rfl⟩
    exact ⟨rfl, h, n, rfl⟩
  symm := by
    rintro e - ⟨h, n, rfl⟩
    exact ⟨h, e.interrupts, rfl⟩
  trans := by
    rintro e - - ⟨h, n, rfl⟩ ⟨-, m, rfl⟩
    exact ⟨h, m, rfl⟩
  interrupt {e} h state := by
    refine ⟨rfl, ⟨h.1, _, rfl⟩, ?_⟩
    change { state with halted := state.halted || e.haltOnInterrupt } = state
    rw [h.1, Bool.or_false]

/-- The script without its interrupts. -/
def ScriptedConsole.uninterrupted (c : ScriptedConsole) : ScriptedConsole :=
  { c with events := c.events.filter (· != .interrupted) }

/-- What is left of a script, and of the script without interrupts. -/
structure ScriptedConsole.Uninterrupted (c c' : ScriptedConsole) : Prop where
  events : c'.events = c.events.filter (· != .interrupted)
  keys : c.keys = c'.keys
  recalled : c.recalled = c'.recalled

theorem ScriptedConsole.tail_filter {events : List LineInput}
    (h : events.head? ≠ some .interrupted) :
    (events.filter (· != .interrupted)).head? = events.head? ∧
      (events.filter (· != .interrupted)).tail = events.tail.filter (· != .interrupted) := by
  cases events with
  | nil => exact ⟨rfl, rfl⟩
  | cons input events =>
    have hinput : (input != .interrupted) = true := by simpa using h
    have hkept : (input :: events).filter (· != .interrupted) =
        input :: events.filter (· != .interrupted) := List.filter_cons_of_pos hinput
    rw [hkept]
    exact ⟨rfl, rfl⟩

namespace Dialogue

variable {κ ο : Type}

/-- No signal comes from outside. -/
def Quiet (d : Dialogue κ ο) : Prop := ∀ journal, d.signals journal = false

theorem note_of_quiet {d : Dialogue κ ο} (h : d.Quiet) (e : Event) :
    d.note e = { d with journal := e :: d.journal } := by
  simp only [note, h (e :: d.journal), Bool.false_eq_true, if_false]

theorem Quiet.note {d : Dialogue κ ο} (h : d.Quiet) (e : Event) :
    (d.note e).Quiet ∧ (d.note e).interrupt = d.interrupt := by
  rw [note_of_quiet h]
  exact ⟨h, rfl⟩

/-- What came behind `d` has changed neither the output nor the history, and dispatched no query. -/
structure Unaltered (d d₁ : Dialogue κ ο) : Prop where
  output : d.output = d₁.output
  history : d.history = d₁.history
  dispatched : d.dispatched = d₁.dispatched
  signals : d.signals = d₁.signals

namespace Unaltered

variable {d d₁ d₂ : Dialogue κ ο} {e : Event}

theorem trans (h : Unaltered d d₁) (h' : Unaltered d₁ d₂) : Unaltered d d₂ :=
  ⟨h.output.trans h'.output, h.history.trans h'.history, h.dispatched.trans h'.dispatched,
    h.signals.trans h'.signals⟩

theorem note (he : e.Unbooked) (d : Dialogue κ ο) : Unaltered d (d.note e) := by
  refine ⟨(output_note e d).symm, (history_note e d).symm, (dispatched_note he d).symm, ?_⟩
  rcases note_cases e d with h | h <;> rw [h]

theorem hear (raised : Bool) (d : Dialogue κ ο) : Unaltered d (d.hear raised) := by
  refine ⟨(output_hear raised d).symm, (history_hear raised d).symm, ?_, ?_⟩
  · refine (dispatched_of_adds ((journal_hear raised d).mono fun e he => ?_)).symm
    rw [he]
    trivial
  · rcases hear_cases raised d with h | h | ⟨flag, h⟩ <;> rw [h]
    rfl

end Unaltered

variable {d d' : Dialogue ScriptedConsole ο} {flags : Bool}

/-- The dialogue, and the one with no interrupts in its script. -/
structure Undisturbed (flags : Bool) (d d' : Dialogue ScriptedConsole ο) : Prop where
  console : d.console.Uninterrupted d'.console
  output : d.output = d'.output
  history : d.history = d'.history
  dispatched : d.dispatched = d'.dispatched
  quiet : d.Quiet ∧ d'.Quiet
  lowered : flags = true → d.interrupt.isRaised = false ∧ d'.interrupt.isRaised = false

namespace Undisturbed

theorem loosen (h : Undisturbed flags d d') : Undisturbed false d d' :=
  ⟨h.console, h.output, h.history, h.dispatched, h.quiet, Bool.noConfusion⟩

theorem note (h : Undisturbed flags d d') (e : Event) :
    Undisturbed flags (d.note e) (d'.note e) := by
  rw [note_of_quiet h.quiet.1, note_of_quiet h.quiet.2]
  refine ⟨h.console, h.output, h.history, ?_, h.quiet, h.lowered⟩
  have hnoted {d₁ : Dialogue ScriptedConsole ο} :
      Dialogue.dispatched { d₁ with journal := e :: d₁.journal } =
        d₁.dispatched ++ queriesSolved [e] := dispatched_of_journal (t := [e]) rfl
  rw [hnoted, hnoted, h.dispatched]

/-- Neither reading nor serving interrupts can tell the dialogues apart by more than the console. -/
theorem alter {d₁ d₁' : Dialogue ScriptedConsole ο} (h : Undisturbed flags d d')
    (hd : Unaltered d d₁) (hd' : Unaltered d' d₁')
    (hconsole : d₁.console.Uninterrupted d₁'.console) : Undisturbed false d₁ d₁' := by
  refine ⟨hconsole, ?_, ?_, ?_, ⟨fun journal => ?_, fun journal => ?_⟩, Bool.noConfusion⟩
  · rw [← hd.output, h.output, hd'.output]
  · rw [← hd.history, h.history, hd'.history]
  · rw [← hd.dispatched, h.dispatched, hd'.dispatched]
  · rw [← hd.signals]
    exact h.quiet.1 journal
  · rw [← hd'.signals]
    exact h.quiet.2 journal

theorem weaken (h : Undisturbed true d d') (flags : Bool) : Undisturbed flags d d' :=
  ⟨h.console, h.output, h.history, h.dispatched, h.quiet, fun _ => h.lowered rfl⟩

theorem hear (h : Undisturbed flags d d') (raised raised' : Bool) :
    Undisturbed false (d.hear raised) (d'.hear raised') := by
  refine h.alter (.hear raised d) (.hear raised' d') ?_
  rw [console_hear, console_hear]
  exact h.console

end Undisturbed

section Reads

variable {ο : Type} {d d' : Dialogue ScriptedConsole ο}

theorem exec_readLine (marker : String) (d : Dialogue ScriptedConsole ο) :
    exec (readLine marker) d =
      (.ok (d.console.events.head?.getD .endOfInput), (exec (readLine marker) d).2) := rfl

theorem readLine_unaltered (marker : String) (d : Dialogue ScriptedConsole ο) :
    Unaltered d (exec (readLine marker) d).2 ∧
      (exec (readLine marker) d).2.console = (d.console.readLine marker).2 := by
  have hread : Unaltered d { d with console := (d.console.readLine marker).2 } :=
    ⟨rfl, rfl, rfl, rfl⟩
  refine ⟨hread.trans ((Unaltered.note ?_ _).trans (.hear _ _)), ?_⟩
  · trivial
  · exact (console_hear _ _).trans (console_note _ _)

/-- Only the first dialogue reads an interrupt. -/
theorem Undisturbed.skip (h : Undisturbed false d d')
    (hhead : d.console.events.head? = some .interrupted) (marker : String) :
    Undisturbed false (exec (readLine marker) d).2 d' := by
  obtain ⟨hd, hconsole⟩ := readLine_unaltered marker d
  refine h.alter hd ⟨rfl, rfl, rfl, rfl⟩ ?_
  rw [hconsole]
  refine ⟨?_, h.console.keys, h.console.recalled⟩
  obtain ⟨events, hevents⟩ := List.head?_eq_some_iff.1 hhead
  rw [h.console.events, hevents]
  change _ = (d.console.events.tail).filter _
  rw [hevents]
  rfl

/-- Both read the same line, or the end of the input. -/
theorem Undisturbed.readLine (h : Undisturbed false d d')
    (hhead : d.console.events.head? ≠ some .interrupted) (marker : String) :
    d'.console.events.head? = d.console.events.head? ∧
      Undisturbed false (exec (Dialogue.readLine marker) d).2
        (exec (Dialogue.readLine marker) d').2 := by
  obtain ⟨hd, hconsole⟩ := readLine_unaltered marker d
  obtain ⟨hd', hconsole'⟩ := readLine_unaltered marker d'
  obtain ⟨hsame, htail⟩ := ScriptedConsole.tail_filter hhead
  refine ⟨by rw [h.console.events, hsame], h.alter hd hd' ?_⟩
  rw [hconsole, hconsole']
  refine ⟨?_, h.console.keys, h.console.recalled⟩
  change d'.console.events.tail = _
  rw [h.console.events, htail]
  rfl

/-- The lines of a query are the same, for what was typed is kept at an interrupt. -/
theorem meets_collectLines {prompt typed : String} {fuel fuel' : Nat}
    (h : Undisturbed false d d') :
    Meets (fun _ => Undisturbed false) (Undisturbed false) (fun _ _ _ => False)
      (exec (collectLines prompt fuel typed) d) (exec (collectLines prompt fuel' typed) d') := by
  induction fuel generalizing fuel' typed d d' with
  | zero => exact .leftShort
  | succ fuel ih =>
    by_cases hhead : d.console.events.head? = some .interrupted
    -- The second dialogue waits, and keeps its fuel.
    · rw [collectLines, exec_bind, exec_readLine, hhead]
      exact ih (h.skip hhead _)
    · cases fuel' with
      | zero => exact .rightShort
      | succ fuel' =>
        obtain ⟨hsame, hnext⟩ :=
          h.readLine hhead (if typed.isEmpty then prompt else continuationMarker)
        rw [collectLines, collectLines, exec_bind, exec_bind, exec_readLine _ d, exec_readLine _ d',
          hsame]
        cases hinput : d.console.events.head? with
        | none => exact .ok hnext
        | some input =>
          cases input with
          | interrupted => exact absurd hinput hhead
          | endOfInput => exact .ok hnext
          | line line =>
            by_cases hline : completesQuery line
            · simp only [Option.getD_some, hline, if_true]
              exact .ok hnext
            · simp only [Option.getD_some, hline]
              exact ih hnext

/-- An interrupt typed at a question ends the display, so that it is served before the next one. -/
theorem undisturbed_readKey :
    Keeps (Undisturbed (ο := ο)) (fun _ _ _ => False) true readKey readKey wantsMore := by
  have hexec (d : Dialogue ScriptedConsole ο) : exec readKey d =
      ((Console.readKey d.console).1.result.mapError Stop.fault,
        ({ d with console := (Console.readKey d.console).2 }.note
          (.readKey (Console.readKey d.console).1.result)).hear
            (Console.readKey d.console).1.raised) := rfl
  refine ⟨fun d d' h => ?_, fun _ _ _ h => h⟩
  have hread : Undisturbed true
      { d with console := { d.console with keys := d'.console.keys.tail } }
      { d' with console := { d'.console with keys := d'.console.keys.tail } } :=
    ⟨⟨h.console.events, rfl, h.console.recalled⟩, h.output, h.history, h.dispatched, h.quiet,
      h.lowered⟩
  rw [hexec, hexec, ScriptedConsole.readKey_eq, ScriptedConsole.readKey_eq, h.console.keys]
  by_cases hkey : d'.console.keys.head? = some ScriptedConsole.interruptKey
  · rw [if_pos hkey, if_pos hkey]
    exact .ok ((hread.note _).hear true true)
  · rw [if_neg hkey, if_neg hkey]
    exact .ok ((hread.note _).weaken _)

end Reads

section Writes

variable {ο : Type} [Output ο] {flags : Bool}

theorem undisturbed_say (text : String) :
    Keeps (Undisturbed (ο := ο)) (fun _ _ _ => False) flags (say text) (say text)
      fun _ => flags := by
  refine coupled_ofCall_same (fun d d' h => ?_) (fun _ _ h => h.loosen) fun _ _ _ h => h
  rw [h.output]
  have hwrite : Undisturbed flags { d with output := (Output.write text d'.output).2 }
      { d' with output := (Output.write text d'.output).2 } :=
    ⟨h.console, rfl, h.history, h.dispatched, h.quiet, h.lowered⟩
  exact ⟨rfl, hwrite.note _⟩

theorem undisturbed_flush :
    Keeps (Undisturbed (ο := ο)) (fun _ _ _ => False) flags flush flush fun _ => flags := by
  refine coupled_ofCall_same (fun d d' h => ?_) (fun _ _ h => h.loosen) fun _ _ _ h => h
  rw [h.output]
  have hflush : Undisturbed flags { d with output := (Output.flush d'.output).2 }
      { d' with output := (Output.flush d'.output).2 } :=
    ⟨h.console, rfl, h.history, h.dispatched, h.quiet, h.lowered⟩
  exact ⟨rfl, hflush.note _⟩

omit [Output ο] in
theorem undisturbed_record (query : String) :
    Keeps (Undisturbed (ο := ο)) (fun _ _ _ => False) flags (record query) (record query)
      fun _ => flags := by
  unfold record
  cases History.entryOf query with
  | none => exact coupled_pure _ fun _ _ h => h
  | some entry =>
    refine coupled_ofCall_same (fun d d' h => ?_) (fun _ _ h => h.loosen) fun _ _ _ h => h
    have hkept : Undisturbed flags
        { d with console := d.console.remember entry, history := d.history.add entry }
        { d' with console := d'.console.remember entry, history := d'.history.add entry } :=
      ⟨⟨h.console.events, h.console.keys, congrArg (· ++ [entry]) h.console.recalled⟩, h.output,
        congrArg (History.add entry) h.history, h.dispatched, h.quiet, h.lowered⟩
    exact ⟨rfl, hkept.note _⟩

/-- Interrupts in the script keep sessions in step, up to the flag. -/
theorem undisturbed_pairing {ε τ : Type} [Engine ε τ] {alike : ε → ε → Prop}
    (hengine : Engine.Respects alike) :
    Pairing alike (Undisturbed (ο := ο)) fun _ _ _ => False where
  engine := hengine
  loosen _ _ _ h := h.loosen
  pending h := by rw [(h.lowered rfl).1, (h.lowered rfl).2]
  history h := h.history
  note _ e _ _ h := h.note e
  handedOver h :=
    ⟨h.console, h.output, congrArg (fun history : History => { history with flushed := true })
      h.history, h.dispatched, h.quiet, h.lowered⟩
  say _ := undisturbed_say
  flush _ := undisturbed_flush
  record _ := undisturbed_record
  readKey := undisturbed_readKey
  collectLines _ _ _ :=
    ⟨fun _ _ h => meets_collectLines h.loosen, fun _ _ _ h => h⟩
  endures h _ := h

end Writes

end Dialogue

namespace Session

variable {ε τ κ ο : Type} [Engine ε τ] {alike : ε → ε → Prop}

/-- Serving an interrupt leaves a session as it was, but for the count and the flag. -/
theorem served (hcounts : Engine.OnlyCounts alike) {s : Session ε κ ο}
    (hs : alike s.engine s.engine) (hquiet : s.dialogue.Quiet) :
    ∃ s₁, exec serviceInterrupts s = (.ok (), s₁) ∧
      s.Twin alike (fun d d₁ => d.Unaltered d₁ ∧ d.console = d₁.console ∧
        d₁.interrupt.isRaised = false) s₁ := by
  rw [exec_serviceInterrupts]
  by_cases h : s.dialogue.interrupt.isRaised
  · rw [if_pos h]
    let d : Dialogue κ ο := { s.dialogue with interrupt := ⟨false⟩ }
    have hlowered : s.dialogue.Unaltered d := ⟨rfl, rfl, rfl, rfl⟩
    have hnoted (e e' : Event) (he : e.Unbooked) (he' : e'.Unbooked) :
        s.dialogue.Unaltered ((d.note e).note e') ∧
          s.dialogue.console = ((d.note e).note e').console ∧
          ((d.note e).note e').interrupt.isRaised = false := by
      refine ⟨hlowered.trans ((Dialogue.Unaltered.note he d).trans (.note he' _)), ?_, ?_⟩
      · rw [Dialogue.console_note, Dialogue.console_note]
      · obtain ⟨hnext, hflag⟩ := Dialogue.Quiet.note (d := d) hquiet e
        rw [(hnext.note e').2, hflag]
    obtain ⟨hok, hengine, hstate⟩ := hcounts.interrupt hs s.state
    refine ⟨_, Prod.ext ?_ rfl, hengine, hnoted _ _ trivial trivial, rfl, rfl, hstate.symm, rfl⟩
    change (Engine.interrupt (s.engine, s.state)).1.mapError Stop.fault = .ok ()
    rw [hok]
    rfl
  · rw [if_neg h]
    exact ⟨s, rfl, hs, ⟨⟨rfl, rfl, rfl, rfl⟩, rfl, Bool.eq_false_iff.2 h⟩, rfl, rfl, rfl, rfl⟩

theorem undisturbed_twinning [Output ο] (hcounts : Engine.OnlyCounts alike) :
    Twinning alike (Dialogue.Undisturbed (ο := ο)) fun _ _ _ => False where
  toPairing := Dialogue.undisturbed_pairing hcounts.toRespects
  service := by
    refine ⟨fun s s' hs => ?_, fun _ _ _ h => h⟩
    -- Each session is compared with itself before, for it may be served where the other is not.
    have hself := hcounts.trans hs.engine (hcounts.symm hs.engine)
    have hself' := hcounts.trans (hcounts.symm hs.engine) hs.engine
    obtain ⟨s₁, hrun, h⟩ := served hcounts hself hs.dialogue.quiet.1
    obtain ⟨s₁', hrun', h'⟩ := served hcounts hself' hs.dialogue.quiet.2
    obtain ⟨hd, hconsole, hflag⟩ := h.dialogue
    obtain ⟨hd', hconsole', hflag'⟩ := h'.dialogue
    rw [hrun, hrun']
    refine .ok ⟨?_, ?_, ?_, ?_, ?_, ?_⟩
    · exact hcounts.trans (hcounts.symm h.engine) (hcounts.trans hs.engine h'.engine)
    · have hkin := hs.dialogue.alter hd hd' (hconsole ▸ hconsole' ▸ hs.dialogue.console)
      exact { hkin with lowered := fun _ => ⟨hflag, hflag'⟩ }
    · rw [← h.theme, hs.theme, h'.theme]
    · rw [← h.handler, hs.handler, h'.handler]
    · rw [← h.state, hs.state, h'.state]
    · rw [← h.phase, hs.phase, h'.phase]

/-- The session with no interrupts in its script and its flag down, whichever flag the console
raises. -/
def uninterrupted (otherFlag : Option InterruptFlag) (s : Session ε ScriptedConsole ο) :
    Session ε ScriptedConsole ο :=
  { s with
    dialogue := { s.dialogue with
      console := s.dialogue.console.uninterrupted, interrupt := {}, otherFlag } }

/-- Two runs that end in the same way and differ in the prompts, the flag and the engine's count. -/
structure SameRun (alike : ε → ε → Prop) (run run' : Outcome × Session ε ScriptedConsole ο) :
    Prop where
  ends : run.1 ≠ .unfinished
  outcome : run.1 = run'.1
  phase : run.2.phase = run'.2.phase
  state : run.2.state = run'.2.state
  output : run.2.dialogue.output = run'.2.dialogue.output
  dispatched : run.2.dialogue.dispatched = run'.2.dialogue.dispatched
  history : run.2.dialogue.history = run'.2.dialogue.history
  console : run.2.dialogue.console.Uninterrupted run'.2.dialogue.console
  engine : alike run.2.engine run'.2.engine

theorem sameRun_of_onlyCounts [Output ο] (hcounts : Engine.OnlyCounts alike)
    (s : Session ε ScriptedConsole ο) (hengine : alike s.engine s.engine)
    (hquiet : s.dialogue.Quiet) (otherFlag : Option InterruptFlag) :
    SameRun alike s.run (s.uninterrupted otherFlag).run := by
  have hstart : s.Twin alike (Dialogue.Undisturbed false) (s.uninterrupted otherFlag) :=
    ⟨hengine, ⟨⟨rfl, rfl, rfl⟩, rfl, rfl, rfl, ⟨hquiet, hquiet⟩, Bool.noConfusion⟩, rfl, rfl, rfl,
      rfl⟩
  have htwin := undisturbed_twinning (ο := ο) hcounts
  have hends := run_ends s
  have hends' := run_ends (s.uninterrupted otherFlag)
  rcases htwin.runFor_cases hstart hends hends' with ⟨houtcome, hloop⟩ | ⟨-, -, hbehind⟩
  · rcases htwin.session_close hloop with hclosed | ⟨-, hbehind⟩
    · rw [← runFor_of_finished hends, ← runFor_of_finished hends'] at hclosed
      have hkin := hclosed.dialogue
      exact ⟨hends, houtcome, hclosed.phase, hclosed.state, hkin.output, hkin.dispatched,
        hkin.history, hkin.console, hclosed.engine⟩
    · exact hbehind.elim
  · exact hbehind.elim

end Session

/-- Interrupts typed at the line prompts of a session, and a flag that is up when it starts, change
nothing for an engine that only counts them. The built-in engine does, and so does the scripted one
unless it halts at an interrupt. -/
theorem Session.run_uninterrupted {ο : Type} [Output ο] :
    (∀ (ε τ : Type) [Engine ε τ] (alike : ε → ε → Prop), Engine.OnlyCounts alike →
      ∀ s : Session ε ScriptedConsole ο, alike s.engine s.engine → s.dialogue.Quiet →
        ∀ otherFlag, SameRun alike s.run (s.uninterrupted otherFlag).run) ∧
      (∀ s : Session FactEngine ScriptedConsole ο, s.dialogue.Quiet →
        ∀ otherFlag, SameRun FactEngine.SameFacts s.run (s.uninterrupted otherFlag).run) ∧
      ∀ s : Session ScriptedEngine ScriptedConsole ο, s.engine.haltOnInterrupt = false →
        s.dialogue.Quiet →
        ∀ otherFlag, SameRun ScriptedEngine.SameReplies s.run (s.uninterrupted otherFlag).run :=
  ⟨fun _ _ _ _ hcounts s => sameRun_of_onlyCounts hcounts s,
    fun s => sameRun_of_onlyCounts FactEngine.onlyCounts s ⟨_, rfl⟩,
    fun s hhalt => sameRun_of_onlyCounts ScriptedEngine.onlyCounts s ⟨hhalt, _, rfl⟩⟩

/-- A session with its flag up, that is interrupted between the lines of a query and behind it. -/
def Session.disturbed : Session ScriptedEngine ScriptedConsole Buffer where
  engine := { replies := [.answers ["one", "two"]] }
  dialogue :=
    { console :=
        { events := [.line "p", .interrupted, .interrupted, .line "q.", .interrupted]
          keys := ['y'] }
      output := {}
      interrupt := ⟨true⟩ }

theorem Session.disturbed_sameRun :
    SameRun ScriptedEngine.SameReplies disturbed.run (disturbed.uninterrupted none).run ∧
      disturbed.run.2.engine.queries = ["p\nq.\n"] ∧ disturbed.run.2.engine.interrupts = 2 :=
  ⟨run_uninterrupted.2.2 disturbed rfl (fun _ => rfl) none, by decide +kernel, by decide +kernel⟩

end LogicConsole
