import LogicConsole.Engine.Scripted
import LogicConsole.Proofs.Piping
import Mathlib.Data.List.Forall2

/-! A session fed from a valid text, and the same session with a console that plays a script: the
script is what was taken of the text, each portion as what it was asked for. The two runs cannot be
told apart by what they send, say and remember. -/
namespace LogicConsole

open Operation Text

theorem PipedConsole.eq_feeding {console : PipedConsole} {text : String}
    (h : String.fromUTF8? ⟨console.input.toArray⟩ = some text) : console = feeding text.toList := by
  unfold String.fromUTF8? at h
  split at h
  · obtain rfl := Option.some.inj h
    simp [feeding, Buffer.utf8, String.ofList_toList]
    rfl
  · cases h

/-- The console that plays what is taken of a text when one thing after the other is asked for. -/
def ScriptedConsole.playing (text : List Char) (asked : List Asked) : ScriptedConsole :=
  { events := (portions text asked).filterMap Portion.event?
    keys := (portions text asked).filterMap Portion.key? }

theorem Journal.Akin.queriesSolved {j j' : Journal} (h : Journal.Akin j j') :
    queriesSolved j.reverse = LogicConsole.queriesSolved j'.reverse := by
  induction h with
  | nil => rfl
  | @cons e e' t t' he _ ih =>
    rw [List.reverse_cons, List.reverse_cons, queriesSolved_append, queriesSolved_append, ih]
    cases he <;> rfl

namespace Session

variable {ε τ ο : Type} [Engine ε τ]

/-- The history is handed over and this is noted, or nothing happens. -/
theorem flushHistory_cases {κ : Type} (s : Session ε κ ο) :
    s.flushHistory = s ∨ ∃ engine result, s.flushHistory =
      { s with
        engine
        dialogue := s.dialogue.handedOver.note
          (.persisted s.dialogue.history.entries result) } := by
  cases hflushed : s.dialogue.history.flushed with
  | true => exact .inl (flushHistory_of_flushed hflushed)
  | false => exact .inr ⟨_, _, flushHistory_eq hflushed⟩

theorem silent_flushHistory :
    SessionSilent (ε := ε) (ο := ο) (modify flushHistory) (modify flushHistory) where
  console s := by
    rw [exec_modify]
    rcases flushHistory_cases s with h | ⟨engine, result, h⟩ <;> rw [h]
    exact Dialogue.console_note _ _
  asked s := by
    rw [exec_modify]
    rcases flushHistory_cases s with h | ⟨engine, result, h⟩ <;> rw [h]
    exact (Dialogue.asked_note _ _).trans (List.append_nil _)
  keeps {text asked s s'} h := by
    rw [exec_modify, exec_modify]
    have hhistory := h.dialogue.history
    cases hflushed : s.dialogue.history.flushed with
    | true =>
      rw [flushHistory_of_flushed hflushed, flushHistory_of_flushed (hhistory ▸ hflushed)]
      exact ⟨rfl, h⟩
    | false =>
      have hhanded : Dialogue.Kin text asked s.dialogue.handedOver s'.dialogue.handedOver := by
        rw [Dialogue.handedOver, Dialogue.handedOver, ← hhistory]
        exact h.dialogue.withHistory _
      rw [flushHistory_eq hflushed, flushHistory_eq (hhistory ▸ hflushed), ← hhistory, ← h.engine]
      exact ⟨rfl, rfl, hhanded.mark _, h.theme, h.handler, h.state, h.phase⟩

variable [Output ο]

omit [Engine ε τ] in
theorem silent_resetTheme :
    SessionSilent (ε := ε) (ο := ο) (modify resetTheme) (modify resetTheme) := by
  have hplain {κ : Type} {s : Session ε κ ο} (h : ¬ s.theme.colors.isSome) : s.resetTheme = s :=
    if_neg h
  have hreset (theme : Theme) : SessionSilent (ε := ε) (ο := ο)
      (say theme.reset >>= fun _ => onDialogue Dialogue.flush)
      (say theme.reset >>= fun _ => onDialogue Dialogue.flush) :=
    silent_bind (silent_say _) fun _ => silent_onDialogue Dialogue.silent_flush
  refine ⟨fun s => ?_, fun s => ?_, fun {text asked s s'} h => ?_⟩ <;> rw [exec_modify] <;>
    by_cases hcolors : s.theme.colors.isSome
  · rw [resetTheme_of_colors hcolors]
    exact (hreset s.theme).console s
  · rw [hplain hcolors]
  · rw [resetTheme_of_colors hcolors]
    exact (hreset s.theme).asked s
  · rw [hplain hcolors]
  · rw [exec_modify, resetTheme_of_colors hcolors, resetTheme_of_colors (h.theme ▸ hcolors),
      ← h.theme]
    exact ⟨rfl, ((hreset s.theme).keeps h).2⟩
  · rw [exec_modify, hplain hcolors, hplain (h.theme ▸ hcolors)]
    exact ⟨rfl, h⟩

theorem silent_close : SessionSilent (ε := ε) (ο := ο) (modify close) (modify close) :=
  silent_bind silent_flushHistory fun _ => silent_resetTheme

/-- A run that comes to its end asks for certain portions of its text, and a script that begins with
these has the other session run the same way. -/
theorem runFor_replays {fuel : Nat} {s : Session ε PipedConsole ο} {text : List Char}
    (hs : s.dialogue.Feeds text) (hdone : (s.runFor fuel).1 ≠ .unfinished) : ∃ asked,
    (s.runFor fuel).2.dialogue.journal.asked = s.dialogue.journal.asked ++ asked ∧
      (s.runFor fuel).2.dialogue.console = .feeding (leftover text asked) ∧
      ∀ s', Kin text asked s s' → (s'.runFor fuel).1 = (s.runFor fuel).1 ∧
        Kin (leftover text asked) [] (s.runFor fuel).2 (s'.runFor fuel).2 := by
  obtain ⟨asked, hasked, hfeeds, hkeeps⟩ := replays_phases fuel s text hs
  rw [runFor_of_finished hdone]
  refine ⟨asked, (silent_close.asked _).trans hasked, (silent_close.console _).trans hfeeds.console,
    fun s' hkin => ?_⟩
  obtain ⟨hsame, hend⟩ := hkeeps [] s' (by rwa [List.append_nil])
  have houtcome : (s'.runFor fuel).1 = (s.runFor fuel).1 := by
    rw [runFor_eq, runFor_eq, hsame]
  rw [runFor_of_finished (houtcome ▸ hdone)]
  exact ⟨houtcome, (silent_close.keeps hend).2⟩

omit [Engine ε τ] [Output ο] in
/-- The session with another console. -/
def withConsole {κ κ' : Type} (console : κ') (s : Session ε κ ο) : Session ε κ' ο :=
  { s with dialogue := { s.dialogue with console } }

/-- The session with a console that plays what is taken of the text. -/
def playing (text : List Char) (asked : List Asked) (s : Session ε PipedConsole ο) :
    Session ε ScriptedConsole ο := s.withConsole (.playing text asked)

omit [Engine ε τ] [Output ο] in
theorem kin_playing {s : Session ε PipedConsole ο} (h : s.dialogue.IgnoresLineEnds)
    (text : List Char) (asked : List Asked) : Kin text asked s (s.playing text asked) :=
  ⟨rfl, ⟨rfl, rfl, rfl, rfl, List.forall₂_same.2 fun e _ => .same e, h, rfl, rfl⟩, rfl, rfl, rfl,
    rfl⟩

/-- What a run has taken of its text, asked for one thing after the other, and the run of a console
that plays this. -/
structure PlaysBack (s : Session ε PipedConsole ο) (text : List Char) (asked : List Asked) :
    Prop where
  reads : s.run.2.dialogue.journal.asked = s.dialogue.journal.asked ++ asked
  left : s.run.2.dialogue.console = .feeding (leftover text asked)
  /-- Every line is taken once and in its turn, or is left. -/
  lines : rawLines text =
    (portions text asked).filterMap Portion.raw ++ rawLines (leftover text asked)
  /-- Only when nothing is left does nothing come of asking. -/
  ended : ∃ taken ended, portions text asked = taken ++ ended ∧
    (∀ portion ∈ taken, portion.raw.isSome) ∧ (∀ portion ∈ ended, portion.raw = none) ∧
      (ended ≠ [] → leftover text asked = [])
  outcome : (s.playing text asked).run.1 = s.run.1
  output : (s.playing text asked).run.2.dialogue.output = s.run.2.dialogue.output
  dispatched : (s.playing text asked).run.2.dialogue.dispatched = s.run.2.dialogue.dispatched
  history : (s.playing text asked).run.2.dialogue.history = s.run.2.dialogue.history
  engine : (s.playing text asked).run.2.engine = s.run.2.engine
  /-- The runs read lines and keys, and do all else, in the same order. -/
  journal : s.run.2.dialogue.journal.Akin (s.playing text asked).run.2.dialogue.journal
  spent : (s.playing text asked).run.2.dialogue.console.events = [] ∧
    (s.playing text asked).run.2.dialogue.console.keys = []

/-- A session whose piped input is valid, and without backspaces and interrupts, runs as it would
with a console that plays the lines of the input: those asked for as lines whole, those asked for as
keys by their first character. -/
theorem run_plays_back {s : Session ε PipedConsole ο} {text : String}
    (hvalid : String.fromUTF8? ⟨s.dialogue.console.input.toArray⟩ = some text)
    (hbackspace : backspace ∉ text.toList)
    (hinterrupt : ScriptedConsole.interruptKey ∉ text.toList)
    (hsignals : s.dialogue.IgnoresLineEnds) :
    s.run.1 ≠ .unfinished ∧ ∃ asked, s.PlaysBack text.toList asked := by
  have hends := run_ends s
  obtain ⟨asked, hreads, hleft, hkeeps⟩ := runFor_replays
    ⟨PipedConsole.eq_feeding hvalid, hbackspace, hinterrupt⟩ hends
  obtain ⟨hsame, hkin⟩ := hkeeps _ (kin_playing hsignals text.toList asked)
  -- The script may allow the run less than the text does.
  have hrun : (s.playing text.toList asked).runFor (FiniteConsole.supply s.dialogue.console + 2) =
      (s.playing text.toList asked).run :=
    runFor_eq_of_finished (fun h => hends (hsame.symm.trans h)) (run_ends _)
  rw [hrun] at hsame hkin
  exact ⟨hends, asked,
    { reads := hreads
      left := hleft
      lines := rawLines_eq_portions text.toList asked
      ended := portions_cases text.toList asked
      outcome := hsame
      output := hkin.dialogue.output.symm
      dispatched := hkin.dialogue.journal.queriesSolved.symm
      history := hkin.dialogue.history.symm
      engine := hkin.engine.symm
      journal := hkin.dialogue.journal
      spent := ⟨hkin.dialogue.events, hkin.dialogue.keys⟩ }⟩

def talk : String := "p.\ny\nq\n.\n;\n\r\nr.\n"

/-- Two queries with several answers, of which the second one is declined with a blank line, and a
last query. -/
def talkative : Session ScriptedEngine PipedConsole Buffer :=
  { engine := { replies := [.answers ["a", "b"], .answers ["c", "d", "e"]] }
    dialogue := { console := ⟨Buffer.utf8 talk⟩, output := {} } }

theorem talkative_plays_back :
    String.fromUTF8? ⟨talkative.dialogue.console.input.toArray⟩ = some talk ∧
      backspace ∉ talk.toList ∧ ScriptedConsole.interruptKey ∉ talk.toList ∧
      talkative.dialogue.IgnoresLineEnds ∧ talkative.run.1 ≠ .unfinished ∧
      talkative.PlaysBack talk.toList [.line, .key, .line, .line, .key, .key, .line, .line] ∧
      ScriptedConsole.playing talk.toList [.line, .key, .line, .line, .key, .key, .line, .line] =
        { events := [.line "p.", .line "q", .line ".", .line "r.", .endOfInput]
          keys := ['y', ';', '\n'] } := by
  have hvalid := PipedConsole.fromUTF8?_utf8 talk
  have hbackspace : backspace ∉ talk.toList := by decide +kernel
  have hinterrupt : ScriptedConsole.interruptKey ∉ talk.toList := by decide +kernel
  have hsignals : talkative.dialogue.IgnoresLineEnds := fun _ _ _ => rfl
  obtain ⟨hends, asked, hplays⟩ := run_plays_back hvalid hbackspace hinterrupt hsignals
  have hreads : talkative.run.2.dialogue.journal.asked =
      [.line, .key, .line, .line, .key, .key, .line, .line] := by decide +kernel
  obtain rfl : asked = [.line, .key, .line, .line, .key, .key, .line, .line] :=
    hplays.reads.symm.trans hreads
  exact ⟨hvalid, hbackspace, hinterrupt, hsignals, hends, hplays, by decide +kernel⟩

end Session

end LogicConsole
