import LogicConsole.Proofs.Ledger
import LogicConsole.Proofs.Twins
/-! A session whose output takes only so many bytes is the same session cut short: until the write
that does not fit, the two are in step, and at that write the run ends. -/
namespace LogicConsole

open Operation Relation

/-- One call of a console. -/
inductive Console.Move {κ : Type} [Console κ] : κ → κ → Prop
  | readLine (marker : String) (c : κ) : Move c (Console.readLine marker c).2
  | readKey (c : κ) : Move c (Console.readKey c).2
  | remember (entry : String) (c : κ) : Move c (Console.remember entry c).2

/-- A script played on: more prompts and entries, fewer lines and keys left. -/
structure ScriptedConsole.PlayedOn (c c' : ScriptedConsole) : Prop where
  prompts : c.prompts <+: c'.prompts
  events : c'.events <:+ c.events
  keys : c'.keys <:+ c.keys
  recalled : c.recalled <+: c'.recalled

namespace ScriptedConsole.PlayedOn

variable {c c' c'' : ScriptedConsole}

theorem refl (c : ScriptedConsole) : PlayedOn c c :=
  ⟨List.prefix_refl _, List.suffix_refl _, List.suffix_refl _, List.prefix_refl _⟩

theorem trans (h : PlayedOn c c') (h' : PlayedOn c' c'') : PlayedOn c c'' :=
  ⟨h.prompts.trans h'.prompts, h'.events.trans h.events, h'.keys.trans h.keys,
    h.recalled.trans h'.recalled⟩

theorem of_move (h : Console.Move c c') : PlayedOn c c' := by
  cases h with
  | readLine marker =>
    exact ⟨List.prefix_append _ _, List.tail_suffix _, List.suffix_refl _, List.prefix_refl _⟩
  | readKey =>
    have hkey : (Console.readKey c).2 = { c with keys := c.keys.tail } := by
      rw [readKey_eq]
      split <;> rfl
    rw [hkey]
    exact ⟨List.prefix_refl _, List.suffix_refl _, List.tail_suffix _, List.prefix_refl _⟩
  | remember entry =>
    exact ⟨List.prefix_refl _, List.suffix_refl _, List.suffix_refl _, List.prefix_append _ _⟩

theorem of_unreliable_move {u u' : Unreliable ScriptedConsole} (h : Console.Move u u') :
    PlayedOn u.console u'.console := by
  cases h with
  | readLine marker =>
    simp only [Console.readLine]
    split
    · exact refl _
    · exact of_move (.readLine marker u.console)
  | readKey =>
    simp only [Console.readKey]
    split
    · exact refl _
    · exact of_move (.readKey u.console)
  | remember entry => exact of_move (.remember entry u.console)

theorem of_unreliable_moves {u u' : Unreliable ScriptedConsole}
    (h : ReflTransGen Console.Move u u') : PlayedOn u.console u'.console := by
  induction h with
  | refl => exact refl _
  | tail _ hmove ih => exact ih.trans (of_unreliable_move hmove)

end ScriptedConsole.PlayedOn

namespace Buffer

def sinkFull : SessionError := .io (.other "sink full")

def limited (n : Nat) (b : Buffer) : Buffer := { b with limit := some n }

variable {n : Nat} {b : Buffer} {text : String}

theorem write_limited_of_fits (h : (utf8 text).length ≤ n - b.stored.length) :
    Output.write text (b.limited n) = (.ok (), (b.store (utf8 text)).limited n) := by
  have hfit : (b.limited n).fitting text = utf8 text := List.take_of_length_le h
  simp only [Output.write, write, hfit, if_true]
  rfl

theorem write_limited_of_not_fits (h : n - b.stored.length < (utf8 text).length) :
    Output.write text (b.limited n) =
      (.error sinkFull, (b.store ((utf8 text).take (n - b.stored.length))).limited n) := by
  have hfit : (b.limited n).fitting text = (utf8 text).take (n - b.stored.length) := rfl
  have hne : (utf8 text).take (n - b.stored.length) ≠ utf8 text := by
    intro heq
    have := congrArg List.length heq
    rw [List.length_take] at this
    omega
  simp only [Output.write, write, hfit, if_neg hne]
  rfl

theorem write_unlimited (h : b.limit = none) (text : String) :
    Output.write text b = (.ok (), b.store (utf8 text)) := by
  have hfit : b.fitting text = utf8 text := by simp only [fitting, h]
  simp only [Output.write, write, hfit, if_true]
  rfl

/-- Behind what is stored, as much as fits is stored. -/
theorem bytes_write_limited (h : b.stored.length ≤ n) (text : String) :
    (Output.write text (b.limited n)).2.bytes = (b.bytes ++ utf8 text).take n := by
  have hlength : b.bytes.length = b.stored.length := List.length_reverse
  have hwhole : b.bytes.take n = b.bytes := List.take_of_length_le (by omega)
  rw [List.take_append, hwhole, hlength]
  exact bytes_write text (b.limited n)

end Buffer

namespace Dialogue

variable {κ : Type}

def limited (n : Nat) (d : Dialogue κ Buffer) : Dialogue κ Buffer :=
  { d with output := d.output.limited n }

/-- The dialogue is the other one with a limit that has not been reached. -/
structure Trimmed (n : Nat) (d d' : Dialogue κ Buffer) : Prop where
  eq : d = d'.limited n
  unlimited : d'.output.limit = none
  fits : d'.output.stored.length ≤ n

/-- The dialogue has got as far as its output permits, and the other one at least as far. -/
structure Shortened [Console κ] (n : Nat) (d d' : Dialogue κ Buffer) : Prop where
  limit : d.output.limit = some n
  unlimited : d'.output.limit = none
  bytes : d.output.bytes = d'.output.bytes.take n
  console : ReflTransGen Console.Move d.console d'.console
  dispatched : d.dispatched <+: d'.dispatched

/-- The dialogue was given more than its output takes. -/
structure CutOff [Console κ] (n : Nat) (error : SessionError) (d d' : Dialogue κ Buffer) : Prop
    extends Shortened n d d' where
  error : error = Buffer.sinkFull
  longer : n < d'.output.bytes.length

variable {n : Nat} {d d' d'' : Dialogue κ Buffer} {error : SessionError}

theorem note_limited (n : Nat) (e : Event) (d : Dialogue κ Buffer) :
    (d.limited n).note e = (d.note e).limited n := by
  by_cases hsignal : d.signals (e :: d.journal) = true <;> simp [note, raise, limited, hsignal]

theorem hear_limited (n : Nat) (raised : Bool) (d : Dialogue κ Buffer) :
    (d.limited n).hear raised = (d.hear raised).limited n := by
  obtain ⟨console, output, interrupt, otherFlag, signals, history, journal⟩ := d
  cases raised <;> cases otherFlag <;> rfl

namespace Trimmed

/-- A change that depends on no output and leaves it alone. -/
theorem map {f : Dialogue κ Buffer → Dialogue κ Buffer} (h : Trimmed n d d')
    (hlimited : ∀ d, f (d.limited n) = (f d).limited n) (hout : ∀ d, (f d).output = d.output) :
    Trimmed n (f d) (f d') := by
  obtain ⟨rfl, hunlimited, hfits⟩ := h
  exact ⟨hlimited d', by rwa [hout], by rwa [hout]⟩

theorem note (h : Trimmed n d d') (e : Event) : Trimmed n (d.note e) (d'.note e) :=
  h.map (note_limited n e) (output_note e)

theorem hear (h : Trimmed n d d') (raised : Bool) : Trimmed n (d.hear raised) (d'.hear raised) :=
  h.map (hear_limited n raised) (output_hear raised)

theorem console (h : Trimmed n d d') : d.console = d'.console := by
  rw [h.eq]
  rfl

end Trimmed

variable [Console κ]

theorem Step.console {ο : Type} [Output ο] {e : Event} {d d' : Dialogue κ ο} (h : Step e d d') :
    ReflTransGen Console.Move d.console d'.console := by
  cases h with
  | lineRead marker =>
    simp only [readLine, exec_ofCall, console_hear, console_note]
    exact .single (.readLine marker d.console)
  | keyRead =>
    simp only [readKey, exec_ofCall, console_hear, console_note]
    exact .single (.readKey d.console)
  | @remembered query entry h =>
    simp only [record, h, exec_ofCall, console_note]
    exact .single (.remember entry d.console)
  | wrote text => simp only [say, exec_ofCall, console_note, ReflTransGen.refl]
  | flushed => simp only [flush, exec_ofCall, console_note, ReflTransGen.refl]
  | _ => simp only [console_note, ReflTransGen.refl]

theorem Moves.console {ο : Type} [Output ο] {d d' : Dialogue κ ο} (h : Moves d d') :
    ReflTransGen Console.Move d.console d'.console := by
  obtain ⟨e, hstep | rfl⟩ := h
  · exact hstep.console
  · rw [console_note]

theorem Moves.output (h : Moves d d') (hd : d.output.limit = none) :
    d'.output.limit = none ∧ ∃ t, d'.output.bytes = d.output.bytes ++ t := by
  obtain ⟨e, hstep | rfl⟩ := h
  · exact hstep.output_accepted Buffer.infallible hd
  · rw [output_note]
    exact ⟨hd, [], (List.append_nil _).symm⟩

theorem Moves.journal (h : Moves d d') : ∃ t, d'.journal = t ++ d.journal := by
  obtain ⟨e, hstep | rfl⟩ := h
  · obtain ⟨t, ht, -⟩ := hstep.journal
    exact ⟨t ++ [e], by simp [ht]⟩
  · obtain ⟨t, ht, -⟩ := journal_note e d
    exact ⟨t ++ [e], by simp [ht]⟩

theorem CutOff.endures (h : CutOff n error d d') (hmove : Moves d' d'') :
    CutOff n error d d'' := by
  obtain ⟨hunlimited, t, ht⟩ := hmove.output h.unlimited
  obtain ⟨u, hu⟩ := hmove.journal
  have hlonger := h.longer
  refine ⟨⟨h.limit, hunlimited, ?_, h.console.trans hmove.console, h.dispatched.trans ?_⟩,
    h.error, ?_⟩
  · rw [h.bytes, ht, List.take_append_of_le_length (Nat.le_of_lt h.longer)]
  · rw [dispatched_of_journal hu]
    exact List.prefix_append _ _
  · rw [ht, List.length_append]
    omega

theorem trims_say (text : String) :
    Coupled (Trimmed n) (say text : Operation (Dialogue κ Buffer) Unit) (say text)
      (fun _ => Trimmed n) (Trimmed n) (CutOff n) := by
  refine ⟨?_, fun _ d d' h => h.endures ⟨_, .inl (.wrote text d')⟩⟩
  rintro - d ⟨rfl, hunlimited, hfits⟩
  have hsay (d : Dialogue κ Buffer) : exec (say text) d =
      ((Output.write text d.output).1.mapError .fault,
        { d with output := (Output.write text d.output).2 }.note
          (.wrote text (Output.write text d.output).1.isOk)) := rfl
  have hwhole := Buffer.write_unlimited hunlimited text
  rw [hsay, hsay]
  by_cases hfit : (Buffer.utf8 text).length ≤ n - d.output.stored.length
  · have hwrite : Output.write text (d.limited n).output = _ := Buffer.write_limited_of_fits hfit
    rw [hwrite, hwhole]
    have hnext : Trimmed n
        { d.limited n with output := (d.output.store (Buffer.utf8 text)).limited n }
        { d with output := d.output.store (Buffer.utf8 text) } := by
      refine ⟨rfl, hunlimited, ?_⟩
      simp only [Buffer.store, List.length_append, List.length_reverse]
      omega
    exact .ok (hnext.note _)
  -- The write that crosses the limit fails on one side and leaves it behind.
  · have hwrite : Output.write text (d.limited n).output = _ :=
      Buffer.write_limited_of_not_fits (Nat.not_le.1 hfit)
    have hbytes := Buffer.bytes_write_limited hfits text
    have hlength : d.output.bytes.length = d.output.stored.length := List.length_reverse
    rw [show Output.write text (d.output.limited n) = _ from hwrite, ← Buffer.bytes_store] at hbytes
    rw [hwrite, hwhole]
    refine .behind ⟨⟨?_, ?_, ?_, ?_, ?_⟩, rfl, ?_⟩
    · rw [output_note]
      rfl
    · rw [output_note]
      exact hunlimited
    · rw [output_note, output_note]
      exact hbytes
    · rw [console_note, console_note]
      rfl
    · have hquiet (accepted : Bool) : (Event.wrote text accepted).Unbooked := trivial
      rw [dispatched_note (hquiet _), dispatched_note (hquiet _)]
      exact List.prefix_refl _
    · rw [output_note, Buffer.bytes_store, List.length_append]
      omega

/-- What leaves the output alone, and depends on nothing in it. -/
theorem trims_blind {α : Type} {call : Call (Dialogue κ Buffer) α}
    (hsame : ∀ d d', Trimmed n d d' → (call d).1 = (call d').1 ∧ Trimmed n (call d).2 (call d').2)
    (hmove : ∀ d : Dialogue κ Buffer, Moves d (call d).2) :
    Coupled (Trimmed n) (ofCall call) (ofCall call) (fun _ => Trimmed n) (Trimmed n) (CutOff n) :=
  coupled_ofCall_same hsame (fun _ _ hd => hd) fun _ _ d' hd => hd.endures (hmove d')

theorem trims_readLine (marker : String) :
    Coupled (Trimmed n) (readLine marker : Operation (Dialogue κ Buffer) LineInput)
      (readLine marker) (fun _ => Trimmed n) (Trimmed n) (CutOff n) := by
  refine trims_blind (fun d d' hd => ?_) fun d => ⟨_, .inl (.lineRead marker d)⟩
  rw [hd.console]
  have hread := hd.map (f := fun d =>
    { d with console := (Console.readLine marker d'.console).2 }) (fun _ => rfl) fun _ => rfl
  exact ⟨rfl, (hread.note _).hear _⟩

theorem trims_readKey :
    Coupled (Trimmed n) (readKey : Operation (Dialogue κ Buffer) (Option Char)) readKey
      (fun _ => Trimmed n) (Trimmed n) (CutOff n) := by
  refine trims_blind (fun d d' hd => ?_) fun d => ⟨_, .inl (.keyRead d)⟩
  rw [hd.console]
  have hread := hd.map (f := fun d => { d with console := (Console.readKey d'.console).2 })
    (fun _ => rfl) fun _ => rfl
  exact ⟨rfl, (hread.note _).hear _⟩

theorem trims_record (query : String) :
    Coupled (Trimmed n) (record query : Operation (Dialogue κ Buffer) Unit) (record query)
      (fun _ => Trimmed n) (Trimmed n) (CutOff n) := by
  unfold record
  cases hentry : History.entryOf query with
  | none => exact coupled_pure _ fun _ _ hd => hd
  | some entry =>
    refine trims_blind (fun d d' hd => ?_) fun d => ?_
    · rw [hd.console]
      have hkept := hd.map (f := fun d =>
        { d with console := (Console.remember entry d'.console).2, history := d.history.add entry })
        (fun _ => rfl) fun _ => rfl
      exact ⟨rfl, hkept.note _⟩
    · have hstep := Step.remembered hentry d
      simp only [record, hentry] at hstep
      exact ⟨_, .inl hstep⟩

theorem trims_flush :
    Coupled (Trimmed n) (flush : Operation (Dialogue κ Buffer) Unit) flush
      (fun _ => Trimmed n) (Trimmed n) (CutOff n) :=
  trims_blind (fun _ _ hd => ⟨rfl, hd.note _⟩) fun d => ⟨_, .inl (.flushed d)⟩

theorem trims_takeInterrupt :
    Coupled (Trimmed n) (takeInterrupt : Operation (Dialogue κ Buffer) Bool) takeInterrupt
      (fun _ => Trimmed n) (Trimmed n) (CutOff n) := by
  refine ⟨fun d d' hd => ?_, endures_of_within (fun _ _ _ _ hd => hd.endures)
    (within_takeInterrupt.mono fun _ _ => IdleStep.any)⟩
  have htaken := hd.map (f := fun d => { d with interrupt := ⟨false⟩ }) (fun _ => rfl)
    fun _ => rfl
  have hraised : d.interrupt = d'.interrupt := by
    rw [hd.eq]
    rfl
  rw [exec_takeInterrupt, exec_takeInterrupt, hraised]
  by_cases h : d'.interrupt.isRaised
  · rw [if_pos h, if_pos h]
    exact .ok (htaken.note _)
  · rw [if_neg h, if_neg h]
    exact .ok hd

/-- A limit on the output keeps sessions in step, whatever the console and the engine do. -/
theorem trimmed_twinning {ε τ : Type} [Engine ε τ] (n : Nat) :
    Twinning (ε := ε) Eq (fun _ => Trimmed (κ := κ) n) (CutOff n) := by
  have hpairing : Pairing (ε := ε) Eq (fun _ => Trimmed (κ := κ) n) (CutOff n) :=
    { engine := Engine.respects_eq
      loosen := fun _ _ _ hd => hd
      pending := fun hd => by rw [hd.eq]; rfl
      history := fun hd => by rw [hd.eq]; rfl
      note := fun _ e _ _ hd => hd.note e
      handedOver := fun hd => hd.map (fun _ => rfl) fun _ => rfl
      say := fun _ => trims_say
      flush := fun _ => trims_flush
      record := fun _ => trims_record
      readKey := trims_readKey
      collectLines := fun prompt fuel fuel' =>
        coupled_collectLines (fun _ _ _ _ hd => hd.endures) trims_readLine prompt fuel fuel' ""
      endures := fun hd => hd.endures }
  refine hpairing.twinning ?_ trims_takeInterrupt
  rintro ⟨e, state⟩ ⟨-, -⟩ ⟨rfl, rfl⟩
  exact ⟨rfl, rfl, rfl⟩

theorem Trimmed.shortened (h : Trimmed n d d') :
    Shortened n d d' ∧ d'.output.bytes.length ≤ n := by
  obtain ⟨rfl, hunlimited, hfits⟩ := h
  have hlength : d'.output.bytes.length ≤ n := by
    unfold Buffer.bytes
    rwa [List.length_reverse]
  refine ⟨⟨rfl, hunlimited, ?_, .refl, List.prefix_refl _⟩, hlength⟩
  exact (List.take_of_length_le hlength).symm

end Dialogue

namespace Session

variable {ε τ κ : Type} {n : Nat} {s s' : Session ε κ Buffer}

/-- Resetting the theme writes no more than the reset sequence, which may be empty. -/
theorem resetTheme_output (s : Session ε κ Buffer) :
    s.resetTheme.dialogue.output = (Output.write s.theme.reset s.dialogue.output).2 := by
  cases hcolors : s.theme.colors with
  | none =>
    have hreset : s.theme.reset = "" := by simp only [Theme.reset, hcolors]
    have hplain : s.resetTheme = s := by simp [resetTheme, hcolors]
    have hnone : s.dialogue.output.fitting "" = [] := by
      unfold Buffer.fitting
      split
      · rfl
      · exact List.take_nil
    rw [hplain, hreset]
    change _ = s.dialogue.output.store (s.dialogue.output.fitting "")
    rw [hnone]
    rfl
  | some colors =>
    have hsay : (exec (say s.theme.reset) s).2.dialogue.output =
        (Output.write s.theme.reset s.dialogue.output).2 := Dialogue.output_note _ _
    rw [resetTheme_of_colors (by rw [hcolors]; rfl), exec_bind]
    cases hrun : exec (say s.theme.reset) s with
    | mk r s₁ =>
      rw [hrun] at hsay
      cases r with
      | ok a => exact (Dialogue.output_note _ _).trans hsay
      | error stop => exact hsay

theorem resetTheme_console {ο : Type} [Output ο] (s : Session ε κ ο) :
    s.resetTheme.dialogue.console = s.dialogue.console := by
  have hsay : (exec (say s.theme.reset) s).2.dialogue.console = s.dialogue.console :=
    Dialogue.console_note _ _
  rcases resetTheme_cases s with h | h | h <;> rw [h]
  · exact hsay
  · exact (Dialogue.console_note _ _).trans hsay

section Closing

variable [Engine ε τ]

theorem close_output (s : Session ε κ Buffer) :
    s.close.dialogue.output = (Output.write s.theme.reset s.dialogue.output).2 := by
  obtain ⟨htheme, hout⟩ := flushHistory_frame s
  rw [close, resetTheme_output, htheme, hout]

theorem close_console {ο : Type} [Output ο] (s : Session ε κ ο) :
    s.close.dialogue.console = s.dialogue.console := by
  rw [close, resetTheme_console]
  unfold flushHistory
  split
  · rfl
  · exact Dialogue.console_note _ _

variable [Console κ]

theorem close_dispatched {ο : Type} [Output ο] (s : Session ε κ ο) :
    s.close.dialogue.dispatched = s.dialogue.dispatched := by
  refine Dialogue.dispatched_of_adds ((close_journal s).mono fun e he => ?_)
  cases e <;> first | trivial | exact he.elim id id

/-- The reset of the theme goes where there is room for it. -/
theorem close_shortened (h : s.dialogue.Shortened n s'.dialogue) (htheme : s.theme = s'.theme) :
    s.close.dialogue.Shortened n s'.close.dialogue ∧
      s'.close.dialogue.output.bytes = s'.dialogue.output.bytes ++ Buffer.utf8 s'.theme.reset := by
  have hlimited : s.dialogue.output = s.dialogue.output.limited n := by
    rw [Buffer.limited, ← h.limit]
  have hfits : s.dialogue.output.stored.length ≤ n := by
    have hlength := congrArg List.length h.bytes
    rw [Buffer.bytes, List.length_reverse, List.length_take] at hlength
    omega
  have hwhole : s'.close.dialogue.output.bytes =
      s'.dialogue.output.bytes ++ Buffer.utf8 s'.theme.reset := by
    rw [close_output, Buffer.write_unlimited h.unlimited, Buffer.bytes_store]
  refine ⟨⟨?_, ?_, ?_, ?_, ?_⟩, hwhole⟩
  · rw [close_output, hlimited]
    rfl
  · rw [close_output, Buffer.write_unlimited h.unlimited]
    exact h.unlimited
  · rw [hwhole, close_output, hlimited, Buffer.bytes_write_limited hfits, h.bytes, htheme,
      List.take_append, List.take_append, List.take_take, List.length_take, Nat.min_self]
    congr 2
    omega
  · rw [close_console, close_console]
    exact h.console
  · rw [close_dispatched, close_dispatched]
    exact h.dispatched

end Closing

theorem moves_of_steps {ο : Type} [Engine ε τ] [Console κ] [Output ο] {s s' : Session ε κ ο}
    (h : ReflTransGen AnyStep s s') :
    ReflTransGen Console.Move s.dialogue.console s'.dialogue.console := by
  induction h with
  | refl => exact .refl
  | tail _ hstep ih =>
    obtain ⟨e, hstep⟩ := hstep
    exact ih.trans (Dialogue.Moves.console ⟨e, hstep.dialogue_cases.imp id And.left⟩)

/-- The session on an output of its own. -/
def onto (output : Buffer) (s : Session ε κ Buffer) : Session ε κ Buffer :=
  { s with dialogue := { s.dialogue with output } }

variable [Engine ε τ]

/-- A run on an output that takes `n` bytes, beside the run on an unlimited one, which writes `body`
before it resets the theme. -/
structure Truncates (s : Session ε (Unreliable ScriptedConsole) Buffer) (n : Nat)
    (body : List UInt8) : Prop where
  whole : (s.onto {}).run.2.dialogue.output.bytes = body ++ Buffer.utf8 s.theme.reset
  bytes : (s.onto { limit := some n }).run.2.dialogue.output.bytes =
    (s.onto {}).run.2.dialogue.output.bytes.take n
  outcome : (s.onto { limit := some n }).run.1 =
    if n < body.length then .faulted (.io (.other "sink full")) else (s.onto {}).run.1
  consumed : s.dialogue.console.console.PlayedOn
    (s.onto { limit := some n }).run.2.dialogue.console.console
  behind : (s.onto { limit := some n }).run.2.dialogue.console.console.PlayedOn
    (s.onto {}).run.2.dialogue.console.console
  dispatched : (s.onto { limit := some n }).run.2.dialogue.dispatched <+:
    (s.onto {}).run.2.dialogue.dispatched
  ends (output : Buffer) : (s.onto output).run.1 ≠ .unfinished
  persists (output : Buffer) :
    PersistsOnce (s.onto output) (FiniteConsole.supply s.dialogue.console + 2) []

/-- A limit on the output cuts a run short at the write that crosses it, and nowhere else. -/
theorem run_truncates (s : Session ε (Unreliable ScriptedConsole) Buffer)
    (hnew : s.dialogue.history.flushed = false) (n : Nat) : ∃ body, s.Truncates n body := by
  let fuel := FiniteConsole.supply s.dialogue.console + 2
  let cut := (exec (phases fuel) (s.onto { limit := some n })).2
  let whole := (exec (phases fuel) (s.onto {})).2
  have hends (output : Buffer) : (s.onto output).run.1 ≠ .unfinished := run_ends _
  have hclose (output : Buffer) :
      (s.onto output).run.2 = (exec (phases fuel) (s.onto output)).2.close :=
    runFor_of_finished (hends output)
  have htheme (output : Buffer) : (exec (phases fuel) (s.onto output)).2.theme = s.theme :=
    theme_of_steps (s := s.onto output) (within_phases fuel _)
  have hstart : (s.onto { limit := some n }).Twin Eq (Dialogue.Trimmed n) (s.onto {}) :=
    ⟨rfl, ⟨rfl, rfl, Nat.zero_le n⟩, rfl, rfl, rfl, rfl⟩
  obtain ⟨hshort, houtcome⟩ : cut.dialogue.Shortened n whole.dialogue ∧
      (s.onto { limit := some n }).run.1 = if n < whole.dialogue.output.bytes.length then
        .faulted Buffer.sinkFull else (s.onto {}).run.1 := by
    rcases (Dialogue.trimmed_twinning n).runFor_cases hstart (hends _) (hends _) with
      ⟨hsame, hend⟩ | ⟨error, hfault, hend⟩
    · obtain ⟨hshort, hlength⟩ := hend.dialogue.shortened
      exact ⟨hshort, hsame.trans (if_neg (Nat.not_lt.2 hlength)).symm⟩
    · obtain rfl := hend.error
      exact ⟨hend.toShortened, hfault.trans (if_pos hend.longer).symm⟩
  obtain ⟨hclosed, hbytes⟩ := close_shortened hshort ((htheme _).trans (htheme _).symm)
  have hplayed := moves_of_steps (within_phases fuel (s.onto { limit := some n }))
  refine ⟨whole.dialogue.output.bytes, ?_, ?_, houtcome, ?_, ?_, ?_, hends, fun output => ?_⟩
  · rw [hclose, hbytes, htheme]
  · rw [hclose, hclose]
    exact hclosed.bytes
  · rw [hclose, close_console]
    exact .of_unreliable_moves hplayed
  · rw [hclose, hclose]
    exact .of_unreliable_moves hclosed.console
  · rw [hclose, hclose]
    exact hclosed.dispatched
  · exact persistsOnce [] hnew (hends output)

/-- A session with two answers to show. -/
def answering : Session ScriptedEngine (Unreliable ScriptedConsole) Buffer where
  engine := { replies := [.answers ["one", "two"]] }
  dialogue := { console := { console := { events := [.line "p."], keys := ['y'] } }, output := {} }
  theme := .dark

/-- Its output is cut in the question after the first answer, so that the key is not read. -/
theorem answering_truncates :
    (∃ body, answering.Truncates 140 body) ∧
      (answering.onto { limit := some 140 }).run.1 = .faulted (.io (.other "sink full")) ∧
      (answering.onto { limit := some 140 }).run.2.dialogue.console.console.keys = ['y'] :=
  ⟨run_truncates answering rfl 140, by decide +kernel, by decide +kernel⟩

end Session

end LogicConsole
