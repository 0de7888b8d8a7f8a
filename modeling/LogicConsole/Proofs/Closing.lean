import LogicConsole.Engine.Scripted
import LogicConsole.Proofs.Supply
/-! How runs of a session end. Whatever happens in a run, it closes with the same clean-up: the
history goes to the engine the first time, and the theme is reset. Neither has a say in the
outcome. -/
namespace LogicConsole

open Operation Relation

/-- Only output, and signals meanwhile. -/
def Event.IsOutput : Event → Prop
  | .wrote _ _ | .flushed | .raised => True
  | _ => False

def Outcome.ofLoop : Except Stop SessionEnd → Outcome
  | .ok how => .ended how
  | .error (.fault error) => .faulted error
  | .error .unfinished => .unfinished

/-- The same engine but for what it does with a history. -/
abbrev Engine.withPersist {ε τ : Type} (E : Engine ε τ)
    (persist : List String → ε → Except EngineError Unit × ε) : Engine ε τ := { E with persist }

namespace Dialogue

variable {κ ο : Type} {d d₀ d' : Dialogue κ ο} {e : Event}

/-- What came behind `d₀` was nothing but output. -/
def OnlyOutput (d₀ d : Dialogue κ ο) : Prop :=
  d.history = d₀.history ∧ Journal.Adds Event.IsOutput d₀.journal d.journal

theorem OnlyOutput.refl (d : Dialogue κ ο) : OnlyOutput d d := ⟨rfl, .refl _⟩

variable [Console κ] [Output ο]

theorem OnlyOutput.step (h : OnlyOutput d₀ d) (hstep : Step e d d') (he : e.IsOutput) :
    OnlyOutput d₀ d' := by
  have hidle : e.Idle := by
    cases e <;> trivial
  refine ⟨(hstep.history_of_idle hidle).trans h.1, ?_⟩
  exact h.2.trans (hstep.journal.of_raised he trivial)

variable {accepts : ο → Prop} {received : ο → List UInt8}

/-- An infallible output is given more and more. -/
theorem Step.output_accepted (hsink : Output.Infallible accepts received) (h : Step e d d')
    (hd : accepts d.output) :
    accepts d'.output ∧ ∃ t, received d'.output = received d.output ++ t := by
  have hsame (hout : d'.output = d.output) :
      accepts d'.output ∧ ∃ t, received d'.output = received d.output ++ t := by
    rw [hout]
    exact ⟨hd, [], by simp⟩
  cases h with
  | wrote text =>
    simp only [say, exec_ofCall, output_note]
    exact ⟨(hsink.write hd text).2.1, _, (hsink.write hd text).2.2⟩
  | flushed =>
    simp only [flush, exec_ofCall, output_note]
    exact ⟨(hsink.flush hd).2.1, [], by rw [(hsink.flush hd).2.2, List.append_nil]⟩
  | remembered h => exact hsame (by simp [record, h])
  | _ => exact hsame (by simp [readLine, readKey])

end Dialogue

namespace Session

section History

variable {ε τ κ ο : Type} [Engine ε τ] {s : Session ε κ ο}

theorem flushHistory_of_flushed (h : s.dialogue.history.flushed = true) : s.flushHistory = s := by
  simp only [flushHistory, h, if_true]

theorem flushHistory_of_not_flushed (h : s.dialogue.history.flushed = false) :
    Journal.Adds (· = .raised)
        (.persisted s.dialogue.history.entries
          (Engine.persist s.dialogue.history.entries s.engine).1 :: s.dialogue.journal)
        s.flushHistory.dialogue.journal ∧
      s.flushHistory.dialogue.history = { s.dialogue.history with flushed := true } ∧
      s.flushHistory.engine = (Engine.persist s.dialogue.history.entries s.engine).2 := by
  simp only [flushHistory, h, Bool.false_eq_true, if_false, Dialogue.history_note]
  exact ⟨Dialogue.journal_note _ _, trivial, trivial⟩

theorem flushHistory_frame (s : Session ε κ ο) :
    s.flushHistory.theme = s.theme ∧ s.flushHistory.dialogue.output = s.dialogue.output := by
  unfold flushHistory
  split
  · exact ⟨rfl, rfl⟩
  · exact ⟨rfl, Dialogue.output_note _ _⟩

end History

section Reset

variable {ε κ ο : Type} [Output ο] {s : Session ε κ ο}

theorem resetTheme_of_colors (h : s.theme.colors.isSome) :
    s.resetTheme = (exec (say s.theme.reset >>= fun _ => onDialogue Dialogue.flush) s).2 := by
  unfold resetTheme
  rw [if_pos h]
  rfl

/-- Resetting the theme takes at most a write and a flush, in this order. -/
theorem resetTheme_cases (s : Session ε κ ο) :
    s.resetTheme = s ∨ s.resetTheme = (exec (say s.theme.reset) s).2 ∨
      s.resetTheme = (exec (onDialogue Dialogue.flush) (exec (say s.theme.reset) s).2).2 := by
  by_cases h : s.theme.colors.isSome
  · right
    rw [resetTheme_of_colors h, exec_bind]
    cases exec (say s.theme.reset) s with
    | mk r s₁ =>
      cases r with
      | ok a => exact .inr rfl
      | error stop => exact .inl rfl
  · left
    simp only [resetTheme, if_neg h]

theorem resetTheme_frame [Console κ] (s : Session ε κ ο) :
    s.resetTheme.theme = s.theme ∧ s.resetTheme.engine = s.engine ∧
      Dialogue.OnlyOutput s.dialogue s.resetTheme.dialogue := by
  have hwrote :=
    (Dialogue.OnlyOutput.refl s.dialogue).step (.wrote s.theme.reset s.dialogue) trivial
  rcases resetTheme_cases s with h | h | h <;> rw [h]
  · exact ⟨rfl, rfl, .refl _⟩
  · exact ⟨rfl, rfl, hwrote⟩
  · exact ⟨rfl, rfl, hwrote.step (.flushed _) trivial⟩

theorem resetTheme_accepts {accepts : ο → Prop} {received : ο → List UInt8}
    (hsink : Output.Infallible accepts received) (hs : accepts s.dialogue.output) :
    accepts s.resetTheme.dialogue.output := by
  have hwrote : accepts (exec (say s.theme.reset) s).2.dialogue.output := by
    simp only [say, onDialogue, Dialogue.say, exec_focus, exec_ofCall, Dialogue.output_note]
    exact (hsink.write hs _).2.1
  rcases resetTheme_cases s with h | h | h <;> rw [h]
  · exact hs
  · exact hwrote
  · simp only [onDialogue, Dialogue.flush, exec_focus, exec_ofCall, Dialogue.output_note]
    exact (hsink.flush hwrote).2.1

theorem resetTheme_received {accepts : ο → Prop} {received : ο → List UInt8}
    (hsink : Output.Infallible accepts received) (hs : accepts s.dialogue.output)
    (h : s.theme.colors.isSome) :
    received s.resetTheme.dialogue.output =
      received s.dialogue.output ++ Buffer.utf8 s.theme.reset := by
  obtain ⟨hok, hnext, hbytes⟩ := hsink.write hs s.theme.reset
  rw [resetTheme_of_colors h, exec_bind]
  simp only [say, onDialogue, Dialogue.say, Dialogue.flush, exec_focus, exec_ofCall, hok,
    mapError_ok, Dialogue.output_note]
  rw [(hsink.flush hnext).2.2, hbytes]

end Reset

/-- The clean-up hands the history over and writes, and does nothing else. -/
theorem close_journal {ε τ κ ο : Type} [Engine ε τ] [Console κ] [Output ο] (s : Session ε κ ο) :
    Journal.Adds (fun e => e.Persists ∨ e.IsOutput) s.dialogue.journal
      s.close.dialogue.journal := by
  obtain ⟨-, -, -, hreset⟩ := resetTheme_frame s.flushHistory
  have hflush : Journal.Adds (fun e => e.Persists ∨ e.IsOutput) s.dialogue.journal
      s.flushHistory.dialogue.journal := by
    cases hflushed : s.dialogue.history.flushed with
    | true =>
      rw [flushHistory_of_flushed hflushed]
      exact .refl _
    | false =>
      exact (flushHistory_of_not_flushed hflushed).1.of_raised (.inl trivial) (.inr trivial)
  exact hflush.trans (hreset.mono fun _ he => .inr he)

variable {ε τ κ ο : Type} [E : Engine ε τ] [Console κ] [Output ο] {s : Session ε κ ο} {fuel : Nat}

/-- Consecutive runs, each with an allowance of its own, and the session after the last one. -/
def runsFor : List Nat → Session ε κ ο → List Outcome × Session ε κ ο
  | [], s => ([], s)
  | fuel :: fuels, s =>
    ((s.runFor fuel).1 :: (runsFor fuels (s.runFor fuel).2).1, (runsFor fuels (s.runFor fuel).2).2)

theorem runFor_eq (fuel : Nat) (s : Session ε κ ο) :
    s.runFor fuel = (.ofLoop (exec (phases fuel) s).1,
      if Outcome.ofLoop (exec (phases fuel) s).1 = .unfinished then (exec (phases fuel) s).2
      else (exec (phases fuel) s).2.close) := by
  change (match exec (phases fuel) s with
    | (.ok how, s) => (Outcome.ended how, s.close)
    | (.error (.fault error), s) => (.faulted error, s.close)
    | (.error .unfinished, s) => (.unfinished, s)) = _
  rcases exec (phases fuel) s with ⟨(_ | _) | how, s₁⟩ <;> simp [Outcome.ofLoop]

theorem runFor_of_finished (h : (s.runFor fuel).1 ≠ .unfinished) :
    (s.runFor fuel).2 = (exec (phases fuel) s).2.close := by
  rw [runFor_eq] at h ⊢
  exact if_neg h

theorem runFor_cases (fuel : Nat) (s : Session ε κ ο) :
    (s.runFor fuel).2 = (exec (phases fuel) s).2 ∨
      (s.runFor fuel).2 = (exec (phases fuel) s).2.close := by
  rw [runFor_eq]
  dsimp only
  split
  · exact .inl rfl
  · exact .inr rfl

omit [Console κ] in
theorem close_of_flushed (h : s.dialogue.history.flushed = true) : s.close = s.resetTheme := by
  unfold close
  rw [flushHistory_of_flushed h]

/-- A session that has handed its history over never does so again. -/
theorem runFor_of_flushed (fuel : Nat) (h : s.dialogue.history.flushed = true) :
    (s.runFor fuel).2.dialogue.history.flushed = true ∧
      Journal.Adds (¬ ·.Persists) s.dialogue.journal (s.runFor fuel).2.dialogue.journal := by
  have hflushed : (exec (phases fuel) s).2.dialogue.history.flushed = true :=
    (flushed_of_steps (within_phases fuel s)).trans h
  have hloop := journal_of_steps (within_phases fuel s)
  rcases runFor_cases fuel s with hrun | hrun <;> rw [hrun]
  · exact ⟨hflushed, hloop⟩
  · rw [close_of_flushed hflushed]
    obtain ⟨hhistory, hout⟩ := (resetTheme_frame (exec (phases fuel) s).2).2.2
    refine ⟨by rw [hhistory, hflushed], hloop.trans (hout.mono fun e he => ?_)⟩
    cases e <;> first | exact id | exact he.elim

theorem runsFor_of_flushed (fuels : List Nat) (h : s.dialogue.history.flushed = true) :
    Journal.Adds (¬ ·.Persists) s.dialogue.journal (s.runsFor fuels).2.dialogue.journal := by
  induction fuels generalizing s with
  | nil => exact .refl _
  | cons fuel fuels ih =>
    obtain ⟨hflushed, hrun⟩ := runFor_of_flushed fuel h
    exact hrun.trans (ih hflushed)

theorem serve_withPersist (persist : List String → ε → Except EngineError Unit × ε) (fuel : Nat) :
    @serve ε τ κ ο (E.withPersist persist) _ _ fuel = @serve ε τ κ ο E _ _ fuel := by
  induction fuel with
  | zero => rfl
  | succ fuel ih =>
    unfold serve
    rw [ih]
    rfl

theorem phases_withPersist (persist : List String → ε → Except EngineError Unit × ε) (fuel : Nat) :
    @phases ε τ κ ο (E.withPersist persist) _ _ fuel = @phases ε τ κ ο E _ _ fuel := by
  unfold phases
  rw [serve_withPersist]
  rfl

theorem runFor_withPersist (persist : List String → ε → Except EngineError Unit × ε) (fuel : Nat)
    (h : s.dialogue.history.flushed = true) :
    @runFor ε τ κ ο (E.withPersist persist) _ _ fuel s = s.runFor fuel := by
  have hflushed : (exec (phases fuel) s).2.dialogue.history.flushed = true :=
    (flushed_of_steps (within_phases fuel s)).trans h
  rw [@runFor_eq ε τ κ ο (E.withPersist persist), runFor_eq, phases_withPersist,
    close_of_flushed hflushed, @close_of_flushed ε τ κ ο (E.withPersist persist) _ _ hflushed]

theorem runsFor_withPersist (persist : List String → ε → Except EngineError Unit × ε)
    (fuels : List Nat) (h : s.dialogue.history.flushed = true) :
    @runsFor ε τ κ ο (E.withPersist persist) _ _ fuels s = s.runsFor fuels := by
  induction fuels generalizing s with
  | nil => rfl
  | cons fuel fuels ih =>
    unfold runsFor
    rw [runFor_withPersist persist fuel h, ih (runFor_of_flushed fuel h).1]

section Theme

variable {accepts : ο → Prop} {received : ο → List UInt8}

theorem accepted_of_steps (hsink : Output.Infallible accepts received) {s' : Session ε κ ο}
    (h : ReflTransGen AnyStep s s') (hs : accepts s.dialogue.output) :
    accepts s'.dialogue.output ∧
      ∃ t, received s'.dialogue.output = received s.dialogue.output ++ t := by
  induction h with
  | refl => exact ⟨hs, [], by simp⟩
  | tail _ hstep ih =>
    obtain ⟨hmid, t, ht⟩ := ih
    obtain ⟨e, hstep⟩ := hstep
    rcases hstep.dialogue_cases with h | ⟨h, -⟩
    · obtain ⟨hend, u, hu⟩ := h.output_accepted hsink hmid
      exact ⟨hend, t ++ u, by rw [hu, ht, List.append_assoc]⟩
    · rw [h, Dialogue.output_note]
      exact ⟨hmid, t, ht⟩

/-- Before anything else, a run sets the theme. -/
theorem apply_then_phases (fuel : Nat) (h : s.theme.colors.isSome) :
    ReflTransGen AnyStep (exec (enter .starting >>= fun _ => say s.theme.apply) s).2
      (exec (phases fuel) s).2 := by
  let s₁ := (exec (enter .starting) s).2
  have hstart : exec start s₁ = exec (say s.theme.apply >>= fun _ =>
      onDialogue Dialogue.flush >>= fun _ => greet) s₁ := by
    change exec (if s.theme.colors.isSome then _ else _) s₁ = _
    rw [if_pos h]
    rfl
  have happly : ReflTransGen AnyStep (exec (say s.theme.apply) s₁).2 (exec start s₁).2 := by
    rw [hstart]
    refine steps_bind _ (fun _ => within_any ?_) s₁
    exact within_bind within_flush fun _ => within_greet
  refine happly.trans (steps_bind start (fun _ => ?_) s₁)
  exact within_bind (within_enter _) fun _ => within_serve fuel

theorem phases_received (hsink : Output.Infallible accepts received)
    (hs : accepts s.dialogue.output) (h : s.theme.colors.isSome) (fuel : Nat) :
    accepts (exec (phases fuel) s).2.dialogue.output ∧
      ∃ t, received (exec (phases fuel) s).2.dialogue.output =
        received s.dialogue.output ++ Buffer.utf8 s.theme.apply ++ t := by
  obtain ⟨-, hnext, hbytes⟩ := hsink.write hs s.theme.apply
  have hout : (exec (enter .starting >>= fun _ => say s.theme.apply) s).2.dialogue.output =
      (Output.write s.theme.apply s.dialogue.output).2 := by
    simp only [enter, exec_modify_bind, say, onDialogue, Dialogue.say, exec_focus, exec_ofCall,
      Dialogue.output_note]
  obtain ⟨hend, t, ht⟩ := accepted_of_steps hsink (apply_then_phases fuel h) (hout ▸ hnext)
  exact ⟨hend, t, by rw [ht, hout, hbytes]⟩

theorem runFor_frame (hsink : Output.Infallible accepts received)
    (hs : accepts s.dialogue.output) (fuel : Nat) :
    (s.runFor fuel).2.theme = s.theme ∧ accepts (s.runFor fuel).2.dialogue.output := by
  have htheme := theme_of_steps (within_phases fuel s)
  have hout := (accepted_of_steps hsink (within_phases fuel s) hs).1
  rcases runFor_cases fuel s with hrun | hrun <;> rw [hrun]
  · exact ⟨htheme, hout⟩
  · obtain ⟨hflushTheme, hflushOut⟩ := flushHistory_frame (exec (phases fuel) s).2
    rw [← hflushOut] at hout
    refine ⟨(resetTheme_frame _).1.trans (hflushTheme.trans htheme), ?_⟩
    exact resetTheme_accepts hsink hout

theorem runsFor_frame (hsink : Output.Infallible accepts received)
    (hs : accepts s.dialogue.output) (fuels : List Nat) :
    (s.runsFor fuels).2.theme = s.theme ∧ accepts (s.runsFor fuels).2.dialogue.output := by
  induction fuels generalizing s with
  | nil => exact ⟨rfl, hs⟩
  | cons fuel fuels ih =>
    obtain ⟨htheme, hout⟩ := runFor_frame hsink hs fuel
    exact ⟨(ih hout).1.trans htheme, (ih hout).2⟩

/-- The output of a run that came to its end is framed by the sequences of its theme. -/
theorem runFor_received (hsink : Output.Infallible accepts received)
    (hs : accepts s.dialogue.output) (h : s.theme.colors.isSome)
    (hdone : (s.runFor fuel).1 ≠ .unfinished) :
    ∃ body, received (s.runFor fuel).2.dialogue.output =
      received s.dialogue.output ++ Buffer.utf8 s.theme.apply ++ body ++
        Buffer.utf8 s.theme.reset := by
  obtain ⟨hout, body, hbody⟩ := phases_received hsink hs h fuel
  obtain ⟨hflushTheme, hflushOut⟩ := flushHistory_frame (exec (phases fuel) s).2
  have htheme : (exec (phases fuel) s).2.flushHistory.theme = s.theme :=
    hflushTheme.trans (theme_of_steps (within_phases fuel s))
  refine ⟨body, ?_⟩
  rw [runFor_of_finished hdone, close, resetTheme_received hsink (hflushOut ▸ hout) (htheme ▸ h),
    hflushOut, hbody, htheme]

end Theme

/-- The first of some runs hands the history over at its end, with its loop behind it. The later
ones do not: they are the same whatever would come of it. -/
structure PersistsOnce (s : Session ε κ ο) (fuel : Nat) (fuels : List Nat) : Prop where
  journal : ∃ reset loop later,
    (s.runFor fuel).2.dialogue.journal =
      reset ++ .persisted (s.runFor fuel).2.dialogue.history.entries
        (Engine.persist (s.runFor fuel).2.dialogue.history.entries
          (exec (phases fuel) s).2.engine).1 :: loop ++ s.dialogue.journal ∧
    (s.runsFor (fuel :: fuels)).2.dialogue.journal =
      later ++ (s.runFor fuel).2.dialogue.journal ∧
    (∀ e ∈ reset, e.IsOutput) ∧ ∀ e ∈ loop ++ later, ¬ e.Persists
  engine : (s.runFor fuel).2.engine =
    (Engine.persist (s.runFor fuel).2.dialogue.history.entries (exec (phases fuel) s).2.engine).2
  later (persist : List String → ε → Except EngineError Unit × ε) :
    @runsFor ε τ κ ο (E.withPersist persist) _ _ fuels (s.runFor fuel).2 =
      (s.runFor fuel).2.runsFor fuels

/-- A run reports what came of its loop, whatever came of its clean-up. -/
structure ReportsLoop (s : Session ε κ ο) (fuel : Nat) : Prop where
  outcome : (s.runFor fuel).1 = .ofLoop (exec (phases fuel) s).1
  persist (persist : List String → ε → Except EngineError Unit × ε) :
    (@runFor ε τ κ ο (E.withPersist persist) _ _ fuel s).1 = (s.runFor fuel).1

theorem persistsOnce (fuels : List Nat) (hnew : s.dialogue.history.flushed = false)
    (hdone : (s.runFor fuel).1 ≠ .unfinished) : PersistsOnce s fuel fuels := by
  have hloopNew : (exec (phases fuel) s).2.dialogue.history.flushed = false :=
    (flushed_of_steps (within_phases fuel s)).trans hnew
  obtain ⟨loop, hloop, hquiet⟩ := journal_of_steps (within_phases fuel s)
  obtain ⟨⟨signal, hsignal, hraised⟩, hflushed, hengine⟩ :=
    flushHistory_of_not_flushed hloopNew
  obtain ⟨-, hresetEngine, hresetHistory, reset, hreset, hout⟩ :=
    resetTheme_frame (exec (phases fuel) s).2.flushHistory
  have hrun := runFor_of_finished hdone
  unfold close at hrun
  have hhistory : (s.runFor fuel).2.dialogue.history =
      { (exec (phases fuel) s).2.dialogue.history with flushed := true } := by
    rw [hrun, hresetHistory, hflushed]
  obtain ⟨later, hlater, hnone⟩ := runsFor_of_flushed (s := (s.runFor fuel).2) fuels
    (by rw [hhistory])
  refine ⟨⟨reset ++ signal, loop, later, ?_, hlater, fun e he => ?_, fun e he => ?_⟩, ?_, ?_⟩
  · rw [hhistory, hrun, hreset, hsignal, hloop]
    simp
  · rcases List.mem_append.1 he with he | he
    · exact hout e he
    · rw [hraised e he]
      trivial
  · rcases List.mem_append.1 he with he | he
    · exact hquiet e he
    · exact hnone e he
  · rw [hhistory, hrun, hresetEngine, hengine]
  · exact fun persist => runsFor_withPersist persist fuels (by rw [hhistory])

theorem reportsLoop (s : Session ε κ ο) (fuel : Nat) : ReportsLoop s fuel where
  outcome := by rw [runFor_eq]
  persist persist := by
    rw [@runFor_eq ε τ κ ο (E.withPersist persist), runFor_eq, phases_withPersist]

omit [Console κ] in
/-- With a console that gives finitely much, a run comes to its end. -/
theorem run_ends [FiniteConsole κ] [LawfulConsole κ] (s : Session ε κ ο) :
    s.run.1 ≠ .unfinished := by
  have hends : Ends supply s.supply (phases (s.supply + 2) : Operation (Session ε κ ο) SessionEnd)
      fun _ => 0 := ends_phases (by omega)
  unfold run
  rw [runFor_eq]
  change Outcome.ofLoop (exec (phases (s.supply + 2)) s).1 ≠ .unfinished
  cases hloop : exec (phases (s.supply + 2)) s with
  | mk r s' =>
    cases r with
    | ok how => exact Outcome.noConfusion
    | error stop =>
      have hstop : stop ≠ .unfinished := hends.error (Nat.le_refl s.supply) hloop
      cases stop with
      | fault error => exact Outcome.noConfusion
      | unfinished => exact absurd rfl hstop

/-- Over consecutive runs of a session its history goes to the engine once, at the end of the first
run. Each run reports what came of its loop, sets its theme first and resets it last. -/
theorem runs_close_once (s : Session ε κ ο) (hnew : s.dialogue.history.flushed = false) :
    (∀ fuel fuels, (s.runFor fuel).1 ≠ .unfinished → PersistsOnce s fuel fuels) ∧
      (∀ fuels fuel, ReportsLoop (s.runsFor fuels).2 fuel ∧
        ∀ (accepts : ο → Prop) (received : ο → List UInt8),
          Output.Infallible accepts received → accepts s.dialogue.output → s.theme ≠ .default →
          ((s.runsFor fuels).2.runFor fuel).1 ≠ .unfinished →
          ∃ body, received ((s.runsFor fuels).2.runFor fuel).2.dialogue.output =
            received (s.runsFor fuels).2.dialogue.output ++ Buffer.utf8 s.theme.apply ++ body ++
              Buffer.utf8 s.theme.reset) ∧
      ∀ (κ' : Type) [FiniteConsole κ'] [LawfulConsole κ'] (s' : Session ε κ' ο),
        s'.run.1 ≠ .unfinished := by
  refine ⟨fun fuel fuels hdone => persistsOnce fuels hnew hdone, fun fuels fuel => ?_,
    fun κ' _ _ s' => run_ends s'⟩
  refine ⟨reportsLoop _ fuel, fun accepts received hsink hs htheme hdone => ?_⟩
  have hcolors : s.theme.colors.isSome := by
    cases h : s.theme with
    | default => exact absurd h htheme
    | dark => rfl
    | light => rfl
  obtain ⟨hkept, hout⟩ := runsFor_frame hsink hs fuels
  have hrun := runFor_received hsink hout (hkept ▸ hcolors) hdone
  rwa [hkept] at hrun

/-- A session whose only query makes the engine fail. -/
def failing : Session ScriptedEngine ScriptedConsole Buffer where
  engine := { replies := [.fault "out of memory"] }
  dialogue := { console := { events := [.line "p."] }, output := {} }
  theme := .dark

theorem failing_closes_once :
    failing.run.1 ≠ .unfinished ∧ PersistsOnce failing 3 [3] ∧
      ReportsLoop (failing.runsFor [3]).2 3 ∧
      ∃ body, ((failing.runsFor [3]).2.runFor 3).2.dialogue.output.bytes =
        (failing.runsFor [3]).2.dialogue.output.bytes ++ Buffer.utf8 Theme.dark.apply ++ body ++
          Buffer.utf8 Theme.dark.reset :=
  have hruns := runs_close_once failing rfl
  ⟨hruns.2.2 ScriptedConsole failing, hruns.1 3 [3] (by decide +kernel), (hruns.2.1 [3] 3).1,
    (hruns.2.1 [3] 3).2 _ _ Buffer.infallible rfl (by decide) (by decide +kernel)⟩

end Session

end LogicConsole
