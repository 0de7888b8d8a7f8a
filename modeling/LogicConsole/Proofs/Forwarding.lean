import LogicConsole.Proofs.Pacing
import LogicConsole.Proofs.Replay
/-! What comes of a query that goes to the engine. The engine is asked for its solutions at once,
and they are shown; what it makes of itself and of the session state is what they are at the end. An
entry that is run again is shown and entered first, and then goes the same way. -/
namespace LogicConsole

open Operation Relation

namespace Dialogue

variable {κ ο : Type} [Console κ] [Output ο] {query : String}

theorem dispatched_say (text : String) (d : Dialogue κ ο) :
    (exec (say text) d).2.dispatched = d.dispatched :=
  dispatched_of_adds ((Step.wrote text d).journal.of_raised trivial trivial)

theorem dispatched_record (query : String) (d : Dialogue κ ο) :
    (exec (record query) d).2.dispatched = d.dispatched := by
  cases h : History.entryOf query with
  | none => simp only [record, h, exec_pure]
  | some entry => exact dispatched_of_adds ((Step.remembered h d).journal.of_raised trivial trivial)

omit [Output ο] in
theorem exec_record {entry : String} (h : History.entryOf query = some entry) (d : Dialogue κ ο) :
    exec (record query) d = ((Console.remember entry d.console).1.mapError Stop.fault,
      { d with
        console := (Console.remember entry d.console).2
        history := d.history.add entry }.note (.remembered entry)) := by
  simp only [record, h, exec_ofCall]

end Dialogue

namespace Session

variable {ε τ κ ο : Type} [Engine ε τ] [Console κ] [Output ο] {s s' : Session ε κ ο}
variable {entry query : String} {sent : List String} {n : Nat}

/-- What comes of showing solutions, from `p` on, in a session whose state is `state`. The output
and the console are those the display leaves. An interrupt that ended the display goes to the
engine, and what comes of that comes of the whole. -/
structure Presents (fuel : Nat) (state : SessionState) (p : Paging (ε × τ) κ ο)
    (run : Except Stop Unit × Session ε κ ο) : Prop where
  output : run.2.dialogue.output = (exec (Paging.page fuel) p).2.dialogue.output
  console : run.2.dialogue.console = (exec (Paging.page fuel) p).2.dialogue.console
  stopped {stop : Stop} {p' : Paging (ε × τ) κ ο}
    (h : exec (Paging.page fuel) p = (.error stop, p')) :
    run.1 = .error stop ∧ run.2.engine = p'.solutions.1 ∧ run.2.state = state
  done {summary : PageSummary} {p' : Paging (ε × τ) κ ο}
    (h : exec (Paging.page fuel) p = (.ok summary, p')) (hend : summary.ending ≠ .interrupted) :
    run.1 = .ok () ∧ run.2.engine = p'.solutions.1 ∧ run.2.state = state
  interrupted {summary : PageSummary} {p' : Paging (ε × τ) κ ο}
    {result : Except SessionError Unit} {engine : ε} {state' : SessionState}
    (h : exec (Paging.page fuel) p = (.ok summary, p')) (hend : summary.ending = .interrupted)
    (hcall : Engine.interrupt (p'.solutions.1, state) = (result, engine, state')) :
    run.1 = result.mapError Stop.fault ∧ run.2.engine = engine ∧ run.2.state = state'

/-- What comes of a query that is forwarded. The engine is asked at once for its solutions, in the
session state that has it for its query as it was typed; after that no query is completed and none
is sent. A fault of the engine is the end; solutions are shown. In either case the engine and the
state are what the engine makes of them. -/
structure Forwards (query : String) (fuel : Nat) (s : Session ε κ ο)
    (run : Except Stop Unit × Session ε κ ο) : Prop where
  noted : ∃ later : Journal, run.2.dialogue.journal =
      later ++ .solved query (report Engine.solve (s.pose query)).1
        (report Engine.solve (s.pose query)).2 :: s.dialogue.journal ∧
    ∀ e ∈ later, e.Unbooked
  refused {error : SessionError} {engine : ε} {state : SessionState}
    (h : Engine.solve (s.engine, { s.state with query }) = (.error error, engine, state)) :
    run.1 = .error (.fault error) ∧ run.2.engine = engine ∧ run.2.state = state ∧
      run.2.dialogue.output = s.dialogue.output ∧ run.2.dialogue.console = s.dialogue.console
  answered {solutions : τ} {engine : ε} {state : SessionState}
    (h : Engine.solve (s.engine, { s.state with query }) = (.ok solutions, engine, state)) :
    Presents fuel state
      ⟨(engine, solutions), s.dialogue.note (.solved query (.ok ()) state.halted)⟩ run

theorem Forwards.dispatched {fuel : Nat} {run : Except Stop Unit × Session ε κ ο}
    (h : s.Forwards query fuel run) :
    run.2.dialogue.dispatched = s.dialogue.dispatched ++ [query] := by
  obtain ⟨later, hlater, hunbooked⟩ := h.noted
  have hnone : queriesSolved later.reverse = [] :=
    queriesSolved_of_unbooked fun e he => hunbooked e (List.mem_reverse.1 he)
  rw [List.append_cons] at hlater
  rw [Dialogue.dispatched_of_journal hlater, List.reverse_append, queriesSolved_append, hnone]
  rfl

theorem adds_of_quiet (h : ReflTransGen QuietStep s s') :
    Journal.Adds Event.Unbooked s.dialogue.journal s'.dialogue.journal := by
  induction h with
  | refl => exact .refl _
  | tail _ hlast ih =>
    obtain ⟨e, he, -, hstep⟩ := hlast
    exact ih.trans (hstep.journal.of_raised he trivial)

theorem quiet_present (solutions : τ) (fuel : Nat) :
    Within QuietStep (present solutions fuel : Operation (Session ε κ ο) Unit) := by
  have hpage : Within QuietStep (page solutions fuel : Operation (Session ε κ ο) PageSummary) :=
    (within_page solutions fuel).mono fun _ _ => IdleStep.quiet
  refine within_bind hpage fun summary => ?_
  exact within_ite quiet_serviceInterrupts (within_pure _)

section Present

variable {fuel : Nat} {solutions : τ} {summary : PageSummary} {p : Paging (ε × τ) κ ο}

theorem exec_page_of {result : Except Stop PageSummary}
    (h : exec (Paging.page fuel) ⟨(s.engine, solutions), s.dialogue⟩ = (result, p)) :
    exec (page solutions fuel) s =
      (result, { s with engine := p.solutions.1, dialogue := p.dialogue }) := by
  have hpage : exec (page solutions fuel) s =
      ((exec (Paging.page fuel) ⟨(s.engine, solutions), s.dialogue⟩).1,
        { s with
          engine := (exec (Paging.page fuel) ⟨(s.engine, solutions), s.dialogue⟩).2.solutions.1
          dialogue :=
            (exec (Paging.page fuel) ⟨(s.engine, solutions), s.dialogue⟩).2.dialogue }) := rfl
  rw [hpage, h]

theorem exec_present_of_done
    (h : exec (Paging.page fuel) ⟨(s.engine, solutions), s.dialogue⟩ = (.ok summary, p))
    (hend : summary.ending ≠ .interrupted) :
    exec (present solutions fuel) s =
      (.ok (), { s with engine := p.solutions.1, dialogue := p.dialogue }) := by
  rw [present, exec_bind_of_ok (exec_page_of h), if_neg hend, exec_pure]

/-- The interrupt that ended a display is still pending, so it is taken and delivered. -/
theorem exec_present_of_interrupted {result : Except SessionError Unit} {engine : ε}
    {state : SessionState}
    (h : exec (Paging.page fuel) ⟨(s.engine, solutions), s.dialogue⟩ = (.ok summary, p))
    (hend : summary.ending = .interrupted)
    (hcall : Engine.interrupt (p.solutions.1, s.state) = (result, engine, state)) :
    exec (present solutions fuel) s = (result.mapError Stop.fault,
      { s with
        engine, state
        dialogue := ({ p.dialogue with interrupt := ⟨false⟩ }.note .taken).note
          (.interrupted (result.map fun _ => ()) state.halted) }) := by
  have hup := Paging.up_of_interrupted h hend
  rw [present, exec_bind_of_ok (exec_page_of h), if_pos hend, exec_serviceInterrupts, if_pos hup]
  simp only [drive, exec_ofCall, hcall]

end Present

theorem presents_present (solutions : τ) (fuel : Nat) (s : Session ε κ ο) :
    Presents fuel s.state ⟨(s.engine, solutions), s.dialogue⟩
      (exec (present solutions fuel) s) := by
  cases hshow : exec (Paging.page fuel) (⟨(s.engine, solutions), s.dialogue⟩ :
    Paging (ε × τ) κ ο) with
  | mk result p =>
    cases result with
    | error stop =>
      rw [present, exec_bind_of_error (exec_page_of hshow)]
      refine ⟨by rw [hshow], by rw [hshow], fun h => ?_, fun h => ?_, fun h => ?_⟩ <;>
        cases hshow.symm.trans h
      exact ⟨rfl, rfl, rfl⟩
    | ok summary =>
      by_cases hend : summary.ending = .interrupted
      · cases hcall : Engine.interrupt (p.solutions.1, s.state) with
        | mk result after =>
          rw [exec_present_of_interrupted hshow hend hcall]
          refine ⟨?_, ?_, fun h => ?_, fun h hother => ?_, fun h _ hcalled => ?_⟩
          · rw [hshow, Dialogue.output_note, Dialogue.output_note]
          · rw [hshow, Dialogue.console_note, Dialogue.console_note]
          · cases hshow.symm.trans h
          · cases hshow.symm.trans h
            exact absurd hend hother
          · cases hshow.symm.trans h
            cases hcall.symm.trans hcalled
            exact ⟨rfl, rfl, rfl⟩
      · rw [exec_present_of_done hshow hend]
        refine ⟨by rw [hshow], by rw [hshow], fun h => ?_, fun h _ => ?_, fun h hother => ?_⟩ <;>
          cases hshow.symm.trans h
        · exact ⟨rfl, rfl, rfl⟩
        · exact absurd hother hend

omit [Console κ] [Output ο] in
theorem exec_send {result : Except SessionError τ} {engine : ε} {state : SessionState}
    (h : Engine.solve (s.engine, { s.state with query }) = (result, engine, state)) :
    exec (send query) s = (result.mapError Stop.fault,
      { s with
        engine, state
        dialogue := s.dialogue.note (.solved query (result.map fun _ => ()) state.halted) }) := by
  simp only [send, exec_modify_bind, drive, exec_ofCall, pose, h]

theorem forwards_dispatch (query : String) (fuel : Nat) (s : Session ε κ ο) :
    s.Forwards query fuel (exec (dispatch query fuel) s) where
  noted := by
    obtain ⟨u, hsend, hraised⟩ := (Step.solved query s).journal
    have hpresent :
        ReflTransGen QuietStep (exec (send query) s).2 (exec (dispatch query fuel) s).2 :=
      steps_bind (send query) (fun solutions => quiet_present solutions fuel) s
    obtain ⟨t, hlater, hunbooked⟩ := adds_of_quiet hpresent
    refine ⟨t ++ u, ?_, fun e he => ?_⟩
    · rw [hlater, List.append_assoc, ← hsend]
      rfl
    · rcases List.mem_append.1 he with he | he
      · exact hunbooked e he
      · rw [hraised e he]
        trivial
  refused h := by
    rw [dispatch_eq, exec_bind, exec_send h]
    exact ⟨rfl, rfl, rfl, Dialogue.output_note _ _, Dialogue.console_note _ _⟩
  answered {solutions engine state} h := by
    rw [dispatch_eq, exec_bind, exec_send h]
    exact presents_present solutions fuel
      { s with
        engine, state
        dialogue := s.dialogue.note (.solved query (.ok ()) state.halted) }

/-- These queries have been sent to the engine. -/
def Sent (queries : List String) (s : Session ε κ ο) : Prop := s.dialogue.dispatched = queries

/-- An entry is shown and entered again, and then goes to the engine. -/
def sendAgain (entry : String) (fuel : Nat) : Operation (Session ε κ ο) Unit := do
  say (entry ++ "\n")
  onDialogue (Dialogue.record entry)
  dispatch (entry ++ "\n") fuel

/-- What comes of sending an entry again. Where the output does not take it, or the console does not
keep it, that is the end, and the engine and its state stay as they are. Otherwise it is forwarded
from a session that has shown it and entered it, as a query that was typed is. -/
inductive SendsAgain (entry : String) (fuel : Nat) (s : Session ε κ ο) :
    Except Stop Unit × Session ε κ ο → Prop
  | unsaid {error : SessionError} {run : Except Stop Unit × Session ε κ ο}
    (h : (Output.write (entry ++ "\n") s.dialogue.output).1 = .error error)
    (hresult : run.1 = .error (.fault error)) (hengine : run.2.engine = s.engine)
    (hstate : run.2.state = s.state) : SendsAgain entry fuel s run
  | unkept {kept : String} {error : SessionError} {run : Except Stop Unit × Session ε κ ο}
    (hentry : History.entryOf entry = some kept)
    (h : (Console.remember kept s.dialogue.console).1 = .error error)
    (hresult : run.1 = .error (.fault error)) (hengine : run.2.engine = s.engine)
    (hstate : run.2.state = s.state) : SendsAgain entry fuel s run
  | forwarded {s₁ : Session ε κ ο} {run : Except Stop Unit × Session ε κ ο}
    (h : s₁.Forwards (entry ++ "\n") fuel run)
    (hsaid : Output.write (entry ++ "\n") s.dialogue.output = (.ok (), s₁.dialogue.output))
    (hhistory : s₁.dialogue.history = s.dialogue.history.record entry)
    (hengine : s₁.engine = s.engine) (hstate : s₁.state = s.state) : SendsAgain entry fuel s run

/-- What comes of running an entry again: nothing but the entry, with a line feed behind it, goes to
the engine. A run that does not stop before sends it, unless the entry is itself a command; then
the engine and its state stay as they are. -/
structure RunsAgain (entry : String) (fuel : Nat) (s : Session ε κ ο)
    (run : Except Stop Unit × Session ε κ ο) : Prop where
  nothing_else : run.2.Sent s.dialogue.dispatched ∨
    run.2.Sent (s.dialogue.dispatched ++ [entry ++ "\n"])
  sent : MetaCommand.parse entry = none → run.1 = .ok () →
    run.2.Sent (s.dialogue.dispatched ++ [entry ++ "\n"])
  sends : MetaCommand.parse entry = none → SendsAgain entry fuel s run
  refused : MetaCommand.parse entry ≠ none →
    run.2.Sent s.dialogue.dispatched ∧ run.2.engine = s.engine ∧ run.2.state = s.state

/-- An entry goes to the engine once it was shown and entered again. -/
theorem triple_sendAgain (entry : String) (fuel : Nat) :
    Triple (Sent sent) (sendAgain entry fuel : Operation (Session ε κ ο) Unit)
      (fun _ => Sent (sent ++ [entry ++ "\n"]))
      fun _ s => s.Sent sent ∨ s.Sent (sent ++ [entry ++ "\n"]) := by
  have hkeeps {op : Operation (Dialogue κ ο) Unit}
      (h : ∀ d, (exec op d).2.dispatched = d.dispatched) :
      Triple (Sent sent) (onDialogue op : Operation (Session ε κ ο) Unit) (fun _ => Sent sent)
        fun _ s => s.Sent sent ∨ s.Sent (sent ++ [entry ++ "\n"]) :=
    (triple_of_end fun s hs => (h s.dialogue).trans hs).of_error fun _ _ h => .inl h
  have hdispatch : Triple (Sent sent)
      (dispatch (entry ++ "\n") fuel : Operation (Session ε κ ο) Unit)
      (fun _ => Sent (sent ++ [entry ++ "\n"])) fun _ => Sent (sent ++ [entry ++ "\n"]) := by
    refine triple_of_end fun s hs => ?_
    rw [Sent, (forwards_dispatch (entry ++ "\n") fuel s).dispatched, hs]
  refine triple_bind (hkeeps (Dialogue.dispatched_say _)) fun _ => ?_
  refine triple_bind (hkeeps (Dialogue.dispatched_record entry)) fun _ => ?_
  exact hdispatch.of_error fun _ _ h => .inr h

theorem exec_rerun_of_command (hget : s.dialogue.history.get? n = some entry)
    (hparse : MetaCommand.parse entry ≠ none) (fuel : Nat) :
    exec (rerun n fuel) s =
      exec (say ("History entry " ++ toString n ++ " is itself a command.\n\n")) s := by
  have hsome : (MetaCommand.parse entry).isSome := Option.isSome_iff_ne_none.2 hparse
  simp only [rerun, history, bind_assoc, pure_bind, exec_get_bind, hget, hsome, if_true]

theorem exec_rerun_of_query (hget : s.dialogue.history.get? n = some entry)
    (hparse : MetaCommand.parse entry = none) (fuel : Nat) :
    exec (rerun n fuel) s = exec (sendAgain entry fuel) s := by
  simp only [rerun, history, bind_assoc, pure_bind, exec_get_bind, hget, hparse,
    Option.isSome_none, Bool.false_eq_true, if_false, sendAgain]

omit [Console κ] in
theorem exec_say_of {text : String} {result : Except SessionError Unit} {output : ο}
    (h : Output.write text s.dialogue.output = (result, output)) :
    exec (say text) s = (result.mapError Stop.fault,
      { s with dialogue := { s.dialogue with output }.note (.wrote text result.isOk) }) := by
  simp only [say, onDialogue, Dialogue.say, exec_focus, exec_ofCall, h]

/-- A session that has shown an entry enters it again and sends it. -/
theorem sendsAgain_of_said {output : ο} {d : Dialogue κ ο}
    (hwrite : Output.write (entry ++ "\n") s.dialogue.output = (.ok (), output))
    (hsaid : d = { s.dialogue with output }.note (.wrote (entry ++ "\n") true)) (fuel : Nat) :
    SendsAgain entry fuel s (exec (do
      onDialogue (Dialogue.record entry)
      dispatch (entry ++ "\n") fuel) { s with dialogue := d }) := by
  have houtput : d.output = output := by rw [hsaid, Dialogue.output_note]
  have hconsole : d.console = s.dialogue.console := by rw [hsaid, Dialogue.console_note]
  have hhistory : d.history = s.dialogue.history := by rw [hsaid, Dialogue.history_note]
  cases hentry : History.entryOf entry with
  | none =>
    have hrecord : exec (onDialogue (Dialogue.record entry)) { s with dialogue := d } =
        (.ok (), { s with dialogue := d }) := by
      simp only [onDialogue, exec_focus, Dialogue.record, hentry, exec_pure]
    rw [exec_bind_of_ok hrecord]
    refine .forwarded (forwards_dispatch _ fuel { s with dialogue := d }) ?_ ?_ rfl rfl
    · rw [hwrite, houtput]
    · rw [hhistory, History.record, hentry]
  | some kept =>
    let d' : Dialogue κ ο :=
      { d with
        console := (Console.remember kept s.dialogue.console).2
        history := d.history.add kept }
    have hrecord : exec (onDialogue (Dialogue.record entry)) { s with dialogue := d } =
        ((Console.remember kept s.dialogue.console).1.mapError Stop.fault,
          { s with dialogue := d'.note (.remembered kept) }) := by
      rw [onDialogue, exec_focus, Dialogue.exec_record hentry, hconsole]
    cases hkeep : (Console.remember kept s.dialogue.console).1 with
    | error error =>
      rw [hkeep] at hrecord
      rw [exec_bind_of_error hrecord]
      exact .unkept hentry hkeep rfl rfl rfl
    | ok _ =>
      rw [hkeep] at hrecord
      rw [exec_bind_of_ok hrecord]
      refine .forwarded (forwards_dispatch _ fuel
        { s with dialogue := d'.note (.remembered kept) }) ?_ ?_ rfl rfl
      · rw [hwrite, Dialogue.output_note, houtput]
      · rw [Dialogue.history_note, History.record, hentry, ← hhistory]

theorem sendsAgain_sendAgain (entry : String) (fuel : Nat) (s : Session ε κ ο) :
    SendsAgain entry fuel s (exec (sendAgain entry fuel) s) := by
  cases hwrite : Output.write (entry ++ "\n") s.dialogue.output with
  | mk result output =>
    have hsay := exec_say_of hwrite
    cases result with
    | error error =>
      rw [sendAgain, exec_bind_of_error hsay]
      exact .unsaid (by rw [hwrite]) rfl rfl rfl
    | ok _ =>
      rw [sendAgain, exec_bind_of_ok hsay]
      exact sendsAgain_of_said hwrite rfl fuel

theorem runsAgain_sendAgain (hparse : MetaCommand.parse entry = none) (fuel : Nat)
    (s : Session ε κ ο) : s.RunsAgain entry fuel (exec (sendAgain entry fuel) s) := by
  have hsends := sendsAgain_sendAgain entry fuel s
  have hsend := triple_sendAgain entry fuel s rfl
  cases hrun : exec (sendAgain entry fuel) s with
  | mk result s' =>
    rw [hrun] at hsends hsend
    cases result with
    | ok _ =>
      exact ⟨.inr hsend, fun _ _ => hsend, fun _ => hsends, fun hcommand => absurd hparse hcommand⟩
    | error stop =>
      refine ⟨hsend, fun _ hok => ?_, fun _ => hsends, fun hcommand => absurd hparse hcommand⟩
      cases hok

theorem runsAgain_rerun (hget : s.dialogue.history.get? n = some entry) (fuel : Nat) :
    s.RunsAgain entry fuel (exec (rerun n fuel) s) := by
  by_cases hparse : MetaCommand.parse entry = none
  · rw [exec_rerun_of_query hget hparse]
    exact runsAgain_sendAgain hparse fuel s
  · rw [exec_rerun_of_command hget hparse]
    have hsent : (exec (say ("History entry " ++ toString n ++ " is itself a command.\n\n"))
        s).2.Sent s.dialogue.dispatched := Dialogue.dispatched_say _ s.dialogue
    exact ⟨.inl hsent, fun hnone => absurd hnone hparse, fun hnone => absurd hnone hparse,
      fun _ => ⟨hsent, rfl, rfl⟩⟩

/-- The command that is noted first changes nothing of this. -/
theorem SendsAgain.of_noted {fuel : Nat} {event : Event} {run : Except Stop Unit × Session ε κ ο}
    (h : SendsAgain entry fuel { s with dialogue := s.dialogue.note event } run) :
    SendsAgain entry fuel s run := by
  cases h with
  | unsaid h hresult hengine hstate =>
    rw [Dialogue.output_note] at h
    exact .unsaid h hresult hengine hstate
  | unkept hentry h hresult hengine hstate =>
    rw [Dialogue.console_note] at h
    exact .unkept hentry h hresult hengine hstate
  | forwarded h hsaid hhistory hengine hstate =>
    rw [Dialogue.output_note] at hsaid
    rw [Dialogue.history_note] at hhistory
    exact .forwarded h hsaid hhistory hengine hstate

theorem runsAgain_execute (hquery : MetaCommand.parse query = some (.rerun n))
    (hget : s.dialogue.history.get? n = some entry) (fuel : Nat) :
    s.RunsAgain entry fuel (exec (execute query fuel) s) := by
  have hexecute : exec (execute query fuel) s =
      exec (rerun n fuel) { s with dialogue := s.dialogue.note (.commanded (.rerun n)) } := by
    rw [execute, hquery]
    rfl
  have hrun := runsAgain_rerun
    (s := { s with dialogue := s.dialogue.note (.commanded (.rerun n)) }) (n := n)
    (by simpa using hget) fuel
  have hsent : (s.dialogue.note (.commanded (.rerun n))).dispatched = s.dialogue.dispatched :=
    Dialogue.dispatched_note (e := .commanded (.rerun n)) trivial s.dialogue
  obtain ⟨hnothing, hsent', hsends, hrefused⟩ := hrun
  rw [hsent] at hnothing hsent' hrefused
  rw [hexecute]
  exact ⟨hnothing, hsent', fun hparse => (hsends hparse).of_noted, hrefused⟩

end Session

end LogicConsole
