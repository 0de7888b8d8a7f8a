import LogicConsole.Proofs.HaltFlag
import LogicConsole.Proofs.Interrupts
/-! Interrupts typed at a line prompt. Each of them raises the flag, and the session hands it to the
engine once the query that was being read is complete. If the input ends first, the session ends
without another look at the flag: the interrupts typed since the last complete query never reach the
engine, and the flag is left up. -/
namespace LogicConsole

open Operation Relation

/-- An interrupt was typed where a line was to be read. -/
def Event.IsTyped : Event → Prop
  | .readLine _ (.ok .interrupted) => True
  | _ => False

/-- A query has been read to its end. -/
def Event.Completes : Event → Prop
  | .completed _ => True
  | _ => False

/-- No interrupt is typed or served, and no query completed. -/
def Event.Neutral (e : Event) : Prop := ¬ e.IsTyped ∧ ¬ e.Completes ∧ ¬ e.Serves

/-- Nothing is read at the line prompt. -/
def Event.Offline : Event → Prop
  | .readLine _ _ | .completed _ => False
  | _ => True

theorem Event.Calm.offline {e : Event} (h : e.Calm) : e.Offline := by
  cases e <;> trivial

theorem Event.Displays.offline {e : Event} (h : e.Displays) : e.Offline := by
  rcases h with h | ⟨summary, rfl⟩
  · exact h.offline
  · trivial

/-- A console that raises the flag when it reads an interrupt at a line prompt, and only then. -/
structure Console.TellsInterrupts (κ : Type) [Console κ] : Prop where
  raised_iff (marker : String) (c : κ) :
    (Console.readLine marker c).1.raised = true ↔
      (Console.readLine marker c).1.result = .ok .interrupted

theorem ScriptedConsole.tellsInterrupts : Console.TellsInterrupts ScriptedConsole where
  raised_iff marker c := by
    change ((c.readLine marker).1 == .interrupted) = true ↔ _
    rw [beq_iff_eq]
    exact ⟨congrArg Except.ok, Except.ok.inj⟩

theorem Unreliable.tellsInterrupts {κ : Type} [FiniteConsole κ]
    (h : Console.TellsInterrupts κ) : Console.TellsInterrupts (Unreliable κ) where
  raised_iff marker u := by
    simp only [Console.readLine]
    cases planned u.lineFault u.lineReads with
    | some error => simp
    | none => exact h.raised_iff marker u.console

namespace Journal

variable {p q : Event → Prop}

/-- Every event such as `p` has an event such as `q` behind it. -/
def Answered (p q : Event → Prop) (j : Journal) : Prop :=
  ∀ newer e earlier, j = newer ++ e :: earlier → p e → ∃ x ∈ newer, q x

theorem answered_nil : Answered p q [] := by
  intro newer e earlier h
  simp at h

theorem answered_cons {e : Event} {j : Journal} :
    Answered p q (e :: j) ↔ ¬ p e ∧ (q e ∨ Answered p q j) := by
  constructor
  · intro h
    refine ⟨fun he => ?_, ?_⟩
    · obtain ⟨x, hx, -⟩ := h [] e j rfl he
      cases hx
    · by_cases hq : q e
      · exact .inl hq
      · refine .inr fun newer x earlier hj hx => ?_
        obtain ⟨y, hy, hqy⟩ := h (e :: newer) x earlier (congrArg (e :: ·) hj) hx
        rcases List.mem_cons.1 hy with rfl | hy
        · exact absurd hqy hq
        · exact ⟨y, hy, hqy⟩
  · rintro ⟨he, h⟩ newer x earlier hj hx
    cases newer with
    | nil =>
      obtain ⟨rfl, -⟩ := List.cons.inj hj
      exact absurd hx he
    | cons y newer =>
      obtain ⟨rfl, htail⟩ := List.cons.inj hj
      rcases h with hq | h
      · exact ⟨e, List.mem_cons_self, hq⟩
      · obtain ⟨z, hz, hqz⟩ := h newer x earlier htail hx
        exact ⟨z, List.mem_cons_of_mem _ hz, hqz⟩

end Journal

/-- How matters stand with the interrupts typed in a journal, and with the flag. -/
structure Standing where
  /-- Each was served afterwards. -/
  served : Prop
  /-- Behind each a query was completed. -/
  completed : Prop
  up : Bool

namespace Standing

variable {quiet : Prop} {s : Standing}

/-- Every interrupt typed has been served, and no query is being read. -/
def Clear (s : Standing) : Prop := s.served ∧ s.completed

/-- A query has just been read; an interrupt typed before its end is still on the flag. -/
def Flagged (s : Standing) : Prop := s.completed ∧ (¬ s.served → s.up = true)

/-- The interrupts that are still to be served are those typed in the query that is being read. -/
structure Even (quiet : Prop) (s : Standing) : Prop where
  served_iff : s.served ↔ s.completed
  flagged : ¬ s.served → s.up = true
  down : quiet → s.served → s.up = false

/-- Every interrupt typed has been served, whoever raised the flag since. -/
def Calm (quiet : Prop) (s : Standing) : Prop := s.Even quiet ∧ s.served

/-- Where the session ends. -/
structure Final (quiet : Prop) (how : SessionEnd) (s : Standing) : Prop where
  served_iff : s.served ↔ (how = .endOfInput → s.completed)
  down_iff : quiet → (s.up = false ↔ s.served)

/-- A signal may come at any time, unless there are none, and changes nothing of `P`. -/
def Raisable (quiet : Prop) (P : Standing → Prop) : Prop :=
  ¬ quiet → ∀ s, P s → P { s with up := true }

theorem raisable_clear : Raisable quiet Clear := fun _ _ h => h

theorem raisable_flagged : Raisable quiet Flagged := fun _ _ h => ⟨h.1, fun _ => rfl⟩

theorem raisable_even : Raisable quiet (Even quiet) :=
  fun hloud _ h => ⟨h.served_iff, fun _ => rfl, fun hquiet => absurd hquiet hloud⟩

theorem raisable_calm : Raisable quiet (Calm quiet) :=
  fun hloud s h => ⟨raisable_even hloud s h.1, h.2⟩

theorem raisable_final (how : SessionEnd) : Raisable quiet (Final quiet how) :=
  fun hloud _ h => ⟨h.served_iff, fun hquiet => absurd hquiet hloud⟩

theorem Calm.clear (h : s.Calm quiet) : s.Clear := ⟨h.2, h.1.served_iff.1 h.2⟩

theorem Clear.flagged (h : s.Clear) : s.Flagged := ⟨h.2, fun hserved => absurd h.1 hserved⟩

theorem Even.down_iff (h : s.Even quiet) (hquiet : quiet) : s.up = false ↔ s.served := by
  refine ⟨fun hdown => ?_, h.down hquiet⟩
  by_contra hserved
  rw [h.flagged hserved] at hdown
  cases hdown

theorem Calm.halted (h : s.Calm quiet) : s.Final quiet .halted := by
  refine ⟨iff_of_true h.2 fun hended => ?_, h.1.down_iff⟩
  cases hended

theorem Even.endOfInput (h : s.Even quiet) : s.Final quiet .endOfInput :=
  ⟨h.served_iff.trans ⟨fun hcompleted _ => hcompleted, fun hcompleted => hcompleted rfl⟩,
    h.down_iff⟩

end Standing

namespace Journal

variable {e : Event} {j : Journal} {up : Bool}

def standing (j : Journal) (up : Bool) : Standing where
  served := j.Answered Event.IsTyped Event.Serves
  completed := j.Answered Event.IsTyped Event.Completes
  up := up

theorem standing_of_neutral (he : e.Neutral) : standing (e :: j) up = standing j up := by
  simp only [standing, answered_cons, he.1, he.2.1, he.2.2, not_false_eq_true, true_and, false_or]

theorem standing_of_typed (he : e.IsTyped) : standing (e :: j) up = ⟨False, False, up⟩ := by
  simp only [standing, answered_cons, he, not_true_eq_false, false_and]

theorem standing_of_completed (query : String) :
    standing (.completed query :: j) up = { standing j up with completed := True } := by
  simp [standing, answered_cons, Event.IsTyped, Event.Completes, Event.Serves]

theorem standing_of_interrupted (result : Except SessionError Unit) (halted : Bool) :
    standing (.interrupted result halted :: j) up = { standing j up with served := True } := by
  simp [standing, answered_cons, Event.IsTyped, Event.Completes, Event.Serves]

theorem standing_raised : standing (.raised :: j) up = standing j up :=
  standing_of_neutral ⟨id, id, id⟩

theorem clear_cons (he : e.Offline) (h : (standing j up).Clear) : (standing (e :: j) up).Clear := by
  cases e with
  | interrupted result halted =>
    rw [standing_of_interrupted]
    exact ⟨trivial, h.2⟩
  | readLine => exact he.elim
  | completed => exact he.elim
  | _ =>
    rw [standing_of_neutral ⟨id, id, id⟩]
    exact h

end Journal

namespace Dialogue

variable {κ ο : Type} {P P' : Standing → Prop} {d₀ d d' : Dialogue κ ο} {e : Event}

/-- The dialogue shares its flag with the console, and matters stand so since `d₀`. -/
structure Stands (d d₀ : Dialogue κ ο) (P : Standing → Prop) : Prop where
  shared : d.otherFlag = none
  signals : d.signals = d₀.signals
  told : ∃ t, d.journal = t ++ d₀.journal ∧ P (Journal.standing t d.interrupt.isRaised)

theorem Stands.mono (h : d.Stands d₀ P) (hP : ∀ s, P s → P' s) : d.Stands d₀ P' := by
  obtain ⟨t, ht, hs⟩ := h.told
  exact ⟨h.shared, h.signals, t, ht, hP _ hs⟩

/-- Noting an event changes the standing by this event, and by a signal that may follow. -/
theorem Stands.note (h : d.Stands d₀ P) (hraise : Standing.Raisable d₀.Quiet P')
    (hP : ∀ t up, P (Journal.standing t up) → P' (Journal.standing (e :: t) up)) :
    (d.note e).Stands d₀ P' := by
  obtain ⟨t, ht, hs⟩ := h.told
  have hnext := hP t d.interrupt.isRaised hs
  cases hsignal : d.signals (e :: d.journal) with
  | false =>
    have hnote : d.note e = { d with journal := e :: d.journal } := by
      simp only [Dialogue.note, hsignal, Bool.false_eq_true, if_false]
    rw [hnote]
    exact ⟨h.shared, h.signals, e :: t, congrArg (e :: ·) ht, hnext⟩
  | true =>
    have hnote : d.note e = { d with journal := e :: d.journal }.raise := by
      simp only [Dialogue.note, hsignal, if_true]
    have hloud : ¬ d₀.Quiet := fun hquiet => by
      rw [h.signals, hquiet] at hsignal
      cases hsignal
    rw [hnote]
    refine ⟨h.shared, h.signals, .raised :: e :: t, congrArg (Event.raised :: e :: ·) ht, ?_⟩
    rw [Journal.standing_raised]
    exact hraise hloud _ hnext

theorem Stands.neutral (h : d.Stands d₀ P) (hraise : Standing.Raisable d₀.Quiet P)
    (he : e.Neutral) : (d.note e).Stands d₀ P := by
  refine h.note hraise fun t up hs => ?_
  rwa [Journal.standing_of_neutral he]

theorem Stands.clear_note (h : d.Stands d₀ Standing.Clear) (he : e.Offline) :
    (d.note e).Stands d₀ Standing.Clear :=
  h.note Standing.raisable_clear fun _ _ => Journal.clear_cons he

/-- An interrupt that the console tells of raises the flag. -/
theorem Stands.hear_raised (h : d.Stands d₀ P) :
    (d.hear true).Stands d₀ fun s => P { s with up := d.interrupt.isRaised } ∧ s.up = true := by
  obtain ⟨t, ht, hs⟩ := h.told
  have hhear : d.hear true = d.raise := by
    simp only [hear, h.shared, if_true]
  rw [hhear]
  refine ⟨h.shared, h.signals, .raised :: t, congrArg (Event.raised :: ·) ht, ?_⟩
  rw [Journal.standing_raised]
  exact ⟨hs, rfl⟩

theorem Stands.clear_hear (h : d.Stands d₀ Standing.Clear) (raised : Bool) :
    (d.hear raised).Stands d₀ Standing.Clear := by
  cases raised with
  | false => exact h
  | true => exact h.hear_raised.mono fun s hs => hs.1

theorem Stands.frame (h : d.Stands d₀ P) (hshared : d'.otherFlag = d.otherFlag)
    (hsignals : d'.signals = d.signals) (hjournal : d'.journal = d.journal)
    (hinterrupt : d'.interrupt = d.interrupt) : d'.Stands d₀ P := by
  obtain ⟨t, ht, hs⟩ := h.told
  exact ⟨hshared.trans h.shared, hsignals.trans h.signals, t, hjournal.trans ht, hinterrupt ▸ hs⟩

variable [Console κ] [Output ο]

/-- Away from the line prompt no interrupt is typed. -/
theorem Stands.clear_step (h : d.Stands d₀ Standing.Clear) (hstep : Step e d d') (he : e.Offline) :
    d'.Stands d₀ Standing.Clear := by
  cases hstep with
  | wrote text => exact clear_note (h.frame rfl rfl rfl rfl) he
  | flushed => exact clear_note (h.frame rfl rfl rfl rfl) he
  | lineRead marker => exact he.elim
  | keyRead =>
    have hread : ({ d with console := (Console.readKey d.console).2 } : Dialogue κ ο).Stands d₀
        Standing.Clear := h.frame rfl rfl rfl rfl
    exact (hread.clear_note he).clear_hear (Console.readKey d.console).1.raised
  | completed query => exact he.elim
  | remembered hentry =>
    simp only [record, hentry]
    exact clear_note (h.frame rfl rfl rfl rfl) he
  | paged summary => exact h.clear_note he
  | taken => exact clear_note ⟨h.shared, h.signals, h.told⟩ he

variable {E : Stop → Dialogue κ ο → Prop}

omit [Console κ] in
theorem triple_say_stands (hraise : Standing.Raisable d₀.Quiet P) (text : String) :
    Triple (fun d => d.Stands d₀ P) (say text : Operation (Dialogue κ ο) Unit)
      (fun _ d => d.Stands d₀ P) fun _ _ => True :=
  triple_ofCall
    (fun _ _ hd _ => Stands.neutral (hd.frame rfl rfl rfl rfl) hraise ⟨id, id, id⟩)
    fun _ _ _ _ => trivial

omit [Console κ] in
theorem triple_flush_stands (hraise : Standing.Raisable d₀.Quiet P) :
    Triple (fun d => d.Stands d₀ P) (flush : Operation (Dialogue κ ο) Unit)
      (fun _ d => d.Stands d₀ P) fun _ _ => True :=
  triple_ofCall
    (fun _ _ hd _ => Stands.neutral (hd.frame rfl rfl rfl rfl) hraise ⟨id, id, id⟩)
    fun _ _ _ _ => trivial

omit [Output ο] in
theorem triple_record_stands (hraise : Standing.Raisable d₀.Quiet P) (query : String) :
    Triple (fun d => d.Stands d₀ P) (record query : Operation (Dialogue κ ο) Unit)
      (fun _ d => d.Stands d₀ P) fun _ _ => True := by
  unfold record
  cases History.entryOf query with
  | none => exact triple_pure _ fun _ hd => hd
  | some entry =>
    exact triple_ofCall
      (fun _ _ hd _ => Stands.neutral (hd.frame rfl rfl rfl rfl) hraise ⟨id, id, id⟩)
      fun _ _ _ _ => trivial

variable (htells : Console.TellsInterrupts κ)
include htells

omit [Output ο] in
theorem triple_readLine_stands (marker : String) :
    Triple (fun d => d.Stands d₀ (Standing.Even d₀.Quiet))
      (readLine marker : Operation (Dialogue κ ο) LineInput)
      (fun _ d => d.Stands d₀ (Standing.Even d₀.Quiet)) fun _ _ => True := by
  refine triple_ofCall (fun d input hd hresult => ?_) fun _ _ _ _ => trivial
  have hresult : (Console.readLine marker d.console).1.result = .ok input := hresult
  have htells := htells.raised_iff marker d.console
  have hbefore : ({ d with console := (Console.readLine marker d.console).2 } :
      Dialogue κ ο).Stands d₀ (Standing.Even d₀.Quiet) := hd.frame rfl rfl rfl rfl
  cases hraised : (Console.readLine marker d.console).1.raised with
  | false =>
    have huntyped :
        ¬ (Event.readLine marker (Console.readLine marker d.console).1.result).IsTyped :=
      fun htyped => by
        rw [hresult] at htyped htells
        cases input with
        | interrupted => simp [hraised] at htells
        | _ => exact htyped
    simp only [hraised]
    exact hbefore.neutral Standing.raisable_even ⟨huntyped, id, id⟩
  | true =>
    have htyped : (Event.readLine marker (Console.readLine marker d.console).1.result).IsTyped := by
      rw [htells.1 hraised]
      trivial
    simp only [hraised]
    have hnoted : (Dialogue.note (.readLine marker (Console.readLine marker d.console).1.result)
        { d with console := (Console.readLine marker d.console).2 }).Stands d₀
        fun s => ¬ s.served ∧ ¬ s.completed := by
      refine hbefore.note (fun _ _ hs => hs) fun t up _ => ?_
      rw [Journal.standing_of_typed htyped]
      exact ⟨id, id⟩
    refine hnoted.hear_raised.mono fun s hs => ?_
    exact ⟨iff_of_false hs.1.1 hs.1.2, fun _ => hs.2, fun _ hserved => absurd hserved hs.1.1⟩

omit [Output ο] in
theorem triple_collectLines_stands (prompt : String) (fuel : Nat) (typed : String) :
    Triple (fun d => d.Stands d₀ (Standing.Even d₀.Quiet))
      (collectLines prompt fuel typed : Operation (Dialogue κ ο) QueryInput)
      (fun _ d => d.Stands d₀ (Standing.Even d₀.Quiet)) fun _ _ => True := by
  induction fuel generalizing typed with
  | zero => exact fun _ _ => trivial
  | succ fuel ih =>
    refine triple_bind (triple_readLine_stands htells _) fun input => ?_
    cases input with
    | interrupted => exact ih typed
    | endOfInput => exact triple_pure _ fun _ hd => hd
    | line line => exact triple_ite (fun _ => triple_pure _ fun _ hd => hd) fun _ => ih _

omit [Output ο] in
/-- A query that is complete leaves the interrupts typed in it on the flag. -/
theorem triple_readQuery_stands (prompt : String) (fuel : Nat) :
    Triple (fun d => d.Stands d₀ (Standing.Even d₀.Quiet))
      (readQuery prompt fuel : Operation (Dialogue κ ο) QueryInput)
      (fun input d => match input with
        | .query _ => d.Stands d₀ Standing.Flagged
        | .endOfInput => d.Stands d₀ (Standing.Even d₀.Quiet)) fun _ _ => True := by
  refine triple_bind (triple_collectLines_stands htells prompt fuel "") fun input => ?_
  cases input with
  | endOfInput => exact triple_pure _ fun _ hd => hd
  | query text =>
    have hmark : Triple (fun d => d.Stands d₀ (Standing.Even d₀.Quiet))
        (mark (.completed text) : Operation (Dialogue κ ο) Unit)
        (fun _ d => d.Stands d₀ Standing.Flagged) fun _ _ => True := by
      refine triple_modify _ fun d hd => hd.note Standing.raisable_flagged fun t up hs => ?_
      rw [Journal.standing_of_completed]
      exact ⟨trivial, hs.flagged⟩
    exact triple_bind hmark fun _ =>
      triple_bind (triple_record_stands Standing.raisable_flagged text) fun _ =>
        triple_pure _ fun _ hd => hd

end Dialogue

namespace Session

variable {ε τ κ ο α : Type} [Engine ε τ] [Console κ] [Output ο] {s₀ s s' : Session ε κ ο}

abbrev OfflineStep (s s' : Session ε κ ο) : Prop := ∃ e, e.Offline ∧ Step e s s'

theorem Step.offline {e : Event} (h : Step e s s') (he : e.Offline) : OfflineStep s s' := ⟨e, he, h⟩

theorem offline_of_calm {op : Operation (Session ε κ ο) α} (h : Within CalmStep op) :
    Within OfflineStep op := h.mono fun _ _ ⟨_, he, hstep⟩ => hstep.offline he.offline

theorem offline_serviceInterrupts :
    Within OfflineStep (serviceInterrupts : Operation (Session ε κ ο) Unit) := by
  have htake : Within OfflineStep
      (onDialogue Dialogue.takeInterrupt : Operation (Session ε κ ο) Bool) :=
    offline_of_calm (within_calm Dialogue.calm_takeInterrupt)
  exact within_bind htake fun _ =>
    within_ite (within_of_step fun s => (Step.interrupted s).offline trivial) (within_pure _)

theorem offline_dispatch (query : String) (fuel : Nat) :
    Within OfflineStep (dispatch query fuel : Operation (Session ε κ ο) Unit) := by
  have hrest (solutions : τ) : Within OfflineStep (do
      let summary ← page solutions fuel
      if summary.ending = .interrupted then serviceInterrupts : Operation (Session ε κ ο) Unit) :=
    within_bind ((display_page solutions fuel).mono
      fun _ _ ⟨_, he, hstep⟩ => hstep.offline he.offline) fun _ =>
        within_ite offline_serviceInterrupts (within_pure _)
  intro s
  have hsolve : OfflineStep s (exec (drive Engine.solve (.solved query)) (s.pose query)).2 :=
    (Step.solved query s).offline trivial
  change ReflTransGen OfflineStep s
    (exec (drive Engine.solve (.solved query) >>= _) (s.pose query)).2
  exact (ReflTransGen.single hsolve).trans
    (steps_bind (drive Engine.solve (.solved query)) hrest (s.pose query))

theorem offline_execute (query : String) (fuel : Nat) :
    Within OfflineStep (execute query fuel : Operation (Session ε κ ο) Unit) := by
  have hsay (text : String) : Within OfflineStep (say text : Operation (Session ε κ ο) Unit) :=
    offline_of_calm (calm_say text)
  have hhistory : Within OfflineStep (history : Operation (Session ε κ ο) History) := fun _ => .refl
  have hrecord (entry : String) : Within OfflineStep
      (onDialogue (Dialogue.record entry) : Operation (Session ε κ ο) Unit) := by
    have hdialogue : Within (fun d d' => ∃ e, e.Offline ∧ Dialogue.Step e d d')
        (Dialogue.record entry : Operation (Dialogue κ ο) Unit) := by
      intro d
      cases hentry : History.entryOf entry with
      | none => simp only [Dialogue.record, hentry, exec_pure, ReflTransGen.refl]
      | some text => exact .single ⟨.remembered text, trivial, .remembered hentry d⟩
    refine within_focus hdialogue (fun _ => rfl) ?_
    rintro s d d' ⟨e, he, hstep⟩
    exact ⟨e, he, .dialogue hstep⟩
  unfold execute
  cases MetaCommand.parse query with
  | none => exact offline_dispatch query fuel
  | some command =>
    refine within_bind (within_of_step fun s => (Step.commanded command s).offline trivial)
      fun _ => ?_
    cases command with
    | history => exact within_bind hhistory fun _ => hsay _
    | help => exact hsay _
    | rerun n =>
      refine within_bind hhistory fun h => ?_
      cases h.get? n with
      | none => exact hsay _
      | some entry =>
        refine within_ite (hsay _) (within_bind (hsay _) fun _ => ?_)
        exact within_bind (hrecord entry) fun _ => offline_dispatch _ fuel

variable {P : Standing → Prop} {d₀ : Dialogue κ ο}

theorem stands_offline (h : s.dialogue.Stands d₀ Standing.Clear) (hstep : OfflineStep s s') :
    s'.dialogue.Stands d₀ Standing.Clear := by
  obtain ⟨e, he, hstep⟩ := hstep
  rcases hstep.dialogue_cases with hdialogue | ⟨hnote, -⟩
  · exact h.clear_step hdialogue he
  · rw [hnote]
    exact h.clear_note he

theorem triple_offline {op : Operation (Session ε κ ο) α} (h : Within OfflineStep op) :
    Triple (fun s => s.dialogue.Stands d₀ Standing.Clear) op
      (fun _ s => s.dialogue.Stands d₀ Standing.Clear) fun _ _ => True :=
  Triple.of_error (h.triple fun _ _ hstep hs => stands_offline hs hstep) fun _ _ _ => trivial

omit [Engine ε τ] [Console κ] [Output ο] in
theorem triple_enter_stands (hraise : Standing.Raisable d₀.Quiet P) (phase : Phase) :
    Triple (fun s => s.dialogue.Stands d₀ P) (enter phase : Operation (Session ε κ ο) Unit)
      (fun _ s => s.dialogue.Stands d₀ P) fun _ _ => True :=
  triple_modify _ fun _ hs => hs.neutral hraise ⟨id, id, id⟩

omit [Console κ] [Output ο] in
/-- A pending interrupt goes to the engine, and then every interrupt typed has been served. -/
theorem triple_serviceInterrupts_stands :
    Triple (fun s => s.dialogue.Stands d₀ Standing.Flagged)
      (serviceInterrupts : Operation (Session ε κ ο) Unit)
      (fun _ s => s.dialogue.Stands d₀ (Standing.Calm d₀.Quiet)) fun _ _ => True := by
  intro s hs
  rw [exec_serviceInterrupts]
  obtain ⟨t, ht, hcompleted, hflagged⟩ := hs.told
  cases hraised : s.dialogue.interrupt.isRaised with
  | false =>
    have hserved : (Journal.standing t s.dialogue.interrupt.isRaised).served := by
      by_contra hserved
      have hup : s.dialogue.interrupt.isRaised = true := hflagged hserved
      rw [hraised] at hup
      cases hup
    simp only [Bool.false_eq_true, if_false]
    exact ⟨hs.shared, hs.signals, t, ht,
      ⟨iff_of_true hserved hcompleted, fun hserved' => absurd hserved hserved',
        fun _ _ => hraised⟩, hserved⟩
  | true =>
    have hdown : ({ s.dialogue with interrupt := ⟨false⟩ } : Dialogue κ ο).Stands d₀
        fun s => s.completed ∧ (d₀.Quiet → s.up = false) :=
      ⟨hs.shared, hs.signals, t, ht, hcompleted, fun _ => rfl⟩
    have htaken := hdown.neutral (e := .taken)
      (fun hloud _ hs => ⟨hs.1, fun hquiet => absurd hquiet hloud⟩) ⟨id, id, id⟩
    have hserved (result : Except SessionError Unit) (halted : Bool) :
        ((Dialogue.note .taken { s.dialogue with interrupt := ⟨false⟩ }).note
          (.interrupted result halted)).Stands d₀ (Standing.Calm d₀.Quiet) := by
      refine htaken.note Standing.raisable_calm fun t up hs => ?_
      rw [Journal.standing_of_interrupted]
      exact ⟨⟨iff_of_true trivial hs.1, fun hserved => absurd trivial hserved,
        fun hquiet _ => hs.2 hquiet⟩, trivial⟩
    simp only [if_true]
    exact triple_ofCall (P := fun s' => s' = { s with
        dialogue := Dialogue.note .taken { s.dialogue with interrupt := ⟨false⟩ } })
      (fun s' _ hs' _ => hs' ▸ hserved _ _) (fun _ _ _ _ => trivial) _ rfl

/-- How matters stand when the session has ended so. -/
abbrev Settles (d₀ : Dialogue κ ο) (how : SessionEnd) (s : Session ε κ ο) : Prop :=
  s.dialogue.Stands d₀ (Standing.Final d₀.Quiet how)

omit [Engine ε τ] [Console κ] [Output ο] in
theorem triple_ending_stands (how : SessionEnd) (hP : ∀ s, P s → Standing.Final d₀.Quiet how s) :
    Triple (fun s => s.dialogue.Stands d₀ P)
      (do enter .halted; return how : Operation (Session ε κ ο) SessionEnd)
      (Settles d₀) fun _ _ => True :=
  triple_bind ((triple_enter_stands (Standing.raisable_final how) .halted).of_pre
    fun _ hs => hs.mono hP) fun _ => triple_pure _ fun _ hs => hs

omit [Engine ε τ] [Console κ] [Output ο] in
/-- Where the halt flag is looked at, every interrupt typed has been served. -/
theorem triple_unless_halted_stands {next : Operation (Session ε κ ο) SessionEnd}
    (hnext : Triple (fun s => s.dialogue.Stands d₀ (Standing.Calm d₀.Quiet)) next (Settles d₀)
      fun _ _ => True) :
    Triple (fun s => s.dialogue.Stands d₀ (Standing.Calm d₀.Quiet))
      (do
        if ← isHalted then
          enter .halted
          return .halted
        next) (Settles d₀) fun _ _ => True :=
  triple_bind (Q := fun _ (s : Session ε κ ο) => s.dialogue.Stands d₀ (Standing.Calm d₀.Quiet))
    (fun _ hs => hs) fun _ =>
      triple_ite (fun _ => triple_ending_stands .halted fun _ hs => hs.halted) fun _ => hnext

theorem triple_serve_stands (htells : Console.TellsInterrupts κ) (fuel : Nat) :
    Triple (fun s => s.dialogue.Stands d₀ Standing.Clear)
      (serve fuel : Operation (Session ε κ ο) SessionEnd) (Settles d₀) fun _ _ => True := by
  induction fuel with
  | zero => exact fun _ _ => trivial
  | succ fuel ih =>
    refine triple_bind (triple_enter_stands Standing.raisable_clear _) fun _ => ?_
    refine triple_bind (triple_serviceInterrupts_stands.of_pre fun _ hs =>
      hs.mono fun _ hclear => hclear.flagged) fun _ => triple_unless_halted_stands ?_
    have hprompt : Triple (fun s => s.dialogue.Stands d₀ (Standing.Calm d₀.Quiet))
        (ask Engine.prompt .prompted : Operation (Session ε κ ο) String)
        (fun _ s => s.dialogue.Stands d₀ (Standing.Even d₀.Quiet)) fun _ _ => True :=
      triple_ofCall
        (fun _ _ hs _ => (hs.neutral Standing.raisable_calm ⟨id, id, id⟩).mono fun _ hs => hs.1)
        fun _ _ _ _ => trivial
    refine triple_bind hprompt fun prompt => ?_
    refine triple_bind (triple_dialogue (Dialogue.triple_flush_stands Standing.raisable_even))
      fun _ => ?_
    refine triple_bind (triple_dialogue (Dialogue.triple_readQuery_stands htells prompt _))
      fun input => ?_
    cases input with
    | endOfInput =>
      refine triple_bind (triple_dialogue (Dialogue.triple_say_stands Standing.raisable_even _))
        fun _ => ?_
      exact triple_ending_stands .endOfInput fun _ hs => hs.endOfInput
    | query query =>
      refine triple_bind triple_serviceInterrupts_stands fun _ => triple_unless_halted_stands ?_
      refine triple_bind ((triple_enter_stands Standing.raisable_clear .executing).of_pre
        fun _ hs => hs.mono fun _ hs => hs.clear) fun _ => ?_
      exact triple_bind (triple_offline (offline_execute query _)) fun _ => ih

theorem triple_phases_stands (htells : Console.TellsInterrupts κ) (fuel : Nat) :
    Triple (fun s => s.dialogue.Stands d₀ Standing.Clear)
      (phases fuel : Operation (Session ε κ ο) SessionEnd) (Settles d₀) fun _ _ => True :=
  triple_bind (triple_enter_stands Standing.raisable_clear _) fun _ =>
    triple_bind (triple_offline (offline_of_calm calm_start)) fun _ =>
      triple_bind (triple_enter_stands Standing.raisable_clear _) fun _ =>
        triple_serve_stands htells fuel

omit [Console κ] in
theorem settles_close {how : SessionEnd} (h : Settles d₀ how s) : Settles d₀ how s.close := by
  have hraise : Standing.Raisable d₀.Quiet (Standing.Final d₀.Quiet how) :=
    Standing.raisable_final how
  have hflush : Settles d₀ how s.flushHistory := by
    unfold flushHistory
    split
    · exact h
    · exact Dialogue.Stands.neutral (d := { s.dialogue with
        history := { s.dialogue.history with flushed := true } }) (h.frame rfl rfl rfl rfl) hraise
        ⟨id, id, id⟩
  have hwrote : (exec (Dialogue.say s.flushHistory.theme.reset)
      s.flushHistory.dialogue).2.Stands d₀ (Standing.Final d₀.Quiet how) :=
    Dialogue.Stands.neutral (hflush.frame rfl rfl rfl rfl) hraise ⟨id, id, id⟩
  unfold close
  rcases resetTheme_cases s.flushHistory with hreset | hreset | hreset <;> rw [hreset]
  · exact hflush
  · exact hwrote
  · exact Dialogue.Stands.neutral (hwrote.frame rfl rfl rfl rfl) hraise ⟨id, id, id⟩

/-- In a run that ends without a fault each interrupt typed at a line prompt is followed by a call
of the engine, unless the input ends before the query it was typed in is complete. The calls the
journal tells are those that made the engine, and the session, what they are at the end. Without
signals from outside, the flag is up at the end just when an interrupt typed was not served. -/
theorem runFor_serves_typed (htells : Console.TellsInterrupts κ) (s : Session ε κ ο)
    (hshared : s.dialogue.otherFlag = none) {fuel : Nat} {how : SessionEnd}
    (hend : (s.runFor fuel).1 = .ended how) :
    ∃ t : Journal, (s.runFor fuel).2.dialogue.journal = t ++ s.dialogue.journal ∧
      s.Performs t (s.runFor fuel).2 ∧
      (t.Answered Event.IsTyped Event.Serves ↔
        (how = .endOfInput → t.Answered Event.IsTyped Event.Completes)) ∧
      (s.dialogue.Quiet → ((s.runFor fuel).2.dialogue.interrupt.isRaised = false ↔
        t.Answered Event.IsTyped Event.Serves)) := by
  have hstart : s.dialogue.Stands s.dialogue Standing.Clear :=
    ⟨hshared, rfl, [], rfl, Journal.answered_nil, Journal.answered_nil⟩
  have hloop := triple_phases_stands htells fuel s hstart
  have hfinished : (s.runFor fuel).1 ≠ .unfinished := by
    rw [hend]
    exact Outcome.noConfusion
  have hlast := runFor_of_finished hfinished
  rw [runFor_eq] at hend
  cases hrun : exec (phases fuel) s with
  | mk r s₁ =>
    rw [hrun] at hend hloop hlast
    cases r with
    | error stop => cases stop <;> cases hend
    | ok how' =>
      obtain rfl : how' = how := Outcome.ended.inj hend
      obtain ⟨-, -, t, ht, hfinal⟩ := settles_close hloop
      rw [← hlast] at ht hfinal
      exact ⟨t, ht, runFor_performs ht, hfinal.served_iff, hfinal.down_iff⟩

/-- An interrupt is typed before the input ends, and nothing else. -/
def departing : Session ScriptedEngine ScriptedConsole Buffer where
  engine := {}
  dialogue := { console := { events := [.interrupted] }, output := {} }

/-- The interrupt never reaches the engine. -/
theorem departing_unserved :
    departing.dialogue.otherFlag = none ∧ departing.run.1 = .ended .endOfInput ∧
      .readLine "?- " (.ok .interrupted) ∈ departing.run.2.dialogue.journal ∧
      departing.run.2.engine.interrupts = 0 ∧
      departing.run.2.dialogue.interrupt.isRaised = true := by
  have hread : departing.run.2.dialogue.journal[5]? =
      some (.readLine "?- " (.ok .interrupted)) := rfl
  exact ⟨rfl, by decide +kernel, List.mem_of_getElem? hread, by decide +kernel, by decide +kernel⟩

/-- An interrupt is typed between the lines of a query, and another one before the input ends. -/
def insisting : Session ScriptedEngine ScriptedConsole Buffer where
  engine := {}
  dialogue :=
    { console := { events := [.line "a(", .interrupted, .line ").", .interrupted] }
      output := {} }

theorem insisting_serves_typed :
    (insisting.runFor 6).1 = .ended .endOfInput ∧ (insisting.runFor 6).2.engine.interrupts = 1 ∧
      ∃ t : Journal, (insisting.runFor 6).2.dialogue.journal = t ∧
        insisting.Performs t (insisting.runFor 6).2 ∧
        ¬ t.Answered Event.IsTyped Event.Serves ∧
        ¬ t.Answered Event.IsTyped Event.Completes := by
  have hend : (insisting.runFor 6).1 = .ended .endOfInput := by decide +kernel
  have hup : (insisting.runFor 6).2.dialogue.interrupt.isRaised = true := by decide +kernel
  obtain ⟨t, ht, hperforms, hserved, hflag⟩ :=
    runFor_serves_typed ScriptedConsole.tellsInterrupts insisting rfl hend
  have hunserved : ¬ t.Answered Event.IsTyped Event.Serves := fun hall => by
    rw [← hflag fun _ => rfl, hup] at hall
    cases hall
  refine ⟨hend, by decide +kernel, t, by simpa [insisting] using ht, hperforms, hunserved,
    fun hall => ?_⟩
  exact hunserved (hserved.2 fun _ => hall)

end Session

end LogicConsole
