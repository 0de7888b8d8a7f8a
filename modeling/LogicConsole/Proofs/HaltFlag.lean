import LogicConsole.Engine.Facts
import LogicConsole.Proofs.Replay
/-! The halt flag is heeded. A session reads no line and sends no query while the flag is up, so an
engine that raises it for good ends the session with the call it makes this in, or with the display
of the solutions of that call. -/
namespace LogicConsole

open Operation Relation

/-- The halt flag as a call of the engine has left it. -/
def Event.flag : Event → Option Bool
  | .solved _ _ halted | .interrupted _ halted => some halted
  | _ => none

def Event.Halts (e : Event) : Prop := e.flag = some true

/-- A line is read, or a query is completed, entered, obeyed or sent. -/
def Event.Proceeds : Event → Prop
  | .readLine _ _ | .completed _ | .remembered _ | .commanded _ | .solved _ _ _ => True
  | _ => False

/-- An interrupt is served. -/
def Event.Serves : Event → Prop
  | .interrupted _ _ => True
  | _ => False

/-- A call of the engine that may change the flag comes to nothing. -/
def Event.Fails : Event → Prop
  | .solved _ result _ | .interrupted result _ => result.isOk = false
  | _ => False

theorem Event.Fails.halts {e : Event} (h : e.Fails) (hflag : e.flag ≠ some false) : e.Halts := by
  cases e with
  | solved query result halted =>
    cases halted with
    | false => exact absurd rfl hflag
    | true => rfl
  | interrupted result halted =>
    cases halted with
    | false => exact absurd rfl hflag
    | true => rfl
  | _ => exact h.elim

/-- The halt flag behind these events. -/
def haltFlag (before : Bool) : Journal → Bool
  | [] => before
  | e :: t => e.flag.getD (haltFlag before t)

/-- Where a session proceeded, the flag was down. -/
def Heeded (before : Bool) : Journal → Prop
  | [] => True
  | e :: t => (e.Proceeds → haltFlag before t = false) ∧ Heeded before t

/-- The query read last, unless it has been taken up. -/
def unhandled : Journal → Option String
  | [] => none
  | .completed query :: _ => some query
  | .entered _ :: _ | .solved _ _ _ :: _ => none
  | _ :: t => unhandled t

/-- The last call of the engine failed, or the display of its solutions has not come to its end. -/
def Broken : Journal → Prop
  | [] => False
  | .solved _ _ _ :: _ => True
  | .interrupted result _ :: _ => result.isOk = false
  | .paged _ :: _ => False
  | _ :: t => Broken t

/-- The engine leaves the flag up once it is up. -/
def Engine.NeverClears (ε : Type) {τ : Type} [Engine ε τ] : Prop :=
  ∀ (e : ε) (state : SessionState), state.halted = true →
    (Engine.solve (e, state)).2.2.halted = true ∧ (Engine.interrupt (e, state)).2.2.halted = true

theorem ScriptedEngine.neverClears : Engine.NeverClears ScriptedEngine := by
  intro e state hhalted
  have hinterrupt : (Engine.interrupt (e, state)).2.2.halted = true := by
    simp only [Engine.interrupt, hhalted, Bool.true_or]
  refine ⟨?_, hinterrupt⟩
  simp only [Engine.solve, solve]
  cases e.replies.head?.getD defaultReply <;> first | exact hhalted | rfl

theorem FactEngine.neverClears : Engine.NeverClears FactEngine := by
  intro e state hhalted
  refine ⟨?_, hhalted⟩
  simp only [Engine.solve, solve]
  cases Directive.parse state.query with
  | error error => exact hhalted
  | ok directive => cases directive <;> first | exact hhalted | rfl

namespace Journal

variable {j j' : Journal}

theorem unhandled_of_adds (h : Adds Event.Calm j j') : unhandled j' = unhandled j := by
  obtain ⟨t, rfl, ht⟩ := h
  induction t with
  | nil => rfl
  | cons e t ih =>
    rw [List.cons_append]
    have he := ht e (by simp)
    have hrest := ih fun x hx => ht x (by simp [hx])
    cases e <;> first | exact hrest | exact he.elim

theorem broken_of_adds (h : Adds Event.Calm j j') (hj : Broken j) : Broken j' := by
  obtain ⟨t, rfl, ht⟩ := h
  induction t with
  | nil => exact hj
  | cons e t ih =>
    rw [List.cons_append]
    have he := ht e (by simp)
    have hrest := ih fun x hx => ht x (by simp [hx])
    cases e <;> first | exact hrest | exact he.elim

theorem unhandled_append {t : List Event} {query : String} (h : unhandled t = some query)
    (j : Journal) : unhandled (t ++ j) = some query := by
  induction t with
  | nil => cases h
  | cons e t ih => cases e <;> first | exact ih h | exact h

/-- A broken run broke at the call `e`, in its display, or at a call behind it. -/
theorem broken_cases {later rest : List Event} {e : Event} (h : Broken (later ++ e :: rest))
    (he : e.Halts) (hquiet : ∀ x ∈ later, ¬ x.Proceeds) :
    (∃ x ∈ e :: later, x.Fails) ∨
      (∃ query result, e = .solved query result true) ∧ ∀ summary, .paged summary ∉ later := by
  induction later with
  | nil =>
    cases e with
    | solved query result halted =>
      obtain rfl := Option.some.inj he
      exact .inr ⟨⟨query, result, rfl⟩, nofun⟩
    | interrupted result halted => exact .inl ⟨.interrupted result halted, by simp, h⟩
    | _ => cases he
  | cons y later ih =>
    have hrest (hbroken : Broken (later ++ e :: rest)) (hy : ∀ summary, y ≠ .paged summary) :
        (∃ x ∈ e :: y :: later, x.Fails) ∨
          (∃ query result, e = .solved query result true) ∧
            ∀ summary, .paged summary ∉ y :: later := by
      rcases ih hbroken fun x hx => hquiet x (by simp [hx]) with ⟨x, hx, hfails⟩ | ⟨hsolved, hpaged⟩
      · exact .inl ⟨x, by simp only [List.mem_cons] at hx ⊢; tauto, hfails⟩
      · refine .inr ⟨hsolved, fun summary hmem => ?_⟩
        rcases List.mem_cons.1 hmem with hmem | hmem
        · exact hy summary hmem.symm
        · exact hpaged summary hmem
    cases y with
    | solved query result halted =>
      exact (hquiet (.solved query result halted) (by simp) trivial).elim
    | interrupted result halted => exact .inl ⟨.interrupted result halted, by simp, h⟩
    | paged summary => exact h.elim
    | _ => exact hrest h nofun

theorem suffix_of_append {u t earlier : List Event} {e : Event} (hu : ∀ x ∈ u, x ≠ e)
    (h : e :: earlier <:+ u ++ t) : e :: earlier <:+ t := by
  induction u with
  | nil => exact h
  | cons x u ih =>
    rcases List.suffix_cons_iff.1 h with h | h
    · exact absurd (List.cons.inj h).1.symm (hu x (by simp))
    · exact ih (fun y hy => hu y (by simp [hy])) h

/-- An event stands in a journal at the end of what was added or among what was there before. -/
theorem suffix_cases {u t earlier : List Event} {e x : Event} (hu : ∀ y ∈ u, y = .raised)
    (hx : x ≠ .raised) (h : x :: earlier <:+ u ++ e :: t) :
    (x = e ∧ earlier = t) ∨ x :: earlier <:+ t := by
  have hne : ∀ y ∈ u, y ≠ x := fun y hy heq => hx (heq ▸ hu y hy)
  rcases List.suffix_cons_iff.1 (suffix_of_append hne h) with h | h
  · exact .inl (List.cons.inj h)
  · exact .inr h

end Journal

/-- A query that was read and not taken up is the last entry of the history. -/
def Dialogue.Settled {κ ο : Type} (d : Dialogue κ ο) : Prop :=
  ∀ query, unhandled d.journal = some query → d.history.entries.getLast? = some (stripped query)

namespace Dialogue

variable {κ ο : Type} [Console κ] [Output ο] {d d' : Dialogue κ ο} {e : Event}

omit [Console κ] [Output ο] in
theorem Settled.of_adds (h : d.Settled) (hadds : Journal.Adds Event.Calm d.journal d'.journal)
    (hhistory : d'.history = d.history) : d'.Settled := by
  intro query hquery
  rw [Journal.unhandled_of_adds hadds] at hquery
  rw [hhistory]
  exact h query hquery

omit [Console κ] [Output ο] in
theorem settled_of_unhandled (h : unhandled d.journal = none) : d.Settled := by
  intro query hquery
  rw [h] at hquery
  cases hquery

omit [Console κ] [Output ο] in
theorem note_adds (e : Event) (d : Dialogue κ ο) :
    Journal.Adds Event.Calm (e :: d.journal) (d.note e).journal :=
  (journal_note e d).mono fun _ hx => hx ▸ trivial

theorem Step.adds (h : Step e d d') : Journal.Adds Event.Calm (e :: d.journal) d'.journal :=
  h.journal.mono fun _ hx => hx ▸ trivial

/-- The engine is not called in a dialogue. -/
theorem Step.not_serves (h : Step e d d') : ¬ e.Serves := by
  cases h <;> exact id

omit [Output ο] in
theorem triple_readQuery_settled (prompt : String) (fuel : Nat) {P : Dialogue κ ο → Prop} :
    Triple P (readQuery prompt fuel : Operation (Dialogue κ ο) QueryInput)
      (fun input d => ∀ query, input = .query query → d.Settled) fun _ _ => True := by
  have hcollect : Triple P (collectLines prompt fuel "" : Operation (Dialogue κ ο) QueryInput)
      (fun input _ => ∀ query, input = .query query → stripped query ≠ "") fun _ _ => True := by
    refine triple_of_exec (fun d input d' _ hrun => ?_) fun _ _ _ _ _ => trivial
    rintro query rfl
    exact collectLines_query hrun
  refine triple_bind hcollect fun input => ?_
  cases input with
  | endOfInput => exact triple_pure _ fun _ _ _ hquery => by cases hquery
  | query text =>
    have hmark : Triple
        (fun _ => ∀ query, QueryInput.query text = .query query → stripped query ≠ "")
        (mark (.completed text) : Operation (Dialogue κ ο) Unit)
        (fun _ d => unhandled d.journal = some text ∧ stripped text ≠ "") fun _ _ => True :=
      triple_modify _ fun d hd => ⟨Journal.unhandled_of_adds (note_adds _ d), hd text rfl⟩
    have hrecord : Triple
        (fun d : Dialogue κ ο => unhandled d.journal = some text ∧ stripped text ≠ "")
        (record text) (fun _ => Settled) fun _ _ => True := by
      rintro d ⟨hopen, hne⟩
      have hentry : History.entryOf text = some (stripped text) := by rw [entryOf_eq, if_neg hne]
      have hsettled (console : κ) : Settled (note (.remembered (stripped text))
          { d with console, history := d.history.add (stripped text) }) := by
        intro query hquery
        rw [Journal.unhandled_of_adds (note_adds _ _)] at hquery
        obtain rfl := Option.some.inj (hopen.symm.trans hquery)
        rw [history_note, History.entries_add, List.getLast?_concat]
      simp only [record, hentry, exec_ofCall]
      cases (Console.remember (stripped text) d.console).1 with
      | ok a => exact hsettled _
      | error error => trivial
    exact triple_bind hmark fun _ => triple_bind hrecord fun _ => triple_pure _ fun _ hd _ _ => hd

end Dialogue

namespace Paging

variable {τ κ ο α : Type} [SolutionStream τ] [Console κ] [Output ο]

theorem CalmStep.adds {p p' : Paging τ κ ο} (h : CalmStep p p') :
    Journal.Adds Event.Calm p.dialogue.journal p'.dialogue.journal := by
  obtain ⟨e, he, hstep⟩ := h
  refine (Journal.Adds.cons he).trans ?_
  cases hstep with
  | dialogue hstep => exact hstep.adds
  | pulled => exact Dialogue.note_adds _ _
  | abandoned => exact Dialogue.note_adds _ _

/-- A display that stops early leaves no mark of its end. -/
theorem triple_page_broken (fuel : Nat) :
    Triple (fun p => Broken p.dialogue.journal)
      (page fuel : Operation (Paging τ κ ο) PageSummary) (fun _ _ => True)
      fun _ p => Broken p.dialogue.journal := by
  have hcalm {α : Type} {op : Operation (Paging τ κ ο) α} (h : Within CalmStep op) :
      Triple (fun p => Broken p.dialogue.journal) op (fun _ p => Broken p.dialogue.journal)
        fun _ p => Broken p.dialogue.journal :=
    h.triple fun _ _ hstep hp => Journal.broken_of_adds hstep.adds hp
  refine triple_bind (hcalm (within_showFrom fuel 0 0)) fun summary => ?_
  refine triple_bind (hcalm (within_say _)) fun _ => ?_
  refine triple_bind (hcalm (within_onDialogue Dialogue.calm_flush)) fun _ => ?_
  intro p _
  trivial

end Paging

namespace Session

variable {ε τ κ ο α : Type} [Engine ε τ] [Console κ] [Output ο]
variable {s s' s₀ : Session ε κ ο} {e : Event}

/-- What holds when an event is about to happen: the flag is down if the session proceeds, and when
an interrupt is served a query read before has been entered. -/
structure Guarded (e : Event) (s : Session ε κ ο) : Prop where
  proceeds : e.Proceeds → s.state.halted = false
  serves : e.Serves → s.dialogue.Settled

/-- A step that happens when it may. -/
def GuardedStep (s s' : Session ε κ ο) : Prop := ∃ e, s.Guarded e ∧ Step e s s'

def Reached (s₀ s : Session ε κ ο) : Prop := ReflTransGen GuardedStep s₀ s

/-- A step of a session that is awake, and stays so. -/
def StillStep (s s' : Session ε κ ο) : Prop := ∃ e, ¬ e.Serves ∧ s'.state = s.state ∧ Step e s s'

theorem CalmStep.guarded (h : CalmStep s s') : GuardedStep s s' := by
  obtain ⟨e, he, hstep⟩ := h
  refine ⟨e, ⟨fun hproceeds => ?_, fun hserves => ?_⟩, hstep⟩
  · cases e <;> first | exact he.elim | exact hproceeds.elim
  · cases e <;> first | exact he.elim | exact hserves.elim

theorem Step.adds (h : Step e s s') :
    Journal.Adds Event.Calm (e :: s.dialogue.journal) s'.dialogue.journal :=
  h.journal.mono fun _ hx => hx ▸ trivial

theorem CalmStep.adds (h : CalmStep s s') :
    Journal.Adds Event.Calm s.dialogue.journal s'.dialogue.journal := by
  obtain ⟨e, he, hstep⟩ := h
  exact (Journal.Adds.cons he).trans hstep.adds

/-- The engine's calls alone change the flag, and tell how they leave it. -/
theorem Step.halted (h : Step e s s') : s'.state.halted = e.flag.getD s.state.halted := by
  cases h with
  | dialogue h => cases h <;> rfl
  | paging h =>
    cases h with
    | dialogue h => cases h <;> rfl
    | _ => rfl
  | _ => rfl

section Triples

/-- Why a run may stop other than by the halt flag: it was cut short, the flag is down, a call of
the engine or the display of its solutions failed, or the engine was not called before. -/
inductive Excused (s₀ : Session ε κ ο) : Stop → Session ε κ ο → Prop
  | unfinished {s : Session ε κ ο} (h : Reached s₀ s) : Excused s₀ .unfinished s
  | awake {stop : Stop} {s : Session ε κ ο} (h : Reached s₀ s) (hs : s.state.halted = false) :
    Excused s₀ stop s
  | broken {stop : Stop} {s : Session ε κ ο} (h : Reached s₀ s) (hs : Broken s.dialogue.journal) :
    Excused s₀ stop s
  | uncalled {stop : Stop} {s : Session ε κ ο} (h : Reached s₀ s)
    (hs : Journal.Adds (·.flag = none) s₀.dialogue.journal s.dialogue.journal) :
    Excused s₀ stop s

theorem Excused.reached {stop : Stop} (h : Excused s₀ stop s) : Reached s₀ s := by
  cases h <;> assumption

variable {X : Session ε κ ο → Prop} {op : Operation (Session ε κ ο) α}

theorem triple_calm (h : Within CalmStep op) (hX : ∀ s s', CalmStep s s' → X s → X s') :
    Triple (fun s => Reached s₀ s ∧ X s) op (fun _ s => Reached s₀ s ∧ X s)
      fun _ s => Reached s₀ s ∧ X s :=
  h.triple fun s s' hstep hs => ⟨hs.1.tail hstep.guarded, hX s s' hstep hs.2⟩

/-- While the flag is down a session may proceed. -/
theorem triple_still (h : Within StillStep op) :
    Triple (fun s => Reached s₀ s ∧ s.state.halted = false) op
      (fun _ s => Reached s₀ s ∧ s.state.halted = false) (Excused s₀) := by
  have hawake : Triple (fun s => Reached s₀ s ∧ s.state.halted = false) op
      (fun _ s => Reached s₀ s ∧ s.state.halted = false)
      fun _ s => Reached s₀ s ∧ s.state.halted = false := by
    refine h.triple fun s s' hstep hs => ?_
    obtain ⟨e, he, hstate, hstep⟩ := hstep
    refine ⟨hs.1.tail ⟨e, ⟨fun _ => hs.2, fun hserves => absurd hserves he⟩, hstep⟩, ?_⟩
    rw [hstate]
    exact hs.2
  exact hawake.of_error fun _ _ hs => .awake hs.1 hs.2

theorem still_of_calm (h : Within CalmStep op) : Within StillStep op := by
  refine h.mono fun s s' ⟨e, he, hstep⟩ =>
    ⟨e, fun hserves => ?_, hstep.state_of_idle he.idle, hstep⟩
  cases e <;> first | exact he.elim | exact hserves.elim

theorem still_onDialogue {op : Operation (Dialogue κ ο) α} (h : Within Dialogue.AnyStep op) :
    Within StillStep (onDialogue op : Operation (Session ε κ ο) α) :=
  within_focus h (fun _ => rfl) fun _ _ _ ⟨e, hstep⟩ => ⟨e, hstep.not_serves, rfl, .dialogue hstep⟩

omit [Console κ] [Output ο] in
theorem triple_drive {call : Call (ε × SessionState) α}
    {event : Except SessionError Unit → Bool → Event} {Q : α → Session ε κ ο → Prop}
    {E : Stop → Session ε κ ο → Prop}
    (hok : ∀ s a, X s → (report call s).1.isOk = true → Q a (exec (drive call event) s).2)
    (herror : ∀ s error, X s → (report call s).1.isOk = false →
      E (.fault error) (exec (drive call event) s).2) : Triple X (drive call event) Q E := by
  refine triple_ofCall (fun s a hs hcall => hok s a hs ?_) fun s error hs hcall =>
    herror s error hs ?_
  · rw [report, show (call (s.engine, s.state)).1 = .ok a from hcall]
    rfl
  · rw [report, show (call (s.engine, s.state)).1 = .error error from hcall]
    rfl

theorem triple_served :
    Triple (fun s => Reached s₀ s ∧ s.dialogue.Settled)
      (drive Engine.interrupt .interrupted : Operation (Session ε κ ο) Unit)
      (fun _ => Reached s₀) fun _ s => Reached s₀ s ∧ Broken s.dialogue.journal := by
  have hreached (s : Session ε κ ο) (hs : Reached s₀ s ∧ s.dialogue.Settled) :
      Reached s₀ (exec (drive Engine.interrupt .interrupted) s).2 :=
    hs.1.tail ⟨_, ⟨False.elim, fun _ => hs.2⟩, .interrupted s⟩
  refine triple_drive (fun s _ hs _ => hreached s hs) fun s error hs herror => ⟨hreached s hs, ?_⟩
  exact Journal.broken_of_adds (Step.interrupted s).adds herror

/-- A pending interrupt is served where no query waits, or only one that has been entered. -/
theorem triple_serviceInterrupts_settled :
    Triple (fun s => Reached s₀ s ∧ s.dialogue.Settled)
      (serviceInterrupts : Operation (Session ε κ ο) Unit)
      (fun _ => Reached s₀) fun _ s => Reached s₀ s ∧ Broken s.dialogue.journal := by
  intro s hs
  rw [exec_serviceInterrupts]
  by_cases h : s.dialogue.interrupt.isRaised
  · rw [if_pos h]
    have htaken : CalmStep s { s with
        dialogue := Dialogue.note .taken { s.dialogue with interrupt := ⟨false⟩ } } :=
      (Step.dialogue (.taken s.dialogue h)).calm trivial
    exact triple_served _ ⟨hs.1.tail htaken.guarded,
      hs.2.of_adds htaken.adds (Dialogue.history_note _ _)⟩
  · rw [if_neg h]
    exact hs.1

theorem triple_page (solutions : τ) (fuel : Nat) :
    Triple
      (fun s => (Reached s₀ s ∧ unhandled s.dialogue.journal = none) ∧ Broken s.dialogue.journal)
      (page solutions fuel : Operation (Session ε κ ο) PageSummary)
      (fun _ s => Reached s₀ s ∧ s.dialogue.Settled)
      fun _ s => Reached s₀ s ∧ Broken s.dialogue.journal := by
  have hshown : Triple (fun s => Reached s₀ s ∧ unhandled s.dialogue.journal = none)
      (page solutions fuel : Operation (Session ε κ ο) PageSummary)
      (fun _ s => Reached s₀ s ∧ unhandled s.dialogue.journal = none)
      fun _ s => Reached s₀ s ∧ unhandled s.dialogue.journal = none := by
    refine (display_page solutions fuel).triple fun s s' ⟨e, he, hstep⟩ hs => ?_
    rcases he with he | ⟨summary, rfl⟩
    · have hcalm : CalmStep s s' := hstep.calm he
      exact ⟨hs.1.tail hcalm.guarded, (Journal.unhandled_of_adds hcalm.adds).trans hs.2⟩
    · exact ⟨hs.1.tail ⟨_, ⟨False.elim, False.elim⟩, hstep⟩,
        (Journal.unhandled_of_adds hstep.adds).trans hs.2⟩
  have hbroken : Triple (fun s : Session ε κ ο => Broken s.dialogue.journal)
      (page solutions fuel) (fun _ _ => True) fun _ s => Broken s.dialogue.journal :=
    triple_page_of (P := fun p => Broken p.dialogue.journal) (Q := fun _ _ => True)
      (E := fun _ d => Broken d.journal) (Paging.triple_page_broken fuel) solutions
  exact (hshown.and hbroken).mono (fun _ hs => hs)
    (fun _ s hs => ⟨hs.1.1, Dialogue.settled_of_unhandled hs.1.2⟩) fun _ s hs => ⟨hs.1.1, hs.2⟩

/-- A query is sent while the flag is down, whatever the flag is afterwards. -/
theorem triple_dispatch_awake (query : String) (fuel : Nat) :
    Triple (fun s => Reached s₀ s ∧ s.state.halted = false)
      (dispatch query fuel : Operation (Session ε κ ο) Unit) (fun _ => Reached s₀)
      fun _ s => Reached s₀ s ∧ Broken s.dialogue.journal := by
  have hsolved (s : Session ε κ ο) (hs : Reached s₀ s ∧ s.state.halted = false) :
      Reached s₀ (exec (drive Engine.solve (.solved query)) (s.pose query)).2 ∧
        unhandled (exec (drive Engine.solve (.solved query)) (s.pose query)).2.dialogue.journal =
          none ∧
        Broken (exec (drive Engine.solve (.solved query)) (s.pose query)).2.dialogue.journal := by
    have hstep := Step.solved query s
    refine ⟨hs.1.tail ⟨_, ⟨fun _ => hs.2, False.elim⟩, hstep⟩, ?_, ?_⟩
    · exact Journal.unhandled_of_adds hstep.adds
    · exact Journal.broken_of_adds hstep.adds trivial
  have hdrive : Triple
      (fun s => ∃ s₁ : Session ε κ ο, s = s₁.pose query ∧ Reached s₀ s₁ ∧ s₁.state.halted = false)
      (drive Engine.solve (.solved query))
      (fun _ s => (Reached s₀ s ∧ unhandled s.dialogue.journal = none) ∧
        Broken s.dialogue.journal)
      fun _ s => Reached s₀ s ∧ Broken s.dialogue.journal := by
    refine triple_drive ?_ ?_
    · rintro - solutions ⟨s₁, rfl, hs⟩ -
      exact and_assoc.2 (hsolved s₁ hs)
    · rintro - error ⟨s₁, rfl, hs⟩ -
      exact ⟨(hsolved s₁ hs).1, (hsolved s₁ hs).2.2⟩
  have hrest (solutions : τ) : Triple
      (fun s => (Reached s₀ s ∧ unhandled s.dialogue.journal = none) ∧ Broken s.dialogue.journal)
      (do
        let summary ← page solutions fuel
        if summary.ending = .interrupted then serviceInterrupts : Operation (Session ε κ ο) Unit)
      (fun _ => Reached s₀) fun _ s => Reached s₀ s ∧ Broken s.dialogue.journal :=
    triple_bind (triple_page solutions fuel) fun _ =>
      triple_ite (fun _ => triple_serviceInterrupts_settled) fun _ => triple_pure _ fun _ hs => hs.1
  exact triple_bind (triple_modify _ fun s hs => ⟨s, rfl, hs⟩) fun _ => triple_bind hdrive hrest

theorem triple_execute_awake (query : String) (fuel : Nat) :
    Triple (fun s => Reached s₀ s ∧ s.state.halted = false)
      (execute query fuel : Operation (Session ε κ ο) Unit) (fun _ => Reached s₀)
      (Excused s₀) := by
  have hdispatch (query : String) : Triple (fun s => Reached s₀ s ∧ s.state.halted = false)
      (dispatch query fuel : Operation (Session ε κ ο) Unit) (fun _ => Reached s₀) (Excused s₀) :=
    (triple_dispatch_awake query fuel).of_error fun _ _ hs => .broken hs.1 hs.2
  have hsay (text : String) : Triple (fun s => Reached s₀ s ∧ s.state.halted = false)
      (say text : Operation (Session ε κ ο) Unit) (fun _ => Reached s₀) (Excused s₀) :=
    (triple_still (still_of_calm (calm_say text))).mono (fun _ hs => hs) (fun _ _ hs => hs.1)
      fun _ _ hs => hs
  have hhistory : Within StillStep (history : Operation (Session ε κ ο) History) :=
    within_bind within_get fun _ => within_pure _
  have hrerun (n : Nat) : Triple (fun s => Reached s₀ s ∧ s.state.halted = false)
      (rerun n fuel : Operation (Session ε κ ο) Unit) (fun _ => Reached s₀) (Excused s₀) := by
    refine triple_bind (triple_still hhistory) fun history => ?_
    cases history.get? n with
    | none => exact hsay _
    | some entry =>
      refine triple_ite (fun _ => hsay _) fun _ => ?_
      refine triple_bind (triple_still (still_of_calm (calm_say _))) fun _ => ?_
      exact triple_bind (triple_still (still_onDialogue (Dialogue.within_record entry))) fun _ =>
        hdispatch _
  unfold execute
  cases MetaCommand.parse query with
  | none => exact hdispatch query
  | some command =>
    have hnote : Within StillStep (modify fun s =>
        { s with dialogue := s.dialogue.note (.commanded command) } :
        Operation (Session ε κ ο) Unit) :=
      within_of_step fun s => ⟨_, id, rfl, .commanded command s⟩
    refine triple_bind (triple_still hnote) fun _ => ?_
    cases command with
    | history => exact triple_bind (triple_still hhistory) fun _ => hsay _
    | help => exact hsay _
    | rerun n => exact hrerun n

omit [Engine ε τ] [Console κ] [Output ο] in
theorem settled_enter (phase : Phase) (s : Session ε κ ο) :
    (exec (enter phase) s).2.dialogue.Settled :=
  Dialogue.settled_of_unhandled (Journal.unhandled_of_adds (Dialogue.note_adds _ _))

theorem triple_enter_reached {E : Stop → Session ε κ ο → Prop} (X : SessionState → Prop)
    (phase : Phase) :
    Triple (fun s => Reached s₀ s ∧ X s.state) (enter phase : Operation (Session ε κ ο) Unit)
      (fun _ s => Reached s₀ s ∧ s.dialogue.Settled ∧ X s.state) E :=
  triple_modify _ fun s hs =>
    ⟨hs.1.tail ⟨_, ⟨False.elim, False.elim⟩, .entered phase s⟩, settled_enter phase s, hs.2⟩

/-- How a run ends: at the end of the input only with the flag down. -/
def Ended (s₀ : Session ε κ ο) (how : SessionEnd) (s : Session ε κ ο) : Prop :=
  Reached s₀ s ∧ (how = .endOfInput → s.state.halted = false)

theorem triple_ending_reached {E : Stop → Session ε κ ο → Prop} (how : SessionEnd) :
    Triple (Ended s₀ how) (do enter .halted; return how : Operation (Session ε κ ο) SessionEnd)
      (Ended s₀) E :=
  triple_bind (triple_enter_reached (fun state => how = .endOfInput → state.halted = false) .halted)
    fun _ => triple_pure _ fun _ hs => ⟨hs.1, hs.2.2⟩

/-- Where the flag is looked at, the session halts or goes on with the flag down. -/
theorem triple_unless_halted {next : Operation (Session ε κ ο) SessionEnd}
    (hnext : Triple (fun s => Reached s₀ s ∧ s.state.halted = false) next (Ended s₀) (Excused s₀)) :
    Triple (Reached s₀)
      (do
        if ← isHalted then
          enter .halted
          return .halted
        next) (Ended s₀) (Excused s₀) := by
  refine triple_bind (Q := fun halted s => Reached s₀ s ∧ halted = s.state.halted)
    (fun s hs => ⟨hs, rfl⟩) fun halted => triple_ite (fun _ => ?_) fun hawake => ?_
  · exact (triple_ending_reached _).of_pre fun s hs => ⟨hs.1, nofun⟩
  · exact hnext.of_pre fun s hs => ⟨hs.1, by simpa [← hs.2] using hawake⟩

theorem triple_serve_halt (fuel : Nat) :
    Triple (Reached s₀) (serve fuel : Operation (Session ε κ ο) SessionEnd) (Ended s₀)
      (Excused s₀) := by
  have henter (phase : Phase) : Triple (Reached s₀)
      (enter phase : Operation (Session ε κ ο) Unit)
      (fun _ s => Reached s₀ s ∧ s.dialogue.Settled) (Excused s₀) :=
    (triple_enter_reached (fun _ => True) phase).mono (fun _ hs => ⟨hs, trivial⟩)
      (fun _ _ hs => ⟨hs.1, hs.2.1⟩) fun _ _ hs => hs
  have hservice : Triple (fun s => Reached s₀ s ∧ s.dialogue.Settled)
      (serviceInterrupts : Operation (Session ε κ ο) Unit) (fun _ => Reached s₀) (Excused s₀) :=
    triple_serviceInterrupts_settled.of_error fun _ _ hs => .broken hs.1 hs.2
  have hprompt : Within CalmStep (ask Engine.prompt .prompted : Operation (Session ε κ ο) String) :=
    within_of_step fun s => (Step.prompted s).calm trivial
  have hread (prompt : String) (fuel : Nat) : Triple
      (fun s => Reached s₀ s ∧ s.state.halted = false)
      (onDialogue (Dialogue.readQuery prompt fuel) : Operation (Session ε κ ο) QueryInput)
      (fun input s => (Reached s₀ s ∧ s.state.halted = false) ∧
        ∀ query, input = .query query → s.dialogue.Settled) (Excused s₀) := by
    have hsettled := triple_dialogue (ε := ε)
      (Dialogue.triple_readQuery_settled (κ := κ) (ο := ο) prompt fuel (P := fun _ => True))
    have hstill := still_onDialogue (ε := ε)
      (Dialogue.within_readQuery (κ := κ) (ο := ο) prompt fuel)
    exact ((triple_still hstill).and hsettled).mono (fun _ hs => ⟨hs, trivial⟩)
      (fun _ _ hs => hs) fun _ _ hs => hs.1
  induction fuel with
  | zero => exact fun s hs => .unfinished hs
  | succ fuel ih =>
    refine triple_bind (henter _) fun _ => triple_bind hservice fun _ => ?_
    refine triple_unless_halted ?_
    refine triple_bind (triple_still (still_of_calm hprompt)) fun prompt => ?_
    refine triple_bind (triple_still (still_of_calm (within_calm Dialogue.calm_flush))) fun _ => ?_
    refine triple_bind (hread prompt _) fun input => ?_
    cases input with
    | endOfInput =>
      have hsay : Triple (fun s => (Reached s₀ s ∧ s.state.halted = false) ∧
            ∀ query, QueryInput.endOfInput = .query query → s.dialogue.Settled)
          (say "\n" : Operation (Session ε κ ο) Unit) (fun _ => Ended s₀ .endOfInput)
          (Excused s₀) :=
        (triple_still (still_of_calm (calm_say _))).mono (fun _ hs => hs.1)
          (fun _ _ hs => ⟨hs.1, fun _ => hs.2⟩) fun _ _ hs => hs
      exact triple_bind hsay fun _ => triple_ending_reached _
    | query query =>
      refine Triple.of_pre (P := fun s => Reached s₀ s ∧ s.dialogue.Settled) ?_
        fun s hs => ⟨hs.1.1, hs.2 query rfl⟩
      refine triple_bind hservice fun _ => triple_unless_halted ?_
      refine triple_bind (Q := fun _ s => Reached s₀ s ∧ s.state.halted = false) ?_ fun _ =>
        triple_bind (triple_execute_awake query _) fun _ => ih
      exact (triple_enter_reached (·.halted = false) .executing).mono (fun _ hs => hs)
        (fun _ _ hs => ⟨hs.1, hs.2.2⟩) fun _ _ hs => hs

theorem triple_phases_halt (fuel : Nat) :
    Triple (· = s₀) (phases fuel : Operation (Session ε κ ο) SessionEnd) (Ended s₀)
      (Excused s₀) := by
  have hcalm (e : Event) (he : e.Calm) : e.flag = none := by
    cases e <;> first | rfl | exact he.elim
  have hbegin : Triple (· = s₀) (enter .starting : Operation (Session ε κ ο) Unit)
      (fun _ s => Reached s₀ s ∧
        Journal.Adds (·.flag = none) s₀.dialogue.journal s.dialogue.journal) (Excused s₀) := by
    refine triple_modify _ fun s hs => ?_
    subst hs
    refine ⟨.single ⟨_, ⟨False.elim, False.elim⟩, .entered .starting s⟩, ?_⟩
    have hfirst : Journal.Adds (·.flag = none) s.dialogue.journal
        (.entered .starting :: s.dialogue.journal) := .cons rfl
    exact hfirst.trans ((Step.entered .starting s).adds.mono hcalm)
  have hstart : Triple (fun s => Reached s₀ s ∧
        Journal.Adds (·.flag = none) s₀.dialogue.journal s.dialogue.journal)
      (start : Operation (Session ε κ ο) Unit) (fun _ s => Reached s₀ s ∧ True) (Excused s₀) :=
    (triple_calm calm_start fun _ _ hstep hs => hs.trans (hstep.adds.mono hcalm)).mono
      (fun _ hs => hs) (fun _ _ hs => ⟨hs.1, trivial⟩) fun _ _ hs => .uncalled hs.1 hs.2
  refine triple_bind hbegin fun _ => triple_bind hstart fun _ => ?_
  refine triple_bind (triple_enter_reached (fun _ => True) .ready) fun _ => ?_
  exact (triple_serve_halt fuel).of_pre fun _ hs => hs.1

end Triples

section Traces

/-- The events `t` of a run up to now, and what they tell about the flag. -/
structure Trace (s₀ : Session ε κ ο) (t : List Event) (s : Session ε κ ο) : Prop where
  journal : s.dialogue.journal = t ++ s₀.dialogue.journal
  flag : s.state.halted = haltFlag s₀.state.halted t
  heeded : Heeded s₀.state.halted t

/-- Behind a call that raised the flag, for an engine that never clears it. -/
def Behind (x e : Event) : Prop := e.Halts → ¬ x.Proceeds ∧ x.flag ≠ some false

structure HaltTrace (s₀ : Session ε κ ο) (t : List Event) (s : Session ε κ ο) : Prop where
  sticky : ∀ e ∈ t, e.Halts → s.state.halted = true
  behind : t.Pairwise Behind
  recorded : ∀ e earlier, e :: earlier <:+ t → e.Halts → e.Serves → ∀ query,
    unhandled earlier = some query → s.dialogue.history.entries.getLast? = some (stripped query)

theorem haltFlag_of_raised {u : List Event} (hu : ∀ e ∈ u, e = .raised) (before : Bool)
    (t : List Event) : haltFlag before (u ++ t) = haltFlag before t := by
  induction u with
  | nil => rfl
  | cons e u ih =>
    rw [hu e (by simp)]
    exact ih fun x hx => hu x (by simp [hx])

theorem heeded_of_quiet {u t : List Event} {before : Bool} (hu : ∀ e ∈ u, ¬ e.Proceeds)
    (h : Heeded before t) : Heeded before (u ++ t) := by
  induction u with
  | nil => exact h
  | cons e u ih =>
    exact ⟨fun hproceeds => absurd hproceeds (hu e (by simp)), ih fun x hx => hu x (by simp [hx])⟩

theorem pairwise_of_quiet {u t : List Event} (hu : ∀ e ∈ u, ¬ e.Proceeds ∧ e.flag = none)
    (h : t.Pairwise Behind) : (u ++ t).Pairwise Behind := by
  induction u with
  | nil => exact h
  | cons e u ih =>
    obtain ⟨hproceeds, hflag⟩ := hu e (by simp)
    refine .cons (fun x _ _ => ⟨hproceeds, ?_⟩) (ih fun x hx => hu x (by simp [hx]))
    rw [hflag]
    exact nofun

theorem Trace.step {t : List Event} (h : Trace s₀ t s) (hguard : s.Guarded e)
    (hstep : Step e s s') :
    ∃ u, (∀ x ∈ u, x = .raised) ∧ Trace s₀ (u ++ e :: t) s' := by
  obtain ⟨u, hu, hraised⟩ := hstep.journal
  refine ⟨u, hraised, by rw [hu, h.journal]; simp, ?_, ?_⟩
  · rw [haltFlag_of_raised hraised, hstep.halted, h.flag]
    rfl
  · refine heeded_of_quiet (fun x hx => by rw [hraised x hx]; exact id)
      ⟨fun hproceeds => ?_, h.heeded⟩
    rw [← h.flag]
    exact hguard.proceeds hproceeds

/-- Entries are made where a session proceeds, and nowhere else. -/
theorem Step.history_of_not_proceeds (h : Step e s s') (he : ¬ e.Proceeds) :
    s'.dialogue.history = s.dialogue.history := by
  rcases h.history_cases with h | ⟨query, entry, rfl, -⟩
  · exact h
  · exact absurd trivial he

theorem Step.halted_of_neverClears (hclears : Engine.NeverClears ε) (h : Step e s s')
    (hs : s.state.halted = true) : s'.state.halted = true := by
  cases h with
  | solved query s => exact (hclears s.engine (s.pose query).state hs).1
  | interrupted s => exact (hclears s.engine s.state hs).2
  | dialogue h => exact hs
  | paging h => exact hs
  | _ => exact hs

theorem HaltTrace.step (hclears : Engine.NeverClears ε) {t u : List Event} (h : HaltTrace s₀ t s)
    (htrace : Trace s₀ t s) (hguard : s.Guarded e) (hstep : Step e s s')
    (hu : ∀ x ∈ u, x = .raised) : HaltTrace s₀ (u ++ e :: t) s' := by
  have hraised {x : Event} (hx : x ∈ u) : ¬ x.Halts := by
    rw [hu x hx]
    exact nofun
  -- Behind a call that raised the flag, the guard lets nothing through that proceeds.
  have hkept {x : Event} (hx : x ∈ t) (hhalts : x.Halts) :
      ¬ e.Proceeds ∧ s'.state.halted = true := by
    have hs := h.sticky x hx hhalts
    refine ⟨fun hproceeds => ?_, hstep.halted_of_neverClears hclears hs⟩
    rw [hguard.proceeds hproceeds] at hs
    cases hs
  refine ⟨fun x hx hhalts => ?_, ?_, fun x earlier hsuffix hhalts hserves query hquery => ?_⟩
  · rcases List.mem_append.1 hx with hx | hx
    · exact absurd hhalts (hraised hx)
    · rcases List.mem_cons.1 hx with rfl | hx
      · rw [hstep.halted, show x.flag = some true from hhalts]
        rfl
      · exact (hkept hx hhalts).2
  · refine pairwise_of_quiet (fun x hx => ?_) (.cons (fun x hx hhalts => ?_) h.behind)
    · rw [hu x hx]
      exact ⟨id, rfl⟩
    · obtain ⟨hproceeds, hhalted⟩ := hkept hx hhalts
      refine ⟨hproceeds, fun hflag => ?_⟩
      rw [hstep.halted, hflag] at hhalted
      cases hhalted
  · have hx : x ≠ .raised := by
      rintro rfl
      exact hserves
    rcases Journal.suffix_cases hu hx hsuffix with ⟨rfl, rfl⟩ | hsuffix
    · have hquiet : ¬ x.Proceeds := by
        cases x <;> first | exact id | exact hserves.elim
      rw [hstep.history_of_not_proceeds hquiet]
      refine hguard.serves hserves query ?_
      rw [htrace.journal]
      exact Journal.unhandled_append hquery _
    · have hquiet := (hkept (hsuffix.subset (by simp)) hhalts).1
      rw [hstep.history_of_not_proceeds hquiet]
      exact h.recorded x earlier hsuffix hhalts hserves query hquery

/-- A guarded run leaves a trace in which the flag was heeded. -/
theorem trace_of_reached (h : Reached s₀ s) :
    ∃ t, Trace s₀ t s ∧ (Engine.NeverClears ε → HaltTrace s₀ t s) := by
  induction h with
  | refl =>
    refine ⟨[], ⟨rfl, rfl, trivial⟩, fun _ => ⟨nofun, .nil, fun e earlier hsuffix => ?_⟩⟩
    cases List.suffix_nil.1 hsuffix
  | tail _ hlast ih =>
    obtain ⟨t, htrace, hhalt⟩ := ih
    obtain ⟨e, hguard, hstep⟩ := hlast
    obtain ⟨u, hu, hnext⟩ := htrace.step hguard hstep
    exact ⟨u ++ e :: t, hnext, fun hclears =>
      (hhalt hclears).step hclears htrace hguard hstep hu⟩

end Traces

/-- Why a run may fault when the call `e` of the engine has left the flag up: that call fails or a
later one that leaves the flag up, or the solutions of the query are not shown to the end. -/
def FaultsAt (later : List Event) (e : Event) : Prop :=
  (∃ x ∈ e :: later, x.Halts ∧ x.Fails) ∨
    (∃ query result, e = .solved query result true) ∧ ∀ summary, .paged summary ∉ later

/-- What follows in a run when the call `e` of the engine has left the flag up: the session neither
reads nor sends anything more, and halts unless it faults. A query that was read before is the last
entry of the history. -/
structure HaltsAt (s : Session ε κ ο) (fuel : Nat) (later : List Event) (e : Event)
    (earlier : List Event) : Prop where
  quiet : ∀ x ∈ later, ¬ x.Proceeds
  outcome : (s.runFor fuel).1 = .ended .halted ∨ (s.runFor fuel).1 = .unfinished ∨
    (∃ error, (s.runFor fuel).1 = .faulted error) ∧ FaultsAt later e
  recorded : e.Serves → ∀ query, unhandled earlier = some query →
    (s.runFor fuel).2.dialogue.history.entries.getLast? = some (stripped query)

/-- Where the run's loop has raised the flag for good, the run is over but for what is under way. -/
theorem loop_halts {fuel : Nat} {t later earlier : List Event} {s₁ : Session ε κ ο}
    {r : Except Stop SessionEnd} (hrun : exec (phases fuel) s = (r, s₁)) (htrace : Trace s t s₁)
    (hhalt : HaltTrace s t s₁) (ht : t = later ++ e :: earlier) (he : e.Halts) :
    Outcome.ofLoop r = .ended .halted ∨ Outcome.ofLoop r = .unfinished ∨
      (∃ error, Outcome.ofLoop r = .faulted error) ∧ FaultsAt later e := by
  have hmem : e ∈ t := by simp [ht]
  have hup := hhalt.sticky e hmem he
  have hbehind : ∀ x ∈ later, Behind x e := fun x hx =>
    (List.pairwise_append.1 (ht ▸ hhalt.behind)).2.2 x hx e (by simp)
  cases r with
  | ok how =>
    have hended := (triple_phases_halt fuel).ok rfl hrun
    cases how with
    | halted => exact .inl rfl
    | endOfInput =>
      rw [hended.2 rfl] at hup
      cases hup
  | error stop =>
    have hexcused := (triple_phases_halt fuel).error rfl hrun
    cases stop with
    | unfinished => exact .inr (.inl rfl)
    | fault error =>
      refine .inr (.inr ⟨⟨error, rfl⟩, ?_⟩)
      cases hexcused with
      | awake _ hs =>
        rw [hs] at hup
        cases hup
      | broken _ hs =>
        rw [htrace.journal, ht, List.append_assoc] at hs
        rcases Journal.broken_cases hs he fun x hx => (hbehind x hx he).1 with
          ⟨x, hx, hfails⟩ | hsolved
        · refine .inl ⟨x, hx, ?_, hfails⟩
          rcases List.mem_cons.1 hx with rfl | hx
          · exact he
          · exact hfails.halts (hbehind x hx he).2
        · exact .inr hsolved
      | uncalled _ hs =>
        -- The call `e` was made, so the run did not stop before the first call.
        obtain ⟨t', ht', hnone⟩ := hs
        obtain rfl := List.append_cancel_right (htrace.journal.symm.trans ht')
        rw [Event.Halts, hnone e hmem] at he
        cases he

/-- Whatever the engine does with its halt flag, a run reads lines and sends queries with the flag
down only, whatever runs went before. For an engine that never clears the flag, the run is over once
a call leaves it up. A console that gives finitely much never leaves a run unfinished. -/
theorem runFor_heeds_halt (s : Session ε κ ο) (fuel : Nat) :
    ReflTransGen GuardedStep s (exec (phases fuel) s).2 ∧
      (∃ t, (s.runFor fuel).2.dialogue.journal = t ++ s.dialogue.journal ∧
        Heeded s.state.halted t ∧
        (Engine.NeverClears ε → ∀ later e earlier, t = later ++ e :: earlier → e.Halts →
          s.HaltsAt fuel later e earlier)) ∧
      ∀ (κ' : Type) [FiniteConsole κ'] [LawfulConsole κ'] (s' : Session ε κ' ο),
        s'.run.1 ≠ .unfinished := by
  have hreached : Reached s (exec (phases fuel) s).2 := by
    cases hrun : exec (phases fuel) s with
    | mk r s₁ =>
      cases r with
      | ok how => exact ((triple_phases_halt fuel).ok rfl hrun).1
      | error stop => exact ((triple_phases_halt fuel).error rfl hrun).reached
  obtain ⟨t, htrace, hhalt⟩ := trace_of_reached hreached
  obtain ⟨c, hc, hclosing⟩ : Journal.Adds (fun e => e.Persists ∨ e.IsOutput)
      (exec (phases fuel) s).2.dialogue.journal (s.runFor fuel).2.dialogue.journal := by
    rcases runFor_cases fuel s with hrun | hrun <;> rw [hrun]
    · exact .refl _
    · exact close_journal _
  have hentries : (s.runFor fuel).2.dialogue.history.entries =
      (exec (phases fuel) s).2.dialogue.history.entries := by
    rcases runFor_cases fuel s with hrun | hrun <;> rw [hrun]
    exact close_entries _
  have hquiet : ∀ e ∈ c, ¬ e.Proceeds ∧ e.flag = none := by
    intro e he
    have := hclosing e he
    cases e <;> first | exact ⟨id, rfl⟩ | exact (this.elim id id).elim
  refine ⟨hreached, ⟨c ++ t, by rw [hc, htrace.journal, List.append_assoc],
    heeded_of_quiet (fun e he => (hquiet e he).1) htrace.heeded, ?_⟩, fun κ' _ _ s' => run_ends s'⟩
  intro hclears later' e earlier ht he
  have hsuffix : e :: earlier <:+ t := by
    refine Journal.suffix_of_append (fun x hx heq => ?_) ⟨later', ht.symm⟩
    rw [← heq, Event.Halts, (hquiet x hx).2] at he
    cases he
  obtain ⟨later, rfl⟩ := hsuffix
  obtain rfl : c ++ later = later' := List.append_cancel_right (by rw [List.append_assoc, ht])
  have hbehind := pairwise_of_quiet hquiet (hhalt hclears).behind
  rw [← List.append_assoc] at hbehind
  refine ⟨fun x hx => ((List.pairwise_append.1 hbehind).2.2 x hx e (by simp) he).1, ?_,
    fun hserves query hquery => ?_⟩
  · rw [(reportsLoop s fuel).outcome]
    rcases loop_halts rfl htrace (hhalt hclears) rfl he with
      houtcome | houtcome | ⟨hfaulted, ⟨x, hx, hfails⟩ | ⟨hsolved, hpaged⟩⟩
    · exact .inl houtcome
    · exact .inr (.inl houtcome)
    · refine .inr (.inr ⟨hfaulted, .inl ⟨x, ?_, hfails⟩⟩)
      simp only [List.mem_cons, List.mem_append] at hx ⊢
      tauto
    · refine .inr (.inr ⟨hfaulted, .inr ⟨hsolved, fun summary hmem => ?_⟩⟩)
      rcases List.mem_append.1 hmem with hmem | hmem
      · exact (hclosing _ hmem).elim id id
      · exact hpaged summary hmem
  · rw [hentries]
    exact (hhalt hclears).recorded e earlier ⟨later, rfl⟩ he hserves query hquery

/-- A session that is interrupted inside a query, by an engine that halts at an interrupt. -/
def stopping : Session ScriptedEngine ScriptedConsole Buffer where
  engine := { haltOnInterrupt := true }
  dialogue :=
    { console := { events := [.line "p", .interrupted, .line "q.", .line "r."] }
      output := {} }

theorem stopping_heeds_halt :
    (∃ later e earlier, (stopping.runFor 6).2.dialogue.journal = later ++ e :: earlier ∧
        e.Halts ∧ stopping.HaltsAt 6 later e earlier) ∧
      stopping.run.1 ≠ .unfinished ∧ (stopping.runFor 6).1 = .ended .halted ∧
      (stopping.runFor 6).2.dialogue.history.entries = ["p\nq."] ∧
      (stopping.runFor 6).2.engine.queries = [] := by
  obtain ⟨-, ⟨t, hjournal, -, hhalts⟩, hends⟩ := runFor_heeds_halt stopping 6
  have hraised : (stopping.runFor 6).2.dialogue.journal.any (·.flag == some true) := by
    decide +kernel
  obtain ⟨e, hmem, hflag⟩ := List.any_eq_true.1 hraised
  have he : e.Halts := eq_of_beq hflag
  obtain ⟨later, earlier, hsplit⟩ := List.append_of_mem hmem
  have ht : t = later ++ e :: earlier := by
    rw [← hsplit, hjournal]
    exact (List.append_nil t).symm
  exact ⟨⟨later, e, earlier, hsplit, he, hhalts ScriptedEngine.neverClears _ _ _ ht he⟩,
    hends ScriptedConsole stopping, by decide +kernel, by decide +kernel, by decide +kernel⟩

end Session

end LogicConsole
