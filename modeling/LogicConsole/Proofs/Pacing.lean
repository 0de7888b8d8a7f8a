import LogicConsole.Proofs.Deliveries

/-! The pace at which solutions are shown. Whatever the stream, the sink and the console do, the
next solution is asked for only while no interrupt is pending, and only if it is the first or the
operator wants more behind the one before it. A display that comes to its end has asked for as many
solutions as it showed and read as many keys as it put questions, and has given up the rest of the
sequence exactly if it left it early. -/
namespace LogicConsole

open Operation Relation

namespace Journal

/-- A solution was shown, the question for more was put, and `key` was the answer. -/
def answered (solution : Solution) (key : Option Char) : Journal :=
  [.wrote "\n" true, .wrote (echo key) true, .readKey (.ok key), .flushed, .wrote moreQuestion true,
    .wrote solution.text true, .pulled (.ok (some solution))]

/-- The next solution is wanted: it is the first, or the one before it was shown, was not marked
last, and was answered with a yes. -/
def Wanted (calls : Journal) : Prop :=
  calls = [] ∨ ∃ solution key earlier, calls = answered solution key ++ earlier ∧
    solution.isLast = false ∧ (key = some 'y' ∨ key = some ';')

/-- The solutions that were pulled, the last one first. -/
def pulledSolutions (calls : Journal) : List Solution :=
  calls.filterMap fun
    | .pulled (.ok solution) => solution
    | _ => none

def keyReads (calls : Journal) : List (Except SessionError (Option Char)) :=
  calls.filterMap fun
    | .readKey key => some key
    | _ => none

/-- The calls of a display that came to its end, and what it says of itself. -/
structure Balanced (summary : PageSummary) (calls : Journal) : Prop where
  shown : calls.pulledSolutions.length = summary.shown
  prompts : calls.keyReads.length = summary.prompts
  prompted : summary.prompts ≤ summary.shown
  unprompted : summary.shown ≤ summary.prompts + 1
  last : summary.shown = summary.prompts + 1 ↔
    ∃ solution ∈ calls.pulledSolutions.head?, solution.isLast = true
  /-- What is left early is abandoned once, behind the last pull. -/
  left : summary.ending ≠ .exhausted → ∃ newer earlier, calls = newer ++ .abandoned :: earlier ∧
    .abandoned ∉ newer ∧ .abandoned ∉ earlier ∧ ∀ result, .pulled result ∉ newer
  /-- Nothing is left of what is exhausted: it ran dry, or its last solution was shown. -/
  exhausted : summary.ending = .exhausted → .abandoned ∉ calls ∧
    (.pulled (.ok none) ∈ calls ∨ ∃ solution ∈ calls.pulledSolutions.head?, solution.isLast = true)
  declined : summary.ending = .declined →
    ∃ key, calls.keyReads.head? = some (.ok key) ∧ wantsMore key = false

/-- Between two solutions: `n` of them were shown, none of them was the last, and each was answered
with a yes. -/
structure Round (n : Nat) (calls : Journal) : Prop where
  shown : calls.pulledSolutions.length = n
  prompts : calls.keyReads.length = n
  more : ∀ solution ∈ calls.pulledSolutions.head?, solution.isLast = false
  kept : .abandoned ∉ calls
  wanted : calls.Wanted

variable {calls : Journal} {n : Nat} {solution : Solution}

theorem round_nil : Round 0 [] where
  shown := rfl
  prompts := rfl
  more := by simp [pulledSolutions]
  kept := by simp
  wanted := .inl rfl

theorem wantsMore_iff (key : Option Char) :
    wantsMore key = true ↔ key = some 'y' ∨ key = some ';' := by
  simp [wantsMore]

/-- As many questions as solutions leave none of these unasked about. -/
theorem last_of_more (hmore : ∀ solution ∈ calls.pulledSolutions.head?, solution.isLast = false) :
    n = n + 1 ↔ ∃ solution ∈ calls.pulledSolutions.head?, solution.isLast = true := by
  constructor
  · intro hshown
    omega
  · rintro ⟨solution, hmem, hlast⟩
    rw [hmore solution hmem] at hlast
    cases hlast

/-- Another solution that is answered with a yes leads to the next round. -/
theorem Round.answered (h : Round n calls) (hlast : solution.isLast = false) {key : Option Char}
    (hkey : wantsMore key = true) : Round (n + 1) (answered solution key ++ calls) where
  shown := congrArg (· + 1) h.shown
  prompts := congrArg (· + 1) h.prompts
  more last hmem := by
    obtain rfl : solution = last := Option.some.inj hmem
    exact hlast
  kept := by simp [Journal.answered, h.kept]
  wanted := .inr ⟨solution, key, calls, rfl, hlast, (wantsMore_iff key).1 hkey⟩

theorem Round.interrupted (h : Round n calls) :
    Balanced ⟨n, n, .interrupted⟩ (.wrote "interrupted\n" true :: .abandoned :: calls) where
  shown := h.shown
  prompts := h.prompts
  prompted := Nat.le_refl n
  unprompted := Nat.le_succ n
  last := last_of_more h.more
  left _ := ⟨[.wrote "interrupted\n" true], calls, rfl, by simp, h.kept, by simp⟩
  exhausted hend := by cases hend
  declined hend := by cases hend

theorem Round.drained (h : Round n calls) :
    Balanced ⟨n, n, .exhausted⟩ (.pulled (.ok none) :: calls) where
  shown := h.shown
  prompts := h.prompts
  prompted := Nat.le_refl n
  unprompted := Nat.le_succ n
  last := last_of_more h.more
  left hend := absurd rfl hend
  exhausted _ := ⟨by simp [h.kept], .inl List.mem_cons_self⟩
  declined hend := by cases hend

theorem Round.last (h : Round n calls) (hlast : solution.isLast = true) :
    Balanced ⟨n + 1, n, .exhausted⟩
      (.wrote "\n" true :: .wrote solution.text true :: .pulled (.ok (some solution)) ::
        calls) where
  shown := congrArg (· + 1) h.shown
  prompts := h.prompts
  prompted := Nat.le_succ n
  unprompted := Nat.le_refl (n + 1)
  last := ⟨fun _ => ⟨solution, rfl, hlast⟩, fun _ => rfl⟩
  left hend := absurd rfl hend
  exhausted _ := ⟨by simp [h.kept], .inr ⟨solution, rfl, hlast⟩⟩
  declined hend := by cases hend

theorem Round.declined (h : Round n calls) (hlast : solution.isLast = false) {key : Option Char}
    (hkey : wantsMore key = false) :
    Balanced ⟨n + 1, n + 1, .declined⟩
      (.abandoned :: (Journal.answered solution key ++ calls)) where
  shown := congrArg (· + 1) h.shown
  prompts := congrArg (· + 1) h.prompts
  prompted := Nat.le_refl (n + 1)
  unprompted := Nat.le_succ (n + 1)
  last := by
    refine last_of_more fun last hmem => ?_
    obtain rfl : solution = last := Option.some.inj hmem
    exact hlast
  left _ := ⟨[], _, rfl, by simp, by simp [Journal.answered, h.kept], by simp⟩
  exhausted hend := by cases hend
  declined _ := ⟨key, rfl, hkey⟩

/-- Neither a solution asked for nor a sequence given up, and no key read. -/
def Unpaced : Event → Prop
  | .pulled _ | .readKey _ | .abandoned => False
  | _ => True

theorem Balanced.cons {summary : PageSummary} (h : Balanced summary calls) {e : Event}
    (he : Unpaced e) : Balanced summary (e :: calls) := by
  have hpulled : pulledSolutions (e :: calls) = pulledSolutions calls := by
    cases e <;> first | rfl | exact he.elim
  have hkeys : keyReads (e :: calls) = keyReads calls := by
    cases e <;> first | rfl | exact he.elim
  have hkept : .abandoned ≠ e := by
    rintro rfl
    exact he
  constructor
  · rw [hpulled, h.shown]
  · rw [hkeys, h.prompts]
  · exact h.prompted
  · exact h.unprompted
  · rw [hpulled, h.last]
  · intro hend
    obtain ⟨newer, earlier, rfl, hnewer, hearlier, hpull⟩ := h.left hend
    refine ⟨e :: newer, earlier, rfl, List.not_mem_cons_of_ne_of_not_mem hkept hnewer, hearlier,
      fun result hmem => ?_⟩
    rcases List.mem_cons.1 hmem with rfl | hmem
    · exact he
    · exact hpull result hmem
  · intro hend
    obtain ⟨hnone, hreason⟩ := h.exhausted hend
    rw [hpulled]
    exact ⟨List.not_mem_cons_of_ne_of_not_mem hkept hnone,
      hreason.imp_left (List.mem_cons_of_mem e)⟩
  · rw [hkeys]
    exact h.declined

end Journal

open Journal

/-- Unless it is about the flag, an event leaves the flag alone. -/
theorem Terminal.Performs.flag_eq {κ ο : Type} [Console κ] [Output ο] {e : Event}
    {t t' : Terminal κ ο} (h : Performs e t t') (he : e.Unserved) (hraised : e ≠ .raised) :
    t'.flag = t.flag := by
  cases h with
  | raised => exact absurd rfl hraised
  | taken => exact he.elim
  | _ => rfl

namespace Dialogue

variable {κ ο : Type} [Console κ] [Output ο] {d d' : Dialogue κ ο} {e : Event}

theorem Step.keepsFlag (h : Step e d d') (he : e.Unserved) : d.KeepsFlag d' :=
  ((Delivers.here d).step h he).keepsFlag (h.journal.of_raised he trivial)

/-- Apart from the flag, which may be raised meanwhile, a step is what its event tells. -/
theorem Step.performs (h : Step e d d') (he : e.Unserved) :
    Terminal.Performs e d.terminal ⟨d'.console, d'.output, d.interrupt.isRaised⟩ := by
  have hne := h.ne_raised
  obtain ⟨d₁, raised, -, hperforms, rfl⟩ := h.noted
  have hflag : d₁.interrupt.isRaised = d.interrupt.isRaised := hperforms.flag_eq he hne
  rw [console_hear, output_hear, console_note, output_note, ← hflag]
  exact hperforms

end Dialogue

namespace Paging

variable {τ κ ο : Type} [SolutionStream τ] [Console κ] [Output ο] {α : Type}
variable {start p p' : Paging τ κ ο} {calls : Journal} {e : Event}

/-- The way from `start` by the calls that were made, the last one first: each was performed by the
sequence, the console or the output. The interrupt flag is never lowered, and a solution is asked
for only while the flag is down and the solution is wanted. -/
inductive OnDemand (start : Paging τ κ ο) : Journal → Paging τ κ ο → Prop
  | here : OnDemand start [] start
  | call {e : Event} {calls : Journal} {p p' : Paging τ κ ο} (h : OnDemand start calls p)
    (hcall : Performs e p.parties
      (p'.solutions, ⟨p'.dialogue.console, p'.dialogue.output, p.dialogue.interrupt.isRaised⟩))
    (hflag : p.dialogue.interrupt.isRaised = true → p'.dialogue.interrupt.isRaised = true)
    (hpull : ∀ result, e = .pulled result →
      p.dialogue.interrupt.isRaised = false ∧ calls.Wanted) : OnDemand start (e :: calls) p'

/-- What the calls left of the sequence is what is left of it by the same requests, and no other. -/
theorem OnDemand.solutions (h : OnDemand start calls p) :
    p.solutions = (SolutionStream.serveAll calls.requests start.solutions).2 := by
  induction h with
  | here => rfl
  | call _ hcall _ _ ih =>
    rw [Journal.requests, SolutionStream.serveAll_append, ← ih]
    exact hcall.solutions

theorem Step.keepsFlag (h : Step e p p') (he : e.Unserved) : p.dialogue.KeepsFlag p'.dialogue := by
  rcases h.dialogue_cases with h | ⟨hnote, hraised⟩
  · exact h.keepsFlag he
  · rw [hnote]
    exact ((Dialogue.Delivers.here p.dialogue).note he hraised).keepsFlag
      ((Dialogue.journal_note e p.dialogue).of_raised he trivial)

theorem Step.performs (h : Step e p p') (he : e.Unserved) : Performs e p.parties
    (p'.solutions, ⟨p'.dialogue.console, p'.dialogue.output, p.dialogue.interrupt.isRaised⟩) := by
  cases h with
  | dialogue h => exact .terminal (h.performs he)
  | pulled =>
    simp only [pull, exec_ofCall, Dialogue.console_note, Dialogue.output_note]
    exact .pulled p.solutions p.dialogue.terminal
  | abandoned =>
    simp only [abandon, exec_ofCall, Dialogue.console_note, Dialogue.output_note]
    exact .abandoned p.solutions p.dialogue.terminal

theorem OnDemand.step (h : OnDemand start calls p) (hstep : Step e p p') (he : e.Unserved)
    (hpull : ∀ result, e = .pulled result →
      p.dialogue.interrupt.isRaised = false ∧ calls.Wanted) : OnDemand start (e :: calls) p' := by
  obtain ⟨j, -, -, hkeeps⟩ := hstep.keepsFlag he
  exact .call h (hstep.performs he) (fun hup => hkeeps.2 (.inl hup)) hpull

/-- Whatever stopped the display, it had been on demand. -/
def StoppedOnDemand (start : Paging τ κ ο) (_ : Stop) (p : Paging τ κ ο) : Prop :=
  ∃ calls, OnDemand start calls p

/-- An operation that is one call of a collaborator, told by its event. -/
theorem triple_call {op : Operation (Paging τ κ ο) α}
    (result : Paging τ κ ο → Except SessionError α) (event : Except SessionError α → Event)
    {P : Paging τ κ ο → Prop}
    (hresult : ∀ p, (exec op p).1 = (result p).mapError Stop.fault)
    (hstep : ∀ p, Step (event (result p)) p (exec op p).2) (hevent : ∀ r, (event r).Unserved)
    (hpull : ∀ p r solution, P p → event r = .pulled solution →
      p.dialogue.interrupt.isRaised = false ∧ calls.Wanted) :
    Triple (fun p => OnDemand start calls p ∧ P p) op
      (fun a => OnDemand start (event (.ok a) :: calls)) (StoppedOnDemand start) := by
  have hcall (p : Paging τ κ ο) (h : OnDemand start calls p ∧ P p) :
      OnDemand start (event (result p) :: calls) (exec op p).2 :=
    h.1.step (hstep p) (hevent _) fun solution => hpull p _ solution h.2
  refine triple_of_exec (fun p a p' hp hrun => ?_) fun p stop p' hp hrun => ?_
  · have hend := hcall p hp
    have hok := hresult p
    rw [hrun] at hend hok
    cases hcalled : result p with
    | ok b =>
      rw [hcalled] at hend hok
      obtain rfl : a = b := Except.ok.inj hok
      exact hend
    | error _ =>
      rw [hcalled] at hok
      cases hok
  · have hend := hcall p hp
    rw [hrun] at hend
    exact ⟨_, hend⟩

/-- A call that asks for no solution may be made at any time. -/
theorem triple_call_of_ne {op : Operation (Paging τ κ ο) α}
    (result : Paging τ κ ο → Except SessionError α) (event : Except SessionError α → Event)
    (hresult : ∀ p, (exec op p).1 = (result p).mapError Stop.fault)
    (hstep : ∀ p, Step (event (result p)) p (exec op p).2) (hevent : ∀ r, (event r).Unserved)
    (hpull : ∀ r solution, event r ≠ .pulled solution) :
    Triple (OnDemand start calls) op (fun a => OnDemand start (event (.ok a) :: calls))
      (StoppedOnDemand start) :=
  (triple_call (P := fun _ => True) result event hresult hstep hevent
    fun _ r solution _ h => absurd h (hpull r solution)).of_pre fun _ h => ⟨h, trivial⟩

theorem triple_say (text : String) :
    Triple (OnDemand start calls) (say text) (fun _ => OnDemand start (.wrote text true :: calls))
      (StoppedOnDemand start) :=
  triple_call_of_ne (fun p => (Output.write text p.dialogue.output).1)
    (fun result => .wrote text result.isOk) (fun _ => rfl)
    (fun p => .dialogue (.wrote text p.dialogue)) (fun _ => trivial) fun _ _ => Event.noConfusion

theorem triple_flush :
    Triple (OnDemand start calls) (onDialogue Dialogue.flush)
      (fun _ => OnDemand start (.flushed :: calls)) (StoppedOnDemand start) :=
  triple_call_of_ne (fun p => (Output.flush p.dialogue.output).1) (fun _ => .flushed)
    (fun _ => rfl) (fun p => .dialogue (.flushed p.dialogue)) (fun _ => trivial)
    fun _ _ => Event.noConfusion

theorem triple_readKey :
    Triple (OnDemand start calls) (onDialogue Dialogue.readKey)
      (fun key => OnDemand start (.readKey (.ok key) :: calls)) (StoppedOnDemand start) :=
  triple_call_of_ne (fun p => (Console.readKey p.dialogue.console).1.result) .readKey
    (fun _ => rfl) (fun p => .dialogue (.keyRead p.dialogue)) (fun _ => trivial)
    fun _ _ => Event.noConfusion

theorem triple_abandon :
    Triple (OnDemand start calls) abandon (fun _ => OnDemand start (.abandoned :: calls))
      (StoppedOnDemand start) :=
  triple_call_of_ne (fun p => (SolutionStream.abandon p.solutions).1) (fun _ => .abandoned)
    (fun _ => rfl) Step.abandoned (fun _ => trivial) fun _ _ => Event.noConfusion

theorem triple_mark_paged (summary : PageSummary) :
    Triple (OnDemand start calls) (onDialogue (Dialogue.mark (.paged summary)))
      (fun _ => OnDemand start (.paged summary :: calls)) (StoppedOnDemand start) :=
  triple_call_of_ne (fun _ => .ok ()) (fun _ => .paged summary) (fun _ => rfl)
    (fun p => .dialogue (.paged summary p.dialogue)) (fun _ => trivial)
    fun _ _ => Event.noConfusion

/-- A solution is asked for while the flag is down. -/
theorem triple_pull (hwanted : calls.Wanted) :
    Triple (fun p => OnDemand start calls p ∧ p.dialogue.interrupt.isRaised = false) pull
      (fun solution => OnDemand start (.pulled (.ok solution) :: calls)) (StoppedOnDemand start) :=
  triple_call (fun p => (SolutionStream.next p.solutions).1) .pulled (fun _ => rfl) Step.pulled
    (fun _ => trivial) fun _ _ _ hdown _ => ⟨hdown, hwanted⟩

theorem triple_pending :
    Triple (OnDemand start calls) (onDialogue Dialogue.pending)
      (fun raised p => OnDemand start calls p ∧ p.dialogue.interrupt.isRaised = raised)
      (StoppedOnDemand start) := by
  refine triple_of_exec (fun p raised p' hp hrun => ?_) fun p stop p' hp hrun => ?_
  · obtain ⟨hraised, rfl⟩ := Prod.mk.inj hrun
    exact ⟨hp, Except.ok.inj hraised⟩
  · cases hrun

/-- Behind a solution shown, the question and its answer make up the rest of the round. -/
theorem triple_askForMore (solution : Solution) :
    Triple
      (OnDemand start (.wrote solution.text true :: .pulled (.ok (some solution)) :: calls))
      askForMore
      (fun more p => ∃ key, wantsMore key = more ∧
        OnDemand start (answered solution key ++ calls) p)
      (StoppedOnDemand start) := by
  refine triple_bind (triple_say _) fun _ => triple_bind triple_flush fun _ => ?_
  refine triple_bind triple_readKey fun key => ?_
  refine triple_bind (triple_say _) fun _ => triple_bind (triple_say _) fun _ => ?_
  exact triple_pure _ fun p hp => ⟨key, rfl, hp⟩

/-- A display that has come to its end, on demand from the first call to the last. -/
def EndedOnDemand (start : Paging τ κ ο) (summary : PageSummary) (p : Paging τ κ ο) : Prop :=
  ∃ calls, OnDemand start calls p ∧ Balanced summary calls

theorem triple_showFrom (fuel : Nat) {n : Nat} (h : Round n calls) :
    Triple (OnDemand start calls) (showFrom fuel n n) (EndedOnDemand start)
      (StoppedOnDemand start) := by
  induction fuel generalizing n calls with
  | zero => exact fun p hp => ⟨calls, hp⟩
  | succ fuel ih =>
    refine triple_bind triple_pending fun raised => triple_ite (fun hup => ?_) fun hdown => ?_
    · refine triple_bind (triple_abandon.of_pre fun p hp => hp.1) fun _ => ?_
      refine triple_bind (triple_say _) fun _ => ?_
      exact triple_pure _ fun p hp => ⟨_, hp, h.interrupted⟩
    have hpull : Triple
        (fun p => OnDemand start calls p ∧ p.dialogue.interrupt.isRaised = raised) pull
        (fun solution => OnDemand start (.pulled (.ok solution) :: calls))
        (StoppedOnDemand start) :=
      (triple_pull h.wanted).of_pre fun p hp => ⟨hp.1, hp.2.trans (Bool.not_eq_true _ ▸ hdown)⟩
    refine triple_bind hpull fun pulled => ?_
    cases pulled with
    | none => exact triple_pure _ fun p hp => ⟨_, hp, h.drained⟩
    | some solution =>
      refine triple_bind (triple_say _) fun _ => triple_ite (fun hlast => ?_) fun hlast => ?_
      · refine triple_bind (triple_say _) fun _ => ?_
        exact triple_pure _ fun p hp => ⟨_, hp, h.last hlast⟩
      have hmore := Bool.not_eq_true _ ▸ hlast
      refine triple_bind (triple_askForMore solution) fun more => ?_
      refine triple_ite (fun hyes => ?_) fun hno => ?_
      · rintro p ⟨key, rfl, hp⟩
        exact ih (h.answered hmore hyes) p hp
      · rintro p ⟨key, rfl, hp⟩
        refine triple_bind triple_abandon (fun _ => ?_) p hp
        exact triple_pure _ fun p hp => ⟨_, hp, h.declined hmore (Bool.not_eq_true _ ▸ hno)⟩

theorem triple_page (start : Paging τ κ ο) (fuel : Nat) :
    Triple (fun p => p = start) (page fuel) (EndedOnDemand start) (StoppedOnDemand start) := by
  have hshow : Triple (fun p => p = start) (showFrom fuel 0 0) (EndedOnDemand start)
      (StoppedOnDemand start) :=
    (triple_showFrom fuel round_nil).of_pre fun p hp => hp ▸ .here
  refine triple_bind hshow fun summary => ?_
  rintro p ⟨calls, hp, hbalanced⟩
  refine triple_bind (triple_say _) (fun _ => ?_) p hp
  refine triple_bind triple_flush fun _ => triple_bind (triple_mark_paged summary) fun _ => ?_
  refine triple_pure _ fun p hp => ⟨_, hp, ?_⟩
  refine .cons (.cons (.cons hbalanced ?_) ?_) ?_ <;> trivial

theorem triple_up {op : Operation (Paging τ κ ο) α} (h : Within ShowStep op) :
    Triple (fun p => p.dialogue.interrupt.isRaised = true) op
      (fun _ p => p.dialogue.interrupt.isRaised = true) fun _ _ => True := by
  refine (h.triple fun p p' hstep hup => ?_).of_error fun _ _ _ => trivial
  obtain ⟨e, ⟨-, he⟩, hstep⟩ := hstep
  obtain ⟨j, -, -, hkeeps⟩ := hstep.keepsFlag he
  exact hkeeps.2 (.inl hup)

/-- Unless it ends for another reason, the flag is up. -/
def UpAtEnd (summary : PageSummary) (p : Paging τ κ ο) : Prop :=
  summary.ending = .interrupted → p.dialogue.interrupt.isRaised = true

theorem triple_showFrom_up (fuel shown prompts : Nat) :
    Triple (fun _ => True) (showFrom fuel shown prompts : Operation (Paging τ κ ο) PageSummary)
      UpAtEnd fun _ _ => True := by
  have hany {β : Type} {op : Operation (Paging τ κ ο) β} :
      Triple (fun _ => True) op (fun _ _ => True) fun _ _ => True :=
    triple_of_end fun _ _ => trivial
  have hother {summary : PageSummary} (hend : summary.ending ≠ .interrupted) :
      Triple (fun _ => True) (pure summary : Operation (Paging τ κ ο) PageSummary) UpAtEnd
        fun _ _ => True :=
    triple_pure _ fun _ _ h => absurd h hend
  induction fuel generalizing shown prompts with
  | zero => exact fun _ _ => trivial
  | succ fuel ih =>
    refine triple_bind
      (Q := fun raised (p : Paging τ κ ο) => p.dialogue.interrupt.isRaised = raised)
      (fun _ _ => rfl) fun raised => triple_ite (fun hup => ?_) fun _ => ?_
    · refine triple_bind ((triple_up (shows_of_steady steady_abandon)).of_pre
        fun _ hp => hp.trans hup) fun _ => ?_
      refine triple_bind (triple_up (shows_of_steady (steady_say _))) fun _ => ?_
      exact triple_pure _ fun _ hp _ => hp
    refine triple_bind (hany.of_pre fun _ _ => trivial) fun pulled => ?_
    cases pulled with
    | none => exact hother PageEnd.noConfusion
    | some solution =>
      refine triple_bind hany fun _ => triple_ite (fun _ => ?_) fun _ => ?_
      · exact triple_bind hany fun _ => hother PageEnd.noConfusion
      refine triple_bind hany fun more => triple_ite (fun _ => ih _ _) fun _ => ?_
      exact triple_bind hany fun _ => hother PageEnd.noConfusion

/-- A display that an interrupt ends leaves the flag up. -/
theorem up_of_interrupted {fuel : Nat} {summary : PageSummary}
    (h : exec (page fuel) p = (.ok summary, p')) (hend : summary.ending = .interrupted) :
    p'.dialogue.interrupt.isRaised = true := by
  rw [page_eq] at h
  rcases exec_bind_cases h with ⟨summary', p₁, hshow, hfinish⟩ | ⟨stop, -, h⟩
  · obtain rfl := finish_eq_ok hfinish
    exact (triple_up (shows_finish _)).ok ((triple_showFrom_up fuel 0 0).ok trivial hshow hend)
      hfinish
  · cases h

/-- Three solutions, of which the second is answered with an interrupt. -/
def leaving : Paging (ScriptedEngine × ScriptedStream) ScriptedConsole Buffer where
  solutions := ({}, { pending := Queue.mark ["a", "b", "c"] })
  dialogue := { console := { keys := ['y', ScriptedConsole.interruptKey] }, output := {} }

end Paging

end LogicConsole
