import LogicConsole.Proofs.Dealings
/-! Where the interrupts of a session end up. The flag may be raised at any moment, by a signal or
by the console, and raising it again changes nothing. Still no interrupt is delivered twice and none
is lost: every call of the engine has a raise of its own before it, and every raise either is taken
off the flag and delivered afterwards, or leaves the flag up at the end. -/
namespace LogicConsole

open Operation Relation

namespace Journal

/-- What had happened before each delivery of an interrupt to the engine. -/
def deliveries : Journal → List Journal
  | [] => []
  | .interrupted _ _ :: earlier => earlier :: deliveries earlier
  | _ :: earlier => deliveries earlier

/-- What had happened before each raise of the interrupt flag. -/
def raises : Journal → List Journal
  | [] => []
  | .raised :: earlier => earlier :: raises earlier
  | _ :: earlier => raises earlier

/-- What a delivery may be accounted to: a raise, or the flag that was up at the start. -/
def causes (up : Bool) (j : Journal) : List (Option Journal) :=
  j.raises.map some ++ if up then [none] else []

/-- An interrupt was taken off the flag and then delivered. -/
def Delivered (j : Journal) : Prop :=
  ∃ newer result halted between older,
    j = newer ++ .interrupted result halted :: (between ++ .taken :: older)

/-- The interrupts of a journal are accounted for, from a flag that is `up` to one that is
`pending`. -/
structure Accounts (up : Bool) (j : Journal) (pending : Bool) : Prop where
  bounded (newer earlier : Journal) (h : j = newer ++ earlier) :
    earlier.deliveries.length ≤ earlier.raises.length + up.toNat
  /-- Every delivery is accounted to something before it, and no two to the same. -/
  accounted : ∃ accounts : List (Journal × Option Journal),
    accounts.map Prod.fst = j.deliveries ∧ (accounts.map Prod.snd).Nodup ∧
      ∀ account ∈ accounts, account.2 ∈ account.1.causes up
  kept (newer earlier : Journal) (h : j = newer ++ .raised :: earlier) :
    newer.Delivered ∨ pending = true

/-- Events in the order a session allows: an interrupt is taken only off a raised flag, and it is
delivered before anything else happens but that the flag is raised again. `due` says whether one is
under way. -/
inductive Delivers (up : Bool) : Journal → (pending due : Bool) → Prop
  | start : Delivers up [] up false
  | other {e : Event} {j : Journal} {pending : Bool} (he : e.Unserved) (hraised : e ≠ .raised)
    (h : Delivers up j pending false) : Delivers up (e :: j) pending false
  | raised {j : Journal} {pending due : Bool} (h : Delivers up j pending due) :
    Delivers up (.raised :: j) true due
  | taken {j : Journal} (h : Delivers up j true false) : Delivers up (.taken :: j) false true
  | interrupted {j : Journal} {pending : Bool} (result : Except SessionError Unit) (halted : Bool)
    (h : Delivers up j pending true) : Delivers up (.interrupted result halted :: j) pending false

theorem deliveries_cons_of_unserved {e : Event} (he : e.Unserved) (j : Journal) :
    deliveries (e :: j) = deliveries j := by
  cases e <;> first | rfl | exact he.elim

theorem raises_cons_of_ne {e : Event} (he : e ≠ .raised) (j : Journal) :
    raises (e :: j) = raises j := by
  cases e <;> first | rfl | exact absurd rfl he

theorem length_of_mem_raises {before j : Journal} (h : before ∈ j.raises) :
    before.length < j.length := by
  induction j with
  | nil => cases h
  | cons e j ih =>
    by_cases he : e = .raised
    · subst he
      rcases List.mem_cons.1 h with rfl | h
      · exact Nat.lt_succ_self _
      · exact Nat.lt_succ_of_lt (ih h)
    · rw [raises_cons_of_ne he] at h
      exact Nat.lt_succ_of_lt (ih h)

theorem causes_cons_of_ne {e : Event} (he : e ≠ .raised) (up : Bool) (j : Journal) :
    causes up (e :: j) = causes up j := by
  rw [causes, raises_cons_of_ne he, causes]

/-- A raise is none of the causes before it. -/
theorem not_mem_causes (up : Bool) (j : Journal) : some j ∉ causes up j := by
  intro h
  rcases List.mem_append.1 h with h | h
  · obtain ⟨before, hmem, heq⟩ := List.mem_map.1 h
    have hlt := length_of_mem_raises hmem
    rw [Option.some.inj heq] at hlt
    exact Nat.lt_irrefl _ hlt
  · cases up <;> simp at h

namespace Delivers

variable {up pending due : Bool} {j : Journal}

theorem split (h : Delivers up j pending due) (newer earlier : Journal)
    (hj : j = newer ++ earlier) : ∃ pending due, Delivers up earlier pending due := by
  induction newer generalizing j pending due with
  | nil =>
    subst hj
    exact ⟨pending, due, h⟩
  | cons e newer ih =>
    subst hj
    cases h with
    | other _ _ h => exact ih h rfl
    | raised h => exact ih h rfl
    | taken h => exact ih h rfl
    | interrupted _ _ h => exact ih h rfl

/-- An interrupt that is pending or under way has not been counted as delivered. -/
theorem bounded (h : Delivers up j pending due) :
    j.deliveries.length + pending.toNat + due.toNat ≤ j.raises.length + up.toNat := by
  induction h with
  | start => simp [deliveries, raises]
  | other he hraised _ ih => rwa [deliveries_cons_of_unserved he, raises_cons_of_ne hraised]
  | @raised _ pending _ _ ih =>
    simp only [deliveries, raises, List.length_cons]
    cases pending <;> simp at ih ⊢ <;> omega
  | taken _ ih => simpa [deliveries, raises] using ih
  | interrupted _ _ _ ih =>
    simp only [deliveries, raises, List.length_cons]
    simp at ih ⊢
    omega

/-- The deliveries of a journal are accounted for, and `free` is left for what is pending or under
way. -/
structure Books (up : Bool) (j : Journal) (accounts : List (Journal × Option Journal))
    (free : List (Option Journal)) : Prop where
  deliveries : accounts.map Prod.fst = j.deliveries
  causes : ∀ account ∈ accounts, account.2 ∈ account.1.causes up
  own : (accounts.map Prod.snd ++ free).Nodup
  known : ∀ cause ∈ accounts.map Prod.snd ++ free, cause ∈ j.causes up

namespace Books

variable {accounts : List (Journal × Option Journal)} {free : List (Option Journal)}
  {cause : Option Journal}

theorem unserved {e : Event} (h : Books up j accounts free) (he : e.Unserved)
    (hraised : e ≠ .raised) : Books up (e :: j) accounts free where
  deliveries := by rw [deliveries_cons_of_unserved he, h.deliveries]
  causes := h.causes
  own := h.own
  known := by
    rw [causes_cons_of_ne hraised]
    exact h.known

/-- A raise of the flag that is up already leaves the books as they are. -/
theorem raised (h : Books up j accounts free) : Books up (.raised :: j) accounts free where
  deliveries := h.deliveries
  causes := h.causes
  own := h.own
  known cause hcause := List.mem_cons_of_mem _ (h.known cause hcause)

/-- A new raise is nothing that was accounted to yet. -/
theorem free_raised (h : Books up j accounts free) :
    Books up (.raised :: j) accounts (some j :: free) where
  deliveries := h.deliveries
  causes := h.causes
  own := by
    have hnew : some j ∉ accounts.map Prod.snd ++ free :=
      fun hmem => not_mem_causes up j (h.known _ hmem)
    exact List.perm_middle.nodup_iff.2 (List.nodup_cons.2 ⟨hnew, h.own⟩)
  known cause hcause := by
    rcases List.mem_cons.1 (List.perm_middle.mem_iff.1 hcause) with rfl | hcause
    · exact List.mem_cons_self
    · exact h.raised.known cause hcause

/-- A delivery takes one of the causes that are free. -/
theorem interrupted (h : Books up j accounts (cause :: free)) (result : Except SessionError Unit)
    (halted : Bool) :
    Books up (.interrupted result halted :: j) ((j, cause) :: accounts) free := by
  have hperm : (accounts.map Prod.snd ++ cause :: free).Perm
      (cause :: (accounts.map Prod.snd ++ free)) := List.perm_middle
  refine ⟨congrArg (j :: ·) h.deliveries, ?_, hperm.nodup_iff.1 h.own, ?_⟩
  · intro account haccount
    rcases List.mem_cons.1 haccount with rfl | haccount
    · exact h.known cause (by simp)
    · exact h.causes account haccount
  · exact fun c hc => h.known c (hperm.mem_iff.2 hc)

end Books

theorem books (h : Delivers up j pending due) : ∃ accounts free,
    Books up j accounts free ∧ free.length = pending.toNat + due.toNat := by
  induction h with
  | start =>
    refine ⟨[], if up then [none] else [], ⟨rfl, by simp, ?_, ?_⟩, ?_⟩ <;>
      cases up <;> simp [causes, raises]
  | other he hraised _ ih =>
    obtain ⟨accounts, free, hbooks, hlength⟩ := ih
    exact ⟨accounts, free, hbooks.unserved he hraised, hlength⟩
  | @raised j pending due _ ih =>
    obtain ⟨accounts, free, hbooks, hlength⟩ := ih
    cases pending with
    | true => exact ⟨accounts, free, hbooks.raised, hlength⟩
    | false =>
      refine ⟨accounts, some j :: free, hbooks.free_raised, ?_⟩
      simp only [List.length_cons, hlength, Bool.toNat_false, Bool.toNat_true]
      omega
  | taken _ ih =>
    obtain ⟨accounts, free, hbooks, hlength⟩ := ih
    exact ⟨accounts, free, ⟨hbooks.deliveries, hbooks.causes, hbooks.own, hbooks.known⟩, hlength⟩
  | @interrupted j pending result halted _ ih =>
    obtain ⟨accounts, free, hbooks, hlength⟩ := ih
    obtain ⟨cause, free, rfl⟩ : ∃ cause rest, free = cause :: rest :=
      List.exists_cons_of_length_pos (by simp [hlength])
    refine ⟨(j, cause) :: accounts, free, hbooks.interrupted result halted, ?_⟩
    simpa using hlength

/-- Behind a raise the flag stays up until it is taken, and what is taken is delivered. -/
theorem kept (h : Delivers up j pending due) (newer earlier : Journal)
    (hj : j = newer ++ .raised :: earlier) :
    newer.Delivered ∨ pending = true ∨ due = true ∧ .taken ∈ newer := by
  induction h generalizing newer with
  | start => simp at hj
  | @other e j pending he hraised _ ih =>
    cases newer with
    | nil => exact absurd (List.cons.inj hj).1 hraised
    | cons e' newer =>
      obtain ⟨rfl, htail⟩ := List.cons.inj hj
      rcases ih newer htail with
        ⟨newer', result, halted, between, older, rfl⟩ | hpending | ⟨hdue, -⟩
      · exact .inl ⟨e :: newer', result, halted, between, older, rfl⟩
      · exact .inr (.inl hpending)
      · cases hdue
  | raised => exact .inr (.inl rfl)
  | taken =>
    cases newer with
    | nil => cases hj
    | cons e newer =>
      obtain ⟨rfl, -⟩ := List.cons.inj hj
      exact .inr (.inr ⟨rfl, List.mem_cons_self⟩)
  | @interrupted j pending result halted _ ih =>
    cases newer with
    | nil => cases hj
    | cons e newer =>
      obtain ⟨rfl, htail⟩ := List.cons.inj hj
      rcases ih newer htail with ⟨newer', r, b, between, older, rfl⟩ | hpending | ⟨-, htaken⟩
      · exact .inl ⟨_ :: newer', r, b, between, older, rfl⟩
      · exact .inr (.inl hpending)
      · obtain ⟨between, older, rfl⟩ := List.append_of_mem htaken
        exact .inl ⟨[], result, halted, between, older, rfl⟩

theorem accounts (h : Delivers up j pending false) : j.Accounts up pending where
  bounded newer earlier hj := by
    obtain ⟨pending, due, h⟩ := h.split newer earlier hj
    have := h.bounded
    omega
  accounted := by
    obtain ⟨accounts, free, hbooks, -⟩ := h.books
    exact ⟨accounts, hbooks.deliveries, (List.nodup_append.1 hbooks.own).1, hbooks.causes⟩
  kept newer earlier hj := by
    rcases h.kept newer earlier hj with h | h | ⟨h, -⟩
    · exact .inl h
    · exact .inr h
    · cases h

/-- Where no interrupt is served the flag is up at the end if it was up before, or was raised. -/
theorem pending_iff (h : Delivers up j pending due) (hj : ∀ e ∈ j, e.Unserved) :
    pending = true ↔ up = true ∨ .raised ∈ j := by
  induction h with
  | start => simp
  | @other e j pending _ hraised _ ih =>
    rw [ih fun x hx => hj x (List.mem_cons_of_mem _ hx)]
    simp [Ne.symm hraised]
  | raised => simp
  | taken => exact (hj _ List.mem_cons_self).elim
  | interrupted => exact (hj _ List.mem_cons_self).elim

end Delivers

end Journal

/-- The scripted engine counts the interrupts that are delivered to it. -/
theorem ScriptedEngine.interrupts_of_performed {κ ο : Type} [Console κ] [Output ο] {j : Journal}
    {a b : Parties ScriptedEngine ScriptedStream κ ο} (h : j.Performed Parties.Performs a b) :
    b.engine.interrupts = a.engine.interrupts + j.deliveries.length := by
  induction h with
  | here => rfl
  | @event e j b c _ hnext ih =>
    have htold : c.engine.interrupts = (b.engine.told e).2 :=
      congrArg Prod.snd (told_of_performs hnext)
    rw [htold]
    cases e with
    | interrupted => exact congrArg (· + 1) ih
    | _ => exact ih

namespace Dialogue

variable {κ ο : Type} {d d' : Dialogue κ ο} {up due : Bool} {start : Journal} {e : Event}

/-- Behind `start`, where the flag was `up`, interrupts have been delivered as they should be. -/
def Delivers (up : Bool) (start : Journal) (due : Bool) (d : Dialogue κ ο) : Prop :=
  ∃ j, d.journal = j ++ start ∧ j.Delivers up d.interrupt.isRaised due

theorem Delivers.here (d : Dialogue κ ο) : d.Delivers d.interrupt.isRaised d.journal false :=
  ⟨[], rfl, .start⟩

/-- A dialogue that has served no interrupt: the flag is up if it was up before or was raised. -/
def KeepsFlag (d d' : Dialogue κ ο) : Prop :=
  ∃ j, d'.journal = j ++ d.journal ∧ (∀ e ∈ j, e.Unserved) ∧
    (d'.interrupt.isRaised = true ↔ d.interrupt.isRaised = true ∨ .raised ∈ j)

theorem Delivers.keepsFlag (h : d'.Delivers d.interrupt.isRaised d.journal false)
    (hadds : Journal.Adds Event.Unserved d.journal d'.journal) : d.KeepsFlag d' := by
  obtain ⟨j, hj, hdelivers⟩ := h
  obtain ⟨t, ht, hunserved⟩ := hadds
  obtain rfl : j = t := List.append_cancel_right (hj.symm.trans ht)
  exact ⟨j, hj, hunserved, hdelivers.pending_iff hunserved⟩

theorem Delivers.raise (h : d.Delivers up start due) : d.raise.Delivers up start due := by
  obtain ⟨j, hj, hdelivers⟩ := h
  exact ⟨.raised :: j, congrArg (Event.raised :: ·) hj, hdelivers.raised⟩

theorem Delivers.hear (h : d.Delivers up start due) (raised : Bool) :
    (d.hear raised).Delivers up start due := by
  rcases hear_cases raised d with hd | hd | ⟨flag, hd⟩ <;> rw [hd]
  · exact h
  · exact h.raise
  · exact h

/-- Noting an event is accounted for if the event itself is: a signal that follows only raises the
flag. -/
theorem Delivers.note_of_cons
    (h : ({ d with journal := e :: d.journal } : Dialogue κ ο).Delivers up start due) :
    (d.note e).Delivers up start due := by
  dsimp only [note]
  split
  · exact h.raise
  · exact h

theorem Delivers.note (h : d.Delivers up start false) (he : e.Unserved) (hraised : e ≠ .raised) :
    (d.note e).Delivers up start false := by
  obtain ⟨j, hj, hdelivers⟩ := h
  exact note_of_cons ⟨e :: j, congrArg (e :: ·) hj, hdelivers.other he hraised⟩

theorem Delivers.note_taken (h : d.Delivers up start false) (hup : d.interrupt.isRaised = true) :
    (Dialogue.note .taken { d with interrupt := ⟨false⟩ }).Delivers up start true := by
  obtain ⟨j, hj, hdelivers⟩ := h
  rw [hup] at hdelivers
  exact note_of_cons ⟨.taken :: j, congrArg (Event.taken :: ·) hj, hdelivers.taken⟩

theorem Delivers.note_interrupted (h : d.Delivers up start true)
    (result : Except SessionError Unit) (halted : Bool) :
    (d.note (.interrupted result halted)).Delivers up start false := by
  obtain ⟨j, hj, hdelivers⟩ := h
  exact note_of_cons ⟨_ :: j, congrArg (_ :: ·) hj, hdelivers.interrupted result halted⟩

variable [Console κ] [Output ο]

theorem Step.ne_raised (h : Step e d d') : e ≠ .raised := by
  cases h <;> exact Event.noConfusion

theorem Delivers.step (h : d.Delivers up start false) (hstep : Step e d d') (he : e.Unserved) :
    d'.Delivers up start false := by
  have hnote (d : Dialogue κ ο) (h : d.Delivers up start false) :
      (d.note e).Delivers up start false := h.note he hstep.ne_raised
  cases hstep with
  | wrote text => exact hnote _ h
  | flushed => exact hnote _ h
  | lineRead marker =>
    exact (hnote { d with console := (Console.readLine marker d.console).2 } h).hear
      (Console.readLine marker d.console).1.raised
  | keyRead =>
    exact (hnote { d with console := (Console.readKey d.console).2 } h).hear
      (Console.readKey d.console).1.raised
  | completed query => exact hnote _ h
  | remembered hentry =>
    simp only [record, hentry]
    exact hnote _ h
  | paged summary => exact hnote _ h
  | taken => exact he.elim

theorem keepsFlag_readQuery (prompt : String) (fuel : Nat) (d : Dialogue κ ο) :
    d.KeepsFlag (exec (readQuery prompt fuel) d).2 := by
  have hstep (d₁ d₂ : Dialogue κ ο) (hstep : UnservedStep d₁ d₂)
      (h : d₁.Delivers d.interrupt.isRaised d.journal false ∧
        Journal.Adds Event.Unserved d.journal d₁.journal) :
      d₂.Delivers d.interrupt.isRaised d.journal false ∧
        Journal.Adds Event.Unserved d.journal d₂.journal := by
    obtain ⟨e, he, hstep⟩ := hstep
    exact ⟨h.1.step hstep he, h.2.trans (hstep.journal.of_raised he trivial)⟩
  obtain ⟨hdelivers, hadds⟩ :=
    holds_of_steps hstep (unserved_readQuery prompt fuel d) ⟨.here d, .refl _⟩
  exact hdelivers.keepsFlag hadds

end Dialogue

namespace Paging

variable {τ κ ο : Type} [SolutionStream τ] [Console κ] [Output ο]

theorem Step.dialogue_cases {e : Event} {p p' : Paging τ κ ο} (h : Step e p p') :
    Dialogue.Step e p.dialogue p'.dialogue ∨
      p'.dialogue = p.dialogue.note e ∧ e ≠ .raised := by
  cases h with
  | dialogue h => exact .inl h
  | pulled => exact .inr ⟨rfl, Event.noConfusion⟩
  | abandoned => exact .inr ⟨rfl, Event.noConfusion⟩

theorem keepsFlag_page (fuel : Nat) (p : Paging τ κ ο) :
    p.dialogue.KeepsFlag (exec (page fuel) p).2.dialogue := by
  have hstep (p₁ p₂ : Paging τ κ ο) (hstep : ShowStep p₁ p₂)
      (h : p₁.dialogue.Delivers p.dialogue.interrupt.isRaised p.dialogue.journal false ∧
        Journal.Adds Event.Unserved p.dialogue.journal p₁.dialogue.journal) :
      p₂.dialogue.Delivers p.dialogue.interrupt.isRaised p.dialogue.journal false ∧
        Journal.Adds Event.Unserved p.dialogue.journal p₂.dialogue.journal := by
    obtain ⟨e, ⟨-, he⟩, hstep⟩ := hstep
    rcases hstep.dialogue_cases with hstep | ⟨hnote, hraised⟩
    · exact ⟨h.1.step hstep he, h.2.trans (hstep.journal.of_raised he trivial)⟩
    · rw [hnote]
      exact ⟨h.1.note he hraised, h.2.trans ((Dialogue.journal_note _ _).of_raised he trivial)⟩
  obtain ⟨hdelivers, hadds⟩ :=
    holds_of_steps hstep (shows_page fuel p) ⟨.here p.dialogue, .refl _⟩
  exact hdelivers.keepsFlag hadds

end Paging

namespace Session

variable {ε τ κ ο : Type} [Engine ε τ] [Console κ] [Output ο]
variable {s s' : Session ε κ ο} {up : Bool} {start : Journal}

theorem Step.ne_raised {e : Event} (h : Step e s s') : e ≠ .raised := by
  cases h with
  | dialogue h => exact h.ne_raised
  | paging h =>
    rcases h.dialogue_cases with h | ⟨-, h⟩
    · exact h.ne_raised
    · exact h
  | _ => exact Event.noConfusion

theorem delivers_step {e : Event} (h : s.dialogue.Delivers up start false) (hstep : Step e s s')
    (he : e.Unserved) : s'.dialogue.Delivers up start false := by
  rcases hstep.dialogue_cases with hdialogue | ⟨hnote, -⟩
  · exact h.step hdialogue he
  · rw [hnote]
    exact h.note he hstep.ne_raised

omit [Console κ] [Output ο] in
/-- An interrupt that is taken off the flag is delivered at once, whatever comes of it. -/
theorem delivers_service (h : s.dialogue.Delivers up start false) :
    (exec serviceInterrupts s).2.dialogue.Delivers up start false := by
  rw [exec_serviceInterrupts]
  split
  · exact (h.note_taken ‹_›).note_interrupted _ _
  · exact h

theorem follows_delivers : Follows (fun s s' : Session ε κ ο =>
    s.dialogue.Delivers up start false → s'.dialogue.Delivers up start false) where
  step _ _ := fun ⟨_, he, hstep⟩ h => delivers_step h hstep he
  service := within_of_step fun _ => delivers_service

theorem delivers_close (h : s.dialogue.Delivers up start false) :
    s.close.dialogue.Delivers up start false := by
  have hflush : s.flushHistory.dialogue.Delivers up start false := by
    unfold flushHistory
    split
    · exact h
    · exact Dialogue.Delivers.note (d := { s.dialogue with
        history := { s.dialogue.history with flushed := true } }) h trivial Event.noConfusion
  have hwrote := hflush.step (.wrote s.flushHistory.theme.reset s.flushHistory.dialogue) trivial
  unfold close
  rcases resetTheme_cases s.flushHistory with h | h | h <;> rw [h]
  · exact hflush
  · exact hwrote
  · exact hwrote.step (.flushed _) trivial

/-- In a run every interrupt is accounted for: no more are delivered than were raised, each with a
raise of its own, and behind a raise one is delivered or the flag is up at the end. What was
delivered the engine was told, and in no other way did it or the flag change. The display of
solutions and the reader of queries leave the flag to the session. -/
theorem runFor_accounts (s : Session ε κ ο) (fuel : Nat) :
    (∃ j, (s.runFor fuel).2.dialogue.journal = j ++ s.dialogue.journal ∧
        j.Accounts s.dialogue.interrupt.isRaised
          (s.runFor fuel).2.dialogue.interrupt.isRaised ∧
        s.Performs j (s.runFor fuel).2) ∧
      (∀ (τ' : Type) [SolutionStream τ'] (p : Paging τ' κ ο) (fuel : Nat),
        p.dialogue.KeepsFlag (exec (Paging.page fuel) p).2.dialogue) ∧
      ∀ (d : Dialogue κ ο) (prompt : String) (fuel : Nat),
        d.KeepsFlag (exec (Dialogue.readQuery prompt fuel) d).2 := by
  refine ⟨?_, fun τ' _ p fuel => Paging.keepsFlag_page fuel p,
    fun d prompt fuel => Dialogue.keepsFlag_readQuery prompt fuel d⟩
  have hloop : (exec (phases fuel) s).2.dialogue.Delivers s.dialogue.interrupt.isRaised
      s.dialogue.journal false :=
    holds_of_steps
      (P := fun s' : Session ε κ ο =>
        s'.dialogue.Delivers s.dialogue.interrupt.isRaised s.dialogue.journal false)
      (fun _ _ h => h) (follows_delivers.along.phases fuel s) (.here s.dialogue)
  have hend : (s.runFor fuel).2.dialogue.Delivers s.dialogue.interrupt.isRaised
      s.dialogue.journal false := by
    rcases runFor_cases fuel s with hrun | hrun <;> rw [hrun]
    · exact hloop
    · exact delivers_close hloop
  obtain ⟨j, hj, hdelivers⟩ := hend
  exact ⟨j, hj, hdelivers.accounts, runFor_performs hj⟩

omit [Engine ε τ] in
/-- The scripted engine has counted what was delivered to it. -/
theorem Performs.interrupts {s s' : Session ScriptedEngine κ ο} {j : Journal}
    (h : s.Performs j s') :
    s'.engine.interrupts = s.engine.interrupts + j.deliveries.length := by
  obtain ⟨solutions, hperformed⟩ := h
  exact ScriptedEngine.interrupts_of_performed hperformed

/-- Two interrupts are typed before the first query. -/
def hasty : Session ScriptedEngine ScriptedConsole Buffer where
  engine := {}
  dialogue :=
    { console := { events := [.interrupted, .interrupted, .line "p."] }, output := {} }

/-- They are one interrupt to the engine. -/
theorem hasty_accounts :
    ∃ j, (hasty.runFor 4).2.dialogue.journal = j ∧ j.raises.length = 2 ∧
      j.Accounts false false ∧ hasty.Performs j (hasty.runFor 4).2 ∧
      (hasty.runFor 4).2.engine.interrupts = 1 ∧ j.deliveries.length = 1 := by
  have hraises : (hasty.runFor 4).2.dialogue.journal.raises.length = 2 := by decide +kernel
  have hdown : (hasty.runFor 4).2.dialogue.interrupt.isRaised = false := by decide +kernel
  have htold : (hasty.runFor 4).2.engine.interrupts = 1 := by decide +kernel
  obtain ⟨⟨j, hj, haccounts, hperforms⟩, -⟩ := runFor_accounts hasty 4
  have hjournal : (hasty.runFor 4).2.dialogue.journal = j := by simpa [hasty] using hj
  rw [hjournal] at hraises
  rw [hdown] at haccounts
  have hcount := hperforms.interrupts
  have hzero : hasty.engine.interrupts = 0 := rfl
  rw [hzero, htold] at hcount
  exact ⟨j, hjournal, hraises, haccounts, hperforms, htold, by omega⟩

end Session

end LogicConsole
