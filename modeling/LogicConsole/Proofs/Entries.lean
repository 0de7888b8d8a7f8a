import LogicConsole.Proofs.Replay

/-! The history of a session from its first run on. An entry stays where it was put, the console is
offered every entry as it is made, and every query that is read makes one at once. -/
namespace LogicConsole

open Operation Relation

/-- A console that keeps the entries it is offered; `recalled` reads them off. -/
structure Console.Recalls {κ : Type} [Console κ] (recalled : κ → List String) : Prop where
  readLine (marker : String) (c : κ) : recalled (Console.readLine marker c).2 = recalled c
  readKey (c : κ) : recalled (Console.readKey c).2 = recalled c
  remember (entry : String) (c : κ) :
    recalled (Console.remember entry c).2 = recalled c ++ [entry]

theorem canonical_entry {entry : String} (h : History.entryOf entry = some entry) :
    entry ≠ "" ∧ ∀ c ∈ entry.toList.getLast?, c ≠ '\r' ∧ c ≠ '\n' := by
  obtain ⟨hentry, hne⟩ := entryOf_eq_some h
  refine ⟨hentry ▸ hne, fun c hc => ?_⟩
  have hlist : entry.toList = entry.toList.rdropWhile History.isLineEnd := by
    conv_lhs => rw [hentry]
    exact String.toList_ofList
  have hnil : entry.toList.rdropWhile History.isLineEnd ≠ [] := by
    rw [← hlist]
    intro hnil
    rw [hnil] at hc
    cases hc
  have hlast : History.isLineEnd c = false := by
    have hend := List.rdropWhile_last_not History.isLineEnd entry.toList hnil
    rw [hlist, List.getLast?_eq_some_getLast hnil] at hc
    obtain rfl := Option.some.inj hc
    exact Bool.eq_false_iff.2 hend
  simpa [History.isLineEnd] using hlast

/-- An event that is neither the reading of a query nor an entry made. -/
def Event.Plain : Event → Prop
  | .completed _ | .remembered _ => False
  | _ => True

theorem Event.Idle.plain {e : Event} (h : e.Idle) : e.Plain := by
  cases e <;> trivial

def Event.isRaised : Event → Bool
  | .raised => true
  | _ => false

/-- The entry an event makes, if it does. -/
def Event.entry : Event → List String
  | .remembered entry => [entry]
  | _ => []

namespace Journal

/-- The entries made, in their order. -/
def entries : Journal → List String
  | [] => []
  | e :: t => entries t ++ e.entry

/-- What happened last, apart from signals. -/
def latest (j : Journal) : Option Event := j.find? fun e => !e.isRaised

/-- May `e` happen behind `t`? The entry of a query that was read comes next, and an entry is made
of nothing else than a query just read or a line just shown. -/
structure Follows (t : Journal) (e : Event) : Prop where
  awaited (query : String) (h : t.latest = some (.completed query)) :
    e = .raised ∨ e = .remembered (stripped query)
  entered (entry : String) (h : e = .remembered entry) : ∃ text, stripped text = entry ∧
    (t.latest = some (.completed text) ∨ t.latest = some (.wrote text true))

/-- Every query read has made one entry at once, but the one that has just been read. -/
def Timely : Journal → Prop
  | [] => True
  | e :: t => Follows t e ∧ Timely t

/-- No query is waiting for its entry. -/
structure Complete (j : Journal) : Prop where
  timely : j.Timely
  settled (query : String) : j.latest ≠ some (.completed query)

variable {j j' : Journal} {u : List Event} {e : Event} {text : String}

theorem latest_append (hu : ∀ x ∈ u, x = .raised) (j : Journal) :
    latest (u ++ j) = latest j := by
  unfold latest
  rw [List.find?_append, List.find?_eq_none.2 fun x hx => by rw [hu x hx]; decide, Option.none_or]

theorem entries_of_adds (h : Adds (· = .raised) (e :: j) j') :
    j'.entries = j.entries ++ e.entry := by
  obtain ⟨u, rfl, hu⟩ := h
  induction u with
  | nil => rfl
  | cons x u ih =>
    obtain rfl := hu x (by simp)
    change entries (u ++ e :: j) ++ [] = _
    rw [List.append_nil, ih fun y hy => hu y (by simp [hy])]

theorem Timely.raised (h : j.Timely) (hu : ∀ x ∈ u, x = .raised) : Timely (u ++ j) := by
  induction u with
  | nil => exact h
  | cons x u ih =>
    obtain rfl := hu x (by simp)
    refine ⟨⟨fun _ _ => .inl rfl, fun entry hentry => ?_⟩, ih fun y hy => hu y (by simp [hy])⟩
    cases hentry

theorem Complete.plain (h : j.Complete) (he : e.Plain) (hadds : Adds (· = .raised) (e :: j) j') :
    j'.Complete := by
  obtain ⟨u, rfl, hu⟩ := hadds
  have hfollows : Follows j e :=
    ⟨fun query hquery => absurd hquery (h.settled query), fun entry hentry => by
      subst hentry
      exact he.elim⟩
  refine ⟨Timely.raised ⟨hfollows, h.timely⟩ hu, fun query => ?_⟩
  rw [latest_append hu]
  cases e with
  | raised => exact h.settled query
  | completed query => exact he.elim
  | _ => exact fun heq => nomatch heq

theorem Complete.adds (h : j.Complete) (hadds : Adds Event.Plain j j') : j'.Complete := by
  obtain ⟨t, rfl, ht⟩ := hadds
  induction t with
  | nil => exact h
  | cons e t ih => exact (ih fun x hx => ht x (by simp [hx])).plain (ht e (by simp)) (.refl _)

theorem Timely.remember (h : j.Timely)
    (htext : j.latest = some (.completed text) ∨ j.latest = some (.wrote text true))
    (hadds : Adds (· = .raised) (.remembered (stripped text) :: j) j') : j'.Complete := by
  obtain ⟨u, rfl, hu⟩ := hadds
  have hfollows : Follows j (.remembered (stripped text)) := by
    refine ⟨fun query hquery => .inr ?_, fun entry hentry => ⟨text, ?_, htext⟩⟩
    · rcases htext with htext | htext <;> cases hquery.symm.trans htext
      rfl
    · exact Event.remembered.inj hentry
  refine ⟨Timely.raised ⟨hfollows, h⟩ hu, fun query => ?_⟩
  rw [latest_append hu]
  exact fun heq => nomatch heq

end Journal

namespace Dialogue

variable {κ ο : Type} [Console κ] [Output ο]

/-- The same entries have been added to the history, the console and the journal. -/
def Grows (recalled : κ → List String) (d d' : Dialogue κ ο) : Prop :=
  ∃ added, (∀ entry ∈ added, History.entryOf entry = some entry) ∧
    d'.history.entries = d.history.entries ++ added ∧
    recalled d'.console = recalled d.console ++ added ∧
    d'.journal.entries = d.journal.entries ++ added

section Growth

variable {recalled : κ → List String} {d d₁ d' : Dialogue κ ο} {e : Event}

omit [Console κ] [Output ο] in
theorem Grows.refl (d : Dialogue κ ο) : Grows recalled d d := ⟨[], nofun, by simp⟩

omit [Console κ] [Output ο] in
theorem Grows.trans (h : Grows recalled d d₁) (h' : Grows recalled d₁ d') :
    Grows recalled d d' := by
  obtain ⟨added, hcanonical, hentries, hrecalled, hjournal⟩ := h
  obtain ⟨more, hcanonical', hentries', hrecalled', hjournal'⟩ := h'
  refine ⟨added ++ more, fun entry hentry => ?_, ?_, ?_, ?_⟩
  · rcases List.mem_append.1 hentry with hentry | hentry
    · exact hcanonical entry hentry
    · exact hcanonical' entry hentry
  · rw [hentries', hentries, List.append_assoc]
  · rw [hrecalled', hrecalled, List.append_assoc]
  · rw [hjournal', hjournal, List.append_assoc]

omit [Console κ] [Output ο] in
theorem grows_note (h : e.entry = []) (d : Dialogue κ ο) : Grows recalled d (d.note e) := by
  refine ⟨[], nofun, ?_, ?_, ?_⟩
  · rw [history_note, List.append_nil]
  · rw [console_note, List.append_nil]
  · rw [Journal.entries_of_adds (journal_note e d), h]

theorem Step.grows (hrecalls : Console.Recalls recalled) (h : Step e d d') :
    Grows recalled d d' := by
  have hjournal := Journal.entries_of_adds h.journal
  have hsame (hentry : e.entry = []) (hhistory : d'.history = d.history)
      (hconsole : recalled d'.console = recalled d.console) : Grows recalled d d' :=
    ⟨[], nofun, by simp [hhistory], by simp [hconsole], by simp [hjournal, hentry]⟩
  cases h with
  | lineRead marker =>
    exact hsame rfl (by simp [readLine]) (by simp [readLine, hrecalls.readLine])
  | keyRead => exact hsame rfl (by simp [readKey]) (by simp [readKey, hrecalls.readKey])
  | @remembered query entry hentry =>
    refine ⟨[entry], fun made hmade => ?_, ?_, ?_, hjournal⟩
    · obtain rfl := List.mem_singleton.1 hmade
      obtain ⟨rfl, hne⟩ := entryOf_eq_some hentry
      rw [entryOf_eq, stripped_stripped, if_neg hne]
    · simp [record, hentry]
    · simp [record, hentry, hrecalls.remember]
  | _ => exact hsame rfl (by simp [say, flush]) (by simp [say, flush])

end Growth

end Dialogue

namespace Session

variable {ε τ κ ο α : Type} [Engine ε τ] [Console κ] [Output ο] {s s' : Session ε κ ο} {e : Event}

/-- A step of a run, or the hand-over of the history behind it. -/
def Move (s s' : Session ε κ ο) : Prop := AnyStep s s' ∨ s' = s.flushHistory

section Growth

variable {recalled : κ → List String} (hrecalls : Console.Recalls recalled)
include hrecalls

theorem Step.grows (h : Step e s s') : Dialogue.Grows recalled s.dialogue s'.dialogue := by
  cases h with
  | dialogue h => exact h.grows hrecalls
  | paging h =>
    cases h with
    | dialogue h => exact h.grows hrecalls
    | _ => exact Dialogue.grows_note rfl _
  | _ => exact Dialogue.grows_note rfl _

theorem Move.grows (h : Move s s') : Dialogue.Grows recalled s.dialogue s'.dialogue := by
  rcases h with ⟨e, hstep⟩ | rfl
  · exact hstep.grows hrecalls
  · unfold flushHistory
    split
    · exact .refl _
    · exact Dialogue.grows_note (e := .persisted _ _) rfl
        { s.dialogue with history := { s.dialogue.history with flushed := true } }

end Growth

end Session

end LogicConsole
