import LogicConsole.Proofs.Ledger
import Mathlib.Data.List.DropRight
/-! A session keeps its books: after every run the history and the queries sent to the engine are
what the queries read in this run make of the history it began with. -/
namespace LogicConsole

open Operation Relation

theorem Text.dropEnd_dropEnd (p : Char → Bool) (s : List Char) :
    dropEnd p (dropEnd p s) = dropEnd p s := List.rdropWhile_idempotent p s

theorem Text.mem_of_mem_dropEnd {p : Char → Bool} {s : List Char} {c : Char}
    (h : c ∈ dropEnd p s) : c ∈ s := (List.rdropWhile_prefix p s).subset h

theorem Text.dropEnd_ne_nil {p : Char → Bool} {s : List Char} {c : Char} (hc : c ∈ s)
    (h : p c = false) : dropEnd p s ≠ [] := by
  intro hnil
  have hall := List.rdropWhile_eq_nil_iff.1 hnil c hc
  rw [h] at hall
  cases hall

theorem stripped_stripped (query : String) : stripped (stripped query) = stripped query := by
  unfold stripped
  rw [String.toList_ofList, Text.dropEnd_dropEnd]

theorem stripped_ne_empty {query : String} {c : Char} (hc : c ∈ query.toList)
    (h : History.isLineEnd c = false) : stripped query ≠ "" := by
  intro hempty
  have hnil := congrArg String.toList hempty
  rw [stripped, String.toList_ofList] at hnil
  exact Text.dropEnd_ne_nil hc h hnil

/-- The entry of a query is the stripped query, unless that is empty. -/
theorem entryOf_eq (query : String) :
    History.entryOf query = if stripped query = "" then none else some (stripped query) := by
  unfold History.entryOf stripped
  cases Text.dropEnd History.isLineEnd query.toList with
  | nil => rfl
  | cons c rest =>
    have hne : String.ofList (c :: rest) ≠ "" := by simp
    rw [if_neg hne]

theorem entryOf_eq_some {query entry : String} (h : History.entryOf query = some entry) :
    entry = stripped query ∧ stripped query ≠ "" := by
  rw [entryOf_eq] at h
  split at h
  · cases h
  · exact ⟨(Option.some.inj h).symm, by assumption⟩

/-- Every entry of a history is what a query leaves as its entry. -/
def History.Canonical (h : History) : Prop :=
  ∀ entry ∈ h.entries, History.entryOf entry = some entry

theorem History.Canonical.add {h : History} {query entry : String} (hh : h.Canonical)
    (hentry : History.entryOf query = some entry) : (h.add entry).Canonical := by
  obtain ⟨rfl, hne⟩ := entryOf_eq_some hentry
  intro x hx
  rcases List.mem_append.1 hx with hx | hx
  · exact hh x hx
  · obtain rfl := List.mem_singleton.1 hx
    rw [entryOf_eq, stripped_stripped, if_neg hne]

/-- A line that ends a query holds one of the characters that end one. -/
theorem mem_of_completesQuery {line : String} (h : completesQuery line = true) :
    ∃ c ∈ line.toList, c = '/' ∨ c = '!' ∨ c = '.' := by
  have hmem {c : Char} (hc : c ∈ Text.dropEnd (· == '\r') line.toList) : c ∈ line.toList :=
    Text.mem_of_mem_dropEnd hc
  unfold completesQuery at h
  simp only [Bool.or_eq_true, beq_iff_eq] at h
  rcases h with (h | h) | h
  · exact ⟨'/', hmem (List.mem_of_getLast? h), .inl rfl⟩
  · exact ⟨'!', hmem (List.mem_of_head? h), .inr (.inl rfl)⟩
  · exact ⟨'.', hmem (List.mem_of_getLast? h), .inr (.inr rfl)⟩

/-- A line that ends a query is not made of line ends alone. -/
theorem exists_of_completesQuery {line : String} (h : completesQuery line = true) :
    ∃ c ∈ line.toList, History.isLineEnd c = false := by
  obtain ⟨c, hc, rfl | rfl | rfl⟩ := mem_of_completesQuery h <;> exact ⟨_, hc, rfl⟩

namespace Dialogue

variable {κ ο : Type} [Console κ]

theorem collectLines_query {prompt : String} {fuel : Nat} {typed query : String}
    {d d' : Dialogue κ ο} (h : exec (collectLines prompt fuel typed) d = (.ok (.query query), d')) :
    stripped query ≠ "" := by
  induction fuel generalizing typed d with
  | zero => cases h
  | succ fuel ih =>
    rcases exec_bind_cases h with ⟨input, d₁, -, h⟩ | ⟨stop, -, h⟩
    · cases input with
      | interrupted => exact ih h
      | endOfInput => cases h
      | line line =>
        by_cases hline : completesQuery line = true
        · simp only [hline, if_true, exec_pure] at h
          obtain ⟨c, hc, hend⟩ := exists_of_completesQuery hline
          cases h
          exact stripped_ne_empty (by simp [hc]) hend
        · simp only [hline] at h
          exact ih h
    · cases h

end Dialogue

section Books

variable {κ ο : Type} {accepts : ο → Prop} {l₀ : Ledger} {j₀ : Journal}
variable {owed owed' : Ledger → Ledger} {t v : List Event} {d d' : Dialogue κ ο} {e : Event}
variable {query : String} {added : List String}

/-- The events `t`, noted since the journal was `j₀` and the books were `l₀`, make the books what
they are now and what they are still owed. -/
structure Told (l₀ : Ledger) (j₀ : Journal) (t : List Event) (owed : Ledger → Ledger)
    (d : Dialogue κ ο) : Prop where
  journal : d.journal = t.reverse ++ j₀
  closed : Sealed t
  entered : ∀ read ∈ queriesRead t, stripped read.1 ≠ ""
  balance : (queriesRead t).foldl Ledger.take l₀ = owed ⟨d.history.entries, queriesSolved t⟩

/-- The books while the session goes on. -/
structure Account (accepts : ο → Prop) (l₀ : Ledger) (j₀ : Journal) (owed : Ledger → Ledger)
    (d : Dialogue κ ο) : Prop where
  told : ∃ t, Told l₀ j₀ t owed d ∧ ∀ read ∈ queriesRead t, read.2 = false
  canonical : d.history.Canonical
  output : accepts d.output

/-- The books at the end: the last query may have been left unhandled. -/
def Final (l₀ : Ledger) (j₀ : Journal) (d : Dialogue κ ο) : Prop :=
  ∃ t, Told l₀ j₀ t id d ∧ ∀ read ∈ (queriesRead t).dropLast, read.2 = false

/-- A query has been read, `added` to the history, and not been handled yet. -/
structure Pending (accepts : ο → Prop) (l₀ : Ledger) (j₀ : Journal) (query : String)
    (added : List String) (stops : Option Bool) (d : Dialogue κ ο) : Prop where
  told : ∃ t u entries, d.journal = (t ++ .completed query :: u).reverse ++ j₀ ∧ Sealed t ∧
    (∀ read ∈ queriesRead t, stripped read.1 ≠ "" ∧ read.2 = false) ∧
    (queriesRead t).foldl Ledger.take l₀ = ⟨entries, queriesSolved t⟩ ∧
    d.history.entries = entries ++ added ∧ (∀ e ∈ u, e.Unbooked) ∧ verdict u = stops
  entered : stripped query ≠ ""
  canonical : d.history.Canonical
  output : accepts d.output

theorem Told.extend (h : Told l₀ j₀ t owed d) (hv : ∀ e ∈ v, e.Unread)
    (hjournal : d'.journal = v.reverse ++ d.journal)
    (hbalance : ∀ sent, owed ⟨d.history.entries, sent⟩ =
      owed' ⟨d'.history.entries, sent ++ queriesSolved v⟩) :
    Told l₀ j₀ (t ++ v) owed' d' ∧ queriesRead (t ++ v) = queriesRead t := by
  obtain ⟨hclosed, hread⟩ := h.closed.append_unread hv
  refine ⟨⟨?_, hclosed, ?_, ?_⟩, hread⟩
  · rw [hjournal, h.journal, List.reverse_append, List.append_assoc]
  · rw [hread]
    exact h.entered
  · rw [hread, h.balance, queriesSolved_append]
    exact hbalance _

theorem unbooked_of_raised {u : List Event} (h : ∀ x ∈ u, x = .raised) :
    ∀ x ∈ u.reverse, x.Unbooked := fun x hx => by
  rw [h x (List.mem_reverse.1 hx)]
  trivial

theorem Account.extend (h : Account accepts l₀ j₀ owed d) (he : e.Unread)
    (hnoted : Journal.Adds (· = .raised) (e :: d.journal) d'.journal)
    (hcanonical : d'.history.Canonical) (hout : accepts d'.output)
    (hbalance : ∀ sent, owed ⟨d.history.entries, sent⟩ =
      owed' ⟨d'.history.entries, sent ++ queriesSolved [e]⟩) :
    Account accepts l₀ j₀ owed' d' := by
  obtain ⟨t, htold, hall⟩ := h.told
  obtain ⟨u, hu, hraised⟩ := hnoted
  have hquiet := unbooked_of_raised hraised
  have hunread : ∀ x ∈ e :: u.reverse, x.Unread := fun x hx => by
    rcases List.mem_cons.1 hx with rfl | hx
    · exact he
    · exact (hquiet x hx).unread
  have hsolved : queriesSolved (e :: u.reverse) = queriesSolved [e] := by
    change queriesSolved ([e] ++ u.reverse) = _
    rw [queriesSolved_append, queriesSolved_of_unbooked hquiet, List.append_nil]
  obtain ⟨hnext, hread⟩ := htold.extend hunread (by simp [hu]) (hsolved ▸ hbalance)
  exact ⟨⟨t ++ e :: u.reverse, hnext, hread ▸ hall⟩, hcanonical, hout⟩

theorem Account.unbooked (h : Account accepts l₀ j₀ owed d) (he : e.Unbooked)
    (hnoted : Journal.Adds (· = .raised) (e :: d.journal) d'.journal)
    (hhistory : d'.history = d.history) (hout : accepts d'.output) :
    Account accepts l₀ j₀ owed d' := by
  refine h.extend he.unread hnoted (hhistory ▸ h.canonical) hout fun sent => ?_
  rw [queriesSolved_of_unbooked (fun x hx => (List.mem_singleton.1 hx) ▸ he), List.append_nil,
    hhistory]

theorem Account.note (h : Account accepts l₀ j₀ owed d) (he : e.Unbooked) :
    Account accepts l₀ j₀ owed (d.note e) :=
  h.unbooked he (Dialogue.journal_note e d) (Dialogue.history_note e d)
    ((Dialogue.output_note e d).symm ▸ h.output)

theorem Account.congr (h : Account accepts l₀ j₀ owed d)
    (heq : ∀ sent, owed ⟨d.history.entries, sent⟩ = owed' ⟨d.history.entries, sent⟩) :
    Account accepts l₀ j₀ owed' d := by
  obtain ⟨t, htold, hall⟩ := h.told
  refine ⟨⟨t, ⟨htold.journal, htold.closed, htold.entered, ?_⟩, hall⟩, h.canonical, h.output⟩
  rw [htold.balance]
  exact heq _

theorem Account.final (h : Account accepts l₀ j₀ id d) : Final l₀ j₀ d := by
  obtain ⟨t, htold, hall⟩ := h.told
  exact ⟨t, htold, fun read hread => hall read ((List.dropLast_sublist _).subset hread)⟩

theorem Final.extend (h : Final l₀ j₀ d) (hnoted : Journal.Adds Event.Unbooked d.journal d'.journal)
    (hentries : d'.history.entries = d.history.entries) : Final l₀ j₀ d' := by
  obtain ⟨t, htold, hlast⟩ := h
  obtain ⟨v, hjournal, hv⟩ := hnoted
  have hquiet : ∀ e ∈ v.reverse, e.Unbooked := fun e he => hv e (List.mem_reverse.1 he)
  have hbalance (sent : List String) : id (Ledger.mk d.history.entries sent) =
      id ⟨d'.history.entries, sent ++ queriesSolved v.reverse⟩ := by
    rw [queriesSolved_of_unbooked hquiet, List.append_nil, hentries]
  obtain ⟨hnext, hread⟩ := htold.extend (fun e he => (hquiet e he).unread)
    (by rw [List.reverse_reverse, hjournal]) hbalance
  exact ⟨t ++ v.reverse, hnext, hread ▸ hlast⟩

/-- The query that completes is pending, its entry still to be made. -/
theorem Account.complete (h : Account accepts l₀ j₀ id d) (hquery : stripped query ≠ "")
    (hnoted : Journal.Adds (· = .raised) (.completed query :: d.journal) d'.journal)
    (hhistory : d'.history = d.history) (hout : accepts d'.output) :
    Pending accepts l₀ j₀ query [] none d' := by
  obtain ⟨t, htold, hall⟩ := h.told
  obtain ⟨u, hu, hraised⟩ := hnoted
  refine ⟨⟨t, u.reverse, d.history.entries, ?_, htold.closed, fun read hread => ?_, htold.balance,
    ?_, unbooked_of_raised hraised, ?_⟩, hquery, hhistory ▸ h.canonical, hout⟩
  · rw [hu, htold.journal]
    simp
  · exact ⟨htold.entered read hread, hall read hread⟩
  · rw [hhistory, List.append_nil]
  · exact verdict_of_raised fun x hx => hraised x (List.mem_reverse.1 hx)

/-- An event that is no business of the books may settle whether the session stops. -/
theorem Pending.extend {stops : Option Bool} {added' : List String}
    (h : Pending accepts l₀ j₀ query added stops d) (he : e.Unbooked)
    (hnoted : Journal.Adds (· = .raised) (e :: d.journal) d'.journal)
    (hentries : ∀ entries, d.history.entries = entries ++ added →
      d'.history.entries = entries ++ added')
    (hcanonical : d'.history.Canonical) (hout : accepts d'.output) :
    Pending accepts l₀ j₀ query added' (stops.or (verdict [e])) d' := by
  obtain ⟨t, u, entries, hjournal, hclosed, hall, hbalance, hlast, hunbooked, hverdict⟩ := h.told
  obtain ⟨w, hw, hraised⟩ := hnoted
  refine ⟨⟨t, u ++ e :: w.reverse, entries, ?_, hclosed, hall, hbalance, hentries _ hlast,
    fun x hx => ?_, ?_⟩, h.entered, hcanonical, hout⟩
  · rw [hw, hjournal]
    simp
  · rcases List.mem_append.1 hx with hx | hx
    · exact hunbooked x hx
    · rcases List.mem_cons.1 hx with rfl | hx
      · exact he
      · exact unbooked_of_raised hraised x hx
  · have hnone := verdict_of_raised fun x hx => hraised x (List.mem_reverse.1 hx)
    have hsplit : verdict (e :: w.reverse) = (verdict [e]).or (verdict w.reverse) :=
      verdict_append [e] w.reverse
    rw [verdict_append, hsplit, hverdict, hnone, Option.or_none]

theorem Pending.unbooked {stops : Option Bool}
    (h : Pending accepts l₀ j₀ query added stops d) (he : e.Unbooked)
    (hnoted : Journal.Adds (· = .raised) (e :: d.journal) d'.journal)
    (hhistory : d'.history = d.history) (hout : accepts d'.output) :
    Pending accepts l₀ j₀ query added (stops.or (verdict [e])) d' :=
  h.extend he hnoted (fun _ hlast => hhistory ▸ hlast) (hhistory ▸ h.canonical) hout

theorem Pending.note {stops : Option Bool} (h : Pending accepts l₀ j₀ query added stops d)
    (he : e.Unbooked) :
    Pending accepts l₀ j₀ query added (stops.or (verdict [e])) (d.note e) :=
  h.unbooked he (Dialogue.journal_note e d) (Dialogue.history_note e d)
    ((Dialogue.output_note e d).symm ▸ h.output)

/-- With its entry made and the verdict known, the query is told; what is owed is to handle it. -/
theorem Pending.told_of_verdict {stops : Bool}
    (h : Pending accepts l₀ j₀ query [stripped query] (some stops) d) :
    ∃ t, Told l₀ j₀ t (if stops then id else Ledger.handle query) d ∧
      (∀ read ∈ (queriesRead t).dropLast, read.2 = false) ∧
      (stops = false → ∀ read ∈ queriesRead t, read.2 = false) := by
  obtain ⟨t, u, entries, hjournal, hclosed, hall, hbalance, hlast, hunbooked, hverdict⟩ := h.told
  obtain ⟨hclosed', hread⟩ :=
    hclosed.append_completed query (fun x hx => (hunbooked x hx).unread) hverdict
  have hsolved : queriesSolved (t ++ .completed query :: u) = queriesSolved t := by
    change queriesSolved (t ++ ([.completed query] ++ u)) = _
    rw [queriesSolved_append, queriesSolved_append, queriesSolved_of_unbooked hunbooked]
    exact List.append_nil _
  refine ⟨t ++ .completed query :: u, ⟨hjournal, hclosed', fun read hmem => ?_, ?_⟩, ?_, ?_⟩
  · rw [hread] at hmem
    rcases List.mem_append.1 hmem with hmem | hmem
    · exact (hall read hmem).1
    · obtain rfl := List.mem_singleton.1 hmem
      exact h.entered
  · rw [hread, List.foldl_append, hbalance, hsolved, hlast]
    cases stops <;> rfl
  · rw [hread, List.dropLast_concat]
    exact fun read hmem => (hall read hmem).2
  · rintro rfl read hmem
    rw [hread] at hmem
    rcases List.mem_append.1 hmem with hmem | hmem
    · exact (hall read hmem).2
    · obtain rfl := List.mem_singleton.1 hmem
      rfl

theorem Pending.final (h : Pending accepts l₀ j₀ query [stripped query] (some true) d) :
    Final l₀ j₀ d := by
  obtain ⟨t, htold, hlast, -⟩ := h.told_of_verdict
  exact ⟨t, htold, hlast⟩

theorem Pending.account (h : Pending accepts l₀ j₀ query [stripped query] (some false) d) :
    Account accepts l₀ j₀ (Ledger.handle query) d := by
  obtain ⟨t, htold, -, hall⟩ := h.told_of_verdict
  exact ⟨⟨t, htold, hall rfl⟩, h.canonical, h.output⟩

end Books

end LogicConsole
