import LogicConsole.Proofs.Dealings
/-! The books of a session: which entries its history has and which queries went to the engine,
reckoned from the queries that were read alone. The events of a run tell what was read, and whether
an interrupt stopped the session before the query was handled. -/
namespace LogicConsole

/-- A query without the line ends behind it. -/
def stripped (query : String) : String :=
  String.ofList (Text.dropEnd History.isLineEnd query.toList)

/-- The entries of a history, and the queries sent to the engine. -/
structure Ledger where
  entries : List String
  dispatched : List String
  deriving DecidableEq, Repr

namespace Ledger

/-- The entry numbered `n`, counted from one. -/
def nth (n : Nat) (l : Ledger) : Option String := if n = 0 then none else l.entries[n - 1]?

def enter (entry : String) (l : Ledger) : Ledger := { l with entries := l.entries ++ [entry] }

def dispatch (query : String) (l : Ledger) : Ledger :=
  { l with dispatched := l.dispatched ++ [query] }

/-- An entry that is no command is entered again and dispatched with a line feed. -/
def rerun (n : Nat) (l : Ledger) : Ledger :=
  match l.nth n with
  | none => l
  | some entry =>
    if (MetaCommand.parse entry).isSome then l else (l.enter entry).dispatch (entry ++ "\n")

/-- What becomes of a query that has been entered. -/
def handle (query : String) (l : Ledger) : Ledger :=
  match MetaCommand.parse query with
  | none => l.dispatch query
  | some (.rerun n) => l.rerun n
  | some _ => l

/-- A query that was read is entered, and handled unless the session stops first. -/
def take (l : Ledger) (read : String × Bool) : Ledger :=
  if read.2 then l.enter (stripped read.1) else (l.enter (stripped read.1)).handle read.1

end Ledger

/-- Whether an interrupt that is served before the next phase stops the session, by the halt flag it
leaves or by a failure; `none` when neither has come yet. -/
def verdict : List Event → Option Bool
  | [] => none
  | .interrupted result halted :: _ => some (halted || !result.isOk)
  | .entered _ :: _ => some false
  | _ :: rest => verdict rest

/-- The queries read, each with whether the session stopped before it was handled. -/
def queriesRead : List Event → List (String × Bool)
  | [] => []
  | .completed query :: rest => (query, verdict rest == some true) :: queriesRead rest
  | _ :: rest => queriesRead rest

def queriesSolved : List Event → List String
  | [] => []
  | .solved query _ _ :: rest => query :: queriesSolved rest
  | _ :: rest => queriesSolved rest

/-- No query is read. -/
def Event.Unread : Event → Prop
  | .completed _ => False
  | _ => True

/-- Neither a query read nor one sent to the engine. -/
def Event.Unbooked : Event → Prop
  | .completed _ | .solved _ _ _ => False
  | _ => True

theorem Event.Unbooked.unread {e : Event} (h : e.Unbooked) : e.Unread := by
  cases e <;> trivial

theorem Event.Idle.unbooked {e : Event} (h : e.Idle) : e.Unbooked := by
  cases e <;> trivial

theorem verdict_append (t u : List Event) : verdict (t ++ u) = (verdict t).or (verdict u) := by
  induction t with
  | nil => rfl
  | cons e t ih => cases e <;> first | rfl | exact ih

theorem verdict_of_raised {t : List Event} (h : ∀ e ∈ t, e = .raised) : verdict t = none := by
  induction t with
  | nil => rfl
  | cons e t ih =>
    rw [h e (by simp)]
    exact ih fun x hx => h x (by simp [hx])

theorem queriesSolved_append (t u : List Event) :
    queriesSolved (t ++ u) = queriesSolved t ++ queriesSolved u := by
  induction t with
  | nil => rfl
  | cons e t ih =>
    cases e with
    | solved query result halted => exact congrArg (query :: ·) ih
    | _ => exact ih

theorem queriesSolved_of_unbooked {t : List Event} (h : ∀ e ∈ t, e.Unbooked) :
    queriesSolved t = [] := by
  induction t with
  | nil => rfl
  | cons e t ih =>
    have he := h e (by simp)
    have hrest := ih fun x hx => h x (by simp [hx])
    cases e <;> first | exact he.elim | exact hrest

theorem queriesRead_of_unread {t : List Event} (h : ∀ e ∈ t, e.Unread) (u : List Event) :
    queriesRead (t ++ u) = queriesRead u := by
  induction t with
  | nil => rfl
  | cons e t ih =>
    have he := h e (by simp)
    have hrest := ih fun x hx => h x (by simp [hx])
    cases e <;> first | exact he.elim | exact hrest

namespace Dialogue

variable {κ ο : Type} {d d' : Dialogue κ ο}

/-- The queries sent to the engine up to now. -/
def dispatched (d : Dialogue κ ο) : List String := queriesSolved d.journal.reverse

theorem dispatched_of_journal {t : List Event} (h : d'.journal = t ++ d.journal) :
    d'.dispatched = d.dispatched ++ queriesSolved t.reverse := by
  unfold dispatched
  rw [h, List.reverse_append, queriesSolved_append]

theorem dispatched_of_adds (h : Journal.Adds Event.Unbooked d.journal d'.journal) :
    d'.dispatched = d.dispatched := by
  obtain ⟨t, ht, hall⟩ := h
  have hnone : queriesSolved t.reverse = [] :=
    queriesSolved_of_unbooked fun e he => hall e (List.mem_reverse.1 he)
  rw [dispatched_of_journal ht, hnone, List.append_nil]

theorem dispatched_note {e : Event} (he : e.Unbooked) (d : Dialogue κ ο) :
    (d.note e).dispatched = d.dispatched :=
  dispatched_of_adds ((journal_note e d).of_raised he trivial)

end Dialogue

/-- Whatever comes behind these events, it does not change what they tell. -/
def Sealed (t : List Event) : Prop := ∀ u, queriesRead (t ++ u) = queriesRead t ++ queriesRead u

theorem sealed_nil : Sealed [] := fun _ => rfl

theorem Sealed.append_unread {t u : List Event} (h : Sealed t) (hu : ∀ e ∈ u, e.Unread) :
    Sealed (t ++ u) ∧ queriesRead (t ++ u) = queriesRead t := by
  have hnone : queriesRead u = [] := by
    have := queriesRead_of_unread hu []
    rwa [List.append_nil] at this
  have hread : queriesRead (t ++ u) = queriesRead t := by rw [h, hnone, List.append_nil]
  refine ⟨fun v => ?_, hread⟩
  rw [hread, List.append_assoc, h, queriesRead_of_unread hu]

/-- A query is told for good once it is clear whether the session stops. -/
theorem Sealed.append_completed {t u : List Event} {stops : Bool} (h : Sealed t) (query : String)
    (hu : ∀ e ∈ u, e.Unread) (hstops : verdict u = some stops) :
    Sealed (t ++ .completed query :: u) ∧
      queriesRead (t ++ .completed query :: u) = queriesRead t ++ [(query, stops)] := by
  have htold (v : List Event) :
      queriesRead (.completed query :: u ++ v) = (query, stops) :: queriesRead v := by
    have hverdict : (verdict (u ++ v) == some true) = stops := by
      rw [verdict_append, hstops]
      cases stops <;> rfl
    change (query, verdict (u ++ v) == some true) :: queriesRead (u ++ v) = _
    rw [hverdict, queriesRead_of_unread hu]
  have hread : queriesRead (t ++ .completed query :: u) = queriesRead t ++ [(query, stops)] := by
    have := htold []
    rw [List.append_nil] at this
    rw [h, this]
    rfl
  refine ⟨fun v => ?_, hread⟩
  rw [hread, List.append_assoc, h, htold, List.append_assoc]
  rfl

end LogicConsole
