import LogicConsole.Proofs.Facts.Answers
import LogicConsole.Proofs.Facts.Store
import LogicConsole.Proofs.Term.RoundTrip
import Mathlib.Logic.Relation
/-!
Which answers look alike. A value is shown as it stands, so where one holds the text that stands
between two values, the answer can be read in two ways. It is shown to be the only way in which an
answer is ambiguous: bindings look alike if and only if such text has been shifted from one value to
the next, and each answer has one reading in which there is nothing left to shift.
-/
namespace LogicConsole.FactEngine

open Relation (Join ReflTransGen)

/-- What is shown between a value and that of the variable `next`. -/
def gap (next : String) : String := ", " ++ next ++ " = "

/-- A value that holds the gap behind it is cut there, and what is cut off is shown as part of the
next value. -/
inductive Shifts : Bindings → Bindings → Prop
  | cut (name value moved next value' : String) (rest : Bindings) :
    Shifts ((name, value ++ gap next ++ moved) :: (next, value') :: rest)
      ((name, value) :: (next, moved ++ gap next ++ value') :: rest)
  | later (binding : String × String) {bindings bindings' : Bindings}
    (h : Shifts bindings bindings') : Shifts (binding :: bindings) (binding :: bindings')

/-- No value holds the gap behind it. -/
def Clear (bindings : Bindings) : Prop :=
  bindings.IsChain fun binding next => ¬ (gap next.1).toList <:+: binding.2.toList

instance : DecidablePred Clear := fun bindings =>
  inferInstanceAs (Decidable (bindings.IsChain _))

/-- What is shown behind the first name and its equals sign. -/
def shown : Bindings → String
  | [] => ""
  | [(_, value)] => value
  | (_, value) :: (next, value') :: rest => value ++ gap next ++ shown ((next, value') :: rest)

section Shown

variable {name next value value' : String} {bindings bindings' rest : Bindings}

theorem renderBindings_cons (name value : String) (rest : Bindings) :
    renderBindings ((name, value) :: rest) = name ++ " = " ++ shown ((name, value) :: rest) := by
  induction rest generalizing name value with
  | nil => exact renderBindings_one name value
  | cons next rest ih =>
    obtain ⟨next, value'⟩ := next
    rw [renderBindings_more, ih, shown, gap]
    simp only [String.append_assoc]

theorem shown_append (front : String) (name value : String) (rest : Bindings) :
    shown ((name, front ++ value) :: rest) = front ++ shown ((name, value) :: rest) := by
  cases rest with
  | nil => rfl
  | cons next rest => simp only [shown, String.append_assoc]

theorem Shifts.keys (h : Shifts bindings bindings') :
    bindings'.map Prod.fst = bindings.map Prod.fst := by
  induction h with
  | cut => rfl
  | later binding h ih => rw [List.map_cons, List.map_cons, ih]

/-- The first value is shown in front of all that is shown of the others. -/
theorem shown_cons_congr (name value : String)
    (hkeys : bindings'.map Prod.fst = bindings.map Prod.fst)
    (hshown : shown bindings' = shown bindings) :
    shown ((name, value) :: bindings') = shown ((name, value) :: bindings) := by
  match bindings, bindings' with
  | [], [] => rfl
  | [], _ :: _ | _ :: _, [] => cases hkeys
  | (next, _) :: _, (next', _) :: _ =>
    obtain rfl : next' = next := (List.cons.inj hkeys).1
    rw [shown, shown, hshown]

/-- Shifted text is shown where it was. -/
theorem Shifts.shown_eq (h : Shifts bindings bindings') : shown bindings' = shown bindings := by
  induction h with
  | cut name value moved next value' rest =>
    rw [shown, shown_append, shown]
    simp only [String.append_assoc]
  | later binding h ih => exact shown_cons_congr binding.1 binding.2 h.keys ih

theorem Shifts.ne (h : Shifts bindings bindings') : bindings' ≠ bindings := by
  induction h with
  | cut name value moved next value' rest =>
    intro heq
    have hlength := congrArg String.length (Prod.mk.inj (List.cons.inj heq).1).2
    have hgap : (gap next).length = 2 + next.length + 3 := by
      rw [gap, String.length_append, String.length_append]
      rfl
    simp only [String.length_append] at hlength
    omega
  | later binding h ih => exact fun heq => ih (List.cons.inj heq).2

end Shown

section Cuts

variable {first first' rest rest' next : String} {bindings bindings' : Bindings}

/-- A comma opens the gap, and no other comma is in it. -/
theorem exists_gap (hnext : ',' ∉ next.toList) :
    ∃ between, (gap next).toList = ',' :: between ∧ ',' ∉ between := by
  refine ⟨' ' :: (next.toList ++ [' ', '=', ' ']), by simp [gap], ?_⟩
  simp [hnext]

/-- What two texts have in common behind different beginnings starts in the longer one with a mark
of its own, if there is no such mark further on in it. -/
theorem cut_of_cons_eq {mark : Char} {between extra tail tail' : List Char} (hmark : mark ∉ between)
    (h : mark :: (between ++ tail) = extra ++ mark :: (between ++ tail')) :
    extra = [] ∧ tail = tail' ∨
      ∃ moved, extra = mark :: (between ++ moved) ∧ tail = moved ++ mark :: (between ++ tail') := by
  cases extra with
  | nil => exact .inl ⟨rfl, List.append_cancel_left (List.cons.inj h).2⟩
  | cons c extra =>
    rw [List.cons_append, List.cons.injEq] at h
    obtain ⟨rfl, htails⟩ := h
    refine .inr ?_
    rcases List.append_eq_append_iff.1 htails with ⟨moved, rfl, htail⟩ | ⟨later, hbetween, hlater⟩
    · exact ⟨moved, rfl, htail⟩
    · cases later with
      | nil => exact ⟨[], by simp [hbetween], by simpa using hlater.symm⟩
      | cons d later =>
        obtain ⟨rfl, -⟩ := List.cons.inj hlater
        exact absurd (hbetween ▸ List.mem_append_right _ List.mem_cons_self) hmark

/-- One gap in the same text at two places: the value before it that is longer holds it. -/
theorem gap_cases (hnext : ',' ∉ next.toList)
    (h : first ++ gap next ++ rest = first' ++ gap next ++ rest') :
    first = first' ∧ rest = rest' ∨
      (∃ moved, first' = first ++ gap next ++ moved ∧ rest = moved ++ gap next ++ rest') ∨
      ∃ moved, first = first' ++ gap next ++ moved ∧ rest' = moved ++ gap next ++ rest := by
  obtain ⟨between, hgap, hcomma⟩ := exists_gap hnext
  have htexts := congrArg String.toList h
  simp only [String.toList_append, hgap, List.append_assoc, List.cons_append] at htexts
  simp only [← String.toList_inj, String.toList_append, hgap, List.append_assoc, List.cons_append]
  rcases List.append_eq_append_iff.1 htexts with ⟨extra, hfirst, heq⟩ | ⟨extra, hfirst, heq⟩
  · rcases cut_of_cons_eq hcomma heq with ⟨rfl, hrest⟩ | ⟨moved, rfl, hrest⟩
    · exact .inl ⟨by simpa using hfirst.symm, hrest⟩
    · exact .inr (.inl ⟨String.ofList moved, by simpa using hfirst, by simpa using hrest⟩)
  · rcases cut_of_cons_eq hcomma heq with ⟨rfl, hrest⟩ | ⟨moved, rfl, hrest⟩
    · exact .inl ⟨by simpa using hfirst, hrest.symm⟩
    · exact .inr (.inr ⟨String.ofList moved, by simpa using hfirst, by simpa using hrest⟩)

end Cuts

section Readings

variable {bindings bindings' : Bindings}

theorem shifts_later (binding : String × String) (h : ReflTransGen Shifts bindings bindings') :
    ReflTransGen Shifts (binding :: bindings) (binding :: bindings') :=
  h.lift (binding :: ·) fun _ _ => .later binding

theorem shown_of_shifts (h : ReflTransGen Shifts bindings bindings') :
    shown bindings' = shown bindings := by
  induction h with
  | refl => rfl
  | tail _ h ih => exact h.shown_eq.trans ih

theorem exists_of_keys {name : String} {names : List String}
    (h : bindings.map Prod.fst = name :: names) :
    ∃ value rest, bindings = (name, value) :: rest ∧ rest.map Prod.fst = names := by
  obtain ⟨⟨key, value⟩, rest, rfl, hkey, hrest⟩ := List.map_eq_cons_iff.1 h
  obtain rfl : key = name := hkey
  exact ⟨value, rest, rfl, hrest⟩

/-- Bindings of the same names that look alike come to the same when text is shifted. At the first
value in which they differ the longer one is cut, and then the others look alike, too. -/
theorem join_of_shown {names : List String} (hcomma : ∀ name ∈ names, ',' ∉ name.toList)
    (hkeys : bindings.map Prod.fst = names) (hkeys' : bindings'.map Prod.fst = names)
    (hshown : shown bindings = shown bindings') :
    Join (ReflTransGen Shifts) bindings bindings' := by
  induction names generalizing bindings bindings' with
  | nil =>
    obtain rfl : bindings = [] := List.map_eq_nil_iff.1 hkeys
    obtain rfl : bindings' = [] := List.map_eq_nil_iff.1 hkeys'
    exact ⟨_, .refl, .refl⟩
  | cons name names ih =>
    obtain ⟨value, rest, rfl, hrest⟩ := exists_of_keys hkeys
    obtain ⟨value', rest', rfl, hrest'⟩ := exists_of_keys hkeys'
    cases names with
    | nil =>
      obtain rfl : rest = [] := List.map_eq_nil_iff.1 hrest
      obtain rfl : rest' = [] := List.map_eq_nil_iff.1 hrest'
      obtain rfl : value = value' := hshown
      exact ⟨_, .refl, .refl⟩
    | cons next names =>
      obtain ⟨after, rest, rfl, -⟩ := exists_of_keys hrest
      obtain ⟨after', rest', rfl, -⟩ := exists_of_keys hrest'
      have hbehind {value value' : String}
          (h : shown ((next, value) :: rest) = shown ((next, value') :: rest')) :
          Join (ReflTransGen Shifts) ((next, value) :: rest) ((next, value') :: rest') :=
        ih (fun name hname => hcomma name (List.mem_cons_of_mem _ hname)) hrest hrest' h
      rcases gap_cases (hcomma next (by simp)) hshown with
        ⟨rfl, h⟩ | ⟨moved, rfl, h⟩ | ⟨moved, rfl, h⟩
      · obtain ⟨common, hleft, hright⟩ := hbehind h
        exact ⟨_, shifts_later _ hleft, shifts_later _ hright⟩
      · rw [← shown_append] at h
        obtain ⟨common, hleft, hright⟩ := hbehind h
        exact ⟨_, shifts_later _ hleft, .head (.cut ..) (shifts_later _ hright)⟩
      · rw [← shown_append] at h
        obtain ⟨common, hleft, hright⟩ := hbehind h.symm
        exact ⟨_, .head (.cut ..) (shifts_later _ hleft), shifts_later _ hright⟩

/-- Where no value holds the gap behind it, there is nothing to shift. -/
theorem Clear.not_shifts (h : Clear bindings) : ¬ Shifts bindings bindings' := by
  intro hshifts
  induction hshifts with
  | cut name value moved next value' rest =>
    refine (List.isChain_cons_cons.1 h).1 ⟨value.toList, moved.toList, ?_⟩
    simp only [String.toList_append]
  | later binding _ ih => exact ih h.of_cons

theorem Clear.eq_of_shifts (h : Clear bindings) (hshifts : ReflTransGen Shifts bindings bindings') :
    bindings = bindings' := by
  cases hshifts.cases_head with
  | inl heq => exact heq
  | inr hstep =>
    obtain ⟨_, hstep, -⟩ := hstep
    exact absurd hstep h.not_shifts

/-- A value that holds the gap behind it can be cut. -/
theorem exists_shifts (h : ¬ Clear bindings) : ∃ bindings', Shifts bindings bindings' := by
  induction bindings with
  | nil => exact absurd .nil h
  | cons binding rest ih =>
    obtain ⟨name, value⟩ := binding
    match rest with
    | [] => exact absurd (.singleton _) h
    | (next, value') :: rest =>
      by_cases hgap : (gap next).toList <:+: value.toList
      · obtain ⟨before, after, hvalue⟩ := hgap
        obtain rfl : value = String.ofList before ++ gap next ++ String.ofList after := by
          simp [← String.toList_inj, ← hvalue]
        exact ⟨_, .cut ..⟩
      · obtain ⟨rest', hshifts⟩ := ih fun hrest => h (List.isChain_cons_cons.2 ⟨hgap, hrest⟩)
        exact ⟨_, .later _ hshifts⟩

end Readings

section Facts

open Term (ArgText ArgsText NameText TermText isSpace_nil)

variable {goal fact : Term} {bindings bindings' : Bindings}

theorem exists_argText {a : Arg} (h : ∃ name, a = .atom name) : ∃ text, ArgText text a := by
  obtain ⟨name, rfl⟩ := h
  have htext := ArgText.quoted name.toList
  rw [String.ofList_toList] at htext
  exact ⟨_, htext⟩

theorem exists_argsText {args : List Arg} (hne : args ≠ [])
    (h : ∀ a ∈ args, ∃ name, a = .atom name) : ∃ text, ArgsText text args := by
  induction args with
  | nil => exact absurd rfl hne
  | cons a rest ih =>
    obtain ⟨text, ha⟩ := exists_argText (h a List.mem_cons_self)
    cases rest with
    | nil => exact ⟨_, .one isSpace_nil ha isSpace_nil⟩
    | cons b rest =>
      obtain ⟨texts, hrest⟩ :=
        ih (List.cons_ne_nil _ _) fun a ha => h a (List.mem_cons_of_mem _ ha)
      exact ⟨_, .more isSpace_nil ha isSpace_nil hrest⟩

/-- Whatever names it is made of, a ground term can be written with all of them in quotes. -/
theorem isStorable_of_isGround (h : fact.isGround) : IsStorable fact := by
  obtain ⟨functor, args⟩ := fact
  have hname := NameText.quoted functor.toList
  rw [String.ofList_toList] at hname
  have htext : ∃ text, TermText text ⟨functor, args⟩ := by
    cases args with
    | nil => exact ⟨_, .bare isSpace_nil hname isSpace_nil⟩
    | cons a rest =>
      obtain ⟨texts, hargs⟩ := exists_argsText (List.cons_ne_nil a rest) (Term.isGround_iff.1 h)
      exact ⟨_, .applied isSpace_nil hname isSpace_nil hargs isSpace_nil⟩
  obtain ⟨text, htext⟩ := htext
  refine ⟨h, String.ofList text, Term.parse_iff.2 ?_⟩
  rw [String.toList_ofList]
  exact htext.reads

theorem comma_notMem_of_parse {src name : String} (h : Term.parse src = .ok goal)
    (hmem : .var name ∈ goal.args) : ',' ∉ name.toList := by
  have hspelled : Term.IsWord Term.opensVar name.toList :=
    (Term.parse_iff.1 h).spelled _ hmem
  intro hcomma
  have hword := hspelled.all (fun _ => Term.isWordChar_of_opensVar) _ hcomma
  exact absurd hword (by decide)

/-- The arguments mention the one variable before the other. -/
def Before (args : List Arg) (name other : String) : Prop :=
  args.idxOf (.var name) < args.idxOf (.var other)

theorem pairwise_before {seen : List Arg} :
    (bindings.map Prod.fst).Pairwise (Before seen) ↔ bindings.Pairwise (Term.Earlier seen) :=
  List.pairwise_map

/-- Which names are bound, and in which order, is up to the goal alone. -/
theorem keys_of_covers {seen : List Arg} (h : Term.Covers seen bindings)
    (h' : Term.Covers seen bindings') : bindings.map Prod.fst = bindings'.map Prod.fst := by
  have hirrefl : Std.Irrefl (Before seen) := ⟨fun _ => Nat.lt_irrefl _⟩
  have hantisymm : Std.Antisymm (Before seen) :=
    ⟨fun _ _ hp hq => absurd hp (Nat.lt_asymm hq)⟩
  refine List.Pairwise.eq_of_mem_iff (pairwise_before.2 h.ordered) (pairwise_before.2 h'.ordered)
    fun name => ?_
  rw [h.mem_iff, h'.mem_iff]

theorem covers_of_keys {seen : List Arg} (h : Term.Covers seen bindings)
    (hkeys : bindings'.map Prod.fst = bindings.map Prod.fst) : Term.Covers seen bindings' where
  ordered := by
    rw [← pairwise_before, hkeys]
    exact pairwise_before.2 h.ordered
  mem_iff name := by rw [hkeys, h.mem_iff]

/-- The goal with values for its variables. -/
def instantiate (σ : String → String) (goal : Term) : Term :=
  ⟨goal.functor, goal.args.map fun
    | .atom name => .atom name
    | .var name => .atom (σ name)⟩

theorem makes_instantiate (σ : String → String) (goal : Term) :
    (goal.assign σ).Makes (instantiate σ goal) := by
  refine Term.makes_assign_iff.2 ⟨rfl, by simp [Term.arity, instantiate], ?_⟩
  refine List.forall₂_map_right_iff.2 (List.forall₂_same.2 fun a _ => ?_)
  cases a with
  | atom name => rfl
  | var name => exact .inr rfl

/-- Whatever values its variables are given, there is a fact with which the goal matches so. -/
theorem exists_fact (h : Term.Covers goal.args bindings) :
    ∃ fact, IsStorable fact ∧ goal.matchFact fact = some bindings := by
  obtain ⟨σ, hagrees⟩ := h.exists_agrees
  have hmakes := makes_instantiate σ goal
  obtain ⟨found, hmatch, hfound⟩ := (Term.matchFact_agrees goal _ σ).2 hmakes
  have hlists := (Term.covers_of_matchFact hmatch).lists hfound
  obtain rfl := hlists.unique (h.lists hagrees)
  exact ⟨_, isStorable_of_isGround hmakes.ground, hmatch⟩

/-- Bindings of the same goal look alike if and only if they come to the same by shifting. -/
theorem renderBindings_eq_iff {src : String} (hgoal : Term.parse src = .ok goal)
    (h : Term.Covers goal.args bindings) (h' : Term.Covers goal.args bindings') :
    renderBindings bindings = renderBindings bindings' ↔
      Join (ReflTransGen Shifts) bindings bindings' := by
  have hkeys := keys_of_covers h h'
  have hshown : renderBindings bindings = renderBindings bindings' ↔
      shown bindings = shown bindings' := by
    match bindings, bindings' with
    | [], [] => exact ⟨fun _ => rfl, fun _ => rfl⟩
    | [], _ :: _ | _ :: _, [] => cases hkeys
    | (name, value) :: rest, (name', value') :: rest' =>
      obtain rfl : name = name' := (List.cons.inj hkeys).1
      rw [renderBindings_cons, renderBindings_cons, String.append_right_inj]
  rw [hshown]
  constructor
  · refine join_of_shown (fun name hname => ?_) hkeys rfl
    exact comma_notMem_of_parse hgoal ((h'.mem_iff name).1 hname).1
  · rintro ⟨common, hleft, hright⟩
    rw [← shown_of_shifts hleft, shown_of_shifts hright]

/-- An answer determines the bindings it shows if no value holds the gap behind it. In general
answers look alike if and only if their bindings come to the same when text that looks like a gap is
shifted; and wherever there is text to shift, the answer of another fact does look alike. -/
theorem answer_determines_bindings {src : String} {fact' : Term}
    (hgoal : Term.parse src = .ok goal) (hmatch : goal.matchFact fact = some bindings)
    (hmatch' : goal.matchFact fact' = some bindings') :
    (Clear bindings → Clear bindings' → bindings ≠ bindings' →
        renderBindings bindings ≠ renderBindings bindings') ∧
      (renderBindings bindings = renderBindings bindings' ↔
        Join (ReflTransGen Shifts) bindings bindings') ∧
      (¬ Clear bindings → ∃ other bindings'', IsStorable other ∧
        goal.matchFact other = some bindings'' ∧ bindings'' ≠ bindings ∧
        renderBindings bindings'' = renderBindings bindings) := by
  have hcovers := Term.covers_of_matchFact hmatch
  have hcovers' := Term.covers_of_matchFact hmatch'
  refine ⟨fun hclear hclear' hne hsame => ?_, renderBindings_eq_iff hgoal hcovers hcovers',
    fun hclear => ?_⟩
  · obtain ⟨common, hleft, hright⟩ := (renderBindings_eq_iff hgoal hcovers hcovers').1 hsame
    exact hne ((hclear.eq_of_shifts hleft).trans (hclear'.eq_of_shifts hright).symm)
  · obtain ⟨bindings'', hshifts⟩ := exists_shifts hclear
    have hcovers'' := covers_of_keys hcovers hshifts.keys
    obtain ⟨other, hstorable, hother⟩ := exists_fact hcovers''
    refine ⟨other, bindings'', hstorable, hother, hshifts.ne, ?_⟩
    exact (renderBindings_eq_iff hgoal hcovers'' hcovers).2 ⟨_, .refl, .single hshifts⟩

/-- Commas and equals signs in values do no harm by themselves. -/
theorem spaced_values_determined :
    Term.parse "f(X, _, Y)" = .ok ⟨"f", [.var "X", .var "_", .var "Y"]⟩ ∧
      Term.matchFact ⟨"f", [.var "X", .var "_", .var "Y"]⟩
        ⟨"f", [.atom "a, Z = b", .atom "c", .atom "d, Y = e"]⟩ =
          some [("X", "a, Z = b"), ("Y", "d, Y = e")] ∧
      Term.matchFact ⟨"f", [.var "X", .var "_", .var "Y"]⟩
        ⟨"f", [.atom "a, Y= b", .atom "c", .atom "d, Y = e"]⟩ =
          some [("X", "a, Y= b"), ("Y", "d, Y = e")] ∧
      renderBindings [("X", "a, Z = b"), ("Y", "d, Y = e")] ≠
        renderBindings [("X", "a, Y= b"), ("Y", "d, Y = e")] := by
  have hgoal : Term.parse "f(X, _, Y)" = .ok ⟨"f", [.var "X", .var "_", .var "Y"]⟩ := by
    decide +kernel
  have hmatch : Term.matchFact ⟨"f", [.var "X", .var "_", .var "Y"]⟩
      ⟨"f", [.atom "a, Z = b", .atom "c", .atom "d, Y = e"]⟩ =
        some [("X", "a, Z = b"), ("Y", "d, Y = e")] := by decide
  have hmatch' : Term.matchFact ⟨"f", [.var "X", .var "_", .var "Y"]⟩
      ⟨"f", [.atom "a, Y= b", .atom "c", .atom "d, Y = e"]⟩ =
        some [("X", "a, Y= b"), ("Y", "d, Y = e")] := by decide
  exact ⟨hgoal, hmatch, hmatch', (answer_determines_bindings hgoal hmatch hmatch').1
    (by decide +kernel) (by decide +kernel) (by decide)⟩

/-- Two facts of the store with different bindings and one answer: what the one has in its first
value, the other has in its second. -/
theorem shifted_values_alike :
    IsStorable ⟨"f", [.atom "a, Y = b", .atom "c"]⟩ ∧
      IsStorable ⟨"f", [.atom "a", .atom "b, Y = c"]⟩ ∧
      Term.parse "f(X, Y)" = .ok ⟨"f", [.var "X", .var "Y"]⟩ ∧
      Term.matchFact ⟨"f", [.var "X", .var "Y"]⟩ ⟨"f", [.atom "a, Y = b", .atom "c"]⟩ =
        some [("X", "a, Y = b"), ("Y", "c")] ∧
      Term.matchFact ⟨"f", [.var "X", .var "Y"]⟩ ⟨"f", [.atom "a", .atom "b, Y = c"]⟩ =
        some [("X", "a"), ("Y", "b, Y = c")] ∧
      [("X", "a, Y = b"), ("Y", "c")] ≠ [("X", "a"), ("Y", "b, Y = c")] ∧
      renderBindings [("X", "a, Y = b"), ("Y", "c")] =
        renderBindings [("X", "a"), ("Y", "b, Y = c")] :=
  ⟨isStorable_of_isGround rfl, isStorable_of_isGround rfl, by decide +kernel, by decide, by decide,
    by decide, by decide +kernel⟩

end Facts

end LogicConsole.FactEngine
