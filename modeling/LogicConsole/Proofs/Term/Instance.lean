import LogicConsole.Term.Matching
import Mathlib.Data.List.Forall2
import Mathlib.Data.List.Sort
import Mathlib.Logic.Function.Basic
/-!
Facts as instances of a goal. An assignment gives values to the named variables of a goal, and makes
it a fact if every argument of the goal is then what the fact has at its place. Matching finds the
one assignment that does so, and lists it in the order in which the goal mentions its variables.
-/
namespace LogicConsole.Term

/-- The variables of a goal that have a value: their names do not start with an underscore. -/
def Named (goal : Term) : Type :=
  { name : String // .var name ∈ goal.args ∧ name.toList.head? ≠ some '_' }

abbrev Assignment (goal : Term) : Type := goal.Named → String

/-- The arguments mention the variable of one binding before that of the other. -/
def Earlier (args : List Arg) (p q : String × String) : Prop :=
  args.idxOf (.var p.1) < args.idxOf (.var q.1)

namespace Assignment

variable {goal : Term}

/-- With these values for its named variables, and anything for the others, the goal is the fact. -/
structure Makes (values : goal.Assignment) (fact : Term) : Prop where
  ground : fact.isGround
  functor : fact.functor = goal.functor
  arity : fact.arity = goal.arity
  atom {i : Nat} {name : String} (h : goal.args[i]? = some (.atom name)) :
    fact.args[i]? = some (.atom name)
  var {i : Nat} {x : goal.Named} (h : goal.args[i]? = some (.var x.1)) :
    fact.args[i]? = some (.atom (values x))

/-- The bindings are those of the assignment, in the order in which the goal first mentions its
variables; so no variable is bound twice. -/
structure Lists (values : goal.Assignment) (bindings : Bindings) : Prop where
  ordered : bindings.Pairwise (Earlier goal.args)
  mem_iff (name value : String) :
    (name, value) ∈ bindings ↔ ∃ x : goal.Named, x.1 = name ∧ values x = value

end Assignment

section Steps

variable {bindings bindings' : Bindings} {goal fact : Arg} {goals facts seen : List Arg}
  {σ : String → String}

/-- The bindings when an argument of the goal has been compared with the value in its place. -/
inductive Takes (bindings : Bindings) : Arg → String → Bindings → Prop
  | atom (value : String) : Takes bindings (.atom value) value bindings
  | anonymous {name : String} (h : isAnonymous name = true) (value : String) :
    Takes bindings (.var name) value bindings
  | bound {name value : String} (h : isAnonymous name = false)
    (hbound : bindings.lookup name = some value) : Takes bindings (.var name) value bindings
  | fresh {name : String} (h : isAnonymous name = false) (hfree : bindings.lookup name = none)
    (value : String) : Takes bindings (.var name) value (bindings ++ [(name, value)])

theorem matchArg_eq_some_iff :
    matchArg bindings goal fact = some bindings' ↔
      ∃ value, fact = .atom value ∧ Takes bindings goal value bindings' := by
  constructor
  · intro h
    cases fact with
    | var name => cases goal <;> cases h
    | atom value =>
      refine ⟨value, rfl, ?_⟩
      cases goal with
      | atom name =>
        rw [matchArg, Option.ite_none_right_eq_some] at h
        obtain ⟨rfl, h⟩ := h
        cases h
        exact .atom name
      | var name =>
        rw [matchArg] at h
        split at h
        · rename_i hname
          cases h
          exact .anonymous hname value
        · rename_i hname
          rw [Bool.not_eq_true] at hname
          unfold bind at h
          split at h
          · rename_i bound hbound
            rw [Option.ite_none_right_eq_some] at h
            obtain ⟨rfl, h⟩ := h
            cases h
            exact .bound hname hbound
          · rename_i hfree
            cases h
            exact .fresh hname hfree value
  · rintro ⟨value, rfl, h⟩
    cases h with
    | atom => simp [matchArg]
    | anonymous hname => simp [matchArg, hname]
    | bound hname hbound => simp [matchArg, bind, hname, hbound]
    | fresh hname hfree => simp [matchArg, bind, hname, hfree]

/-- What a goal's argument demands of the values and of the fact's argument. -/
def Demands (σ : String → String) : Arg → Arg → Prop
  | _, .var _ => False
  | .atom name, .atom value => name = value
  | .var name, .atom value => isAnonymous name = true ∨ σ name = value

def Agrees (σ : String → String) (bindings : Bindings) : Prop := ∀ p ∈ bindings, σ p.1 = p.2

theorem Agrees.of_lookup (h : Agrees σ bindings) {name value : String}
    (hbound : bindings.lookup name = some value) : σ name = value := by
  obtain ⟨before, after, rfl, -⟩ := List.lookup_eq_some_iff.1 hbound
  exact h (name, value) (by simp)

theorem agrees_concat {name value : String} :
    Agrees σ (bindings ++ [(name, value)]) ↔ Agrees σ bindings ∧ σ name = value := by
  simp [Agrees, or_imp, forall_and]

/-- Comparing one argument narrows the values that are possible down by what it demands, and fails
if no values are left. -/
theorem matchArg_agrees (σ : String → String) (bindings : Bindings) (goal fact : Arg) :
    (∃ bindings', matchArg bindings goal fact = some bindings' ∧ Agrees σ bindings') ↔
      Agrees σ bindings ∧ Demands σ goal fact := by
  simp only [matchArg_eq_some_iff]
  constructor
  · rintro ⟨bindings', ⟨value, rfl, htakes⟩, hagrees⟩
    cases htakes with
    | atom => exact ⟨hagrees, rfl⟩
    | anonymous hname => exact ⟨hagrees, .inl hname⟩
    | bound hname hbound => exact ⟨hagrees, .inr (hagrees.of_lookup hbound)⟩
    | fresh hname hfree =>
      obtain ⟨hagrees, hvalue⟩ := agrees_concat.1 hagrees
      exact ⟨hagrees, .inr hvalue⟩
  · rintro ⟨hagrees, hdemands⟩
    cases fact with
    | var name => cases goal <;> exact hdemands.elim
    | atom value =>
      cases goal with
      | atom name =>
        obtain rfl : name = value := hdemands
        exact ⟨bindings, ⟨name, rfl, .atom name⟩, hagrees⟩
      | var name =>
        cases hname : isAnonymous name with
        | true => exact ⟨bindings, ⟨value, rfl, .anonymous hname value⟩, hagrees⟩
        | false =>
          have hvalue : σ name = value := hdemands.resolve_left (by simp [hname])
          cases hlookup : bindings.lookup name with
          | none =>
            exact ⟨_, ⟨value, rfl, .fresh hname hlookup value⟩, agrees_concat.2 ⟨hagrees, hvalue⟩⟩
          | some bound =>
            have hbound : bound = value := (hagrees.of_lookup hlookup).symm.trans hvalue
            exact ⟨bindings, ⟨value, rfl, .bound hname (hbound ▸ hlookup)⟩, hagrees⟩

theorem matchArgs_cons (bindings : Bindings) (goal fact : Arg) (goals facts : List Arg) :
    matchArgs bindings (goal :: goals) (fact :: facts) =
      (matchArg bindings goal fact).bind fun bindings => matchArgs bindings goals facts := rfl

/-- What is left are the values that meet all demands. -/
theorem matchArgs_agrees (σ : String → String) (hlength : goals.length = facts.length)
    (bindings : Bindings) :
    (∃ bindings', matchArgs bindings goals facts = some bindings' ∧ Agrees σ bindings') ↔
      Agrees σ bindings ∧ List.Forall₂ (Demands σ) goals facts := by
  induction goals generalizing facts bindings with
  | nil =>
    obtain rfl := List.eq_nil_of_length_eq_zero hlength.symm
    simp [matchArgs]
  | cons goal goals ih =>
    cases facts with
    | nil => simp at hlength
    | cons fact facts =>
      have hrest : goals.length = facts.length := Nat.succ.inj hlength
      simp only [matchArgs_cons, Option.bind_eq_some_iff, List.forall₂_cons]
      rw [← and_assoc, ← matchArg_agrees]
      constructor
      · rintro ⟨bindings', ⟨between, hfirst, hmatch⟩, hagrees⟩
        obtain ⟨hbetween, hdemands⟩ := (ih hrest between).1 ⟨bindings', hmatch, hagrees⟩
        exact ⟨⟨between, hfirst, hbetween⟩, hdemands⟩
      · rintro ⟨⟨between, hfirst, hbetween⟩, hdemands⟩
        obtain ⟨bindings', hmatch, hagrees⟩ := (ih hrest between).2 ⟨hbetween, hdemands⟩
        exact ⟨bindings', ⟨between, hfirst, hmatch⟩, hagrees⟩

/-- The bindings when the arguments `seen` have been compared: one for each named variable among
them, in the order of first mention. -/
structure Covers (seen : List Arg) (bindings : Bindings) : Prop where
  ordered : bindings.Pairwise (Earlier seen)
  mem_iff (name : String) :
    name ∈ bindings.map Prod.fst ↔ .var name ∈ seen ∧ isAnonymous name = false

theorem covers_nil : Covers [] [] := ⟨.nil, by simp⟩

theorem Covers.mem_seen (h : Covers seen bindings) {p : String × String} (hp : p ∈ bindings) :
    .var p.1 ∈ seen := ((h.mem_iff p.1).1 (List.mem_map_of_mem hp)).1

/-- What has been mentioned first stays so when the goal goes on. -/
theorem Covers.ordered_concat (h : Covers seen bindings) (goal : Arg) :
    bindings.Pairwise (Earlier (seen ++ [goal])) := by
  refine h.ordered.imp_of_mem fun {p q} hp hq hlt => ?_
  unfold Earlier at hlt ⊢
  rwa [List.idxOf_append_of_mem (h.mem_seen hp), List.idxOf_append_of_mem (h.mem_seen hq)]

theorem Covers.step (h : Covers seen bindings) {value : String}
    (htakes : Takes bindings goal value bindings') : Covers (seen ++ [goal]) bindings' := by
  cases htakes with
  | atom =>
    refine ⟨h.ordered_concat _, fun name => ?_⟩
    simp [h.mem_iff]
  | @anonymous x hx =>
    refine ⟨h.ordered_concat _, fun name => ?_⟩
    rw [h.mem_iff]
    have hother : isAnonymous name = false → name ≠ x := by
      rintro hname rfl
      simp [hx] at hname
    simp only [List.mem_append, List.mem_singleton, Arg.var.injEq]
    tauto
  | @bound x _ hx hbound =>
    refine ⟨h.ordered_concat _, fun name => ?_⟩
    have hmem : .var x ∈ seen := by
      obtain ⟨before, after, rfl, -⟩ := List.lookup_eq_some_iff.1 hbound
      exact ((h.mem_iff x).1 (by simp)).1
    rw [h.mem_iff]
    simp only [List.mem_append, List.mem_singleton, Arg.var.injEq]
    refine and_congr_left fun _ => ⟨.inl, ?_⟩
    rintro (hname | rfl)
    · exact hname
    · exact hmem
  | @fresh x hx hfree =>
    have hnew : .var x ∉ seen := by
      intro hmem
      obtain ⟨p, hp, hname⟩ := List.mem_map.1 ((h.mem_iff x).2 ⟨hmem, hx⟩)
      have hne := List.lookup_eq_none_iff.1 hfree p hp
      simp [hname] at hne
    refine ⟨List.pairwise_append.2 ⟨h.ordered_concat _, List.pairwise_singleton _ _, ?_⟩,
      fun name => ?_⟩
    · intro p hp q hq
      obtain rfl := List.mem_singleton.1 hq
      unfold Earlier
      rw [List.idxOf_append_of_mem (h.mem_seen hp), List.idxOf_append_of_notMem hnew]
      exact Nat.lt_add_right _ (List.idxOf_lt_length_iff.2 (h.mem_seen hp))
    · rw [List.map_append, List.mem_append, h.mem_iff]
      simp only [List.map_cons, List.map_nil, List.mem_append, List.mem_singleton, Arg.var.injEq]
      constructor
      · rintro (hold | rfl)
        · exact ⟨.inl hold.1, hold.2⟩
        · exact ⟨.inr rfl, hx⟩
      · rintro ⟨hold | hsame, hname⟩
        · exact .inl ⟨hold, hname⟩
        · exact .inr hsame

theorem Covers.matchArgs (h : Covers seen bindings) (hlength : goals.length = facts.length)
    (hmatch : matchArgs bindings goals facts = some bindings') :
    Covers (seen ++ goals) bindings' := by
  induction goals generalizing facts seen bindings with
  | nil =>
    obtain rfl := List.eq_nil_of_length_eq_zero hlength.symm
    cases hmatch
    simpa using h
  | cons goal goals ih =>
    cases facts with
    | nil => simp at hlength
    | cons fact facts =>
      rw [matchArgs_cons, Option.bind_eq_some_iff] at hmatch
      obtain ⟨between, hfirst, hrest⟩ := hmatch
      obtain ⟨value, -, htakes⟩ := matchArg_eq_some_iff.1 hfirst
      have hnext := ih (h.step htakes) (Nat.succ.inj hlength) hrest
      rwa [List.append_assoc] at hnext

/-- Bindings that name each variable once are those of some values. -/
theorem Covers.exists_agrees (h : Covers seen bindings) : ∃ σ, Agrees σ bindings := by
  refine ⟨fun name => (bindings.lookup name).getD "", fun p hp => ?_⟩
  obtain ⟨before, after, rfl⟩ := List.append_of_mem hp
  have hfirst : ∀ q ∈ before, (p.1 != q.1) = true := by
    intro q hq
    have hlt := (List.pairwise_append.1 h.ordered).2.2 q hq p (by simp)
    refine bne_iff_ne.2 fun heq => ?_
    rw [Earlier, heq] at hlt
    exact Nat.lt_irrefl _ hlt
  have hlookup : (before ++ p :: after).lookup p.1 = some p.2 :=
    List.lookup_eq_some_iff.2 ⟨before, after, rfl, hfirst⟩
  simp [hlookup]

end Steps

section Instances

variable {goal fact : Term} {bindings : Bindings} {σ τ : String → String}

theorem isAnonymous_eq_false_iff {name : String} :
    isAnonymous name = false ↔ name.toList.head? ≠ some '_' := by
  simp [isAnonymous]

/-- Values for all names, used for the named variables of the goal. -/
def assign (goal : Term) (σ : String → String) : goal.Assignment := fun x => σ x.1

theorem exists_assign (values : goal.Assignment) : ∃ σ, goal.assign σ = values :=
  ⟨Function.extend Subtype.val values fun _ => "",
    funext fun x => Subtype.val_injective.extend_apply values _ x⟩

theorem atom_of_demands {goals facts : List Arg} (h : List.Forall₂ (Demands σ) goals facts) :
    ∀ a ∈ facts, ∃ name, a = .atom name := by
  induction h with
  | nil => simp
  | @cons goal fact goals facts hdemands _ ih =>
    intro a ha
    rcases List.mem_cons.1 ha with rfl | ha
    · cases a with
      | atom value => exact ⟨value, rfl⟩
      | var name => cases goal <;> exact hdemands.elim
    · exact ih a ha

/-- The demands of all arguments are what it takes to make the goal the fact. -/
theorem makes_assign_iff :
    (goal.assign σ).Makes fact ↔ goal.functor = fact.functor ∧ goal.arity = fact.arity ∧
      List.Forall₂ (Demands σ) goal.args fact.args := by
  constructor
  · intro h
    refine ⟨h.functor.symm, h.arity.symm, List.forall₂_iff_get.2 ⟨h.arity.symm, ?_⟩⟩
    intro i hgoal hfact
    obtain ⟨value, hvalue⟩ := isGround_iff.1 h.ground _ (List.getElem_mem hfact)
    simp only [List.get_eq_getElem, hvalue]
    have hplace : fact.args[i]? = some (.atom value) := by
      rw [List.getElem?_eq_getElem hfact, hvalue]
    cases harg : goal.args[i] with
    | atom name =>
      have hsame := h.atom (List.getElem?_eq_some_iff.2 ⟨hgoal, harg⟩)
      rw [hplace] at hsame
      cases hsame
      rfl
    | var name =>
      cases hname : isAnonymous name with
      | true => exact .inl hname
      | false =>
        have hmem : .var name ∈ goal.args := harg ▸ List.getElem_mem hgoal
        have hsame := h.var (x := ⟨name, hmem, isAnonymous_eq_false_iff.1 hname⟩)
          (List.getElem?_eq_some_iff.2 ⟨hgoal, harg⟩)
        rw [hplace] at hsame
        cases hsame
        exact .inr rfl
  · rintro ⟨hfunctor, harity, hdemands⟩
    have hat {i : Nat} {a : Arg} (h : goal.args[i]? = some a) :
        ∃ b, fact.args[i]? = some b ∧ Demands σ a b := by
      obtain ⟨hi, rfl⟩ := List.getElem?_eq_some_iff.1 h
      have hi' : i < fact.args.length := hdemands.length_eq ▸ hi
      exact ⟨fact.args[i], List.getElem?_eq_getElem hi',
        (List.forall₂_iff_get.1 hdemands).2 i hi hi'⟩
    refine ⟨isGround_iff.2 (atom_of_demands hdemands), hfunctor.symm, harity.symm, ?_, ?_⟩
    · intro i name h
      obtain ⟨b, hb, hdemand⟩ := hat h
      cases b with
      | var other => exact hdemand.elim
      | atom value =>
        obtain rfl : name = value := hdemand
        exact hb
    · intro i x h
      obtain ⟨b, hb, hdemand⟩ := hat h
      cases b with
      | var other => exact hdemand.elim
      | atom value =>
        have hname := isAnonymous_eq_false_iff.2 x.2.2
        have hvalue : σ x.1 = value := hdemand.resolve_left (by simp [hname])
        rw [hb, assign, hvalue]

/-- The goal matches with the bindings that the values agree with, if they make it the fact. -/
theorem matchFact_agrees (goal fact : Term) (σ : String → String) :
    (∃ bindings, goal.matchFact fact = some bindings ∧ Agrees σ bindings) ↔
      (goal.assign σ).Makes fact := by
  rw [makes_assign_iff]
  unfold matchFact
  split
  · rename_i hsame
    rw [matchArgs_agrees σ hsame.2 []]
    simp [Agrees, hsame.1, hsame.2]
  · rename_i hother
    simp only [reduceCtorEq, false_and, exists_false, false_iff, not_and]
    exact fun hfunctor harity => absurd ⟨hfunctor, harity⟩ hother

theorem covers_of_matchFact (h : goal.matchFact fact = some bindings) :
    Covers goal.args bindings := by
  unfold matchFact at h
  split at h
  · rename_i hsame
    exact covers_nil.matchArgs hsame.2 h
  · cases h

theorem Covers.lists (h : Covers goal.args bindings) (hagrees : Agrees σ bindings) :
    (goal.assign σ).Lists bindings where
  ordered := h.ordered
  mem_iff name value := by
    constructor
    · intro hmem
      obtain ⟨hname, hnamed⟩ := (h.mem_iff name).1 (List.mem_map_of_mem hmem)
      exact ⟨⟨name, hname, isAnonymous_eq_false_iff.1 hnamed⟩, rfl, hagrees _ hmem⟩
    · rintro ⟨x, rfl, rfl⟩
      have hkey := (h.mem_iff x.1).2 ⟨x.2.1, isAnonymous_eq_false_iff.2 x.2.2⟩
      obtain ⟨p, hp, hname⟩ := List.mem_map.1 hkey
      have hvalue : goal.assign σ x = p.2 := by
        rw [← hagrees p hp, hname]
        rfl
      have hpair : p = (x.1, goal.assign σ x) := Prod.ext hname hvalue.symm
      exact hpair ▸ hp

/-- There is one list of bindings for an assignment. -/
theorem Assignment.Lists.unique {values : goal.Assignment} {bindings' : Bindings}
    (h : values.Lists bindings) (h' : values.Lists bindings') : bindings = bindings' := by
  have hirrefl : Std.Irrefl (Earlier goal.args) := ⟨fun _ => Nat.lt_irrefl _⟩
  have hantisymm : Std.Antisymm (Earlier goal.args) :=
    ⟨fun _ _ hp hq => absurd hp (Nat.lt_asymm hq)⟩
  refine List.Pairwise.eq_of_mem_iff h.ordered h'.ordered fun p => ?_
  rw [h.mem_iff, h'.mem_iff]

/-- Two assignments that agree with the same bindings are one. -/
theorem Covers.assign_eq (h : Covers goal.args bindings) (hσ : Agrees σ bindings)
    (hτ : Agrees τ bindings) : goal.assign τ = goal.assign σ := by
  funext x
  have hkey := (h.mem_iff x.1).2 ⟨x.2.1, isAnonymous_eq_false_iff.2 x.2.2⟩
  obtain ⟨p, hp, hname⟩ := List.mem_map.1 hkey
  have hboth : τ p.1 = σ p.1 := (hτ p hp).trans (hσ p hp).symm
  rwa [hname] at hboth

theorem exists_of_matchFact (h : goal.matchFact fact = some bindings) :
    ∃ values : goal.Assignment, values.Makes fact ∧ values.Lists bindings ∧
      ∀ other : goal.Assignment, other.Makes fact → other = values := by
  have hcovers := covers_of_matchFact h
  obtain ⟨σ, hσ⟩ := hcovers.exists_agrees
  refine ⟨goal.assign σ, (matchFact_agrees goal fact σ).1 ⟨bindings, h, hσ⟩, hcovers.lists hσ, ?_⟩
  intro other hother
  obtain ⟨τ, rfl⟩ := exists_assign other
  obtain ⟨bindings', h', hτ⟩ := (matchFact_agrees goal fact τ).2 hother
  obtain rfl := Option.some.inj (h.symm.trans h')
  exact hcovers.assign_eq hσ hτ

/-- If values make the goal the fact, it matches with the bindings that list them. -/
theorem Assignment.Makes.matchFact {values : goal.Assignment} (h : values.Makes fact) :
    ∃ bindings, goal.matchFact fact = some bindings ∧ values.Lists bindings := by
  obtain ⟨σ, rfl⟩ := exists_assign values
  obtain ⟨bindings, hmatch, hσ⟩ := (matchFact_agrees goal fact σ).2 h
  exact ⟨bindings, hmatch, (covers_of_matchFact hmatch).lists hσ⟩

/-- A goal matches a fact if and only if an assignment makes it the fact; there is but one, and the
bindings are its list. -/
theorem matchFact_finds_assignment (goal fact : Term) :
    ((∃ bindings, goal.matchFact fact = some bindings) ↔
        ∃ values : goal.Assignment, values.Makes fact) ∧
      ∀ bindings, goal.matchFact fact = some bindings ↔
        ∃ values : goal.Assignment, values.Makes fact ∧ values.Lists bindings ∧
          ∀ other : goal.Assignment, other.Makes fact → other = values := by
  refine ⟨⟨?_, ?_⟩, fun bindings => ⟨exists_of_matchFact, ?_⟩⟩
  · rintro ⟨bindings, h⟩
    obtain ⟨values, hmakes, -⟩ := exists_of_matchFact h
    exact ⟨values, hmakes⟩
  · rintro ⟨values, hmakes⟩
    obtain ⟨bindings, h, -⟩ := hmakes.matchFact
    exact ⟨bindings, h⟩
  · rintro ⟨values, hmakes, hlists, -⟩
    obtain ⟨bindings', h, hlists'⟩ := hmakes.matchFact
    rw [h, hlists'.unique hlists]

/-- A repeated variable is listed once, one that starts with an underscore not at all. -/
example : matchFact ⟨"p", [.var "Y", .var "_", .var "X", .var "_", .var "Y"]⟩
    ⟨"p", [.atom "b", .atom "c", .atom "a", .atom "d", .atom "b"]⟩ =
      some [("Y", "b"), ("X", "a")] := by decide

end Instances

end LogicConsole.Term
