import LogicConsole.Proofs.Facts.Answers
import Mathlib.Data.List.Count
/-!
Asserting a fact, asking for it and retracting it. A term without variables matches nothing but
itself, and one text of it is read as the same term alone, as a query and as the argument of a call.
So what one query stores, another finds, and a third takes out again.
-/
namespace LogicConsole

open Text Directive

namespace Text

variable {s t : List Char}

theorem endsSolid_concat {c : Char} (h : isBlank c = false) (s : List Char) :
    EndsSolid (s ++ [c]) := by
  intro d hd
  rw [List.getLast?_concat, Option.some.injEq] at hd
  exact hd ▸ h

theorem beginsSolid_cons {c : Char} (h : isBlank c = false) (s : List Char) :
    BeginsSolid (c :: s) := by
  intro d hd
  rw [List.head?_cons, Option.some.injEq] at hd
  exact hd ▸ h

theorem BeginsSolid.append (h : BeginsSolid s) (hne : s ≠ []) (t : List Char) :
    BeginsSolid (s ++ t) := by
  intro c hc
  rw [List.head?_append_of_ne_nil _ hne] at hc
  exact h c hc

theorem trimmed_of_solid (hbegin : BeginsSolid s) (hend : EndsSolid s) : Trimmed s s :=
  ⟨hbegin, hend, [], [], Term.isSpace_nil, Term.isSpace_nil, by simp⟩

theorem isBlank_of_isWordChar {c : Char} (h : isWordChar c = true) : isBlank c = false := by
  cases hblank : isBlank c with
  | false => rfl
  | true =>
    rw [Term.isWordChar_of_isBlank hblank] at h
    cases h

end Text

namespace Term

variable {s name core : List Char} {f : String} {t : Term}

/-- A small letter or an opening quote. -/
def OpensName (c : Char) : Prop := isAsciiLower c = true ∨ c = '\''

theorem OpensName.isBlank {c : Char} (h : OpensName c) : isBlank c = false := by
  rcases h with h | rfl
  · exact isBlank_of_isWordChar (isWordChar_of_isAsciiLower h)
  · decide

theorem NameText.opens (h : NameText name f) : ∃ c rest, name = c :: rest ∧ OpensName c := by
  cases h with
  | word h =>
    obtain ⟨c, rest, rfl, hc, -⟩ := h
    exact ⟨c, rest, rfl, .inl hc⟩
  | quoted name => exact ⟨_, _, rfl, .inr rfl⟩

theorem NameText.endsSolid (h : NameText name f) : EndsSolid name := by
  cases h with
  | word h =>
    intro c hc
    have hall := h.all fun _ => isWordChar_of_isAsciiLower
    exact isBlank_of_isWordChar (hall c (List.mem_of_getLast? hc))
  | quoted name => exact endsSolid_concat (by decide) ('\'' :: escape name)

/-- Without the blanks around it, the text of a term is a text of the same term. -/
theorem TermText.trimmed (h : TermText s t) :
    ∃ core, Trimmed s core ∧ TermText core t ∧ ∃ c rest, core = c :: rest ∧ OpensName c := by
  cases h with
  | @bare before name after f hbefore hf hafter =>
    obtain ⟨c, rest, rfl, hc⟩ := hf.opens
    refine ⟨c :: rest, ⟨beginsSolid_cons hc.isBlank rest, hf.endsSolid, before, after, hbefore,
      hafter, rfl⟩, ?_, c, rest, rfl, hc⟩
    simpa using TermText.bare isSpace_nil hf isSpace_nil
  | @applied before name between args after f as hbefore hf hbetween has hafter =>
    obtain ⟨c, rest, rfl, hc⟩ := hf.opens
    let core := c :: rest ++ (between ++ '(' :: args) ++ [')']
    have hend : EndsSolid core := endsSolid_concat (by decide) _
    have htext : TermText core ⟨f, as⟩ := by
      simpa [core] using TermText.applied isSpace_nil hf hbetween has isSpace_nil
    refine ⟨core, ⟨beginsSolid_cons hc.isBlank _, hend, before, after, hbefore, hafter, ?_⟩, htext,
      c, _, rfl, hc⟩
    simp [core]

/-- What is left of a term's text when the blanks around it are dropped. -/
theorem parse_of_trimmed {src : String} (h : parse src = .ok t) (htrim : Trimmed src.toList core) :
    parse (String.ofList core) = .ok t ∧ ∃ c rest, core = c :: rest ∧ OpensName c := by
  obtain ⟨core', htrim', htext, hopens⟩ := (reads_iff.1 (parse_iff.1 h)).trimmed
  obtain rfl : core = core' := (trim_eq_iff.2 htrim).symm.trans (trim_eq_iff.2 htrim')
  refine ⟨parse_iff.2 ?_, hopens⟩
  rw [String.toList_ofList]
  exact reads_iff.2 htext

section Ground

variable {goal fact : Term}

/-- A ground goal is an instance of nothing but itself. -/
theorem makes_iff_of_ground (h : goal.isGround) {values : goal.Assignment} :
    values.Makes fact ↔ fact = goal := by
  rw [isGround_iff] at h
  constructor
  · intro hmakes
    have hargs : fact.args = goal.args := by
      refine List.ext_getElem? fun i => ?_
      cases hi : goal.args[i]? with
      | none =>
        rw [List.getElem?_eq_none_iff] at hi ⊢
        exact hmakes.arity.trans_le hi
      | some a =>
        obtain ⟨name, rfl⟩ := h a (List.mem_of_getElem? hi)
        exact hmakes.atom hi
    cases fact
    cases goal
    exact congrArg₂ Term.mk hmakes.functor hargs
  · rintro rfl
    refine ⟨isGround_iff.2 h, rfl, rfl, id, fun {i x} hi => ?_⟩
    obtain ⟨name, hname⟩ := h _ (List.mem_of_getElem? hi)
    cases hname

theorem matchFact_of_ground (h : goal.isGround) (fact : Term) :
    goal.matchFact fact = if fact = goal then some [] else none := by
  split
  · rename_i hsame
    have hmakes : (goal.assign fun _ => "").Makes fact := (makes_iff_of_ground h).2 hsame
    obtain ⟨bindings, hmatch, hlists⟩ := hmakes.matchFact
    cases bindings with
    | nil => exact hmatch
    | cons binding rest =>
      obtain ⟨x, -, -⟩ := (hlists.mem_iff binding.1 binding.2).1 (by simp)
      obtain ⟨name, hname⟩ := isGround_iff.1 h _ x.2.1
      cases hname
  · rename_i hother
    cases hmatch : goal.matchFact fact with
    | none => rfl
    | some bindings =>
      obtain ⟨values, hmakes, -⟩ := exists_of_matchFact hmatch
      exact absurd ((makes_iff_of_ground h).1 hmakes) hother

end Ground

end Term

namespace Directive

variable {s body : List Char}

/-- A text with a period behind it says what it is without the blanks around it. -/
theorem normalises_period (h : Trimmed s body) {c : Char} {rest : List Char}
    (hbody : body = c :: rest) (hc : Term.OpensName c) : Normalises (s ++ ['.']) body := by
  obtain ⟨hbegin, hend, before, after, hbefore, hafter, rfl⟩ := h
  have hne : body ≠ [] := by simp [hbody]
  have hprompt : ¬ ['?', '-'] <+: body := by
    rintro ⟨tail, rfl⟩
    obtain rfl := (List.cons.inj hbody).1
    exact absurd hc (by simp [Term.OpensName, isAsciiLower])
  refine ⟨body ++ after ++ ['.'], body ++ after, body, body, ?_, .inl rfl,
    ⟨hend, after, hafter, rfl⟩, .inr ⟨rfl, hprompt⟩, trimmed_of_solid hbegin hend⟩
  refine ⟨?_, endsSolid_concat (by decide) _, before, [], hbefore, Term.isSpace_nil, by simp⟩
  rw [List.append_assoc]
  exact hbegin.append hne _

/-- The text of a call with a period behind it. -/
theorem normalises_call (name : String) {c : Char} {rest : List Char}
    (hname : name.toList = c :: rest) (hc : isAsciiLower c = true) (arg : String) :
    ∃ body, Normalises (name ++ "(" ++ arg ++ ").").toList body ∧
      IsCall name arg.toList body := by
  let body := name.toList ++ '(' :: (arg.toList ++ [')'])
  have hopens : Term.OpensName c := .inl hc
  have hbody : body = c :: (rest ++ '(' :: (arg.toList ++ [')'])) := by simp [body, hname]
  have hend : EndsSolid body := by
    have hsplit : body = (name.toList ++ '(' :: arg.toList) ++ [')'] := by simp [body]
    rw [hsplit]
    exact endsSolid_concat (by decide) _
  have hbegin : BeginsSolid body := hbody ▸ beginsSolid_cons hopens.isBlank _
  refine ⟨body, ?_, [], Term.isSpace_nil, rfl⟩
  have hquery : (name ++ "(" ++ arg ++ ").").toList = body ++ ['.'] := by simp [body]
  rw [hquery]
  exact normalises_period (trimmed_of_solid hbegin hend) hbody hopens

end Directive

namespace FactEngine

variable {src query : String} {body : List Char} {t : Term} {facts : List Term}

theorem solves_assert (h : Asserts query t) (e : FactEngine) (s : SessionState) :
    Solves query ["yes"] (e, s) ({ e with facts := e.facts ++ [t] }, { s with query }) := by
  have hparse : Directive.parse query = .ok (.assert t) := parse_eq_ok_iff.2 h
  refine ⟨_, ?_, yields_reply _ "yes"⟩
  simp only [Engine.solve, FactEngine.solve, hparse, execute]

theorem solves_retract (h : Retracts query t) (e : FactEngine) (s : SessionState) {fact : Term}
    (hfact : fact ∈ e.facts) (hmatch : (t.matchFact fact).isSome) :
    Solves query ["yes"] (e, s) ({ e with facts := retract t e.facts }, { s with query }) := by
  have hparse : Directive.parse query = .ok (.retract t) := parse_eq_ok_iff.2 h
  have hfound : (e.facts.any fun fact => (t.matchFact fact).isSome) = true :=
    List.any_eq_true.2 ⟨fact, hfact, hmatch⟩
  refine ⟨_, ?_, yields_reply _ "yes"⟩
  simp only [Engine.solve, FactEngine.solve, hparse, execute, hfound, if_true]

theorem answers_of_ground (h : t.isGround) (facts : List Term) :
    answers t facts = List.replicate (facts.count t) "yes" := by
  induction facts with
  | nil => rfl
  | cons fact facts ih =>
    by_cases hfact : fact = t
    · subst hfact
      have hmatch : fact.matchFact fact = some [] := by simp [Term.matchFact_of_ground h]
      rw [Reader.answers_of_match hmatch, ih, List.count_cons_self, List.replicate_succ]
      rfl
    · have hmatch : t.matchFact fact = none := by simp [Term.matchFact_of_ground h, hfact]
      rw [Reader.answers_of_mismatch hmatch, ih, List.count_cons_of_ne hfact]

theorem replies_of_stored (h : t.isGround) (facts : List Term) :
    replies t (facts ++ [t]) = List.replicate (facts.count t + 1) "yes" := by
  have hanswers : answers t (facts ++ [t]) = List.replicate (facts.count t + 1) "yes" := by
    rw [answers_of_ground h, List.count_append, List.count_singleton_self]
  simp [replies, hanswers]

/-- With one more copy behind it, the store loses its first copy of a fact. -/
theorem retract_concat (h : t.isGround) (facts : List Term) :
    (t ∉ facts ∧ retract t (facts ++ [t]) = facts) ∨
      ∃ before after, facts = before ++ t :: after ∧
        retract t (facts ++ [t]) = before ++ (after ++ [t]) := by
  have hself : t.matchFact t ≠ none := by simp [Term.matchFact_of_ground h]
  have hother {stored : List Term} (hstored : t ∉ stored) :
      ∀ other ∈ stored, t.matchFact other = none := by
    rintro other hmem
    have hne : other ≠ t := fun heq => hstored (heq ▸ hmem)
    simp [Term.matchFact_of_ground h, hne]
  by_cases hmem : t ∈ facts
  · obtain ⟨before, after, rfl, hbefore⟩ := List.eq_append_cons_of_mem hmem
    refine .inr ⟨before, after, rfl, ?_⟩
    rw [List.append_assoc, List.cons_append]
    exact retract_of_first (hother hbefore) hself (after ++ [t])
  · refine .inl ⟨hmem, ?_⟩
    have hretract := retract_of_first (hother hmem) hself []
    rwa [List.append_nil] at hretract

/-- A fact that is asserted, asked for and retracted again, each time by the same text: the question
has one more answer `yes` than copies were stored, and the store keeps its facts, those other than
the given one in their order, and all as they were if it is new. -/
theorem assert_ask_retract_agree (htrim : Trimmed src.toList body) (hparse : Term.parse src = .ok t)
    (hground : t.isGround) (hhalt : body ≠ "halt".toList) (hlisting : body ≠ "listing".toList)
    (hhelp : body ≠ "help".toList) (hassert : ∀ inner, ¬ IsCall "assert" inner body)
    (hretract : ∀ inner, ¬ IsCall "retract" inner body) (e : FactEngine) (s : SessionState) :
    ∃ kept,
      Solves ("assert(" ++ src ++ ").") ["yes"] (e, s)
        ({ e with facts := e.facts ++ [t] }, { s with query := "assert(" ++ src ++ ")." }) ∧
      Solves (src ++ ".") (List.replicate (e.facts.count t + 1) "yes")
        ({ e with facts := e.facts ++ [t] }, { s with query := "assert(" ++ src ++ ")." })
        ({ e with facts := e.facts ++ [t] }, { s with query := src ++ "." }) ∧
      Solves ("retract(" ++ src ++ ").") ["yes"]
        ({ e with facts := e.facts ++ [t] }, { s with query := src ++ "." })
        ({ e with facts := kept }, { s with query := "retract(" ++ src ++ ")." }) ∧
      kept.Perm e.facts ∧ kept.filter (· ≠ t) = e.facts.filter (· ≠ t) ∧
      (e.facts.count t = 0 → kept = e.facts) := by
  obtain ⟨hbody, c, rest, hopen, hc⟩ := Term.parse_of_trimmed hparse htrim
  have hasserts : Asserts ("assert(" ++ src ++ ").") t := by
    obtain ⟨call, hsays, hcall⟩ := normalises_call "assert" rfl (by decide) src
    exact ⟨call, _, hsays, hcall, by rwa [String.ofList_toList], hground⟩
  have hasks : Asks (src ++ ".") t := by
    refine ⟨body, ?_, hhalt, hlisting, hhelp, hassert, hretract, hbody⟩
    rw [String.toList_append]
    exact normalises_period htrim hopen hc
  have hretracts : Retracts ("retract(" ++ src ++ ").") t := by
    obtain ⟨call, hsays, hcall⟩ := normalises_call "retract" rfl (by decide) src
    exact ⟨call, _, hsays, hcall, by rwa [String.ofList_toList]⟩
  refine ⟨retract t (e.facts ++ [t]), solves_assert hasserts e s, ?_, ?_, ?_⟩
  · have hsolves := solves_goal hasks { e with facts := e.facts ++ [t] }
      { s with query := "assert(" ++ src ++ ")." }
    rwa [replies_of_stored hground] at hsolves
  · have hmem : t ∈ e.facts ++ [t] := by simp
    have hmatch : (t.matchFact t).isSome := by simp [Term.matchFact_of_ground hground]
    exact solves_retract hretracts { e with facts := e.facts ++ [t] } { s with query := src ++ "." }
      hmem hmatch
  · rcases retract_concat hground e.facts with ⟨hnew, hkept⟩ | ⟨before, after, hfacts, hkept⟩
    · rw [hkept]
      exact ⟨.refl _, rfl, fun _ => rfl⟩
    · rw [hkept, hfacts]
      refine ⟨List.Perm.append_left before (List.perm_append_singleton t after), by simp, ?_⟩
      intro hcount
      exact absurd (List.count_eq_zero.1 hcount) (by simp)

/-- Marks of all kinds between quotes. -/
def oddBody : String := "'Says'('it''s (a.) /b',\n 'x) :- y.')"

/-- Blanks stand around it. -/
def oddText : String := " " ++ oddBody ++ "\n"

/-- The fact the text stands for. -/
def oddFact : Term := ⟨"Says", [.atom "it's (a.) /b", .atom "x) :- y."]⟩

/-- The fact is stored twice already. -/
def oddities : FactEngine := { facts := [oddFact, ⟨"p", []⟩, oddFact] }

theorem odd_text_agrees :
    Trimmed oddText.toList oddBody.toList ∧
      Term.parse oddText = .ok oddFact ∧ oddFact.isGround ∧
      (oddBody.toList ≠ "halt".toList ∧ oddBody.toList ≠ "listing".toList ∧
        oddBody.toList ≠ "help".toList) ∧
      (∀ inner, ¬ IsCall "assert" inner oddBody.toList) ∧
      (∀ inner, ¬ IsCall "retract" inner oddBody.toList) ∧
      ∃ (kept : List Term) (s s' s'' : SessionState),
        Solves ("assert(" ++ oddText ++ ").") ["yes"] (oddities, {})
          ({ oddities with facts := oddities.facts ++ [oddFact] }, s) ∧
        Solves (oddText ++ ".") ["yes", "yes", "yes"]
          ({ oddities with facts := oddities.facts ++ [oddFact] }, s)
          ({ oddities with facts := oddities.facts ++ [oddFact] }, s') ∧
        Solves ("retract(" ++ oddText ++ ").") ["yes"]
          ({ oddities with facts := oddities.facts ++ [oddFact] }, s')
          ({ oddities with facts := kept }, s'') ∧
        kept.Perm oddities.facts ∧ kept.filter (· ≠ oddFact) = [⟨"p", []⟩] := by
  have htrim : Trimmed oddText.toList oddBody.toList :=
    trim_eq_iff.1 (by decide +kernel)
  have hparse : Term.parse oddText = .ok oddFact := by decide +kernel
  have hassert : ∀ inner, ¬ IsCall "assert" inner oddBody.toList :=
    argumentOf_eq_none_iff.1 (by decide +kernel)
  have hretract : ∀ inner, ¬ IsCall "retract" inner oddBody.toList :=
    argumentOf_eq_none_iff.1 (by decide +kernel)
  have hwords : oddBody.toList ≠ "halt".toList ∧ oddBody.toList ≠ "listing".toList ∧
      oddBody.toList ≠ "help".toList := by decide +kernel
  obtain ⟨kept, hstored, hasked, hretracted, hperm, hothers, -⟩ :=
    assert_ask_retract_agree htrim hparse (by decide) hwords.1 hwords.2.1 hwords.2.2 hassert
      hretract oddities {}
  exact ⟨htrim, hparse, by decide, hwords, hassert, hretract, kept, _, _, _, hstored, hasked,
    hretracted, hperm, hothers.trans (by decide +kernel)⟩

end FactEngine

end LogicConsole
