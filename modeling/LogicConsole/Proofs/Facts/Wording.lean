import LogicConsole.Engine.Directive
import LogicConsole.Proofs.Term.Grammar
/-!
What the text of a query says to the fact engine, told by how the text is made up and not by the
functions that take it apart: blanks and a terminator around the body, and a call as a name with its
argument in parentheses. The functions read a query exactly so.
-/
namespace LogicConsole

open Term (IsSpace)

namespace Text

/-- No blank at the end. -/
def EndsSolid (s : List Char) : Prop := ∀ c, s.getLast? = some c → isBlank c = false

/-- No blank at the front. -/
def BeginsSolid (s : List Char) : Prop := ∀ c, s.head? = some c → isBlank c = false

/-- `t` is `s` without the blanks behind it. -/
def EndTrimmed (s t : List Char) : Prop := EndsSolid t ∧ ∃ after, IsSpace after ∧ s = t ++ after

/-- `t` is `s` without the blanks around it. -/
def Trimmed (s t : List Char) : Prop :=
  BeginsSolid t ∧ EndsSolid t ∧
    ∃ before after, IsSpace before ∧ IsSpace after ∧ s = before ++ (t ++ after)

theorem trimEnd_append_space (s : List Char) {after : List Char} (h : IsSpace after) :
    trimEnd (s ++ after) = trimEnd s := dropEnd_append_of_all s h

theorem trimEnd_of_endsSolid {s : List Char} (h : EndsSolid s) : trimEnd s = s := by
  rcases List.eq_nil_or_concat s with rfl | ⟨front, c, rfl⟩
  · rfl
  · have hc : isBlank c = false := h c (by simp)
    simp [trimEnd, dropEnd, hc]

theorem trimStart_of_beginsSolid {s : List Char} (h : BeginsSolid s) : trimStart s = s := by
  cases s with
  | nil => rfl
  | cons c rest =>
    have hc : isBlank c = false := h c rfl
    simp [trimStart, hc]

theorem trimStart_prefix_solid (s : List Char) : BeginsSolid (trimStart s) := by
  intro c hc
  have hhead := List.head?_dropWhile_not isBlank s
  rw [show s.dropWhile isBlank = trimStart s from rfl, hc] at hhead
  simpa using hhead

theorem endTrimmed_trimEnd (s : List Char) : EndTrimmed s (trimEnd s) := by
  have hfront := trimStart_prefix_solid s.reverse
  refine ⟨fun c hc => hfront c ?_, (s.reverse.takeWhile isBlank).reverse, fun c hc => ?_, ?_⟩
  · simpa [trimEnd, dropEnd, trimStart] using hc
  · exact List.mem_takeWhile_imp (List.mem_reverse.1 hc)
  · unfold trimEnd dropEnd
    rw [← List.reverse_append, List.takeWhile_append_dropWhile, List.reverse_reverse]

theorem trimEnd_eq_iff {s t : List Char} : trimEnd s = t ↔ EndTrimmed s t := by
  constructor
  · rintro rfl
    exact endTrimmed_trimEnd s
  · rintro ⟨hend, after, hafter, rfl⟩
    rw [trimEnd_append_space t hafter, trimEnd_of_endsSolid hend]

/-- Trimming the end takes nothing off the front of a text that begins with no blank. -/
theorem beginsSolid_trimEnd {s : List Char} (h : BeginsSolid s) : BeginsSolid (trimEnd s) := by
  obtain ⟨-, after, -, hs⟩ := endTrimmed_trimEnd s
  intro c hc
  refine h c ?_
  cases ht : trimEnd s with
  | nil => simp [ht] at hc
  | cons d rest =>
    rw [hs, ht]
    rw [ht] at hc
    exact hc

theorem trim_eq_iff {s t : List Char} : trim s = t ↔ Trimmed s t := by
  constructor
  · rintro rfl
    obtain ⟨before, hbefore, hsplit⟩ := Term.exists_space s
    obtain ⟨hend, after, hafter, hrest⟩ := endTrimmed_trimEnd (trimStart s)
    refine ⟨beginsSolid_trimEnd (trimStart_prefix_solid s), hend, before, after, hbefore, hafter,
      ?_⟩
    rw [← trim] at hrest
    rw [← hrest]
    exact hsplit
  · rintro ⟨hbegin, hend, before, after, hbefore, hafter, rfl⟩
    unfold trim
    rw [hbefore.trimStart_append]
    cases t with
    | nil => rw [List.nil_append, hafter.trimStart_eq]; rfl
    | cons c rest =>
      have hfront : trimStart (c :: rest ++ after) = c :: rest ++ after :=
        trimStart_of_beginsSolid fun d hd => hbegin d hd
      rw [hfront, trimEnd_append_space _ hafter, trimEnd_of_endsSolid hend]

end Text

namespace Directive

open Text

/-- One final period is dropped, or else one final slash. -/
def Unterminated (s t : List Char) : Prop :=
  s = t ++ ['.'] ∨ s = t ++ ['/'] ∨ s = t ∧ s.getLast? ≠ some '.' ∧ s.getLast? ≠ some '/'

/-- One leading `?-` is dropped. -/
def Unprompted (s t : List Char) : Prop := s = '?' :: '-' :: t ∨ s = t ∧ ¬ ['?', '-'] <+: s

/-- `body` is what a query says, without blanks around it, terminator and `?-`. -/
def Normalises (query body : List Char) : Prop :=
  ∃ trimmed cut bare rest, Trimmed query trimmed ∧ Unterminated trimmed cut ∧
    EndTrimmed cut bare ∧ Unprompted bare rest ∧ Trimmed rest body

/-- A call of `name`; blanks may stand before the parenthesis. -/
def IsCall (name : String) (inner s : List Char) : Prop :=
  ∃ between, IsSpace between ∧ s = name.toList ++ (between ++ '(' :: (inner ++ [')']))

theorem unterminated_iff {s t : List Char} :
    (if s.getLast? == some '.' || s.getLast? == some '/' then s.dropLast else s) = t ↔
      Unterminated s t := by
  rcases List.eq_nil_or_concat s with rfl | ⟨front, c, rfl⟩
  · simp [Unterminated]
  · by_cases hdot : c = '.'
    · subst hdot
      simp [Unterminated]
    · by_cases hslash : c = '/'
      · subst hslash
        simp [Unterminated]
      · simp [Unterminated, hdot, hslash]

theorem isPrefixOf?_eq_some_iff {name s rest : List Char} :
    name.isPrefixOf? s = some rest ↔ s = name ++ rest := by
  induction name generalizing s with
  | nil => cases s <;> simp [List.isPrefixOf?]
  | cons c name ih =>
    cases s with
    | nil => simp [List.isPrefixOf?]
    | cons d s =>
      by_cases h : c = d
      · subst h
        simp [List.isPrefixOf?, ih]
      · simp [List.isPrefixOf?, h, Ne.symm h]

theorem unprompted_iff {s t : List Char} :
    ("?-".toList.isPrefixOf? s).getD s = t ↔ Unprompted s t := by
  have hprompt : "?-".toList = ['?', '-'] := rfl
  rw [hprompt]
  by_cases h : ['?', '-'] <+: s
  · obtain ⟨rest, rfl⟩ := h
    rw [isPrefixOf?_eq_some_iff.2 rfl]
    simp [Unprompted]
  · have hnone : ['?', '-'].isPrefixOf? s = none :=
      Option.eq_none_iff_forall_not_mem.2 fun rest hrest =>
        h ⟨rest, (isPrefixOf?_eq_some_iff.1 hrest).symm⟩
    have hne : s ≠ '?' :: '-' :: t := fun hs => h ⟨t, hs.symm⟩
    simp [Unprompted, hnone, hne, h]

/-- A query says one thing. -/
theorem normalises_iff {query body : List Char} :
    Normalises query body ↔ normalise query = body := by
  constructor
  · rintro ⟨trimmed, cut, bare, rest, htrim, hcut, hbare, hrest, hbody⟩
    rw [← trim_eq_iff] at htrim hbody
    rw [← unterminated_iff] at hcut
    rw [← trimEnd_eq_iff] at hbare
    rw [← unprompted_iff] at hrest
    simp only [normalise, dropTerminator]
    rw [htrim, hcut, hbare, hrest, hbody]
  · rintro rfl
    exact ⟨_, _, _, _, trim_eq_iff.1 rfl, unterminated_iff.1 rfl, trimEnd_eq_iff.1 rfl,
      unprompted_iff.1 rfl, trim_eq_iff.1 rfl⟩

theorem argumentOf_eq_some_iff {name : String} {s inner : List Char} :
    argumentOf name s = some inner ↔ IsCall name inner s := by
  constructor
  · intro h
    simp only [argumentOf, Option.bind_eq_bind, Option.bind_eq_some_iff,
      isPrefixOf?_eq_some_iff] at h
    obtain ⟨rest, rfl, h⟩ := h
    obtain ⟨between, hbetween, hsplit⟩ := Term.exists_space rest
    refine ⟨between, hbetween, ?_⟩
    split at h
    · rename_i text hparen
      split at h
      · rename_i hclose
        obtain rfl := Option.some.inj h
        obtain ⟨front, rfl⟩ := List.getLast?_eq_some_iff.1 (beq_iff_eq.1 hclose)
        rw [hsplit, hparen, List.dropLast_concat]
      · cases h
    · cases h
  · rintro ⟨between, hbetween, rfl⟩
    have hprefix : name.toList.isPrefixOf?
        (name.toList ++ (between ++ '(' :: (inner ++ [')']))) =
          some (between ++ '(' :: (inner ++ [')'])) := isPrefixOf?_eq_some_iff.2 rfl
    have hparen : trimStart (between ++ '(' :: (inner ++ [')'])) = '(' :: (inner ++ [')']) := by
      rw [hbetween.trimStart_append]
      rfl
    simp [argumentOf, hprefix, hparen]

/-- The query asks for a ground term to be stored. -/
def Asserts (query : String) (fact : Term) : Prop :=
  ∃ body inner, Normalises query.toList body ∧ IsCall "assert" inner body ∧
    Term.parse (String.ofList inner) = .ok fact ∧ fact.isGround

/-- The query asks for a fact to be removed. -/
def Retracts (query : String) (pattern : Term) : Prop :=
  ∃ body inner, Normalises query.toList body ∧ IsCall "retract" inner body ∧
    Term.parse (String.ofList inner) = .ok pattern

/-- The query is a term, and neither a command word nor a call. -/
def Asks (query : String) (goal : Term) : Prop :=
  ∃ body, Normalises query.toList body ∧ body ≠ "halt".toList ∧ body ≠ "listing".toList ∧
    body ≠ "help".toList ∧ (∀ inner, ¬ IsCall "assert" inner body) ∧
    (∀ inner, ¬ IsCall "retract" inner body) ∧ Term.parse (String.ofList body) = .ok goal

/-- What a query has to say to be read as a directive. -/
def Says (query : String) : Directive → Prop
  | .halt => Normalises query.toList "halt".toList
  | .listing => Normalises query.toList "listing".toList
  | .help => Normalises query.toList "help".toList
  | .assert fact => Asserts query fact
  | .retract pattern => Retracts query pattern
  | .goal term => Asks query term

section Reading

variable {query : String} {body inner : List Char} {directive : Directive}

/-- The first letter tells a call from a command word and from a call of another name. -/
theorem IsCall.head? {name : String} {c : Char} (h : IsCall name inner body)
    (hname : name.toList.head? = some c) : body.head? = some c := by
  obtain ⟨between, -, rfl⟩ := h
  rw [List.head?_append, hname]
  rfl

theorem argumentOf_eq_none_iff {name : String} {s : List Char} :
    argumentOf name s = none ↔ ∀ inner, ¬ IsCall name inner s := by
  rw [Option.eq_none_iff_forall_not_mem]
  exact forall_congr' fun inner => not_congr argumentOf_eq_some_iff

theorem not_isCall_assert (h : IsCall "retract" inner body) (other : List Char) :
    ¬ IsCall "assert" other body := by
  intro hother
  have ha := hother.head? (c := 'a') rfl
  rw [h.head? (c := 'r') rfl] at ha
  cases ha

/-- A call of `assert` or `retract` is no command word. -/
theorem IsCall.ne_word {name : String} (h : IsCall name inner body)
    (hname : name.toList.head? = some 'a' ∨ name.toList.head? = some 'r') (word : String)
    (hword : word.toList.head? = some 'h' ∨ word.toList.head? = some 'l') :
    body ≠ word.toList := by
  rintro rfl
  rcases hname with hname | hname <;> rcases hword with hword | hword <;>
    simp [h.head? hname] at hword

theorem says_of_parse (h : parse query = .ok directive) : Says query directive := by
  have hbody : Normalises query.toList (normalise query.toList) := normalises_iff.2 rfl
  unfold parse ofChars at h
  dsimp only at h
  split at h
  · rename_i hword
    cases h
    rwa [hword] at hbody
  rename_i hhalt
  split at h
  · rename_i hword
    cases h
    rwa [hword] at hbody
  rename_i hlisting
  split at h
  · rename_i hword
    cases h
    rwa [hword] at hbody
  rename_i hhelp
  split at h
  · rename_i inner hcall
    obtain ⟨fact, hparse, h⟩ := bind_eq_ok.1 h
    rw [← String.toList_ofList (l := inner)] at hparse
    split at h
    · rename_i hground
      cases h
      exact ⟨_, inner, hbody, argumentOf_eq_some_iff.1 hcall, hparse, hground⟩
    · cases h
  · rename_i hassert
    split at h
    · rename_i inner hcall
      obtain ⟨pattern, hparse, h⟩ := bind_eq_ok.1 h
      rw [← String.toList_ofList (l := inner)] at hparse
      cases h
      exact ⟨_, inner, hbody, argumentOf_eq_some_iff.1 hcall, hparse⟩
    · rename_i hretract
      obtain ⟨term, hparse, h⟩ := bind_eq_ok.1 h
      rw [← String.toList_ofList (l := normalise query.toList)] at hparse
      cases h
      exact ⟨_, hbody, hhalt, hlisting, hhelp, argumentOf_eq_none_iff.1 hassert,
        argumentOf_eq_none_iff.1 hretract, hparse⟩

theorem parse_of_says (h : Says query directive) : parse query = .ok directive := by
  cases directive with
  | halt =>
    unfold parse ofChars
    simp only [normalises_iff.1 h, if_true]
  | listing =>
    have hne : "listing".toList ≠ "halt".toList := by decide
    unfold parse ofChars
    simp only [normalises_iff.1 h, hne, if_true, if_false]
  | help =>
    have hhalt : "help".toList ≠ "halt".toList := by decide
    have hlisting : "help".toList ≠ "listing".toList := by decide
    unfold parse ofChars
    simp only [normalises_iff.1 h, hhalt, hlisting, if_true, if_false]
  | assert fact =>
    obtain ⟨body, inner, hbody, hcall, hparse, hground⟩ := h
    rw [Term.parse, String.toList_ofList] at hparse
    unfold parse ofChars
    simp only [normalises_iff.1 hbody, hcall.ne_word (.inl rfl) "halt" (.inl rfl),
      hcall.ne_word (.inl rfl) "listing" (.inr rfl),
      hcall.ne_word (.inl rfl) "help" (.inl rfl), if_false,
      argumentOf_eq_some_iff.2 hcall, hparse]
    exact if_pos hground
  | retract pattern =>
    obtain ⟨body, inner, hbody, hcall, hparse⟩ := h
    rw [Term.parse, String.toList_ofList] at hparse
    unfold parse ofChars
    simp only [normalises_iff.1 hbody, hcall.ne_word (.inr rfl) "halt" (.inl rfl),
      hcall.ne_word (.inr rfl) "listing" (.inr rfl),
      hcall.ne_word (.inr rfl) "help" (.inl rfl), if_false,
      argumentOf_eq_none_iff.2 (not_isCall_assert hcall), argumentOf_eq_some_iff.2 hcall, hparse]
    rfl
  | goal term =>
    obtain ⟨body, hbody, hhalt, hlisting, hhelp, hassert, hretract, hparse⟩ := h
    rw [Term.parse, String.toList_ofList] at hparse
    unfold parse ofChars
    simp only [normalises_iff.1 hbody, hhalt, hlisting, hhelp, if_false,
      argumentOf_eq_none_iff.2 hassert, argumentOf_eq_none_iff.2 hretract, hparse]
    rfl

/-- A query is read as the directive it says. -/
theorem parse_eq_ok_iff : parse query = .ok directive ↔ Says query directive :=
  ⟨says_of_parse, parse_of_says⟩

end Reading

end Directive

end LogicConsole
