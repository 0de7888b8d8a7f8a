import LogicConsole.Proofs.Term.Readers
/-!
The grammar of terms, without a reader: no rule says how far a word reaches or where a quoted atom
ends. Reading accepts exactly the texts that the grammar derives, and builds the derived term.
-/
namespace LogicConsole.Term

open Text

/-- A run of blanks, possibly empty. -/
def IsSpace (s : List Char) : Prop := ∀ c ∈ s, isBlank c

theorem isSpace_nil : IsSpace [] := List.forall_mem_nil _

inductive NameText : List Char → String → Prop
  | word {name : List Char} (h : IsWord isAsciiLower name) : NameText name (String.ofList name)
  | quoted (name : List Char) : NameText ('\'' :: (escape name ++ ['\''])) (String.ofList name)

inductive ArgText : List Char → Arg → Prop
  | word {name : List Char} (h : IsWord opensAtom name) :
    ArgText name (.atom (String.ofList name))
  | var {name : List Char} (h : IsWord opensVar name) : ArgText name (.var (String.ofList name))
  | quoted (name : List Char) :
    ArgText ('\'' :: (escape name ++ ['\''])) (.atom (String.ofList name))

/-- One argument or more, with commas between them and blanks around each. -/
inductive ArgsText : List Char → List Arg → Prop
  | one {before text after : List Char} {a : Arg} (hbefore : IsSpace before) (ha : ArgText text a)
    (hafter : IsSpace after) : ArgsText (before ++ (text ++ after)) [a]
  | more {before text after rest : List Char} {a : Arg} {as : List Arg} (hbefore : IsSpace before)
    (ha : ArgText text a) (hafter : IsSpace after) (has : ArgsText rest as) :
    ArgsText (before ++ (text ++ (after ++ ',' :: rest))) (a :: as)

inductive TermText : List Char → Term → Prop
  | bare {before name after : List Char} {f : String} (hbefore : IsSpace before)
    (hf : NameText name f) (hafter : IsSpace after) : TermText (before ++ (name ++ after)) ⟨f, []⟩
  | applied {before name between args after : List Char} {f : String} {as : List Arg}
    (hbefore : IsSpace before) (hf : NameText name f) (hbetween : IsSpace between)
    (has : ArgsText args as) (hafter : IsSpace after) :
    TermText (before ++ (name ++ (between ++ '(' :: (args ++ ')' :: after)))) ⟨f, as⟩

section Space

def blanks : List Nat :=
  [9, 10, 11, 12, 13, 0x20, 0x85, 0xA0, 0x1680, 0x2000, 0x2001, 0x2002, 0x2003, 0x2004, 0x2005,
   0x2006, 0x2007, 0x2008, 0x2009, 0x200A, 0x2028, 0x2029, 0x202F, 0x205F, 0x3000]

theorem mem_blanks {c : Char} (h : isBlank c) : c.toNat ∈ blanks := by
  simp only [isBlank, Bool.or_eq_true, Bool.and_eq_true, decide_eq_true_eq, beq_iff_eq] at h
  simp only [blanks, List.mem_cons, List.not_mem_nil, or_false]
  omega

theorem isWordChar_of_isBlank {c : Char} (h : isBlank c) : isWordChar c = false := by
  have hall : ∀ n ∈ blanks, isWordChar (Char.ofNat n) = false := by decide +kernel
  simpa using hall _ (mem_blanks h)

theorem IsSpace.trimStart_append {w : List Char} (hw : IsSpace w) (s : List Char) :
    trimStart (w ++ s) = trimStart s := List.dropWhile_append_of_pos hw

theorem IsSpace.trimStart_eq {w : List Char} (hw : IsSpace w) : trimStart w = [] := by
  simpa using hw.trimStart_append []

theorem isSpace_iff {w : List Char} : IsSpace w ↔ trimStart w = [] :=
  ⟨IsSpace.trimStart_eq, fun h => List.dropWhile_eq_nil_iff.1 h⟩

/-- A text is its first run of blanks and the rest. -/
theorem exists_space (s : List Char) : ∃ w, IsSpace w ∧ s = w ++ trimStart s :=
  ⟨s.takeWhile isBlank, fun _ hc => List.mem_takeWhile_imp hc,
    (List.takeWhile_append_dropWhile).symm⟩

end Space

/-- Neither a word nor a quoted atom goes on into `s`. -/
def Delimited (s : List Char) : Prop := EndsWord s ∧ s.head? ≠ some '\''

theorem delimited_nil : Delimited [] := by simp [Delimited, EndsWord]

theorem delimited_cons {c : Char} {s : List Char} (hc : isWordChar c = false) (hq : c ≠ '\'') :
    Delimited (c :: s) := ⟨endsWord_cons hc, by simpa using hq⟩

theorem IsSpace.delimited {w s : List Char} (hw : IsSpace w) (hs : Delimited s) :
    Delimited (w ++ s) := by
  cases w with
  | nil => exact hs
  | cons c w =>
    have hc : isBlank c := hw c (by simp)
    have hquote : isBlank '\'' = false := by decide
    refine delimited_cons (isWordChar_of_isBlank hc) ?_
    rintro rfl
    rw [hquote] at hc
    cases hc

theorem NameText.trimStart {name : List Char} {f : String} (h : NameText name f) (s : List Char) :
    trimStart (name ++ s) = name ++ s := by
  cases h with
  | word hn => exact hn.trimStart (fun c hc => isBlank_of_opens (.inl (by simp [opensAtom, hc]))) s
  | quoted => rfl

theorem ArgText.trimStart {text : List Char} {a : Arg} (h : ArgText text a) (s : List Char) :
    trimStart (text ++ s) = text ++ s := by
  cases h with
  | word hn => exact hn.trimStart (fun c hc => isBlank_of_opens (.inl hc)) s
  | var hn => exact hn.trimStart (fun c hc => isBlank_of_opens (.inr hc)) s
  | quoted => rfl

section Complete

theorem NameText.functorAt {name rest : List Char} {f : String} (h : NameText name f)
    (hr : Delimited rest) : FunctorAt (name ++ rest) f rest := by
  cases h with
  | word hn => exact .word hn hr.1
  | quoted name =>
    have hf := @FunctorAt.quoted name rest hr.2
    simpa using hf

/-- The reader of an argument takes its text, and blanks behind an unquoted atom. -/
theorem ArgText.argAt {text rest : List Char} {a : Arg} (h : ArgText text a)
    (hr : Delimited rest) (hp : (Text.trimStart rest).head? ≠ some '(') :
    ∃ r, ArgAt (text ++ rest) a r ∧ Text.trimStart r = Text.trimStart rest := by
  cases h with
  | word hn => exact ⟨_, .word hn hr.1 hp, trimStart_trimStart rest⟩
  | var hn => exact ⟨_, .var hn hr.1, rfl⟩
  | quoted name =>
    have ha := @ArgAt.quoted name rest hr.2
    exact ⟨rest, by simpa using ha, rfl⟩

theorem ArgsText.argsAt {s : List Char} {as : List Arg} (h : ArgsText s as) (rest : List Char) :
    ArgsAt (s ++ ')' :: rest) as rest := by
  induction h with
  | @one before text after a hbefore ha hafter =>
    have hend : Delimited (after ++ ')' :: rest) :=
      hafter.delimited (delimited_cons (by decide) (by decide))
    have hclose : trimStart (after ++ ')' :: rest) = ')' :: rest := hafter.trimStart_append _
    obtain ⟨r, har, hr⟩ := ha.argAt hend (by rw [hclose]; simp)
    have hs : trimStart (before ++ (text ++ after) ++ ')' :: rest) =
        text ++ (after ++ ')' :: rest) := by
      simp only [List.append_assoc, hbefore.trimStart_append, ha.trimStart]
    exact .last (hs.symm ▸ har) (hr.trans hclose)
  | @more before text after tail a as hbefore ha hafter has ih =>
    have hend : Delimited (after ++ ',' :: (tail ++ ')' :: rest)) :=
      hafter.delimited (delimited_cons (by decide) (by decide))
    have hcomma : trimStart (after ++ ',' :: (tail ++ ')' :: rest)) =
        ',' :: (tail ++ ')' :: rest) := hafter.trimStart_append _
    obtain ⟨r, har, hr⟩ := ha.argAt hend (by rw [hcomma]; simp)
    have hs : trimStart (before ++ (text ++ (after ++ ',' :: tail)) ++ ')' :: rest) =
        text ++ (after ++ ',' :: (tail ++ ')' :: rest)) := by
      simp only [List.append_assoc, List.cons_append, hbefore.trimStart_append, ha.trimStart]
    exact .more (hs.symm ▸ har) (hr.trans hcomma) ih

theorem TermText.reads {s : List Char} {t : Term} (h : TermText s t) : Reads s t := by
  cases h with
  | @bare before name after f hbefore hf hafter =>
    have hs : trimStart (before ++ (name ++ after)) = name ++ after := by
      rw [hbefore.trimStart_append, hf.trimStart]
    have hend : Delimited after := by simpa using hafter.delimited delimited_nil
    exact .bare (hs.symm ▸ hf.functorAt hend) hafter.trimStart_eq
  | @applied before name between args after f as hbefore hf hbetween has hafter =>
    let rest := '(' :: (args ++ ')' :: after)
    have hs : trimStart (before ++ (name ++ (between ++ rest))) = name ++ (between ++ rest) := by
      rw [hbefore.trimStart_append, hf.trimStart]
    have hend : Delimited (between ++ rest) :=
      hbetween.delimited (delimited_cons (by decide) (by decide))
    have hopen : trimStart (between ++ rest) = rest := hbetween.trimStart_append _
    exact .applied (hs.symm ▸ hf.functorAt hend) hopen (has.argsAt after) hafter.trimStart_eq

end Complete

section Sound

theorem FunctorAt.derived {s rest : List Char} {f : String} (h : FunctorAt s f rest) :
    ∃ name, NameText name f ∧ s = name ++ rest := by
  cases h with
  | word hn => exact ⟨_, .word hn, rfl⟩
  | @quoted name => exact ⟨_, .quoted name, by simp⟩

theorem ArgAt.derived {s rest : List Char} {a : Arg} (h : ArgAt s a rest) :
    ∃ text after, ArgText text a ∧ IsSpace after ∧ s = text ++ (after ++ rest) := by
  cases h with
  | @quoted name => exact ⟨_, [], .quoted name, by simp [IsSpace], by simp⟩
  | var hn => exact ⟨_, [], .var hn, by simp [IsSpace], rfl⟩
  | @word name rest hn =>
    obtain ⟨after, hafter, hrest⟩ := exists_space rest
    exact ⟨name, after, .word hn, hafter, by rw [← hrest]⟩

/-- What follows an argument up to the next mark is blank. -/
theorem ArgAt.derived_mark {s r rest : List Char} {a : Arg} {mark : Char}
    (h : ArgAt (trimStart s) a r) (hr : trimStart r = mark :: rest) :
    ∃ before text after, IsSpace before ∧ ArgText text a ∧ IsSpace after ∧
      s = before ++ (text ++ (after ++ mark :: rest)) := by
  obtain ⟨before, hbefore, hs⟩ := exists_space s
  obtain ⟨text, after, ha, hafter, htext⟩ := h.derived
  obtain ⟨more, hmore, hrest⟩ := exists_space r
  have hspace : IsSpace (after ++ more) := fun c hc =>
    (List.mem_append.1 hc).elim (hafter c) (hmore c)
  refine ⟨before, text, after ++ more, hbefore, ha, hspace, ?_⟩
  rw [hs, htext, hrest, hr]
  simp

theorem ArgsAt.derived {s rest : List Char} {as : List Arg} (h : ArgsAt s as rest) :
    ∃ args, ArgsText args as ∧ s = args ++ ')' :: rest := by
  induction h with
  | last ha hr =>
    obtain ⟨before, text, after, hbefore, htext, hafter, rfl⟩ := ha.derived_mark hr
    exact ⟨_, .one hbefore htext hafter, by simp⟩
  | more ha hr _ ih =>
    obtain ⟨before, text, after, hbefore, htext, hafter, rfl⟩ := ha.derived_mark hr
    obtain ⟨args, has, rfl⟩ := ih
    exact ⟨_, .more hbefore htext hafter has, by simp⟩

theorem Reads.derived {s : List Char} {t : Term} (h : Reads s t) : TermText s t := by
  obtain ⟨before, hbefore, hs⟩ := exists_space s
  cases h with
  | bare hf hr =>
    obtain ⟨name, hname, htext⟩ := hf.derived
    rw [hs, htext]
    exact .bare hbefore hname (isSpace_iff.2 hr)
  | @applied r _ _ _ _ hf hp has hr =>
    obtain ⟨name, hname, htext⟩ := hf.derived
    obtain ⟨between, hbetween, hr'⟩ := exists_space r
    obtain ⟨args, hargs, rfl⟩ := has.derived
    rw [hs, htext, hr', hp]
    exact .applied hbefore hname hbetween hargs (isSpace_iff.2 hr)

end Sound

theorem reads_iff {s : List Char} {t : Term} : Reads s t ↔ TermText s t :=
  ⟨Reads.derived, TermText.reads⟩

section Refused

variable {s before name between after text rest w : List Char} {f : String} {a : Arg} {t : Term}

/-- No term is read from the text. -/
def Refused (s : List Char) : Prop := ∃ e, parse (String.ofList s) = .error e

/-- What may stand before an argument: a name, an opening parenthesis, and earlier arguments with a
comma behind each. -/
inductive BeforeArg : List Char → Prop
  | first {before name between : List Char} {f : String} (hbefore : IsSpace before)
    (hf : NameText name f) (hbetween : IsSpace between) :
    BeforeArg (before ++ (name ++ (between ++ ['('])))
  | next {s before text after : List Char} {a : Arg} (hs : BeforeArg s) (hbefore : IsSpace before)
    (ha : ArgText text a) (hafter : IsSpace after) :
    BeforeArg (s ++ (before ++ (text ++ (after ++ [',']))))

theorem refused_of_not_reads (h : ∀ t, ¬ Reads s t) : Refused s := by
  cases hs : parse (String.ofList s) with
  | error e => exact ⟨e, hs⟩
  | ok t =>
    have hreads := parse_iff.1 hs
    rw [String.toList_ofList] at hreads
    exact absurd hreads (h t)

/-- A name whose text does not go on into the rest is read as it stands. -/
theorem NameText.functorAt_of_maximal (h : NameText name f)
    (hmax : ∀ c tail more f', rest = c :: tail → ¬ NameText (name ++ c :: more) f') :
    FunctorAt (name ++ rest) f rest := by
  cases h with
  | word hn =>
    refine .word hn fun c hc => ?_
    obtain ⟨tail, htail⟩ := List.head?_eq_some_iff.1 hc
    by_contra hword
    obtain ⟨d, word, rfl, hd, hword'⟩ := hn
    refine hmax c tail [] _ htail (.word ⟨d, word ++ [c], rfl, hd, fun x hx => ?_⟩)
    rcases List.mem_append.1 hx with hx | hx
    · exact hword' x hx
    · rw [List.mem_singleton.1 hx]
      simpa using hword
  | quoted name =>
    have hquote : rest.head? ≠ some '\'' := by
      intro hq
      obtain ⟨tail, htail⟩ := List.head?_eq_some_iff.1 hq
      have hlonger := NameText.quoted (name ++ ['\''])
      refine hmax '\'' tail ['\''] (String.ofList (name ++ ['\''])) htail ?_
      simpa [escape] using hlonger
    have hf := @FunctorAt.quoted name rest hquote
    simpa using hf

/-- Where a name and an opening parenthesis stand, the reader goes on with arguments. -/
theorem Reads.argsAt_of_name (h : Reads (before ++ (name ++ (between ++ '(' :: rest))) t)
    (hbefore : IsSpace before) (hf : NameText name f) (hbetween : IsSpace between) :
    ∃ as r, ArgsAt rest as r ∧ Text.trimStart r = [] := by
  have hs : Text.trimStart (before ++ (name ++ (between ++ '(' :: rest))) =
      name ++ (between ++ '(' :: rest) := by rw [hbefore.trimStart_append, hf.trimStart]
  have hopen : Text.trimStart (between ++ '(' :: rest) = '(' :: rest := hbetween.trimStart_append _
  have hname := hf.functorAt (hbetween.delimited (delimited_cons (s := rest) (by decide)
    (by decide : '(' ≠ '\'')))
  cases h with
  | bare hf' hr =>
    obtain ⟨-, rfl⟩ := hf'.unique (hs.symm ▸ hname)
    rw [hopen] at hr
    cases hr
  | applied hf' hp has hr =>
    obtain ⟨-, rfl⟩ := hf'.unique (hs.symm ▸ hname)
    obtain rfl := (List.cons.inj (hopen.symm.trans hp)).2
    exact ⟨_, _, has, hr⟩

theorem BeforeArg.argsAt (h : BeforeArg s) (hr : Reads (s ++ rest) t) :
    ∃ as r, ArgsAt rest as r := by
  induction h generalizing rest t with
  | first hbefore hf hbetween =>
    simp only [List.append_assoc, List.cons_append, List.nil_append] at hr
    obtain ⟨as, r, has, -⟩ := hr.argsAt_of_name hbefore hf hbetween
    exact ⟨as, r, has⟩
  | @next s before text after a _ hbefore ha hafter ih =>
    simp only [List.append_assoc, List.cons_append, List.nil_append] at hr
    obtain ⟨as, r, has⟩ := ih hr
    have hs : Text.trimStart (before ++ (text ++ (after ++ ',' :: rest))) =
        text ++ (after ++ ',' :: rest) := by rw [hbefore.trimStart_append, ha.trimStart]
    have hcomma : Text.trimStart (after ++ ',' :: rest) = ',' :: rest := hafter.trimStart_append _
    have hdelimited : Delimited (after ++ ',' :: rest) :=
      hafter.delimited (delimited_cons (by decide) (by decide))
    -- The reader takes this argument too, so what it read first is this one and no other.
    obtain ⟨r', har, hr'⟩ := ha.argAt hdelimited (by rw [hcomma]; simp)
    rw [← hs] at har
    rw [hcomma] at hr'
    cases has with
    | last ha' hend =>
      obtain ⟨-, rfl⟩ := ha'.unique har
      rw [hr'] at hend
      cases hend
    | more ha' hend has =>
      obtain ⟨-, rfl⟩ := ha'.unique har
      obtain rfl := (List.cons.inj (hr'.symm.trans hend)).2
      exact ⟨_, _, has⟩

theorem ArgsAt.argAt {as : List Arg} (h : ArgsAt s as rest) :
    ∃ a r mark tail, ArgAt (Text.trimStart s) a r ∧ Text.trimStart r = mark :: tail ∧
      (mark = ',' ∨ mark = ')') := by
  cases h with
  | last ha hr => exact ⟨_, _, _, _, ha, hr, .inr rfl⟩
  | more ha hr _ => exact ⟨_, _, _, _, ha, hr, .inl rfl⟩

/-- Where an argument is due, there has to be one. -/
theorem BeforeArg.refused_close (h : BeforeArg s) (hw : IsSpace w) (rest : List Char) :
    Refused (s ++ (w ++ ')' :: rest)) := by
  refine refused_of_not_reads fun t hr => ?_
  obtain ⟨as, r, has⟩ := h.argsAt hr
  obtain ⟨a, r', -, -, ha, -⟩ := has.argAt
  have hclose : Text.trimStart (w ++ ')' :: rest) = ')' :: rest := hw.trimStart_append _
  have hread := readArg_iff.2 ha
  simp [readArg, hclose, isAsciiUpper, isAsciiLower, isAsciiDigit] at hread

/-- The reader of an unquoted atom refuses an argument list behind it. -/
theorem readArg_nested {name rest r : List Char} (hs : Text.trimStart s = name ++ rest)
    (hn : IsWord opensAtom name) (hr : EndsWord rest) (hp : Text.trimStart rest = '(' :: r) :
    readArg s = .error (.expected .simpleArgument) := by
  have hw := readWord_append (hn.all fun _ => isWordChar_of_opensAtom) hr
  obtain ⟨c, tail, rfl, hc, -⟩ := hn
  have hquote := ne_quote_of_isWordChar (isWordChar_of_opensAtom hc)
  have hvar := opensVar_of_opensAtom hc
  rw [opensAtom] at hc
  rw [opensVar] at hvar
  rw [List.cons_append] at hs hw
  simp [readArg, hs, hvar, hc, hw, hp]

/-- An argument has no arguments of its own. -/
theorem BeforeArg.refused_nested (h : BeforeArg s) (hbefore : IsSpace before)
    (ha : ArgText text a) (hafter : IsSpace after) (rest : List Char) :
    Refused (s ++ (before ++ (text ++ (after ++ '(' :: rest)))) := by
  refine refused_of_not_reads fun t hr => ?_
  obtain ⟨as, r, has⟩ := h.argsAt hr
  obtain ⟨a', r', mark, tail, har, hmark, hne⟩ := has.argAt
  have hs : Text.trimStart (before ++ (text ++ (after ++ '(' :: rest))) =
      text ++ (after ++ '(' :: rest) := by rw [hbefore.trimStart_append, ha.trimStart]
  have hopen : Text.trimStart (after ++ '(' :: rest) = '(' :: rest := hafter.trimStart_append _
  have hend : Delimited (after ++ '(' :: rest) :=
    hafter.delimited (delimited_cons (by decide) (by decide))
  have hsimple (hread : ArgAt (text ++ (after ++ '(' :: rest)) a (after ++ '(' :: rest)) :
      False := by
    obtain ⟨-, rfl⟩ := har.unique (hs.symm ▸ hread)
    rw [hopen] at hmark
    obtain ⟨rfl, -⟩ := List.cons.inj hmark
    rcases hne with h | h <;> cases h
  cases ha with
  | word hn =>
    have hread := readArg_nested hs hn hend.1 hopen
    rw [readArg_iff.2 har] at hread
    cases hread
  | var hn => exact hsimple (.var hn hend.1)
  | quoted name =>
    have hquoted := @ArgAt.quoted name _ hend.2
    exact hsimple (by simpa using hquoted)

theorem TermText.isSpace_of_reads {as : List Arg} (h : TermText s ⟨f, a :: as⟩)
    (hr : Reads (s ++ rest) t) : IsSpace rest := by
  cases h with
  | @applied before name between args after _ _ hbefore hf hbetween has hafter =>
    simp only [List.append_assoc, List.cons_append] at hr
    obtain ⟨as', r, has', hend⟩ := hr.argsAt_of_name hbefore hf hbetween
    have heq := (readArgs_iff.2 has').symm.trans (readArgs_iff.2 (has.argsAt (after ++ rest)))
    obtain ⟨-, rfl⟩ := Prod.mk.inj (Except.ok.inj heq)
    exact fun c hc => isSpace_iff.2 hend c (by simp [hc])

/-- Behind an applied term only blanks may stand. -/
theorem TermText.refused_after {as : List Arg} (h : TermText s ⟨f, a :: as⟩)
    (hrest : ¬ IsSpace rest) : Refused (s ++ rest) :=
  refused_of_not_reads fun _ hr => hrest (h.isSpace_of_reads hr)

/-- Behind a name that goes no further, only blanks or an argument list may stand. -/
theorem NameText.refused_after (hbefore : IsSpace before) (hf : NameText name f)
    (hafter : IsSpace after) {c : Char} (hc : isBlank c = false) (hparen : c ≠ '(')
    (hmax : after = [] → ∀ more f', ¬ NameText (name ++ c :: more) f') (rest : List Char) :
    Refused (before ++ (name ++ (after ++ c :: rest))) := by
  refine refused_of_not_reads fun t hr => ?_
  have hs : Text.trimStart (before ++ (name ++ (after ++ c :: rest))) =
      name ++ (after ++ c :: rest) := by rw [hbefore.trimStart_append, hf.trimStart]
  have hmark : Text.trimStart (after ++ c :: rest) = c :: rest := by
    rw [hafter.trimStart_append]
    simp [Text.trimStart, hc]
  have hname : FunctorAt (name ++ (after ++ c :: rest)) f (after ++ c :: rest) := by
    cases after with
    | nil =>
      refine hf.functorAt_of_maximal fun d tail more f' htail => ?_
      obtain ⟨rfl, -⟩ := List.cons.inj htail
      exact hmax rfl more f'
    | cons b after =>
      have hb : isBlank b := hafter b (by simp)
      refine hf.functorAt (delimited_cons (isWordChar_of_isBlank hb) ?_)
      rintro rfl
      exact absurd hb (by decide)
  cases hr with
  | bare hf' hr =>
    obtain ⟨-, rfl⟩ := hf'.unique (hs.symm ▸ hname)
    rw [hmark] at hr
    cases hr
  | applied hf' hp =>
    obtain ⟨-, rfl⟩ := hf'.unique (hs.symm ▸ hname)
    exact hparen (List.cons.inj (hmark.symm.trans hp)).1

end Refused

/-- A text is read as a term exactly if the grammar derives the term from it. In particular a text
is refused that has no argument where one is due, an argument list behind an argument, or anything
but blanks behind a term. -/
theorem parse_eq_ok_iff_derived :
    (∀ (src : String) (t : Term), parse src = .ok t ↔ TermText src.toList t) ∧
      (∀ s w rest, BeforeArg s → IsSpace w → Refused (s ++ (w ++ ')' :: rest))) ∧
      (∀ s before text after rest a, BeforeArg s → IsSpace before → ArgText text a →
        IsSpace after → Refused (s ++ (before ++ (text ++ (after ++ '(' :: rest))))) ∧
      (∀ s rest f a as, TermText s ⟨f, a :: as⟩ → ¬ IsSpace rest → Refused (s ++ rest)) ∧
      ∀ before name after c rest f, IsSpace before → NameText name f → IsSpace after →
        isBlank c = false → c ≠ '(' →
        (after = [] → ∀ more f', ¬ NameText (name ++ c :: more) f') →
        Refused (before ++ (name ++ (after ++ c :: rest))) := by
  refine ⟨fun src t => parse_iff.trans reads_iff, ?_, ?_, ?_, ?_⟩
  · exact fun s w rest hs hw => hs.refused_close hw rest
  · exact fun s before text after rest a hs hbefore ha hafter =>
      hs.refused_nested hbefore ha hafter rest
  · exact fun s rest f a as hs hrest => hs.refused_after hrest
  · exact fun before name after c rest f hbefore hf hafter hc hparen hmax =>
      hf.refused_after hbefore hafter hc hparen hmax rest

theorem parse_likes_derived :
    parse "f('it''s' ,X)" = .ok ⟨"f", [.atom "it's", .var "X"]⟩ ∧ Refused ['f', '(', ' ', ')'] ∧
      Refused ['f', '(', 'X', ',', 'g', '(', 'b', ')', ')'] ∧
      Refused ['f', '(', 'X', ')', '\t', 'b'] ∧ Refused ['f', ' ', 'b'] := by
  have hnone : IsSpace [] := by simp [IsSpace]
  have hblank : IsSpace [' '] := by simp [IsSpace, isBlank]
  have hf : NameText ['f'] "f" := .word ⟨'f', [], rfl, by decide, by simp⟩
  have hx : ArgText ['X'] (.var "X") := .var ⟨'X', [], rfl, by decide, by simp⟩
  have hg : ArgText ['g'] (.atom "g") := .word ⟨'g', [], rfl, by decide, by simp⟩
  have hquoted : ArgText ['\'', 'i', 't', '\'', '\'', 's', '\''] (.atom "it's") :=
    .quoted ['i', 't', '\'', 's']
  have hopen := BeforeArg.first hnone hf hnone
  have happlied := TermText.applied hnone hf hnone (.one hnone hx hnone) hnone
  have hlikes : TermText "f('it''s' ,X)".toList ⟨"f", [.atom "it's", .var "X"]⟩ := by
    have htext : "f('it''s' ,X)".toList =
      ['f', '(', '\'', 'i', 't', '\'', '\'', 's', '\'', ' ', ',', 'X', ')'] := by decide
    rw [htext]
    exact TermText.applied hnone hf hnone (.more hnone hquoted hblank (.one hnone hx hnone)) hnone
  obtain ⟨hiff, hclose, hnested, hafter, hbare⟩ := parse_eq_ok_iff_derived
  have hempty := hclose _ _ [] hopen hblank
  have hcompound := hnested _ _ _ _ ['b', ')', ')'] _ (hopen.next hnone hx hnone) hnone hg hnone
  have htail := hafter _ ['\t', 'b'] _ _ _ happlied (by simp [IsSpace, isBlank])
  have hname := hbare _ _ _ 'b' [] _ hnone hf hblank (by decide) (by decide) (by simp)
  exact ⟨(hiff _ _).2 hlikes, by simpa using hempty, by simpa using hcompound, by simpa using htail,
    by simpa using hname⟩

end LogicConsole.Term
