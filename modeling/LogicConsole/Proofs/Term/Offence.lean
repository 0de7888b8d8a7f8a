import LogicConsole.Proofs.Term.Grammar
/-!
Where a text goes wrong. Reading never looks further than the character it refuses: what stands
before that character can still become a term, and with it no text behind helps. A text that only
lacks its end is told apart from these, and so is one that ends inside a quoted atom.
-/
namespace LogicConsole

/-- The error is about the character that stands where reading stops. -/
def SyntaxError.Blames : SyntaxError → Char → Prop
  | .unexpected d, c => d = c
  | .expected .separator, c => c ≠ ',' ∧ c ≠ ')'
  | .expected .simpleArgument, c => c = '('
  | .expected .groundFact, _ | .unexpectedEnd, _ | .unterminatedQuote, _ => False

namespace Term

open Text

/-- Some text behind it makes it a term. -/
def Viable (s : List Char) : Prop := ∃ more t, parse (String.ofList (s ++ more)) = .ok t

/-- The text ends inside a quoted atom, which stands where a functor or an argument is due. -/
inductive EndsInQuote : List Char → Prop
  | functor {before : List Char} (hbefore : IsSpace before) (name : List Char) :
    EndsInQuote (before ++ '\'' :: escape name)
  | argument {s before : List Char} (hs : BeforeArg s) (hbefore : IsSpace before)
    (name : List Char) : EndsInQuote (s ++ (before ++ '\'' :: escape name))

/-- A text that can become a term cannot any more with this character behind it. -/
structure WrongAt (p : List Char) (c : Char) (e : SyntaxError) : Prop where
  viable : Viable p
  refused (more : List Char) : parse (String.ofList (p ++ c :: more)) = .error e
  blames : e.Blames c

/-- What reading finds wrong with a text. -/
inductive Faulty (s : List Char) : SyntaxError → Prop
  | ended (h : Viable s) : Faulty s .unexpectedEnd
  | unclosed (h : Viable s) (hquote : EndsInQuote s) : Faulty s .unterminatedQuote
  | wrong {p r : List Char} {c : Char} {e : SyntaxError} (hs : s = p ++ c :: r)
    (h : WrongAt p c e) : Faulty s e

variable {s r rest before name between after text w : List Char} {c : Char} {f : String} {a : Arg}
  {as : List Arg} {t : Term} {e : SyntaxError}

section Readers

theorem map_eq_error {α β ε : Type} {x : Except ε α} {g : α → β} {e : ε} :
    x.map g = .error e ↔ x = .error e := by
  cases x <;> simp [Except.map]

/-- A quoted atom is refused if the text holds doubled quotes alone. -/
theorem readQuoted_eq_error_iff :
    readQuoted s = .error e ↔ e = .unterminatedQuote ∧ ∃ name, s = escape name := by
  constructor
  · intro h
    fun_induction readQuoted s with
    | case1 =>
      cases h
      exact ⟨rfl, [], rfl⟩
    | case2 s ih =>
      obtain ⟨rfl, name, rfl⟩ := ih (map_eq_error.1 h)
      exact ⟨rfl, '\'' :: name, rfl⟩
    | case3 => cases h
    | case4 c s _ hc ih =>
      obtain ⟨rfl, name, rfl⟩ := ih (map_eq_error.1 h)
      exact ⟨rfl, c :: name, (escape_cons hc name).symm⟩
  · rintro ⟨rfl, name, rfl⟩
    induction name with
    | nil => rfl
    | cons c name ih =>
      by_cases hc : c = '\''
      · subst hc
        rw [escape_quote, readQuoted, ih]
        rfl
      · rw [escape_cons hc, readQuoted, ih]
        · rfl
        · exact fun _ h _ => hc h
        · exact hc

/-- The first character behind the blanks is none. -/
theorem exists_space_cons (h : trimStart s = c :: r) :
    ∃ w, IsSpace w ∧ s = w ++ c :: r ∧ isBlank c = false := by
  obtain ⟨w, hw, hs⟩ := exists_space s
  refine ⟨w, hw, by rw [← h, ← hs], ?_⟩
  have hhead := List.head?_dropWhile_not isBlank s
  have hdrop : s.dropWhile isBlank = c :: r := h
  rw [hdrop] at hhead
  simpa using hhead

theorem IsSpace.trimStart_cons (hw : IsSpace w) (hc : isBlank c = false) (more : List Char) :
    trimStart (w ++ c :: more) = c :: more := by
  rw [hw.trimStart_append]
  simp [Text.trimStart, hc]

theorem head?_append_cons (w : List Char) (c : Char) (r more : List Char) :
    (w ++ c :: more).head? = (w ++ c :: r).head? := by
  cases w <;> rfl

theorem EndsWord.of_head (h : EndsWord s) (hhead : r.head? = s.head?) : EndsWord r := by
  unfold EndsWord at h ⊢
  rwa [hhead]

/-- How a functor is read depends on nothing but the next character. -/
theorem FunctorAt.follow (h : FunctorAt s f r) (hr : trimStart r = c :: rest) :
    ∃ name after, NameText name f ∧ IsSpace after ∧ s = name ++ (after ++ c :: rest) ∧
      ∀ more, FunctorAt (name ++ (after ++ c :: more)) f (after ++ c :: more) := by
  obtain ⟨after, hafter, rfl, -⟩ := exists_space_cons hr
  cases h with
  | @word name _ hn hend =>
    exact ⟨name, after, .word hn, hafter, rfl,
      fun more => .word hn (hend.of_head (head?_append_cons ..))⟩
  | @quoted name _ hend =>
    refine ⟨_, after, .quoted name, hafter, by simp, fun more => ?_⟩
    have hquoted := @FunctorAt.quoted name (after ++ c :: more)
      (by rwa [head?_append_cons after c rest more])
    simpa using hquoted

/-- How an argument is read depends on nothing but the next character that is no blank. -/
theorem ArgAt.follow (h : ArgAt s a r) (hr : trimStart r = c :: rest) :
    ∃ text after, ArgText text a ∧ IsSpace after ∧ s = text ++ (after ++ c :: rest) ∧
      ∀ more, ∃ r', ArgAt (text ++ (after ++ c :: more)) a r' ∧ trimStart r' = c :: more := by
  cases h with
  | @quoted name _ hend =>
    obtain ⟨after, hafter, rfl, hc⟩ := exists_space_cons hr
    refine ⟨_, after, .quoted name, hafter, by simp, fun more => ⟨after ++ c :: more, ?_, ?_⟩⟩
    · have hquoted := @ArgAt.quoted name (after ++ c :: more)
        (by rwa [head?_append_cons after c rest more])
      simpa using hquoted
    · exact hafter.trimStart_cons hc more
  | @var name _ hn hend =>
    obtain ⟨after, hafter, rfl, hc⟩ := exists_space_cons hr
    exact ⟨name, after, .var hn, hafter, rfl, fun more => ⟨after ++ c :: more,
      .var hn (hend.of_head (head?_append_cons ..)), hafter.trimStart_cons hc more⟩⟩
  | @word name _ hn hend hparen =>
    rw [trimStart_trimStart] at hr
    obtain ⟨after, hafter, rfl, hc⟩ := exists_space_cons hr
    rw [hr] at hparen
    refine ⟨name, after, .word hn, hafter, rfl, fun more => ⟨_,
      .word hn (hend.of_head (head?_append_cons ..)) ?_, ?_⟩⟩
    · rwa [hafter.trimStart_cons hc]
    · rw [trimStart_trimStart, hafter.trimStart_cons hc]

/-- Where a functor is due, a text holds none, or one that is not closed, or it goes wrong at its
first character that is no blank. -/
theorem readFunctor_eq_error (h : readFunctor s = .error e) :
    IsSpace s ∧ e = .unexpectedEnd ∨
      (∃ before name, IsSpace before ∧ s = before ++ '\'' :: escape name ∧
        e = .unterminatedQuote) ∨
      ∃ before c r, IsSpace before ∧ s = before ++ c :: r ∧ e = .unexpected c ∧
        ∀ more, readFunctor (before ++ c :: more) = .error e := by
  unfold readFunctor at h
  split at h
  · rename_i hs
    exact .inl ⟨isSpace_iff.2 hs, (Except.error.inj h).symm⟩
  · rename_i r hs
    obtain ⟨before, hbefore, rfl, -⟩ := exists_space_cons hs
    obtain ⟨rfl, name, rfl⟩ := readQuoted_eq_error_iff.1 (map_eq_error.1 h)
    exact .inr (.inl ⟨before, name, hbefore, rfl, rfl⟩)
  · rename_i c r hquote hs
    obtain ⟨before, hbefore, rfl, hc⟩ := exists_space_cons hs
    split at h
    · cases h
    · rename_i hlower
      obtain rfl := Except.error.inj h
      refine .inr (.inr ⟨before, c, r, hbefore, rfl, rfl, fun more => ?_⟩)
      unfold readFunctor
      rw [hbefore.trimStart_cons hc]
      split
      · rename_i heq
        cases heq
      · rename_i heq
        obtain ⟨rfl, -⟩ := List.cons.inj heq
        exact absurd rfl hquote
      · rename_i heq
        obtain ⟨rfl, -⟩ := List.cons.inj heq
        rw [if_neg hlower]

end Readers

section Arguments

/-- Blanks, or an argument between blanks. -/
inductive ArgBegun : List Char → Prop
  | space {w : List Char} (hw : IsSpace w) : ArgBegun w
  | whole {before text after : List Char} {a : Arg} (hbefore : IsSpace before)
    (ha : ArgText text a) (hafter : IsSpace after) : ArgBegun (before ++ (text ++ after))

/-- What reading finds wrong with a text where an argument is due. -/
inductive ArgFaulty (s : List Char) : SyntaxError → Prop
  | ended (h : ArgBegun s) : ArgFaulty s .unexpectedEnd
  | unclosed {before name : List Char} (hbefore : IsSpace before)
    (hs : s = before ++ '\'' :: escape name) : ArgFaulty s .unterminatedQuote
  | wrong {p r : List Char} {c : Char} {e : SyntaxError} (hs : s = p ++ c :: r)
    (h : ArgBegun p) (hblames : e.Blames c)
    (hrefused : ∀ more, readArgs (p ++ c :: more) = .error e) : ArgFaulty s e

theorem readArgs_of_readArg (h : readArg s = .error e) : readArgs s = .error e := by
  rw [readArgs]
  split <;> simp_all

/-- What becomes of the arguments behind one that was read hangs on the character after it. -/
theorem readArgs_of_readArg_ok (h : readArg s = .ok (a, r)) :
    readArgs s = match trimStart r with
      | [] => .error .unexpectedEnd
      | ',' :: rest => (readArgs rest).map fun (as, rest) => (a :: as, rest)
      | ')' :: rest => .ok ([a], rest)
      | _ :: _ => .error (.expected .separator) := by
  rw [readArgs]
  split
  · simp_all
  · rename_i heq
    obtain ⟨rfl, rfl⟩ := Prod.mk.inj (Except.ok.inj (h.symm.trans heq))
    split <;> simp_all

/-- A word that takes arguments of its own is no argument. -/
theorem argFaulty_of_nested {tail : List Char} (hs : trimStart s = name ++ r)
    (hn : IsWord opensAtom name) (hend : EndsWord r) (hparen : trimStart r = '(' :: tail) :
    ArgFaulty s (.expected .simpleArgument) := by
  have htext : ArgText name (.atom (String.ofList name)) := .word hn
  obtain ⟨before, hbefore, heq⟩ := exists_space s
  obtain ⟨after, hafter, rfl, hblank⟩ := exists_space_cons hparen
  rw [heq, hs]
  refine .wrong (r := tail) (by simp) (.whole hbefore htext hafter) rfl fun more => ?_
  have hnext : trimStart (before ++ (name ++ after) ++ '(' :: more) =
      name ++ (after ++ '(' :: more) := by
    simp only [List.append_assoc, hbefore.trimStart_append, htext.trimStart]
  exact readArgs_of_readArg (readArg_nested hnext hn
    (hend.of_head (head?_append_cons ..)) (hafter.trimStart_cons hblank more))

theorem argFaulty_of_readArg (h : readArg s = .error e) : ArgFaulty s e := by
  have hopen {c : Char} {r : List Char} (hs : trimStart s = c :: r) (hquote : c ≠ '\'')
      (hvar : ¬ opensVar c) (hatom : ¬ opensAtom c) (he : e = .unexpected c) : ArgFaulty s e := by
    subst he
    obtain ⟨before, hbefore, rfl, hc⟩ := exists_space_cons hs
    refine .wrong rfl (.space hbefore) rfl fun more => readArgs_of_readArg ?_
    rw [opensVar] at hvar
    rw [opensAtom] at hatom
    simp [readArg, hbefore.trimStart_cons hc, hvar, hatom]
  unfold readArg at h
  split at h
  · rename_i hs
    obtain rfl := Except.error.inj h
    exact .ended (.space (isSpace_iff.2 hs))
  · rename_i r hs
    obtain ⟨before, hbefore, rfl, -⟩ := exists_space_cons hs
    obtain ⟨rfl, name, rfl⟩ := readQuoted_eq_error_iff.1 (map_eq_error.1 h)
    exact .unclosed hbefore rfl
  · rename_i c r hquote hs
    split at h
    · cases h
    · rename_i hvar
      split at h
      · rename_i hatom
        obtain ⟨name, rest, hw, hsplit, hn, hend⟩ :=
          readWord_split (fun _ => isWordChar_of_opensAtom) hatom r
        rw [hw] at h
        dsimp only at h
        split at h
        · rename_i tail hparen
          obtain rfl := Except.error.inj h
          exact argFaulty_of_nested (hs.trans hsplit) hn hend hparen
        · cases h
      · rename_i hatom
        exact hopen hs hquote hvar hatom (Except.error.inj h).symm

/-- Behind an argument there is nothing, or neither a comma nor a closing parenthesis. -/
theorem argFaulty_of_readArg_ok (h : readArg s = .ok (a, r))
    (hr : trimStart r = [] ∧ e = .unexpectedEnd ∨
      ∃ c tail, trimStart r = c :: tail ∧ c ≠ ',' ∧ c ≠ ')' ∧ e = .expected .separator) :
    ArgFaulty s e := by
  obtain ⟨before, hbefore, hs⟩ := exists_space s
  have ha := readArg_iff.1 h
  rcases hr with ⟨hnone, rfl⟩ | ⟨c, tail, hmark, hcomma, hclose, rfl⟩
  · obtain ⟨text, after, htext, hafter, heq⟩ := ha.derived
    have hspace : IsSpace (after ++ r) := isSpace_iff.2 (hafter.trimStart_append r ▸ hnone)
    rw [hs, heq]
    exact .ended (.whole hbefore htext hspace)
  · obtain ⟨text, after, htext, hafter, heq, hfollow⟩ := ha.follow hmark
    refine .wrong (p := before ++ (text ++ after)) (r := tail) ?_
      (.whole hbefore htext hafter) ⟨hcomma, hclose⟩ fun more => ?_
    · rw [hs, heq]
      simp
    · obtain ⟨r', har, hr'⟩ := hfollow more
      have hread : readArg (before ++ (text ++ after) ++ c :: more) = .ok (a, r') := by
        refine readArg_iff.2 ?_
        simpa only [List.append_assoc, hbefore.trimStart_append, htext.trimStart] using har
      rw [readArgs_of_readArg_ok hread, hr']
      split
      · rename_i heq
        cases heq
      · rename_i heq
        exact absurd (List.cons.inj heq).1 hcomma
      · rename_i heq
        exact absurd (List.cons.inj heq).1 hclose
      · rfl

/-- The arguments go wrong where an argument is due, behind others that are followed by a comma. -/
theorem BeforeArg.faulty_of_readArgs (hb : BeforeArg before) (h : readArgs s = .error e) :
    ∃ opened rest, BeforeArg opened ∧ before ++ s = opened ++ rest ∧ ArgFaulty rest e := by
  fun_induction readArgs s generalizing before with
  | case1 s e' hs =>
    obtain rfl := Except.error.inj h
    exact ⟨before, s, hb, rfl, argFaulty_of_readArg hs⟩
  | case2 s a r hs hr =>
    obtain rfl := Except.error.inj h
    exact ⟨before, s, hb, rfl, argFaulty_of_readArg_ok hs (.inl ⟨hr, rfl⟩)⟩
  | case3 s a r hs rest hr _ ih =>
    obtain ⟨w, text, after, hw, htext, hafter, rfl⟩ := (readArg_iff.1 hs).derived_mark hr
    obtain ⟨opened, rest', hopened, heq, hfaulty⟩ :=
      ih (hb.next hw htext hafter) (map_eq_error.1 h)
    exact ⟨opened, rest', hopened, by simpa using heq, hfaulty⟩
  | case4 => cases h
  | case5 s a r hs c tail hcomma hclose hr =>
    obtain rfl := Except.error.inj h
    exact ⟨before, s, hb, rfl, argFaulty_of_readArg_ok hs (.inr ⟨c, tail, hr, hcomma, hclose, rfl⟩)⟩

end Arguments

section Texts

/-- What reading comes to behind an argument list. -/
def closing (t : Term) (rest : List Char) : Except SyntaxError Term :=
  match trimStart rest with
  | [] => .ok t
  | c :: _ => .error (.unexpected c)

theorem parse_of_readFunctor (h : readFunctor s = .error e) :
    parse (String.ofList s) = .error e := by
  simp [parse, parseChars, readTerm, h, Bind.bind, Except.bind]

/-- What reading comes to behind a functor and an opening parenthesis. -/
theorem parse_of_opened (hf : FunctorAt (trimStart s) f r) (hr : trimStart r = '(' :: rest) :
    parse (String.ofList s) =
      (readArgs rest).bind fun (as, rest) => closing ⟨f, as⟩ rest := by
  simp only [parse, parseChars, readTerm, String.toList_ofList, readFunctor_iff.2 hf, hr,
    Bind.bind, Except.bind]
  cases readArgs rest <;> rfl

/-- What reading comes to behind a functor that has no arguments. -/
theorem parse_of_bare (hf : FunctorAt (trimStart s) f r)
    (hr : (trimStart r).head? ≠ some '(') : parse (String.ofList s) = closing ⟨f, []⟩ r := by
  have hread : readTerm s = .ok (⟨f, []⟩, trimStart r) := by
    simp only [readTerm, readFunctor_iff.2 hf, Bind.bind, Except.bind]
    split
    · rename_i tail hopen
      rw [hopen] at hr
      exact absurd rfl hr
    · rfl
  have hclosing : closing ⟨f, []⟩ r = closing ⟨f, []⟩ (trimStart r) := by
    simp only [closing, trimStart_trimStart]
  rw [hclosing]
  simp only [parse, parseChars, String.toList_ofList, hread, Bind.bind, Except.bind]
  rfl

theorem closing_eq_error_iff :
    closing t s = .error e ↔ ∃ c tail, trimStart s = c :: tail ∧ e = .unexpected c := by
  unfold closing
  split
  · rename_i hs
    simp [hs]
  · rename_i c tail hs
    simp [hs, eq_comm]

theorem TermText.viable (more : List Char) (h : TermText (s ++ more) t) : Viable s := by
  refine ⟨more, t, parse_iff.2 ?_⟩
  rw [String.toList_ofList]
  exact h.reads

theorem isWord_a {start : Char → Bool} (h : start 'a') : IsWord start ['a'] :=
  ⟨'a', [], rfl, h, List.forall_mem_nil _⟩

theorem BeforeArg.termText {args : List Char} (hb : BeforeArg before) (has : ArgsText args as) :
    ∃ t, TermText (before ++ (args ++ [')'])) t := by
  induction hb generalizing args as with
  | first hbefore hf hbetween =>
    have happlied := TermText.applied hbefore hf hbetween has isSpace_nil
    exact ⟨_, by simpa using happlied⟩
  | next _ hbefore ha hafter ih =>
    obtain ⟨t, ht⟩ := ih (.more hbefore ha hafter has)
    exact ⟨t, by simpa using ht⟩

/-- Behind earlier arguments an argument can be closed that is begun. -/
theorem BeforeArg.viable (hb : BeforeArg before) (h : ArgBegun s) : Viable (before ++ s) := by
  cases h with
  | space hw =>
    obtain ⟨t, ht⟩ := hb.termText (.one hw (.word (isWord_a (by decide))) isSpace_nil)
    exact TermText.viable ['a', ')'] (by simpa using ht)
  | whole hbefore ha hafter =>
    obtain ⟨t, ht⟩ := hb.termText (.one hbefore ha hafter)
    exact TermText.viable [')'] (by simpa using ht)

/-- Behind earlier arguments reading goes wrong as the arguments do. -/
theorem BeforeArg.parse_eq_error (hb : BeforeArg before) (h : readArgs s = .error e) :
    parse (String.ofList (before ++ s)) = .error e := by
  induction hb generalizing s with
  | @first before name between f hbefore hf hbetween =>
    have hopen : trimStart (between ++ '(' :: s) = '(' :: s := hbetween.trimStart_append _
    have hname := hf.functorAt (hbetween.delimited (delimited_cons (s := s) (by decide)
      (by decide : '(' ≠ '\'')))
    have htext : trimStart (before ++ (name ++ (between ++ ['('])) ++ s) =
        name ++ (between ++ '(' :: s) := by
      simp only [List.append_assoc, List.singleton_append, hbefore.trimStart_append, hf.trimStart]
    rw [parse_of_opened (htext.symm ▸ hname) hopen, h]
    rfl
  | @next opened before text after a _ hbefore ha hafter ih =>
    have hcomma : trimStart (after ++ ',' :: s) = ',' :: s := hafter.trimStart_append _
    have hend : Delimited (after ++ ',' :: s) :=
      hafter.delimited (delimited_cons (by decide) (by decide))
    obtain ⟨r, har, hr⟩ := ha.argAt hend (by rw [hcomma]; simp)
    have htext : trimStart (before ++ (text ++ (after ++ ',' :: s))) =
        text ++ (after ++ ',' :: s) := by
      rw [hbefore.trimStart_append, ha.trimStart]
    have hargs : readArgs (before ++ (text ++ (after ++ ',' :: s))) = .error e := by
      rw [readArgs_of_readArg_ok (readArg_iff.2 (htext.symm ▸ har)), hr, hcomma]
      exact map_eq_error.2 h
    have hopened := ih hargs
    simpa using hopened

theorem BeforeArg.faulty (hb : BeforeArg before) (h : ArgFaulty s e) :
    Faulty (before ++ s) e := by
  cases h with
  | ended h => exact .ended (hb.viable h)
  | @unclosed w name hw hs =>
    subst hs
    obtain ⟨t, ht⟩ := hb.termText (.one hw (.quoted name) isSpace_nil)
    exact .unclosed (TermText.viable ['\'', ')'] (by simpa using ht))
      (.argument hb hw name)
  | @wrong front r c _ hs hfront hblames hrefused =>
    refine .wrong (p := before ++ front) (r := r) (by rw [hs, List.append_assoc])
      ⟨hb.viable hfront, fun more => ?_, hblames⟩
    rw [List.append_assoc]
    exact hb.parse_eq_error (hrefused more)

/-- Behind a whole term anything but blanks is wrong. -/
theorem TermText.faulty {front : List Char} (hfront : TermText front t) (hs : s = front ++ c :: r)
    (hrefused : ∀ more, parse (String.ofList (front ++ c :: more)) = .error (.unexpected c)) :
    Faulty s (.unexpected c) :=
  .wrong hs ⟨TermText.viable [] (by rwa [List.append_nil]), hrefused, rfl⟩

/-- What is wrong behind a functor without arguments. -/
theorem FunctorAt.faulty_bare (hf : FunctorAt (trimStart s) f r)
    (hopen : (trimStart r).head? ≠ some '(') (h : parse (String.ofList s) = .error e) :
    Faulty s e := by
  obtain ⟨before, hbefore, hs⟩ := exists_space s
  rw [parse_of_bare hf hopen] at h
  obtain ⟨c, tail, hmark, rfl⟩ := closing_eq_error_iff.1 h
  obtain ⟨-, -, -, hc⟩ := exists_space_cons hmark
  obtain ⟨name, after, hname, hafter, hnext, hfollow⟩ := hf.follow hmark
  refine TermText.faulty (.bare hbefore hname hafter) (r := tail) ?_ fun more => ?_
  · rw [hs, hnext]
    simp
  · have htext : trimStart (before ++ (name ++ after) ++ c :: more) =
        name ++ (after ++ c :: more) := by
      simp only [List.append_assoc, hbefore.trimStart_append, hname.trimStart]
    have hnext' : trimStart (after ++ c :: more) = c :: more := hafter.trimStart_cons hc more
    rw [parse_of_bare (htext.symm ▸ hfollow more) (by simpa [hnext', hmark] using hopen)]
    exact closing_eq_error_iff.2 ⟨c, more, hnext', rfl⟩

/-- What is wrong with arguments that were opened, or behind them. -/
theorem FunctorAt.faulty_opened (hf : FunctorAt (trimStart s) f r)
    (hr : trimStart r = '(' :: rest) (h : parse (String.ofList s) = .error e) : Faulty s e := by
  obtain ⟨before, hbefore, hs⟩ := exists_space s
  obtain ⟨name, between, hname, hbetween, hnext, hfollow⟩ := hf.follow hr
  rw [parse_of_opened hf hr] at h
  cases hargs : readArgs rest with
  | error e' =>
    rw [hargs] at h
    obtain rfl := Except.error.inj h
    have hopened : BeforeArg (before ++ (name ++ (between ++ ['(']))) :=
      .first hbefore hname hbetween
    obtain ⟨opened, rest', hopened', heq, hfaulty⟩ := hopened.faulty_of_readArgs hargs
    have hwhole := hopened'.faulty hfaulty
    rw [← heq] at hwhole
    rw [hs, hnext]
    simpa using hwhole
  | ok read =>
    obtain ⟨as, behind⟩ := read
    rw [hargs] at h
    obtain ⟨c, tail, hmark, rfl⟩ := closing_eq_error_iff.1 h
    obtain ⟨args, hargsText, rfl⟩ := (readArgs_iff.1 hargs).derived
    obtain ⟨after, hafter, rfl, hc⟩ := exists_space_cons hmark
    refine TermText.faulty (.applied hbefore hname hbetween hargsText hafter) (r := tail) ?_
      fun more => ?_
    · rw [hs, hnext]
      simp
    · have hread := readArgs_iff.2 (hargsText.argsAt (after ++ c :: more))
      have hfunctor := hfollow (args ++ ')' :: (after ++ c :: more))
      have htext : trimStart (before ++ (name ++ (between ++ '(' :: (args ++ ')' :: after))) ++
          c :: more) = name ++ (between ++ '(' :: (args ++ ')' :: (after ++ c :: more))) := by
        simp only [List.append_assoc, List.cons_append, hbefore.trimStart_append,
          hname.trimStart]
      rw [parse_of_opened (htext.symm ▸ hfunctor) (hbetween.trimStart_append _), hread]
      exact closing_eq_error_iff.2 ⟨c, more, hafter.trimStart_cons hc more, rfl⟩

theorem FunctorAt.faulty (hf : FunctorAt (trimStart s) f r)
    (h : parse (String.ofList s) = .error e) : Faulty s e := by
  by_cases hopen : (trimStart r).head? = some '('
  · obtain ⟨rest, hr⟩ := List.head?_eq_some_iff.1 hopen
    exact hf.faulty_opened hr h
  · exact hf.faulty_bare hopen h

theorem faulty_of_parse (h : parse (String.ofList s) = .error e) : Faulty s e := by
  cases hfunctor : readFunctor s with
  | ok read => exact (readFunctor_iff.1 hfunctor).faulty h
  | error e' =>
    rw [parse_of_readFunctor hfunctor] at h
    obtain rfl := Except.error.inj h
    have hviable {w : List Char} (hw : IsSpace w) : Viable w := by
      have hbare := TermText.bare hw (.word (isWord_a (by decide))) isSpace_nil
      exact TermText.viable ['a'] (by simpa using hbare)
    rcases readFunctor_eq_error hfunctor with ⟨hs, rfl⟩ | ⟨before, name, hbefore, rfl, rfl⟩ |
      ⟨before, c, r, hbefore, rfl, rfl, hrefused⟩
    · exact .ended (hviable hs)
    · have hbare := TermText.bare hbefore (.quoted name) isSpace_nil
      exact .unclosed (TermText.viable ['\''] (by simpa using hbare))
        (.functor hbefore name)
    · exact .wrong rfl ⟨hviable hbefore, fun more => parse_of_readFunctor (hrefused more), rfl⟩

theorem EndsInQuote.parse_eq_error (h : EndsInQuote s) :
    parse (String.ofList s) = .error .unterminatedQuote := by
  have hquoted {before : List Char} (hbefore : IsSpace before) (name : List Char) :
      trimStart (before ++ '\'' :: escape name) = '\'' :: escape name ∧
        readQuoted (escape name) = .error .unterminatedQuote :=
    ⟨hbefore.trimStart_append _, readQuoted_eq_error_iff.2 ⟨rfl, name, rfl⟩⟩
  cases h with
  | functor hbefore name =>
    obtain ⟨htext, hname⟩ := hquoted hbefore name
    refine parse_of_readFunctor ?_
    simp [readFunctor, htext, hname, Except.map]
  | argument hs hbefore name =>
    obtain ⟨htext, hname⟩ := hquoted hbefore name
    refine hs.parse_eq_error (readArgs_of_readArg ?_)
    simp [readArg, htext, hname, Except.map]

end Texts

theorem WrongAt.not_viable {p : List Char} (h : WrongAt p c e) : ¬ Viable (p ++ c :: r) := by
  rintro ⟨more, t, ht⟩
  rw [List.append_assoc, List.cons_append, h.refused] at ht
  cases ht

theorem WrongAt.refuses {p : List Char} (h : WrongAt p c e) :
    e ≠ .unexpectedEnd ∧ e ≠ .unterminatedQuote := by
  have hblames := h.blames
  constructor <;> rintro rfl <;> exact hblames

/-- Errors are reported at the first character that no term has there. A text is refused for its end
if and only if it can still become a term, and for an open quote if and only if it ends inside a
quoted atom. In any other case the error is about a character and the same whatever stands behind
it, while the text before this character can still become a term. -/
theorem parse_error_located {src : String} {e : SyntaxError} (h : parse src = .error e) :
    (e = .unexpectedEnd ∨ e = .unterminatedQuote ↔ Viable src.toList) ∧
      (e = .unterminatedQuote ↔ EndsInQuote src.toList) ∧
      (¬ Viable src.toList → ∃ p c r, src.toList = p ++ c :: r ∧ WrongAt p c e) := by
  rw [← String.ofList_toList (s := src)] at h
  have hquote (hq : EndsInQuote src.toList) : e = .unterminatedQuote :=
    Except.error.inj (h.symm.trans hq.parse_eq_error)
  cases faulty_of_parse h with
  | ended hviable =>
    refine ⟨⟨fun _ => hviable, fun _ => .inl rfl⟩, ⟨nofun, hquote⟩, fun hnot => ?_⟩
    exact absurd hviable hnot
  | unclosed hviable hopen =>
    refine ⟨⟨fun _ => hviable, fun _ => .inr rfl⟩, ⟨fun _ => hopen, hquote⟩, fun hnot => ?_⟩
    exact absurd hviable hnot
  | wrong hs hwrong =>
    obtain ⟨hend, hunclosed⟩ := hwrong.refuses
    rw [hs] at hquote ⊢
    exact ⟨⟨fun he => absurd he (not_or.2 ⟨hend, hunclosed⟩),
      fun hviable => absurd hviable hwrong.not_viable⟩,
      ⟨fun he => absurd he hunclosed, hquote⟩, fun _ => ⟨_, _, _, rfl, hwrong⟩⟩

/-- A text that lacks its end, one that ends inside a quoted atom, and one that goes wrong at its
second argument. -/
theorem likes_error_located :
    (parse "likes(tom" = .error .unexpectedEnd ∧ Viable "likes(tom".toList ∧
      ¬ EndsInQuote "likes(tom".toList) ∧
    (parse "says('it''" = .error .unterminatedQuote ∧ EndsInQuote "says('it''".toList) ∧
    parse "f(X, g (b))" = .error (.expected .simpleArgument) ∧
      ∃ p c r, "f(X, g (b))".toList = p ++ c :: r ∧
        WrongAt p c (.expected .simpleArgument) := by
  have hshort : parse "likes(tom" = .error .unexpectedEnd := by cbv
  have hopen : parse "says('it''" = .error .unterminatedQuote := by cbv
  have hnested : parse "f(X, g (b))" = .error (.expected .simpleArgument) := by cbv
  obtain ⟨hend, hquote, -⟩ := parse_error_located hshort
  obtain ⟨-, hquote', -⟩ := parse_error_located hopen
  obtain ⟨hend'', -, hwrong⟩ := parse_error_located hnested
  refine ⟨⟨hshort, hend.1 (.inl rfl), fun h => ?_⟩, ⟨hopen, hquote'.1 rfl⟩, hnested,
    hwrong fun h => ?_⟩
  · cases hquote.2 h
  · rcases hend''.2 h with h | h <;> cases h

end Term

end LogicConsole
