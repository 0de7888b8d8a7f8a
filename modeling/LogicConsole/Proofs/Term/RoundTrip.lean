import LogicConsole.Term.Printer
import LogicConsole.Proofs.Term.Readers
/-!
Which terms survive printing. The printer leaves a functor as it stands and never doubles a quote,
so the text of a term reads back exactly when its functor is a word and no atom of it holds a quote.
-/
namespace LogicConsole.Term

open Text

/-- The text between the parentheses. -/
def argsText : List Arg → List Char
  | [] => []
  | [a] => a.render.toList
  | a :: b :: as => a.render.toList ++ ',' :: ' ' :: argsText (b :: as)

theorem toList_intercalate_render (as : List Arg) :
    (", ".intercalate (as.map Arg.render)).toList = argsText as := by
  fun_induction argsText as with
  | case1 => rfl
  | case2 a => simp
  | case3 a b as ih =>
    simp only [List.map_cons, String.intercalate_cons_cons, String.toList_append] at ih ⊢
    rw [ih]
    simp

theorem toList_render (f : String) (a : Arg) (as : List Arg) :
    (Term.mk f (a :: as)).render.toList = f.toList ++ '(' :: (argsText (a :: as) ++ [')']) := by
  simp only [render, List.isEmpty_cons, Bool.false_eq_true, if_false, String.toList_append,
    toList_intercalate_render, List.append_assoc]
  rfl

/-- What reading guarantees of an argument: a variable is spelled like one. -/
def Spelled : Arg → Prop
  | .var name => IsWord opensVar name.toList
  | .atom _ => True

theorem ArgAt.spelled {s rest : List Char} {a : Arg} (h : ArgAt s a rest) : Spelled a := by
  cases h with
  | quoted => trivial
  | var hn => simpa [Spelled] using hn
  | word => trivial

theorem ArgsAt.spelled {s rest : List Char} {as : List Arg} (h : ArgsAt s as rest) :
    ∀ a ∈ as, Spelled a := by
  induction h with
  | last ha => simpa using ha.spelled
  | more ha _ _ ih => simpa using ⟨ha.spelled, ih⟩

def QuoteFree : Arg → Prop
  | .var _ => True
  | .atom name => '\'' ∉ name.toList

/-- The terms whose text reads back: the functor is a word and no atom holds a quote. -/
structure Reenterable (t : Term) : Prop where
  functor : IsWord isAsciiLower t.functor.toList
  args : ∀ a ∈ t.args, QuoteFree a

theorem isWord_of_isPlain {name : List Char} (h : Arg.isPlain name) : IsWord opensAtom name := by
  unfold Arg.isPlain at h
  split at h
  · simp at h
  · rename_i c rest
    split at h
    · rename_i hc
      exact ⟨c, rest, rfl, by simp [opensAtom, hc], by simpa using h⟩
    · rw [Bool.and_eq_true] at h
      refine ⟨c, rest, rfl, by simp [opensAtom, h.1], fun d hd => ?_⟩
      exact isWordChar_of_opensAtom (by simp [opensAtom, List.all_eq_true.1 h.2 d hd])

theorem notMem_of_isPlain {name : List Char} (h : Arg.isPlain name) : '\'' ∉ name := fun hq =>
  ne_quote_of_isWordChar ((isWord_of_isPlain h).all (fun _ => isWordChar_of_opensAtom) _ hq) rfl

theorem render_of_not_isPlain {name : String} (h : ¬ Arg.isPlain name.toList) :
    (Arg.render (.atom name)).toList = '\'' :: (name.toList ++ ['\'']) := by
  simp [Arg.render, h]

/-- What the printer writes after an argument. -/
def EndsArg (s : List Char) : Prop := ∃ rest, s = ',' :: rest ∨ s = ')' :: rest

theorem EndsArg.endsWord {s : List Char} (h : EndsArg s) : EndsWord s := by
  obtain ⟨rest, rfl | rfl⟩ := h <;> exact endsWord_cons (by decide)

theorem EndsArg.trimStart {s : List Char} (h : EndsArg s) : Text.trimStart s = s := by
  obtain ⟨rest, rfl | rfl⟩ := h <;> rfl

theorem EndsArg.head?_ne {s : List Char} (h : EndsArg s) :
    s.head? ≠ some '\'' ∧ s.head? ≠ some '(' := by
  obtain ⟨rest, rfl | rfl⟩ := h <;> simp

theorem argAt_render {a : Arg} (ha : Spelled a) (hq : QuoteFree a) {s : List Char}
    (hs : EndsArg s) : ArgAt (trimStart (a.render.toList ++ s)) a s := by
  cases a with
  | var name =>
    have h := ArgAt.var ha hs.endsWord
    rw [String.ofList_toList] at h
    rwa [Arg.render, IsWord.trimStart (fun c hc => isBlank_of_opens (.inr hc)) ha]
  | atom name =>
    by_cases hp : Arg.isPlain name.toList
    · have hn := isWord_of_isPlain hp
      have h := ArgAt.word hn hs.endsWord (by simpa [hs.trimStart] using hs.head?_ne.2)
      rw [String.ofList_toList, hs.trimStart] at h
      rwa [Arg.render, if_pos hp, hn.trimStart fun c hc => isBlank_of_opens (.inl hc)]
    · have h : ArgAt ('\'' :: (escape name.toList ++ '\'' :: s)) _ s := .quoted hs.head?_ne.1
      rw [String.ofList_toList, escape_of_notMem hq] at h
      rw [render_of_not_isPlain hp]
      simpa [Text.trimStart, isBlank] using h

theorem argsAt_space {s rest : List Char} {as : List Arg} :
    ArgsAt (' ' :: s) as rest ↔ ArgsAt s as rest := by
  have hs : trimStart (' ' :: s) = trimStart s := rfl
  constructor
  · intro h
    cases h with
    | last ha hr => exact .last (hs ▸ ha) hr
    | more ha hr has => exact .more (hs ▸ ha) hr has
  · intro h
    cases h with
    | last ha hr => exact .last (hs ▸ ha) hr
    | more ha hr has => exact .more (hs ▸ ha) hr has

theorem argsAt_render {as : List Arg} (hne : as ≠ []) (hs : ∀ a ∈ as, Spelled a)
    (hq : ∀ a ∈ as, QuoteFree a) (rest : List Char) :
    ArgsAt (argsText as ++ ')' :: rest) as rest := by
  fun_induction argsText as with
  | case1 => exact absurd rfl hne
  | case2 a =>
    exact .last (argAt_render (hs a (by simp)) (hq a (by simp)) ⟨rest, .inr rfl⟩) rfl
  | case3 a b as ih =>
    have ha : ArgAt _ a (',' :: ' ' :: (argsText (b :: as) ++ ')' :: rest)) :=
      argAt_render (hs a (by simp)) (hq a (by simp)) ⟨_, .inl rfl⟩
    have htail := ih (by simp) (fun a h => hs a (by simp_all)) (fun a h => hq a (by simp_all))
    rw [List.append_assoc]
    exact .more ha rfl (argsAt_space.2 htail)

theorem endsWord_paren (s : List Char) : EndsWord ('(' :: s) := endsWord_cons (by decide)

theorem functorAt_word {f : String} (hf : IsWord isAsciiLower f.toList) {rest : List Char}
    (hr : EndsWord rest) : FunctorAt (trimStart (f.toList ++ rest)) f rest := by
  have hblank : ∀ c, isAsciiLower c → isBlank c = false :=
    fun c hc => isBlank_of_opens (.inl (by simp [opensAtom, hc]))
  have h := FunctorAt.word hf hr
  rw [String.ofList_toList] at h
  rwa [IsWord.trimStart hblank hf]

theorem reads_render {t : Term} (ht : t.Reenterable) (hs : ∀ a ∈ t.args, Spelled a) :
    Reads t.render.toList t := by
  obtain ⟨hf, hq⟩ := ht
  obtain ⟨f, as⟩ := t
  cases as with
  | nil =>
    have h : FunctorAt (trimStart (f.toList ++ [])) f [] := functorAt_word hf (by simp [EndsWord])
    rw [List.append_nil] at h
    exact .bare h rfl
  | cons a as =>
    rw [toList_render]
    exact .applied (functorAt_word hf (endsWord_paren _)) rfl (argsAt_render (by simp) hs hq []) rfl

/-- A name with a quote in it that stands between quotes undoubled is cut off or runs on: it is
never read back as itself. The quotes collected so far are counted by `k`. -/
theorem append_quote_ne (name : List Char) {tail : List Char} (ht : tail.head? ≠ some '\'')
    (rest : List Char) (k : Nat) :
    name ++ '\'' :: tail ≠ List.replicate (k + 1) '\'' ++ (escape name ++ '\'' :: rest) := by
  induction name generalizing k with
  | nil =>
    intro h
    rw [List.replicate_succ, List.nil_append, List.cons_append, List.cons.injEq] at h
    rw [h.2] at ht
    cases k <;> simp [List.replicate_succ] at ht
  | cons c name ih =>
    intro h
    rw [List.replicate_succ, List.cons_append, List.cons_append, List.cons.injEq] at h
    obtain ⟨rfl, h⟩ := h
    apply ih (k + 1)
    rw [h, escape_quote, List.replicate_succ', List.replicate_succ']
    simp

theorem notMem_of_escape {name tail rest : List Char} (ht : tail.head? ≠ some '\'')
    (h : name ++ '\'' :: tail = escape name ++ '\'' :: rest) : '\'' ∉ name := by
  induction name with
  | nil => simp
  | cons c name ih =>
    by_cases hc : c = '\''
    · subst hc
      rw [escape_quote, List.cons_append, List.cons_append, List.cons.injEq] at h
      exact absurd h.2 (append_quote_ne name ht rest 0)
    · rw [escape_cons hc, List.cons_append, List.cons_append, List.cons.injEq] at h
      simp [Ne.symm hc, ih h.2]

theorem ArgAt.quote_inv {s rest : List Char} {a : Arg} (h : ArgAt ('\'' :: s) a rest) :
    ∃ name, a = .atom (String.ofList name) ∧ s = escape name ++ '\'' :: rest := by
  have hne : ∀ {start : Char → Bool} {name r : List Char}, IsWord start name →
      (∀ c, start c → isWordChar c) → name ++ r ≠ '\'' :: s := by
    rintro start name r ⟨c, tail, rfl, hc, -⟩ hstart heq
    exact ne_quote_of_isWordChar (hstart c hc) (List.cons.inj heq).1
  generalize hs : '\'' :: s = text at h
  cases h with
  | quoted => exact ⟨_, rfl, (List.cons.inj hs).2⟩
  | var hn => exact absurd hs.symm (hne hn fun _ => isWordChar_of_opensVar)
  | word hn => exact absurd hs.symm (hne hn fun _ => isWordChar_of_opensAtom)

theorem quoteFree_of_argAt {a : Arg} {s rest : List Char} (hs : EndsArg s)
    (h : ArgAt (trimStart (a.render.toList ++ s)) a rest) : QuoteFree a := by
  cases a with
  | var => trivial
  | atom name =>
    by_cases hp : Arg.isPlain name.toList
    · exact notMem_of_isPlain hp
    · rw [render_of_not_isPlain hp] at h
      obtain ⟨name', hname, heq⟩ := ArgAt.quote_inv (s := name.toList ++ '\'' :: s) (by
        simpa [Text.trimStart, isBlank] using h)
      obtain rfl : name.toList = name' := by
        simpa using congrArg String.toList (Arg.atom.inj hname)
      exact notMem_of_escape hs.head?_ne.1 heq

theorem quoteFree_of_argsAt {as : List Arg} {rest tail : List Char} (hs : ∀ a ∈ as, Spelled a)
    (h : ArgsAt (argsText as ++ ')' :: rest) as tail) : ∀ a ∈ as, QuoteFree a := by
  fun_induction argsText as with
  | case1 => simp
  | case2 a =>
    have hend : EndsArg (')' :: rest) := ⟨rest, .inr rfl⟩
    cases h with
    | last ha => simpa using quoteFree_of_argAt hend ha
    | more ha => simpa using quoteFree_of_argAt hend ha
  | case3 a b as ih =>
    rw [List.append_assoc, List.cons_append, List.cons_append] at h
    have hend : EndsArg (',' :: ' ' :: (argsText (b :: as) ++ ')' :: rest)) := ⟨_, .inl rfl⟩
    cases h with
    | more ha hr has =>
      have hq := quoteFree_of_argAt hend ha
      -- The first argument is read back whole, so the reader goes on where the next one starts.
      obtain ⟨-, rfl⟩ := ha.unique (argAt_render (hs a (by simp)) hq hend)
      obtain rfl := (List.cons.inj (hr.symm.trans hend.trimStart)).2
      have htail := ih (fun a h => hs a (by simp_all)) (argsAt_space.1 has)
      exact List.forall_mem_cons.2 ⟨hq, htail⟩

theorem count_trimStart {c : Char} (hc : isBlank c = false) (s : List Char) :
    (trimStart s).count c = s.count c := by
  induction s with
  | nil => rfl
  | cons d s ih =>
    by_cases hd : isBlank d
    · have hdc : d ≠ c := by
        rintro rfl
        simp [hc] at hd
      simpa [Text.trimStart, hd, List.count_cons, hdc] using ih
    · simp [Text.trimStart, hd]

/-- Whatever an argument is read from, its own text has no more parentheses than that. -/
theorem ArgAt.count_le {s rest : List Char} {a : Arg} (h : ArgAt s a rest) :
    a.render.toList.count '(' + rest.count '(' ≤ s.count '(' := by
  have hatom : ∀ name : List Char,
      (Arg.render (.atom (String.ofList name))).toList.count '(' = name.count '(' := by
    intro name
    simp only [Arg.render, String.toList_ofList]
    split <;> simp
  cases h with
  | quoted =>
    rw [hatom]
    simp [count_escape]
  | var => simp [Arg.render]
  | word =>
    rw [hatom, count_trimStart (by decide)]
    simp

theorem ArgsAt.count_le {s rest : List Char} {as : List Arg} (h : ArgsAt s as rest) :
    (argsText as).count '(' ≤ s.count '(' := by
  induction h with
  | @last s r rest a ha hr =>
    have := ha.count_le
    rw [count_trimStart (by decide)] at this
    simp only [argsText]
    omega
  | @more s r r' rest a as ha hr has ih =>
    have hle := ha.count_le
    have hr' : r.count '(' = r'.count '(' := by
      rw [← count_trimStart (by decide), hr]
      simp
    rw [count_trimStart (by decide)] at hle
    cases has <;> simp [argsText] at ih ⊢ <;> omega

/-- A printed functor is never read as a quoted atom. The reader would take at least `f` and two
quotes off the text, so what it leaves lies inside the printed arguments; but it would need all the
parentheses of these and one more. -/
theorem not_reads_quoted {f r r' rest : List Char} {as : List Arg}
    (h : trimStart (f ++ '(' :: (argsText as ++ [')'])) = '\'' :: (escape f ++ '\'' :: r))
    (hr : trimStart r = '(' :: r') (has : ArgsAt r' as rest) : False := by
  have hlen : r.length ≤ (argsText as ++ [')']).length := by
    have hle := length_trimStart_le (f ++ '(' :: (argsText as ++ [')']))
    have := length_le_escape f
    rw [h] at hle
    simp only [List.length_cons, List.length_append, List.length_nil] at hle ⊢
    omega
  have hsuffix : r <:+ argsText as ++ [')'] := by
    have hr : r <:+ '\'' :: (escape f ++ '\'' :: r) := ⟨'\'' :: (escape f ++ ['\'']), by simp⟩
    have htext : r <:+ f ++ '(' :: (argsText as ++ [')']) :=
      (h ▸ hr).trans (List.dropWhile_suffix isBlank)
    exact List.suffix_of_suffix_length_le htext ⟨f ++ ['('], by simp⟩ hlen
  have hcount := hsuffix.sublist.count_le '('
  have hargs := has.count_le
  rw [← count_trimStart (by decide), hr] at hcount
  have hclose : ([')'] : List Char).count '(' = 0 := rfl
  rw [List.count_cons_self, List.count_append, hclose] at hcount
  omega

theorem Reads.spelled {s : List Char} {t : Term} (h : Reads s t) : ∀ a ∈ t.args, Spelled a := by
  cases h with
  | bare => simp
  | applied _ _ has => exact has.spelled

theorem FunctorAt.spelling {s r : List Char} {f : String} (h : FunctorAt s f r) :
    IsWord isAsciiLower f.toList ∨ s = '\'' :: (escape f.toList ++ '\'' :: r) := by
  cases h with
  | word hn => exact .inl (by simpa using hn)
  | quoted => exact .inr (by simp)

theorem isWord_of_reads_render {t : Term} (h : Reads t.render.toList t) :
    IsWord isAsciiLower t.functor.toList := by
  obtain ⟨f, as⟩ := t
  cases as with
  | nil =>
    have hbare : ∀ r, FunctorAt (trimStart f.toList) f r → IsWord isAsciiLower f.toList := by
      intro r hf
      refine hf.spelling.resolve_right fun hquote => ?_
      have hle := length_trimStart_le f.toList
      have := length_le_escape f.toList
      simp only [hquote, List.length_cons, List.length_append] at hle
      omega
    cases h with
    | bare hf => exact hbare _ hf
    | applied hf => exact hbare _ hf
  | cons a as =>
    rw [toList_render] at h
    cases h with
    | applied hf hp has =>
      exact hf.spelling.resolve_right fun hquote => not_reads_quoted hquote hp has

theorem quoteFree_of_reads_render {t : Term} (hs : ∀ a ∈ t.args, Spelled a)
    (h : Reads t.render.toList t) : ∀ a ∈ t.args, QuoteFree a := by
  have hword := isWord_of_reads_render h
  obtain ⟨f, as⟩ := t
  cases as with
  | nil => simp
  | cons a as =>
    rw [toList_render] at h
    cases h with
    | applied hf hp has =>
      -- The functor is read back whole, so the reader enters the printed arguments.
      obtain ⟨-, rfl⟩ := hf.unique (functorAt_word hword (endsWord_paren _))
      obtain rfl := (List.cons.inj hp).2
      exact quoteFree_of_argsAt hs has

/-- A term that was read is read from its own text again exactly when it is re-enterable. -/
theorem parse_render_iff {src : String} {t : Term} (h : parse src = .ok t) :
    parse t.render = .ok t ↔ t.Reenterable := by
  have hs := (parse_iff.1 h).spelled
  rw [parse_iff]
  constructor
  · intro hr
    exact ⟨isWord_of_reads_render hr, quoteFree_of_reads_render hs hr⟩
  · intro ht
    exact reads_render ht hs

theorem parse_render_says :
    parse "says( 'Bob' ,X_1, 007)" = .ok ⟨"says", [.atom "Bob", .var "X_1", .atom "007"]⟩ ∧
      parse "says('Bob', X_1, 007)" = .ok ⟨"says", [.atom "Bob", .var "X_1", .atom "007"]⟩ := by
  have h : parse "says( 'Bob' ,X_1, 007)" =
      .ok ⟨"says", [.atom "Bob", .var "X_1", .atom "007"]⟩ := by cbv
  have hword : IsWord isAsciiLower "says".toList :=
    ⟨'s', ['a', 'y', 's'], rfl, by decide, List.all_eq_true.1 rfl⟩
  refine ⟨h, (parse_render_iff h).2 ⟨hword, ?_⟩⟩
  simp [QuoteFree]

/-- A functor loses its quotes in print, and an atom the doubling of a quote inside it. -/
theorem quotes_lost_in_print :
    parse "'Foo'(a)" = .ok ⟨"Foo", [.atom "a"]⟩ ∧
      parse (Term.mk "Foo" [.atom "a"]).render = .error (.unexpected 'F') ∧
      parse "says('it''s')" = .ok ⟨"says", [.atom "it's"]⟩ ∧
      parse (Term.mk "says" [.atom "it's"]).render = .error (.expected .separator) := by
  refine ⟨?_, ?_, ?_, ?_⟩ <;> cbv

/-- A functor in print that is a word is read as that functor, whatever becomes of the arguments. -/
theorem functor_of_reads_render {t t' : Term} (hf : IsWord isAsciiLower t.functor.toList)
    (h : Reads t.render.toList t') : t'.functor = t.functor := by
  obtain ⟨f, as⟩ := t
  obtain ⟨rest, hrest, htext⟩ : ∃ rest, EndsWord rest ∧
      (Term.mk f as).render.toList = f.toList ++ rest := by
    cases as with
    | nil => exact ⟨[], by simp [EndsWord], (List.append_nil _).symm⟩
    | cons a as => exact ⟨_, endsWord_paren _, toList_render f a as⟩
  have hread := functorAt_word hf hrest
  rw [htext] at h
  cases h with
  | bare hfunctor => exact (hfunctor.unique hread).1
  | applied hfunctor => exact (hfunctor.unique hread).1

/-- The text of a term that was read gives the term back when its functor is a word and no atom of
it holds a quote. The text of any other is refused, or is that of another term; where the functor is
a word, it is another only in its arguments. -/
theorem render_survives_iff {src : String} {t : Term} (h : parse src = .ok t) :
    (parse t.render = .ok t ↔ IsWord isAsciiLower t.functor.toList ∧
      ∀ name, .atom name ∈ t.args → '\'' ∉ name.toList) ∧
    (¬ (IsWord isAsciiLower t.functor.toList ∧
        ∀ name, .atom name ∈ t.args → '\'' ∉ name.toList) →
      (∃ e, parse t.render = .error e) ∨ ∃ t', parse t.render = .ok t' ∧ t' ≠ t ∧
        (IsWord isAsciiLower t.functor.toList → t'.functor = t.functor ∧ t'.args ≠ t.args)) := by
  have hspelled := (parse_iff.1 h).spelled
  have hiff : parse t.render = .ok t ↔ IsWord isAsciiLower t.functor.toList ∧
      ∀ name, .atom name ∈ t.args → '\'' ∉ name.toList := by
    rw [parse_iff]
    refine ⟨fun hread => ?_, fun ⟨hfunctor, hatoms⟩ => ?_⟩
    · have hfree := quoteFree_of_reads_render hspelled hread
      exact ⟨isWord_of_reads_render hread, fun name hname => hfree _ hname⟩
    · refine reads_render ⟨hfunctor, fun a ha => ?_⟩ hspelled
      cases a with
      | var => trivial
      | atom name => exact hatoms name ha
  refine ⟨hiff, fun hlost => ?_⟩
  cases hread : parse t.render with
  | error e => exact .inl ⟨e, rfl⟩
  | ok t' =>
    have hne : t' ≠ t := fun heq => hlost (hiff.1 (by rw [hread, heq]))
    refine .inr ⟨t', rfl, hne, fun hword => ?_⟩
    have hfunctor := functor_of_reads_render hword (parse_iff.1 hread)
    refine ⟨hfunctor, fun hargs => hne ?_⟩
    cases t
    cases t'
    cases hfunctor
    cases hargs
    rfl

/-- Quotes inside an atom, left as they are in print, take it apart into two. -/
theorem split_in_print : parse "p('a'', ''b')" = .ok ⟨"p", [.atom "a', 'b"]⟩ ∧
    ∃ t', parse "p('a', 'b')" = .ok t' ∧ t' ≠ ⟨"p", [.atom "a', 'b"]⟩ ∧
      t'.functor = "p" ∧ t'.args ≠ [.atom "a', 'b"] := by
  have h : parse "p('a'', ''b')" = .ok ⟨"p", [.atom "a', 'b"]⟩ := by cbv
  have hword : IsWord isAsciiLower "p".toList := ⟨'p', [], rfl, by decide, by simp⟩
  have hlost : ¬ (IsWord isAsciiLower "p".toList ∧
      ∀ name, .atom name ∈ [Arg.atom "a', 'b"] → '\'' ∉ name.toList) := fun hkept =>
    hkept.2 "a', 'b" List.mem_cons_self (by decide)
  have hread : parse "p('a', 'b')" = .ok ⟨"p", [.atom "a", .atom "b"]⟩ := by cbv
  rcases (render_survives_iff h).2 hlost with ⟨e, he⟩ | ⟨t', ht', hne, hrest⟩
  · cases he.symm.trans hread
  · exact ⟨h, t', ht', hne, hrest hword⟩

end LogicConsole.Term
