import Mathlib.Data.List.DropRight
import Mathlib.Data.List.TakeWhile
import LogicConsole.Fault
import LogicConsole.Term.Parser
/-!
What each reader accepts. A reader is characterised by the text it takes off its input and by what
must not follow that text: a word ends where no word character follows, a quoted atom where no
further quote does.
-/
namespace LogicConsole.Term

open Text

theorem map_eq_ok {α β ε : Type} {r : Except ε α} {f : α → β} {b : β} :
    r.map f = .ok b ↔ ∃ a, r = .ok a ∧ f a = b := by
  cases r <;> simp [Except.map]

/-- A name as it stands between quotes, every quote in it doubled. -/
def escape (name : List Char) : List Char :=
  name.flatMap fun c => if c = '\'' then ['\'', '\''] else [c]

@[simp] theorem escape_nil : escape [] = [] := rfl

@[simp] theorem escape_quote (name : List Char) :
    escape ('\'' :: name) = '\'' :: '\'' :: escape name := rfl

theorem escape_cons {c : Char} (hc : c ≠ '\'') (name : List Char) :
    escape (c :: name) = c :: escape name := by
  simp [escape, hc]

theorem escape_of_notMem {name : List Char} (h : '\'' ∉ name) : escape name = name := by
  induction name with
  | nil => rfl
  | cons c name ih =>
    simp only [List.mem_cons, not_or] at h
    rw [escape_cons (Ne.symm h.1), ih h.2]

theorem length_le_escape (name : List Char) : name.length ≤ (escape name).length := by
  induction name with
  | nil => simp
  | cons c name ih =>
    by_cases hc : c = '\''
    · subst hc
      simp only [escape_quote, List.length_cons]
      omega
    · simpa only [escape_cons hc, List.length_cons, Nat.add_le_add_iff_right] using ih

theorem count_escape {d : Char} (hd : d ≠ '\'') (name : List Char) :
    (escape name).count d = name.count d := by
  induction name with
  | nil => rfl
  | cons c name ih =>
    by_cases hc : c = '\''
    · subst hc
      simp [Ne.symm hd, ih]
    · simp [escape_cons hc, List.count_cons, ih]

theorem readQuoted_escape {rest : List Char} (hr : rest.head? ≠ some '\'') (name : List Char) :
    readQuoted (escape name ++ '\'' :: rest) = .ok (name, rest) := by
  induction name with
  | nil =>
    rw [escape_nil, List.nil_append, readQuoted]
    rintro tail rfl
    simp at hr
  | cons c name ih =>
    by_cases hc : c = '\''
    · subst hc
      simp [readQuoted, ih, Except.map]
    · rw [escape_cons hc, List.cons_append, readQuoted]
      · simp [ih, Except.map]
      · exact fun _ h _ => hc h
      · exact hc

/-- The reader of a quoted atom undoes `escape` and stops at the first quote that stands alone. -/
theorem readQuoted_iff {s name rest : List Char} :
    readQuoted s = .ok (name, rest) ↔
      s = escape name ++ '\'' :: rest ∧ rest.head? ≠ some '\'' := by
  constructor
  · intro h
    fun_induction readQuoted s generalizing name with
    | case1 => simp at h
    | case2 s ih =>
      obtain ⟨⟨tail, rest'⟩, hs, heq⟩ := map_eq_ok.1 h
      obtain ⟨rfl, rfl⟩ := Prod.mk.inj heq
      obtain ⟨rfl, hr⟩ := ih hs
      exact ⟨rfl, hr⟩
    | case3 s hs =>
      obtain ⟨rfl, rfl⟩ := Prod.mk.inj (Except.ok.inj h)
      refine ⟨rfl, fun hq => ?_⟩
      obtain ⟨tail, rfl⟩ := List.head?_eq_some_iff.1 hq
      exact hs tail rfl
    | case4 c s _ hc ih =>
      obtain ⟨⟨tail, rest'⟩, hs, heq⟩ := map_eq_ok.1 h
      obtain ⟨rfl, rfl⟩ := Prod.mk.inj heq
      obtain ⟨rfl, hr⟩ := ih hs
      exact ⟨by rw [escape_cons hc, List.cons_append], hr⟩
  · rintro ⟨rfl, hr⟩
    exact readQuoted_escape hr name

/-- No word goes on into `s`. -/
def EndsWord (s : List Char) : Prop := ∀ c ∈ s.head?, isWordChar c = false

theorem endsWord_cons {c : Char} {s : List Char} (hc : isWordChar c = false) :
    EndsWord (c :: s) := by
  simpa [EndsWord] using hc

/-- A character of the class `start`, then word characters. -/
def IsWord (start : Char → Bool) (name : List Char) : Prop :=
  ∃ c rest, name = c :: rest ∧ start c ∧ ∀ d ∈ rest, isWordChar d

theorem IsWord.all {start : Char → Bool} (hstart : ∀ c, start c → isWordChar c)
    {name : List Char} (h : IsWord start name) : ∀ c ∈ name, isWordChar c := by
  obtain ⟨c, rest, rfl, hc, hrest⟩ := h
  simpa [hstart c hc] using hrest

theorem readWord_append {name rest : List Char} (hn : ∀ c ∈ name, isWordChar c)
    (hr : EndsWord rest) : readWord (name ++ rest) = (String.ofList name, rest) := by
  simp only [readWord, List.takeWhile_append_of_pos hn, List.dropWhile_append_of_pos hn]
  cases rest with
  | nil => simp
  | cons c rest =>
    have hc : isWordChar c = false := hr c (by simp)
    simp [hc]

/-- Where a word starts, the reader of words splits its input into that word and a rest. -/
theorem readWord_split {start : Char → Bool} (hstart : ∀ c, start c → isWordChar c) {c : Char}
    (hc : start c) (s : List Char) :
    ∃ name rest, readWord (c :: s) = (String.ofList name, rest) ∧ c :: s = name ++ rest ∧
      IsWord start name ∧ EndsWord rest := by
  refine ⟨c :: s.takeWhile isWordChar, s.dropWhile isWordChar, ?_, ?_, ?_, fun d hd => ?_⟩
  · simp [readWord, hstart c hc]
  · rw [List.cons_append, List.takeWhile_append_dropWhile]
  · exact ⟨c, _, rfl, hc, fun d hd => List.mem_takeWhile_imp hd⟩
  · have := List.head?_dropWhile_not isWordChar s
    rw [Option.mem_def.1 hd] at this
    simpa using this

def opensVar (c : Char) : Bool := isAsciiUpper c || c == '_'

def opensAtom (c : Char) : Bool := isAsciiLower c || isAsciiDigit c

theorem isWordChar_of_isAsciiLower {c : Char} (h : isAsciiLower c) : isWordChar c :=
  isWordChar_of_starter (by simp [h])

theorem isWordChar_of_opensVar {c : Char} (h : opensVar c) : isWordChar c :=
  isWordChar_of_starter (by simp_all [opensVar])

theorem isWordChar_of_opensAtom {c : Char} (h : opensAtom c) : isWordChar c :=
  isWordChar_of_starter (by rcases Bool.or_eq_true_iff.1 h with h | h <;> simp [h])

theorem ne_quote_of_isWordChar {c : Char} (h : isWordChar c) : c ≠ '\'' := by
  rintro rfl
  exact absurd h (by decide)

theorem opensAtom_iff {c : Char} :
    opensAtom c ↔ (97 ≤ c.toNat ∧ c.toNat ≤ 122) ∨ (48 ≤ c.toNat ∧ c.toNat ≤ 57) := by
  simp only [opensAtom, isAsciiLower, isAsciiDigit, Bool.or_eq_true, Bool.and_eq_true,
    decide_eq_true_eq]
  rfl

theorem opensVar_iff {c : Char} :
    opensVar c ↔ (65 ≤ c.toNat ∧ c.toNat ≤ 90) ∨ c.toNat = 95 := by
  have hu : c = '_' ↔ c.toNat = 95 := ⟨fun h => h ▸ rfl, fun h => Char.toNat_inj.1 h⟩
  simp only [opensVar, isAsciiUpper, Bool.or_eq_true, Bool.and_eq_true, decide_eq_true_eq,
    beq_iff_eq, hu]
  rfl

theorem opensVar_of_opensAtom {c : Char} (h : opensAtom c) : opensVar c = false := by
  rw [← Bool.not_eq_true, opensVar_iff]
  have := opensAtom_iff.1 h
  omega

theorem isBlank_of_opens {c : Char} (h : opensAtom c ∨ opensVar c) : isBlank c = false := by
  rw [opensAtom_iff, opensVar_iff] at h
  simp only [isBlank, Bool.or_eq_false_iff, Bool.and_eq_false_iff, decide_eq_false_iff_not,
    beq_eq_false_iff_ne]
  omega

theorem IsWord.trimStart {start : Char → Bool} (hstart : ∀ c, start c → isBlank c = false)
    {name : List Char} (h : IsWord start name) (rest : List Char) :
    Text.trimStart (name ++ rest) = name ++ rest := by
  obtain ⟨c, tail, rfl, hc, -⟩ := h
  simp [Text.trimStart, hstart c hc]

/-- A functor at the front of the input, and what it leaves. -/
inductive FunctorAt : List Char → String → List Char → Prop
  | word {name rest : List Char} (hn : IsWord isAsciiLower name) (hr : EndsWord rest) :
    FunctorAt (name ++ rest) (String.ofList name) rest
  | quoted {name rest : List Char} (hr : rest.head? ≠ some '\'') :
    FunctorAt ('\'' :: (escape name ++ '\'' :: rest)) (String.ofList name) rest

theorem readFunctor_iff {s rest : List Char} {f : String} :
    readFunctor s = .ok (f, rest) ↔ FunctorAt (trimStart s) f rest := by
  constructor
  · intro h
    unfold readFunctor at h
    split at h
    · simp at h
    · rename_i r hs
      obtain ⟨⟨name, rest'⟩, hq, heq⟩ := map_eq_ok.1 h
      obtain ⟨rfl, rfl⟩ := Prod.mk.inj heq
      obtain ⟨rfl, hr⟩ := readQuoted_iff.1 hq
      rw [hs]
      exact .quoted hr
    · rename_i c r _ hs
      split at h
      · rename_i hc
        obtain ⟨name, rest', hw, hsplit, hn, hr⟩ :=
          readWord_split (fun _ => isWordChar_of_isAsciiLower) hc r
        rw [hw] at h
        obtain ⟨rfl, rfl⟩ := Prod.mk.inj (Except.ok.inj h)
        rw [hs, hsplit]
        exact .word hn hr
      · simp at h
  · generalize hs : trimStart s = text
    intro h
    cases h with
    | word hn hr =>
      have hw := readWord_append (hn.all fun _ => isWordChar_of_isAsciiLower) hr
      obtain ⟨c, tail, rfl, hc, -⟩ := hn
      have hquote := ne_quote_of_isWordChar (isWordChar_of_isAsciiLower hc)
      unfold readFunctor
      rw [List.cons_append] at hs hw
      simp [hs, hc, hw]
    | quoted hr =>
      unfold readFunctor
      simp [hs, readQuoted_escape hr, Except.map]

theorem FunctorAt.unique {s r r' : List Char} {f f' : String} (h : FunctorAt (trimStart s) f r)
    (h' : FunctorAt (trimStart s) f' r') : f = f' ∧ r = r' :=
  Prod.mk.inj (Except.ok.inj ((readFunctor_iff.2 h).symm.trans (readFunctor_iff.2 h')))

/-- An argument at the front of the input. After an unquoted atom the blanks are gone, for the
reader has looked past them for an argument list. -/
inductive ArgAt : List Char → Arg → List Char → Prop
  | quoted {name rest : List Char} (hr : rest.head? ≠ some '\'') :
    ArgAt ('\'' :: (escape name ++ '\'' :: rest)) (.atom (String.ofList name)) rest
  | var {name rest : List Char} (hn : IsWord opensVar name) (hr : EndsWord rest) :
    ArgAt (name ++ rest) (.var (String.ofList name)) rest
  | word {name rest : List Char} (hn : IsWord opensAtom name) (hr : EndsWord rest)
    (hp : (trimStart rest).head? ≠ some '(') :
    ArgAt (name ++ rest) (.atom (String.ofList name)) (trimStart rest)

theorem readArg_iff {s rest : List Char} {a : Arg} :
    readArg s = .ok (a, rest) ↔ ArgAt (trimStart s) a rest := by
  constructor
  · intro h
    unfold readArg at h
    split at h
    · simp at h
    · rename_i r hs
      obtain ⟨⟨name, rest'⟩, hq, heq⟩ := map_eq_ok.1 h
      obtain ⟨rfl, rfl⟩ := Prod.mk.inj heq
      obtain ⟨rfl, hr⟩ := readQuoted_iff.1 hq
      rw [hs]
      exact .quoted hr
    · rename_i c r _ hs
      split at h
      · rename_i hc
        obtain ⟨name, rest', hw, hsplit, hn, hr⟩ :=
          readWord_split (fun _ => isWordChar_of_opensVar) hc r
        rw [hw] at h
        obtain ⟨rfl, rfl⟩ := Prod.mk.inj (Except.ok.inj h)
        rw [hs, hsplit]
        exact .var hn hr
      · split at h
        · rename_i hc
          obtain ⟨name, rest', hw, hsplit, hn, hr⟩ :=
            readWord_split (fun _ => isWordChar_of_opensAtom) hc r
          rw [hw] at h
          dsimp only at h
          split at h
          · simp at h
          · rename_i hp
            obtain ⟨rfl, rfl⟩ := Prod.mk.inj (Except.ok.inj h)
            rw [hs, hsplit]
            refine .word hn hr fun hq => ?_
            obtain ⟨tail, ht⟩ := List.head?_eq_some_iff.1 hq
            exact hp tail ht
        · simp at h
  · generalize hs : trimStart s = text
    intro h
    cases h with
    | quoted hr =>
      unfold readArg
      simp [hs, readQuoted_escape hr, Except.map]
    | var hn hr =>
      have hw := readWord_append (hn.all fun _ => isWordChar_of_opensVar) hr
      obtain ⟨c, tail, rfl, hc, -⟩ := hn
      unfold readArg
      rw [List.cons_append] at hs hw
      have hquote := ne_quote_of_isWordChar (isWordChar_of_opensVar hc)
      rw [opensVar] at hc
      simp [hs, hc, hw]
    | word hn hr hp =>
      have hw := readWord_append (hn.all fun _ => isWordChar_of_opensAtom) hr
      obtain ⟨c, tail, rfl, hc, -⟩ := hn
      unfold readArg
      rw [List.cons_append] at hs hw
      have hquote := ne_quote_of_isWordChar (isWordChar_of_opensAtom hc)
      have hvar := opensVar_of_opensAtom hc
      rw [opensAtom] at hc
      rw [opensVar] at hvar
      simp only [hs, hvar, hc, hw, Bool.false_eq_true, if_true, if_false]
      split
      · rename_i ht
        simp [ht] at hp
      · rfl

theorem ArgAt.unique {s r r' : List Char} {a a' : Arg} (h : ArgAt (trimStart s) a r)
    (h' : ArgAt (trimStart s) a' r') : a = a' ∧ r = r' :=
  Prod.mk.inj (Except.ok.inj ((readArg_iff.2 h).symm.trans (readArg_iff.2 h')))

/-- Arguments up to the closing parenthesis, with blanks around each of them. -/
inductive ArgsAt : List Char → List Arg → List Char → Prop
  | last {s r rest : List Char} {a : Arg} (ha : ArgAt (trimStart s) a r)
    (hr : trimStart r = ')' :: rest) : ArgsAt s [a] rest
  | more {s r r' rest : List Char} {a : Arg} {as : List Arg} (ha : ArgAt (trimStart s) a r)
    (hr : trimStart r = ',' :: r') (has : ArgsAt r' as rest) : ArgsAt s (a :: as) rest

theorem readArgs_iff {s rest : List Char} {as : List Arg} :
    readArgs s = .ok (as, rest) ↔ ArgsAt s as rest := by
  constructor
  · intro h
    fun_induction readArgs s generalizing as with
    | case1 => simp at h
    | case2 => simp at h
    | case3 s a r hs r' hr _ ih =>
      obtain ⟨⟨as', rest'⟩, htail, heq⟩ := map_eq_ok.1 h
      obtain ⟨rfl, rfl⟩ := Prod.mk.inj heq
      exact .more (readArg_iff.1 hs) hr (ih htail)
    | case4 s a r hs r' hr =>
      obtain ⟨rfl, rfl⟩ := Prod.mk.inj (Except.ok.inj h)
      exact .last (readArg_iff.1 hs) hr
    | case5 => simp at h
  · intro h
    induction h with
    | last ha hr =>
      have hs := readArg_iff.2 ha
      rw [readArgs]
      split
      · simp_all
      · rename_i heq
        obtain ⟨rfl, rfl⟩ := Prod.mk.inj (Except.ok.inj (hs.symm.trans heq))
        split <;> simp_all
    | more ha hr _ ih =>
      have hs := readArg_iff.2 ha
      rw [readArgs]
      split
      · simp_all
      · rename_i heq
        obtain ⟨rfl, rfl⟩ := Prod.mk.inj (Except.ok.inj (hs.symm.trans heq))
        split <;> simp_all [Except.map]

/-- A whole text read as a term. -/
inductive Reads : List Char → Term → Prop
  | bare {s r : List Char} {f : String} (hf : FunctorAt (trimStart s) f r)
    (hr : trimStart r = []) : Reads s ⟨f, []⟩
  | applied {s r r' rest : List Char} {f : String} {as : List Arg}
    (hf : FunctorAt (trimStart s) f r) (hp : trimStart r = '(' :: r') (has : ArgsAt r' as rest)
    (hr : trimStart rest = []) : Reads s ⟨f, as⟩

@[simp] theorem trimStart_nil : trimStart [] = [] := rfl

@[simp] theorem trimStart_trimStart (s : List Char) : trimStart (trimStart s) = trimStart s :=
  List.dropWhile_idempotent _ _

theorem parse_iff {src : String} {t : Term} : parse src = .ok t ↔ Reads src.toList t := by
  constructor
  · intro h
    obtain ⟨⟨t', rest⟩, ht, hend⟩ := bind_eq_ok.1 h
    obtain ⟨⟨f, r⟩, hf, hargs⟩ := bind_eq_ok.1 ht
    have hrest : trimStart rest = [] ∧ t' = t := by
      dsimp only at hend
      split at hend
      · exact ⟨‹_›, Except.ok.inj hend⟩
      · simp [throw, throwThe, MonadExceptOf.throw] at hend
    obtain ⟨hrest, rfl⟩ := hrest
    rw [readFunctor_iff] at hf
    dsimp only at hargs
    split at hargs
    · rename_i r' hp
      obtain ⟨⟨as, rest'⟩, has, heq⟩ := bind_eq_ok.1 hargs
      obtain ⟨rfl, rfl⟩ := Prod.mk.inj (Except.ok.inj heq)
      exact .applied hf hp (readArgs_iff.1 has) hrest
    · obtain ⟨rfl, rfl⟩ := Prod.mk.inj (Except.ok.inj hargs)
      exact .bare hf (by simpa using hrest)
  · intro h
    unfold parse parseChars readTerm
    cases h with
    | bare hf hr =>
      rw [readFunctor_iff.2 hf]
      simp [hr, Bind.bind, Except.bind, Pure.pure, Except.pure]
    | applied hf hp has hr =>
      rw [readFunctor_iff.2 hf]
      simp [hp, readArgs_iff.2 has, hr, Bind.bind, Except.bind, Pure.pure, Except.pure]

end LogicConsole.Term
