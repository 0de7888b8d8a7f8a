import LogicConsole.Term
import LogicConsole.Text.Alphanumeric
import LogicConsole.Text.Blank
/-!
Reading a term. A term is a functor, a word or a quoted atom, and optionally an argument list in
parentheses; blanks may stand around every token. Each reader returns the rest of its input, and
a reader of one argument leaves a shorter rest, which bounds the argument list.
-/
namespace LogicConsole

open Text

/-- What the grammar requires where the input has something else. -/
inductive Expectation
  | separator
  | simpleArgument
  | groundFact
  deriving DecidableEq, Repr

def Expectation.text : Expectation → String
  | .separator => "',' or ')'"
  | .simpleArgument => "a constant or variable argument"
  | .groundFact => "a fact without variables"

inductive SyntaxError
  | unexpectedEnd
  | unexpected (c : Char)
  | expected (what : Expectation)
  | unterminatedQuote
  deriving DecidableEq, Repr

def SyntaxError.message : SyntaxError → String
  | .unexpectedEnd => "unexpected end of input"
  | .unexpected c => "unexpected character '" ++ c.toString ++ "'"
  | .expected what => "expected " ++ what.text
  | .unterminatedQuote => "unterminated quoted atom"

namespace Term

/-- The word at the front of the input, and the rest. -/
def readWord (s : List Char) : String × List Char :=
  (String.ofList (s.takeWhile isWordChar), s.dropWhile isWordChar)

/-- A quoted atom after its opening quote: a doubled quote stands for a quote. -/
def readQuoted : List Char → Except SyntaxError (List Char × List Char)
  | [] => .error .unterminatedQuote
  | '\'' :: '\'' :: rest => (readQuoted rest).map fun (name, rest) => ('\'' :: name, rest)
  | '\'' :: rest => .ok ([], rest)
  | c :: rest => (readQuoted rest).map fun (name, rest) => (c :: name, rest)

def readFunctor (s : List Char) : Except SyntaxError (String × List Char) :=
  match trimStart s with
  | [] => .error .unexpectedEnd
  | '\'' :: rest => (readQuoted rest).map fun (name, rest) => (String.ofList name, rest)
  | c :: rest => if isAsciiLower c then .ok (readWord (c :: rest)) else .error (.unexpected c)

/-- An unquoted atom must not be followed by an argument list of its own. -/
def readArg (s : List Char) : Except SyntaxError (Arg × List Char) :=
  match trimStart s with
  | [] => .error .unexpectedEnd
  | '\'' :: rest => (readQuoted rest).map fun (name, rest) => (.atom (String.ofList name), rest)
  | c :: rest =>
    if isAsciiUpper c || c == '_' then
      let (name, rest) := readWord (c :: rest)
      .ok (.var name, rest)
    else if isAsciiLower c || isAsciiDigit c then
      let (name, rest) := readWord (c :: rest)
      match trimStart rest with
      | '(' :: _ => .error (.expected .simpleArgument)
      | rest => .ok (.atom name, rest)
    else .error (.unexpected c)

theorem length_trimStart_le (s : List Char) : (trimStart s).length ≤ s.length :=
  (List.dropWhile_sublist _).length_le

theorem length_readQuoted {s name rest : List Char} (h : readQuoted s = .ok (name, rest)) :
    rest.length < s.length := by
  fun_induction readQuoted s generalizing name with
  | case1 => simp at h
  | case2 s ih =>
    cases hs : readQuoted s with
    | error e => simp [hs, Except.map] at h
    | ok r =>
      obtain ⟨n, r⟩ := r
      simp only [hs, Except.map, Except.ok.injEq, Prod.mk.injEq] at h
      obtain ⟨-, rfl⟩ := h
      have := ih hs
      simp only [List.length_cons]
      omega
  | case3 s =>
    simp only [Except.ok.injEq, Prod.mk.injEq] at h
    simp [h.2]
  | case4 c s _ _ ih =>
    cases hs : readQuoted s with
    | error e => simp [hs, Except.map] at h
    | ok r =>
      obtain ⟨n, r⟩ := r
      simp only [hs, Except.map, Except.ok.injEq, Prod.mk.injEq] at h
      obtain ⟨-, rfl⟩ := h
      have := ih hs
      simp only [List.length_cons]
      omega

theorem length_readWord {c : Char} (hc : isWordChar c) (s : List Char) :
    (readWord (c :: s)).2.length < (c :: s).length := by
  simp only [readWord, List.dropWhile_cons, hc, if_true, List.length_cons]
  have := (List.dropWhile_sublist isWordChar (l := s)).length_le
  omega

theorem isWordChar_of_starter {c : Char}
    (h : isAsciiUpper c || c == '_' || isAsciiLower c || isAsciiDigit c) : isWordChar c := by
  simp only [isWordChar, isAlphanumeric, Bool.or_eq_true, beq_iff_eq] at h ⊢
  rcases h with ((h | h) | h) | h
  · left
    have : c.toNat < 0x80 := by
      simp only [isAsciiUpper, Bool.and_eq_true, decide_eq_true_eq] at h
      have h2 : c.toNat ≤ 'Z'.toNat := h.2
      have : 'Z'.toNat = 90 := rfl
      omega
    simp [this, h]
  · exact .inr h
  · left
    have : c.toNat < 0x80 := by
      simp only [isAsciiLower, Bool.and_eq_true, decide_eq_true_eq] at h
      have h2 : c.toNat ≤ 'z'.toNat := h.2
      have : 'z'.toNat = 122 := rfl
      omega
    simp [this, h]
  · left
    have : c.toNat < 0x80 := by
      simp only [isAsciiDigit, Bool.and_eq_true, decide_eq_true_eq] at h
      have h2 : c.toNat ≤ '9'.toNat := h.2
      have : '9'.toNat = 57 := rfl
      omega
    simp [this, h]

theorem length_readArg {s rest : List Char} {a : Arg} (h : readArg s = .ok (a, rest)) :
    rest.length < s.length := by
  have hs := length_trimStart_le s
  unfold readArg at h
  split at h
  · simp at h
  · rename_i r heq
    rw [heq] at hs
    cases hq : readQuoted r with
    | error e => simp [hq, Except.map] at h
    | ok p =>
      obtain ⟨n, r'⟩ := p
      simp only [hq, Except.map, Except.ok.injEq, Prod.mk.injEq] at h
      have := length_readQuoted hq
      simp only [List.length_cons] at hs
      rw [← h.2]
      omega
  · rename_i c r _ heq
    rw [heq] at hs
    split at h
    · rename_i hc
      have hw := length_readWord (isWordChar_of_starter (c := c) (by simp_all)) r
      simp only [Except.ok.injEq, Prod.mk.injEq] at h
      rw [← h.2]
      omega
    · split at h
      · rename_i hc
        have hw := length_readWord (isWordChar_of_starter (c := c) (by simp_all)) r
        have ht := length_trimStart_le (readWord (c :: r)).2
        dsimp only at h
        split at h
        · simp at h
        · simp only [Except.ok.injEq, Prod.mk.injEq] at h
          rw [← h.2]
          omega
      · simp at h

/-- The arguments after the opening parenthesis, up to the closing one. -/
def readArgs (s : List Char) : Except SyntaxError (List Arg × List Char) :=
  match hs : readArg s with
  | .error e => .error e
  | .ok (a, rest) =>
    match hr : trimStart rest with
    | [] => .error .unexpectedEnd
    | ',' :: rest' =>
      have : rest'.length < s.length := by
        have h1 := length_readArg hs
        have h2 := length_trimStart_le rest
        rw [hr, List.length_cons] at h2
        omega
      (readArgs rest').map fun (as, rest) => (a :: as, rest)
    | ')' :: rest => .ok ([a], rest)
    | _ :: _ => .error (.expected .separator)
  termination_by s.length

def readTerm (s : List Char) : Except SyntaxError (Term × List Char) := do
  let (functor, rest) ← readFunctor s
  match trimStart rest with
  | '(' :: rest =>
    let (args, rest) ← readArgs rest
    return (⟨functor, args⟩, rest)
  | rest => return (⟨functor, []⟩, rest)

def parseChars (s : List Char) : Except SyntaxError Term := do
  let (t, rest) ← readTerm s
  match trimStart rest with
  | [] => return t
  | c :: _ => throw (.unexpected c)

/-- Read a whole text as one term; only blanks may follow it. -/
def parse (src : String) : Except SyntaxError Term := parseChars src.toList

end Term

end LogicConsole
