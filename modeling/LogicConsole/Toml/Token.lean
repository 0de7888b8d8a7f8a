import LogicConsole.Text.Alphanumeric
import LogicConsole.Text.Numeral
/-!
The small pieces of a TOML document: blanks, comments, line ends and strings. Every reader returns
what it read and the rest of its input, or `none` when the input does not start with such a piece.
-/
namespace LogicConsole.Toml

open Text

abbrev Reader (α : Type) := List Char → Option (α × List Char)

/-- Spaces and tabs; line feeds are no blanks here. -/
def isSpace (c : Char) : Bool := c == ' ' || c == '\t'

def skipSpace (s : List Char) : List Char := s.dropWhile isSpace

/-- The characters of comments and strings: control characters other than the tab are none. -/
def isTextChar (c : Char) : Bool := c == '\t' || (0x20 ≤ c.toNat && c.toNat != 0x7F)

def skipComment : List Char → List Char
  | '#' :: rest => rest.dropWhile isTextChar
  | s => s

/-- The rest after a line end, if one is next. -/
def afterNewline : List Char → Option (List Char)
  | '\n' :: rest => some rest
  | '\r' :: '\n' :: rest => some rest
  | _ => none

/-- The end of a line that holds nothing more: blanks, perhaps a comment, and a line end or the end
of the document. -/
def afterLine (s : List Char) : Option (List Char) :=
  match skipComment (skipSpace s) with
  | [] => some []
  | s => afterNewline s

theorem length_afterNewline {s rest : List Char} (h : afterNewline s = some rest) :
    rest.length < s.length := by
  unfold afterNewline at h
  split at h
  · obtain rfl := Option.some.inj h
    simp
  · obtain rfl := Option.some.inj h
    simp only [List.length_cons]
    omega
  · simp at h

theorem length_skipSpace (s : List Char) : (skipSpace s).length ≤ s.length :=
  (List.dropWhile_sublist _).length_le

theorem length_skipComment (s : List Char) : (skipComment s).length ≤ s.length := by
  unfold skipComment
  split
  · have := (List.dropWhile_sublist isTextChar (l := by assumption)).length_le
    simp only [List.length_cons]
    omega
  · exact Nat.le_refl _

/-- Blanks, line ends and comments, each comment ended by a line end. -/
def skipFiller (s : List Char) : List Char :=
  let rest := skipComment (skipSpace s)
  match h : afterNewline rest with
  | some next =>
    have : next.length < s.length := by
      have h1 := length_afterNewline h
      have h2 := length_skipComment (skipSpace s)
      have h3 := length_skipSpace s
      simp only [rest] at h1
      omega
    skipFiller next
  | none => skipSpace s
  termination_by s.length

/-! Strings -/

def isHexDigit (c : Char) : Bool :=
  isAsciiDigit c || ('a' ≤ c && c ≤ 'f') || ('A' ≤ c && c ≤ 'F')

def hexDigitValue (c : Char) : Nat :=
  if isAsciiDigit c then digitValue c
  else if 'a' ≤ c then c.toNat - 'a'.toNat + 10
  else c.toNat - 'A'.toNat + 10

/-- The character with the given hexadecimal number, if there is one. -/
def charOfHex (digits : List Char) : Option Char :=
  let n := valueOf 16 (digits.map hexDigitValue)
  if digits.all isHexDigit && n.isValidChar then some (Char.ofNat n) else none

/-- A character written with a backslash and a letter or sign. -/
def simpleEscape : Char → Option Char
  | 'b' => some '\x08'
  | 't' => some '\t'
  | 'n' => some '\n'
  | 'f' => some '\x0c'
  | 'r' => some '\r'
  | '"' => some '"'
  | '\\' => some '\\'
  | _ => none

/-- Put a character in front of what a reader read. -/
def push (c : Char) : Option (List Char × List Char) → Option (List Char × List Char)
  | some (text, rest) => some (c :: text, rest)
  | none => none

/-- A string in double quotes, after the opening quote. -/
def readBasic : Reader (List Char)
  | '"' :: rest => some ([], rest)
  | '\\' :: 'u' :: a :: b :: c :: d :: rest => do
    push (← charOfHex [a, b, c, d]) (readBasic rest)
  | '\\' :: 'U' :: a :: b :: c :: d :: e :: f :: g :: h :: rest => do
    push (← charOfHex [a, b, c, d, e, f, g, h]) (readBasic rest)
  | '\\' :: c :: rest => do push (← simpleEscape c) (readBasic rest)
  | c :: rest => if isTextChar c then push c (readBasic rest) else none
  | [] => none

/-- A string in single quotes, after the opening quote. -/
def readLiteral : Reader (List Char)
  | '\'' :: rest => some ([], rest)
  | c :: rest => if isTextChar c then push c (readLiteral rest) else none
  | [] => none

/-- Where a reader of a string of several lines stands: in its text, behind a backslash that has to
be followed by a line end, or in the blanks that such a backslash removes. -/
inductive Multiline
  | text
  | lineEnd
  | removed
  deriving DecidableEq

/-- A string in three double quotes, after the opening quotes and the line end behind them. The
closing quotes may follow one or two quotes of the string. -/
def readBasicLines : Multiline → Reader (List Char)
  | .lineEnd, '\n' :: rest => readBasicLines .removed rest
  | .lineEnd, '\r' :: '\n' :: rest => readBasicLines .removed rest
  | .lineEnd, c :: rest => if isSpace c then readBasicLines .lineEnd rest else none
  | .removed, '\n' :: rest => readBasicLines .removed rest
  | .removed, '\r' :: '\n' :: rest => readBasicLines .removed rest
  | .removed, ' ' :: rest => readBasicLines .removed rest
  | .removed, '\t' :: rest => readBasicLines .removed rest
  | _, '"' :: '"' :: '"' :: '"' :: '"' :: rest => some (['"', '"'], rest)
  | _, '"' :: '"' :: '"' :: '"' :: rest => some (['"'], rest)
  | _, '"' :: '"' :: '"' :: rest => some ([], rest)
  | _, '\\' :: 'u' :: a :: b :: c :: d :: rest => do
    push (← charOfHex [a, b, c, d]) (readBasicLines .text rest)
  | _, '\\' :: 'U' :: a :: b :: c :: d :: e :: f :: g :: h :: rest => do
    push (← charOfHex [a, b, c, d, e, f, g, h]) (readBasicLines .text rest)
  | _, '\\' :: '\n' :: rest => readBasicLines .removed rest
  | _, '\\' :: '\r' :: '\n' :: rest => readBasicLines .removed rest
  | _, '\\' :: c :: rest =>
    if isSpace c then readBasicLines .lineEnd rest
    else do push (← simpleEscape c) (readBasicLines .text rest)
  | _, '\n' :: rest => push '\n' (readBasicLines .text rest)
  | _, '\r' :: '\n' :: rest => push '\n' (readBasicLines .text rest)
  | _, c :: rest => if isTextChar c then push c (readBasicLines .text rest) else none
  | _, [] => none

/-- A string in three single quotes, after the opening quotes and the line end behind them. -/
def readLiteralLines : Reader (List Char)
  | '\'' :: '\'' :: '\'' :: '\'' :: '\'' :: rest => some (['\'', '\''], rest)
  | '\'' :: '\'' :: '\'' :: '\'' :: rest => some (['\''], rest)
  | '\'' :: '\'' :: '\'' :: rest => some ([], rest)
  | '\n' :: rest => push '\n' (readLiteralLines rest)
  | '\r' :: '\n' :: rest => push '\n' (readLiteralLines rest)
  | c :: rest => if isTextChar c then push c (readLiteralLines rest) else none
  | [] => none

def readString : Reader String
  | '"' :: '"' :: '"' :: rest => do
    let (text, rest) ← readBasicLines .text ((afterNewline rest).getD rest)
    return (String.ofList text, rest)
  | '\'' :: '\'' :: '\'' :: rest => do
    let (text, rest) ← readLiteralLines ((afterNewline rest).getD rest)
    return (String.ofList text, rest)
  | s => readQuoted s
where
  readQuoted : Reader String
    | '"' :: rest => do
      let (text, rest) ← readBasic rest
      return (String.ofList text, rest)
    | '\'' :: rest => do
      let (text, rest) ← readLiteral rest
      return (String.ofList text, rest)
    | _ => none

/-! Keys -/

def isBareKeyChar (c : Char) : Bool :=
  isAsciiLower c || isAsciiUpper c || isAsciiDigit c || c == '-' || c == '_'

/-- One name of a key: bare, or in quotes on one line. -/
def readKeyName (s : List Char) : Option (String × List Char) :=
  match s with
  | '"' :: _ | '\'' :: _ => readString.readQuoted s
  | _ =>
    let name := s.takeWhile isBareKeyChar
    if name.isEmpty then none else some (String.ofList name, s.dropWhile isBareKeyChar)

/-- Names separated by periods, with blanks around each. -/
def readNames : Nat → Reader (List String)
  | 0, _ => none
  | fuel + 1, s => do
    let (name, rest) ← readKeyName (skipSpace s)
    match skipSpace rest with
    | '.' :: rest =>
      let (names, rest) ← readNames fuel rest
      return (name :: names, rest)
    | rest => return ([name], rest)

/-- Nesting this deep, of names or of values, is refused. -/
def nestingLimit : Nat := 80

def readKey (s : List Char) : Option (List String × List Char) := do
  let (names, rest) ← readNames s.length s
  if names.length < nestingLimit then return (names, rest) else none

end LogicConsole.Toml
