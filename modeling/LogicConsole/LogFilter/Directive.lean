import LogicConsole.LogFilter.Pattern
import LogicConsole.LogRecord
import LogicConsole.Text.Blank
import LogicConsole.Text.Bytes
import LogicConsole.Text.Numeral
/-!
Directives of a filter: `target[span{field=value}]=level`, of which the span with its field and
everything else but one may be missing. A directive is gone through without the blanks around it,
but its parts are then taken from the text as it was given, at the same places.
-/
namespace LogicConsole

/-- Show records up to a rank, of which zero shows none. -/
structure LogDirective where
  target : Option String := none
  /-- The operation that records have to be part of. -/
  span : Option String := none
  /-- A field that records have to carry, and perhaps the value it has to have. -/
  field : Option (String × Option String) := none
  rank : Nat := LogLevel.trace.rank
  deriving DecidableEq, Repr

inductive DirectiveError
  | malformed
  /-- A part begins or ends inside a character. -/
  | cutCharacter
  deriving DecidableEq, Repr

namespace LogDirective

open Text

/-! Levels -/

def asciiLower (c : Char) : Char := if isAsciiUpper c then Char.ofNat (c.toNat + 32) else c

/-- The rank a level is named by: a word in any case, or a number up to five. -/
def rankOf? (s : List Char) : Option Nat :=
  match readWord64 s with
  | some n => if n ≤ LogLevel.trace.rank then some n else none
  | none =>
    let word := String.ofList (s.map asciiLower)
    match word with
    | "off" => some 0
    | "error" => some 1
    | "warn" => some 2
    | "info" => some 3
    | "debug" => some 4
    | "trace" => some 5
    | _ => none

/-- A missing level shows all records. -/
def readRank (s : List Char) : Except DirectiveError Nat :=
  if s.isEmpty then return LogLevel.trace.rank
  else (rankOf? s).elim (throw .malformed) pure

/-! Fields -/

def isDigits (s : List Char) : Bool := !s.isEmpty && s.all isAsciiDigit

/-- Digits, perhaps with a fraction and an exponent. -/
def isDecimal (s : List Char) : Bool :=
  let mantissa := s.takeWhile fun c => c ≠ 'e' && c ≠ 'E'
  let fraction := (mantissa.dropWhile (· ≠ '.')).drop 1
  let exponent := s.drop (mantissa.length + 1)
  let unsigned := if exponent.head?.any (· ∈ ['+', '-']) then exponent.drop 1 else exponent
  isDigits (mantissa.takeWhile (· ≠ '.') ++ fraction) &&
    (s.length = mantissa.length || isDigits unsigned)

/-- A number with a plus sign is the one value that no pattern would do for. -/
def isSignedNumber : List Char → Bool
  | '+' :: s =>
    isDecimal s || String.ofList (s.map asciiLower) ∈ ["inf", "infinity", "nan"]
  | _ => false

def isValue (s : List Char) : Bool := isSignedNumber s || LogFilter.Pattern.isReadable s

/-- A field's name, and the value behind an equals sign. -/
def readField (s : List Char) : Except DirectiveError (String × Option String) :=
  let name := String.ofList (s.takeWhile (· ≠ '='))
  if s.isEmpty then throw .malformed
  else
    match s.dropWhile (· ≠ '=') with
    | [] => return (name, none)
    | _ :: rest =>
      let value := rest.takeWhile (· ≠ '=')
      if isValue value then return (name, some (String.ofList value)) else throw .malformed

/-! Directives -/

/-- What is being read, and where it began. -/
inductive Stage
  | start
  | name (start : Nat)
  | span (start : Nat)
  | field (start : Nat)
  | afterField
  | afterSpan
  | level (start : Nat)
  deriving DecidableEq, Repr

def part (text : List Char) (start stop : Nat) : Except DirectiveError (List Char) :=
  (bytesBetween? start stop text).elim (throw .cutCharacter) pure

def partFrom (text : List Char) (start : Nat) : Except DirectiveError (List Char) :=
  (dropBytes? start text).elim (throw .cutCharacter) pure

/-- What a directive without a span begins with. -/
def startsName (c : Char) : Bool := c == '-' || c == ':' || c == '_' || isAlphanumeric c

/-- Go on by the character at `here`. -/
def advance (text : List Char) (here : Nat) (c : Char) :
    Stage × LogDirective → Except DirectiveError (Stage × LogDirective)
  | (.start, d) =>
    if c = '[' then return (.span (here + 1), d)
    else if startsName c then return (.name here, d)
    else throw .malformed
  | (.name start, d) => do
    if c = '=' then
      return (.level (here + 1), { d with target := String.ofList (← part text start here) })
    else if c = '[' then
      return (.span (here + 1), { d with target := String.ofList (← part text start here) })
    else return (.name start, d)
  | (.span start, d) => do
    if c = ']' then
      return (.afterSpan, { d with span := String.ofList (← part text start here) })
    else if c = '{' then
      let span := String.ofList (← part text start here)
      return (.field (here + 1), { d with span := if span = "" then none else some span })
    else return (.span start, d)
  | (.field start, d) => do
    if c = '}' then
      return (.afterField, { d with field := ← readField (← part text start here) })
    else return (.field start, d)
  | (.afterField, d) => if c = ']' then return (.afterSpan, d) else throw .malformed
  | (.afterSpan, d) => if c = '=' then return (.level (here + 1), d) else throw .malformed
  | (.level start, d) => return (.level start, d)

/-- What the end of the text makes of what was being read. -/
def finish (text : List Char) : Stage × LogDirective → Except DirectiveError LogDirective
  | (.name start, d) => do
    let word ← partFrom text start
    match rankOf? word with
    | some rank => return { d with rank }
    | none => return { d with target := if word.isEmpty then none else some (String.ofList word) }
  | (.level start, d) => do return { d with rank := ← readRank (← partFrom text start) }
  | (.afterSpan, d) => return d
  | _ => throw .malformed

/-- Go through a text from `here` on. -/
def advanceAll (text : List Char) (here : Nat) :
    List Char → Stage × LogDirective → Except DirectiveError (Stage × LogDirective)
  | [], s => return s
  | c :: rest, s => do advanceAll text (here + c.utf8Size) rest (← advance text here c s)

def parse (text : List Char) : Except DirectiveError LogDirective := do
  finish text (← advanceAll text 0 (trim text) (.start, {}))

/-- Can it be told of a record alone whether the directive fits? -/
def isStatic (d : LogDirective) : Bool :=
  d.span.isNone && d.field.all fun (_, value) => value.isNone

/-- Does the directive fit the record? A target stands for all targets that begin with it. -/
def fits (record : LogRecord) (d : LogDirective) : Bool :=
  d.target.all (fun target => target.toList.isPrefixOf record.target.toList) &&
    d.field.all (fun (name, _) => name ∈ record.fields)

/-- Does the first directive say at least as much as the second? The longer target does, for equal
ones a field does, and of two fields the one that sorts behind the other. -/
def saysAsMuch (d e : LogDirective) : Bool :=
  let weight (d : LogDirective) : Nat := d.target.elim 0 (·.utf8ByteSize + 1)
  weight e < weight d || (weight e = weight d &&
    match e.field, d.field with
    | none, _ => true
    | some _, none => false
    | some (old, _), some (new, _) => !(new < old))

end LogDirective

end LogicConsole
