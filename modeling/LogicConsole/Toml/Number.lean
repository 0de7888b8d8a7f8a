import LogicConsole.Toml.Token
/-!
Numbers, dates and times of a TOML document. Only integers keep their value; of a fraction or a
date it matters that it is one.
-/
namespace LogicConsole.Toml

open Text

/-- Digits of the given kind, of which the first was read; an underscore stands between digits. -/
def moreDigits (isDigit : Char → Bool) : Reader (List Char)
  | '_' :: c :: rest =>
    if isDigit c then push c (moreDigits isDigit rest) else none
  | c :: rest =>
    if isDigit c then push c (moreDigits isDigit rest)
    else if c = '_' then none
    else some ([], c :: rest)
  | [] => some ([], [])

def readDigits (isDigit : Char → Bool) : Reader (List Char)
  | c :: rest => if isDigit c then push c (moreDigits isDigit rest) else none
  | [] => none

def readSign : List Char → Option Char × List Char
  | '+' :: rest => (some '+', rest)
  | '-' :: rest => (some '-', rest)
  | s => (none, s)

/-- Digits without a leading zero, but for zero itself. -/
def readWhole : Reader (List Char)
  | '0' :: rest => some (['0'], rest)
  | s => readDigits isAsciiDigit s

/-- The rest after a fraction or an exponent, with the digits of the fraction and the exponent's
value; `none` if neither is there, and `some none` if one is malformed. -/
def readFraction : List Char → Option (Option (List Char × Int × List Char))
  | '.' :: rest => some <| do
    let (digits, rest) ← readDigits isAsciiDigit rest
    match rest with
    | c :: rest' => if c = 'e' || c = 'E' then readExponent digits rest' else some (digits, 0, rest)
    | [] => some (digits, 0, [])
  | 'e' :: rest => some (readExponent [] rest)
  | 'E' :: rest => some (readExponent [] rest)
  | _ => none
where
  readExponent (fraction : List Char) (s : List Char) : Option (List Char × Int × List Char) := do
    let (sign, rest) := readSign s
    let (digits, rest) ← readDigits isAsciiDigit rest
    let value : Int := decimalValue digits
    return (fraction, if sign = some '-' then -value else value, rest)

/-- Is digits · 10^exponent too large for a double? Numbers from the midpoint between the largest
double and the next power of two on are. -/
def overflowsDouble (digits : List Char) (exponent : Int) : Bool :=
  let digits := digits.dropWhile (· == '0')
  let size := (digits.length : Int) + exponent
  if digits.isEmpty || size < 309 then false
  else if 310 < size then true
  else
    let limit := Nat.pow 2 1024 - Nat.pow 2 970
    let n := decimalValue digits
    if 0 ≤ exponent then limit ≤ n * Nat.pow 10 exponent.toNat
    else limit * Nat.pow 10 exponent.natAbs ≤ n

inductive Number
  | integer (value : Int)
  | float
  | moment
  deriving DecidableEq, Repr

/-- Integers have 64 bits. -/
def integerOf (value : Int) : Option Number :=
  if Int64.minValue.toInt ≤ value ∧ value ≤ Int64.maxValue.toInt then some (.integer value)
  else none

def readRadix (radix : Nat) (isDigit : Char → Bool) (s : List Char) :
    Option (Number × List Char) := do
  let (digits, rest) ← readDigits isDigit s
  return (← integerOf (valueOf radix (digits.map hexDigitValue)), rest)

def readDecimal (s : List Char) : Option (Number × List Char) := do
  let (sign, rest) := readSign s
  match rest with
  | 'i' :: 'n' :: 'f' :: rest => return (.float, rest)
  | 'n' :: 'a' :: 'n' :: rest => return (.float, rest)
  | _ =>
    let (whole, rest) ← readWhole rest
    match readFraction rest with
    | some fraction =>
      let (digits, exponent, rest) ← fraction
      if sign ≠ some '-' && overflowsDouble (whole ++ digits) (exponent - digits.length) then none
      else return (.float, rest)
    | none =>
      let value : Int := decimalValue whole
      return (← integerOf (if sign = some '-' then -value else value), rest)

/-! Dates and times -/

/-- A number of exactly `n` digits. -/
def readFixed (n : Nat) (s : List Char) : Option (Nat × List Char) :=
  let digits := s.take n
  if digits.length = n && digits.all isAsciiDigit then some (decimalValue digits, s.drop n)
  else none

def readSeparator (c : Char) : List Char → Option (List Char)
  | d :: rest => if d = c then some rest else none
  | [] => none

def daysIn (year month : Nat) : Nat :=
  if month = 2 then
    if year % 4 = 0 ∧ (year % 100 ≠ 0 ∨ year % 400 = 0) then 29 else 28
  else if month = 4 ∨ month = 6 ∨ month = 9 ∨ month = 11 then 30
  else 31

/-- The rest after a date's year and first dash. -/
def readMonthAndDay (year : Nat) (s : List Char) : Option (List Char) := do
  let (month, s) ← readFixed 2 s
  let s ← readSeparator '-' s
  let (day, s) ← readFixed 2 s
  if 1 ≤ month ∧ month ≤ 12 ∧ 1 ≤ day ∧ day ≤ daysIn year month then return s else none

/-- A fraction of a second, if one follows. -/
def skipSecondFraction (s : List Char) : List Char :=
  match s with
  | '.' :: c :: rest => if isAsciiDigit c then rest.dropWhile isAsciiDigit else s
  | _ => s

/-- The rest after a time's hour and first colon. A minute may have a leap second. -/
def readMinuteAndSecond (s : List Char) : Option (List Char) := do
  let (minute, s) ← readFixed 2 s
  let s ← readSeparator ':' s
  let (second, s) ← readFixed 2 s
  if minute ≤ 59 ∧ second ≤ 60 then return skipSecondFraction s else none

/-- A time, if the input starts with an hour and a colon; `some none` if it is malformed. -/
def readTime (s : List Char) : Option (Option (List Char)) := do
  let (hour, s) ← readFixed 2 s
  let s ← readSeparator ':' s
  if hour ≤ 23 then return readMinuteAndSecond s else none

/-- The offset of a time, if one follows; `none` if it is malformed. -/
def skipOffset (s : List Char) : Option (List Char) :=
  match s with
  | 'Z' :: rest => some rest
  | 'z' :: rest => some rest
  | c :: rest =>
    if c = '+' || c = '-' then do
      let (hour, rest) ← readFixed 2 rest
      let rest ← readSeparator ':' rest
      let (minute, rest) ← readFixed 2 rest
      if hour ≤ 23 ∧ minute ≤ 59 then return rest else none
    else some s
  | [] => some []

/-- What may follow a date: a separator, a time and an offset. -/
def afterDate (s : List Char) : Option (List Char) :=
  match s with
  | c :: rest =>
    if c = 'T' || c = 't' || c = ' ' then
      match readTime rest with
      | none => some s
      | some time => do skipOffset (← time)
    else some s
  | [] => some []

/-- A date or a time, if the input starts like one; `some none` if it is malformed. -/
def readMoment (s : List Char) : Option (Option (List Char)) :=
  match (do
      let (year, rest) ← readFixed 4 s
      return (year, ← readSeparator '-' rest)) with
  | some (year, rest) => some <| do afterDate (← readMonthAndDay year rest)
  | none => readTime s

/-- A number, a date or a time. -/
def readNumber (s : List Char) : Option (Number × List Char) :=
  match readMoment s with
  | some moment => moment.map (.moment, ·)
  | none =>
    match s with
    | '0' :: 'x' :: rest => readRadix 16 isHexDigit rest
    | '0' :: 'o' :: rest => readRadix 8 (fun c => '0' ≤ c && c ≤ '7') rest
    | '0' :: 'b' :: rest => readRadix 2 (fun c => c == '0' || c == '1') rest
    | _ => readDecimal s

end LogicConsole.Toml
