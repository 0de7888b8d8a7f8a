import LogicConsole.Text.Alphanumeric
/-!
Decimal numerals. A machine word is written with ASCII digits, of which there is at least one, after
an optional plus sign, and is below 2^64.
-/
namespace LogicConsole.Text

def digitValue (c : Char) : Nat := c.toNat - '0'.toNat

/-- The value of a list of digits in the given base. -/
def valueOf (base : Nat) (digits : List Nat) : Nat := digits.foldl (fun n d => base * n + d) 0

def decimalValue (digits : List Char) : Nat := valueOf 10 (digits.map digitValue)

def dropPlus : List Char → List Char
  | '+' :: digits => digits
  | digits => digits

def readWord64 (s : List Char) : Option Nat :=
  let digits := dropPlus s
  if digits.isEmpty || !digits.all isAsciiDigit then none
  else if decimalValue digits < UInt64.size then some (decimalValue digits)
  else none

end LogicConsole.Text
