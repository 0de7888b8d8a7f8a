import LogicConsole.Term
import LogicConsole.Text.Alphanumeric
/-!
The text of a term. An atom is quoted unless it is a word or a numeral; the functor is written as it
stands, and so is what stands between the quotes of an atom.
-/
namespace LogicConsole

open Text

/-- A word starts with a small ASCII letter, a numeral consists of ASCII digits. -/
def Arg.isPlain (name : List Char) : Bool :=
  match name with
  | [] => false
  | c :: rest =>
    if isAsciiLower c then rest.all isWordChar
    else isAsciiDigit c && rest.all isAsciiDigit

def Arg.render : Arg → String
  | .var name => name
  | .atom name => if Arg.isPlain name.toList then name else "'" ++ name ++ "'"

def Term.render (t : Term) : String :=
  if t.args.isEmpty then t.functor
  else t.functor ++ "(" ++ ", ".intercalate (t.args.map Arg.render) ++ ")"

end LogicConsole
