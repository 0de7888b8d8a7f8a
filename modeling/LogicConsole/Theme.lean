/-!
Display themes: the colours of a session and the terminal sequences that set and reset them. The
default theme leaves the terminal alone.
-/
namespace LogicConsole

inductive Theme
  | default
  | dark
  | light
  deriving DecidableEq, Repr

inductive Color
  | black
  | white
  | darkBlue
  deriving DecidableEq, Repr

namespace Color

/-- The colour's number in the terminal's palette. -/
def index : Color → Nat
  | .black => 0
  | .white => 15
  | .darkBlue => 4

def name : Color → String
  | .black => "Black"
  | .white => "White"
  | .darkBlue => "DarkBlue"

end Color

namespace Theme

def name : Theme → String
  | .default => "default"
  | .dark => "dark"
  | .light => "light"

def ofName? (name : String) : Option Theme :=
  [Theme.default, .dark, .light].find? fun theme => theme.name = name

def ofFlag? : String → Option Theme
  | "--theme-dark" => some .dark
  | "--theme-light" => some .light
  | _ => none

/-- Foreground and background. -/
def colors : Theme → Option (Color × Color)
  | .default => none
  | .dark => some (.white, .black)
  | .light => some (.darkBlue, .white)

/-- Starts a terminal sequence. -/
def escape : String := "\x1b["

/-- Set the colours, clear the screen so that they cover it, and go to its top. -/
def apply (theme : Theme) : String :=
  match theme.colors with
  | none => ""
  | some (foreground, background) =>
    escape ++ "38;5;" ++ toString foreground.index ++ "m" ++
      escape ++ "48;5;" ++ toString background.index ++ "m" ++
      escape ++ "2J" ++ escape ++ "1;1H"

def reset (theme : Theme) : String :=
  match theme.colors with
  | none => ""
  | some _ => escape ++ "0m"

@[simp] theorem ofName?_name (theme : Theme) : ofName? theme.name = some theme := by
  cases theme <;> decide

end Theme

end LogicConsole
