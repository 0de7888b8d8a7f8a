import LogicConsole.Theme
/-!
Startup arguments. A theme flag selects a theme, and the last one counts; `--help` anywhere asks for
help instead of a session; every other argument is ignored.
-/
namespace LogicConsole

structure StartupOptions where
  theme : Option Theme := none
  /-- The arguments that mean nothing here, in order. -/
  ignored : List String := []
  deriving DecidableEq, Repr

inductive Startup
  | help
  | run (options : StartupOptions)
  deriving DecidableEq, Repr

namespace StartupOptions

def helpFlag : String := "--help"

/-- Take one argument other than `--help` into account. -/
def add (options : StartupOptions) (arg : String) : StartupOptions :=
  match Theme.ofFlag? arg with
  | some theme => { options with theme }
  | none => { options with ignored := options.ignored ++ [arg] }

def ofArgs (args : List String) : Startup :=
  if helpFlag ∈ args then .help else .run (args.foldl add {})

def themeOr (options : StartupOptions) (configured : Theme) : Theme :=
  options.theme.getD configured

end StartupOptions

def Startup.helpText : String :=
  "Help for plconsole\n" ++
  "Available startup options:\n" ++
  "--help\n" ++
  "   Display this help text.\n" ++
  "--theme-light\n" ++
  "   Run with a light background and dark text.\n" ++
  "--theme-dark\n" ++
  "   Run with a dark background and light text.\n"

end LogicConsole
