import LogicConsole.LogFilter.Directive
/-!
The filter of diagnostic records: a list of directives. Of those that fit a record the one that says
the most decides whether it is shown.
-/
namespace LogicConsole

abbrev LogFilter := List LogDirective

namespace LogFilter

/-- The directives of a text, separated by commas; the first fault counts. -/
def parse (text : String) : Except DirectiveError LogFilter :=
  ((text.toList.splitOn ',').filter (!·.isEmpty)).mapM LogDirective.parse

/-- Of two directives the one that says more, and the second of equals. -/
def weightier (best : Option LogDirective) (d : LogDirective) : Option LogDirective :=
  match best with
  | none => some d
  | some b => if d.saysAsMuch b then some d else some b

/-- Is the record shown? No record is part of an operation, so directives for those do not count. -/
def allows (filter : LogFilter) (record : LogRecord) : Bool :=
  ((filter.filter fun d => d.isStatic && d.fits record).foldl weightier none).any
    (record.level.rank ≤ ·.rank)

/-- The filter used unless a usable one is given. -/
def standard (debugLogging : Bool) : LogFilter :=
  if debugLogging then [{ target := some "plconsole", rank := LogLevel.debug.rank }]
  else [{ rank := LogLevel.warn.rank }]

/-- The given filter, or the standard one if that is blank or malformed. There is none if a part of
a directive cuts a character: the program then breaks down. -/
def choose? (given : Option String) (debugLogging : Bool) : Option LogFilter :=
  match given with
  | none => some (standard debugLogging)
  | some text =>
    if text.toList.all Text.isBlank then some (standard debugLogging)
    else
      match parse text with
      | .ok filter => some filter
      | .error .malformed => some (standard debugLogging)
      | .error .cutCharacter => none

end LogFilter

end LogicConsole
