/-!
Diagnostic records: how important each is, the part of the program it comes from, and the names of
the fields it carries.
-/
namespace LogicConsole

inductive LogLevel
  | error
  | warn
  | info
  | debug
  | trace
  deriving DecidableEq, Repr

namespace LogLevel

/-- More verbose levels have greater ranks. -/
def rank : LogLevel → Nat
  | .error => 1
  | .warn => 2
  | .info => 3
  | .debug => 4
  | .trace => 5

def all : List LogLevel := [.error, .warn, .info, .debug, .trace]

def name : LogLevel → String
  | .error => "ERROR"
  | .warn => "WARN"
  | .info => "INFO"
  | .debug => "DEBUG"
  | .trace => "TRACE"

end LogLevel

structure LogRecord where
  level : LogLevel
  target : String
  /-- The names of its fields, without that of the message, which every record has. -/
  details : List String := []
  deriving DecidableEq, Repr

namespace LogRecord

def messageField : String := "message"

def fields (r : LogRecord) : List String := messageField :: r.details

/-- The most verbose level among records. -/
def mostVerbose (records : List LogRecord) : Option LogLevel :=
  LogLevel.all.reverse.find? fun level => records.any (·.level = level)

end LogRecord

end LogicConsole
