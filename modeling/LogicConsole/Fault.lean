/-!
What can go wrong. An `IoError` is a refused file or terminal operation, an `EngineError` a fault of
the engine, and a `SessionError` whatever ends a session. Each type has its wording in one function.
-/
namespace LogicConsole

inductive IoError
  | notFound
  | notADirectory
  | isADirectory
  | alreadyExists
  | busy
  | nameTooLong
  /-- A name holds the character that ends a name for the system. -/
  | nulInName
  | invalidText
  | other (message : String)
  deriving DecidableEq, Repr

def IoError.message : IoError → String
  | .notFound => "No such file or directory (os error 2)"
  | .notADirectory => "Not a directory (os error 20)"
  | .isADirectory => "Is a directory (os error 21)"
  | .alreadyExists => "File exists (os error 17)"
  | .busy => "Device or resource busy (os error 16)"
  | .nameTooLong => "File name too long (os error 36)"
  | .nulInName => "file name contained an unexpected NUL byte"
  | .invalidText => "stream did not contain valid UTF-8"
  | .other message => message

inductive EngineError
  /-- The producer of a solution sequence stopped before its last solution. -/
  | producerLost
  | fault (message : String)
  /-- The command history could not be read or written. -/
  | history (error : IoError)
  deriving DecidableEq, Repr

def EngineError.message : EngineError → String
  | .producerLost => "solution producer stopped unexpectedly"
  | .fault message => message
  | .history error => "command history: " ++ error.message

inductive LineEditorError
  | endOfInput
  | interrupted
  | io (error : IoError)
  deriving DecidableEq, Repr

def LineEditorError.message : LineEditorError → String
  | .endOfInput => "EOF"
  | .interrupted => "Interrupted"
  | .io error => error.message

inductive SessionError
  | io (error : IoError)
  | lineEditor (error : LineEditorError)
  | engine (error : EngineError)
  /-- The process has an interrupt handler already. -/
  | handlerTaken
  /-- A collaborator gave up without a result. -/
  | panic (message : String)
  deriving DecidableEq, Repr

def SessionError.message : SessionError → String
  | .io error => "terminal I/O failed: " ++ error.message
  | .lineEditor error => "line editor failed: " ++ error.message
  | .engine error => "engine fault: " ++ error.message
  | .handlerTaken =>
    "failed to install interrupt handler: Ctrl-C error: Ctrl-C signal handler already registered"
  | .panic message => "session panicked: " ++ message

/-- A panic whose payload is no text is reported as unknown. -/
def SessionError.ofPanic (payload : Option String) : SessionError :=
  .panic (payload.getD "unknown panic")

/-- Two parts, one after the other, give a result just when each of them does. -/
theorem bind_eq_ok {ε α β : Type} {first : Except ε α} {next : α → Except ε β} {b : β} :
    (first >>= next) = .ok b ↔ ∃ a, first = .ok a ∧ next a = .ok b := by
  cases first <;> simp [Bind.bind, Except.bind]

end LogicConsole
