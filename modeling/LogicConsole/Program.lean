import LogicConsole.Config
import LogicConsole.Console.Piped
import LogicConsole.Engine.Facts
import LogicConsole.LogFilter
import LogicConsole.Session
import LogicConsole.Startup
/-!
The program as a whole: from its arguments, environment, input and files to its output, exit code,
diagnostic records and the files it leaves. The program runs a session of the built-in engine whose
input is no terminal. Prompts go to the output as well, in the order in which things happened.
-/
namespace LogicConsole

structure Invocation where
  args : List String := []
  environment : Environment := {}
  input : List UInt8 := []
  files : FileSystem := {}

structure Report where
  exitCode : Nat := 0
  /-- What was written, the prompts included. -/
  output : String := ""
  /-- Why the program failed. -/
  error : Option String := none
  /-- The diagnostic records the filter lets through. -/
  records : List LogRecord := []
  files : FileSystem

/-- Exit code of a program that failed. -/
def faultExitCode : Nat := 1

/-- Exit code of a program that broke down before its session. -/
def breakdownExitCode : Nat := 101

/-- Holds the filter of diagnostic records. -/
def logVariable : String := "PLCONSOLE_LOG"

namespace Event

/-- What an event puts on the screen. -/
def shown : Event → String
  | .wrote text true => text
  | .readLine marker _ => marker
  | _ => ""

/-- A record of one of the program's own parts. -/
def record (level : LogLevel) (part : String) (details : List String := []) : LogRecord :=
  { level, target := "plconsole" ++ part, details }

/-- The line editor's record of a line it reads, which tells where in the editor it was made. -/
def editorRecord : LogRecord :=
  { level := .debug, target := "rustyline"
    details := ["log.target", "log.module_path", "log.file", "log.line"] }

/-- The diagnostic records of an event in a session of the built-in engine; `kept` says whether
there is a file that keeps the history. -/
def records (kept : Bool) : Event → List LogRecord
  | .entered .starting => []
  | .entered .ready =>
    [record .info "::cli::repl" ["theme"], record .debug "::cli::repl" ["from", "to"]]
  | .entered _ => [record .debug "::cli::repl" ["from", "to"]]
  | .handlerInstalled => [record .debug "::cli::signals"]
  | .readLine _ (.ok (.line _)) | .readLine _ (.error _) => [editorRecord]
  | .readLine _ (.ok .interrupted) => [editorRecord, record .debug "::cli::input" ["buffered"]]
  | .readLine _ (.ok .endOfInput) => [editorRecord, record .debug "::cli::input" ["discarded"]]
  | .completed _ => [record .debug "::cli::input" ["query"]]
  | .commanded _ => [record .debug "::cli::repl" ["command"]]
  | .solved query _ _ =>
    match Directive.parse query with
    | .error _ => [record .debug "::engine::facts" ["error"]]
    | .ok .halt => [record .info "::engine::facts"]
    | .ok _ => []
  | .paged _ => [record .debug "::cli::pager" ["shown", "prompts", "end"]]
  | .interrupted _ _ => [record .info "::cli::repl", record .info "::engine::facts" ["count"]]
  | .persisted entries result =>
    record .debug "::history::recorder" ["entries"] ::
      match result with
      | .error _ => [record .warn "::cli::repl"]
      | .ok _ =>
        if kept && !entries.isEmpty then [record .debug "::history::store" ["path", "stored"]]
        else []
  | _ => []

end Event

namespace Program

def historyFile (config : Config) (env : Environment) : Option HistoryFile :=
  (config.historyPath env).map fun path => ⟨.ofString path, config.history.maxEntries⟩

/-- Reading the history at the start fills the recall buffer; a failure is only reported. -/
def preloadRecord (file : Option HistoryFile) (fs : FileSystem) : List LogRecord :=
  match file with
  | none => []
  | some file =>
    match file.load fs with
    | .ok _ => [Event.record .debug "::cli::console" ["entries"]]
    | .error _ => [Event.record .warn ""]

def session (config : Config) (options : StartupOptions) (call : Invocation) :
    Session FactEngine PipedConsole Buffer :=
  { engine :=
      { prompt := config.prompt, historyFile := historyFile config call.environment
        files := call.files }
    dialogue := { console := { input := call.input }, output := {} }
    theme := options.themeOr config.theme
    handler := .free }

/-- The records of the session's end. -/
def endRecords : Outcome → List LogRecord
  | .ended _ =>
    [Event.record .info "::cli::repl" ["end", "queries"], Event.record .info "" ["end"]]
  | .faulted _ => [Event.record .warn "::cli::repl"]
  | .unfinished => []

/-- What the operator is told of a failure. -/
def complaint (error : String) : String := "\nError: " ++ error ++ "\n\nPress Enter to exit."

def errorOf : Outcome → Option String
  | .faulted error => some error.message
  | _ => none

/-- Run a session under a configuration, with a filter of its records. -/
def serve (config : Config) (filter : LogFilter) (options : StartupOptions) (call : Invocation) :
    Report :=
  let (outcome, s) := (session config options call).run
  let journal := s.dialogue.journal.reverse
  let file := historyFile config call.environment
  let records :=
    Event.record .info "" ["source", "theme"] ::
      (options.ignored.map fun _ => Event.record .info "" ["arg"]) ++
      preloadRecord file call.files ++
      journal.flatMap (Event.records file.isSome) ++ endRecords outcome
  { exitCode := if (errorOf outcome).isSome then faultExitCode else 0
    output := String.join (journal.map Event.shown)
    error := errorOf outcome
    records := records.filter filter.allows
    files := s.engine.files }

def run (call : Invocation) : Report :=
  match StartupOptions.ofArgs call.args with
  | .help => { output := Startup.helpText, files := call.files }
  | .run options =>
    match Config.load call.files call.environment with
    | .error error =>
      { exitCode := faultExitCode, error := some error.message, files := call.files }
    | .ok (config, _) =>
      match LogFilter.choose? call.environment.logFilter config.debugLogging with
      | some filter => serve config filter options call
      | none => { exitCode := breakdownExitCode, files := call.files }

end Program

end LogicConsole
