import LogicConsole.FileSystem
import LogicConsole.History.Line
import LogicConsole.Text.Lines
/-!
The history file: one entry a line, oldest first, no more than a fixed number of them. New entries
are appended by writing a temporary file and then giving it the history file's name.
-/
namespace LogicConsole

structure HistoryFile where
  path : Path
  maxEntries : Nat
  deriving DecidableEq, Repr

namespace HistoryFile

/-- The entries of a file's text; blank lines hold none. -/
def entriesOf (text : String) : List String :=
  ((Text.lines text.toList).filter (!·.isEmpty)).map fun line =>
    String.ofList (History.decode line)

def textOf (entries : List String) : String :=
  String.ofList (entries.flatMap fun entry => History.encode entry.toList ++ ['\n'])

/-- The last `n` elements. -/
def lastEntries (n : Nat) (entries : List String) : List String :=
  entries.drop (entries.length - n)

/-- The stored entries; a missing file holds none. -/
def load (file : HistoryFile) (fs : FileSystem) : Except IoError (List String) :=
  match fs.readText file.path with
  | .ok text => .ok (entriesOf text)
  | .error .notFound => .ok []
  | .error e => .error e

def temporary (file : HistoryFile) : Path := file.path.withExtension "tmp"

def append (file : HistoryFile) (entries : List String) : FileOperation Unit := do
  if entries.isEmpty then return
  FileOperation.createDirectories file.path.above
  let stored ← FileOperation.inspect file.load
  let kept := lastEntries file.maxEntries (stored ++ entries)
  FileOperation.change (·.write file.temporary (textOf kept).toUTF8)
  FileOperation.change (·.rename file.temporary file.path)

end HistoryFile

end LogicConsole
