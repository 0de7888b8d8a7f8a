import LogicConsole.Program
/-!
The command line. A picture is taken of the files a session can touch, the input is read to its end,
and the report of the program's run is carried out.
-/
namespace LogicConsole

/-- Read bytes until there are no more. -/
partial def readAll (input : IO.FS.Stream) (bytes : ByteArray) : IO ByteArray := do
  let chunk ← input.read 65536
  if chunk.isEmpty then return bytes else readAll input (bytes ++ chunk)

def Location.text (l : Location) : String := "/" ++ "/".intercalate l.path

/-- Where the first names of a path lead, parent directories taken by name. -/
def FileSystem.locations (fs : FileSystem) (p : Path) : List Location :=
  let follow (here : Location) (name : String) : Location :=
    if name = ".." then here.parent else here.child name
  (List.range (p.names.length + 1)).map fun n => (p.names.take n).foldl follow (fs.start p)

/-- Add what is found along a path to the picture. -/
def FileSystem.observe (fs : FileSystem) (p : Path) : IO FileSystem := do
  let here ← IO.currentDir
  let mut fs := fs
  for l in fs.locations p do
    let found := here / l.text
    if ← found.isDir then fs := fs.put l .directory
    else if ← found.pathExists then fs := fs.put l (.file (← IO.FS.readBinFile found))
  return fs

/-- The files that matter: the configuration, and the history it names. -/
def observeAll (environment : Environment) : IO FileSystem := do
  let working := Path.ofString (← IO.currentDir).toString
  let fs ← FileSystem.observe { working := .append .root working.names } working
  let fs ← (Config.defaultPath environment).elim (pure fs) fun path => fs.observe (.ofString path)
  match Config.load fs environment with
  | .error _ => return fs
  | .ok (config, _) =>
    match Program.historyFile config environment with
    | none => return fs
    | some file => (← fs.observe file.path).observe file.temporary

/-- Make the files be as in `new`, where it differs from `old`. -/
def carryOut (old new : FileSystem) : IO Unit := do
  for (l, entry) in new.entries.reverse do
    if old.find? l ≠ some entry then
      match entry with
      | .directory => IO.FS.createDirAll l.text
      | .file bytes => IO.FS.writeBinFile l.text bytes
  for (l, _) in old.entries do
    if (new.find? l).isNone then IO.FS.removeFile l.text

end LogicConsole

open LogicConsole

def main (args : List String) : IO UInt32 := do
  let environment : Environment :=
    { home := ← IO.getEnv "HOME", configFile := ← IO.getEnv configVariable
      logFilter := ← IO.getEnv logVariable }
  let files ← observeAll environment
  let input := if StartupOptions.helpFlag ∈ args then pure .empty
    else do readAll (← IO.getStdin) .empty
  let report := Program.run { args, environment, input := (← input).toList, files }
  IO.print report.output
  for record in report.records do
    IO.eprintln (record.level.name ++ " " ++ record.target)
  if let some error := report.error then IO.eprintln (Program.complaint error)
  carryOut files report.files
  return UInt32.ofNat report.exitCode
