import LogicConsole.Fault
import LogicConsole.FileSystem.Location
import LogicConsole.FileSystem.Path
/-!
A tree of files and directories. An entry has a location, and an operation finds the location of a
path by walking the tree, from the root or from the working directory. Operations fail as the system
would refuse them, and then change nothing.
-/
namespace LogicConsole

inductive Entry
  | file (bytes : ByteArray)
  | directory

instance : DecidableEq Entry
  | .file a, .file b => decidable_of_iff (a.data = b.data) (by simp [ByteArray.ext_iff])
  | .file _, .directory => isFalse nofun
  | .directory, .file _ => isFalse nofun
  | .directory, .directory => isTrue rfl

structure FileSystem where
  entries : List (Location × Entry) := []
  /-- Where relative paths start. -/
  working : Location := .root

namespace FileSystem

/-- The root is always a directory. -/
def find? (fs : FileSystem) (l : Location) : Option Entry :=
  if l = .root then some .directory else fs.entries.lookup l

def remove (l : Location) (fs : FileSystem) : FileSystem :=
  { fs with entries := fs.entries.filter fun e => e.1 ≠ l }

def put (l : Location) (entry : Entry) (fs : FileSystem) : FileSystem :=
  { fs with entries := (l, entry) :: (fs.remove l).entries }

theorem find?_put_self {fs : FileSystem} {l : Location} {entry : Entry} (h : l ≠ .root) :
    (fs.put l entry).find? l = some entry := by
  simp [find?, put, h]

theorem lookup_filter_ne {l m : Location} (h : m ≠ l) (entries : List (Location × Entry)) :
    (entries.filter fun e => e.1 ≠ l).lookup m = entries.lookup m := by
  induction entries with
  | nil => rfl
  | cons e rest ih =>
    obtain ⟨k, v⟩ := e
    by_cases hk : k = l
    · subst hk
      simpa [List.lookup_cons, beq_false_of_ne h] using ih
    · by_cases hm : m = k
      · subst hm
        simp [hk]
      · simpa [List.lookup_cons, hk, beq_false_of_ne hm] using ih

theorem find?_remove_of_ne {fs : FileSystem} {l m : Location} (h : m ≠ l) :
    (fs.remove l).find? m = fs.find? m := by
  by_cases hm : m = .root
  · simp [find?, hm]
  · simp only [find?, hm, if_false, remove]
    exact lookup_filter_ne h _

theorem find?_put_of_ne {fs : FileSystem} {l m : Location} {entry : Entry} (h : m ≠ l) :
    (fs.put l entry).find? m = fs.find? m := by
  by_cases hm : m = .root
  · simp [find?, hm]
  · have := @find?_remove_of_ne fs l m h
    simp only [find?, hm, if_false, put, List.lookup_cons, beq_false_of_ne h] at this ⊢
    exact this

/-- The longest name a directory can hold, in bytes. -/
def maxNameBytes : Nat := 255

/-- The longest path that can be asked for, in bytes. -/
def maxPathBytes : Nat := 4095

/-- The entry a name leads to from another. -/
def step (fs : FileSystem) :
    Location × Entry → String → Except IoError (Location × Entry)
  | (_, .file _), _ => .error .notADirectory
  | (here, .directory), name =>
    if name = ".." then .ok (here.parent, .directory)
    else if maxNameBytes < name.utf8ByteSize then .error .nameTooLong
    else
      match fs.find? (here.child name) with
      | some entry => .ok (here.child name, entry)
      | none => .error .notFound

/-- Where the walk along a path begins. -/
def start (fs : FileSystem) (p : Path) : Location := if p.isAbsolute then .root else fs.working

/-- The entry that names lead to, from where the walk along a path begins. -/
def walk (fs : FileSystem) (p : Path) (names : List String) :
    Except IoError (Location × Entry) := do
  match fs.find? (fs.start p) with
  | none => throw .notFound
  | some entry => names.foldlM fs.step (fs.start p, entry)

/-- The first fault of a path whose walk is not even tried. -/
def checkPath (p : Path) : Except IoError Unit := do
  if p.hasNul then throw .nulInName
  if p.isEmpty then throw .notFound
  if maxPathBytes < p.text.utf8ByteSize then throw .nameTooLong

/-- The existing entry a path leads to. A path that ends in a slash leads to a directory only. -/
def locate (fs : FileSystem) (p : Path) : Except IoError (Location × Entry) := do
  checkPath p
  match ← fs.walk p p.names with
  | (l, .file bytes) => if p.ending = .name then return (l, .file bytes) else throw .notADirectory
  | (l, .directory) => return (l, .directory)

def exists? (fs : FileSystem) (p : Path) : Bool := (fs.locate p).isOk

def isDirectory (fs : FileSystem) (p : Path) : Bool :=
  match fs.locate p with
  | .ok (_, .directory) => true
  | _ => false

/-- The directory and the name under which a path would be created. No name is left of a path that
leads to the root, to its start or to a parent directory. -/
def place (fs : FileSystem) (p : Path) : Except IoError (Location × Option String) := do
  checkPath p
  let (parent, entry) ← fs.walk p p.names.dropLast
  if entry ≠ .directory then throw .notADirectory
  match p.names.getLast? with
  | none => return (parent, none)
  | some name =>
    if name = ".." then return (parent, none)
    else if maxNameBytes < name.utf8ByteSize then throw .nameTooLong
    else return (parent, some name)

def read (fs : FileSystem) (p : Path) : Except IoError ByteArray := do
  match ← fs.locate p with
  | (_, .file bytes) => return bytes
  | (_, .directory) => throw .isADirectory

/-- The text of a file, which has to be valid UTF-8. -/
def readText (fs : FileSystem) (p : Path) : Except IoError String := do
  match String.fromUTF8? (← fs.read p) with
  | some text => return text
  | none => throw .invalidText

def createDirectory (fs : FileSystem) (p : Path) : Except IoError FileSystem := do
  match ← fs.place p with
  | (_, none) => throw .alreadyExists
  | (parent, some name) =>
    if (fs.find? (parent.child name)).isSome then throw .alreadyExists
    else return fs.put (parent.child name) .directory

/-- Create a file or replace its contents. -/
def write (fs : FileSystem) (p : Path) (bytes : ByteArray) : Except IoError FileSystem := do
  match ← fs.place p with
  | (_, none) => throw .isADirectory
  | (parent, some name) =>
    match fs.find? (parent.child name), p.ending with
    | some .directory, _ => throw .isADirectory
    | some (.file _), .name => return fs.put (parent.child name) (.file bytes)
    | some (.file _), _ => throw .notADirectory
    | none, .name => return fs.put (parent.child name) (.file bytes)
    | none, _ => throw .isADirectory

/-- Give a file another name, replacing the file that has it. -/
def rename (fs : FileSystem) (source target : Path) : Except IoError FileSystem := do
  let (l, entry) ← fs.locate source
  if target.ending = .dot && target.names ≠ [] then
    discard <| fs.locate target
    throw .busy
  match ← fs.place target with
  | (_, none) => throw .busy
  | (parent, some name) =>
    if target.ending ≠ .name then throw .notADirectory
    else if fs.find? (parent.child name) = some .directory then throw .isADirectory
    else return (fs.remove l).put (parent.child name) entry

end FileSystem

/-- Work on the file system that may fail part of the way; what was done before stays done. -/
abbrev FileOperation (α : Type) := ExceptT IoError (StateM FileSystem) α

namespace FileOperation

/-- A single change of the file system. -/
def change (f : FileSystem → Except IoError FileSystem) : FileOperation Unit := ExceptT.mk fun fs =>
  match f fs with
  | .ok fs => (.ok (), fs)
  | .error e => (.error e, fs)

def inspect {α : Type} (f : FileSystem → Except IoError α) : FileOperation α :=
  ExceptT.mk fun fs => (f fs, fs)

/-- Create a directory that may be there already. -/
def ensureDirectory (p : Path) : FileOperation Unit := do
  try change (·.createDirectory p)
  catch e => if (← get).isDirectory p then return else throw e

/-- Create a directory that may be there already, after the missing ones among the directories it
leads through. They are given with it, the nearest first. -/
def createDirectories : List Path → FileOperation Unit
  | [] => return
  | p :: above => do
    try ensureDirectory p
    catch
      | .notFound =>
        createDirectories above
        ensureDirectory p
      | e => throw e

end FileOperation

end LogicConsole
