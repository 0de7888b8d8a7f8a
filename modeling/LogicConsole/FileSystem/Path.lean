/-!
Paths as texts name them. Slashes cut a path into parts, of which the empty ones and single periods
lead nowhere: the others are names, each followed from the directory before it. A path that ends in
a part that leads nowhere says that it names a directory.
-/
namespace LogicConsole

/-- What a path ends in. -/
inductive Path.Ending
  | name
  | slash
  | dot
  deriving DecidableEq, Repr

structure Path where
  /-- The texts between the slashes. -/
  parts : List String
  deriving DecidableEq, Repr

namespace Path

def ofString (text : String) : Path := ⟨(text.toList.splitOn '/').map String.ofList⟩

def text (p : Path) : String := "/".intercalate p.parts

def isName (part : String) : Bool := part ≠ "" && part ≠ "."

def names (p : Path) : List String := p.parts.filter isName

/-- Does the path begin with a slash? -/
def isAbsolute (p : Path) : Bool := p.parts.head? == some "" && p.parts.length != 1

/-- The empty path names nothing. -/
def isEmpty (p : Path) : Bool := p.parts.length ≤ 1 && p.parts.all (·.isEmpty)

/-- Slashes behind a period do not count. -/
def ending (p : Path) : Ending :=
  if (p.parts.filter (· ≠ "")).getLast? = some "." then .dot
  else if p.parts.getLast? = some "" && !p.isEmpty then .slash
  else .name

/-- No file has a name that holds NUL. -/
def hasNul (p : Path) : Bool := p.parts.any fun part => part.toList.contains '\x00'

/-- The first parts of a path, for every number of them from one on. -/
def heads : List String → List (List String)
  | [] => []
  | part :: rest => [part] :: (heads rest).map (part :: ·)

/-- Do these parts lead to an entry of their own? The period counts where a path begins with it. -/
def leadsOn (parts : List String) : Bool := parts == ["."] || parts.getLast?.any isName

/-- The directories a path leads through, the nearest first. -/
def above (p : Path) : List Path := (((heads p.parts).filter leadsOn).reverse.drop 1).map Path.mk

/-- A name up to its last period. A period at the very front does not count. -/
def stem (name : String) : String :=
  match name.toList.reverse.dropWhile (· ≠ '.') with
  | [] => name
  | _ :: front => if front.isEmpty then name else String.ofList front.reverse

/-- The path with another extension of its last name, and without what follows the name. A path
that ends in no name stays as it is. Where the stem is a period and nothing follows the name, only
the old extension goes, and the path leads to a parent directory. -/
def withExtension (extension : String) (p : Path) : Path :=
  match p.names.getLast? with
  | none | some ".." => p
  | some name =>
    let kept := (p.parts.reverse.dropWhile (!isName ·)).reverse
    let last :=
      if stem name = "." && kept.length = p.parts.length then ".."
      else stem name ++ "." ++ extension
    ⟨kept.dropLast ++ [last]⟩

/-- One path continued by another; an absolute path does not continue any. -/
def join (base path : String) : String :=
  if path.toList.head? == some '/' then path
  else if base.toList.getLast? == some '/' || base == "" then base ++ path
  else base ++ "/" ++ path

end Path

end LogicConsole
