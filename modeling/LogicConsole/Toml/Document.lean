import LogicConsole.Toml.Number
import LogicConsole.Toml.Table
/-!
Reading a TOML document. Values nest up to a limit; the lines of a document are read in order, each
an entry of the table opened last or the header of the next one.
-/
namespace LogicConsole.Toml

/-- The last name of a key, and the names on the way to it. -/
def splitKey (names : List String) : Option (List String × String) :=
  names.getLast?.map fun key => (names.dropLast, key)

/-- An array after its opening bracket, given a reader of its items. -/
def readItems (item : Reader Value) : Nat → Reader (List Value)
  | 0, _ => none
  | fuel + 1, s =>
    match skipFiller s with
    | ']' :: rest => some ([], rest)
    | s => do
      let (value, rest) ← item s
      match skipFiller rest with
      | ',' :: rest =>
        let (values, rest) ← readItems item fuel rest
        return (value :: values, rest)
      | ']' :: rest => return ([value], rest)
      | _ => none

/-- A key, the equals sign and a value, given a reader of values. -/
def readPair (item : Reader Value) (s : List Char) :
    Option ((List String × String × Value) × List Char) := do
  let (names, rest) ← readKey s
  let (path, key) ← splitKey names
  match rest with
  | '=' :: rest =>
    let (value, rest) ← item (skipSpace rest)
    return ((path, key, value), rest)
  | _ => none

/-- The pairs of a table in braces, of which there is at least one. -/
def readPairs (item : Reader Value) : Nat → Reader (List (List String × String × Value))
  | 0, _ => none
  | fuel + 1, s => do
    let (pair, rest) ← readPair item s
    match skipSpace rest with
    | ',' :: rest =>
      let (pairs, rest) ← readPairs item fuel rest
      return (pair :: pairs, rest)
    | '}' :: rest => return ([pair], rest)
    | _ => none

def tableOfPairs (pairs : List (List String × String × Value)) : Option Value := do
  let t ← pairs.foldlM (fun t (path, key, value) => Table.enter path key value t)
    { origin := .inline }
  return t.value

def readWord (word : String) (value : Value) (s : List Char) : Option (Value × List Char) :=
  (word.toList.isPrefixOf? s).map (value, ·)

/-- A value that holds no more than `depth` values within each other. -/
def readValue : (depth : Nat) → Reader Value
  | depth, s =>
    match s with
    | '"' :: _ | '\'' :: _ => (readString s).map fun (text, rest) => (.string text, rest)
    | '[' :: rest =>
      match depth with
      | 0 => none
      | depth + 1 =>
        (readItems (readValue depth) s.length rest).map fun (items, rest) => (.array items, rest)
    | '{' :: rest =>
      match depth with
      | 0 => none
      | depth + 1 =>
        match skipSpace rest with
        | '}' :: rest => some (.table .inline [], rest)
        | _ => do
          let (pairs, rest) ← readPairs (readValue depth) s.length rest
          return (← tableOfPairs pairs, rest)
    | 't' :: _ => readWord "true" (.boolean true) s
    | 'f' :: _ => readWord "false" (.boolean false) s
    | 'i' :: _ => readWord "inf" .float s
    | 'n' :: _ => readWord "nan" .float s
    | _ => (readNumber s).map fun
      | (.integer value, rest) => (.integer value, rest)
      | (.float, rest) => (.float, rest)
      | (.moment, rest) => (.moment, rest)

/-- A document in the making: the finished tables, and the table opened last, which is to be put
under its path when the next one is opened. -/
structure Draft where
  root : Table := { origin := .header }
  current : Table := { origin := .header }
  path : List String := []
  /-- The current table is one of several of its name. -/
  repeated : Bool := false

namespace Draft

/-- Put the current table under its path. -/
def finish (d : Draft) : Option Table :=
  match splitKey d.path with
  | none => some d.current
  | some (path, key) =>
    d.root.update false (fun t =>
      match t.entries.lookup key, d.repeated with
      | none, false => some { t with entries := t.entries ++ [(key, d.current.value)] }
      | none, true => some { t with entries := t.entries ++ [(key, .tables [d.current.value])] }
      | some (.tables items), true =>
        some { t with entries := Entries.set key (.tables (items ++ [d.current.value])) t.entries }
      | some _, _ => none) path

/-- Open the table of a header under `key`. A table that was only implied so far is taken out of its
parent and goes on with the entries it has; tables of one name are opened again and again. -/
def reopen (repeated : Bool) (root : Table) (path : List String) (key : String) :
    Option (Table × Table) := do
  let parent ← root.find? path
  match parent.entries.lookup key, repeated with
  | none, _ => return (root, { origin := .header })
  | some (.tables _), true => return (root, { origin := .header })
  | some (.table .implied entries), false =>
    let root ← root.update false (fun t =>
      some { t with entries := t.entries.filter (·.1 ≠ key) }) path
    return (root, { origin := .header, entries })
  | some _, _ => none

def openTable (repeated : Bool) (names : List String) (d : Draft) : Option Draft := do
  let (path, key) ← splitKey names
  let root ← d.finish
  -- The names on the way have to lead somewhere, also where nothing is put there in the end.
  let root ← root.update false some path
  let (root, current) ← reopen repeated root path key
  return { root, current, path := names, repeated }

def enter (path : List String) (key : String) (value : Value) (d : Draft) : Option Draft := do
  return { d with current := ← d.current.enter path key value }

end Draft

/-- Read a header after its opening brackets, up to the end of its line. -/
def readHeader (repeated : Bool) (s : List Char) (d : Draft) : Option (Draft × List Char) := do
  let (names, rest) ← readKey s
  let rest ← (if repeated then [']', ']'] else [']']).isPrefixOf? rest
  let rest ← afterLine rest
  return (← d.openTable repeated names, rest)

/-- Read the next line that is not blank. -/
def readLine (s : List Char) (d : Draft) : Option (Draft × List Char) :=
  match s with
  | '[' :: '[' :: rest => readHeader true rest d
  | '[' :: rest => readHeader false rest d
  | _ => do
    let ((path, key, value), rest) ← readPair (readValue (nestingLimit - 1)) s
    let rest ← afterLine rest
    return (← d.enter path key value, rest)

def readLines : Nat → List Char → Draft → Option Draft
  | 0, _, _ => none
  | fuel + 1, s, d =>
    match skipSpace s with
    | [] => some d
    | '#' :: _ => do readLines fuel (← afterLine s) d
    | '\n' :: rest => readLines fuel rest d
    | '\r' :: '\n' :: rest => readLines fuel rest d
    | s => do
      let (d, rest) ← readLine s d
      readLines fuel rest d

def dropByteOrderMark : List Char → List Char
  | '\uFEFF' :: rest => rest
  | s => s

/-- The entries of a document, or `none` if the text is no document. -/
def parse (text : String) : Option Entries := do
  let s := dropByteOrderMark text.toList
  let d ← readLines (s.length + 1) s {}
  return (← d.finish).entries

end LogicConsole.Toml
