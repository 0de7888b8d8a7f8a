/-!
Tables of a TOML document. A table knows how it came about, for that decides who may add to it:
a header opens a table once, keys with periods add only to tables that such keys have made, and a
table written as a value is closed.
-/
namespace LogicConsole.Toml

inductive Origin
  /-- Opened by a header of its own. -/
  | header
  /-- Named on the way to a header's table. -/
  | implied
  /-- Named on the way to the last name of a key. -/
  | dotted
  /-- Written in braces. -/
  | inline
  deriving DecidableEq, Repr

inductive Value
  | string (text : String)
  | integer (value : Int)
  | boolean (value : Bool)
  | float
  | moment
  | array (items : List Value)
  | table (origin : Origin) (entries : List (String × Value))
  /-- The tables opened by headers in double brackets. -/
  | tables (items : List Value)

abbrev Entries := List (String × Value)

namespace Entries

def set (key : String) (value : Value) : Entries → Entries
  | [] => [(key, value)]
  | (k, v) :: rest => if k = key then (key, value) :: rest else (k, v) :: set key value rest

end Entries

/-- A table in the making: how it came about, and its entries. -/
structure Table where
  origin : Origin
  entries : Entries := []

def Table.value (t : Table) : Value := .table t.origin t.entries

/-- Change the table that a path leads to, making the tables on the way that are missing. A key with
periods (`dotted`) passes only through tables that may be added to; a path goes on through the last
of several tables of one name. -/
def Table.update (dotted : Bool) (f : Table → Option Table) : List String → Table → Option Table
  | [], t => f t
  | key :: path, t => do
    match t.entries.lookup key with
    | none =>
      let child ← update dotted f path { origin := if dotted then .dotted else .implied }
      return { t with entries := Entries.set key child.value t.entries }
    | some (.table origin entries) =>
      if origin = .inline || (dotted && origin = .header) then none
      else
        let child ← update dotted f path { origin, entries }
        return { t with entries := Entries.set key child.value t.entries }
    | some (.tables items) =>
      match items.getLast? with
      | some (.table origin entries) =>
        let child ← update dotted f path { origin, entries }
        return { t with
          entries := Entries.set key (.tables (items.dropLast ++ [child.value])) t.entries }
      | _ => none
    | some _ => none

/-- The table that a path leads to. -/
def Table.find? (t : Table) : List String → Option Table
  | [] => some t
  | key :: path =>
    match t.entries.lookup key with
    | some (.table origin entries) => find? { origin, entries } path
    | some (.tables items) =>
      match items.getLast? with
      | some (.table origin entries) => find? { origin, entries } path
      | _ => none
    | _ => none

/-- Enter a value under a new key. A key without periods does not add to a table that keys with
periods have made, and one with periods adds to no other. -/
def Table.enter (path : List String) (key : String) (value : Value) (t : Table) : Option Table :=
  t.update true (fun t =>
    if (t.origin = .dotted) ↔ path = [] then none
    else if (t.entries.lookup key).isSome then none
    else some { t with entries := t.entries ++ [(key, value)] }) path

end LogicConsole.Toml
