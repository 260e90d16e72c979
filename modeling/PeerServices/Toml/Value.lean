/-!
# TOML values

The values of a TOML document, and the rules by which headers and dotted keys build its tables.

A table remembers how it came to be: a table written in one piece is closed, a table that a header
opened takes no dotted keys from outside and no second header, and a table that was only mentioned
on the way to another may still get a header of its own.
-/

namespace PeerServices.Toml

/-- How a table came to be. -/
inductive Origin
  /-- A header of its own, or the document itself. -/
  | header
  /-- It was mentioned in the header of a table below it. -/
  | implicit
  /-- It was mentioned in a dotted key. -/
  | dotted
  /-- It was written in one piece. -/
  | closed
deriving DecidableEq, Repr

inductive Value
  | string (text : String)
  | integer (value : Int)
  /-- A number with a fraction or an exponent, infinity or not a number, as written. -/
  | float (written : String)
  | boolean (value : Bool)
  | dateTime (written : String)
  /-- An array. One that headers built may grow by more headers. -/
  | array (grows : Bool) (items : List Value)
  | table (origin : Origin) (entries : List (String × Value))

abbrev Entries := List (String × Value)

def Entries.find? (entries : Entries) (key : String) : Option Value :=
  (List.find? (·.1 = key) entries).map (·.2)

/-- Gives a key a value, at its place if it has one. -/
def Entries.set (entries : Entries) (key : String) (value : Value) : Entries :=
  if entries.any (·.1 = key) then
    entries.map fun entry => if entry.1 = key then (key, value) else entry
  else entries ++ [(key, value)]

namespace Value

/-- A table that can be added to, with what puts its new entries back. An array that headers built
stands for its last table. -/
def opened : Value → Option (Origin × Entries × (Entries → Value))
  | .table .closed _ => none
  | .table origin entries => some (origin, entries, .table origin)
  | .array true items =>
    match items.getLast? with
    | some (.table origin entries) =>
      some (origin, entries, fun new => .array true (items.dropLast ++ [.table origin new]))
    | _ => none
  | _ => none

/-- Changes the table at the end of a path and creates the tables that are missing on the way. A
dotted path does not enter tables that have a header. -/
def changeAt (isDotted : Bool) (change : Origin → Entries → Option Entries) :
    (path : List String) → Value → Option Value
  | path, value => do
    let (origin, entries, rebuild) ← value.opened
    match path with
    | [] => return rebuild (← change origin entries)
    | key :: rest =>
      let child := (entries.find? key).getD (.table (if isDotted then .dotted else .implicit) [])
      if isDotted then
        if let .table .header _ := child then failure
      return rebuild (entries.set key (← changeAt isDotted change rest child))

def insertDotted (table : Value) (path : List String) (key : String) (value : Value) :
    Option Value :=
  changeAt true
    (fun origin entries =>
      if (path ≠ [] ∧ origin ≠ .dotted) ∨ (entries.find? key).isSome then none
      else some (entries.set key value))
    path table

/-- Opens the table of a header. -/
def openTable (root : Value) (path : List String) (key : String) : Option Value :=
  changeAt false
    (fun _ entries =>
      match entries.find? key with
      | none => some (entries.set key (.table .header []))
      | some (.table .implicit below) => some (entries.set key (.table .header below))
      | some _ => none)
    path root

def appendTable (root : Value) (path : List String) (key : String) : Option Value :=
  changeAt false
    (fun _ entries =>
      match entries.find? key with
      | none => some (entries.set key (.array true [.table .header []]))
      | some (.array true items) =>
        some (entries.set key (.array true (items ++ [.table .header []])))
      | some _ => none)
    path root

/-- Changes the table that the last header opened. -/
def changeCurrent (root : Value) (path : List String) (change : Value → Option Value) :
    Option Value :=
  changeAt false
    (fun _ entries => do
      match ← change (.table .header entries) with
      | .table _ changed => return changed
      | _ => none)
    path root

end Value

end PeerServices.Toml
