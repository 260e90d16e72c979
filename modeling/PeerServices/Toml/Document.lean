import PeerServices.Toml.Scalar

/-!
# TOML documents

* `Toml.value`: reads a value; arrays and inline tables nest less than eighty deep.
* `Toml.parse?`: reads a document as its root table.
-/

namespace PeerServices.Toml

open Text Text.Parser

/-- How deep arrays, inline tables and dotted keys may nest. -/
def depthLimit : Nat := 80

def spaces : Parser Unit := do
  let _ ← takeWhile isSpace

def comment : Parser Unit := do
  char '#'
  let _ ← takeWhile isPlain

def blankLines : (fuel : Nat) → Parser Unit
  | 0 => return
  | fuel + 1 => do
    spaces
    match ← optional (lineEnd <|> comment) with
    | none => return
    | some () => blankLines fuel

def dottedKey : (fuel : Nat) → Parser (List String)
  | 0 => failure
  | fuel + 1 => do
    spaces
    let first ← simpleKey
    spaces
    match ← optional (char '.') with
    | none => return [first]
    | some () => return first :: (← dottedKey fuel)

def key : Parser (List String × String) := do
  let parts ← dottedKey (depthLimit - 1)
  match parts.getLast? with
  | none => failure
  | some last => return (parts.dropLast, last)

mutual

def value (depth : Nat) : (fuel : Nat) → Parser Value
  | 0 => failure
  | fuel + 1 => do
    match ← peek with
    | some '"' | some '\'' => string
    | some '[' =>
      if depthLimit ≤ depth + 1 then failure
      char '['
      return .array false (← arrayItems (depth + 1) fuel)
    | some '{' =>
      if depthLimit ≤ depth + 1 then failure
      char '{'
      spaces
      match ← optional (char '}') with
      | some () => return .table .closed []
      | none =>
        match ← inlineEntries (depth + 1) (.table .header []) fuel with
        | .table _ entries => return .table .closed entries
        | other => return other
    | some 't' =>
      chars ['t', 'r', 'u', 'e']
      return .boolean true
    | some 'f' =>
      chars ['f', 'a', 'l', 's', 'e']
      return .boolean false
    | _ => dateTime <|> float <|> integer

/-- Reads the items of an array up to its closing bracket. -/
def arrayItems (depth : Nat) : (fuel : Nat) → Parser (List Value)
  | 0 => failure
  | fuel + 1 => do
    blankLines fuel
    match ← optional (char ']') with
    | some () => return []
    | none =>
      let first ← value depth fuel
      blankLines fuel
      match ← optional (char ',') with
      | some () => return first :: (← arrayItems depth fuel)
      | none =>
        char ']'
        return [first]

/-- Reads the entries of an inline table up to its closing brace. -/
def inlineEntries (depth : Nat) (table : Value) : (fuel : Nat) → Parser Value
  | 0 => failure
  | fuel + 1 => do
    let (path, last) ← key
    char '='
    spaces
    let item ← value depth fuel
    spaces
    match table.insertDotted path last item with
    | none => failure
    | some table =>
      match ← optional (char ',') with
      | some () => inlineEntries depth table fuel
      | none =>
        char '}'
        return table

end

/-- Reads what may follow on a line, and its end. -/
def restOfLine : Parser Unit := do
  spaces
  let _ ← optional comment
  lineEnd <|> atEnd

/-- What a document looks like after some of its lines: the root, and the path of the table that
the last header opened. -/
structure Progress where
  root : Value
  current : List String

/-- Reads one line that is not blank. -/
def statement (fuel : Nat) (before : Progress) : Parser Progress := do
  let header (change : Value → List String → String → Option Value) : Parser Progress := do
    let (path, last) ← key
    match change before.root path last with
    | none => failure
    | some root => return { root, current := path ++ [last] }
  match ← optional (chars ['[', '[']) with
  | some () =>
    let after ← header Value.appendTable
    chars [']', ']']
    restOfLine
    return after
  | none =>
    match ← optional (char '[') with
    | some () =>
      let after ← header Value.openTable
      char ']'
      restOfLine
      return after
    | none =>
      let (path, last) ← key
      char '='
      spaces
      let item ← value 0 fuel
      restOfLine
      match before.root.changeCurrent before.current (·.insertDotted path last item) with
      | none => failure
      | some root => return { before with root }

def statements : (fuel : Nat) → Progress → Parser Value
  | 0, _ => failure
  | fuel + 1, progress => do
    blankLines fuel
    match ← peek with
    | none => return progress.root
    | some _ => statements fuel (← statement fuel progress)

/-- Reads a document as its root table. A byte order mark in front is passed over. -/
def parse? (text : String) : Option Value :=
  let input := match text.toList with
    | '\ufeff' :: rest => rest
    | other => other
  (statements (2 * input.length + 4) ⟨.table .header [], []⟩).run? input

end PeerServices.Toml
