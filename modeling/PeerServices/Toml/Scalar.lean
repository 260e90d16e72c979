import PeerServices.Text.Parser
import PeerServices.Toml.Value

/-!
# TOML strings, numbers and dates

Readers of the values that hold no other values, and of keys.

* `basicString`, `literalString` and their forms of several lines.
* `integer`: decimal, hexadecimal, octal and binary, within 64 bits.
* `float`: a decimal number whose nearest double is finite, or a special value.
* `dateTime`: a date, a time, or both with an offset.
-/

namespace PeerServices.Toml

open Text Text.Parser

/-! ## Strings -/

/-- Is the character allowed in comments and strings as it stands? Control characters other than the
tab are not. -/
def isPlain (c : Char) : Bool := c = '\t' || (0x20 ≤ c.toNat && c.toNat ≠ 0x7f)

def isSpace (c : Char) : Bool := c = ' ' || c = '\t'

/-- The character of a code point in digits of base sixteen, if it is one. -/
def scalar? (digits : List Char) : Option Char :=
  let n := ofDigits 16 digits
  if digits.all (isDigitOf 16) ∧ n.isValidChar then some (Char.ofNat n) else none

/-- The character that a one-letter escape stands for. -/
def shortEscape? : Char → Option Char
  | 'b' => some '\x08'
  | 't' => some '\t'
  | 'n' => some '\n'
  | 'f' => some '\x0c'
  | 'r' => some '\r'
  | '"' => some '"'
  | '\\' => some '\\'
  | _ => none

/-- Reads a string of one line up to its closing quote. -/
def basicRest : Parser (List Char)
  | '"' :: rest => some ([], rest)
  | '\\' :: 'u' :: a :: b :: c :: d :: rest => do
    let char ← scalar? [a, b, c, d]
    let (more, rest) ← basicRest rest
    return (char :: more, rest)
  | '\\' :: 'U' :: a :: b :: c :: d :: e :: f :: g :: h :: rest => do
    let char ← scalar? [a, b, c, d, e, f, g, h]
    let (more, rest) ← basicRest rest
    return (char :: more, rest)
  | '\\' :: c :: rest => do
    let char ← shortEscape? c
    let (more, rest) ← basicRest rest
    return (char :: more, rest)
  | c :: rest =>
    if isPlain c then do
      let (more, rest) ← basicRest rest
      return (c :: more, rest)
    else none
  | [] => none

/-- Where the reader of a string of several lines stands. -/
inductive LineMode
  /-- In the text. -/
  | text
  /-- After a backslash, before the end of its line. -/
  | escapedSpace
  /-- In the white space of the lines after an escaped line end. -/
  | skipping
deriving DecidableEq

/-- Reads a string of several lines up to its closing quotes, of which two may belong to the string.
A backslash at the end of a line drops the white space that follows. -/
def multilineRest : LineMode → Parser (List Char)
  | _, [] => none
  | mode, '\r' :: '\n' :: rest =>
    match mode with
    | .text => do
      let (more, rest) ← multilineRest .text rest
      return ('\n' :: more, rest)
    | _ => multilineRest .skipping rest
  | mode, '\n' :: rest =>
    match mode with
    | .text => do
      let (more, rest) ← multilineRest .text rest
      return ('\n' :: more, rest)
    | _ => multilineRest .skipping rest
  | .escapedSpace, c :: rest => if isSpace c then multilineRest .escapedSpace rest else none
  | .skipping, ' ' :: rest => multilineRest .skipping rest
  | .skipping, '\t' :: rest => multilineRest .skipping rest
  | _, '"' :: '"' :: '"' :: '"' :: '"' :: rest => some (['"', '"'], rest)
  | _, '"' :: '"' :: '"' :: '"' :: rest => some (['"'], rest)
  | _, '"' :: '"' :: '"' :: rest => some ([], rest)
  | _, '\\' :: 'u' :: a :: b :: c :: d :: rest => do
    let char ← scalar? [a, b, c, d]
    let (more, rest) ← multilineRest .text rest
    return (char :: more, rest)
  | _, '\\' :: 'U' :: a :: b :: c :: d :: e :: f :: g :: h :: rest => do
    let char ← scalar? [a, b, c, d, e, f, g, h]
    let (more, rest) ← multilineRest .text rest
    return (char :: more, rest)
  | _, '\\' :: '\n' :: rest => multilineRest .skipping rest
  | _, '\\' :: '\r' :: '\n' :: rest => multilineRest .skipping rest
  | _, '\\' :: c :: rest =>
    if isSpace c then multilineRest .escapedSpace rest
    else do
      let char ← shortEscape? c
      let (more, rest) ← multilineRest .text rest
      return (char :: more, rest)
  | _, c :: rest =>
    if isPlain c then do
      let (more, rest) ← multilineRest .text rest
      return (c :: more, rest)
    else none

/-- Reads a literal string of several lines up to its closing quotes. -/
def multilineLiteralRest : Parser (List Char)
  | [] => none
  | '\'' :: '\'' :: '\'' :: '\'' :: '\'' :: rest => some (['\'', '\''], rest)
  | '\'' :: '\'' :: '\'' :: '\'' :: rest => some (['\''], rest)
  | '\'' :: '\'' :: '\'' :: rest => some ([], rest)
  | '\r' :: '\n' :: rest => do
    let (more, rest) ← multilineLiteralRest rest
    return ('\n' :: more, rest)
  | c :: rest =>
    if isPlain c ∨ c = '\n' then do
      let (more, rest) ← multilineLiteralRest rest
      return (c :: more, rest)
    else none

def lineEnd : Parser Unit
  | '\n' :: rest => some ((), rest)
  | '\r' :: '\n' :: rest => some ((), rest)
  | _ => none

def basicString : Parser (List Char) := do
  char '"'
  basicRest

def literalString : Parser (List Char) := do
  char '\''
  let body ← takeWhile fun c => isPlain c && c ≠ '\''
  char '\''
  return body

def string : Parser Value := do
  let body ←
    (do
      chars ['"', '"', '"']
      let _ ← optional lineEnd
      multilineRest .text) <|>
    (do
      chars ['\'', '\'', '\'']
      let _ ← optional lineEnd
      multilineLiteralRest) <|>
    basicString <|> literalString
  return .string (String.ofList body)

def isBareKeyChar (c : Char) : Bool := c.isAlphanum || c = '-' || c = '_'

def simpleKey : Parser String := do
  match ← peek with
  | some '"' => return String.ofList (← basicString)
  | some '\'' => return String.ofList (← literalString)
  | _ =>
    let name ← takeWhile isBareKeyChar
    if name.isEmpty then failure else return String.ofList name

/-! ## Numbers -/

/-- Reads digits of a base, where a single underscore may stand between two; gives the digits. -/
def digitsWith (base : Nat) : (started : Bool) → Parser (List Char)
  | started, '_' :: c :: rest =>
    if started && isDigitOf base c then do
      let (more, rest) ← digitsWith base true rest
      return (c :: more, rest)
    else if started then some ([], '_' :: c :: rest) else none
  | started, c :: rest =>
    if isDigitOf base c then do
      let (more, rest) ← digitsWith base true rest
      return (c :: more, rest)
    else if started then some ([], c :: rest) else none
  | started, [] => if started then some ([], []) else none

def digits (base : Nat) : Parser (List Char) := digitsWith base false

/-- Reads an optional sign; tells whether it was a minus. -/
def sign : Parser Bool := do
  match ← optional (one fun c => c = '+' || c = '-') with
  | some '-' => return true
  | _ => return false

def wholePart : Parser (List Char) := do
  match ← peek with
  | some '0' =>
    char '0'
    return ['0']
  | _ => digits 10

def integer : Parser Value := do
  let based (letter : Char) (base : Nat) : Parser Int := do
    chars ['0', letter]
    return ofDigits base (← digits base)
  let decimal : Parser Int := do
    let negative ← sign
    let n := ofDigits 10 (← wholePart)
    return if negative then -n else n
  let n ← based 'x' 16 <|> based 'o' 8 <|> based 'b' 2 <|> decimal
  if Int64.minValue.toInt ≤ n ∧ n ≤ Int64.maxValue.toInt then return .integer n else failure

/-- Is the double that is nearest to `whole . fraction × 10 ^ exponent` infinite? -/
def overflows (mantissa : List Char) (fractionLength : Nat) (exponent : Int) : Bool :=
  let n := ofDigits 10 mantissa
  let scale := exponent - fractionLength
  let magnitude : Int := (Nat.toDigits 10 n).length + scale
  if n = 0 ∨ magnitude < 300 then false
  else if 320 < magnitude then true
  else
    let limit := Nat.pow 2 1024 - Nat.pow 2 970
    if 0 ≤ scale then limit ≤ n * Nat.pow 10 scale.toNat else limit * Nat.pow 10 (-scale).toNat ≤ n

def fractionPart : Parser (List Char) := do
  char '.'
  digits 10

def exponentPart : Parser Int := do
  let _ ← one fun c => c = 'e' || c = 'E'
  let negative ← sign
  let n : Int := ofDigits 10 (← digits 10)
  return if negative then -n else n

def float : Parser Value := fun input => do
  let number : Parser Unit := do
    let negative ← sign
    let whole ← wholePart
    let fraction ← optional fractionPart
    let exponent ← optional exponentPart
    if fraction.isNone ∧ exponent.isNone then failure
    let shown := fraction.getD []
    if !negative ∧ overflows (whole ++ shown) shown.length (exponent.getD 0) then failure
  let special : Parser Unit := do
    let _ ← sign
    chars ['i', 'n', 'f'] <|> chars ['n', 'a', 'n']
  let ((), rest) ← (number <|> special) input
  return (.float (String.ofList (input.take (input.length - rest.length))), rest)

/-! ## Dates and times -/

/-- Reads a number of exactly `count` digits between two bounds. -/
def fixedNumber (count low high : Nat) : Parser Nat := do
  let n := ofDigits 10 (← exactly count isDigit)
  if low ≤ n ∧ n ≤ high then return n else failure

def daysOfMonth (year month : Nat) : Nat :=
  if month = 2 then
    if year % 4 = 0 ∧ (year % 100 ≠ 0 ∨ year % 400 = 0) then 29 else 28
  else if month = 4 ∨ month = 6 ∨ month = 9 ∨ month = 11 then 30
  else 31

def date : Parser Unit := do
  let year ← fixedNumber 4 0 9999
  char '-'
  let month ← fixedNumber 2 1 12
  char '-'
  let _ ← fixedNumber 2 1 (daysOfMonth year month)

def time : Parser Unit := do
  let _ ← fixedNumber 2 0 23
  char ':'
  let _ ← fixedNumber 2 0 59
  char ':'
  let _ ← fixedNumber 2 0 60
  let _ ← optional do
    char '.'
    let shown ← takeWhile isDigit
    if shown.isEmpty then failure

def offset : Parser Unit := do
  match ← one fun c => c = 'Z' || c = 'z' || c = '+' || c = '-' with
  | '+' | '-' =>
    let _ ← fixedNumber 2 0 23
    char ':'
    let _ ← fixedNumber 2 0 59
  | _ => return

def dateTime : Parser Value := fun input => do
  let both : Parser Unit := do
    date
    let _ ← optional do
      let _ ← one fun c => c = 'T' || c = 't' || c = ' '
      time
      let _ ← optional offset
  let ((), rest) ← (both <|> time) input
  return (.dateTime (String.ofList (input.take (input.length - rest.length))), rest)

end PeerServices.Toml
