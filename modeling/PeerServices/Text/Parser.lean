import PeerServices.Text.Numeral

/-!
# Readers of text

A text reader takes what it needs from the front of a list of characters, or fails and leaves the
choice to another reader.
-/

namespace PeerServices.Text

/-- A reader of text: a value and what is left, or nothing. -/
abbrev Parser := StateT (List Char) Option

namespace Parser

def one (test : Char → Bool) : Parser Char
  | c :: rest => if test c then some (c, rest) else none
  | [] => none

def char (c : Char) : Parser Unit := do
  let _ ← one (· = c)

def chars : List Char → Parser Unit
  | [] => return
  | c :: rest => do
    char c
    chars rest

/-- Takes the longest front of characters that pass a test. -/
def takeWhile (test : Char → Bool) : Parser (List Char) := fun input =>
  some (input.takeWhile test, input.dropWhile test)

def exactly (count : Nat) (test : Char → Bool) : Parser (List Char) := fun input =>
  let front := input.take count
  if front.length = count ∧ front.all test then some (front, input.drop count) else none

def peek : Parser (Option Char) := fun input => some (input.head?, input)

def atEnd : Parser Unit
  | [] => some ((), [])
  | _ :: _ => none

/-- What a reader gives when it takes a whole text. -/
def run? {α : Type} (reader : Parser α) (input : List Char) : Option α :=
  match reader input with
  | some (value, []) => some value
  | _ => none

end Parser

def isDigit (c : Char) : Bool := '0' ≤ c && c ≤ '9'

/-- The value of a digit of any base up to sixteen, in either case. -/
def digitOf (c : Char) : Nat :=
  if 'a' ≤ c then c.toNat - 87 else if 'A' ≤ c then c.toNat - 55 else c.toNat - 48

/-- Is the character a digit of the base, in either case? -/
def isDigitOf (base : Nat) (c : Char) : Bool :=
  (isDigit c || ('a' ≤ c && c ≤ 'f') || ('A' ≤ c && c ≤ 'F')) && digitOf c < base

def ofDigits (base : Nat) (digits : List Char) : Nat :=
  digits.foldl (fun n c => n * base + digitOf c) 0

end PeerServices.Text
