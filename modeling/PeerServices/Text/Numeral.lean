/-!
# Decimal numerals

A numeral is digits with an optional sign in front. A number outside the range that its reader asks
for is refused like any other malformed text.
-/

namespace PeerServices.Text

def digitValue? (c : Char) : Option Nat :=
  if '0' ≤ c ∧ c ≤ '9' then some (c.toNat - 48) else none

/-- The number that a list of digits adds to a number read so far. -/
def readDigits : (sum : Nat) → List Char → Option Nat
  | sum, [] => some sum
  | sum, c :: rest => do
    let value ← digitValue? c
    readDigits (sum * 10 + value) rest

/-- Reads a numeral without sign, of at least one digit. -/
def readNat? : List Char → Option Nat
  | [] => none
  | digits => readDigits 0 digits

def readInt? : List Char → Option Int
  | '+' :: digits => (readNat? digits).map Int.ofNat
  | '-' :: digits => (readNat? digits).map fun n => -(n : Int)
  | digits => (readNat? digits).map Int.ofNat

def readInt64? (digits : List Char) : Option Int64 := do
  let n ← readInt? digits
  if Int64.minValue.toInt ≤ n ∧ n ≤ Int64.maxValue.toInt then some (Int64.ofInt n) else none

end PeerServices.Text
