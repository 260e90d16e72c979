/-!
# Durations

A span of time in whole nanoseconds. Its text uses the largest of the units s, ms, µs and ns of
which there is at least one, with a decimal fraction that has no trailing zeros.
-/

namespace PeerServices

structure Duration where
  nanoseconds : Nat
deriving DecidableEq

namespace Duration

instance : Inhabited Duration := ⟨⟨0⟩⟩

def ofMilliseconds (n : Nat) : Duration := ⟨n * 1000000⟩

def ofSeconds (n : Nat) : Duration := ⟨n * 1000000000⟩

/-- The decimal digits of `n` below `10 ^ width`, with leading zeros. -/
def digits : (width : Nat) → (n : Nat) → List Char
  | 0, _ => []
  | width + 1, n => digits width (n / 10) ++ [Char.ofNat (48 + n % 10)]

/-- A fraction of `width` digits after a point, without trailing zeros; nothing for zero. -/
def fraction (width n : Nat) : String :=
  match ((digits width n).reverse.dropWhile (· = '0')).reverse with
  | [] => ""
  | shown => "." ++ String.ofList shown

def amount (n width : Nat) : String :=
  toString (n / Nat.pow 10 width) ++ fraction width (n % Nat.pow 10 width)

def text (d : Duration) : String :=
  let n := d.nanoseconds
  if 1000000000 ≤ n then amount n 9 ++ "s"
  else if 1000000 ≤ n then amount n 6 ++ "ms"
  else if 1000 ≤ n then amount n 3 ++ "µs"
  else toString n ++ "ns"

end Duration

end PeerServices
