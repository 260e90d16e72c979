import PeerServices.Text.Parser
import PeerServices.Text.Quoted

/-!
# Socket addresses

An IPv4 or IPv6 address with a port. Texts are `1.2.3.4:80` and `[2001:db8::1%scope]:80`.

* `SocketAddress.parse?` refuses leading zeros in IPv4 numbers, and takes `::` for one or more zero
  groups and an IPv4 address for the last two groups of an IPv6 address.
* `SocketAddress.text` writes `::` for the first of the longest runs of at least two zero groups,
  and addresses of the range `::ffff:0:0/96` with their IPv4 part.
-/

namespace PeerServices

inductive SocketAddress
  /-- Four numbers below 256 and a port. -/
  | v4 (octets : List Nat) (port : Nat)
  /-- Eight groups below 65536, a scope (zero for none) and a port. -/
  | v6 (groups : List Nat) (scope port : Nat)
deriving DecidableEq, Repr

namespace SocketAddress

open Text Text.Parser

/-! ## Reading -/

/-- Reads a decimal number below `bound` with any number of digits. -/
def number (bound : Nat) : Parser Nat := do
  let digits ← takeWhile isDigit
  let n := ofDigits 10 digits
  if digits.isEmpty ∨ bound ≤ n then failure else return n

/-- Reads a number of an IPv4 address: at most three digits, no leading zero. -/
def octet : Parser Nat := do
  let digits ← takeWhile isDigit
  let n := ofDigits 10 digits
  if digits.isEmpty ∨ 3 < digits.length ∨ 256 ≤ n then failure
  else if digits.head? = some '0' ∧ 1 < digits.length then failure
  else return n

def ipv4 : Parser (List Nat) := do
  let a ← octet
  char '.'
  let b ← octet
  char '.'
  let c ← octet
  char '.'
  return [a, b, c, ← octet]

/-- Reads a group of an IPv6 address: one to four digits of base sixteen. -/
def group : Parser Nat := do
  let digits ← takeWhile (isDigitOf 16)
  if digits.isEmpty ∨ 4 < digits.length then failure else return ofDigits 16 digits

/-- Reads groups with colons between them, at most `limit`, until one is missing; `first` tells that
none came before. The second part tells whether an IPv4 address ended them. -/
def groups : (limit : Nat) → (first : Bool) → Parser (List Nat × Bool)
  | 0, _ => return ([], false)
  | limit + 1, first => do
    let separated {α : Type} (reader : Parser α) : Parser (Option α) := optional do
      if !first then char ':'
      reader
    let address ← if limit = 0 then pure none else separated ipv4
    match address with
    | some [a, b, c, d] => return ([a * 256 + b, c * 256 + d], true)
    | _ =>
      match ← separated group with
      | none => return ([], false)
      | some g =>
        let (rest, ended) ← groups limit false
        return (g :: rest, ended)

def ipv6 : Parser (List Nat) := do
  let (head, ended) ← groups 8 true
  if head.length = 8 then return head
  if ended then failure
  chars [':', ':']
  let (tail, _) ← groups (7 - head.length) true
  return head ++ List.replicate (8 - head.length - tail.length) 0 ++ tail

def port : Parser Nat := number 65536

def reader : Parser SocketAddress :=
  (do
    let octets ← ipv4
    char ':'
    return .v4 octets (← port)) <|>
  (do
    char '['
    let groups ← ipv6
    let scope ← optional do
      char '%'
      number UInt32.size
    chars [']', ':']
    return .v6 groups (scope.getD 0) (← port))

def parse? (s : String) : Option SocketAddress := reader.run? s.toList

/-! ## Writing -/

/-- Numbers with a separator between them. -/
def joined (separator : String) (write : Nat → String) (numbers : List Nat) : String :=
  separator.intercalate (numbers.map write)

/-- The length of the run of zeros at the front. -/
def zeroRun (groups : List Nat) : Nat := (groups.takeWhile (· = 0)).length

/-- Start and length of the first of the longest runs of zeros. -/
def longestZeroRun (groups : List Nat) : Nat × Nat :=
  (List.range groups.length).foldl
    (fun best start =>
      let length := zeroRun (groups.drop start)
      if best.2 < length then (start, length) else best)
    (0, 0)

def ipv6Text (groups : List Nat) : String :=
  if groups.take 6 = [0, 0, 0, 0, 0, 65535] then
    "::ffff:" ++ joined "." toString ((groups.drop 6).flatMap fun g => [g / 256, g % 256])
  else
    let (start, length) := longestZeroRun groups
    let hex := joined ":" Text.hexDigits
    if 1 < length then hex (groups.take start) ++ "::" ++ hex (groups.drop (start + length))
    else hex groups

def text : SocketAddress → String
  | .v4 octets port => joined "." toString octets ++ ":" ++ toString port
  | .v6 groups scope port =>
    let zone := if scope = 0 then "" else "%" ++ toString scope
    "[" ++ ipv6Text groups ++ zone ++ "]:" ++ toString port

end SocketAddress

end PeerServices
