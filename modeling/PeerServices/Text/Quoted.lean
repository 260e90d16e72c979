/-!
# Quoted characters

A character between single quotes, in ASCII-safe form: control characters, the no-break space and
the soft hyphen are written as escapes, and so are the quote and the backslash. Covers the
characters below U+0100, which is what a single byte can stand for.
-/

namespace PeerServices.Text

def hexDigits (n : Nat) : String := String.ofList (Nat.toDigits 16 n)

/-- How a character below U+0100 stands between single quotes. -/
def escapeChar (c : Char) : String :=
  let n := c.toNat
  if n = 0 then "\\0"
  else if c = '\t' then "\\t"
  else if c = '\n' then "\\n"
  else if c = '\r' then "\\r"
  else if c = '\'' then "\\'"
  else if c = '\\' then "\\\\"
  else if n < 0x20 ∨ (0x7f ≤ n ∧ n ≤ 0xa0) ∨ n = 0xad then "\\u\x7b" ++ hexDigits n ++ "\x7d"
  else String.singleton c

def quoteChar (c : Char) : String := "'" ++ escapeChar c ++ "'"

end PeerServices.Text
