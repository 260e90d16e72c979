import PeerServices.Bytes.Hex
import PeerServices.Text.Quoted

/-!
# Refused values

Why a text, a number or a key is not a value of the domain.
-/

namespace PeerServices

/-- Which half of a key pair a text was meant to give. -/
inductive KeyHalf
  | publicKey
  | secretKey
deriving DecidableEq, Repr

def KeyHalf.name : KeyHalf → String
  | .publicKey => "public key"
  | .secretKey => "secret key"

inductive KeyError
  | notHex (half : KeyHalf) (cause : Hex.Error)
  | wrongLength (half : KeyHalf)
  | notOnCurve
deriving DecidableEq, Repr

/-- The wording of a hexadecimal error. The bad byte is shown as the character of that number. -/
def Hex.Error.message : Hex.Error → String
  | .oddLength => "Odd number of digits"
  | .invalidDigit byte index =>
    "Invalid character " ++ Text.quoteChar (Char.ofNat byte.toNat) ++ " at position " ++
      toString index

def KeyError.message : KeyError → String
  | .notHex half cause => half.name ++ " is not hex: " ++ cause.message
  | .wrongLength half => "invalid " ++ half.name ++ " length (expected 32 bytes)"
  | .notOnCurve =>
    "invalid public key: signature error: Cannot decompress Edwards point"

inductive ValueError
  | nonPositiveServiceId (id : Int64)
  | malformed (kind value : String)
  /-- A title with a word that is not free for use. -/
  | reservedKeyword (word : String)
  | invalidKey (cause : KeyError)
deriving DecidableEq

def ValueError.message : ValueError → String
  | .nonPositiveServiceId id => "Service id must be positive: " ++ toString id.toInt
  | .malformed kind value => "Invalid " ++ kind ++ ": " ++ value
  | .reservedKeyword word => "\"" ++ word ++ "\" is a reserved keyword"
  | .invalidKey cause => "Invalid key: " ++ cause.message

end PeerServices
