import PeerServices.Codec.Serial
import PeerServices.Error.Value
import PeerServices.Text.Blank
import PeerServices.Text.Lowercase

/-!
# Descriptions

A title, a blurb and an image for people to see. Titles are cut to 15 and blurbs to 140 characters,
and a title that holds the reserved keyword in any case is refused, however far in it stands. What
is read from bytes passes the same rules.
-/

namespace PeerServices

structure Description where
  title : String
  blurb : String
  image : Bytes
deriving DecidableEq

namespace Description

/-- The word that no title may hold, in lowercase. -/
def reservedKeyword : String := "tether"

def maxTitleLength : Nat := 15

def maxBlurbLength : Nat := 140

def crop (limit : Nat) (s : String) : String := String.ofList (s.toList.take limit)

/-- Does the lowercase form of a title hold the reserved keyword? -/
def usesReservedKeyword (title : String) : Bool :=
  Text.occursIn reservedKeyword.toList (Text.lowercaseFrom [] title.toList)

def empty : Description := ⟨"", "", []⟩

instance : Inhabited Description := ⟨empty⟩

/-- A description with title and blurb cut to their limits. -/
def create (title blurb : String) (image : Bytes) : Except ValueError Description :=
  if usesReservedKeyword title then .error (.reservedKeyword reservedKeyword)
  else .ok { title := crop maxTitleLength title, blurb := crop maxBlurbLength blurb, image }

def titled (title : String) : Except ValueError Description := create title "" []

instance : Ord Description :=
  ⟨compareLex (compareOn title) (compareLex (compareOn blurb) (compareOn image))⟩

instance : Std.TransOrd Description :=
  inferInstanceAs (Std.TransCmp
    (compareLex (compareOn title) (compareLex (compareOn blurb) (compareOn image))))

instance : Serial Description where
  encode d := Codec.text d.title ++ Codec.text d.blurb ++ Codec.blob d.image
  read := do
    let title ← Codec.readText
    let blurb ← Codec.readText
    let image ← Codec.readBlob
    match create title blurb image with
    | .ok d => return d
    | .error e => throw (.invalidData "description" e.message)

end Description

end PeerServices
