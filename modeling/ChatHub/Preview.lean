/-!
The start of a message, for the digest of a new one.  Texts are kept as bytes, so it is found by
the place of a byte, and cut off there.
-/

namespace ChatHub

/-- Most characters of a message that a preview shows. -/
def previewLength : Nat := 120

/-- The places of characters that stand one after another, the first of them at `p`. -/
def charPlaces (p : String.Pos.Raw) : List Char → List String.Pos.Raw
  | [] => []
  | c :: cs => p :: charPlaces (p + c) cs

/-- The place of the first character that a preview leaves out, if it leaves out any. -/
def previewEnd? (content : String) : Option String.Pos.Raw :=
  (charPlaces 0 content.toList)[previewLength]?

/-- What stands before a place.  A place in the middle of a character, or behind the end, cannot be
cut at. -/
def before? (content : String) (p : String.Pos.Raw) : Option String :=
  (content.pos? p).map fun p => (content.sliceTo p).copy

/-- A message itself if it is short, or else its first characters and an ellipsis. -/
def preview? (content : String) : Option String :=
  match previewEnd? content with
  | some p => (before? content p).map (· ++ "…")
  | none => some content

/-- The preview of a message, which is always there to be cut out. -/
def preview (content : String) : String := (preview? content).getD content

end ChatHub
