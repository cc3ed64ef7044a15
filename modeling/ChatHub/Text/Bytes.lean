/-!
Texts as bytes.
-/

namespace ChatHub.Text

/-- The text whose encoding the bytes are, if they are one. -/
def ofBytes? (bytes : List UInt8) : Option (List Char) :=
  (String.fromUTF8? ⟨bytes.toArray⟩).map String.toList

/-- The bytes of a character. -/
def bytesOf (c : Char) : List UInt8 := (String.ofList [c]).toUTF8.data.toList

end ChatHub.Text
