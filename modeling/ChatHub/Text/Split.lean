/-!
Cutting a text at a character, and looking for a part of it.
-/

namespace ChatHub.Text

/-- The text before the first `c`, and what follows it if there is one. -/
def cutAt (c : Char) : List Char → List Char × Option (List Char)
  | [] => ([], none)
  | d :: rest =>
      if d = c then ([], some rest)
      else
        let (before, after) := cutAt c rest
        (d :: before, after)

/-- The parts of a text between the characters `c`, of which there is one more than of those. -/
def splitAt (c : Char) : List Char → List (List Char)
  | [] => [[]]
  | d :: rest =>
      if d = c then [] :: splitAt c rest
      else match splitAt c rest with
        | part :: parts => (d :: part) :: parts
        | [] => [[d]]

/-- The text with the given parts between the characters `c`. -/
def joinWith (c : Char) : List (List Char) → List Char
  | [] => []
  | [part] => part
  | part :: parts => part ++ c :: joinWith c parts

/-- Whether `part` stands somewhere in a text. -/
def isInside (part : List Char) : List Char → Bool
  | [] => part.isEmpty
  | c :: rest => part.isPrefixOf (c :: rest) || isInside part rest

end ChatHub.Text
