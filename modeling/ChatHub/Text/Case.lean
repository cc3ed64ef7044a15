/-!
Letters A to Z in lower case.  All other characters stay as they are.
-/

namespace ChatHub.Text

def lowerChar (c : Char) : Char :=
  if 'A' ≤ c ∧ c ≤ 'Z' then Char.ofNat (c.toNat + 32) else c

def lowerCase (s : String) : String := String.ofList (s.toList.map lowerChar)

end ChatHub.Text
