/-!
Blank space at the ends of a text.
-/

namespace ChatHub.Text

/-- The characters with the Unicode property of white space. -/
def isSpace (c : Char) : Bool :=
  let n := c.toNat
  (9 ≤ n && n ≤ 13) || n = 0x20 || n = 0x85 || n = 0xA0 || n = 0x1680 ||
    (0x2000 ≤ n && n ≤ 0x200A) || n = 0x2028 || n = 0x2029 || n = 0x202F || n = 0x205F ||
    n = 0x3000

/-- The blank characters of a line in most formats. -/
def isBlankOrTab (c : Char) : Bool := c == ' ' || c == '\t'

/-- A text without the characters of a kind at its ends. -/
def trimWith (p : Char → Bool) (cs : List Char) : List Char :=
  ((cs.dropWhile p).reverse.dropWhile p).reverse

def trim (s : String) : String := String.ofList (trimWith isSpace s.toList)

end ChatHub.Text
