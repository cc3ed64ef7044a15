import ChatHub.Text.Blank
import ChatHub.Text.Case
/-!
Header fields of a request.  Names are compared without regard to the case of their letters; a
value counts as text only if it is made of visible ASCII characters, blanks and tabs.
-/

namespace ChatHub.Http

structure Header where
  name : String
  value : String
deriving DecidableEq, Repr

/-- The fields of a request in their order; a name may come more than once. -/
abbrev Headers := List Header

def isReadableChar (c : Char) : Bool := c == '\t' || (' ' ≤ c && c ≤ '~')

/-- The value as text, if it is one. -/
def Header.text? (h : Header) : Option String :=
  if h.value.toList.all isReadableChar then some h.value else none

/-- A field as it comes over a connection: blanks and tabs around a value are no part of it. -/
def Header.trimmed (h : Header) : Header :=
  { h with value := String.ofList (Text.trimWith Text.isBlankOrTab h.value.toList) }

namespace Headers

/-- Every field of a name, which is given in lower case. -/
def all (hs : Headers) (name : String) : Headers := hs.filter fun h => Text.lowerCase h.name == name

/-- The first field of a name. -/
def first? (hs : Headers) (name : String) : Option Header := (all hs name).head?

/-- The text of the first field of a name. -/
def text? (hs : Headers) (name : String) : Option String := (first? hs name).bind Header.text?

end Headers

end ChatHub.Http
