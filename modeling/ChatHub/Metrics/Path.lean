import ChatHub.Text.Split
/-!
Paths as labels.  A segment that names one of many things is replaced, so that there are not as
many labels as there are things.
-/

namespace ChatHub.Metrics

/-- Whether a segment is a number, or looks like one of the usual long identifiers: 36 bytes
with a dash among them. -/
def isDynamic (segment : List Char) : Bool :=
  let isLong : Bool := (String.ofList segment).utf8ByteSize = 36
  !segment.isEmpty && (isLong && segment.contains '-' || segment.all Char.isDigit)

/-- What stands for a dynamic segment. -/
def placeholder : List Char := ":param".toList

def normalizeSegment (segment : List Char) : List Char :=
  if isDynamic segment then placeholder else segment

def normalizePath (path : String) : String :=
  String.ofList
    (Text.joinWith '/' ((Text.splitAt '/' path.toList).map normalizeSegment))

end ChatHub.Metrics
