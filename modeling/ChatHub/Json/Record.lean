import ChatHub.Json.Raw
/-!
Records with a fixed list of fields.  A record is read from an object, in any order and with
members that are passed over, or from an array that gives the fields in their order.
-/

namespace ChatHub.Json

/-- The fields that a text gave. -/
structure Record where
  fields : List (String × Raw)
  /-- The text was an array, which may end early but leaves no field out. -/
  positional : Bool
deriving Repr

namespace Record

/-- The members whose names are fields.  No field may come twice, and `decode` has to find a text
in every name, also in one that is passed over. -/
def selectWith? (decode : List Piece → Option (List Char)) (names : List String) :
    List (List Piece × Raw) → Option (List (String × Raw))
  | [] => some []
  | (name, v) :: rest =>
      match decode name, selectWith? decode names rest with
      | some n, some fields =>
          let n := String.ofList n
          if n ∈ names then
            if fields.any (·.1 == n) then none else some ((n, v) :: fields)
          else some fields
      | _, _ => none

/-- Reads one level of a record with the fields `names`, which `decode` finds in string
literals. -/
def ofTextWith? (decode : List Piece → Option (List Char)) (names : List String)
    (cs : List Char) : Option Record :=
  match Shape.ofText? cs with
  | some (.object members) =>
      (selectWith? decode names members).map fun fields => ⟨fields, false⟩
  | some (.array items) =>
      if items.length ≤ names.length then some ⟨names.zip items, true⟩ else none
  | _ => none

/-- Reads one level of a record with the fields `names`. -/
def ofText? : List String → List Char → Option Record := ofTextWith? text?

def get? (r : Record) (name : String) : Option Raw := r.fields.lookup name

/-- A field that has to be there. -/
def required? {α : Type} (r : Record) (name : String) (read : Raw → Option α) : Option α :=
  (r.get? name).bind read

/-- A field with a value for when it is not there. -/
def withDefault? {α : Type} (r : Record) (name : String) (read : Raw → Option α)
    (default : α) : Option α :=
  match r.get? name with
  | some v => read v
  | none => some default

/-- A field that an object may leave out, or give as `null`. -/
def optional? {α : Type} (r : Record) (name : String) (read : Raw → Option α) :
    Option (Option α) :=
  match r.get? name with
  | some v => v.nullable? read
  | none => if r.positional then none else some none

end Record

end ChatHub.Json
