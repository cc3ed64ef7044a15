import ChatHub.Json.Number
import ChatHub.Json.Record
import ChatHub.Text.Bytes
import ChatHub.Token.Base64Url
/-!
The parts of a token that are JSON.  They are read as bytes: only strings that are looked at have to
be texts, so what is passed over may hold bytes that are no text.  While a part is read, each byte
stands as the character with its number.
-/

namespace ChatHub.Token

open Json (Piece Raw Record)

/-- A part of a token, byte for byte. -/
abbrev Part := List Char

def Part.ofBytes (bytes : List UInt8) : Part := bytes.map fun b => Char.ofNat b.toNat

/-- A part as it is written in a token. -/
def Part.decode? (cs : List Char) : Option Part := (Base64Url.decode? cs).map Part.ofBytes

/-- The bytes that a string literal stands for.  There are none if a half of a pair stands
alone. -/
def literalBytes? : List Piece → Option (List UInt8)
  | [] => some []
  | .plain c :: ps => (literalBytes? ps).map (c.toNat.toUInt8 :: ·)
  | .unit n :: .unit m :: ps =>
      if Json.isLead n && Json.isTrail m then
        (literalBytes? ps).map (Text.bytesOf (Json.paired n m) ++ ·)
      else if Json.isLead n || Json.isTrail n then none
      else (literalBytes? (.unit m :: ps)).map (Text.bytesOf (Char.ofNat n) ++ ·)
  | .unit n :: ps =>
      if Json.isLead n || Json.isTrail n then none
      else (literalBytes? ps).map (Text.bytesOf (Char.ofNat n) ++ ·)

/-- The text that a string literal stands for. -/
def literal? (ps : List Piece) : Option (List Char) := (literalBytes? ps).bind Text.ofBytes?

def string? : Raw → Option String := Raw.stringWith? literal?

/-- One level of a record with the given fields. -/
def record? : List String → Part → Option Record := Record.ofTextWith? literal?

/-! ## How far a value can be read -/

/-- How an attempt to read a value ends. -/
inductive Ending where
  /-- All of it could be read. -/
  | complete
  /-- Something could not be read, and the attempt ended where the value does. -/
  | behind
  /-- The attempt ended inside of the value. -/
  | inside
deriving DecidableEq, Repr

namespace Ending

/-- Where the first half of a pair that stands alone ends an attempt.  It takes one character more,
which may be the closing quote. -/
def ofHalves : List Piece → Option Ending
  | [] => none
  | .plain _ :: ps => ofHalves ps
  | .unit n :: .unit m :: ps =>
      if Json.isLead n && Json.isTrail m then ofHalves ps
      else if Json.isLead n || Json.isTrail n then some inside
      else ofHalves (.unit m :: ps)
  | .unit n :: ps =>
      if Json.isLead n then some (if ps.isEmpty then behind else inside)
      else if Json.isTrail n then some inside
      else ofHalves ps

/-- A literal with bytes that are no text is read to its end. -/
def ofString (ps : List Piece) : Ending :=
  if (literal? ps).isSome then complete else (ofHalves ps).getD behind

/-- A number that is too large is read to its end, unless its exponent is. -/
def ofNumber (cs : List Char) : Ending :=
  if (Json.Number.ofText? cs).isSome then complete
  else if Json.Number.exponentOverflows cs then inside
  else behind

/-- An array or an object ends with its last part, if it is only there that something could not be
read. -/
def ofParts : List Ending → Ending
  | [] => complete
  | [e] => e
  | complete :: es => ofParts es
  | _ :: _ => inside

/-- A value of any kind, in which no more than `room` arrays and objects may be open at a time. -/
def ofValue (room : Nat) (v : Raw) : Ending :=
  match v.shape? with
  | some (.string ps) => ofString ps
  | some (.number cs) => ofNumber cs
  | some (.array items) =>
      match room with
      | 0 => inside
      | room + 1 => ofParts (items.map (ofValue room))
  | some (.object members) =>
      match room with
      | 0 => inside
      | room + 1 =>
          ofParts (members.map fun (name, v) =>
            if (literal? name).isSome then ofValue room v else inside)
  | some _ => complete
  | none => inside

/-- A value that should have no parts.  An attempt at one that has goes no further than its first
bracket; if it takes that, it goes on to a closing one behind it. -/
def ofScalar (takesBracket : Bool) (v : Raw) : Ending :=
  match v.shape? with
  | some (.array items) => if takesBracket && items.isEmpty then behind else inside
  | some (.object members) => if takesBracket && members.isEmpty then behind else inside
  | _ => ofValue 0 v

end Ending

/-- How many arrays and objects may be open in a value of a part. -/
def roomInPart : Nat := 126

end ChatHub.Token
