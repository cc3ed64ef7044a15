import ChatHub.Token.Part
/-!
Public keys that a header may carry.  They are not used, but have to be of a known kind.
-/

namespace ChatHub.Token

open Json (Piece Raw Record)

/-- Names of the methods of signing and encrypting that a key may be for. -/
def keyMethods : List String :=
  ["HS256", "HS384", "HS512", "ES256", "ES384", "RS256", "RS384", "RS512", "PS256", "PS384",
   "PS512", "EdDSA", "RSA1_5", "RSA-OAEP", "RSA-OAEP-256"]

/-- Names of the curves that a key may be a point of. -/
def curves : List String := ["P-256", "P-384", "P-521", "Ed25519"]

/-- The fields that keys of all kinds may have, with what they may hold. -/
def commonFields : List (String × (Raw → Bool)) :=
  let isString (v : Raw) : Bool := (string? v).isSome
  let isList (v : Raw) : Bool := (v.list? string?).isSome
  let isEmptyObject (v : Raw) : Bool := v.shape? == some (.object [])
  let isMethod (v : Raw) : Bool :=
    (v.caseWith? literal? fun c => c.isNull || isEmptyObject c).any keyMethods.contains
  [("use", isString), ("key_ops", isList), ("alg", isMethod), ("kid", isString),
   ("x5u", isString), ("x5c", isList), ("x5t", isString), ("x5t#S256", isString)]

/-- A kind of keys, and the fields that a key of that kind has to have, all of them strings. -/
structure KeyKind where
  name : String
  onCurve : Bool
  strings : List String
deriving DecidableEq, Repr

def keyKinds : List KeyKind :=
  [⟨"EC", true, ["x", "y"]⟩, ⟨"RSA", false, ["n", "e"]⟩, ⟨"oct", false, ["k"]⟩,
   ⟨"OKP", true, ["x"]⟩]

/-- Whether members make a key of a kind.  Fields of other kinds do not matter. -/
def KeyKind.describes (kind : KeyKind) (members : List (List Piece × Raw)) : Bool :=
  let own := ["kty"] ++ (if kind.onCurve then ["crv"] else []) ++ kind.strings
  let isOneOf (names : List String) (v : Raw) : Bool :=
    (v.caseWith? literal? Raw.isNull).any names.contains
  match Record.selectWith? literal? own members with
  | none => false
  | some fields =>
      let holds (name : String) (p : Raw → Bool) : Bool := (fields.lookup name).any p
      holds "kty" (isOneOf [kind.name]) && (!kind.onCurve || holds "crv" (isOneOf curves)) &&
        kind.strings.all fun name => holds name fun v => (string? v).isSome

/-- Whether the name of a member is one of those given. -/
def isNamed (names : List String) (member : List Piece × Raw) : Bool :=
  (literal? member.1).any fun cs => names.contains (String.ofList cs)

/-- Whether a value is a key.  All that is in it has to be readable. -/
def isKey (v : Raw) : Bool :=
  match v.shape? with
  | some (.object members) =>
      let names := commonFields.map (·.1)
      Ending.ofValue roomInPart v == .complete &&
        (match Record.selectWith? literal? names members with
         | none => false
         | some fields =>
             fields.all fun (name, value) =>
               value.isNull || (commonFields.lookup name).any (· value)) &&
        keyKinds.any fun kind => kind.describes (members.filter (!isNamed names ·))
  | _ => false

end ChatHub.Token
