import ChatHub.Decimal.Literal
import ChatHub.Logging.Level
import ChatHub.Logging.Pattern
import ChatHub.Text.Blank
import ChatHub.Text.Letter
import ChatHub.Text.Split
/-!
One rule of a filter: a level, or a target with or without a span, fields and a level.  Examples
are `info`, `server=debug`, `server[connect]` and `[\x7bversion\x7d]=off`.
-/

namespace ChatHub.Logging

structure Directive where
  /-- Start of the targets it applies to; all of them if there is none. -/
  target : Option (List Char)
  /-- It applies only inside of some span, or to some values of fields, and to no entry here. -/
  dynamic : Bool
  /-- The fields that an entry must have. -/
  fields : List (List Char)
  bound : Nat
deriving DecidableEq, Repr

namespace Directive

/-- The rule for all entries. -/
def ofBound (bound : Nat) : Directive := ⟨none, false, [], bound⟩

/-- What the characters read so far have come to.  A place is where a piece began. -/
inductive Place where
  | start
  | word (first : Nat)
  | span (first : Nat)
  | field (first : Nat)
  | fields
  | target
  | level (first : Nat)
deriving DecidableEq, Repr

/-- A directive of which a part has been read. -/
structure Draft where
  place : Place
  directive : Directive
deriving DecidableEq, Repr

/-- The piece from one place up to another. -/
def piece (text : List Char) (first last : Nat) : List Char :=
  (text.take last).drop first

def isFirst (c : Char) : Bool :=
  c == '-' || c == ':' || c == '_' || Text.isLetterOrNumber c

/-- A value for a field: a number, or a pattern. -/
def isFieldValue (value : List Char) : Bool :=
  (Decimal.Value.ofText? value).isSome || isPattern value

/-- A field has a name, and may have a value behind an equals sign. -/
def addField (d : Directive) (field : List Char) : Option Directive :=
  if field.isEmpty then none
  else
    match Text.cutAt '=' field with
    | (name, none) => some { d with fields := d.fields ++ [name] }
    | (_, some rest) =>
        if isFieldValue (Text.cutAt '=' rest).1 then some { d with dynamic := true } else none

/-- Goes on by one character, the one at the place `i`. -/
def Draft.step (text : List Char) (i : Nat) (c : Char) (draft : Draft) : Option Draft :=
  let d := draft.directive
  match draft.place with
  | .start =>
      if c = '[' then some ⟨.span (i + 1), d⟩
      else if isFirst c then some ⟨.word i, d⟩
      else none
  | .word first =>
      if c = '=' then some ⟨.level (i + 1), { d with target := piece text first i }⟩
      else if c = '[' then some ⟨.span (i + 1), { d with target := piece text first i }⟩
      else some draft
  | .span first =>
      if c = ']' then some ⟨.target, { d with dynamic := true }⟩
      else if c = '\x7b' then
        some ⟨.field (i + 1), { d with dynamic := d.dynamic || !(piece text first i).isEmpty }⟩
      else some draft
  | .field first =>
      if c = '\x7d' then (d.addField (piece text first i)).map (⟨.fields, ·⟩) else some draft
  | .fields => if c = ']' then some ⟨.target, d⟩ else none
  | .target => if c = '=' then some ⟨.level (i + 1), d⟩ else none
  | .level _ => some draft

/-- The end of a directive.  One without a level lets everything through. -/
def Draft.finish (text : List Char) (draft : Draft) : Option Directive :=
  let d := draft.directive
  match draft.place with
  | .word first =>
      let word := text.drop first
      match bound? word with
      | some b => some (ofBound b)
      | none => some { d with target := word }
  | .level first =>
      let word := text.drop first
      if word.isEmpty then some d else (bound? word).map fun b => { d with bound := b }
  | .target => some d
  | _ => none

def steps (text : List Char) : List Char → Nat → Draft → Option Draft
  | [], _, draft => some draft
  | c :: rest, i, draft => (draft.step text i c).bind (steps text rest (i + 1))

/-- Reads a directive.  The places are found in the text without the blanks at its ends, but the
pieces are those of the text with them. -/
def ofText? (text : List Char) : Option Directive :=
  (steps text (Text.trimWith Text.isSpace text) 0 ⟨.start, ofBound Level.trace.rank⟩).bind
    (Draft.finish text)

def appliesTo (target : String) (fields : List String) (d : Directive) : Bool :=
  !d.dynamic && d.target.all (fun t => t.isPrefixOf target.toList) &&
    d.fields.all fun name => fields.contains (String.ofList name)

/-- A longer target is more specific than a shorter one or none, then more fields than fewer. -/
def atMostAsSpecific (a b : Directive) : Bool :=
  let length (d : Directive) : Nat := (d.target.map (·.length + 1)).getD 0
  length a < length b || (length a = length b &&
    (a.fields.length < b.fields.length ||
      (a.fields.length = b.fields.length && !decide (b.fields < a.fields))))

end Directive

end ChatHub.Logging
