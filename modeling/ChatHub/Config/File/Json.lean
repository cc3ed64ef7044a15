import ChatHub.Config.Setting
import ChatHub.Json.Number
import ChatHub.Json.Raw
/-!
Settings from a JSON document.
-/

namespace ChatHub.Config.File

open ChatHub.Json (Number Raw Shape)

/-- A number as a setting. -/
def number? (cs : List Char) : Option Setting :=
  (Number.ofText? cs).map fun n =>
    match n with
    | .integer n => .integer n
    | .decimal v => .number v

/-- A value that nests no deeper than `depth`.  All of it has to be sound, also the parts that
make no setting. -/
def setting? (depth : Nat) (v : Raw) : Option Setting :=
  match v.shape? with
  | none => none
  | some .null => some .null
  | some (.bool b) => some (.bool b)
  | some (.number text) => number? text
  | some (.string pieces) => (ChatHub.Json.text? pieces).map fun cs => .text (String.ofList cs)
  | some (.array items) =>
      match depth with
      | 0 => none
      | depth + 1 => (items.mapM (setting? depth)).map fun _ => .compound
  | some (.object members) =>
      match depth with
      | 0 => none
      | depth + 1 =>
          (members.mapM fun (name, v) =>
            match ChatHub.Json.text? name, setting? depth v with
            | some _, some _ => some ()
            | _, _ => none).map fun _ => .compound

/-- How deep a document may nest below its outermost object. -/
def depthLimit : Nat := 126

/-- The settings of a document, which has to be an object. -/
def json? (cs : List Char) : Option Source :=
  match Shape.ofText? cs with
  | some (.object members) =>
      members.mapM fun (name, v) =>
        match ChatHub.Json.text? name, setting? depthLimit v with
        | some n, some s => some (String.ofList n, s)
        | _, _ => none
  | _ => none

end ChatHub.Config.File
