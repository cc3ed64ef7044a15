import ChatHub.Config.Setting
/-!
Settings from the variables of a process.  A variable belongs to the server if its name starts
with `CHIRM_`, in any case; what its text looks like decides what it is.
-/

namespace ChatHub

/-- A truth value, a whole number, a decimal, or else the text itself. -/
def Setting.ofVariable (s : String) : Setting :=
  match Text.lowerCase s with
  | "true" => .bool true
  | "false" => .bool false
  | _ =>
      match Decimal.integer? s.toList with
      | some n => .integer n
      | none =>
          match Decimal.Value.ofText? s.toList with
          | some v => .number v
          | none => .text s

namespace Settings

/-- Start of the names of the variables. -/
def variableStart : List Char := ['c', 'h', 'i', 'r', 'm', '_']

/-- The setting that a variable is for. -/
def settingName? (v : String) : Option String :=
  let cs := v.toList.map Text.lowerChar
  if variableStart.isPrefixOf cs then some (String.ofList (cs.drop variableStart.length)) else none

/-- The settings that variables give, in their order. -/
def ofVariables (environment : List (String × String)) : Source :=
  environment.filterMap fun (name, value) =>
    (settingName? name).map fun n => (n, Setting.ofVariable value)

end Settings

end ChatHub
