import ChatHub.Config.Basic
import ChatHub.Config.Environment
import ChatHub.Config.File.Ini
import ChatHub.Config.File.Json
import ChatHub.Config.File.Json5
import ChatHub.Config.File.Ron
import ChatHub.Config.File.Toml
import ChatHub.Config.File.Yaml
/-!
Where a configuration comes from: defaults, over them a file if one is named, over that the
variables of the process.
-/

namespace ChatHub.Config

/-- The forms that a file may have. -/
inductive FileFormat where
  | ini
  | json
  | json5
  | ron
  | toml
  | yaml
deriving DecidableEq, Repr

/-- The part of a file's name behind its last point, if there is something before it. -/
def extension? (name : String) : Option String :=
  let base := ((Text.splitAt '/' name.toList).getLast?).getD []
  match (Text.splitAt '.' base).reverse with
  | last :: before :: rest =>
      if rest.isEmpty && before.isEmpty then none else some (String.ofList last)
  | _ => none

/-- A file's form shows in its name. -/
def FileFormat.ofName? (name : String) : Option FileFormat :=
  match extension? name with
  | some "ini" => some .ini
  | some "json" => some .json
  | some "json5" => some .json5
  | some "ron" => some .ron
  | some "toml" => some .toml
  | some "yaml" => some .yaml
  | some "yml" => some .yaml
  | _ => none

def FileFormat.read? : FileFormat → List Char → Option Source
  | ini => File.ini?
  | json => File.json?
  | json5 => File.json5?
  | ron => File.ron?
  | toml => File.toml?
  | yaml => File.yaml?

/-- A file that is named as a source.  One that is not there has no content. -/
structure NamedFile where
  name : String
  content : Option String
deriving DecidableEq, Repr

/-- A text without the mark that may stand at its start. -/
def withoutMark : List Char → List Char
  | '\ufeff' :: rest => rest
  | cs => cs

/-- What a file gives, if it can be read. -/
def NamedFile.source? (f : NamedFile) : Option Source := do
  let content ← f.content
  let format ← FileFormat.ofName? f.name
  format.read? (withoutMark content.toList)

/-- The value of a setting, or a default if it is not given. -/
def valueOr {α : Type} (settings : Settings) (name : String) (read : Setting → Option α)
    (default : α) : Option α :=
  match settings.get? name with
  | some s => read s
  | none => some default

/-- A configuration whose settings have the form they need. -/
def ofSettings? (settings : Settings) : Option Config := do
  let bindAddress ← valueOr settings "bind_addr"
    (fun s => s.text?.bind Net.SocketAddress.ofText?) default.bindAddress
  let secret ← valueOr settings "jwt_secret" Setting.text? default.secret
  let origin ← valueOr settings "allowed_origin" Setting.optionalText? default.origin
  let logLevel ← valueOr settings "log_level" Setting.text? default.logLevel
  let logFormat ← valueOr settings "log_format" Setting.text? default.logFormat
  let queueCapacity ← valueOr settings "send_queue_capacity" Setting.word? default.queueCapacity
  let maxConnections ← valueOr settings "max_connections" Setting.word? default.maxConnections
  let maxMessageSize ← valueOr settings "max_message_size" Setting.word? default.maxMessageSize
  some ⟨bindAddress, secret, origin, logLevel, logFormat, queueCapacity, maxConnections,
    maxMessageSize⟩

/-- What all sources together give, if each can be read. -/
def settings? (file : Option NamedFile) (environment : List (String × String)) : Option Settings :=
  match file with
  | none => some (Settings.ofSources [Settings.ofVariables environment])
  | some f => f.source?.map fun s => Settings.ofSources [s, Settings.ofVariables environment]

/-- The configuration of a server that may start. -/
def load (file : Option NamedFile) (environment : List (String × String)) :
    Except ConfigError Config :=
  match (settings? file environment).bind ofSettings? with
  | none => .error .load
  | some c =>
      match c.validate with
      | .ok () => .ok c
      | .error e => .error e

end ChatHub.Config
