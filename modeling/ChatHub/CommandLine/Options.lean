import ChatHub.Net.SocketAddress
import ChatHub.Text.Split
/-!
The options that the program is started with.
-/

namespace ChatHub.CommandLine

structure Options where
  /-- A file with settings. -/
  config : Option String
  bindAddress : Option Net.SocketAddress
  logLevel : Option String
  logFormat : Option String
deriving DecidableEq, Repr

/-- The options that take a value. -/
inductive Name where
  | config
  | bindAddress
  | logLevel
  | logFormat
deriving DecidableEq, Repr

/-- What the arguments ask for. -/
inductive Request where
  | run (o : Options)
  | help
  | version
  /-- They make no sense. -/
  | misuse
deriving DecidableEq, Repr

namespace Options

def none : Options := ⟨.none, .none, .none, .none⟩

/-- Gives an option its value.  None may be given twice, and the value has to have the form it
needs. -/
def give (o : Options) (name : Name) (value : String) : Option Options :=
  match name with
  | .config =>
      if o.config.isSome || value.isEmpty then .none else some { o with config := some value }
  | .bindAddress =>
      match o.bindAddress, Net.SocketAddress.ofText? value with
      | .none, some a => some { o with bindAddress := some a }
      | _, _ => .none
  | .logLevel => if o.logLevel.isSome then .none else some { o with logLevel := some value }
  | .logFormat => if o.logFormat.isSome then .none else some { o with logFormat := some value }

end Options

/-- What a long name means. -/
inductive LongName where
  | option (n : Name)
  | help
  | version
  | unknown
deriving DecidableEq, Repr

def LongName.ofText : String → LongName
  | "config" => option .config
  | "bind-addr" => option .bindAddress
  | "log-level" => option .logLevel
  | "log-format" => option .logFormat
  | "help" => help
  | "version" => version
  | _ => unknown

/-- Whether an argument cannot be the value of an option before it. -/
def looksLikeOption : List Char → Bool
  | '-' :: _ :: _ => true
  | _ => false

/-- Reads arguments from the left; `awaited` is an option whose value is still to come.  The first
that makes no sense, or that asks for help or the version, decides. -/
def readFrom (o : Options) (awaited : Option Name) : List String → Request
  | [] => if awaited.isSome then .misuse else .run o
  | arg :: rest =>
      let give (n : Name) (value : List Char) : Request :=
        match o.give n (String.ofList value) with
        | some o => readFrom o none rest
        | none => .misuse
      match awaited with
      | some n => if looksLikeOption arg.toList then .misuse else give n arg.toList
      | none =>
          match arg.toList with
          | ['-', '-'] => if rest.isEmpty then .run o else .misuse
          | '-' :: '-' :: long =>
              let (name, value) := Text.cutAt '=' long
              match LongName.ofText (String.ofList name), value with
              | .option n, some v => give n v
              | .option n, none => readFrom o (some n) rest
              | .help, none => .help
              | .version, none => .version
              | _, _ => .misuse
          | ['-', 'c'] => readFrom o (some .config) rest
          | '-' :: 'c' :: '=' :: value => give .config value
          | '-' :: 'c' :: value => give .config value
          | '-' :: 'h' :: _ => .help
          | '-' :: 'V' :: _ => .version
          | _ => .misuse

def read (args : List String) : Request := readFrom .none none args

/-- Lines that explain the options. -/
def helpLines : List String :=
  ["Chirm Server - WebSocket hub and voice signaling relay",
   "",
   "Usage: chirm-server [OPTIONS]",
   "",
   "Options:",
   "  -c, --config <CONFIG>          Path to configuration file (TOML, YAML or JSON)",
   "      --bind-addr <BIND_ADDR>    HTTP listen address, overrides the configuration",
   "      --log-level <LOG_LEVEL>    Log level (trace, debug, info, warn, error), " ++
     "overrides the configuration",
   "      --log-format <LOG_FORMAT>  Log format (pretty, json), overrides the configuration",
   "  -h, --help                     Print help",
   "  -V, --version                  Print version"]

end ChatHub.CommandLine
