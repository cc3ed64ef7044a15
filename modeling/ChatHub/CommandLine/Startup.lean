import ChatHub.CommandLine.Options
import ChatHub.Config.Load
import ChatHub.Logging.Entry
import ChatHub.Server.State
/-!
The life of the program from its arguments to its end.  What it needs of the world is given to it:
variables, files, and whether it may listen at an address.
-/

namespace ChatHub.CommandLine

open Logging (Entry)

structure World where
  environment : List (String × String)
  /-- The content of a file, if it is there. -/
  file? : String → Option String
  /-- The address that the program listens at if it asks for one, unless it cannot. -/
  listen? : Net.SocketAddress → Option Net.SocketAddress

/-- How the program goes on. -/
inductive Course where
  /-- It prints lines and is done. -/
  | print (lines : List String)
  /-- Its arguments make no sense. -/
  | misuse
  /-- Its settings cannot be used. -/
  | unconfigured (e : ConfigError)
  /-- It has settings, and a log by now, but may not listen at its address. -/
  | unbound (config : Config) (log : List Entry)
  /-- It serves, from some entries in its log to others. -/
  | serve (config : Config) (start stop : List Entry)
deriving DecidableEq, Repr

namespace Course

/-- The number that the program ends with. -/
def exitCode : Course → Nat
  | print _ => 0
  | misuse => 2
  | unconfigured _ => 1
  | unbound _ _ => 1
  | serve _ _ _ => 0

/-- What the program could not do. -/
def error? : Course → Option String
  | unconfigured _ => some "failed to load configuration"
  | unbound config _ => some ("failed to bind " ++ config.bindAddress.write)
  | _ => none

/-- The entries of the log from beginning to end, and the settings that rule their form. -/
def log? : Course → Option (Config × List Entry)
  | unbound config log => some (config, log)
  | serve config start stop => some (config, start ++ stop)
  | _ => none

end Course

/-- Options count more than all other settings. -/
def Options.override (o : Options) (c : Config) : Config :=
  { c with
    bindAddress := o.bindAddress.getD c.bindAddress
    logLevel := o.logLevel.getD c.logLevel
    logFormat := o.logFormat.getD c.logFormat }

def Options.file (o : Options) (w : World) : Option Config.NamedFile :=
  o.config.map fun name => ⟨name, w.file? name⟩

def entry (target message : String) (fields : List (String × String)) : Entry :=
  ⟨.info, target, message, fields⟩

def serverTarget : String := "chirm_server"

/-- The variable that may hold a filter for the log. -/
def filterVariable : String := "RUST_LOG"

def logFilter (w : World) (c : Config) : Logging.Filter :=
  .choose (w.environment.lookup filterVariable) c.logLevel

def startEntries (c : Config) : List Entry :=
  [entry "chirm_server::observability::logging" "Logging initialized"
     [("level", c.logLevel), ("format", c.format.name)],
   entry serverTarget "Starting Chirm server" [("version", Server.version)],
   entry serverTarget "Server configuration" [("config", c.debugText)]]

def listenEntries (a : Net.SocketAddress) : List Entry :=
  [entry serverTarget "Listening" [("addr", "Some(" ++ a.write ++ ")")]]

def stopEntries : List Entry :=
  [entry serverTarget "Shutdown signal received" [], entry serverTarget "Chirm server stopped" []]

/-- Starts with a configuration. -/
def start (w : World) (c : Config) : Course :=
  let visible := Logging.visible (logFilter w c)
  match w.listen? c.bindAddress with
  | some a => .serve c (visible (startEntries c ++ listenEntries a)) (visible stopEntries)
  | none => .unbound c (visible (startEntries c))

def course (w : World) (args : List String) : Course :=
  match read args with
  | .help => .print helpLines
  | .version => .print ["chirm-server " ++ Server.version]
  | .misuse => .misuse
  | .run o =>
      match Config.load (o.file w) w.environment with
      | .error e => .unconfigured e
      | .ok c => start w (o.override c)

end ChatHub.CommandLine
