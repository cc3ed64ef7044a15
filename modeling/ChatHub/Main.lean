import ChatHub.CommandLine.Startup
import ChatHub.Server.Action
import Std.Time.DateTime.Timestamp
/-!
The program: it gets the world for its course, follows the course, and answers requests line by
line from the standard input.  Nothing is decided here.
-/

namespace ChatHub

open CommandLine (Course World)

/-- The variables of this process, as its system lists them. -/
def processVariables : IO (List (String × String)) := do
  let listed ← try IO.FS.readFile "/proc/self/environ" catch _ => pure ""
  let named (part : List Char) : Option (String × String) :=
    let (name, value) := Text.cutAt '=' part
    value.map fun v => (String.ofList name, String.ofList v)
  pure ((Text.splitAt '\x00' listed.toList).filterMap named)

/-- The content of a file, if there is one that can be read. -/
def readContent (name : String) : IO (Option String) := do
  try pure (some (← IO.FS.readFile name)) catch _ => pure none

/-- The world as far as the arguments make the program look at it. -/
def getWorld (args : List String) : IO World := do
  let content ← match CommandLine.read args with
    | .run o => o.config.mapM readContent
    | _ => pure none
  pure ⟨← processVariables, fun _ => content.join, some⟩

def printLog (config : Config) (log : List Logging.Entry) : IO Unit :=
  log.forM fun e => IO.println (e.write config.format)

/-- A line holds the method of a request and what it is for. -/
def requestOfLine (line : String) : Http.Request :=
  let (method, place) := Text.cutAt ' ' (Text.trim line).toList
  ⟨String.ofList method, .ofText (String.ofList (place.getD ['/'])), []⟩

/-- Answers requests until there are no more. -/
partial def serve (started : Nat) (s : Server) : IO Unit := do
  let line ← (← IO.getStdin).getLine
  unless line.isEmpty do
    let now ← Std.Time.Timestamp.now
    let uptime := ((← IO.monoMsNow) - started) / 1000
    let (s, answer, _) :=
      s.step ⟨now.toSecondsSinceUnixEpoch.val.toNat, uptime, 0⟩ (.request (requestOfLine line))
    if let .response r := answer then
      IO.println (toString r.status ++ " " ++ r.body)
      (← IO.getStdout).flush
    serve started s

/-- Follows a course to its end. -/
def follow (course : Course) : IO Unit := do
  match course with
  | .print lines => lines.forM IO.println
  | .misuse => CommandLine.helpLines.forM IO.eprintln
  | .unconfigured _ => pure ()
  | .unbound config log => printLog config log
  | .serve config start stop =>
      printLog config start
      serve (← IO.monoMsNow) { Server.new config with ready := true }
      printLog config stop
  course.error?.forM fun e => IO.eprintln ("Error: " ++ e)

end ChatHub

def main (args : List String) : IO UInt32 := do
  let course := ChatHub.CommandLine.course (← ChatHub.getWorld args) args
  ChatHub.follow course
  pure course.exitCode.toUInt32
