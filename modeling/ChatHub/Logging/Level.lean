import ChatHub.Decimal.Literal
/-!
How urgent an entry of a log is.
-/

namespace ChatHub.Logging

inductive Level where
  | error
  | warn
  | info
  | debug
  | trace
deriving DecidableEq, Repr

namespace Level

/-- Greater for levels that say more. -/
def rank : Level → Nat
  | error => 1
  | warn => 2
  | info => 3
  | debug => 4
  | trace => 5

def name : Level → String
  | error => "ERROR"
  | warn => "WARN"
  | info => "INFO"
  | debug => "DEBUG"
  | trace => "TRACE"

end Level

/-- The greatest rank that a word lets through, if it is a name of a level, in any case, or a
number. -/
def bound? (word : List Char) : Option Nat :=
  match (Decimal.word64? word).filter (· ≤ Level.trace.rank) with
  | some n => some n
  | none =>
      match Text.lowerCase (String.ofList word) with
      | "off" => some 0
      | "error" => some Level.error.rank
      | "warn" => some Level.warn.rank
      | "info" => some Level.info.rank
      | "debug" => some Level.debug.rank
      | "trace" => some Level.trace.rank
      | _ => none

end ChatHub.Logging
