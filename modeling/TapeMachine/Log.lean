/-!
# The log

Every component reports what it does as a record: how urgent it is, which component speaks, what it
has to say, and named values. `Record.line` is the one written form of a record.
-/

namespace TapeMachine.Log

/-- How urgent a record is. -/
inductive Level where
  | error
  | warn
  | info
  | debug
  | trace
  deriving DecidableEq, Repr

namespace Level

/-- Every level, the most urgent first. -/
def all : List Level := [error, warn, info, debug, trace]

/-- The name of a level in a written record. -/
def label : Level → String
  | error => "ERROR"
  | warn => "WARN"
  | info => "INFO"
  | debug => "DEBUG"
  | trace => "TRACE"

/-- The name of a level where one is asked for. -/
def name : Level → String
  | error => "error"
  | warn => "warn"
  | info => "info"
  | debug => "debug"
  | trace => "trace"

/-- How much detail one asks for by naming a level: the more, the less urgent the level. -/
def detail : Level → Nat
  | error => 1
  | warn => 2
  | info => 3
  | debug => 4
  | trace => 5

end Level

structure Record where
  level : Level
  /-- The component that speaks, as a path from the outermost part inwards. -/
  target : String
  message : String
  fields : List (String × String) := []
  deriving DecidableEq, Repr

/-- A record on one line: level, component, message, then each value with its name. -/
def Record.line (r : Record) : String :=
  r.level.label ++ " " ++ r.target ++ ": " ++ r.message ++
    String.join (r.fields.map fun field => " " ++ field.1 ++ "=" ++ field.2)

end TapeMachine.Log
