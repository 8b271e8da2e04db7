import TapeMachine.Machine
import TapeMachine.Text.Numeral

/-!
# Arguments

The command line has three commands:

* `emit [--debug]` prints the program of the adder, or its listing;
* `run [BYTES]...` runs it on input bytes;
* `exec FILE [BYTES]...` runs the text of a file.

The last two take `--max-cycles N`, `--eof halt|zero|unchanged` and `--trace`. Options and words mix
freely, a value may also be joined to its option by an equals sign, and after `--` everything is a
word. `-v` and `--verbose` may stand anywhere and be repeated; what is given after the command
replaces what is given before it. `-V` and `--version` are questions of their own and stand before
the command.

Arguments are understood as a whole or refused (`UsageError`).
-/

namespace TapeMachine.CommandLine

/-- A command with all that was said about it. -/
inductive Command where
  /-- Print the adder: its listing or its program. -/
  | emit (listing : Bool)
  /-- Run the adder. -/
  | run (inputs : List UInt8) (config : Config)
  /-- Run the text of a file. -/
  | exec (file : String) (inputs : List UInt8) (config : Config)
  deriving DecidableEq, Repr

/-- What the arguments ask for. -/
inductive Request where
  | version
  /-- A command, and how often more detail was asked for. -/
  | perform (verbosity : Nat) (command : Command)
  deriving DecidableEq, Repr

/-- Why arguments are refused. -/
inductive UsageError where
  | missingCommand
  | unknownCommand (word : String)
  | unexpectedArgument (argument : String)
  | repeatedOption (name : String)
  | missingValue (name : String)
  | invalidValue (name value : String)
  | missingFile
  deriving DecidableEq, Repr

def UsageError.message : UsageError → String
  | missingCommand => "a command is needed: emit, run or exec"
  | unknownCommand word => "unknown command: " ++ word
  | unexpectedArgument argument => "unexpected argument: " ++ argument
  | repeatedOption name => "option given twice: --" ++ name
  | missingValue name => "a value is needed for --" ++ name
  | invalidValue name value => "invalid value for " ++ name ++ ": " ++ value
  | missingFile => "a file is needed"

/-! ## Arguments by their shape -/

/-- What an argument is by its shape. -/
inductive Shape where
  /-- `--`: no option follows. -/
  | escape
  /-- `--name` or `--name=value`. -/
  | long (name : String) (value : Option String)
  /-- `-abc`: one-letter flags. -/
  | short (flags : List Char)
  /-- Anything else, a single dash and the empty argument included. -/
  | word
  deriving DecidableEq, Repr

def Shape.of (argument : String) : Shape :=
  match argument.toList with
  | ['-', '-'] => escape
  | '-' :: '-' :: rest =>
    let name := String.ofList (rest.takeWhile (· != '='))
    match rest.dropWhile (· != '=') with
    | [] => long name none
    | _ :: value => long name (some (String.ofList value))
  | '-' :: flag :: flags => short (flag :: flags)
  | _ => word

/-! ## After the command -/

/-- The options that a command knows besides `--verbose`. -/
structure Options where
  flags : List String
  valued : List String
  deriving DecidableEq, Repr

/-- What was found after the command. -/
structure Found where
  verbosity : Nat := 0
  flags : List String := []
  values : List (String × String) := []
  words : List String := []
  deriving DecidableEq, Repr

namespace Found

def addFlag (f : Found) (name : String) : Except UsageError Found :=
  if name ∈ f.flags then .error (.repeatedOption name)
  else .ok { f with flags := name :: f.flags }

def addValue (f : Found) (name value : String) : Except UsageError Found :=
  if (f.values.lookup name).isSome then .error (.repeatedOption name)
  else .ok { f with values := (name, value) :: f.values }

def addWord (f : Found) (word : String) : Found := { f with words := f.words ++ [word] }

/-- Sorts the arguments that follow a command. An option that needs a value takes the next argument,
which must be a word. -/
def scan (options : Options) (f : Found) : List String → Except UsageError Found
  | [] => .ok f
  | argument :: rest =>
    match Shape.of argument with
    | .escape => .ok { f with words := f.words ++ rest }
    | .word => (f.addWord argument).scan options rest
    | .short flags =>
      if flags.all (· == 'v') then
        { f with verbosity := f.verbosity + flags.length }.scan options rest
      else .error (.unexpectedArgument argument)
    | .long "verbose" none => { f with verbosity := f.verbosity + 1 }.scan options rest
    | .long name value =>
      if name ∈ options.flags && value.isNone then
        match f.addFlag name with
        | .ok f => f.scan options rest
        | .error e => .error e
      else if name ∈ options.valued then
        match value, rest with
        | some value, rest =>
          match f.addValue name value with
          | .ok f => f.scan options rest
          | .error e => .error e
        | none, [] => .error (.missingValue name)
        | none, value :: rest =>
          if Shape.of value = .word then
            match f.addValue name value with
            | .ok f => f.scan options rest
            | .error e => .error e
          else .error (.missingValue name)
      else .error (.unexpectedArgument argument)

/-- The value of an option, or what holds without it. -/
def value (f : Found) (name : String) (read? : String → Option α) (usual : α) :
    Except UsageError α :=
  match f.values.lookup name with
  | none => .ok usual
  | some text =>
    match read? text with
    | some a => .ok a
    | none => .error (.invalidValue name text)

def config (f : Found) : Except UsageError Config := do
  let usual : Config := {}
  let maxCycles ← f.value "max-cycles" Text.word? usual.maxCycles
  let eof ← f.value "eof" EofPolicy.ofName? usual.eof
  return { maxCycles, eof, trace := f.flags.contains "trace" }

end Found

/-- Input bytes, each a word of its own. -/
def inputBytes (words : List String) : Except UsageError (List UInt8) :=
  words.mapM fun word =>
    match Text.byte? word with
    | some byte => .ok byte
    | none => .error (.invalidValue "BYTES" word)

def machineOptions : Options := { flags := ["trace"], valued := ["max-cycles", "eof"] }

/-- The command of a name, from the arguments that follow it, and the detail asked for there. -/
def readCommand (name : String) (rest : List String) : Except UsageError (Nat × Command) := do
  match name with
  | "emit" =>
    let f ← ({} : Found).scan { flags := ["debug"], valued := [] } rest
    match f.words with
    | [] => return (f.verbosity, .emit (f.flags.contains "debug"))
    | word :: _ => throw (.unexpectedArgument word)
  | "run" =>
    let f ← ({} : Found).scan machineOptions rest
    return (f.verbosity, .run (← inputBytes f.words) (← f.config))
  | "exec" =>
    let f ← ({} : Found).scan machineOptions rest
    match f.words with
    | [] => throw .missingFile
    | file :: words =>
      if file.isEmpty then throw .missingFile
      return (f.verbosity, .exec file (← inputBytes words) (← f.config))
  | _ => throw (.unknownCommand name)

/-! ## Before the command -/

/-- Counts one-letter flags, up to a question for the version; nothing if a flag is unknown. -/
def leadingFlags? (verbosity : Nat) : List Char → Option (Option Nat)
  | [] => some (some verbosity)
  | 'v' :: rest => leadingFlags? (verbosity + 1) rest
  | 'V' :: _ => some none
  | _ => none

/-- Reads arguments, where `verbosity` counts what was asked for so far. -/
def readFrom (verbosity : Nat) : List String → Except UsageError Request
  | [] => .error .missingCommand
  | argument :: rest =>
    match Shape.of argument with
    | .escape => .error .missingCommand
    | .long "verbose" none => readFrom (verbosity + 1) rest
    | .long "version" none => .ok .version
    | .long _ _ => .error (.unexpectedArgument argument)
    | .short flags =>
      match leadingFlags? verbosity flags with
      | some (some verbosity) => readFrom verbosity rest
      | some none => .ok .version
      | none => .error (.unexpectedArgument argument)
    | .word =>
      match readCommand argument rest with
      | .ok (inner, command) => .ok (.perform (if inner = 0 then verbosity else inner) command)
      | .error e => .error e

def Request.ofArguments (arguments : List String) : Except UsageError Request :=
  readFrom 0 arguments

end TapeMachine.CommandLine
