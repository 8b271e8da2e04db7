import TapeMachine.CommandLine.Arguments
import TapeMachine.CommandLine.Directory
import TapeMachine.Log.Filter
import TapeMachine.Script

/-!
# Reports

A request is answered by a report: what is printed, the log, and the failure if there was one.
Everything but reading a file and printing the report is decided here.

A failure is told line by line. A line ends at a line feed, and a carriage return right before that
belongs to the end of the line too; what follows the last line feed is a line unless it is empty.
-/

namespace TapeMachine.Text

/-- A line without the carriage return that ends it. -/
def withoutReturn (line : String) : String :=
  match line.toList.reverse with
  | '\r' :: rest => String.ofList rest.reverse
  | _ => line

/-- The parts between line feeds, of which only the last has no line feed behind it. -/
def ofParts : List String → List String
  | [] => []
  | [last] => if last.isEmpty then [] else [last]
  | part :: rest => withoutReturn part :: ofParts rest

def lines (text : String) : List String := ofParts (text.splitOn "\n")

end TapeMachine.Text

namespace TapeMachine.CommandLine

inductive Failure where
  | unreadable (file : String) (error : ReadError)
  | malformed (error : BracketError)
  | faulty (fault : Fault)
  deriving DecidableEq, Repr

namespace Failure

/-- What was being done. -/
def context : Failure → String
  | unreadable file _ => "failed to read " ++ file
  | malformed _ => "invalid program"
  | faulty _ => "execution failed"

/-- Why it failed, and why that was so. -/
def causes : Failure → List String
  | unreadable _ error => [error.message]
  | malformed error => [(Fault.malformed error).message, error.message]
  | faulty fault => [fault.message]

/-- Causes below their heading: a single one as it is, several of them numbered. -/
def causeLines : List String → List String
  | [cause] => ["    " ++ cause]
  | causes => causes.zipIdx.map fun (cause, i) => "    " ++ toString i ++ ": " ++ cause

def text (f : Failure) : String :=
  String.join ((["Error: " ++ f.context, "", "Caused by:"] ++ causeLines f.causes).map (· ++ "\n"))

/-- A failure line by line; the name of a file may bring line breaks of its own. -/
def lines (f : Failure) : List String := Text.lines f.text

end Failure

/-- What the command line itself reports. -/
inductive Event where
  | generated (symbols : Nat)
  | incomplete (reason : HaltReason) (cycles : Nat)
  deriving DecidableEq, Repr

def Event.record : Event → Log.Record
  | generated symbols =>
    { level := .info, target := "tapegen", message := "generated add-two-bytes program"
      fields := [("symbols", toString symbols)] }
  | incomplete reason cycles =>
    { level := .warn, target := "tapegen", message := "program did not complete"
      fields := [("reason", reason.label), ("cycles", toString cycles)] }

structure Report where
  output : String := ""
  log : List Log.Record := []
  failure : Option Failure := none
  deriving DecidableEq, Repr

namespace Report

/-- The exit code of a process that ends with a report. -/
def exitCode (r : Report) : UInt8 := if r.failure.isSome then 1 else 0

/-- The exit code of a process whose arguments are refused. -/
def usageExitCode : UInt8 := 2

/-- Output bytes in decimal, on one line. -/
def outputLine (outputs : Array UInt8) : String :=
  " ".intercalate (outputs.toList.map toString) ++ "\n"

/-- The last word on a run that did not complete. -/
def remark (r : Result) : List Log.Record :=
  match r.halt with
  | .completed => []
  | reason => [(Event.incomplete reason r.cycles).record]

/-- The report on the run of a text. -/
def ofExecution (text : String) (inputs : List UInt8) (config : Config) : Report :=
  match Machine.load text inputs config with
  | .error e => { failure := some (.malformed e) }
  | .ok m =>
    let execution := m.run
    let log := execution.log.toList.map (·.record)
    match execution.result with
    | .error fault => { log, failure := some (.faulty fault) }
    | .ok r => { output := outputLine r.outputs, log := log ++ remark r }

def after (r : Report) (log : List Log.Record) : Report := { r with log := log ++ r.log }

end Report

def adderGenerator : Generator := (Script.adder.run {}).generator

def adderLog : List Log.Record :=
  (Script.adder.run {}).events.map (·.record) ++
    [(Event.generated adderGenerator.program.length).record]

def Command.file? : Command → Option String
  | exec file _ _ => some file
  | _ => none

/-- Performs a command, where `file` is what was read under the name of its file. -/
def Command.report (file : Except ReadError ByteArray) : Command → Report
  | emit true => { output := adderGenerator.render, log := adderLog }
  | emit false => { output := adderGenerator.program.text ++ "\n", log := adderLog }
  | run inputs config =>
    (Report.ofExecution adderGenerator.program.text inputs config).after adderLog
  | exec name inputs config =>
    match file.bind decodeText with
    | .error e => { failure := some (.unreadable name e) }
    | .ok text => Report.ofExecution text inputs config

/-- The filter of the log: the detail asked for on the command line, else the setting of the
environment, else warnings. -/
def logFilter (verbosity : Nat) (setting : Option String) : Log.Filter :=
  match verbosity with
  | 0 => (setting.bind Log.Filter.parse?).getD (.ofLevel .warn)
  | 1 => .ofLevel .debug
  | _ => .ofLevel .trace

namespace Request

def file? : Request → Option String
  | version => none
  | perform _ command => command.file?

/-- Answers a request, where `file` is what was read under the name of its file and `setting` the
log filter of the environment. -/
def report (setting : Option String) (file : Except ReadError ByteArray) : Request → Report
  | version => { output := "tapegen 0.1.0\n" }
  | perform verbosity command =>
    let r := command.report file
    { r with log := r.log.filter (logFilter verbosity setting).admits }

end Request

end TapeMachine.CommandLine
