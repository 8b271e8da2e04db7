import TapeMachine.CommandLine.Report

/-!
# The command

Reads the arguments, the file and the log setting, and prints the report: the output on standard
output, the log and a failure on standard error.
-/

namespace TapeMachine.CommandLine

/-- The number by which the system calls an error, which may come with its sign turned. -/
def systemCode? : IO.Error → Option Nat
  | .noFileOrDirectory _ code _ | .inappropriateType _ code _ | .invalidArgument _ code _ =>
    some (min code (0 - code)).toNat
  | _ => none

def readFile (name : String) : IO (Except ReadError ByteArray) := do
  try
    return .ok (← IO.FS.readBinFile name)
  catch e =>
    return .error (((systemCode? e).bind ReadError.ofCode?).getD (.other (toString e)))

def answer (request : Request) : IO UInt32 := do
  let setting ← IO.getEnv "RUST_LOG"
  let file ← match request.file? with
    | some name => readFile name
    | none => pure (.error .missing)
  let report := request.report setting file
  for record in report.log do
    IO.eprintln record.line
  IO.print report.output
  if let some failure := report.failure then
    IO.eprint failure.text
  return report.exitCode.toUInt32

end TapeMachine.CommandLine

open TapeMachine.CommandLine in
def main (arguments : List String) : IO UInt32 := do
  match Request.ofArguments arguments with
  | .ok request => answer request
  | .error e =>
    IO.eprintln ("error: " ++ e.message)
    return Report.usageExitCode.toUInt32
