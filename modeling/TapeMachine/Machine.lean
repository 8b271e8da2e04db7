import TapeMachine.Log
import TapeMachine.State

/-!
# Runs

A machine is a decoded program with its settings and its state. A run executes op after op until the
program counter leaves the program, the cycles that were allowed are used up, or a read stops it, in
this order of precedence; so a program that needs exactly the allowed number of cycles completes.

The run returns its log along with its result, because what a faulty run did before the fault is in
its log only. The cycles that are left bound the recursion.
-/

namespace TapeMachine

structure Config where
  /-- The number of cycles that are allowed. -/
  maxCycles : Nat := 10000000
  eof : EofPolicy := .halt
  /-- Whether every op is reported. -/
  trace : Bool := false
  deriving DecidableEq, Repr

/-- What a completed or stopped run leaves. -/
structure Result where
  cycles : Nat
  outputs : Array UInt8
  halt : HaltReason
  tape : Tape
  deriving DecidableEq, Repr

def Result.cell (r : Result) (cell : Nat) : UInt8 := r.tape.get cell

/-- What a machine reports. -/
inductive MachineEvent where
  /-- An op is about to be executed. -/
  | step (cycle pc head : Nat) (cell : UInt8) (op : Op)
  | halted (cycles : Nat) (reason : HaltReason)
  deriving DecidableEq, Repr

def MachineEvent.record : MachineEvent → Log.Record
  | step cycle pc head cell op =>
    { level := .trace, target := "tapegen_runtime::vm", message := "step"
      fields := [("cycle", toString cycle), ("pc", toString pc), ("head", toString head),
        ("cell", toString cell), ("op", op.label)] }
  | halted cycles reason =>
    { level := .debug, target := "tapegen_runtime::vm", message := "halted"
      fields := [("cycles", toString cycles), ("halt_reason", reason.label)] }

/-- A decoded program that is ready to run. -/
structure Machine where
  ops : Array Op
  config : Config := {}
  state : State := {}
  deriving DecidableEq, Repr

/-- The outcome of a run with its log. -/
structure Execution where
  result : Except Fault Result
  log : Array MachineEvent

namespace Machine

/-- Decodes a text and puts the machine at its start with the given input. -/
def load (text : String) (inputs : List UInt8) (config : Config) : Except BracketError Machine :=
  match Op.decode text with
  | .ok ops => .ok { ops, config, state := { channel := { pending := inputs } } }
  | .error e => .error e

/-- The report that `op` is about to be executed. -/
def stepEvent (s : State) (op : Op) : MachineEvent := .step s.cycles s.pc s.head s.cell op

/-- Executes ops from `s` on, at most `budget` of them, and adds to `log`. The final state holds the
reason why it is final. -/
def advance (ops : Array Op) (config : Config) (budget : Nat) (s : State)
    (log : Array MachineEvent) : Except Fault State × Array MachineEvent :=
  match ops[s.pc]? with
  | none => (.ok (s.stop .completed), log)
  | some op =>
    match budget with
    | 0 => (.ok (s.stop .cycleLimit), log)
    | budget + 1 =>
      let log := if config.trace then log.push (stepEvent s op) else log
      match op.execute config.eof s with
      | .error fault => (.error fault, log)
      | .ok t => if t.isHalted then (.ok t, log) else advance ops config budget t.tick log

def conclude (s : State) : Result :=
  { cycles := s.cycles, outputs := s.channel.written, halt := s.halt.getD .completed
    tape := s.tape }

def run (m : Machine) : Execution :=
  match advance m.ops m.config (m.config.maxCycles - m.state.cycles) m.state #[] with
  | (.ok s, log) =>
    let result := conclude s
    ⟨.ok result, log.push (.halted result.cycles result.halt)⟩
  | (.error fault, log) => ⟨.error fault, log⟩

end Machine

/-- Runs a text on input bytes. -/
def execute (text : String) (inputs : List UInt8) (config : Config) : Execution :=
  match Machine.load text inputs config with
  | .ok m => m.run
  | .error e => ⟨.error (.malformed e), #[]⟩

end TapeMachine
