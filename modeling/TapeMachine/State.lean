import TapeMachine.Op
import TapeMachine.Tape

/-!
# States of the machine

The state holds all that an op can change: the program counter, the head, the tape, the channel by
which bytes are exchanged with the outside, the number of cycles, and the reason to stop once there
is one. `Op.execute` is the effect of one op. It fails only where the head would leave the tape to the
left.

A read that finds no input does what the policy says. Where the policy is to stop, the state is left
as it was but for the reason, so that the op counts as not executed.
-/

namespace TapeMachine

/-! ## The byte channel -/

/-- Input yet to be read, first byte first, and output already written. -/
structure Channel where
  pending : List UInt8 := []
  written : Array UInt8 := #[]
  deriving DecidableEq, Repr

namespace Channel

/-- The next input byte and the channel without it; nothing at the end of the input. -/
def read? (c : Channel) : Option (UInt8 × Channel) :=
  match c.pending with
  | [] => none
  | byte :: rest => some (byte, { c with pending := rest })

def write (c : Channel) (byte : UInt8) : Channel := { c with written := c.written.push byte }

def take (c : Channel) : Array UInt8 × Channel := (c.written, { c with written := #[] })

def remaining (c : Channel) : Nat := c.pending.length

end Channel

/-! ## Stopping -/

/-- Why the machine stopped. -/
inductive HaltReason where
  /-- There was no further op. -/
  | completed
  /-- The cycles that were allowed are used up. -/
  | cycleLimit
  /-- The read at `pc` found no input. -/
  | inputExhausted (pc : Nat)
  deriving DecidableEq, Repr

def HaltReason.label : HaltReason → String
  | completed => "Completed"
  | cycleLimit => "CycleLimit"
  | inputExhausted pc => "InputExhausted \x7b pc: " ++ toString pc ++ " \x7d"

/-- What a read does at the end of the input. -/
inductive EofPolicy where
  /-- The machine stops. -/
  | halt
  /-- Zero is read. -/
  | zero
  /-- The cell keeps its value. -/
  | unchanged
  deriving DecidableEq, Repr

namespace EofPolicy

def all : List EofPolicy := [halt, zero, unchanged]

def name : EofPolicy → String
  | halt => "halt"
  | zero => "zero"
  | unchanged => "unchanged"

/-- The policy of a name; names are case sensitive. -/
def ofName? (name : String) : Option EofPolicy := all.find? (·.name == name)

end EofPolicy

/-- Why a text cannot be run, or cannot be run further. -/
inductive Fault where
  /-- A bracket of the text has no partner. -/
  | malformed (error : BracketError)
  /-- The op at `pc` would move the head off the tape. -/
  | tapeUnderflow (pc : Nat)
  deriving DecidableEq, Repr

def Fault.message : Fault → String
  | malformed error => "Spec error: " ++ error.message
  | tapeUnderflow pc => "Head moved left of cell 0 at PC " ++ toString pc

structure State where
  /-- The index of the next op. -/
  pc : Nat := 0
  /-- The cell under the head. -/
  head : Nat := 0
  /-- The number of ops executed. -/
  cycles : Nat := 0
  halt : Option HaltReason := none
  tape : Tape := {}
  channel : Channel := {}
  deriving DecidableEq, Repr

namespace State

def cell (s : State) : UInt8 := s.tape.get s.head

def stop (s : State) (reason : HaltReason) : State := { s with halt := some reason }

def tick (s : State) : State := { s with cycles := s.cycles + 1 }

def isHalted (s : State) : Bool := s.halt.isSome

end State

/-- The effect of one op, where `eof` says what a read does at the end of the input. The op need not
be the one at the program counter, and a reason to stop that is already there is not looked at. -/
def Op.execute (eof : EofPolicy) (s : State) : Op → Except Fault State
  | right => .ok { s with pc := s.pc + 1, head := s.head + 1 }
  | left =>
    match s.head with
    | 0 => .error (.tapeUnderflow s.pc)
    | head + 1 => .ok { s with pc := s.pc + 1, head }
  | increment => .ok { s with pc := s.pc + 1, tape := s.tape.increment s.head }
  | decrement => .ok { s with pc := s.pc + 1, tape := s.tape.decrement s.head }
  | jumpIfZero stop => .ok { s with pc := if s.cell = 0 then stop + 1 else s.pc + 1 }
  | jumpUnlessZero start => .ok { s with pc := if s.cell = 0 then s.pc + 1 else start + 1 }
  | write => .ok { s with pc := s.pc + 1, channel := s.channel.write s.cell }
  | read =>
    match s.channel.read? with
    | some (byte, channel) =>
      .ok { s with pc := s.pc + 1, tape := s.tape.set s.head byte, channel }
    | none =>
      match eof with
      | .halt => .ok (s.stop (.inputExhausted s.pc))
      | .zero => .ok { s with pc := s.pc + 1, tape := s.tape.set s.head 0 }
      | .unchanged => .ok { s with pc := s.pc + 1 }

end TapeMachine
