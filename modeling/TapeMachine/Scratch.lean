import TapeMachine.Layout
import TapeMachine.Log

/-!
# The scratch stack

The scratch cells are held and released in the manner of a stack. As slots are taken from the left
end of the tape, all there is to remember is how many are held. Calls that the stack cannot serve
are refused, change nothing and leave a warning in the log.
-/

namespace TapeMachine

/-- Why a call of the scratch stack is refused. -/
inductive ScratchError where
  /-- Every slot is held. -/
  | overflow
  /-- There is no slot to release. -/
  | underflow
  /-- There is no slot to look at. -/
  | empty
  deriving DecidableEq, Repr

def ScratchError.message : ScratchError → String
  | overflow =>
    "Scratch stack overflow: at most " ++ toString Layout.scratchSlots ++
      " slots can be held at once"
  | underflow => "Scratch stack underflow: pop without a matching push"
  | empty => "Scratch stack is empty"

/-- A refusal leaves a call undone on which the code after it relies, so every one is fatal. -/
def ScratchError.isFatal (_ : ScratchError) : Bool := true

/-- What the scratch stack reports. -/
inductive ScratchEvent where
  /-- A slot was claimed; `depth` slots are held now. -/
  | pushed (slot depth : Nat)
  /-- The last slot was released; `depth` slots are held now. -/
  | popped (depth : Nat)
  | refused (error : ScratchError)
  deriving DecidableEq, Repr

namespace ScratchEvent

def record : ScratchEvent → Log.Record
  | pushed slot depth =>
    { level := .debug, target := "tapegen_codegen::stack", message := "scratch push"
      fields := [("slot", toString slot), ("depth", toString depth)] }
  | popped depth =>
    { level := .debug, target := "tapegen_codegen::stack", message := "scratch pop"
      fields := [("depth", toString depth)] }
  | refused .overflow =>
    { level := .warn, target := "tapegen_codegen::stack", message := "scratch stack overflow"
      fields := [("capacity", toString Layout.scratchSlots)] }
  | refused .underflow =>
    { level := .warn, target := "tapegen_codegen::stack", message := "scratch stack underflow" }
  | refused .empty =>
    { level := .warn, target := "tapegen_codegen::stack", message := "scratch stack empty" }

end ScratchEvent

/-- The scratch stack: the slots below `depth` are held. -/
structure Scratch where
  depth : Nat := 0
  deriving DecidableEq, Repr

namespace Scratch

def isEmpty (s : Scratch) : Bool := s.depth == 0

def push (s : Scratch) : Except ScratchError (Nat × Scratch) :=
  if s.depth < Layout.scratchSlots then .ok (s.depth, ⟨s.depth + 1⟩) else .error .overflow

def pop (s : Scratch) : Except ScratchError Scratch :=
  match s.depth with
  | 0 => .error .underflow
  | depth + 1 => .ok ⟨depth⟩

def top (s : Scratch) : Except ScratchError Nat :=
  match s.depth with
  | 0 => .error .empty
  | depth + 1 => .ok depth

inductive Call where
  | push
  | pop
  | top
  deriving DecidableEq, Repr

/-- How a call ended: the slot it names, if any, or why it was refused; the stack after it; and what
was reported. -/
structure Answer where
  result : Except ScratchError (Option Nat)
  stack : Scratch
  events : List ScratchEvent

def refuse (s : Scratch) (e : ScratchError) : Answer := ⟨.error e, s, [.refused e]⟩

def answer (s : Scratch) : Call → Answer
  | .push =>
    match s.push with
    | .ok (slot, t) => ⟨.ok (some slot), t, [.pushed slot t.depth]⟩
    | .error e => s.refuse e
  | .pop =>
    match s.pop with
    | .ok t => ⟨.ok none, t, [.popped t.depth]⟩
    | .error e => s.refuse e
  | .top =>
    match s.top with
    | .ok slot => ⟨.ok (some slot), s, []⟩
    | .error e => s.refuse e

/-- Serves one call after the other; a refused call does not keep the later ones from being served.
-/
def answers (s : Scratch) : List Call → List Answer
  | [] => []
  | c :: rest =>
    let a := s.answer c
    a :: a.stack.answers rest

end Scratch

end TapeMachine
