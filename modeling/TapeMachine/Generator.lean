import TapeMachine.Listing
import TapeMachine.Scratch

/-!
# The code generator

A generator writes code for the tape machine without its user having to follow the head. It holds
the listing, the cell at which the head stands once the code so far is run, and the scratch stack.
All code is made of the shortest cursor moves, additions to the cell under the head, input and
output, and one form of loop.

The loop counts a cell down: `openLoop` goes to the cell, opens the bracket and takes one; after the
body `closeLoop` goes back to the cell and closes the bracket. The body thus runs as often as the
cell says, and the cell ends at zero.

Only claiming, releasing and looking at scratch slots can fail.
-/

namespace TapeMachine

/-! ## Cursor moves -/

namespace Cursor

/-- The moves that take the head from one cell to another. -/
def seek (source target : Nat) : String :=
  if source < target then Symbol.right.times (target - source)
  else Symbol.left.times (source - target)

/-- The moves along a list of targets, each from where the one before it ends. -/
def route (start : Nat) : List Nat → List String
  | [] => []
  | target :: rest => seek start target :: route target rest

@[simp] theorem seek_self (cell : Nat) : seek cell cell = "" := by
  simp [seek, Symbol.times]

/-- There are as many moves as cells between source and target. -/
theorem length_seek (source target : Nat) :
    (seek source target).length = max source target - min source target := by
  unfold seek
  split <;> simp [Symbol.times] <;> omega

end Cursor

/-! ## Generations -/

/-- A generation in progress. -/
structure Generator where
  listing : Listing := {}
  /-- Where the head stands after the code so far. -/
  cursor : Nat := 0
  scratch : Scratch := {}
  deriving DecidableEq, Repr

namespace Generator

def depth (g : Generator) : Nat := g.scratch.depth

def render (g : Generator) : String := g.listing.render

def program (g : Generator) : Program := g.listing.program

/-! ## Writing -/

/-- Adds code as it is given. -/
def emit (g : Generator) (code : String) : Generator := { g with listing := g.listing.emit code }

def annotate (g : Generator) (note : String) : Generator :=
  { g with listing := g.listing.annotate note }

def moveTo (g : Generator) (cell : Nat) : Generator :=
  { g.emit (Cursor.seek g.cursor cell) with cursor := cell }

/-! ## The cell under the head -/

def increment (g : Generator) (n : Nat) : Generator := g.emit (Symbol.increment.times n)

def decrement (g : Generator) (n : Nat) : Generator := g.emit (Symbol.decrement.times n)

def read (g : Generator) : Generator := g.emit Symbol.read.text

def write (g : Generator) : Generator := g.emit Symbol.write.text

/-! ## Named cells -/

def clear (g : Generator) (cell : Nat) : Generator := (g.moveTo cell).emit "[-]"

def set (g : Generator) (cell : Nat) (value : UInt8) : Generator :=
  (g.clear cell).increment value.toNat

def readInto (g : Generator) (cell : Nat) : Generator := (g.moveTo cell).read

def writeFrom (g : Generator) (cell : Nat) : Generator := (g.moveTo cell).write

/-! ## Counting a cell down -/

/-- Begins a loop that runs as often as `cell` says. -/
def openLoop (g : Generator) (cell : Nat) : Generator :=
  let g := (g.moveTo cell).emit Symbol.loopStart.text
  { g with listing := g.listing.indentMore }.decrement 1

/-- Ends the loop that was begun at `cell`. -/
def closeLoop (g : Generator) (cell : Nat) : Generator :=
  let g := g.moveTo cell
  { g with listing := g.listing.indentLess }.emit Symbol.loopEnd.text

/-! ## Transfers -/

/-- Adds `addend` to `sum` and leaves zero in `addend`. -/
def add (g : Generator) (sum addend : Nat) : Generator :=
  (((g.openLoop addend).moveTo sum).increment 1).closeLoop addend

/-- Takes `subtrahend` from `minuend` and leaves zero in `subtrahend`. -/
def subtract (g : Generator) (minuend subtrahend : Nat) : Generator :=
  (((g.openLoop subtrahend).moveTo minuend).decrement 1).closeLoop subtrahend

/-- Copies `source` to `target`. The value goes through the accumulator, which has to be zero before
and is zero after: `source` is counted down into the accumulator and `target`, then the accumulator
into `source`. -/
def copy (g : Generator) (source target : Nat) : Generator :=
  let g := (g.clear target).openLoop source
  let g := (g.moveTo Layout.accumulator).increment 1
  let g := ((g.moveTo target).increment 1).closeLoop source
  (((g.openLoop Layout.accumulator).moveTo source).increment 1).closeLoop Layout.accumulator

/-! ## Scratch slots -/

/-- Claims a scratch slot and sets it to a value. -/
def push (g : Generator) (value : UInt8) : Except ScratchError (Nat × Generator) :=
  match g.scratch.push with
  | .ok (slot, scratch) => .ok (slot, { g with scratch }.set slot value)
  | .error e => .error e

def pop (g : Generator) : Except ScratchError Generator :=
  match g.scratch.pop with
  | .ok scratch => .ok { g with scratch }
  | .error e => .error e

def top (g : Generator) : Except ScratchError Nat := g.scratch.top

/-! ## What each operation adds to the program -/

@[simp] theorem program_emit (g : Generator) (code : String) :
    (g.emit code).program = g.program ++ Program.ofText code :=
  g.listing.program_emit code

@[simp] theorem program_annotate (g : Generator) (note : String) :
    (g.annotate note).program = g.program :=
  g.listing.program_annotate note

@[simp] theorem program_moveTo (g : Generator) (cell : Nat) :
    (g.moveTo cell).program = g.program ++ Program.ofText (Cursor.seek g.cursor cell) :=
  g.listing.program_emit _

@[simp] theorem cursor_emit (g : Generator) (code : String) : (g.emit code).cursor = g.cursor := rfl

@[simp] theorem cursor_moveTo (g : Generator) (cell : Nat) : (g.moveTo cell).cursor = cell := rfl

end Generator

end TapeMachine
