import TapeMachine.Program

/-!
# Listings

Generated code is kept as a listing: lines of code and of comments, each with its indentation.
Written out in full (`Listing.render`) it is for a reader; what counts for the machine is
`Listing.program`, the symbols of the code lines.

Lines are only ever added at the end. An empty piece of code adds no line, an empty comment does.
-/

namespace TapeMachine

/-- What a line of a listing holds. -/
inductive LineKind where
  | code
  | comment
  deriving DecidableEq, Repr

structure Line where
  /-- The number of blanks before the text. -/
  indent : Nat
  kind : LineKind
  text : String
  deriving DecidableEq, Repr

namespace Line

/-- The mark before the text of a line. -/
def mark : LineKind → String
  | .code => ""
  | .comment => "# "

/-- A line as it is written, with its end. -/
def render (l : Line) : String :=
  String.ofList (List.replicate l.indent ' ') ++ mark l.kind ++ l.text ++ "\n"

/-- What the machine is meant to execute of a line. -/
def program (l : Line) : Program :=
  match l.kind with
  | .code => .ofText l.text
  | .comment => {}

end Line

/-- The lines written so far and the indentation of the next one. -/
structure Listing where
  lines : Array Line := #[]
  indent : Nat := 0
  deriving DecidableEq, Repr

namespace Listing

def indentStep : Nat := 2

/-- Adds a line of code, unless there is none to add. -/
def emit (l : Listing) (code : String) : Listing :=
  if code.isEmpty then l else { l with lines := l.lines.push ⟨l.indent, .code, code⟩ }

def annotate (l : Listing) (note : String) : Listing :=
  { l with lines := l.lines.push ⟨l.indent, .comment, note⟩ }

/-- Indents the lines that follow by one step more. -/
def indentMore (l : Listing) : Listing := { l with indent := l.indent + indentStep }

/-- Indents the lines that follow by one step less, but not below the margin. -/
def indentLess (l : Listing) : Listing := { l with indent := l.indent - indentStep }

inductive Edit where
  | emit (code : String)
  | annotate (note : String)
  | indentMore
  | indentLess
  deriving DecidableEq, Repr

def apply (l : Listing) : Edit → Listing
  | .emit code => l.emit code
  | .annotate note => l.annotate note
  | .indentMore => l.indentMore
  | .indentLess => l.indentLess

/-- The lines from the `start`-th on, written out. -/
def renderFrom (l : Listing) (start : Nat) : String :=
  String.join ((l.lines.toList.drop start).map Line.render)

def render (l : Listing) : String := l.renderFrom 0

/-- The symbols of the code lines. -/
def program (l : Listing) : Program := ⟨l.lines.toList.flatMap (·.program.symbols)⟩

theorem program_emit (l : Listing) (code : String) :
    (l.emit code).program = l.program ++ Program.ofText code := by
  show _ = Program.mk _
  unfold emit
  split
  · rename_i h
    simp_all [program, Program.ofText]
  · simp [program, Line.program]

/-- Comments are no part of the program. -/
@[simp] theorem program_annotate (l : Listing) (note : String) :
    (l.annotate note).program = l.program := by
  simp [annotate, program, Line.program]

@[simp] theorem program_indentMore (l : Listing) : l.indentMore.program = l.program := rfl

@[simp] theorem program_indentLess (l : Listing) : l.indentLess.program = l.program := rfl

end Listing

end TapeMachine
