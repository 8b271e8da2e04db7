/-!
# The eight symbols

A program of the tape machine is a word over eight symbols, each written as one ASCII character.

* `Symbol.char`, `Symbol.ofChar?`: a symbol and its character, inverse to each other
  (`ofChar?_char`, `char_of_ofChar?`).
* `Symbol.family`: what a symbol acts on, the head, the cell, the control or the channel.
* `Symbol.times`: a run of one symbol, the only shape in which the code generator writes moves
  and additions.
-/

namespace TapeMachine

/-- One instruction of the machine. -/
inductive Symbol where
  /-- `>`: the head moves one cell to the right. -/
  | right
  /-- `<`: the head moves one cell to the left. -/
  | left
  /-- `+`: one is added to the cell under the head, modulo 256. -/
  | increment
  /-- `-`: one is taken from the cell under the head, modulo 256. -/
  | decrement
  /-- `[`: the loop is entered unless the cell under the head is zero. -/
  | loopStart
  /-- `]`: the loop is repeated unless the cell under the head is zero. -/
  | loopEnd
  /-- `.`: the cell under the head is written to the output. -/
  | write
  /-- `,`: one input byte is read into the cell under the head. -/
  | read
  deriving DecidableEq, Repr

/-- What a symbol acts on. -/
inductive Family where
  | move
  | mutate
  | loop
  | io
  deriving DecidableEq, Repr

namespace Family

def all : List Family := [move, mutate, loop, io]

/-- The name of a family where it is shown. -/
def label : Family → String
  | move => "move"
  | mutate => "mutate"
  | loop => "loop"
  | io => "io"

/-- The name of a family where it is stored. -/
def name : Family → String
  | move => "Move"
  | mutate => "Mutate"
  | loop => "Loop"
  | io => "Io"

end Family

namespace Symbol

/-- Every symbol, in the customary order. -/
def all : List Symbol :=
  [loopStart, loopEnd, right, left, increment, decrement, write, read]

def char : Symbol → Char
  | right => '>'
  | left => '<'
  | increment => '+'
  | decrement => '-'
  | loopStart => '['
  | loopEnd => ']'
  | write => '.'
  | read => ','

def ofChar? : Char → Option Symbol
  | '>' => some right
  | '<' => some left
  | '+' => some increment
  | '-' => some decrement
  | '[' => some loopStart
  | ']' => some loopEnd
  | '.' => some write
  | ',' => some read
  | _ => none

def byte (s : Symbol) : UInt8 := s.char.toUInt8

def name : Symbol → String
  | right => "Right"
  | left => "Left"
  | increment => "Increment"
  | decrement => "Decrement"
  | loopStart => "LoopStart"
  | loopEnd => "LoopEnd"
  | write => "Write"
  | read => "Read"

def family : Symbol → Family
  | right | left => .move
  | increment | decrement => .mutate
  | loopStart | loopEnd => .loop
  | write | read => .io

def text (s : Symbol) : String := String.singleton s.char

/-- A symbol repeated, as text. -/
def times (s : Symbol) (count : Nat) : String := String.ofList (List.replicate count s.char)

@[simp] theorem ofChar?_char (s : Symbol) : ofChar? s.char = some s := by
  cases s <;> rfl

theorem char_of_ofChar? {c : Char} {s : Symbol} (h : ofChar? c = some s) : s.char = c := by
  unfold ofChar? at h
  split at h <;> simp_all [char] <;> subst h <;> rfl

theorem mem_all (s : Symbol) : s ∈ all := by
  cases s <;> decide

/-- A symbol takes one byte, so that offsets into a program count its symbols. -/
theorem utf8Size_char (s : Symbol) : s.char.utf8Size = 1 := by
  cases s <;> decide

@[simp] theorem toList_times (s : Symbol) (count : Nat) :
    (s.times count).toList = List.replicate count s.char := by
  simp [times]

end Symbol

end TapeMachine
