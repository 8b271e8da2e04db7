import TapeMachine.Program
import TapeMachine.Text.Numeral

/-!
# Decoded programs

Before a text is run, each of its symbols becomes one op, and the two ends of a loop are told where
the other end stands. `Op.decode` does this in one pass over the tokens. While a loop is open its
first op has the target `Op.unresolved`; the closing bracket puts the right target there. The faults
are those of unmatched brackets, placed by bytes of the text.

A text is read by a table of its own, which tells the symbols from the comments. It is the spelling
of the symbols (`Token.symbol?_eq_ofChar?`).
-/

namespace TapeMachine

/-! ## Tokens -/

/-- A symbol of a text with its place there. -/
structure Token where
  symbol : Symbol
  /-- The number of bytes before the symbol in the UTF-8 form of the text. -/
  start : Nat
  deriving DecidableEq, Repr

namespace Token

/-- The byte after the symbol; every symbol takes one byte. -/
def stop (t : Token) : Nat := t.start + 1

/-- The symbol that a character is read as; all other characters are comments. -/
def symbol? : Char → Option Symbol
  | '>' => some .right
  | '<' => some .left
  | '+' => some .increment
  | '-' => some .decrement
  | '[' => some .loopStart
  | ']' => some .loopEnd
  | '.' => some .write
  | ',' => some .read
  | _ => none

/-- The tokens of the characters that start at byte `offset`. -/
def scanFrom (offset : Nat) : List Char → List Token
  | [] => []
  | c :: rest =>
    match symbol? c with
    | some s => ⟨s, offset⟩ :: scanFrom (offset + c.utf8Size) rest
    | none => scanFrom (offset + c.utf8Size) rest

def scan (text : String) : List Token := scanFrom 0 text.toList

/-- Texts are read as programs are written. -/
theorem symbol?_eq_ofChar? : symbol? = Symbol.ofChar? := by
  funext c
  unfold symbol?
  split <;> simp_all [Symbol.ofChar?]

theorem scanFrom_cons_some {c : Char} {s : Symbol} (h : Symbol.ofChar? c = some s) (offset : Nat)
    (rest : List Char) :
    scanFrom offset (c :: rest) = ⟨s, offset⟩ :: scanFrom (offset + c.utf8Size) rest := by
  rw [scanFrom, symbol?_eq_ofChar?, h]

theorem scanFrom_cons_none {c : Char} (h : Symbol.ofChar? c = none) (offset : Nat)
    (rest : List Char) :
    scanFrom offset (c :: rest) = scanFrom (offset + c.utf8Size) rest := by
  rw [scanFrom, symbol?_eq_ofChar?, h]

/-- The tokens are the symbols of the text, in order and without a gap. -/
theorem map_symbol_scanFrom (offset : Nat) (cs : List Char) :
    (scanFrom offset cs).map symbol = cs.filterMap Symbol.ofChar? := by
  induction cs generalizing offset with
  | nil => rfl
  | cons c rest ih =>
    cases h : Symbol.ofChar? c with
    | none => rw [scanFrom_cons_none h, List.filterMap_cons_none h, ih]
    | some s => rw [scanFrom_cons_some h, List.filterMap_cons_some h, List.map_cons, ih]

end Token

/-! ## Ops -/

/-- One step of a decoded program. Targets are indices of ops. -/
inductive Op where
  | right
  | left
  | increment
  | decrement
  /-- The start of the loop that ends at `stop`. -/
  | jumpIfZero (stop : Nat)
  /-- The end of the loop that starts at `start`. -/
  | jumpUnlessZero (start : Nat)
  | write
  | read
  deriving DecidableEq, Repr

/-- The target of a loop whose end has not been met yet: the greatest word, which is no index. -/
def Op.unresolved : Nat := Text.wordBound - 1

def Op.label : Op → String
  | right => "Right"
  | left => "Left"
  | increment => "Increment"
  | decrement => "Decrement"
  | jumpIfZero stop => "JumpIfZero(" ++ toString stop ++ ")"
  | jumpUnlessZero start => "JumpUnlessZero(" ++ toString start ++ ")"
  | write => "Write"
  | read => "Read"

/-- A loop whose end has not been met yet. -/
structure Opening where
  /-- The index of its first op. -/
  index : Nat
  /-- The byte at which its bracket stands. -/
  offset : Nat
  deriving DecidableEq, Repr

/-- The ops of the tokens met so far, with the loops that are still open, innermost first. -/
structure Decoding where
  ops : Array Op := #[]
  openings : List Opening := []
  deriving DecidableEq, Repr

namespace Decoding

def push (d : Decoding) (op : Op) : Decoding := { d with ops := d.ops.push op }

def feed (d : Decoding) (t : Token) : Except BracketError Decoding :=
  match t.symbol with
  | .right => .ok (d.push .right)
  | .left => .ok (d.push .left)
  | .increment => .ok (d.push .increment)
  | .decrement => .ok (d.push .decrement)
  | .write => .ok (d.push .write)
  | .read => .ok (d.push .read)
  | .loopStart =>
    let index := d.ops.size
    .ok ⟨d.ops.push (.jumpIfZero Op.unresolved), ⟨index, t.start⟩ :: d.openings⟩
  | .loopEnd =>
    match d.openings with
    | [] => .error (.unmatchedLoopEnd t.start)
    | opening :: outer =>
      let stop := d.ops.size
      .ok ⟨(d.ops.setIfInBounds opening.index (.jumpIfZero stop)).push
        (.jumpUnlessZero opening.index), outer⟩

/-- The ops, once every token was taken in and no loop is open any more. -/
def finish (d : Decoding) : Except BracketError (Array Op) :=
  match d.openings with
  | [] => .ok d.ops
  | opening :: _ => .error (.unmatchedLoopStart opening.offset)

end Decoding

/-- One op for each symbol of a text. -/
def Op.decode (text : String) : Except BracketError (Array Op) :=
  match (Token.scan text).foldlM Decoding.feed {} with
  | .ok d => d.finish
  | .error e => .error e

end TapeMachine
