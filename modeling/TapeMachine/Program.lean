import TapeMachine.Symbol
import TapeMachine.Text.Character

/-!
# Programs

A program is a word over the eight symbols. Its text is what the machine reads and what the
generator hands out; any other text is turned into a program either by dropping what is no symbol
(`Program.ofText`) or by refusing it (`Program.parse`).

`Program.validate` checks that the brackets nest. It keeps the offsets of the loops that are open,
innermost first: a closing bracket that finds none is blamed at once, and of the loops left open at
the end the innermost is blamed.
-/

namespace TapeMachine

/-- A bracket without its partner, with its offset in the text. -/
inductive BracketError where
  | unmatchedLoopStart (offset : Nat)
  | unmatchedLoopEnd (offset : Nat)
  deriving DecidableEq, Repr

def BracketError.message : BracketError → String
  | unmatchedLoopStart offset => "Unmatched '[' at offset " ++ toString offset
  | unmatchedLoopEnd offset => "Unmatched ']' at offset " ++ toString offset

/-- A character that stands for no symbol, where only symbols may stand. -/
structure UnknownSymbol where
  char : Char
  deriving DecidableEq, Repr

def UnknownSymbol.message (e : UnknownSymbol) : String :=
  "Unknown symbol: " ++ Text.quoted e.char

/-- The symbol that a character stands for, or the character itself as the fault. -/
def Symbol.parse (c : Char) : Except UnknownSymbol Symbol :=
  match ofChar? c with
  | some s => .ok s
  | none => .error ⟨c⟩

/-- A word over the eight symbols. -/
structure Program where
  symbols : List Symbol := []
  deriving DecidableEq, Repr

namespace Program

/-- The symbols of a text in order, everything else dropped. -/
def ofText (text : String) : Program := ⟨text.toList.filterMap Symbol.ofChar?⟩

/-- The program that a text spells, or the first character of the text that is no symbol.
Brackets are not checked. -/
def parse (text : String) : Except UnknownSymbol Program :=
  (text.toList.mapM Symbol.parse).map Program.mk

def text (p : Program) : String := String.ofList (p.symbols.map Symbol.char)

def length (p : Program) : Nat := p.symbols.length

def isEmpty (p : Program) : Bool := p.symbols.isEmpty

def append (p q : Program) : Program := ⟨p.symbols ++ q.symbols⟩

instance : Append Program := ⟨append⟩

/-- Checks the brackets of the symbols from `offset` on, where `openings` are the offsets of the
loops that are open there, innermost first. -/
def validateFrom (openings : List Nat) (offset : Nat) : List Symbol → Except BracketError Unit
  | [] =>
    match openings with
    | [] => .ok ()
    | start :: _ => .error (.unmatchedLoopStart start)
  | .loopStart :: rest => validateFrom (offset :: openings) (offset + 1) rest
  | .loopEnd :: rest =>
    match openings with
    | [] => .error (.unmatchedLoopEnd offset)
    | _ :: outer => validateFrom outer (offset + 1) rest
  | _ :: rest => validateFrom openings (offset + 1) rest

/-- Every bracket has its partner, or one that has none. -/
def validate (p : Program) : Except BracketError Unit := validateFrom [] 0 p.symbols

@[simp] theorem symbols_append (p q : Program) : (p ++ q).symbols = p.symbols ++ q.symbols := rfl

@[simp] theorem toList_text (p : Program) : p.text.toList = p.symbols.map Symbol.char := by
  simp [text]

/-- Reading the text of a program gives the program back. -/
@[simp] theorem ofText_text (p : Program) : ofText p.text = p := by
  have h : Symbol.ofChar? ∘ Symbol.char = some := funext Symbol.ofChar?_char
  rw [ofText, toList_text, List.filterMap_map, h, List.filterMap_some]

theorem ofText_append (t u : String) : ofText (t ++ u) = ofText t ++ ofText u := by
  show Program.mk _ = Program.mk _
  simp [ofText, String.toList_append]

theorem text_append (p q : Program) : (p ++ q).text = p.text ++ q.text := by
  simp [text]

end Program

end TapeMachine
