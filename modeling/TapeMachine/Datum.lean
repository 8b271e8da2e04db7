import TapeMachine.Layout
import TapeMachine.Symbol
import TapeMachine.Text.Numeral

/-!
# Stored values

Symbols, families and regions are stored as plain data: a name that says all there is to say is
stored as a text, and a name with a number as a record with that one field. On reading, a record
with one empty field is taken for the name alone (`Datum.tagged?`).

* `Symbol.ofDatum?_toDatum`, `Family.ofDatum?_toDatum`, `Region.ofDatum?_toDatum`: what was stored
  is read back.
-/

namespace TapeMachine

/-- Plain data: what a stored value can be made of. -/
inductive Datum where
  | null
  | bool (value : Bool)
  | int (value : Int)
  /-- A number written with a fraction: `mantissa / 10 ^ places`. -/
  | decimal (mantissa : Int) (places : Nat)
  | text (value : String)
  | list (items : List Datum)
  | record (fields : List (String × Datum))
  deriving Inhabited, Repr

namespace Datum

/-- A name with what belongs to it. A text is a name with nothing. -/
def tagged? : Datum → Option (String × Datum)
  | text name => some (name, null)
  | record [(name, payload)] => some (name, payload)
  | _ => none

def name? (d : Datum) : Option String :=
  match d.tagged? with
  | some (name, null) => some name
  | _ => none

/-- An index, which is a word. -/
def index? : Datum → Option Nat
  | int (.ofNat n) => if n < Text.wordBound then some n else none
  | _ => none

end Datum

def Family.toDatum (f : Family) : Datum := .text f.name

def Family.ofDatum? (d : Datum) : Option Family :=
  d.name?.bind fun name => all.find? (·.name == name)

def Symbol.toDatum (s : Symbol) : Datum := .text s.name

def Symbol.ofDatum? (d : Datum) : Option Symbol :=
  d.name?.bind fun name => all.find? (·.name == name)

/-- Regions are stored by the name of the part, with the index where there is one. -/
def Region.toDatum : Region → Datum
  | scratch slot => .record [("Scratch", .int slot)]
  | accumulator => .text "Accumulator"
  | register key => .record [("Register", .int key)]

/-- The region that a datum stands for. A scratch slot may have any index, also one that the layout
does not hold. -/
def Region.ofDatum? (d : Datum) : Option Region :=
  match d.tagged? with
  | some ("Scratch", payload) => payload.index?.map scratch
  | some ("Register", payload) => payload.index?.map register
  | some ("Accumulator", .null) => some accumulator
  | _ => none

theorem Family.ofDatum?_toDatum (f : Family) : ofDatum? f.toDatum = some f := by
  cases f <;> decide

theorem Symbol.ofDatum?_toDatum (s : Symbol) : ofDatum? s.toDatum = some s := by
  cases s <;> decide

theorem Region.ofDatum?_toDatum (r : Region)
    (h : ∀ n, r = .scratch n ∨ r = .register n → n < Text.wordBound) :
    ofDatum? r.toDatum = some r := by
  cases r with
  | scratch n => simp [ofDatum?, toDatum, Datum.tagged?, Datum.index?, h n (.inl rfl)]
  | accumulator => rfl
  | register n => simp [ofDatum?, toDatum, Datum.tagged?, Datum.index?, h n (.inr rfl)]

end TapeMachine
