import TapeMachine.Log
import TapeMachine.Text.Numeral
import TapeMachine.Text.Pattern

/-!
# Log filters

A filter says which records of the log are of interest. It is a comma-separated list of directives,
and a record is judged by the closest of those that cover it; it is dropped if there is none.

A directive says how much detail is wanted of some records of the log. It is written as

    target[span{field=value}]=level

where every part may be left out: a level alone, a target alone, `target=level`, `[{field}]=level`
and so on. Without a level everything is wanted.

* The target is a leading part of the targets that are meant; without one, all are.
* The span is the name of an enclosing activity. The program has none, so that a directive with a
  span speaks of no record.
* The field is the name of a value that a record carries. A value asked for besides it could only be
  found on a span, so that such a directive speaks of no record either.

Blanks around a directive are no part of its grammar, yet they are not dropped: places are counted
from the first character that is no blank, and the parts are cut at these places out of the text as
it was written. A blank in front therefore moves every part by one place (` info` asks for the
target ` info`), and a blank behind belongs to the last part.
-/

namespace TapeMachine.Log

/-- What is asked of the values of a record. -/
structure FieldTest where
  name : String
  /-- Whether a value is asked for too. -/
  hasValue : Bool
  deriving DecidableEq, Repr

/-- The detail that is wanted of some records. -/
structure Directive where
  target : Option String := none
  span : Option String := none
  field : Option FieldTest := none
  /-- The least urgent level that is wanted; none if no record is. -/
  level : Option Level := some .trace
  deriving DecidableEq, Repr

namespace Directive

/-- Whether a directive can speak of a record at all: it asks for no span and for no value. -/
def isEffective (d : Directive) : Bool :=
  d.span.isNone && d.field.all (!·.hasValue)

/-- Whether a directive speaks of a record: its target is a leading part of the record's, and the
record carries its field. A message is a field of every record. -/
def covers (d : Directive) (r : Record) : Bool :=
  d.isEffective && d.target.all (fun target => target.toList.isPrefixOf r.target.toList) &&
    d.field.all fun field => field.name == "message" || (r.fields.map (·.1)).contains field.name

/-- Whether a record is detailed enough, by a directive that covers it. -/
def admits (d : Directive) (r : Record) : Bool :=
  d.level.any fun level => r.level.detail ≤ level.detail

/-- How long the target is; less than any if there is none. -/
def reach (d : Directive) : Nat :=
  match d.target with
  | some target => target.utf8ByteSize + 1
  | none => 0

/-- The name of the field; empty if there is none. -/
def fieldName (d : Directive) : String :=
  match d.field with
  | some field => field.name
  | none => ""

/-- Whether the first of two directives that cover a record is the closer one: it has the longer
target, or else it alone has a field, or else its field has the later name. -/
def isCloser (a b : Directive) : Bool :=
  b.reach < a.reach ||
    a.reach == b.reach && (a.field.isSome && b.field.isNone ||
      a.field.isSome == b.field.isSome && b.fieldName < a.fieldName)

/-! ## The parts of a directive -/

/-- The level of a name, in any case, or of the number of its detail; `off` and zero are no level.
The outer option is empty if the text names nothing of this kind. -/
def level? (text : String) : Option (Option Level) :=
  let name := text.toLower
  match Level.all.find? (·.name == name) with
  | some level => some (some level)
  | none =>
    if name = "off" then some none
    else match Text.numeral? text with
      | some 0 => some none
      | some n => (Level.all.find? (·.detail == n)).map some
      | none => none

/-- The level after an equals sign, where nothing asks for everything. -/
def givenLevel? (text : String) : Option (Option Level) :=
  if text.isEmpty then some (some .trace) else level? text

/-- A directive of one word: a level, or a target of which everything is wanted. -/
def ofWord (word : String) : Directive :=
  match level? word with
  | some level => { level }
  | none => { target := some word }

/-- The test that a text between braces spells: a name, or a name and a value joined by an equals
sign. A value is a number or a pattern; what follows a second equals sign is not looked at. -/
def field? (text : String) : Option FieldTest :=
  if text.isEmpty then none
  else match text.splitOn "=" with
    | name :: value :: _ =>
      if Text.isDecimal value || Text.isPattern value then some ⟨name, true⟩ else none
    | _ => some ⟨text, false⟩

/-- A span by its name between the bracket and a brace, where an empty name is none. -/
def spanBeforeField (name : String) : Option String := if name.isEmpty then none else some name

def isStart (c : Char) : Bool := Text.isAlphanumeric c || c == '-' || c == ':' || c == '_'

/-! ## Reading -/

/-- The part of a text between two places, which are counted in bytes. -/
def cut (chars : List Char) (start stop : Nat) : String :=
  let rec go (place : Nat) : List Char → List Char
    | [] => []
    | c :: rest =>
      if stop ≤ place then []
      else if start ≤ place then c :: go (place + c.utf8Size) rest
      else go (place + c.utf8Size) rest
  String.ofList (go 0 chars)

/-- The part of a directive that is being read, with the place at which it starts. -/
inductive Part where
  /-- Nothing has been read. -/
  | first
  /-- A target, or a level alone. -/
  | word (start : Nat)
  | span (start : Nat)
  | field (start : Nat)
  /-- The bracket after a field. -/
  | afterField
  /-- The equals sign after a bracket. -/
  | afterBracket
  | level (start : Nat)
  deriving DecidableEq, Repr

structure Draft where
  part : Part := .first
  directive : Directive := {}
  deriving DecidableEq, Repr

/-- Reads one more character, which stands at a place; `chars` is the whole text as it was written.
-/
def Draft.read? (chars : List Char) (draft : Draft) (place : Nat) (c : Char) : Option Draft :=
  let d := draft.directive
  let next := place + c.utf8Size
  match draft.part, c with
  | .first, '[' => some ⟨.span next, d⟩
  | .first, c => if isStart c then some ⟨.word place, d⟩ else none
  | .word start, '=' => some ⟨.level next, { d with target := some (cut chars start place) }⟩
  | .word start, '[' => some ⟨.span next, { d with target := some (cut chars start place) }⟩
  | .span start, ']' => some ⟨.afterBracket, { d with span := some (cut chars start place) }⟩
  | .span start, '{' =>
    some ⟨.field next, { d with span := spanBeforeField (cut chars start place) }⟩
  | .field start, '}' =>
    (field? (cut chars start place)).map fun field => ⟨.afterField, { d with field := some field }⟩
  | .afterField, ']' => some ⟨.afterBracket, d⟩
  | .afterField, _ => none
  | .afterBracket, '=' => some ⟨.level next, d⟩
  | .afterBracket, _ => none
  | _, _ => some draft

def Draft.readAll? (chars : List Char) (draft : Draft) (place : Nat) : List Char → Option Draft
  | [] => some draft
  | c :: rest => do (← draft.read? chars place c).readAll? chars (place + c.utf8Size) rest

/-- The directive when there is nothing more to read; its last part goes on to the end of the text.
-/
def Draft.finish? (text : String) (draft : Draft) : Option Directive :=
  let rest (start : Nat) : String := cut text.toList start text.utf8ByteSize
  match draft.part with
  | .word start => some (ofWord (rest start))
  | .level start => (givenLevel? (rest start)).map fun level => { draft.directive with level }
  | .afterBracket => some draft.directive
  | _ => none

def parse? (text : String) : Option Directive := do
  (← ({} : Draft).readAll? text.toList 0 (Text.trimmed text.toList)).finish? text

end Directive

/-! ## Filters -/

/-- The directives of a filter, in the order in which they were given. -/
structure Filter where
  directives : List Directive
  deriving DecidableEq, Repr

namespace Filter

/-- One level for the whole program. -/
def ofLevel (level : Level) : Filter := ⟨[{ level }]⟩

/-- The closer of two directives; the later if neither is. -/
def closer (best : Option Directive) (d : Directive) : Option Directive :=
  if best.any (·.isCloser d) then best else some d

def directive? (f : Filter) (r : Record) : Option Directive :=
  (f.directives.filter (·.covers r)).foldl closer none

def admits (f : Filter) (r : Record) : Bool := (f.directive? r).any (·.admits r)

/-- The filter that a text spells; nothing if one of its items spells no directive. A text without
items asks for errors only. -/
def parse? (text : String) : Option Filter :=
  match (text.splitOn ",").filter (!·.isEmpty) with
  | [] => some (ofLevel .error)
  | items => (items.mapM Directive.parse?).map Filter.mk

end Filter

end TapeMachine.Log
