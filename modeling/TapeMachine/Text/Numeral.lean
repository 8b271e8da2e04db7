/-!
# Numerals

Numbers are read in decimal: one or more ASCII digits, with a sign before them or without. Leading
zeros are allowed; blanks and separators are not. A natural number takes a plus sign only; an
integer takes a minus sign too, so that `-0` is an integer and no natural number. A decimal has a
point or an exponent besides.
-/

namespace TapeMachine.Text

/-- The value of decimal digits, the most significant first. -/
def ofDigits (digits : List Char) : Nat :=
  digits.foldl (fun value c => 10 * value + (c.toNat - '0'.toNat)) 0

/-- The number that digits stand for; there must be some, and nothing else. -/
def digits? (digits : List Char) : Option Nat :=
  if digits.isEmpty || digits.any (!·.isDigit) then none else some (ofDigits digits)

def numeral? (text : String) : Option Nat :=
  match text.toList with
  | '+' :: digits => digits? digits
  | digits => digits? digits

def integer? (text : String) : Option Int :=
  match text.toList with
  | '-' :: digits => (digits? digits).map fun n => -(n : Int)
  | _ => (numeral? text).map Int.ofNat

/-- Whether characters are nothing, or the exponent of a decimal. -/
def isExponent : List Char → Bool
  | [] => true
  | mark :: '-' :: digits => (mark == 'e' || mark == 'E') && (digits? digits).isSome
  | mark :: digits => (mark == 'e' || mark == 'E') && (numeral? (String.ofList digits)).isSome

/-- Whether a text is a decimal: digits with at most one point between them, an exponent after that
or none, and a sign before it or none. The names of infinity and of no number, in any case, count
too. -/
def isDecimal (text : String) : Bool :=
  let unsigned := match text.toList with
    | '+' :: rest | '-' :: rest => rest
    | rest => rest
  let whole := unsigned.takeWhile (·.isDigit)
  let rest := unsigned.dropWhile (·.isDigit)
  (String.ofList unsigned).toLower ∈ ["inf", "infinity", "nan"] ||
    match rest with
    | '.' :: rest =>
      (!whole.isEmpty || rest.head?.any (·.isDigit)) && isExponent (rest.dropWhile (·.isDigit))
    | rest => !whole.isEmpty && isExponent rest

/-- Counts and indices are words of 64 bits: they stay below this number. -/
def wordBound : Nat := 0x10000000000000000

def word? (text : String) : Option Nat := (numeral? text).filter (· < wordBound)

def byte? (text : String) : Option UInt8 :=
  ((integer? text).filter fun n => 0 ≤ n && n < 256).map fun n => n.toNat.toUInt8

end TapeMachine.Text
