import TapeMachine.Text.Character

/-!
# Patterns

A pattern is a regular expression as it is written. `isPattern` tells whether a text is one that can
be matched in one pass over its subject, with no knowledge of characters beyond ASCII:

* it is well formed. Look-around and references back to a group do not exist here, and neither do
  counts and names in braces: a brace that opens one is refused;
* it is not nested more than `deepest` levels;
* each of its parts is available under the settings that hold there. Settings change inside a
  pattern, from where they are given to the end of the group they are given in.
-/

namespace TapeMachine.Text

namespace Pattern

/-! ## Atoms

The smallest parts of a pattern: a character, a set of characters with a one-letter name, and a
place between characters. All but plain characters are written as escapes.

A pattern can be read in a spacious form, in which blanks and comments between its parts do not
count. A reader takes one part off the front of the characters and gives the rest back, or nothing
if there is no such part. -/

/-! ### Settings -/

/-- How a part of a pattern is understood. -/
structure Settings where
  /-- Letters stand for themselves in either case. -/
  ignoreCase : Bool := false
  /-- The subject is made of characters of any script, rather than of bytes. -/
  unicode : Bool := true
  deriving DecidableEq, Repr

/-! ### Blanks and comments -/

/-- Characters without the blanks and comments in front of them. A comment goes from a hash sign to
the end of its line. -/
def withoutBlanks (inComment : Bool) : List Char → List Char
  | [] => []
  | c :: rest =>
    if inComment then withoutBlanks (c != '\n') rest
    else if isBlank c then withoutBlanks false rest
    else if c == '#' then withoutBlanks true rest
    else c :: rest

/-- What a reader starts from: in the spacious form it passes over blanks and comments. -/
def skip (spacious : Bool) (chars : List Char) : List Char :=
  if spacious then withoutBlanks false chars else chars

/-! ### Atoms -/

structure Literal where
  code : Nat
  /-- Whether it is written by two hexadecimal digits, and so may mean a byte. -/
  isByte : Bool := false
  deriving DecidableEq, Repr

/-- The smallest parts of a pattern. -/
inductive Atom where
  | char (c : Literal)
  /-- The digits, the blanks or the characters of words, or all that are none of these. -/
  | named (isComplement : Bool)
  /-- A place between characters, which may be the boundary of a word. -/
  | place (isBoundary : Bool)
  deriving DecidableEq, Repr

/-- Whether a character can be matched. Only ASCII letters have a known case, so that case can be
ignored for bytes only; a byte of its own that is not ASCII is no part of a text. -/
def Literal.isAvailable (c : Literal) (s : Settings) : Bool :=
  if s.unicode then !s.ignoreCase else !c.isByte || c.code < 0x80

/-- Whether an atom can be matched. Named sets and boundaries are known for ASCII only, and the
complement of a set of bytes would cut characters into pieces. -/
def Atom.isAvailable (s : Settings) : Atom → Bool
  | char c => c.isAvailable s
  | named isComplement => !s.unicode && !isComplement
  | place isBoundary => !(s.unicode && isBoundary)

/-! ### Escapes -/

def hexDigit? (c : Char) : Option Nat :=
  if c.isDigit then some (c.toNat - '0'.toNat)
  else if 'a' ≤ c && c ≤ 'f' then some (c.toNat - 'a'.toNat + 10)
  else if 'A' ≤ c && c ≤ 'F' then some (c.toNat - 'A'.toNat + 10)
  else none

/-- Reads a fixed number of hexadecimal digits, where `value` is that of the digits so far. -/
def hexDigits? (spacious : Bool) (value : Nat) (chars : List Char) :
    (count : Nat) → Option (Nat × List Char)
  | 0 => some (value, chars)
  | count + 1 =>
    match skip spacious chars with
    | [] => none
    | c :: rest =>
      match hexDigit? c with
      | some digit => hexDigits? spacious (16 * value + digit) rest count
      | none => none

/-- Reads a character by the hexadecimal digits of its code point; two of them may mean a byte. -/
def hex? (spacious : Bool) (count : Nat) (chars : List Char) : Option (Atom × List Char) :=
  match hexDigits? spacious 0 chars count with
  | some (code, rest) =>
    if code.isValidChar then some (.char ⟨code, count == 2⟩, rest) else none
  | none => none

/-- A character that an escape gives back as it is: an ASCII one that is no letter, no digit and no
angle bracket. -/
def isEscapable (c : Char) : Bool :=
  c.toNat < 0x80 && !c.isAlphanum && c != '<' && c != '>'

/-- The atom of an escape with one character after the backslash. -/
def escaped? (c : Char) : Option Atom :=
  match c with
  | 'a' => some (.char ⟨0x07, false⟩)
  | 't' => some (.char ⟨0x09, false⟩)
  | 'n' => some (.char ⟨0x0a, false⟩)
  | 'v' => some (.char ⟨0x0b, false⟩)
  | 'f' => some (.char ⟨0x0c, false⟩)
  | 'r' => some (.char ⟨0x0d, false⟩)
  | 'd' | 's' | 'w' => some (.named false)
  | 'D' | 'S' | 'W' => some (.named true)
  | 'A' | 'z' => some (.place false)
  | 'b' | 'B' | '<' | '>' => some (.place true)
  | c => if isEscapable c then some (.char ⟨c.toNat, false⟩) else none

/-- Reads an escape after its backslash. Sets by a property of characters are never available, and
no group can be referred back to. -/
def escape? (spacious : Bool) : List Char → Option (Atom × List Char)
  | [] => none
  | 'x' :: rest => hex? spacious 2 rest
  | 'u' :: rest => hex? spacious 4 rest
  | 'U' :: rest => hex? spacious 8 rest
  | c :: rest => (escaped? c).map (·, rest)

/-! ## Sets of characters

A set is written in brackets: characters, ranges, named sets and sets in brackets of their own, one
after the other. A circumflex at the start asks for all other characters. Two sets inside brackets
can be combined by a doubled sign, for what they share, for what only the first holds and for what
only one of them holds. -/

/-- A set of characters as it is written. -/
inductive CharSet where
  | empty
  | char (c : Literal)
  | range (low high : Literal)
  /-- A set by a one-letter name. -/
  | named (isComplement : Bool)
  /-- A set by a name between colons. -/
  | colons (isComplement : Bool)
  | brackets (isComplement : Bool) (content : CharSet)
  | union (parts : List CharSet)
  | combined (left right : CharSet)
  deriving Repr

namespace CharSet

mutual

def height : CharSet → Nat
  | empty | char _ | range _ _ | named _ | colons _ => 0
  | brackets _ content => content.height + 1
  | union parts => heights parts + 1
  | combined left right => max left.height right.height + 1

def heights : List CharSet → Nat
  | [] => 0
  | s :: rest => max s.height (heights rest)

end

/-- Whether a character can be in a set: one that can be matched, and for bytes an ASCII one. -/
def isMember (s : Settings) (c : Literal) : Bool :=
  c.isAvailable s && (s.unicode || c.code < 0x80)

mutual

def isAvailable (s : Settings) : CharSet → Bool
  | empty => true
  | char c => isMember s c
  | range low high => isMember s low && isMember s high
  | named isComplement => (Atom.named isComplement).isAvailable s
  | colons isComplement => if s.unicode then !s.ignoreCase else !isComplement
  | brackets isComplement content => (s.unicode || !isComplement) && content.isAvailable s
  | union parts => areAvailable s parts
  | combined left right => left.isAvailable s && right.isAvailable s

def areAvailable (s : Settings) : List CharSet → Bool
  | [] => true
  | part :: rest => part.isAvailable s && areAvailable s rest

end

def ofParts : List CharSet → CharSet
  | [] => empty
  | [s] => s
  | parts => union parts

/-! ### Reading -/

/-- The set of an atom; a place is none. -/
def ofAtom? : Atom → Option CharSet
  | .char c => some (char c)
  | .named isComplement => some (named isComplement)
  | .place _ => none

def atom? (spacious : Bool) : List Char → Option (Atom × List Char)
  | [] => none
  | '\\' :: rest => escape? spacious rest
  | c :: rest => some (.char ⟨c.toNat, false⟩, rest)

/-- The character that decides what a dash means, where `rest` follows the dash. In the spacious
form blanks are passed over, and so is one hash sign with the blanks behind it, though not the
comment that it starts; if nothing else is left, it is the very next character. -/
def afterDash (spacious : Bool) (rest : List Char) : Option Char :=
  let next := match rest.dropWhile isBlank with
    | '#' :: comment => comment.dropWhile isBlank
    | next => next
  if spacious then next.head?.or rest.head? else rest.head?

/-- Reads an atom of a set, or a range between two characters of which the first comes first. A dash
before a bracket or another dash makes no range. -/
def part? (spacious : Bool) (chars : List Char) : Option (CharSet × List Char) := do
  let (first, rest) ← atom? spacious chars
  let rest := skip spacious rest
  match rest with
  | '-' :: more =>
    if afterDash spacious more = some ']' || afterDash spacious more = some '-' then
      return (← ofAtom? first, rest)
    else
      match first, ← atom? spacious (skip spacious more) with
      | .char low, (.char high, rest) =>
        if low.code ≤ high.code then return (range low high, rest) else none
      | _, _ => none
  | _ => return (← ofAtom? first, rest)

/-- The names that can stand between colons. -/
def colonNames : List String :=
  ["alnum", "alpha", "ascii", "blank", "cntrl", "digit", "graph", "lower", "print", "punct",
    "space", "upper", "word", "xdigit"]

/-- Reads a set by a name between colons, after the bracket that opens it. -/
def colons? : List Char → Option (CharSet × List Char)
  | ':' :: rest =>
    let isComplement := rest.head? == some '^'
    let rest := if isComplement then rest.drop 1 else rest
    let name := String.ofList (rest.takeWhile (· != ':'))
    match rest.dropWhile (· != ':') with
    | ':' :: ']' :: rest => if name ∈ colonNames then some (colons isComplement, rest) else none
    | _ => none
  | _ => none

/-- The inside of brackets, as far as it has been read. -/
structure Inside where
  isComplement : Bool := false
  /-- The parts since the last doubled sign, the latest first. -/
  parts : List CharSet := []
  /-- What stands before the last doubled sign. -/
  left : Option CharSet := none
  deriving Repr

namespace Inside

def add (i : Inside) (s : CharSet) : Inside := { i with parts := s :: i.parts }

def content (i : Inside) : CharSet :=
  let right := ofParts i.parts.reverse
  match i.left with
  | some left => combined left right
  | none => right

/-- Takes in a doubled sign. -/
def combine (i : Inside) : Inside := { i with parts := [], left := some i.content }

def close (i : Inside) : CharSet := brackets i.isComplement i.content

end Inside

/-- Counts the dashes in front of characters, and gives the rest. -/
def dashes (spacious inComment : Bool) : List Char → Nat × List Char
  | [] => (0, [])
  | c :: rest =>
    if inComment then dashes spacious (c != '\n') rest
    else if c == '-' then
      let (count, rest) := dashes spacious false rest
      (count + 1, rest)
    else if spacious && isBlank c then dashes spacious false rest
    else if spacious && c == '#' then dashes spacious true rest
    else (0, c :: rest)

/-- Reads the start of a set after its bracket: a circumflex, then dashes, or a closing bracket,
that stand for themselves. -/
def start (spacious : Bool) (chars : List Char) : Inside × List Char :=
  let chars := skip spacious chars
  let isComplement := chars.head? == some '^'
  let chars := if isComplement then chars.drop 1 else chars
  match dashes spacious false (skip spacious chars) with
  | (0, ']' :: rest) => ({ isComplement, parts := [char ⟨']'.toNat, false⟩] }, rest)
  | (count, rest) =>
    ({ isComplement, parts := List.replicate count (char ⟨'-'.toNat, false⟩) }, rest)

/-- Reads a set to its closing bracket, where `outer` are the sets that are open around it. The
reader stops short only if `fuel` is less than the number of characters. -/
def finish? (spacious : Bool) (i : Inside) (outer : List Inside) (chars : List Char) :
    (fuel : Nat) → Option (CharSet × List Char)
  | 0 => none
  | fuel + 1 =>
    match skip spacious chars with
    | [] => none
    | '[' :: rest =>
      match colons? rest with
      | some (s, rest) => finish? spacious (i.add s) outer rest fuel
      | none =>
        let (nested, rest) := start spacious rest
        finish? spacious nested (i :: outer) rest fuel
    | ']' :: rest =>
      match outer with
      | [] => some (i.close, rest)
      | o :: outer => finish? spacious (o.add i.close) outer rest fuel
    | '&' :: '&' :: rest | '-' :: '-' :: rest | '~' :: '~' :: rest =>
      finish? spacious i.combine outer rest fuel
    | chars =>
      match part? spacious chars with
      | some (s, rest) => finish? spacious (i.add s) outer rest fuel
      | none => none

def read? (spacious : Bool) (chars : List Char) : Option (CharSet × List Char) :=
  let (i, rest) := start spacious chars
  finish? spacious i [] rest (chars.length + 1)

end CharSet

end Pattern

/-! ## Patterns -/

/-- A pattern as it is written. -/
inductive Pattern where
  | empty
  /-- New settings for what follows, by their letters. -/
  | settings (letters : List Char)
  | atom (a : Pattern.Atom)
  /-- Any character. -/
  | any
  | set (s : Pattern.CharSet)
  | repeated (p : Pattern)
  /-- A group with settings of its own. -/
  | group (letters : List Char) (p : Pattern)
  | sequence (ps : List Pattern)
  | choice (ps : List Pattern)
  deriving Repr

namespace Pattern

/-! ### Settings by their letters -/

/-- The letters of the settings: case, lines, dots, greed, scripts, line ends and the spacious form.
-/
def settingLetters : List Char := "imsUuRx".toList

/-- Whether characters are settings: letters, each once, and at most one minus sign, which is not
the last of them. -/
def areSettings (letters : List Char) : Bool :=
  letters.all (fun c => c ∈ settingLetters || c == '-') && letters.Nodup &&
    letters.getLast? != some '-'

/-- The value of a setting after letters are applied: on, off behind the minus sign, or as before.
-/
def setting (letters : List Char) (letter : Char) (before : Bool) : Bool :=
  if letter ∈ letters then !(letter ∈ letters.dropWhile (· != '-')) else before

def Settings.apply (s : Settings) (letters : List Char) : Settings :=
  { ignoreCase := setting letters 'i' s.ignoreCase, unicode := setting letters 'u' s.unicode }

/-! ### What can be matched -/

mutual

def height : Pattern → Nat
  | empty | settings _ | atom _ | any => 0
  | set s => s.height
  | repeated p | group _ p => p.height + 1
  | sequence ps | choice ps => heights ps + 1

def heights : List Pattern → Nat
  | [] => 0
  | p :: ps => max p.height (heights ps)

end

/-- How deep a pattern can be nested. -/
def deepest : Nat := 250

mutual

/-- The settings behind a pattern; nothing if some part of it is not available. -/
def settingsAfter? : Pattern → Settings → Option Settings
  | empty, s => some s
  | settings letters, s => some (s.apply letters)
  | atom a, s => if a.isAvailable s then some s else none
  | any, s => if s.unicode then some s else none
  | set cs, s => if cs.isAvailable s then some s else none
  | repeated p, s => p.settingsAfter? s
  | group letters p, s => (p.settingsAfter? (s.apply letters)).map fun _ => s
  | sequence ps, s | choice ps, s => settingsAfterAll? ps s

def settingsAfterAll? : List Pattern → Settings → Option Settings
  | [], s => some s
  | p :: ps, s => (p.settingsAfter? s).bind (settingsAfterAll? ps)

end

def isAvailable (p : Pattern) : Bool := p.height ≤ deepest && (p.settingsAfter? {}).isSome

/-- Patterns one after the other, as one. -/
def ofItems : List Pattern → Pattern
  | [] => empty
  | [p] => p
  | ps => sequence ps

/-- Patterns of which one is chosen, as one. -/
def ofBranches : List Pattern → Pattern
  | [p] => p
  | ps => choice ps

/-! ### Groups -/

/-- What an opening parenthesis begins. -/
inductive Opening where
  /-- A group, with settings and perhaps a name. -/
  | group (letters : List Char) (name : Option String)
  /-- Settings for what follows, without a group. -/
  | settings (letters : List Char)
  deriving DecidableEq, Repr

/-- Whether characters name a group. -/
def isName : List Char → Bool
  | [] => false
  | c :: rest =>
    (isAlphabetic c || c == '_') && rest.all fun c => isAlphanumeric c || c ∈ "_.[]".toList

/-- Reads the name of a group up to its angle bracket. -/
def name? (chars : List Char) : Option (Opening × List Char) :=
  let name := chars.takeWhile (· != '>')
  match chars.dropWhile (· != '>') with
  | _ :: rest => if isName name then some (.group [] (some (String.ofList name)), rest) else none
  | [] => none

/-- Reads what follows an opening parenthesis. -/
def opening? : List Char → Option (Opening × List Char)
  | '?' :: '=' :: _ | '?' :: '!' :: _ | '?' :: '<' :: '=' :: _ | '?' :: '<' :: '!' :: _ => none
  | '?' :: 'P' :: '<' :: rest | '?' :: '<' :: rest => name? rest
  | '?' :: rest =>
    let letters := rest.takeWhile fun c => c != ':' && c != ')'
    match areSettings letters, rest.dropWhile fun c => c != ':' && c != ')' with
    | true, ':' :: rest => some (.group letters none, rest)
    | true, ')' :: rest => if letters.isEmpty then none else some (.settings letters, rest)
    | _, _ => none
  | chars => some (.group [] none, chars)

/-! ### Reading -/

/-- An open group, and what stands before it. -/
structure OpenGroup where
  letters : List Char
  items : List Pattern
  branches : List Pattern
  spacious : Bool
  deriving Repr

/-- How far a pattern has been read. -/
structure Reading where
  /-- The items of this branch, the latest first. -/
  items : List Pattern := []
  /-- The branches before this one in the same group, the latest first. -/
  branches : List Pattern := []
  /-- The groups that are open, the innermost first. -/
  groups : List OpenGroup := []
  /-- Whether blanks and comments are passed over. -/
  spacious : Bool := false
  /-- The names of groups so far. -/
  names : List String := []
  deriving Repr

namespace Reading

def add (r : Reading) (p : Pattern) : Reading := { r with items := p :: r.items }

/-- All branches of the innermost group, as one pattern. -/
def content (r : Reading) : Pattern :=
  ofBranches (ofItems r.items.reverse :: r.branches).reverse

/-- Takes in a bar: a new branch begins. -/
def branch (r : Reading) : Reading :=
  { r with items := [], branches := ofItems r.items.reverse :: r.branches }

/-- Takes in a sign of repetition; it needs an item before it, and settings are none. -/
def repeat? (r : Reading) : Option Reading :=
  match r.items with
  | [] | .settings _ :: _ => none
  | p :: items => some { r with items := .repeated p :: items }

/-- Takes in what an opening parenthesis begins; the name of a group must be new. -/
def begin? (r : Reading) : Opening → Option Reading
  | .settings letters =>
    some { r.add (.settings letters) with spacious := setting letters 'x' r.spacious }
  | .group letters name =>
    if name.any (· ∈ r.names) then none
    else some
      { groups := ⟨letters, r.items, r.branches, r.spacious⟩ :: r.groups
        spacious := setting letters 'x' r.spacious
        names := name.toList ++ r.names }

def end? (r : Reading) : Option Reading :=
  match r.groups with
  | [] => none
  | g :: groups =>
    some { r with
      items := .group g.letters r.content :: g.items, branches := g.branches, groups
      spacious := g.spacious }

def step? (r : Reading) : List Char → Option (Reading × List Char)
  | [] => none
  | '(' :: rest => do
    let (opening, rest) ← opening? (skip r.spacious rest)
    return (← r.begin? opening, rest)
  | ')' :: rest => r.end?.map (·, rest)
  | '|' :: rest => some (r.branch, rest)
  | '{' :: _ => none
  | '[' :: rest => do
    let (s, rest) ← CharSet.read? r.spacious rest
    return (r.add (.set s), rest)
  | '\\' :: rest => do
    let (a, rest) ← escape? r.spacious rest
    return (r.add (.atom a), rest)
  | '.' :: rest => some (r.add .any, rest)
  | '^' :: rest | '$' :: rest => some (r.add (.atom (.place false)), rest)
  | c :: rest =>
    if c ∈ "?*+".toList then
      r.repeat?.map (·, if rest.head? = some '?' then rest.drop 1 else rest)
    else some (r.add (.atom (.char ⟨c.toNat, false⟩)), rest)

/-- Reads a pattern to its end, where no group may be open. The reader stops short only if `fuel` is
not more than the number of characters. -/
def finish? (r : Reading) (chars : List Char) : (fuel : Nat) → Option Pattern
  | 0 => none
  | fuel + 1 =>
    match skip r.spacious chars with
    | [] => if r.groups.isEmpty then some r.content else none
    | chars =>
      match r.step? chars with
      | some (r, rest) => r.finish? rest fuel
      | none => none

end Reading

def parse? (text : String) : Option Pattern :=
  ({} : Reading).finish? text.toList (text.length + 1)

end Pattern

/-- Whether a text is a pattern that can be matched. -/
def isPattern (text : String) : Bool := (Pattern.parse? text).any (·.isAvailable)

end TapeMachine.Text
