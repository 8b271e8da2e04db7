/-!
# Directories

A tree of files as seen from a working directory, and what a path leads to in it. What is read there
is bytes, which must be the UTF-8 form of a text.

A path is followed name by name. An empty name and a single dot stay where they are, two dots go up,
and any other name goes down; each of them needs a directory to stand in, so that nothing can follow
the name of a file, not even a slash. The tree is known below the working directory, and below the
top as far as it was given; nothing else is known to exist.
-/

namespace TapeMachine.CommandLine

/-! ## Reading -/

/-- Why a name gives no text. -/
inductive ReadError where
  | missing
  /-- The path goes on below something that is no directory. -/
  | notDirectory
  | directory
  | nameTooLong
  | notText
  /-- Anything else, for a reason that the system gives. -/
  | other (reason : String)
  deriving DecidableEq, Repr

def ReadError.message : ReadError → String
  | missing => "No such file or directory (os error 2)"
  | notDirectory => "Not a directory (os error 20)"
  | directory => "Is a directory (os error 21)"
  | nameTooLong => "File name too long (os error 36)"
  | notText => "stream did not contain valid UTF-8"
  | other reason => reason

/-- The failed read that a number of the system stands for. -/
def ReadError.ofCode? : Nat → Option ReadError
  | 2 => some missing
  | 20 => some notDirectory
  | 21 => some directory
  | 36 => some nameTooLong
  | _ => none

def decodeText (bytes : ByteArray) : Except ReadError String :=
  match String.fromUTF8? bytes with
  | some text => .ok text
  | none => .error .notText

/-! ## Trees of files -/

/-- What has a name in a tree. -/
inductive Node where
  | directory
  | file (bytes : ByteArray)

/-- Files and directories, each under the names that lead to it. -/
abbrev Tree := List (List String × Node)

def pathNames (path : String) : List String :=
  (path.splitOn "/").filter fun name => name ≠ "" && name ≠ "."

/-- What stands in a tree under names. Whatever something stands below is a directory. -/
def Tree.node? (tree : Tree) (names : List String) : Option Node :=
  match tree.find? (·.1 == names) with
  | some (_, node) => some node
  | none =>
    if names.isEmpty || tree.any (names.isPrefixOf ·.1) then some .directory else none

inductive Place where
  /-- Below the working directory, by the names on the way. -/
  | inside (names : List String)
  /-- Below the top of the file system. -/
  | below (names : List String)
  /-- A directory that holds the working directory. -/
  | above
  /-- A place of which nothing is known. -/
  | unknown
  deriving DecidableEq, Repr

namespace Place

/-- Where two dots lead. There is no way up from the top. -/
def parent : Place → Place
  | inside [] => above
  | inside names => inside names.dropLast
  | below names => below names.dropLast
  | above => above
  | unknown => unknown

/-- Where a name leads. -/
def child (name : String) : Place → Place
  | inside names => inside (names ++ [name])
  | below names => below (names ++ [name])
  | above => unknown
  | unknown => unknown

/-- Where a path starts. -/
def start (path : String) : Place := if path.startsWith "/" then below [] else inside []

end Place

/-- What is known of a file system. -/
structure FileSystem where
  /-- The tree below the working directory. -/
  inside : Tree := []
  /-- The tree below the top. -/
  below : Tree := []

namespace FileSystem

/-- The most bytes that a name can have. -/
def longestName : Nat := 255

/-- The most bytes that a path can have. -/
def longestPath : Nat := 4095

def node? (fs : FileSystem) : Place → Option Node
  | .inside names => fs.inside.node? names
  | .below names => fs.below.node? names
  | .above => some .directory
  | .unknown => none

def follow (fs : FileSystem) (place : Place) : List String → Except ReadError Node
  | [] =>
    match fs.node? place with
    | some node => .ok node
    | none => .error .missing
  | name :: rest =>
    match fs.node? place with
    | none => .error .missing
    | some (.file _) => .error .notDirectory
    | some .directory =>
      if name = "" ∨ name = "." then fs.follow place rest
      else if name = ".." then fs.follow place.parent rest
      else if longestName < name.utf8ByteSize then .error .nameTooLong
      else fs.follow (place.child name) rest

def find (fs : FileSystem) (path : String) : Except ReadError Node :=
  if longestPath < path.utf8ByteSize then .error .nameTooLong
  else fs.follow (.start path) (path.splitOn "/")

def read (fs : FileSystem) (path : String) : Except ReadError ByteArray :=
  match fs.find path with
  | .error e => .error e
  | .ok .directory => .error .directory
  | .ok (.file bytes) => .ok bytes

end FileSystem

end TapeMachine.CommandLine
