import DiceNotation.Files.Path

/-!
# Directory trees

A tree says of every absolute path whether there is a file with some content, a directory, or
nothing; there are no links. The system can deny access: a file may be kept from being read, and a
directory may be closed, so that nothing in it can be looked at.

A path is followed one name at a time: each place on the way must be an open directory, and no name
may be longer than the system admits. A path that is too long as a whole, or that has the null
character in it, is not followed at all. What stands in the way is the obstacle.
-/

set_option autoImplicit false

namespace DiceNotation

/-- What is found at a path. -/
inductive Entry
  /-- A file, with its content if it may be read. -/
  | file (content : Option ByteArray)
  | directory

/-- A directory tree: the entry at every absolute path other than the root, and whether a directory
there is closed. -/
structure FileTree where
  entry? : List String → Option Entry
  isClosed : List String → Bool := fun _ => false

/-- Why a path cannot be followed. -/
inductive Obstacle
  | missing
  | notDirectory
  /-- A directory on the way is closed. -/
  | denied
  /-- One of its names, or the path as a whole, is too long. -/
  | nameTooLong
  | nullCharacter
deriving DecidableEq

/-- An access that the system refused, with the path that was asked for. -/
structure Refusal where
  path : Path
  obstacle : Obstacle
deriving DecidableEq

/-- A tree, and the working directory in it. -/
structure World where
  tree : FileTree
  workingDirectory : List String

/-- The greatest length of a name, in bytes. -/
def maxNameLength : Nat := 255

/-- The greatest length of a path as it is shown, in bytes. -/
def maxPathLength : Nat := 4095

namespace FileTree

/-- The entry at a place; the root is a directory. -/
def at? (tree : FileTree) (place : List String) : Option Entry :=
  if place.isEmpty then some .directory else tree.entry? place

/-- Goes from a place to one of its entries, or up. -/
def enter (tree : FileTree) (place : List String) (name : String) :
    Except Obstacle (List String) :=
  match tree.at? place with
  | none => .error .missing
  | some (.file _) => .error .notDirectory
  | some .directory =>
    if tree.isClosed place then .error .denied
    else if name == ".." then .ok place.dropLast
    else if maxNameLength < name.utf8ByteSize then .error .nameTooLong
    else
      match tree.at? (place ++ [name]) with
      | none => .error .missing
      | some _ => .ok (place ++ [name])

/-- Follows names from a place. -/
def follow (tree : FileTree) (place : List String) : List String → Except Obstacle (List String)
  | [] => .ok place
  | name :: rest =>
    match tree.enter place name with
    | .ok next => tree.follow next rest
    | .error obstacle => .error obstacle

/-- Whether one list of names begins with another. -/
def below (place other : List String) : Bool :=
  place.isPrefixOf other

/-- The tree with the given files and directories, and the directories above them, where nothing is
denied. -/
def ofFiles (files : List (List String × ByteArray)) (directories : List (List String)) :
    FileTree where
  entry? place :=
    match files.lookup place with
    | some content => some (.file (some content))
    | none =>
      if files.any (below place ·.1) || directories.any (below place) then some .directory
      else none

end FileTree

namespace World

/-- The entry that a path leads to. -/
def find (world : World) (path : Path) : Except Obstacle Entry :=
  if path.holdsNull then .error .nullCharacter
  else if maxPathLength < path.display.utf8ByteSize then .error .nameTooLong
  else
    let start := match path.anchor with
      | .relative => world.workingDirectory
      | _ => []
    match world.tree.follow start path.parts with
    | .error obstacle => .error obstacle
    | .ok place => (world.tree.at? place).elim (.error .missing) .ok

/-- The place that a path means, whether or not anything is there. -/
def place (world : World) (path : Path) : Except Refusal (List String) :=
  if path.holdsNull then .error ⟨path, .nullCharacter⟩
  else .ok (path.resolve world.workingDirectory)

/-- Whether a path leads to a file. A path that leads nowhere does not; one that is too long or
denied is refused. -/
def isFile (world : World) (path : Path) : Except Refusal Bool :=
  match world.find path with
  | .ok (.file _) => .ok true
  | .ok .directory => .ok false
  | .error .nameTooLong => .error ⟨path, .nameTooLong⟩
  | .error .denied => .error ⟨path, .denied⟩
  | .error _ => .ok false

/-- Makes a directory the working directory, unless it is closed. -/
def changeTo (world : World) (path : Path) : Except Refusal World :=
  match world.find path with
  | .ok .directory =>
    let place := path.resolve world.workingDirectory
    if world.tree.isClosed place then .error ⟨path, .denied⟩
    else .ok { world with workingDirectory := place }
  | .ok (.file _) => .error ⟨path, .notDirectory⟩
  | .error obstacle => .error ⟨path, obstacle⟩

end World

end DiceNotation
