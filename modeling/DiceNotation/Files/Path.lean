/-!
# Paths

A path names a place in a directory tree, from the root or from the working directory. Its parts
are the names between slashes; empty parts and single dots carry no meaning and are dropped, double
dots are kept. A path that starts with exactly two slashes keeps both when it is shown.

Resolving a path makes it absolute and removes its double dots, each together with the part before
it. In a tree without links that is the place the path means, if there is one.
-/

set_option autoImplicit false

namespace DiceNotation

/-- Where a path starts. -/
inductive Anchor
  | relative
  | root
  | doubleRoot
deriving DecidableEq

/-- A path. -/
structure Path where
  anchor : Anchor
  parts : List String
deriving DecidableEq

namespace Path

/-- The anchor of a written path. -/
def anchorOf : List Char → Anchor
  | '/' :: '/' :: '/' :: _ => .root
  | '/' :: '/' :: _ => .doubleRoot
  | '/' :: _ => .root
  | _ => .relative

/-- Reads a path. -/
def ofString (text : String) : Path where
  anchor := anchorOf text.toList
  parts := ((text.toList.splitOn '/').map String.ofList).filter fun part =>
    part != "" && part != "."

/-- The absolute path of some parts. -/
def absolute (parts : List String) : Path :=
  ⟨.root, parts⟩

/-- How a path is shown. -/
def display (path : Path) : String :=
  let parts := "/".intercalate path.parts
  match path.anchor with
  | .relative => if path.parts.isEmpty then "." else parts
  | .root => "/" ++ parts
  | .doubleRoot => "//" ++ parts

/-- The path of an entry of a directory. -/
def child (path : Path) (name : String) : Path :=
  { path with parts := path.parts ++ [name] }

/-- The path without its last part. -/
def parent (path : Path) : Path :=
  { path with parts := path.parts.dropLast }

/-- The parts of a path as seen from a working directory, double dots included. -/
def seenFrom (path : Path) (workingDirectory : List String) : List String :=
  match path.anchor with
  | .relative => workingDirectory ++ path.parts
  | _ => path.parts

/-- Whether a part holds the character that no name can hold. -/
def holdsNull (path : Path) : Bool :=
  path.parts.any (·.contains '\x00')

/-- Removes the double dots from some parts, each with the part before it. -/
def removeDots (parts : List String) : List String :=
  parts.foldl (fun kept part => if part == ".." then kept.dropLast else kept ++ [part]) []

/-- The parts of the place that a path means. -/
def resolve (path : Path) (workingDirectory : List String) : List String :=
  removeDots (path.seenFrom workingDirectory)

end Path

end DiceNotation
