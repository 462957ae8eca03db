import DiceNotation.Toml.Problem
import DiceNotation.Toml.Value

/-!
# Building a TOML document

The statements of a document open tables and assign values. What may be opened or assigned depends
on how a table came to be:

* A header `[a.b]` declares `a.b` and implies `a`. A table is declared at most once; an implied
  table may still be declared.
* A header `[[a]]` adds a table to an array of tables. Later headers that pass through `a` mean its
  last table.
* A dotted key `a.b = 1` opens `a` below the current header. Until the next header, further dotted
  keys may extend `a`; after it, neither a header nor a dotted key may open `a` again, though a
  longer header may pass through it.
* A value written in place, an inline table or array included, is closed for good.

A section is the part of a document between two headers; sections are numbered from zero.
-/

set_option autoImplicit false

namespace DiceNotation.Toml

/-- How a table came to be. -/
inductive Origin
  /-- A longer header passes through it. -/
  | implied
  /-- It has a header of its own. -/
  | declared
  /-- A dotted key of a section opened it. -/
  | dotted (sectionNumber : Nat)
deriving DecidableEq

/-- A part of a document that is being built. -/
inductive Node
  | closed (value : Value)
  | table (origin : Origin) (entries : List (String × Node))
  /-- The finished tables of an array, the last first, and the table that is being filled. -/
  | tables (finished : List (List (String × Node))) (current : List (String × Node))

/-- The entries of a table that is being built. -/
abbrev Entries : Type :=
  List (String × Node)

namespace Entries

/-- Replaces the node of a name, or adds it at the end. -/
def set (name : String) (node : Node) : Entries → Entries
  | [] => [(name, node)]
  | (other, old) :: rest =>
    if other == name then (name, node) :: rest else (other, old) :: set name node rest

/-- Opens the table `name`, or one below it, by a header. -/
def declare (entries : Entries) (name : String) : List String → Except Cause Entries
  | [] =>
    match entries.lookup name with
    | none => .ok (set name (.table .declared []) entries)
    | some (.table .implied inner) => .ok (set name (.table .declared inner) entries)
    | some (.closed _) => .error .overwrite
    | some _ => .error .duplicateTable
  | next :: more =>
    match entries.lookup name with
    | none => do
      let inner ← declare [] next more
      return set name (.table .implied inner) entries
    | some (.table origin inner) => do
      let inner ← declare inner next more
      return set name (.table origin inner) entries
    | some (.tables finished current) => do
      let current ← declare current next more
      return set name (.tables finished current) entries
    | some (.closed _) => .error .overwrite

/-- Adds a table to the array `name`, or to one below it, by a header. -/
def extend (entries : Entries) (name : String) : List String → Except Cause Entries
  | [] =>
    match entries.lookup name with
    | none => .ok (set name (.tables [] []) entries)
    | some (.tables finished current) =>
      .ok (set name (.tables (current :: finished) []) entries)
    | some _ => .error .overwrite
  | next :: more =>
    match entries.lookup name with
    | none => do
      let inner ← extend [] next more
      return set name (.table .implied inner) entries
    | some (.table origin inner) => do
      let inner ← extend inner next more
      return set name (.table origin inner) entries
    | some (.tables finished current) => do
      let current ← extend current next more
      return set name (.tables finished current) entries
    | some (.closed _) => .error .overwrite

/-- Assigns a value to a dotted key in a section. -/
def assign (sectionNumber : Nat) (value : Value) (entries : Entries) (name : String) :
    List String → Except Cause Entries
  | [] =>
    match entries.lookup name with
    | none => .ok (set name (.closed value) entries)
    | some _ => .error .overwrite
  | next :: more => do
    let inner ← match entries.lookup name with
      | none => .ok []
      | some (.table .implied inner) => .ok inner
      | some (.table (.dotted opened) inner) =>
        if opened = sectionNumber then .ok inner else .error .redefine
      | some (.table .declared _) => .error .redefine
      | some (.tables _ _) => .error .redefine
      | some (.closed _) => .error .overwrite
    let inner ← assign sectionNumber value inner next more
    return set name (.table (.dotted sectionNumber) inner) entries

/-- Assigns a value to a dotted key below a header. -/
def assignBelow (sectionNumber : Nat) (value : Value) (name : String) (more : List String)
    (entries : Entries) : List String → Except Cause Entries
  | [] => assign sectionNumber value entries name more
  | step :: header =>
    match entries.lookup step with
    | some (.table origin inner) => do
      let inner ← assignBelow sectionNumber value name more inner header
      return set step (.table origin inner) entries
    | some (.tables finished current) => do
      let current ← assignBelow sectionNumber value name more current header
      return set step (.tables finished current) entries
    | _ => .error .overwrite

end Entries

mutual

/-- The value of a finished node. -/
def Node.toValue : Node → Value
  | .closed value => value
  | .table _ entries => .table (entriesToTable entries)
  | .tables finished current =>
    .array ((.table (entriesToTable current) :: finishedToValues finished).reverse)

/-- The table of finished entries. -/
def entriesToTable : List (String × Node) → List (String × Value)
  | [] => []
  | (name, node) :: rest => (name, node.toValue) :: entriesToTable rest

/-- The values of the finished tables of an array. -/
def finishedToValues : List (List (String × Node)) → List Value
  | [] => []
  | entries :: rest => .table (entriesToTable entries) :: finishedToValues rest

end

/-- A document that is being built: its entries, the header in force, and the number of the
section. -/
structure Document where
  entries : Entries := []
  header : List String := []
  sectionNumber : Nat := 0

namespace Document

/-- Begins a section with a table. -/
def declare (document : Document) (name : String) (more : List String) :
    Except Cause Document := do
  let entries ← document.entries.declare name more
  return ⟨entries, name :: more, document.sectionNumber + 1⟩

/-- Begins a section with a table of an array. -/
def extend (document : Document) (name : String) (more : List String) :
    Except Cause Document := do
  let entries ← document.entries.extend name more
  return ⟨entries, name :: more, document.sectionNumber + 1⟩

/-- Assigns a value in the current section. -/
def assign (document : Document) (name : String) (more : List String) (value : Value) :
    Except Cause Document := do
  let entries ← document.entries.assignBelow document.sectionNumber value name more document.header
  return { document with entries }

/-- The table of a finished document. -/
def toTable (document : Document) : Table :=
  entriesToTable document.entries

end Document

end DiceNotation.Toml
