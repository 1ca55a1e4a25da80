/-!
# TOML documents as trees

A document is a tree of named entries in the order of their first appearance.  A table remembers
how it came about, because that decides what a later line may still add to it: a table written
between braces is closed, one opened by a header is closed to dotted keys, one that a longer
header merely implied may still get its own header, and one made by a dotted key may grow by
further dotted keys.
-/

set_option autoImplicit false

namespace NativeBoundary.Toml

inductive Origin where
  /-- Written between braces. -/
  | braces
  /-- Opened by a header of its own. -/
  | header
  /-- Passed through by a longer header. -/
  | implied
  /-- Passed through by a dotted key. -/
  | dotted
  deriving DecidableEq

/-- A value of a document.  Numbers that are not integers, and dates and times, are told apart
only by their kind. -/
inductive Node where
  | string (text : String)
  | integer (value : Int)
  | float
  | boolean (value : Bool)
  | dateTime
  | array (items : List Node)
  | table (origin : Origin) (entries : List (String × Node))
  /-- Tables opened one after the other by headers in double brackets. -/
  | tables (elements : List (List (String × Node)))

abbrev Entries := List (String × Node)

namespace Entries

def get? (entries : Entries) (key : String) : Option Node :=
  entries.lookup key

def replace (entries : Entries) (key : String) (node : Node) : Entries :=
  entries.map fun (k, old) => if k = key then (k, node) else (k, old)

def add? (entries : Entries) (key : String) (node : Node) : Option Entries :=
  if (entries.get? key).isSome then none else some (entries ++ [(key, node)])

def remove (entries : Entries) (key : String) : Entries :=
  entries.filter fun (k, _) => k ≠ key

/-- Assigns a value to a dotted key: `path` is all but its last part.  Tables on the way that do
not exist are made; a table between braces or with a header of its own is refused, and so is an
implied table or the last of several tables as the place of the assignment itself. -/
def assign : List String → String → Node → Entries → Option Entries
  | [], key, node, entries => entries.add? key node
  | part :: path, key, node, entries =>
    match entries.get? part with
    | none => do
      let inner ← assign path key node []
      pure (entries ++ [(part, .table .dotted inner)])
    | some (.table .dotted inner) => do
      let inner ← assign path key node inner
      pure (entries.replace part (.table .dotted inner))
    | some (.table .implied inner) =>
      if path.isEmpty then none
      else do
        let inner ← assign path key node inner
        pure (entries.replace part (.table .implied inner))
    | some (.tables elements) =>
      if path.isEmpty then none
      else do
        let last ← elements.getLast?
        let last ← assign path key node last
        pure (entries.replace part (.tables (elements.dropLast ++ [last])))
    | some _ => none

/-- Runs an edit on the table that a header's path leads to.  Tables on the way that do not exist
are implied by the header; of several tables the last is meant; a table between braces is
refused. -/
def within {α : Type} (edit : Entries → Option (α × Entries)) :
    List String → Entries → Option (α × Entries)
  | [], entries => edit entries
  | part :: path, entries =>
    match entries.get? part with
    | none => do
      let (a, inner) ← within edit path []
      pure (a, entries ++ [(part, .table .implied inner)])
    | some (.table .braces _) => none
    | some (.table origin inner) => do
      let (a, inner) ← within edit path inner
      pure (a, entries.replace part (.table origin inner))
    | some (.tables elements) => do
      let last ← elements.getLast?
      let (a, last) ← within edit path last
      pure (a, entries.replace part (.tables (elements.dropLast ++ [last])))
    | some _ => none

/-- Takes out the table that a header is about to open: what an implied table holds already, or
nothing if the name is new.  Any other value under the name is refused. -/
def reopen (key : String) (entries : Entries) : Option (Entries × Entries) :=
  match entries.get? key with
  | none => some ([], entries)
  | some (.table .implied inner) => some (inner, entries.remove key)
  | some _ => none

def appendTable (key : String) (table : Entries) (entries : Entries) : Option (Unit × Entries) :=
  match entries.get? key with
  | none => some ((), entries ++ [(key, .tables [table])])
  | some (.tables elements) => some ((), entries.replace key (.tables (elements ++ [table])))
  | some _ => none

end Entries

/-- One line of a document that says something.  A dotted key is all its parts but the last, and
the last. -/
inductive Statement where
  | assign (path : List String) (key : String) (node : Node)
  /-- A header in single brackets. -/
  | openTable (path : List String) (key : String)
  /-- A header in double brackets. -/
  | openElement (path : List String) (key : String)

inductive Place where
  | top
  | table (path : List String) (key : String)
  | element (path : List String) (key : String)

/-- A document being put together: the finished part, the table being filled, and its place. -/
structure Draft where
  root : Entries := []
  current : Entries := []
  place : Place := .top

namespace Draft

def close (d : Draft) : Option Entries :=
  match d.place with
  | .top => some d.current
  | .table path key => do
    let (_, root) ←
      Entries.within (fun entries => do
        let entries ← entries.add? key (.table .header d.current)
        pure ((), entries)) path d.root
    pure root
  | .element path key => do
    let (_, root) ← Entries.within (Entries.appendTable key d.current) path d.root
    pure root

def step (d : Draft) : Statement → Option Draft
  | .assign path key node => do
    let current ← d.current.assign path key node
    pure { d with current }
  | .openTable path key => do
    let root ← d.close
    let (current, root) ← Entries.within (Entries.reopen key) path root
    pure { root, current, place := .table path key }
  | .openElement path key => do
    let root ← d.close
    pure { root, current := [], place := .element path key }

end Draft

def assemble (statements : List Statement) : Option Entries := do
  let draft ← statements.foldlM Draft.step {}
  draft.close

end NativeBoundary.Toml
