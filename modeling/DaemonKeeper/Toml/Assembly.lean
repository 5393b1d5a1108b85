import DaemonKeeper.Toml.Value
set_option autoImplicit false

/-!
# TOML: putting a document together

A document is a run of sections, each a header with the assignments under it.  A table may come
about in three ways, by its own header, on the way to a deeper header, or by a dotted key, and
how it came about decides what may still be added to it.
-/

namespace DaemonKeeper.Toml

/-- How a table came about. -/
inductive Origin where
  | header
  | passed
  | dotted
  deriving DecidableEq, Repr

/-- A table under construction, or a value that is closed. -/
inductive Node where
  | value (v : Value)
  | table (origin : Origin) (entries : List (String × Node))
  | tables (elements : List (List (String × Node)))
  deriving Inhabited

/-- The entries of a table under construction. -/
abbrev Nodes := List (String × Node)

/-- `key = value`, the key with the names before its last dot. -/
structure Assignment where
  path : List String
  key : String
  value : Value

/-- A header: `[path.key]`, or `[[path.key]]` for one more element of an array of tables. -/
structure Header where
  path : List String
  key : String
  element : Bool

/-- A header with the assignments under it. -/
structure Section where
  header : Header
  body : List Assignment

namespace Node

mutual
/-- The finished value. -/
def toValue : Node → Value
  | .value v => v
  | .table _ entries => .table (entriesToTable entries)
  | .tables elements => .array (elementsToValues elements)

/-- The finished table. -/
def entriesToTable : List (String × Node) → Table
  | [] => []
  | (name, node) :: rest => (name, toValue node) :: entriesToTable rest

/-- The finished tables of an array. -/
def elementsToValues : List (List (String × Node)) → List Value
  | [] => []
  | entries :: rest => .table (entriesToTable entries) :: elementsToValues rest
end

end Node

namespace Nodes

/-- Puts a node in the place of the one with the same name. -/
def replace (name : String) (node : Node) (entries : Nodes) : Nodes :=
  entries.map fun entry => if entry.1 = name then (name, node) else entry

/-- Edits the table at the end of a path.  Missing tables on the way are created with the given
origin; a dotted key does not enter a table that has a header of its own; the last element stands
for an array of tables. -/
def editAt (created : Origin) (edit : Origin → Nodes → Option Nodes) :
    List String → Origin → Nodes → Option Nodes
  | [], own, entries => edit own entries
  | name :: rest, _, entries =>
    match entries.lookup name with
    | none => (editAt created edit rest created []).map fun inner =>
        entries ++ [(name, .table created inner)]
    | some (.table origin inner) =>
      if created = .dotted && origin = .header then none
      else (editAt created edit rest origin inner).map fun inner =>
        replace name (.table origin inner) entries
    | some (.tables elements) =>
      match elements.getLast? with
      | none => none
      | some last => (editAt created edit rest .header last).map fun inner =>
          replace name (.tables (elements.dropLast ++ [inner])) entries
    | some (.value _) => none

/-- Makes one assignment.  The name must be free, and the table that a dotted key leads to must
itself have come about by dotted keys. -/
def assign (entries : Nodes) (a : Assignment) : Option Nodes :=
  editAt .dotted (fun own inner =>
      if (own == .dotted) == a.path.isEmpty || (inner.lookup a.key).isSome then none
      else some (inner ++ [(a.key, .value a.value)]))
    a.path .header entries

/-- Makes assignments in order. -/
def fill (entries : Nodes) (body : List Assignment) : Option Nodes := body.foldlM assign entries

/-- Adds a section.  A header may name a table that was only passed on the way to a deeper one,
which then moves to the end, but no table twice. -/
def addSection (entries : Nodes) (s : Section) : Option Nodes :=
  editAt .passed (fun _ inner =>
      match s.header.element, inner.lookup s.header.key with
      | false, none =>
        (fill [] s.body).map fun filled => inner ++ [(s.header.key, .table .header filled)]
      | false, some (.table .passed old) =>
        (fill old s.body).map fun filled =>
          inner.filter (·.1 ≠ s.header.key) ++ [(s.header.key, .table .header filled)]
      | true, none =>
        (fill [] s.body).map fun filled => inner ++ [(s.header.key, .tables [filled])]
      | true, some (.tables elements) =>
        (fill [] s.body).map fun filled =>
          replace s.header.key (.tables (elements ++ [filled])) inner
      | _, _ => none)
    s.header.path .header entries

end Nodes

/-- The table of an inline table or of a document without headers. -/
def tableOfAssignments (body : List Assignment) : Option Table :=
  (Nodes.fill [] body).map Node.entriesToTable

/-- The table of a document: the assignments before the first header, then the sections. -/
def tableOfSections (body : List Assignment) (sections : List Section) : Option Table := do
  let root ← Nodes.fill [] body
  let entries ← sections.foldlM Nodes.addSection root
  return Node.entriesToTable entries

end DaemonKeeper.Toml
