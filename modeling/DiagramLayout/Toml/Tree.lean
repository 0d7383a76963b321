import DiagramLayout.Document.Value

/-!
# Building TOML tables

The entries of a TOML document arrive one after the other and the tables grow with them. What may be
added to a table depends on how the table came about, so the tree keeps that: a table that a header
opens, one that exists only because something within it does, and one that a name with points has
made. Nothing is ever defined twice.
-/

namespace DiagramLayout.Toml

/-- How a table came about. -/
inductive Origin where
  /-- A header opened it. -/
  | header
  /-- A header opened a table within it. -/
  | within
  /-- A name with points leads through it. -/
  | points
deriving DecidableEq, Repr

/-- A document in the making. -/
inductive Node where
  /-- A finished value. -/
  | leaf (value : Value)
  /-- A table, with its entries in the order in which they came. -/
  | table (origin : Origin) (entries : List (String × Node))
  /-- A list of tables that headers open one by one, each with its entries. -/
  | tables (elements : List (List (String × Node)))

/-- The entries of a table that may still grow. -/
abbrev Entries := List (String × Node)

namespace Entries

/-- The node with a name. -/
def find (entries : Entries) (name : String) : Option Node := entries.lookup name

/-- The entries with another node for a name that they have. -/
def replace (entries : Entries) (name : String) (node : Node) : Entries :=
  entries.map fun (n, old) => if n == name then (n, node) else (n, old)

/-- Changes the table that a path of headers leads to. Tables on the way are made if they are
missing, and a list of tables is entered at its last element. -/
def changeAt (change : Entries → Option Entries) : List String → Entries → Option Entries
  | [], entries => change entries
  | name :: path, entries =>
    match entries.find name with
    | none => do
      let inner ← changeAt change path []
      return entries ++ [(name, .table .within inner)]
    | some (.table origin inner) => do
      let inner ← changeAt change path inner
      return entries.replace name (.table origin inner)
    | some (.tables elements) => do
      let last ← elements.getLast?
      let last ← changeAt change path last
      return entries.replace name (.tables (elements.dropLast ++ [last]))
    | some (.leaf _) => none

/-- Opens a table. It may only have come about by a table within it. -/
def openTable (name : String) (entries : Entries) : Option Entries :=
  match entries.find name with
  | none => some (entries ++ [(name, .table .header [])])
  | some (.table .within inner) => some (entries.replace name (.table .header inner))
  | some _ => none

/-- Opens a further element of a list of tables. -/
def openElement (name : String) (entries : Entries) : Option Entries :=
  match entries.find name with
  | none => some (entries ++ [(name, .tables [[]])])
  | some (.tables elements) => some (entries.replace name (.tables (elements ++ [[]])))
  | some _ => none

/-- Adds a value under a path of names, of which the last must be new. The path may not lead through
a table that a header has opened, other than the last element of a list of tables. `accepts` says
whether the value may go right into these entries: at the end of a path with points it may only if
points have made them. -/
def addAlong (value : Value) : List String → Bool → Entries → Option Entries
  | [], _, _ => none
  | [name], accepts, entries =>
    match entries.find name with
    | none => if accepts then some (entries ++ [(name, .leaf value)]) else none
    | some _ => none
  | name :: path, _, entries =>
    match entries.find name with
    | none => do
      let inner ← addAlong value path true []
      return entries ++ [(name, .table .points inner)]
    | some (.table .header _) => none
    | some (.table origin inner) => do
      let inner ← addAlong value path (origin == .points) inner
      return entries.replace name (.table origin inner)
    | some (.tables elements) => do
      let last ← elements.getLast?
      let last ← addAlong value path false last
      return entries.replace name (.tables (elements.dropLast ++ [last]))
    | some (.leaf _) => none

/-- Adds a value under a name, which may have points. -/
def addValue (entries : Entries) (value : Value) (names : List String) : Option Entries :=
  addAlong value names true entries

end Entries

mutual

/-- The finished value of a node. -/
def Node.toValue : Node → Value
  | .leaf value => value
  | .table _ entries => .table (tableEntries entries)
  | .tables elements => .list (tableElements elements)

/-- The finished entries of a table, by name. -/
def tableEntries : List (String × Node) → List (String × Value)
  | [] => []
  | (name, node) :: rest => insertEntry name node.toValue (tableEntries rest)

/-- The finished elements of a list of tables. -/
def tableElements : List (List (String × Node)) → List Value
  | [] => []
  | entries :: rest => .table (tableEntries entries) :: tableElements rest

end

end DiagramLayout.Toml
