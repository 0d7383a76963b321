import DiagramLayout.Toml.Scalar
import DiagramLayout.Toml.Tree

/-!
# TOML documents

A document is a sequence of lines: headers, which open the table that the following entries belong
to, entries of a name and a value, and comments. Lists and inline tables nest, but no deeper than
`nestingLimit`. The readers for them also take a bound on the depth of their recursion, for which
the number of characters is always enough. `Toml.parse?` reads a whole document and answers nothing
if it is not one.
-/

namespace DiagramLayout.Toml

/-- The characters behind a comment, if one starts here, and otherwise the characters themselves.
Nothing if the comment holds what may stand nowhere. -/
def skipComment : List Char → Option (List Char)
  | '#' :: rest =>
    let (comment, rest) := rest.span fun c => c != '\n'
    let comment := if rest.isEmpty then comment
      else if comment.getLast? = some '\r' then comment.dropLast else comment
    if comment.any isForbidden then none else some rest
  | cs => some cs

/-- The characters behind blanks, line breaks and comments. The bound is on the number of lines. -/
def skipLines : Nat → List Char → Option (List Char)
  | 0, cs => some cs
  | fuel + 1, cs => do
    let rest ← skipComment (skipBlanks cs)
    match lineBreak? rest with
    | some rest => skipLines fuel rest
    | none => return rest

/-- How many lists and inline tables may lie within each other, and how many names may be joined. -/
def nestingLimit : Nat := 80

mutual

/-- A value of any sort, in which lists and inline tables nest to some depth at most. -/
def value : Nat → Nat → Reader Value
  | 0, _, _ => none
  | fuel + 1, depth, cs =>
    match cs, depth with
    | '[' :: rest, depth + 1 =>
      (items fuel depth rest).map fun (items, rest) => (.list items, rest)
    | '\x7b' :: rest, depth + 1 =>
      (inlineEntries fuel depth [] rest).map fun (entries, rest) =>
        (.table (tableEntries entries), rest)
    | '"' :: _, _ | '\'' :: _, _ => (text cs).map fun (s, rest) => (.text s, rest)
    | _, _ => word cs

/-- The items of a list up to the bracket that closes it. -/
def items : Nat → Nat → Reader (List Value)
  | 0, _, _ => none
  | fuel + 1, depth, cs => do
    match ← skipLines cs.length cs with
    | ']' :: rest => return ([], rest)
    | rest =>
      let (first, rest) ← value fuel depth rest
      match ← skipLines rest.length rest with
      | ']' :: rest => return ([first], rest)
      | ',' :: rest =>
        let (others, rest) ← items fuel depth rest
        return (first :: others, rest)
      | _ => none

/-- The entries of an inline table up to the brace that closes it, behind those read before. Lines
may break everywhere but within the path of a name. -/
def inlineEntries : Nat → Nat → Entries → Reader Entries
  | 0, _, _, _ => none
  | fuel + 1, depth, before, cs => do
    match ← skipLines cs.length cs with
    | '\x7d' :: rest => return (before, rest)
    | rest =>
      let (names, rest) ← path nestingLimit rest
      match ← skipLines rest.length rest with
      | '=' :: rest =>
        let (v, rest) ← value fuel depth (← skipLines rest.length rest)
        let entries ← before.addValue v names
        match ← skipLines rest.length rest with
        | '\x7d' :: rest => return (entries, rest)
        | ',' :: rest => inlineEntries fuel depth entries rest
        | _ => none
      | _ => none

end

/-- A document in the making: its tables, and the path of the table that is open. -/
structure Draft where
  root : Entries
  current : List String

namespace Draft

/-- Opens the table of a header. -/
def openHeader (d : Draft) (names : List String) : Option Draft := do
  let last ← names.getLast?
  let root ← Entries.changeAt (Entries.openTable last) names.dropLast d.root
  return ⟨root, names⟩

/-- Opens the list element of a header. -/
def openElementHeader (d : Draft) (names : List String) : Option Draft := do
  let last ← names.getLast?
  let root ← Entries.changeAt (Entries.openElement last) names.dropLast d.root
  return ⟨root, names⟩

/-- Adds an entry to the table that is open. -/
def add (d : Draft) (names : List String) (v : Value) : Option Draft := do
  let root ← Entries.changeAt (·.addValue v names) d.current d.root
  return { d with root }

end Draft

/-- What stands on one line, up to the blanks and the comment at its end. -/
def line (d : Draft) (cs : List Char) : Option (Draft × List Char) :=
  match cs with
  | '[' :: '[' :: rest => do
    let (names, rest) ← path nestingLimit rest
    match rest with
    | ']' :: ']' :: rest => return (← d.openElementHeader names, rest)
    | _ => none
  | '[' :: rest => do
    let (names, rest) ← path nestingLimit rest
    match rest with
    | ']' :: rest => return (← d.openHeader names, rest)
    | _ => none
  | cs => do
    let (names, rest) ← path nestingLimit cs
    match rest with
    | '=' :: rest =>
      let (v, rest) ← value rest.length nestingLimit (skipBlanks rest)
      return (← d.add names v, rest)
    | _ => none

/-- The lines of a document, at most as many as the bound says. -/
def lines : Nat → Draft → List Char → Option Draft
  | 0, d, cs => if cs.isEmpty then some d else none
  | fuel + 1, d, cs => do
    match ← skipLines cs.length cs with
    | [] => return d
    | cs =>
      let (d, rest) ← line d cs
      match ← skipComment (skipBlanks rest) with
      | [] => return d
      | rest => lines fuel d (← lineBreak? rest)

/-- The characters behind the byte order mark that a document may start with. -/
def skipByteOrderMark : List Char → List Char
  | '\uFEFF' :: rest => rest
  | cs => cs

/-- The table that a document describes. -/
def parse? (source : String) : Option Value := do
  let chars := skipByteOrderMark source.toList
  let draft ← lines (chars.length + 1) ⟨[], []⟩ chars
  return .table (tableEntries draft.root)

end DiagramLayout.Toml
