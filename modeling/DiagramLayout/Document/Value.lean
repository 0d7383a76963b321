import DiagramLayout.Decimal.Text
import DiagramLayout.Text.Quoted

/-!
# Document values

The tree that a structured document is read into before it is taken apart: numbers, texts, points in
time, lists, and tables of named values. Two formats are known. They describe what they have found
in slightly different words, which `DocumentFormat.describe` holds, and they have different ways to
say nothing, which `DocumentFormat.isNothing` lists.
-/

namespace DiagramLayout

/-- A value in a structured document. -/
inductive Value where
  | null
  | bool (b : Bool)
  | integer (n : Int)
  | float (x : Float)
  | text (s : String)
  /-- A date, a time of day or both, as it is written. -/
  | moment (s : String)
  | list (items : List Value)
  | table (entries : List (String × Value))

mutual

/-- True if all integers in a value are machine words with a sign. -/
def Value.hasSmallIntegers : Value → Bool
  | .integer n => Int64.minValue.toInt ≤ n && n ≤ Int64.maxValue.toInt
  | .list items => haveSmallIntegers items
  | .table entries => entriesHaveSmallIntegers entries
  | _ => true

/-- True if all integers in a list of values are machine words with a sign. -/
def haveSmallIntegers : List Value → Bool
  | [] => true
  | item :: rest => item.hasSmallIntegers && haveSmallIntegers rest

/-- True if all integers in the entries of a table are machine words with a sign. -/
def entriesHaveSmallIntegers : List (String × Value) → Bool
  | [] => true
  | (_, v) :: rest => v.hasSmallIntegers && entriesHaveSmallIntegers rest

end

/-- The entries of a table with a further one in its place by name. One of the same name is
replaced. -/
def insertEntry (name : String) (value : Value) : List (String × Value) → List (String × Value)
  | [] => [(name, value)]
  | (n, v) :: rest =>
    if name < n then (name, value) :: (n, v) :: rest
    else if name = n then (name, value) :: rest
    else (n, v) :: insertEntry name value rest

/-- The value with a name. -/
def findEntry (entries : List (String × Value)) (name : String) : Option Value :=
  entries.lookup name

/-- The formats of documents. -/
inductive DocumentFormat where
  | json
  | toml
deriving DecidableEq, Repr

namespace DocumentFormat

/-- The layout of a number that is described. -/
def numberStyle : DocumentFormat → DecimalStyle
  | json => ⟨some (-5, 15), true, true, true, .even⟩
  | toml => ⟨none, true, false, true, .away⟩

/-- True of the integers that a machine word holds, with or without a sign. -/
def isWord (n : Int) : Bool := Int64.minValue.toInt ≤ n && n < UInt64.size

/-- What a value is called in a message. -/
def describe (format : DocumentFormat) : Value → String
  | .null => "null"
  | .bool b => "boolean `" ++ toString b ++ "`"
  | .integer n => "integer `" ++ toString n ++ "`"
  | .float x => "floating point `" ++ format.numberStyle.write x ++ "`"
  | .text s => "string " ++ quote s
  | .list _ => "sequence"
  | .moment _ | .table _ => "map"

/-- The sort of a value. -/
def sortOf : Value → String
  | .null => "null"
  | .bool _ => "boolean"
  | .integer _ => "integer"
  | .float _ => "float"
  | .text _ => "string"
  | .moment _ => "datetime"
  | .list _ => "array"
  | .table _ => "table"

/-- Whether a list in place of a record may go on behind the last field. -/
def allowsSurplus : DocumentFormat → Bool
  | json => false
  | toml => true

/-- True of the values by which a document says nothing. -/
def isNothing : DocumentFormat → Value → Bool
  | json, .null => true
  | toml, .list [] => true
  | toml, .table [] => true
  | _, _ => false

end DocumentFormat

end DiagramLayout
