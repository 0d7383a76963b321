import DiagramLayout.Document.Value

/-!
# Decoding values

A decoder takes something typed out of a value in a document of some format, or it says why it
cannot. A record is decoded from a table by name, or from a list by position: `Fields` names the
fields in order and reads each of them from wherever the value of a name comes from. All faults of a
record are collected, and one of them is reported. In a table a bad value comes before a missing
one, the first by name; in a list faults come by position.
-/

namespace DiagramLayout

/-- Why a document value is not what it should be. -/
inductive DecodeError where
  /-- A value of another sort. -/
  | wrongType (found : Value) (expected : String)
  /-- An integer beyond what is accepted. -/
  | outOfRange (found : Int) (expected : String)
  /-- A keyword that is not among those accepted. -/
  | unknownKeyword (found : String) (expected : List String)
  /-- A value that can name no keyword. -/
  | notAKeyword (found : Value)
  /-- A table in place of a keyword that has not a single entry. -/
  | notOneKeyword (entries : Nat)
  /-- A keyword that comes with a value. -/
  | keywordWithValue (value : Value)
  /-- A field without a value. -/
  | missingField (name : String)
  /-- A list that ends before the item at a position that must be there. -/
  | tooFewItems (position : Nat) (expected : String)
  /-- A list that goes on after the last field. -/
  | tooManyItems (items : Nat)

namespace DecodeError

/-- Texts in backquotes, separated by commas. -/
def listKeywords (keywords : List String) : String :=
  ", ".intercalate (keywords.map fun k => "`" ++ k ++ "`")

/-- The text of a decoding error about a document of some format. -/
def message (format : DocumentFormat) : DecodeError → String
  | wrongType found expected =>
    "invalid type: " ++ format.describe found ++ ", expected " ++ expected
  | outOfRange found expected =>
    "invalid value: " ++ format.describe (.integer found) ++ ", expected " ++ expected
  | unknownKeyword found expected =>
    "unknown variant `" ++ found ++ "`, expected one of " ++ listKeywords expected
  | notAKeyword found =>
    match format with
    | .json => "invalid type: " ++ format.describe found ++ ", expected string or map"
    | .toml => "wanted string or table"
  | notOneKeyword entries =>
    match format, entries with
    | .json, _ => "invalid value: map, expected map with a single key"
    | .toml, 0 => "wanted exactly 1 element, found 0 elements"
    | .toml, _ => "wanted exactly 1 element, more than 1 element"
  | keywordWithValue value =>
    match format with
    | .json => "invalid type: " ++ format.describe value ++ ", expected unit"
    | .toml =>
      match value with
      | .list _ => "expected empty array"
      | .table _ => "expected empty table"
      | v => "expected table, found " ++ DocumentFormat.sortOf v
  | missingField name => "missing field `" ++ name ++ "`"
  | tooFewItems position expected =>
    "invalid length " ++ toString position ++ ", expected " ++ expected
  | tooManyItems items =>
    "invalid length " ++ toString items ++ ", expected fewer elements in array"

end DecodeError

/-- A way to take something typed out of a value in a document of some format. -/
abbrev Decoder (β : Type) := DocumentFormat → Value → Except DecodeError β

namespace Decoder

/-- An integer in a range. -/
def integerIn (low high : Int) (expected : String) : Decoder Int
  | _, .integer n => if low ≤ n ∧ n ≤ high then .ok n else .error (.outOfRange n expected)
  | _, v => .error (.wrongType v expected)

/-- A natural number that a machine word holds. -/
def count : Decoder Nat := fun format v =>
  Int.toNat <$> integerIn 0 (UInt64.size - 1) "usize" format v

/-- A number. An integer that a machine word holds is rounded to the nearest double. -/
def number : Decoder Float
  | _, .float x => .ok x
  | _, .integer n =>
    if DocumentFormat.isWord n then .ok (Float.ofInt n) else .error (.wrongType (.integer n) "f64")
  | _, v => .error (.wrongType v "f64")

/-- A truth value. -/
def flag : Decoder Bool
  | _, .bool b => .ok b
  | _, v => .error (.wrongType v "a boolean")

/-- A text. -/
def text : Decoder String
  | _, .text s => .ok s
  | _, v => .error (.wrongType v "a string")

/-- A value that may be null. -/
def optional {β : Type} (decode : Decoder β) : Decoder (Option β)
  | _, .null => .ok none
  | format, v => some <$> decode format v

/-- A list of values. -/
def listOf {β : Type} (decode : Decoder β) : Decoder (List β)
  | format, .list items => items.mapM (decode format)
  | _, v => .error (.wrongType v "a sequence")

/-- One of several values, by its keyword; `other` stands for keywords that are not known. A keyword
may also be the only name in a table that says nothing more about it. -/
def keyword {β : Type} (all : List β) (keywordOf : β → String) (other : Option β) : Decoder β :=
  let find (found : String) : Except DecodeError β :=
    match (all.find? (keywordOf · == found)).or other with
    | some b => .ok b
    | none => .error (.unknownKeyword found (all.map keywordOf))
  fun
  | _, .text s => find s
  | format, .table [(name, value)] => do
    let b ← find name
    if format.isNothing value then return b else .error (.keywordWithValue value)
  | _, .table entries => .error (.notOneKeyword entries.length)
  | _, v => .error (.notAKeyword v)

end Decoder

/-- What is wrong with one field of a record. -/
inductive FieldFault where
  | bad (name : String) (error : DecodeError)
  | missing (name : String)

/-- The fields of a record in their order, and how they are read from values by name. -/
structure Fields (β : Type) where
  names : List String
  read : DocumentFormat → (String → Option Value) → Except (List FieldFault) β

namespace Fields

variable {β γ : Type}

instance : Functor Fields where
  map f fields := ⟨fields.names, fun format values => f <$> fields.read format values⟩

instance : Applicative Fields where
  pure b := ⟨[], fun _ _ => .ok b⟩
  seq f x :=
    { names := f.names ++ (x ()).names
      read := fun format values =>
        match f.read format values, (x ()).read format values with
        | .ok f, .ok x => .ok (f x)
        | .ok _, .error faults => .error faults
        | .error faults, .ok _ => .error faults
        | .error faults, .error more => .error (faults ++ more) }

/-- A field that is read if it is there. -/
def field (name : String) (decode : Decoder β) (absent : Except (List FieldFault) β) :
    Fields β where
  names := [name]
  read := fun format values =>
    match values name with
    | some v => (decode format v).mapError fun e => [.bad name e]
    | none => absent

/-- A field that must be there. -/
def required (name : String) (decode : Decoder β) : Fields β :=
  field name decode (.error [.missing name])

/-- A field with a value to fall back to. -/
def withDefault (name : String) (decode : Decoder β) (default : β) : Fields β :=
  field name decode (.ok default)

/-- The earlier by name of two bad fields. -/
def firstBad (a b : String × DecodeError) : String × DecodeError := if b.1 < a.1 then b else a

/-- The fault of a table that is reported. -/
def reportedByName (faults : List FieldFault) : Option DecodeError :=
  let bad := faults.filterMap fun
    | .bad name e => some (name, e)
    | .missing _ => none
  match bad, faults with
  | b :: bs, _ => some (bs.foldl firstBad b).2
  | [], .missing name :: _ => some (.missingField name)
  | [], _ => none

/-- The words for a record with so many fields. -/
def withElements (what : String) (count : Nat) : String :=
  what ++ " with " ++ toString count ++ (if count = 1 then " element" else " elements")

/-- A record, from its entries by name. -/
def ofEntries (what : String) (fields : Fields β) (format : DocumentFormat)
    (entries : List (String × Value)) : Except DecodeError β :=
  (fields.read format (findEntry entries)).mapError fun faults =>
    (reportedByName faults).getD (.wrongType (.table entries) what)

/-- A record, from a table or from a list. A point in time counts as a table without fields. -/
def decoder (what : String) (fields : Fields β) : Decoder β
  | format, .table entries => fields.ofEntries what format entries
  | format, .moment _ => fields.ofEntries what format []
  | format, .list items =>
    match fields.read format (findEntry (fields.names.zip items)) with
    | .ok b =>
      if format.allowsSurplus || items.length ≤ fields.names.length then .ok b
      else .error (.tooManyItems items.length)
    | .error (.bad _ e :: _) => .error e
    | .error (.missing name :: _) =>
      .error (.tooFewItems (fields.names.idxOf name) (withElements what fields.names.length))
    | .error [] => .error (.wrongType (.list items) what)
  | _, v => .error (.wrongType v what)

end Fields

end DiagramLayout
