import DiagramLayout.Decimal.Nearest
import DiagramLayout.Document.Value
import DiagramLayout.Text.Digit

/-!
# JSON documents

A reader takes the characters from where it starts and returns what it has read with the characters
that follow, or nothing if the characters cannot be read. Lists and tables nest; their readers take
a bound on the depth of their recursion, for which the number of characters is always enough.
`Json.parse?` reads a whole document and answers nothing if it is not one.
-/

namespace DiagramLayout.Json

/-- A reader of something at the start of a list of characters. -/
abbrev Reader (β : Type) := List Char → Option (β × List Char)

/-- Blanks between the parts of a document. -/
def isBlank (c : Char) : Bool := c == ' ' || c == '\t' || c == '\n' || c == '\r'

/-- The characters behind the blanks at the start. -/
def skipBlanks (cs : List Char) : List Char := cs.dropWhile isBlank

/-- What a letter stands for behind a backslash. -/
def escape? : Char → Option Char
  | '"' => some '"'
  | '\\' => some '\\'
  | '/' => some '/'
  | 'b' => some '\x08'
  | 'f' => some '\x0c'
  | 'n' => some '\n'
  | 'r' => some '\r'
  | 't' => some '\t'
  | _ => none

/-- The character that two halves of a pair stand for. -/
def charOfPair? (high low : Nat) : Option Char :=
  if 0xD800 ≤ high ∧ high < 0xDC00 ∧ 0xDC00 ≤ low ∧ low < 0xE000 then
    charOfNat? (0x10000 + (high - 0xD800) * 0x400 + (low - 0xDC00))
  else none

/-- Puts a character in front of what is read behind it. -/
def prepend (c : Option Char) (read : Option (List Char × List Char)) :
    Option (List Char × List Char) := do
  let c ← c
  let (text, rest) ← read
  return (c :: text, rest)

/-- The text up to the quotation mark that ends it. -/
def text : Reader (List Char)
  | [] => none
  | '"' :: rest => some ([], rest)
  | '\\' :: 'u' :: a :: b :: c :: d :: '\\' :: 'u' :: e :: f :: g :: h :: rest =>
    match charOfHex? [a, b, c, d] with
    | some single => prepend (some single) (text ('\\' :: 'u' :: e :: f :: g :: h :: rest))
    | none =>
      let pair := do charOfPair? (← natOfDigits? 16 [a, b, c, d]) (← natOfDigits? 16 [e, f, g, h])
      prepend pair (text rest)
  | '\\' :: 'u' :: a :: b :: c :: d :: rest => prepend (charOfHex? [a, b, c, d]) (text rest)
  | '\\' :: c :: rest => prepend (escape? c) (text rest)
  | c :: rest => if c.toNat < 0x20 then none else prepend (some c) (text rest)

/-- Characters of numbers. -/
def isNumberChar (c : Char) : Bool :=
  c.isDigit || c == '-' || c == '+' || c == '.' || c == 'e' || c == 'E'

/-- One digit or more, and what follows them. -/
def digits (cs : List Char) : Option (List Char × List Char) :=
  let (digits, rest) := cs.span Char.isDigit
  if digits.isEmpty then none else some (digits, rest)

/-- The digits behind the point, none if there is no point. -/
def fraction : Reader (List Char)
  | '.' :: rest => digits rest
  | cs => some ([], cs)

/-- The exponent behind the letter that announces it; zero at the end. -/
def exponent? : List Char → Option Int
  | [] => some 0
  | c :: cs =>
    if c == 'e' || c == 'E' then do
      let (negative, cs) := match cs with
        | '-' :: rest => (true, rest)
        | '+' :: rest => (false, rest)
        | cs => (false, cs)
      let (digits, rest) ← digits cs
      let n ← natOfDigits? 10 digits
      if rest.isEmpty then some (if negative then -(n : Int) else n) else none
    else none

/-- The number that a word without its sign stands for. What is written without point and exponent
is an integer if a machine word holds it; there is no integer for a zero with a sign. -/
def magnitude? (negative : Bool) (word : List Char) : Option Value := do
  let (whole, rest) ← digits word
  if whole.head? = some '0' ∧ whole.length ≠ 1 then none
  let (decimals, tail) ← fraction rest
  let exponent ← exponent? tail
  let n ← natOfDigits? 10 (whole ++ decimals)
  let integer : Int := if negative then -(n : Int) else n
  if rest.isEmpty && DocumentFormat.isWord integer && !(negative && n == 0) then
    return .integer integer
  else
    let x := Decimal.nearest ⟨n, exponent - decimals.length⟩
    if x.isInf then none else return .float (if negative then -x else x)

/-- The number that a word stands for. Numbers beyond all doubles are refused. -/
def number? : List Char → Option Value
  | '-' :: word => magnitude? true word
  | word => magnitude? false word

/-- Reads what starts with a word, which stands for a value. -/
def literal (word : String) (v : Value) : Reader Value := fun cs =>
  if word.toList.isPrefixOf cs then some (v, cs.drop word.length) else none

mutual

/-- A value of any sort, with blanks in front. -/
def value : Nat → Reader Value
  | 0, _ => none
  | fuel + 1, cs =>
    match skipBlanks cs with
    | '[' :: rest =>
      match skipBlanks rest with
      | ']' :: rest => some (.list [], rest)
      | rest => (items fuel rest).map fun (items, rest) => (.list items, rest)
    | '\x7b' :: rest =>
      match skipBlanks rest with
      | '\x7d' :: rest => some (.table [], rest)
      | rest => (entries fuel [] rest).map fun (entries, rest) => (.table entries, rest)
    | '"' :: rest => (text rest).map fun (s, rest) => (.text (String.ofList s), rest)
    | 't' :: rest => literal "rue" (.bool true) rest
    | 'f' :: rest => literal "alse" (.bool false) rest
    | 'n' :: rest => literal "ull" .null rest
    | cs => (number? (cs.takeWhile isNumberChar)).map (·, cs.dropWhile isNumberChar)

/-- The items of a list up to the bracket that closes it; there is at least one. -/
def items : Nat → Reader (List Value)
  | 0, _ => none
  | fuel + 1, cs => do
    let (first, rest) ← value fuel cs
    match skipBlanks rest with
    | ']' :: rest => return ([first], rest)
    | ',' :: rest =>
      let (others, rest) ← items fuel rest
      return (first :: others, rest)
    | _ => none

/-- The entries of a table up to the brace that closes it, added to those read before; there is at
least one. Of entries with the same name the last one counts. -/
def entries : Nat → List (String × Value) → Reader (List (String × Value))
  | 0, _, _ => none
  | fuel + 1, before, cs => do
    match skipBlanks cs with
    | '"' :: rest =>
      let (name, rest) ← text rest
      match skipBlanks rest with
      | ':' :: rest =>
        let (v, rest) ← value fuel rest
        let entriesSoFar := insertEntry (String.ofList name) v before
        match skipBlanks rest with
        | '\x7d' :: rest => return (entriesSoFar, rest)
        | ',' :: rest => entries fuel entriesSoFar rest
        | _ => none
      | _ => none
    | _ => none

end

/-- The value that a document describes. -/
def parse? (source : String) : Option Value := do
  let chars := source.toList
  let (v, rest) ← value (chars.length + 1) chars
  if (skipBlanks rest).isEmpty then return v else none

end DiagramLayout.Json
