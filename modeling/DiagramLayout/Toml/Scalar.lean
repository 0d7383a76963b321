import DiagramLayout.Decimal.Nearest
import DiagramLayout.Document.Value
import DiagramLayout.Toml.Moment

/-!
# Single values in TOML

Texts, numbers, truth values and points in time as they are written in a TOML document, and the
names of entries. A reader takes the characters from where it starts and returns what it has read
with the characters that follow, or nothing if the characters cannot be read.
-/

namespace DiagramLayout.Toml

/-- A reader of something at the start of a list of characters. -/
abbrev Reader (β : Type) := List Char → Option (β × List Char)

/-- Blanks within a line. -/
def isBlank (c : Char) : Bool := c == ' ' || c == '\t'

/-- The characters behind the blanks at the start. -/
def skipBlanks (cs : List Char) : List Char := cs.dropWhile isBlank

/-- Controls other than the tabulator stand nowhere in a document. -/
def isForbidden (c : Char) : Bool := (c.toNat < 0x20 && c != '\t') || c.toNat == 0x7F

/-- The characters behind a line break, if there is one at the start. -/
def lineBreak? : List Char → Option (List Char)
  | '\n' :: rest => some rest
  | '\r' :: '\n' :: rest => some rest
  | _ => none

/-- What a letter stands for behind a backslash. -/
def escape? : Char → Option Char
  | 'b' => some '\x08'
  | 't' => some '\t'
  | 'n' => some '\n'
  | 'f' => some '\x0c'
  | 'r' => some '\r'
  | 'e' => some '\x1b'
  | '"' => some '"'
  | '\\' => some '\\'
  | _ => none

/-- Puts a character in front of what is read behind it. -/
def prepend (c : Option Char) (read : Option (List Char × List Char)) :
    Option (List Char × List Char) := do
  let c ← c
  let (text, rest) ← read
  return (c :: text, rest)

/-- The text up to the quotation mark that ends it, with escapes. -/
def basicText : Reader (List Char)
  | [] => none
  | '"' :: rest => some ([], rest)
  | '\\' :: 'u' :: a :: b :: c :: d :: rest => prepend (charOfHex? [a, b, c, d]) (basicText rest)
  | '\\' :: 'U' :: a :: b :: c :: d :: e :: f :: g :: h :: rest =>
    prepend (charOfHex? [a, b, c, d, e, f, g, h]) (basicText rest)
  | '\\' :: 'x' :: a :: b :: rest => prepend (charOfHex? [a, b]) (basicText rest)
  | '\\' :: c :: rest => prepend (escape? c) (basicText rest)
  | c :: rest => if isForbidden c then none else prepend (some c) (basicText rest)

/-- The text up to the apostrophe that ends it, as it is. -/
def literalText : Reader (List Char)
  | [] => none
  | '\'' :: rest => some ([], rest)
  | c :: rest => if isForbidden c then none else prepend (some c) (literalText rest)

/-- The characters behind blanks and line breaks. -/
def skipBlankLines : List Char → List Char
  | '\n' :: rest => skipBlankLines rest
  | '\r' :: '\n' :: rest => skipBlankLines rest
  | c :: rest => if isBlank c then skipBlankLines rest else c :: rest
  | [] => []

/-- The characters behind a backslash at the end of a line, which joins lines: blanks and line
breaks up to the next character are left out. Nothing if the line goes on behind the backslash. -/
def joinLines? (cs : List Char) : Option (List Char) :=
  (lineBreak? (skipBlanks cs)).map skipBlankLines

/-- The text up to three quotation marks, over several lines, with escapes. Up to two further marks
before them belong to the text, and line breaks do as they are. The first argument bounds how many
characters are read. -/
def basicLines : Nat → Reader (List Char)
  | 0, _ => none
  | fuel + 1, cs =>
    match cs with
    | '"' :: '"' :: '"' :: '"' :: '"' :: rest => some (['"', '"'], rest)
    | '"' :: '"' :: '"' :: '"' :: rest => some (['"'], rest)
    | '"' :: '"' :: '"' :: rest => some ([], rest)
    | '\\' :: 'u' :: a :: b :: c :: d :: rest =>
      prepend (charOfHex? [a, b, c, d]) (basicLines fuel rest)
    | '\\' :: 'U' :: a :: b :: c :: d :: e :: f :: g :: h :: rest =>
      prepend (charOfHex? [a, b, c, d, e, f, g, h]) (basicLines fuel rest)
    | '\\' :: 'x' :: a :: b :: rest => prepend (charOfHex? [a, b]) (basicLines fuel rest)
    | '\\' :: rest =>
      match joinLines? rest, rest with
      | some rest, _ => basicLines fuel rest
      | none, c :: rest => prepend (escape? c) (basicLines fuel rest)
      | none, [] => none
    | '\r' :: '\n' :: rest => prepend (some '\r') (prepend (some '\n') (basicLines fuel rest))
    | '\n' :: rest => prepend (some '\n') (basicLines fuel rest)
    | c :: rest => if isForbidden c then none else prepend (some c) (basicLines fuel rest)
    | [] => none

/-- The text up to three apostrophes, over several lines, as it is. -/
def literalLines : Reader (List Char)
  | '\'' :: '\'' :: '\'' :: '\'' :: '\'' :: rest => some (['\'', '\''], rest)
  | '\'' :: '\'' :: '\'' :: '\'' :: rest => some (['\''], rest)
  | '\'' :: '\'' :: '\'' :: rest => some ([], rest)
  | '\r' :: '\n' :: rest => prepend (some '\r') (prepend (some '\n') (literalLines rest))
  | '\n' :: rest => prepend (some '\n') (literalLines rest)
  | c :: rest => if isForbidden c then none else prepend (some c) (literalLines rest)
  | [] => none

/-- The characters behind the line break with which a text over several lines may begin. -/
def skipLineBreak (cs : List Char) : List Char := (lineBreak? cs).getD cs

/-- A text of any form; nothing if no text starts here. -/
def text : Reader String := fun cs =>
  let read : Option (List Char × List Char) :=
    match cs with
    | '"' :: '"' :: '"' :: rest => basicLines (rest.length + 1) (skipLineBreak rest)
    | '"' :: rest => basicText rest
    | '\'' :: '\'' :: '\'' :: rest => literalLines (skipLineBreak rest)
    | '\'' :: rest => literalText rest
    | _ => none
  read.map fun (chars, rest) => (String.ofList chars, rest)

/-- Characters of a name without quotation marks. -/
def isNameChar (c : Char) : Bool := c.isAlphanum || c == '_' || c == '-'

/-- A single name, with or without quotation marks. A quoted one keeps to its line. -/
def name : Reader String := fun cs =>
  match cs with
  | '"' :: rest => (basicText rest).map fun (chars, rest) => (String.ofList chars, rest)
  | '\'' :: rest => (literalText rest).map fun (chars, rest) => (String.ofList chars, rest)
  | _ =>
    let (chars, rest) := cs.span isNameChar
    if chars.isEmpty then none else some (String.ofList chars, rest)

/-- Names joined by points, with blanks around them. The first argument bounds how many there
are. -/
def path : Nat → Reader (List String)
  | 0, _ => none
  | fuel + 1, cs => do
    let (first, rest) ← name (skipBlanks cs)
    match skipBlanks rest with
    | '.' :: rest => do
      let (others, rest) ← path fuel rest
      return (first :: others, rest)
    | rest => return ([first], rest)

/-- The digits of a group without the underscores, each of which must stand between two digits. -/
def ungroup (isDigit : Char → Bool) : List Char → Option (List Char)
  | [] => none
  | [c] => if isDigit c then some [c] else none
  | c :: '_' :: rest => if isDigit c then (c :: ·) <$> ungroup isDigit rest else none
  | c :: rest => if isDigit c then (c :: ·) <$> ungroup isDigit rest else none

/-- A natural number with a base in front. -/
def basedNumber? : List Char → Option Nat
  | '0' :: 'x' :: digits => (ungroup (digitValue? · |>.isSome) digits).bind (natOfDigits? 16)
  | '0' :: 'o' :: digits => (ungroup (fun c => '0' ≤ c && c ≤ '7') digits).bind (natOfDigits? 8)
  | '0' :: 'b' :: digits => (ungroup (fun c => c == '0' || c == '1') digits).bind (natOfDigits? 2)
  | _ => none

/-- The digits of a whole number, which start with a zero only if it is all there is. -/
def wholeDigits? (cs : List Char) : Option (List Char) := do
  let digits ← ungroup Char.isDigit cs
  if digits.head? = some '0' ∧ digits.length ≠ 1 then none else return digits

/-- A number without its sign, split at its sign. -/
def splitSign : List Char → Bool × List Char
  | '-' :: rest => (true, rest)
  | '+' :: rest => (false, rest)
  | cs => (false, cs)

/-- The exponent behind the letter that announces it; zero if there is none. -/
def exponent? : List Char → Option Int
  | [] => some 0
  | c :: cs =>
    if c == 'e' || c == 'E' then do
      let (negative, digits) := splitSign cs
      let n ← (ungroup Char.isDigit digits).bind (natOfDigits? 10)
      return if negative then -(n : Int) else n
    else none

/-- The fraction behind the point, without digits if there is no point. -/
def fraction? : List Char → Option (List Char)
  | [] => some []
  | _ :: digits => ungroup Char.isDigit digits

/-- A number with a fraction or an exponent, without its sign. Numbers beyond all doubles are
refused. -/
def decimal? (cs : List Char) : Option Float := do
  let (whole, rest) := cs.span fun c => c.isDigit || c == '_'
  let (fraction, exponent) := rest.span fun c => c != 'e' && c != 'E'
  if fraction.head?.any (· != '.') then none
  else
    let whole ← wholeDigits? whole
    let fraction ← fraction? fraction
    let exponent ← exponent? exponent
    let digits ← natOfDigits? 10 (whole ++ fraction)
    let x := Decimal.nearest ⟨digits, exponent - fraction.length⟩
    if x.isInf then none else return x

/-- An integer, if two machine words hold it, with or without a sign. -/
def boundedInteger? (n : Int) : Option Value :=
  if -(1 <<< 127 : Nat) ≤ n ∧ n < (1 <<< 128 : Nat) then some (.integer n) else none

/-- The number that a word stands for. -/
def number? (word : List Char) : Option Value :=
  let (negative, magnitude) := splitSign word
  let signed (x : Float) : Value := .float (if negative then -x else x)
  if magnitude = ['i', 'n', 'f'] then some (signed (Float.ofBits 0x7ff0000000000000))
  else if magnitude = ['n', 'a', 'n'] then some (.float (Float.ofBits 0x7ff8000000000000))
  else
    match wholeDigits? magnitude, basedNumber? word with
    | some digits, _ =>
      (natOfDigits? 10 digits).bind fun n => boundedInteger? (if negative then -(n : Int) else n)
    | none, some n => boundedInteger? n
    | none, none => (decimal? magnitude).map signed

/-- Characters of a value that is a single word. -/
def isWordChar (c : Char) : Bool := isNameChar c || c == '+' || c == '.' || c == ':'

/-- Splits off a word. A date goes on behind a blank if a digit follows. -/
def splitWord (cs : List Char) : List Char × List Char :=
  let (chars, rest) := cs.span isWordChar
  match rest with
  | ' ' :: time =>
    if isDate chars && time.head?.any Char.isDigit then
      let (time, rest) := time.span isWordChar
      (chars ++ ' ' :: time, rest)
    else (chars, rest)
  | rest => (chars, rest)

/-- A truth value, a point in time or a number. -/
def word : Reader Value := fun cs =>
  let (chars, rest) := splitWord cs
  if chars = ['t', 'r', 'u', 'e'] then some (.bool true, rest)
  else if chars = ['f', 'a', 'l', 's', 'e'] then some (.bool false, rest)
  else if isMoment chars then some (.moment (String.ofList chars), rest)
  else (number? chars).map (·, rest)

end DiagramLayout.Toml
