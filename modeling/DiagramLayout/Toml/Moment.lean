import DiagramLayout.Text.Digit

/-!
# Points in time in TOML

A date, a time of day, or a date and a time with a letter or a blank between them; a time with a
date may be followed by its distance to the time of Greenwich. `isMoment` says which texts are of
this form and name a day that the calendar has. Each of the other definitions reads one part at the
start of a list of characters and returns what follows.
-/

namespace DiagramLayout.Toml

/-- A number with as many digits as it must have. -/
def fixedNumber? (width : Nat) (cs : List Char) : Option (Nat × List Char) :=
  let (digits, rest) := cs.splitAt width
  if digits.length = width ∧ digits.all Char.isDigit then
    (natOfDigits? 10 digits).map (·, rest)
  else none

/-- The characters behind a number with two digits that is not above a bound. -/
def skipUpTo? (bound : Nat) (cs : List Char) : Option (List Char) := do
  let (n, rest) ← fixedNumber? 2 cs
  if n ≤ bound then return rest else none

/-- The characters behind a certain one. -/
def skipChar? (c : Char) : List Char → Option (List Char)
  | [] => none
  | first :: rest => if first = c then some rest else none

/-- The number of days in a month. -/
def daysInMonth (year month : Nat) : Nat :=
  match month with
  | 2 => if year % 4 = 0 ∧ (year % 100 ≠ 0 ∨ year % 400 = 0) then 29 else 28
  | 4 | 6 | 9 | 11 => 30
  | _ => 31

/-- The characters behind a date. -/
def skipDate? (cs : List Char) : Option (List Char) := do
  let (year, cs) ← fixedNumber? 4 cs
  let (month, cs) ← fixedNumber? 2 (← skipChar? '-' cs)
  let (day, cs) ← fixedNumber? 2 (← skipChar? '-' cs)
  if 1 ≤ month ∧ month ≤ 12 ∧ 1 ≤ day ∧ day ≤ daysInMonth year month then return cs else none

/-- The characters behind the fraction of a second, if there is a point. -/
def skipFraction? : List Char → Option (List Char)
  | '.' :: c :: cs => if c.isDigit then some (cs.dropWhile Char.isDigit) else none
  | '.' :: [] => none
  | cs => some cs

/-- The characters behind a time of day, which need not have seconds. -/
def skipTime? (cs : List Char) : Option (List Char) := do
  let cs ← skipUpTo? 23 cs
  match ← skipUpTo? 59 (← skipChar? ':' cs) with
  | ':' :: cs => skipFraction? (← skipUpTo? 60 cs)
  | cs => return cs

/-- The characters behind a distance to the time of Greenwich, if there is one. -/
def skipOffset? : List Char → Option (List Char)
  | [] => some []
  | c :: cs =>
    if c == 'Z' || c == 'z' then some cs
    else if c == '+' || c == '-' then do
      let cs ← skipUpTo? 23 cs
      skipUpTo? 59 (← skipChar? ':' cs)
    else none

/-- True if the characters are a date and no more. -/
def isDate (cs : List Char) : Bool := skipDate? cs = some []

/-- True of the characters that may stand between a date and a time. -/
def isTimeMark (c : Char) : Bool := c == 'T' || c == 't' || c == ' '

/-- True if the characters are a point in time. -/
def isMoment (cs : List Char) : Bool :=
  match skipDate? cs with
  | none => skipTime? cs = some []
  | some [] => true
  | some (c :: time) => isTimeMark c && (skipTime? time).bind skipOffset? = some []

end DiagramLayout.Toml
