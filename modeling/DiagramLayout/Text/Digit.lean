/-!
# Digits

The values of digits up to base sixteen, and characters that are given by their numbers.
-/

namespace DiagramLayout

/-- The value of a hexadecimal digit. -/
def digitValue? (c : Char) : Option Nat :=
  if c.isDigit then some (c.toNat - '0'.toNat)
  else if 'a' ≤ c ∧ c ≤ 'f' then some (c.toNat - 'a'.toNat + 10)
  else if 'A' ≤ c ∧ c ≤ 'F' then some (c.toNat - 'A'.toNat + 10)
  else none

/-- The number with the given digits in some base. -/
def natOfDigits? (base : Nat) (digits : List Char) : Option Nat :=
  digits.foldlM (fun n c => (base * n + ·) <$> digitValue? c) 0

/-- The character with a number. Numbers that no character has are refused. -/
def charOfNat? (n : Nat) : Option Char :=
  if h : n.isValidChar then some (Char.ofNatAux n h) else none

/-- The character whose number has the given hexadecimal digits. -/
def charOfHex? (digits : List Char) : Option Char := natOfDigits? 16 digits >>= charOfNat?

end DiagramLayout
