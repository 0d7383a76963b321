import DiagramLayout.Text.Invisible

/-!
# Quoted text

A text in quotation marks in which every character can be seen. Quotation marks and backslashes have
a backslash in front, the usual control characters their letters, and any other character that shows
nothing of its own stands as its number.
-/

namespace DiagramLayout

/-- The hexadecimal digits of a character. -/
def hexDigits (c : Char) : String := String.ofList (Nat.toDigits 16 c.toNat)

/-- A character as it stands in a quoted text. -/
def quoteChar (c : Char) : String :=
  match c with
  | '"' => "\\\""
  | '\\' => "\\\\"
  | '\t' => "\\t"
  | '\n' => "\\n"
  | '\r' => "\\r"
  | '\x00' => "\\0"
  | c =>
    if c.toNat < 0x20 || c.toNat == 0x7F || isInvisible c then "\\u\x7b" ++ hexDigits c ++ "\x7d"
    else c.toString

/-- A text in quotation marks. -/
def quote (s : String) : String := "\"" ++ String.join (s.toList.map quoteChar) ++ "\""

end DiagramLayout
