import ApiAtlas.Decimal.Shortest
import ApiAtlas.Json.Basic

/-!
# Writing JSON

A value is written either without any blanks (`Json.compact`) or with one item
or member to a line, indented by two spaces for each level (`Json.pretty`).
Members are written in the order in which the object holds them.

In a text the quotation mark, the backslash and the control characters are
escaped, and every other character stands for itself.
-/

set_option autoImplicit false

namespace ApiAtlas

namespace Json

/-! ## Scalars -/

/-- Doubles are written with a point from a hundred-thousandth up to ten to the sixteenth. -/
def doubleFormat : Decimal.DoubleFormat :=
  { leastPlain := -5, firstScientific := 16 }

/-- The text of a number. -/
def numberText : JsonNumber → String
  | .whole count => toString count.value
  | .double real => doubleFormat.text real

/-- The digit of a number below sixteen. -/
def hexDigit (number : Nat) : Char :=
  if number < 10 then Char.ofNat (48 + number) else Char.ofNat (87 + number)

/-- A character as it stands in a quoted text. -/
def escaped (character : Char) : List Char :=
  match character with
  | '"' => ['\\', '"']
  | '\\' => ['\\', '\\']
  | '\n' => ['\\', 'n']
  | '\r' => ['\\', 'r']
  | '\t' => ['\\', 't']
  | '\x08' => ['\\', 'b']
  | '\x0c' => ['\\', 'f']
  | other =>
    if other.toNat < 32 then
      ['\\', 'u', '0', '0', hexDigit (other.toNat / 16), hexDigit (other.toNat % 16)]
    else
      [other]

/-- A text in quotation marks. -/
def quoted (text : String) : String :=
  "\"" ++ String.ofList (text.toList.flatMap escaped) ++ "\""

/-! ## One line -/

mutual

/-- The value without blanks. -/
def compact : Json → String
  | null => "null"
  | boolean value => if value then "true" else "false"
  | number value => numberText value
  | text value => quoted value
  | array items => "[" ++ compactItems items ++ "]"
  | object members => "\x7b" ++ compactMembers members ++ "\x7d"

/-- Items with commas between them. -/
def compactItems : List Json → String
  | [] => ""
  | [item] => compact item
  | item :: rest => compact item ++ "," ++ compactItems rest

/-- Members with commas between them. -/
def compactMembers : List (String × Json) → String
  | [] => ""
  | [(key, value)] => quoted key ++ ":" ++ compact value
  | (key, value) :: rest => quoted key ++ ":" ++ compact value ++ "," ++ compactMembers rest

end

/-! ## One line for each item -/

/-- The start of a line at a level. -/
def lineStart (level : Nat) : String :=
  String.ofList ('\n' :: List.replicate (2 * level) ' ')

mutual

/-- The value in lines, its own first line at the end of another. -/
def prettyAt (level : Nat) : Json → String
  | null => "null"
  | boolean value => if value then "true" else "false"
  | number value => numberText value
  | text value => quoted value
  | array [] => "[]"
  | array (item :: rest) =>
    "[" ++ lineStart (level + 1) ++ prettyAt (level + 1) item ++ prettyItems (level + 1) rest ++
      lineStart level ++ "]"
  | object [] => "\x7b\x7d"
  | object ((key, value) :: rest) =>
    "\x7b" ++ lineStart (level + 1) ++ quoted key ++ ": " ++ prettyAt (level + 1) value ++
      prettyMembers (level + 1) rest ++ lineStart level ++ "\x7d"

/-- Items after the first, each on a line of its own. -/
def prettyItems (level : Nat) : List Json → String
  | [] => ""
  | item :: rest => "," ++ lineStart level ++ prettyAt level item ++ prettyItems level rest

/-- Members after the first, each on a line of its own. -/
def prettyMembers (level : Nat) : List (String × Json) → String
  | [] => ""
  | (key, value) :: rest =>
    "," ++ lineStart level ++ quoted key ++ ": " ++ prettyAt level value ++
      prettyMembers level rest

end

/-- The value in lines. -/
def pretty (value : Json) : String :=
  prettyAt 0 value

end Json

end ApiAtlas
