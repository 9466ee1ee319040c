import ApiAtlas.Text.Shape

/-!
# Texts in messages

A text in a message stands in quotation marks. The quotation mark, the
backslash and the usual controls are escaped by a letter, and every other
character that is not shown as it is by its code point in hexadecimal digits.
-/

set_option autoImplicit false

namespace ApiAtlas.Text

/-- The code point of a character in hexadecimal digits. -/
def codePoint (character : Char) : List Char :=
  Nat.toDigits 16 character.toNat

/-- A character as it stands in quotation marks. -/
def shown (character : Char) : List Char :=
  match character with
  | '"' => ['\\', '"']
  | '\\' => ['\\', '\\']
  | '\n' => ['\\', 'n']
  | '\r' => ['\\', 'r']
  | '\t' => ['\\', 't']
  | '\x00' => ['\\', '0']
  | other =>
    if hasShape other then [other] else ['\\', 'u', '\x7b'] ++ codePoint other ++ ['\x7d']

/-- A text in quotation marks. -/
def quotedText (text : String) : String :=
  "\"" ++ String.ofList (text.toList.flatMap shown) ++ "\""

end ApiAtlas.Text
