/-!
# Reading UTF-8

Bytes are read as characters. A byte that belongs to no well-formed character
is kept as a gap, and reading goes on with the next byte; so the ASCII
characters around it are found all the same (`decode_ascii`).
-/

set_option autoImplicit false

namespace ApiAtlas.Text

/-- What stands in a text that was read from bytes: a character, or a byte that belongs to none. -/
abbrev Glyph : Type :=
  Option Char

/-- The glyphs of a text. -/
def glyphs (text : String) : List Glyph :=
  text.toList.map some

/-- The number of bytes that a glyph takes. -/
def glyphSize : Glyph → Nat
  | none => 1
  | some character => character.utf8Size

/-- The six bits that a continuation byte carries. -/
def continuation? (byte : UInt8) : Option Nat :=
  if 0x80 ≤ byte ∧ byte ≤ 0xBF then some (byte.toNat % 64) else none

/-- The character of a code point, if it is none that a shorter form has and no half of a pair. -/
def character? (least code : Nat) : Option Char :=
  if least ≤ code then
    if valid : code.isValidChar then some (Char.ofNatAux code valid) else none
  else
    none

/-- The character of two bytes. -/
def twoBytes? (first second : UInt8) : Option Char := do
  if 0xC0 ≤ first ∧ first ≤ 0xDF then
    character? 0x80 (first.toNat % 32 * 64 + (← continuation? second))
  else
    none

/-- The character of three bytes. -/
def threeBytes? (first second third : UInt8) : Option Char := do
  if 0xE0 ≤ first ∧ first ≤ 0xEF then
    character? 0x800 ((first.toNat % 16 * 64 + (← continuation? second)) * 64 +
      (← continuation? third))
  else
    none

/-- The character of four bytes. -/
def fourBytes? (first second third fourth : UInt8) : Option Char := do
  if 0xF0 ≤ first ∧ first ≤ 0xF7 then
    character? 0x10000 (((first.toNat % 8 * 64 + (← continuation? second)) * 64 +
      (← continuation? third)) * 64 + (← continuation? fourth))
  else
    none

/-- The character that begins with a byte, and the number of further bytes that it takes. -/
def leading? (first : UInt8) (rest : List UInt8) : Option (Char × Nat) :=
  if first < 0x80 then
    some (Char.ofNat first.toNat, 0)
  else
    match rest with
    | [] => none
    | [second] => (twoBytes? first second).map (·, 1)
    | [second, third] =>
      ((twoBytes? first second).map (·, 1)).or ((threeBytes? first second third).map (·, 2))
    | second :: third :: fourth :: _ =>
      (((twoBytes? first second).map (·, 1)).or ((threeBytes? first second third).map (·, 2))).or
        ((fourBytes? first second third fourth).map (·, 3))

/-- The glyphs of a sequence of bytes of which the first ones belong to a character before. -/
def decodeAfter : Nat → List UInt8 → List Glyph
  | _, [] => []
  | taken + 1, _ :: rest => decodeAfter taken rest
  | 0, first :: rest =>
    match leading? first rest with
    | some (character, further) => some character :: decodeAfter further rest
    | none => none :: decodeAfter 0 rest

/-- The glyphs of a sequence of bytes. -/
def decode (bytes : List UInt8) : List Glyph :=
  decodeAfter 0 bytes

/-- The text of glyphs, if there is no gap among them. -/
def textOfGlyphs? (glyphs : List Glyph) : Option String :=
  (glyphs.mapM id).map String.ofList

/-- A byte of the ASCII range is read as its character. -/
theorem decode_ascii {byte : UInt8} (ascii : byte < 0x80) (rest : List UInt8) :
    decode (byte :: rest) = some (Char.ofNat byte.toNat) :: decode rest := by
  simp only [decode, decodeAfter, leading?, if_pos ascii]

end ApiAtlas.Text
