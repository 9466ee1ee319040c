import ApiAtlas.Json.Printer
import ApiAtlas.Json.Reader

/-!
# Texts read back

A text is written in quotation marks with some of its characters escaped, and
the machine that reads texts undoes the escapes one by one
(`readText_escaped`). So a text that has been written is read as itself, and
what stands behind it is left (`readText_written`).
-/

set_option autoImplicit false

namespace ApiAtlas.Json.Reader

open Text (Glyph)

/-! ## Escapes -/

/-- A digit below sixteen is read as its value. -/
theorem hexValue?_hexDigit {number : Nat} (below : number < 16) :
    hexValue? (some (hexDigit number)) = some number := by
  have all : ∀ digit : Fin 16, hexValue? (some (hexDigit digit)) = some digit.val := by decide
  exact all ⟨number, below⟩

/-- A digit below sixteen takes one byte. -/
theorem utf8Size_hexDigit {number : Nat} (below : number < 16) :
    (hexDigit number).utf8Size = 1 := by
  have all : ∀ digit : Fin 16, (hexDigit digit).utf8Size = 1 := by decide
  exact all ⟨number, below⟩

/-- A control character that is written as a code unit is read as itself. -/
theorem readText_codeUnit {reading : TextReading} (plain : reading.state = .plain)
    {character : Char} (control : character.toNat < 32) (rest : List Glyph) :
    readText reading
        (some '\\' :: some 'u' :: some '0' :: some '0' ::
          some (hexDigit (character.toNat / 16)) ::
            some (hexDigit (character.toNat % 16)) :: rest) =
      readText (reading.push character) rest := by
  have upper : character.toNat / 16 < 16 := by omega
  have lower : character.toNat % 16 < 16 := by omega
  have narrow : '0'.utf8Size = 1 := by decide
  have enough : hasBytes 4 (some '0' :: some '0' :: some (hexDigit (character.toNat / 16)) ::
      some (hexDigit (character.toNat % 16)) :: rest) = true := by
    simp [hasBytes, Text.glyphSize, narrow, utf8Size_hexDigit upper, utf8Size_hexDigit lower]
  have zero : hexValue? (some '0') = some 0 := by decide
  have sum : character.toNat / 16 * 16 + character.toNat % 16 = character.toNat := by omega
  simp only [readText, TextReading.pass, plain, TextReading.passPlain, TextReading.passEscape,
    enough, if_true, zero, Nat.reduceLeDiff, if_false, Nat.add_one_sub_one, Nat.zero_mul,
    Nat.add_zero, hexValue?_hexDigit upper, Nat.zero_add, hexValue?_hexDigit lower, Nat.le_refl,
    TextReading.passCodeUnit, sum, Char.ofNat_toNat]
  -- The value is no half of a surrogate pair, so it is taken in as a character.
  rw [if_neg (by omega), if_neg (by omega)]
  rfl

/-- A character that is written as a letter after a backslash is read as itself. -/
theorem readText_letter {reading : TextReading} (plain : reading.state = .plain)
    {letter character : Char} (other : letter ≠ 'u')
    (meant : escapeValue? letter = some character) (rest : List Glyph) :
    readText reading (some '\\' :: some letter :: rest) =
      readText (reading.push character) rest := by
  simp only [readText, TextReading.pass, plain, TextReading.passPlain, TextReading.passEscape,
    meant, Option.isSome_none, Bool.false_eq_true, if_false]
  rfl

/-- A character that stands for itself is read as itself. -/
theorem readText_plain {reading : TextReading} (plain : reading.state = .plain)
    {character : Char} (noQuote : character ≠ '"') (noBackslash : character ≠ '\\')
    (printed : ¬character.toNat < 32) (rest : List Glyph) :
    readText reading (some character :: rest) = readText (reading.push character) rest := by
  simp only [readText, TextReading.pass, plain, TextReading.passPlain, printed, if_false]

/-- **An escaped character is read as itself.** -/
theorem readText_escaped {reading : TextReading} (plain : reading.state = .plain)
    (character : Char) (rest : List Glyph) :
    readText reading ((escaped character).map some ++ rest) =
      readText (reading.push character) rest := by
  fun_cases escaped character with
  | case8 _ _ _ _ _ _ _ _ control => exact readText_codeUnit plain control rest
  | case9 _ noQuote noBackslash _ _ _ _ _ printed =>
    exact readText_plain plain noQuote noBackslash printed rest
  | _ => exact readText_letter plain (by decide) rfl rest

/-! ## Texts -/

/-- Escaped characters are read one after the other, up to the quotation mark behind them. -/
theorem readText_flatMap_escaped (reading : TextReading) (plain : reading.state = .plain)
    (good : reading.spelling = .good) (characters : List Char) (rest : List Glyph) :
    readText reading ((characters.flatMap escaped).map some ++ some '"' :: rest) =
      (.text (String.ofList (reading.characters.reverse ++ characters)), some rest) := by
  induction characters generalizing reading with
  | nil =>
    simp only [List.flatMap_nil, List.map_nil, List.nil_append, readText, TextReading.pass, plain,
      TextReading.passPlain, TextReading.close, good, List.append_nil]
  | cons character others ih =>
    rw [List.flatMap_cons, List.map_append, List.append_assoc, readText_escaped plain]
    rw [ih (reading.push character) rfl good]
    simp [TextReading.push]

/-- **A text that has been written is read as itself**, and what stands behind it is left. -/
theorem readText_written (text : String) (rest : List Glyph) :
    readText {} ((text.toList.flatMap escaped).map some ++ some '"' :: rest) =
      (.text text, some rest) := by
  simpa using readText_flatMap_escaped {} rfl rfl text.toList rest

end ApiAtlas.Json.Reader
