import ApiAtlas.Json.Draft
import ApiAtlas.Text.Utf8

/-!
# Reading JSON

A text is read into a draft in one pass (`Draft.ofGlyphs`). Every part of the
reader answers the draft of what it has read and what is left of the text, or
nothing if the text stopped making sense.

Texts are read by a machine that takes one glyph at a time (`TextReading.pass`).
It goes on after an unpaired surrogate or a byte that belongs to no character,
but then the text is misspelt. Numbers are split into their digits first
(`readNumber`) and valued after (`numberValue`): a numeral without fraction and
exponent is a whole number if it fits into 64 bits, and every other one is a
double.

Arrays and objects are read with a count that bounds the depth of the reader's
own calls. Two calls for each glyph are enough.
-/

set_option autoImplicit false

namespace ApiAtlas

namespace Json.Reader

open Text (Glyph glyphSize)

/-! ## Texts -/

/-- How well a text is spelt so far. -/
inductive Spelling
  | good
  /-- A byte belongs to no character. -/
  | gap
  /-- An escape stands for half a character. -/
  | halfCharacter
deriving DecidableEq, Repr

/-- What the next glyph of a text belongs to. A first half of a surrogate pair waits until its
other half has been read. -/
inductive TextState
  | plain
  /-- A backslash has been read. -/
  | escape (half : Option Nat)
  /-- Digits of a code unit are due. -/
  | codeUnit (half : Option Nat) (due value : Nat)
  /-- A first half has been read and its other half is due. -/
  | afterHalf (half : Nat)
deriving DecidableEq, Repr

/-- A text of which a part has been read, with its characters in reverse. -/
structure TextReading where
  state : TextState := .plain
  characters : List Char := []
  spelling : Spelling := .good
deriving DecidableEq, Repr

/-- What becomes of a reading with one more glyph. -/
inductive TextStep
  | further (reading : TextReading)
  | closed (text : Draft)
  | broken (fault : Fault)

/-- The value of a hexadecimal digit. -/
def hexValue? : Glyph → Option Nat
  | none => none
  | some character =>
    if '0' ≤ character ∧ character ≤ '9' then some (character.toNat - 48)
    else if 'a' ≤ character ∧ character ≤ 'f' then some (character.toNat - 87)
    else if 'A' ≤ character ∧ character ≤ 'F' then some (character.toNat - 55)
    else none

/-- The character that a letter after a backslash stands for. -/
def escapeValue? : Char → Option Char
  | '"' => some '"'
  | '\\' => some '\\'
  | '/' => some '/'
  | 'b' => some '\x08'
  | 'f' => some '\x0c'
  | 'n' => some '\n'
  | 'r' => some '\r'
  | 't' => some '\t'
  | _ => none

/-- Whether at least so many bytes are left. -/
def hasBytes : Nat → List Glyph → Bool
  | 0, _ => true
  | _ + 1, [] => false
  | count + 1, glyph :: rest => hasBytes (count + 1 - glyphSize glyph) rest

namespace TextReading

/-- Adds a character. -/
def push (reading : TextReading) (character : Char) : TextReading :=
  { reading with state := .plain, characters := character :: reading.characters }

/-- Notes half a character that has no other half. -/
def pushHalf (reading : TextReading) : TextReading :=
  { reading with state := .plain, spelling := .halfCharacter }

/-- The draft of the text at its closing quotation mark. -/
def close (reading : TextReading) : Draft :=
  match reading.spelling with
  | .good => .text (String.ofList reading.characters.reverse)
  | _ => .misspelt

/-- Reads a glyph that belongs to no escape. -/
def passPlain (reading : TextReading) : Glyph → TextStep
  | none =>
    .further { reading with
      state := .plain
      spelling := if reading.spelling = .good then .gap else reading.spelling }
  | some '"' => .closed reading.close
  | some '\\' => .further { reading with state := .escape none }
  | some character =>
    if character.toNat < 32 then .broken .malformed else .further (reading.push character)

/-- Reads the glyph after a backslash. A code unit needs four more bytes. -/
def passEscape (reading : TextReading) (half : Option Nat) (glyph : Glyph)
    (rest : List Glyph) : TextStep :=
  match glyph with
  | none => .broken .malformed
  | some 'u' =>
    if hasBytes 4 rest then .further { reading with state := .codeUnit half 4 0 }
    else .broken (if reading.spelling = .halfCharacter then .endedAfterMisspelling else .ended)
  | some letter =>
    match escapeValue? letter with
    | none => .broken .malformed
    | some character =>
      if half.isSome then .further { reading.pushHalf with state := .plain }
      else .further (reading.push character)

/-- Reads a code unit that is complete. -/
def passCodeUnit (reading : TextReading) (half : Option Nat) (unit : Nat) : TextReading :=
  let isSecond := 0xDC00 ≤ unit ∧ unit ≤ 0xDFFF
  match half with
  | some first =>
    if isSecond then
      reading.push (Char.ofNat ((first - 0xD800) * 0x400 + (unit - 0xDC00) + 0x10000))
    else
      reading.pushHalf
  | none =>
    if isSecond then reading.pushHalf
    else if 0xD800 ≤ unit ∧ unit ≤ 0xDBFF then { reading with state := .afterHalf unit }
    else reading.push (Char.ofNat unit)

/-- Reads one glyph, of which the rest of the text is known. -/
def pass (reading : TextReading) (glyph : Glyph) (rest : List Glyph) : TextStep :=
  match reading.state with
  | .plain => reading.passPlain glyph
  | .escape half => reading.passEscape half glyph rest
  | .codeUnit half due value =>
    match hexValue? glyph with
    | none => .broken .malformed
    | some digit =>
      let sofar := value * 16 + digit
      if due ≤ 1 then .further (reading.passCodeUnit half sofar)
      else .further { reading with state := .codeUnit half (due - 1) sofar }
  | .afterHalf half =>
    if glyph = some '\\' then .further { reading with state := .escape (some half) }
    else reading.pushHalf.passPlain glyph

end TextReading

/-- Reads a text from behind its opening quotation mark. -/
def readText (reading : TextReading) : List Glyph → Draft × Option (List Glyph)
  | [] =>
    (.broken (if reading.spelling = .halfCharacter then .endedAfterMisspelling else .ended), none)
  | glyph :: rest =>
    match reading.pass glyph rest with
    | .further next => readText next rest
    | .closed draft => (draft, some rest)
    | .broken fault => (.broken fault, none)

/-! ## Numbers -/

/-- The value of a decimal digit. -/
def digit? : Glyph → Option Nat
  | some character =>
    if '0' ≤ character ∧ character ≤ '9' then some (character.toNat - 48) else none
  | none => none

/-- The digits at the start of a text and what follows them. -/
def spanDigits : List Glyph → List Nat × List Glyph
  | [] => ([], [])
  | glyph :: rest =>
    match digit? glyph with
    | some digit => (digit :: (spanDigits rest).1, (spanDigits rest).2)
    | none => ([], glyph :: rest)

/-- Digits where at least one is due. -/
def dueDigits (input : List Glyph) : Except Fault (List Nat × List Glyph) :=
  match spanDigits input with
  | ([], []) => .error .endedInNumber
  | ([], _ :: _) => .error .malformed
  | found => .ok found

/-- A numeral in its parts; without a point the fraction is empty. -/
structure NumeralParts where
  negative : Bool
  whole : List Nat
  fraction : List Nat
  /-- Whether the exponent is negative, and its digits. -/
  exponent : Option (Bool × List Nat)
deriving DecidableEq, Repr

/-- The word with one more digit, if it still fits into 64 bits. -/
def appendDigit? (word digit : Nat) : Option Nat :=
  if word * 10 + digit < 18446744073709551616 then some (word * 10 + digit) else none

/-- The word of as many leading digits as fit, and the number of digits that are left out. -/
def wholeWord (word : Nat) : List Nat → Nat × Nat
  | [] => (word, 0)
  | digit :: rest =>
    match appendDigit? word digit with
    | some longer => wholeWord longer rest
    | none => (word, rest.length + 1)

/-- The word continued by as many digits of the fraction as fit, and their number. -/
def fractionWord (word : Nat) : List Nat → Nat × Nat
  | [] => (word, 0)
  | digit :: rest =>
    match appendDigit? word digit with
    | some longer => ((fractionWord longer rest).1, (fractionWord longer rest).2 + 1)
    | none => (word, 0)

/-- The greatest exponent that is told apart from greater ones. -/
def greatestExponent : Nat :=
  2147483647

/-- A double with a sign. -/
def signed (negative : Bool) (magnitude : Decimal.Magnitude) : JsonNumber :=
  .double ⟨negative, magnitude⟩

/-- The whole number of a word with a sign. Zero with a minus sign is none. -/
def wholeNumber? (negative : Bool) (word : Nat) : Option WholeNumber :=
  let value : Int := if negative then -word else word
  if negative ∧ word = 0 then none
  else if inRange : -9223372036854775808 ≤ value ∧ value < 18446744073709551616 then
    some ⟨value, inRange⟩
  else none

/-- The number that a numeral stands for, unless it is beyond the doubles. -/
def numberValue (parts : NumeralParts) : Option JsonNumber :=
  let (start, left) := wholeWord 0 parts.whole
  let (word, taken) := fractionWord start parts.fraction
  let shift : Int := (left : Int) - taken
  match parts.exponent with
  | none =>
    let double := (Decimal.Magnitude.ofDecimal word shift).map (signed parts.negative)
    if parts.fraction = [] ∧ left = 0 then
      match wholeNumber? parts.negative word with
      | some count => some (.whole count)
      | none => double
    else
      double
  | some (down, digits) =>
    let size := digits.foldl (fun sofar digit => sofar * 10 + digit) 0
    if size > greatestExponent then
      if word ≠ 0 ∧ ¬ down then none else some (signed parts.negative .zero)
    else
      (Decimal.Magnitude.ofDecimal word (if down then shift - size else shift + size)).map
        (signed parts.negative)

/-- Reads the exponent of a numeral, if there is one. -/
def readExponent (input : List Glyph) :
    Except Fault (Option (Bool × List Nat) × List Glyph) :=
  match input with
  | some 'e' :: rest | some 'E' :: rest =>
    match rest with
    | some '-' :: digits => (dueDigits digits).map fun found => (some (true, found.1), found.2)
    | some '+' :: digits => (dueDigits digits).map fun found => (some (false, found.1), found.2)
    | digits => (dueDigits digits).map fun found => (some (false, found.1), found.2)
  | other => .ok (none, other)

/-- Reads the parts of a numeral from behind its minus sign, if there was one. -/
def readNumeral (negative : Bool) (input : List Glyph) :
    Except Fault (NumeralParts × List Glyph) := do
  let (whole, rest) ← dueDigits input
  if whole.head? = some 0 ∧ whole.length > 1 then
    throw .malformed
  let (fraction, rest) ←
    match rest with
    | some '.' :: digits => dueDigits digits
    | other => .ok ([], other)
  let (exponent, rest) ← readExponent rest
  return ({ negative, whole, fraction, exponent }, rest)

/-- Reads a number from behind its minus sign, if there was one. -/
def readNumber (negative : Bool) (input : List Glyph) : Draft × Option (List Glyph) :=
  match readNumeral negative input with
  | .error fault => (.broken fault, none)
  | .ok (parts, rest) =>
    match numberValue parts with
    | some valued => (.number valued, some rest)
    | none => (.misspelt, some rest)

/-! ## Values -/

/-- Whether a glyph is a blank between the parts of a value. -/
def isSpace (glyph : Glyph) : Bool :=
  glyph = some ' ' || glyph = some '\n' || glyph = some '\t' || glyph = some '\r'

/-- The text after blanks. -/
def skipSpace (input : List Glyph) : List Glyph :=
  input.dropWhile isSpace

/-- Reads the rest of a word that stands for a value. -/
def readWord (value : Draft) : List Char → List Glyph → Draft × Option (List Glyph)
  | [], rest => (value, some rest)
  | _ :: _, [] => (.broken .endedInWord, none)
  | letter :: letters, glyph :: rest =>
    if glyph = some letter then readWord value letters rest else (.broken .malformed, none)

/-- Reads a value that is neither an array nor an object. -/
def readScalar (input : List Glyph) : Draft × Option (List Glyph) :=
  match input with
  | [] => (.broken .ended, none)
  | some 'n' :: rest => readWord .null ['u', 'l', 'l'] rest
  | some 't' :: rest => readWord (.boolean true) ['r', 'u', 'e'] rest
  | some 'f' :: rest => readWord (.boolean false) ['a', 'l', 's', 'e'] rest
  | some '"' :: rest => readText {} rest
  | some '-' :: rest => readNumber true rest
  | glyph :: rest =>
    match digit? glyph with
    | some _ => readNumber false (glyph :: rest)
    | none => (.broken .malformed, none)

/-- Where the next item starts: behind a comma, unless it is the first. -/
def itemStart (isFirst : Bool) (input : List Glyph) : Except Fault (List Glyph) :=
  if isFirst then
    .ok input
  else
    match input with
    | some ',' :: rest =>
      match skipSpace rest with
      | [] => .error .ended
      | some ']' :: _ => .error .malformed
      | other => .ok other
    | _ => .error .malformed

/-- Where the text of the next key starts: behind a comma, unless it is the first, and behind its
opening quotation mark. -/
def keyStart (isFirst : Bool) (input : List Glyph) : Except Fault (List Glyph) :=
  let opening (input : List Glyph) : Except Fault (List Glyph) :=
    match input with
    | some '"' :: rest => .ok rest
    | _ => .error .malformed
  if isFirst then
    opening input
  else
    match input with
    | some ',' :: rest =>
      match skipSpace rest with
      | [] => .error .ended
      | other => opening other
    | _ => .error .malformed

mutual

/-- Reads a value. -/
def readValue : Nat → List Glyph → Draft × Option (List Glyph)
  | 0, _ => (.broken .malformed, none)
  | fuel + 1, input =>
    match skipSpace input with
    | some '[' :: rest =>
      let (items, left) := readItems fuel true rest
      (.array items, left)
    | some '\x7b' :: rest =>
      let (members, left) := readMembers fuel true rest
      (.object members, left)
    | other => readScalar other

/-- Reads the items of an array up to its closing bracket. -/
def readItems : Nat → Bool → List Glyph → List Draft × Option (List Glyph)
  | 0, _, _ => ([.broken .malformed], none)
  | fuel + 1, isFirst, input =>
    match skipSpace input with
    | [] => ([.broken (if isFirst then .ended else .endedBeforeSeparator)], none)
    | some ']' :: rest => ([], some rest)
    | other =>
      match itemStart isFirst other with
      | .error fault => ([.broken fault], none)
      | .ok start =>
        match readValue fuel start with
        | (item, none) => ([item], none)
        | (item, some rest) =>
          let (items, left) := readItems fuel false rest
          (item :: items, left)

/-- Reads the members of an object up to its closing brace. -/
def readMembers : Nat → Bool → List Glyph → List (Draft × Draft) × Option (List Glyph)
  | 0, _, _ => ([(.broken .malformed, .null)], none)
  | fuel + 1, isFirst, input =>
    match skipSpace input with
    | [] => ([(.broken (if isFirst then .ended else .endedBeforeSeparator), .null)], none)
    | some '\x7d' :: rest => ([], some rest)
    | other =>
      match keyStart isFirst other with
      | .error fault => ([(.broken fault, .null)], none)
      | .ok start =>
        match readText {} start with
        | (key, none) => ([(key, .null)], none)
        | (key, some rest) =>
          match skipSpace rest with
          | [] => ([(key, .broken .ended)], none)
          | some ':' :: rest =>
            match readValue fuel rest with
            | (value, none) => ([(key, value)], none)
            | (value, some rest) =>
              let (members, left) := readMembers fuel false rest
              ((key, value) :: members, left)
          | _ => ([(key, .broken .malformed)], none)

end

end Json.Reader

/-- A text that has been read: the draft of the value at its start, and whether only blanks follow
it. -/
structure Document where
  root : Draft
  isWhole : Bool
deriving Repr

namespace Document

/-- Reads a text. -/
def ofGlyphs (input : List Text.Glyph) : Document :=
  match Json.Reader.readValue (2 * input.length + 2) input with
  | (root, none) => { root, isWhole := false }
  | (root, some rest) => { root, isWhole := (Json.Reader.skipSpace rest).isEmpty }

/-- Reads a text. -/
def ofText (text : String) : Document :=
  ofGlyphs (Text.glyphs text)

/-- Reads a text in UTF-8. -/
def ofBytes (bytes : List UInt8) : Document :=
  ofGlyphs (Text.decode bytes)

end Document

end ApiAtlas
