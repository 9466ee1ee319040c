/-!
# Texts in TOML

A text stands between quotation marks, where a backslash begins an escape, or
between apostrophes, where every character stands for itself. Between three
marks a text may hold line ends.

Each function reads from behind the opening marks and answers the characters and
what is left behind the closing ones. It is given a bound for the number of its
steps; the length of the input is enough.
-/

set_option autoImplicit false

namespace ApiAtlas.Toml

/-- Whether a character may stand in a line: controls may not, but for the tab. -/
def isPrintable (character : Char) : Bool :=
  character = '\t' || (32 ≤ character.toNat && character.toNat ≠ 127)

/-- Whether a character is a blank within a line. -/
def isSpace (character : Char) : Bool :=
  character = ' ' || character = '\t'

/-- The text behind blanks. -/
def skipSpace (input : List Char) : List Char :=
  input.dropWhile isSpace

/-- The text behind the end of a line. -/
def newline? : List Char → Option (List Char)
  | '\n' :: rest => some rest
  | '\r' :: '\n' :: rest => some rest
  | _ => none

/-- The text behind blanks and ends of lines. -/
def skipLines : List Char → List Char
  | '\r' :: '\n' :: rest => skipLines rest
  | character :: rest =>
    if isSpace character || character = '\n' then skipLines rest else character :: rest
  | [] => []

/-! ## Escapes -/

/-- The value of a hexadecimal digit. -/
def hexValue? (character : Char) : Option Nat :=
  if '0' ≤ character ∧ character ≤ '9' then some (character.toNat - 48)
  else if 'a' ≤ character ∧ character ≤ 'f' then some (character.toNat - 87)
  else if 'A' ≤ character ∧ character ≤ 'F' then some (character.toNat - 55)
  else none

/-- The character of so many hexadecimal digits, and what is left. -/
def codePoint? (digits : Nat) (input : List Char) : Option (Char × List Char) := do
  if input.length < digits then
    none
  else
    let values ← (input.take digits).mapM hexValue?
    let code := values.foldl (fun sofar value => sofar * 16 + value) 0
    if valid : code.isValidChar then
      some (Char.ofNatAux code valid, input.drop digits)
    else
      none

/-- The character of an escape behind its backslash, and what is left. -/
def escape? : List Char → Option (Char × List Char)
  | 'b' :: rest => some ('\x08', rest)
  | 't' :: rest => some ('\t', rest)
  | 'n' :: rest => some ('\n', rest)
  | 'f' :: rest => some ('\x0c', rest)
  | 'r' :: rest => some ('\r', rest)
  | '"' :: rest => some ('"', rest)
  | '\\' :: rest => some ('\\', rest)
  | 'u' :: rest => codePoint? 4 rest
  | 'U' :: rest => codePoint? 8 rest
  | _ => none

/-! ## Texts -/

/-- A text that has been read, and what is left. -/
abbrev Reading : Type :=
  Option (String × List Char)

/-- The text of characters that were collected in reverse, and what is left. -/
def finished (characters rest : List Char) : Reading :=
  some (String.ofList characters.reverse, rest)

/-- Reads a text up to a quotation mark. -/
def quotedText : Nat → List Char → List Char → Reading
  | 0, _, _ => none
  | _, _, [] => none
  | steps + 1, sofar, character :: rest =>
    if character = '"' then
      finished sofar rest
    else if character = '\\' then
      (escape? rest).bind fun found => quotedText steps (found.1 :: sofar) found.2
    else if isPrintable character then
      quotedText steps (character :: sofar) rest
    else
      none

/-- Reads a text up to an apostrophe. -/
def plainText : List Char → List Char → Reading
  | _, [] => none
  | sofar, character :: rest =>
    if character = '\'' then finished sofar rest
    else if isPrintable character then plainText (character :: sofar) rest
    else none

/-- The end of a text at three marks; up to two more marks belong to the text. -/
def closing? (mark : Char) (sofar input : List Char) : Option Reading :=
  match input with
  | first :: second :: third :: rest =>
    if first = mark ∧ second = mark ∧ third = mark then
      let extra := (rest.take 2).takeWhile (· = mark)
      some (finished (extra ++ sofar) (rest.drop extra.length))
    else
      none
  | _ => none

/-- Reads a text of several lines up to three quotation marks. A backslash at the end of a line
takes away all blanks and ends of lines that follow. -/
def quotedLines : Nat → List Char → List Char → Reading
  | 0, _, _ => none
  | _, _, [] => none
  | steps + 1, sofar, character :: rest =>
    match closing? '"' sofar (character :: rest), newline? (character :: rest) with
    | some closed, _ => closed
    | none, some next => quotedLines steps ('\n' :: sofar) next
    | none, none =>
      if character = '\\' then
        match newline? (skipSpace rest) with
        | some next => quotedLines steps sofar (skipLines next)
        | none => (escape? rest).bind fun found => quotedLines steps (found.1 :: sofar) found.2
      else if isPrintable character then
        quotedLines steps (character :: sofar) rest
      else
        none

/-- Reads a text of several lines up to three apostrophes. -/
def plainLines : Nat → List Char → List Char → Reading
  | 0, _, _ => none
  | _, _, [] => none
  | steps + 1, sofar, character :: rest =>
    match closing? '\'' sofar (character :: rest), newline? (character :: rest) with
    | some closed, _ => closed
    | none, some next => plainLines steps ('\n' :: sofar) next
    | none, none =>
      if isPrintable character then plainLines steps (character :: sofar) rest else none

/-- The text behind the end of a line, if there is one. -/
def skipNewline (input : List Char) : List Char :=
  (newline? input).getD input

/-- Reads a text from its opening marks. -/
def text? (input : List Char) : Reading :=
  match input with
  | '"' :: '"' :: '"' :: rest => quotedLines input.length [] (skipNewline rest)
  | '"' :: rest => quotedText input.length [] rest
  | '\'' :: '\'' :: '\'' :: rest => plainLines input.length [] (skipNewline rest)
  | '\'' :: rest => plainText [] rest
  | _ => none

end ApiAtlas.Toml
