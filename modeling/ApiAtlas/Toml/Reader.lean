import ApiAtlas.Toml.Basic
import ApiAtlas.Toml.Scalar

/-!
# Reading TOML

A document is read line by line: comments, headers of tables and keys with
values. Values within arrays and inline tables may stand inside each other up to
a limit, and so may the parts of a key.

The functions that call themselves are given a bound for the number of their
steps. Each step takes at least one character, so the length of the text is
enough.
-/

set_option autoImplicit false

namespace ApiAtlas.Toml

/-- How many arrays and inline tables may stand inside each other, and how many parts a key may
have. -/
def levelLimit : Nat :=
  79

/-! ## Comments and line ends -/

/-- The text behind a comment, if there is one. -/
def skipComment (input : List Char) : List Char :=
  match input with
  | '#' :: rest => rest.dropWhile isPrintable
  | other => other

/-- The text behind the rest of a line that holds nothing more. -/
def lineEnd? (input : List Char) : Option (List Char) :=
  match skipComment (skipSpace input) with
  | [] => some []
  | other => newline? other

/-- The text behind blanks, comments and ends of lines. -/
def skipFiller : Nat → List Char → List Char
  | 0, input => input
  | steps + 1, input =>
    match skipComment (skipSpace input) with
    | [] => []
    | other =>
      match newline? other with
      | some rest => skipFiller steps rest
      | none => other

/-! ## Keys -/

/-- Whether a character may stand in a key without marks. -/
def isBare (character : Char) : Bool :=
  ('a' ≤ character && character ≤ 'z') || ('A' ≤ character && character ≤ 'Z') ||
    ('0' ≤ character && character ≤ '9') || character = '_' || character = '-'

/-- Reads a part of a key. -/
def keyPart? (input : List Char) : Reading :=
  match input with
  | '"' :: rest => quotedText input.length [] rest
  | '\'' :: rest => plainText [] rest
  | _ =>
    match input.takeWhile isBare with
    | [] => none
    | name => some (String.ofList name, input.dropWhile isBare)

/-- Reads the parts of a key with dots between them. -/
def keyParts : Nat → List Char → Option (List String × List Char)
  | 0, _ => none
  | steps + 1, input => do
    let (part, rest) ← keyPart? (skipSpace input)
    match skipSpace rest with
    | '.' :: more =>
      let (parts, left) ← keyParts steps more
      return (part :: parts, left)
    | left => return ([part], left)

/-- A key with dots: the parts on the way and the last one. -/
structure DottedKey where
  path : List String
  name : String
deriving DecidableEq, Repr

/-- Reads a key and the blanks around it. -/
def key? (input : List Char) : Option (DottedKey × List Char) := do
  let (parts, rest) ← keyParts levelLimit input
  let name ← parts.getLast?
  return ({ path := parts.dropLast, name }, rest)

/-! ## Values -/

mutual

/-- Reads a value. -/
def readValue : Nat → Nat → List Char → Option (Node × List Char)
  | 0, _, _ => none
  | steps + 1, levels, input =>
    match input with
    | '[' :: rest =>
      if levels = 0 then none
      else (readItems steps (levels - 1) rest).map fun found => (.array found.1, found.2)
    | '\x7b' :: rest =>
      if levels = 0 then none
      else (readMembers steps (levels - 1) true [] rest).map fun found =>
        (.table .inline found.1, found.2)
    | 't' :: 'r' :: 'u' :: 'e' :: rest => some (.boolean true, rest)
    | 'f' :: 'a' :: 'l' :: 's' :: 'e' :: rest => some (.boolean false, rest)
    | other =>
      match text? other with
      | some (value, rest) => some (.text value, rest)
      | none => (scalar? other).map (.scalar, ·)

/-- Reads the items of an array up to its closing bracket. A comma may follow the last one. -/
def readItems : Nat → Nat → List Char → Option (List Node × List Char)
  | 0, _, _ => none
  | steps + 1, levels, input =>
    match skipFiller input.length input with
    | ']' :: rest => some ([], rest)
    | start => do
      let (item, rest) ← readValue steps levels start
      match skipFiller rest.length rest with
      | ',' :: more =>
        let (items, left) ← readItems steps levels more
        return (item :: items, left)
      | ']' :: left => return ([item], left)
      | _ => none

/-- Reads the members of an inline table up to its closing brace. They stand in one line, and no
comma follows the last one. -/
def readMembers : Nat → Nat → Bool → Members → List Char → Option (Members × List Char)
  | 0, _, _, _, _ => none
  | steps + 1, levels, isFirst, sofar, input =>
    match isFirst, skipSpace input with
    | true, '\x7d' :: rest => some (sofar, rest)
    | _, start => do
      let (key, rest) ← key? start
      let (value, rest) ← readValue steps levels (skipSpace (← mark? '=' rest))
      let next ← sofar.insert? key.path key.name value
      match skipSpace rest with
      | ',' :: more => readMembers steps levels false next more
      | '\x7d' :: left => return (next, left)
      | _ => none

end

/-! ## Documents -/

/-- Reads a header from behind its opening bracket. -/
def header? (input : List Char) : Option (Header × List Char) :=
  match input with
  | '[' :: rest => do
    let (key, rest) ← key? rest
    let rest ← mark? ']' (← mark? ']' rest)
    return ({ path := key.path, name := key.name, isElement := true }, rest)
  | rest => do
    let (key, rest) ← key? rest
    let rest ← mark? ']' rest
    return ({ path := key.path, name := key.name, isElement := false }, rest)

/-- Reads a line with a key and a value into a document. -/
def readMember (draft : Draft) (input : List Char) : Option (Draft × List Char) := do
  let (key, rest) ← key? input
  let (value, rest) ← readValue (2 * input.length + 2) levelLimit (skipSpace (← mark? '=' rest))
  return (← draft.insert? key.path key.name value, ← lineEnd? rest)

/-- Reads the lines of a document. -/
def readLines : Nat → Draft → List Char → Option Draft
  | 0, _, _ => none
  | steps + 1, draft, input =>
    match skipSpace input with
    | [] => some draft
    | '[' :: rest => do
      let (header, rest) ← header? rest
      readLines steps (← draft.start header) (← lineEnd? rest)
    | start =>
      match lineEnd? start with
      | some rest => readLines steps draft rest
      | none => do
        let (next, rest) ← readMember draft start
        readLines steps next rest

/-- The document in a text. A mark of the byte order at its start does not count. -/
def document? (text : String) : Option Members := do
  let input :=
    match text.toList with
    | '\uFEFF' :: rest => rest
    | other => other
  let draft ← readLines (input.length + 1) {} input
  draft.close

end ApiAtlas.Toml
