import ApiAtlas.Fragment

/-!
# Names and documentation of a symbol

A symbol has a title and, for navigation and for listings, shorter forms of its
declaration. Its documentation comment is a list of lines, each of which may
tell where it stands in a source file; the text of the comment is the lines
alone (`DocComment.text`).
-/

set_option autoImplicit false

namespace ApiAtlas

/-- A place in a source file, counted from zero. -/
structure Position where
  line : UInt32
  character : UInt32
deriving DecidableEq, Repr

/-- A stretch of a source file. -/
structure SourceRange where
  start : Position
  stop : Position
deriving DecidableEq, Repr

/-- The names under which a symbol is shown. -/
structure Names where
  title : String
  /-- The form for navigation. -/
  navigator : Option (List Fragment) := none
  /-- The form for headings and listings. -/
  subHeading : Option (List Fragment) := none
  /-- The form inside running text. -/
  prose : Option String := none
deriving DecidableEq, Repr

/-- One line of a documentation comment. -/
structure DocLine where
  text : String
  range : Option SourceRange := none
deriving DecidableEq, Repr

/-- A documentation comment. -/
structure DocComment where
  url : Option String := none
  module : Option String := none
  lines : List DocLine
deriving DecidableEq, Repr

namespace Position

/-- The record of a position. -/
def shape : RecordShape :=
  { name := "Position", fields := ["line", "character"] }

/-- Reads a position. -/
def decode : Decoder Position :=
  Decoder.record shape <|
    Position.mk <$> Fields.required "line" Decoder.word32
      <*> Fields.required "character" Decoder.word32

/-- Writes a position. -/
def encode (position : Position) : Json :=
  .object
    [("line", .ofWord position.line.toUInt64), ("character", .ofWord position.character.toUInt64)]

end Position

namespace SourceRange

/-- The record of a range. -/
def shape : RecordShape :=
  { name := "SourceRange", fields := ["start", "end"] }

/-- Reads a range. -/
def decode : Decoder SourceRange :=
  Decoder.record shape <|
    SourceRange.mk <$> Fields.required "start" Position.decode
      <*> Fields.required "end" Position.decode

/-- Writes a range. -/
def encode (range : SourceRange) : Json :=
  .object [("start", range.start.encode), ("end", range.stop.encode)]

end SourceRange

namespace Names

/-- The record of the names of a symbol. -/
def shape : RecordShape :=
  { name := "Names", fields := ["title", "navigator", "subHeading", "prose"] }

/-- Reads the names of a symbol. -/
def decode : Decoder Names :=
  Decoder.record shape <|
    Names.mk <$> Fields.required "title" Decoder.text
      <*> Fields.optional "navigator" (Decoder.list Fragment.decode)
      <*> Fields.optional "subHeading" (Decoder.list Fragment.decode)
      <*> Fields.optional "prose" Decoder.text

/-- Writes the names of a symbol. -/
def encode (names : Names) : Json :=
  .ofFields
    [Json.field "title" (.text names.title),
      Json.field? "navigator" (names.navigator.map Fragment.encodeAll),
      Json.field? "subHeading" (names.subHeading.map Fragment.encodeAll),
      Json.field? "prose" (names.prose.map .text)]

end Names

namespace DocLine

/-- The record of a line. -/
def shape : RecordShape :=
  { name := "LineText", fields := ["text", "range"] }

/-- Reads a line. -/
def decode : Decoder DocLine :=
  Decoder.record shape <|
    DocLine.mk <$> Fields.required "text" Decoder.text
      <*> Fields.optional "range" SourceRange.decode

/-- Writes a line. -/
def encode (line : DocLine) : Json :=
  .ofFields
    [Json.field "text" (.text line.text), Json.field? "range" (line.range.map SourceRange.encode)]

end DocLine

namespace DocComment

/-- A comment of plain lines. -/
def ofLines (lines : List String) : DocComment :=
  { lines := lines.map fun text => { text } }

/-- The lines of a comment in one text. -/
def text (comment : DocComment) : String :=
  "\n".intercalate (comment.lines.map (·.text))

/-- The record of a comment. -/
def shape : RecordShape :=
  { name := "DocComment", fields := ["url", "module", "lines"] }

/-- Reads a comment. -/
def decode : Decoder DocComment :=
  Decoder.record shape <|
    DocComment.mk <$> Fields.optional "url" Decoder.text
      <*> Fields.optional "module" Decoder.text
      <*> Fields.required "lines" (Decoder.list DocLine.decode)

/-- Writes a comment. -/
def encode (comment : DocComment) : Json :=
  .ofFields
    [Json.field? "url" (comment.url.map .text), Json.field? "module" (comment.module.map .text),
      Json.field "lines" (.array (comment.lines.map DocLine.encode))]

end DocComment

end ApiAtlas
