import ApiAtlas.Symbol.Kind
import ApiAtlas.Symbol.Mixin

/-!
# Symbols

A symbol of a graph has an identifier that is the same in every language and on
every platform, and the language that it was written down for. The rest is what
that one graph says about it.
-/

set_option autoImplicit false

namespace ApiAtlas

/-- What a graph always says about a symbol. -/
structure Description where
  kind : Kind
  /-- The names of the enclosing declarations and the symbol's own. -/
  path : List String
  names : Names
  accessLevel : String
deriving DecidableEq, Repr

/-- A symbol of one graph. -/
structure Symbol where
  /-- The identifier, the same in every graph. -/
  identifier : String
  language : String
  description : Description
  comment : Option DocComment := none
  mixins : Mixins := Table.empty
deriving DecidableEq

namespace Symbol

/-- The number of levels that are left for a value inside a record of a graph. -/
def valueLevels : Nat :=
  124

/-- The record of an identifier. -/
def identifierShape : RecordShape :=
  { name := "Identifier", fields := ["precise", "interfaceLanguage"] }

/-- Reads an identifier with its language. -/
def decodeIdentifier : Decoder (String × String) :=
  Decoder.record identifierShape <|
    Prod.mk <$> Fields.required "precise" Decoder.text
      <*> Fields.required "interfaceLanguage" Decoder.text

/-- The record of a symbol. -/
def shape : RecordShape :=
  { name := "RawSymbol"
    fields := ["identifier", "kind", "pathComponents", "names", "docComment", "accessLevel"] }

/-- Reads a symbol without its mixins, and the other members of its record. -/
def decode (registry : KindRegistry) : Decoder (Symbol × Table String Json) :=
  Decoder.openRecord shape valueLevels <|
    (fun identifier kind path names comment accessLevel members =>
        ({ identifier := identifier.1, language := identifier.2,
            description := { kind, path, names, accessLevel }, comment }, members))
      <$> Fields.required "identifier" decodeIdentifier
      <*> Fields.required "kind" (Kind.decode registry)
      <*> Fields.withDefault "pathComponents" [] (Decoder.list Decoder.text)
      <*> Fields.required "names" Names.decode
      <*> Fields.optional "docComment" DocComment.decode
      <*> Fields.withDefault "accessLevel" "" Decoder.text

/-- Writes a symbol. -/
def encode (symbol : Symbol) : Json :=
  .object <|
    [Json.field "identifier"
          (.object
            [("precise", .text symbol.identifier), ("interfaceLanguage", .text symbol.language)]),
        Json.field "kind" symbol.description.kind.encode,
        Json.field "pathComponents" (.ofTexts symbol.description.path),
        Json.field "names" symbol.description.names.encode,
        Json.field? "docComment" (symbol.comment.map DocComment.encode),
        Json.field "accessLevel" (.text symbol.description.accessLevel)].filterMap id ++
      Mixins.encode symbol.mixins

/-- The symbol without the signs of zeros. -/
def unsignedZeros (symbol : Symbol) : Symbol :=
  { symbol with mixins := Mixins.unsignedZeros symbol.mixins }

end Symbol

end ApiAtlas
