import ApiAtlas.Json.Decoder

/-!
# Kinds of symbols

What a symbol is (a class, a method, a type alias) is named by a kind. Documents
put the language in front of the kind, as in `swift.method`; the part behind the
first point names the kind in every language.

Producers have kinds of their own. Those that have been registered are told
apart from the rest, and a registered name counts before any other meaning of
the same name (`KindRegistry.resolve`). The name in the document is kept for
writing, whatever it meant.
-/

set_option autoImplicit false

namespace ApiAtlas

/-- A kind of symbol, whatever the language. -/
inductive KindIdentifier
  | associatedType
  | classType
  | deinitializer
  | enumeration
  | enumerationCase
  | function
  | operator
  | initializer
  | instanceVariable
  | macroDefinition
  | instanceMethod
  | instanceProperty
  | protocolType
  | snippet
  | snippetGroup
  | structureType
  | instanceSubscript
  | typeMethod
  | typeProperty
  | typeSubscript
  | typeAlias
  | globalVariable
  | wholeModule
  | extensionBlock
  | namespaceBlock
  | unionType
  | dictionary
  | httpRequest
  /-- A kind that has been registered. -/
  | custom (name : String)
  /-- A kind that is neither known nor registered. -/
  | unknown (name : String)
deriving DecidableEq, Repr

namespace KindIdentifier

/-- The kinds that need no registration, in their order. -/
def known : List KindIdentifier :=
  [associatedType, classType, deinitializer, enumeration, enumerationCase, function, operator,
    initializer, instanceVariable, macroDefinition, instanceMethod, instanceProperty, protocolType,
    snippet, snippetGroup, structureType, instanceSubscript, typeMethod, typeProperty,
    typeSubscript, typeAlias, globalVariable, wholeModule, extensionBlock, namespaceBlock,
    unionType, dictionary, httpRequest]

/-- The name of a kind in documents, without a language. -/
def name : KindIdentifier → String
  | associatedType => "associatedtype"
  | classType => "class"
  | deinitializer => "deinit"
  | enumeration => "enum"
  | enumerationCase => "enum.case"
  | function => "func"
  | operator => "func.op"
  | initializer => "init"
  | instanceVariable => "ivar"
  | macroDefinition => "macro"
  | instanceMethod => "method"
  | instanceProperty => "property"
  | protocolType => "protocol"
  | snippet => "snippet"
  | snippetGroup => "snippetGroup"
  | structureType => "struct"
  | instanceSubscript => "subscript"
  | typeMethod => "type.method"
  | typeProperty => "type.property"
  | typeSubscript => "type.subscript"
  | typeAlias => "typealias"
  | globalVariable => "var"
  | wholeModule => "module"
  | extensionBlock => "extension"
  | namespaceBlock => "namespace"
  | unionType => "union"
  | dictionary => "dictionary"
  | httpRequest => "httpRequest"
  | custom name => name
  | unknown name => name

/-- The known kind of a name. -/
def known? (name : String) : Option KindIdentifier :=
  known.find? fun kind => kind.name = name

/-- A kind's place: the known ones come first, then those registered, then the others. -/
def place (kind : KindIdentifier) : Nat × String :=
  match kind with
  | custom name => (known.length, name)
  | unknown name => (known.length + 1, name)
  | other => (known.idxOf other, other.name)

/-- The kind at a place. -/
def ofPlace (place : Nat × String) : KindIdentifier :=
  known[place.1]?.getD (if place.1 = known.length then custom place.2 else unknown place.2)

theorem ofPlace_place (kind : KindIdentifier) : ofPlace kind.place = kind := by
  cases kind <;> rfl

/-- The known kinds stand in their order, then the registered ones and the others by name. -/
instance : Key KindIdentifier :=
  Key.along place fun first second same => by
    rw [← ofPlace_place first, ← ofPlace_place second, same]

end KindIdentifier

/-- The kinds that have been registered. -/
abbrev KindRegistry : Type :=
  KeySet String

namespace KindRegistry

/-- Whether a kind has been registered. -/
def isRegistered (registry : KindRegistry) (name : String) : Bool :=
  Table.contains registry name

/-- The part of a name behind its first point. -/
def withoutLanguage (name : String) : Option String :=
  match name.toList.dropWhile (· ≠ '.') with
  | [] => none
  | _ :: rest => some (String.ofList rest)

/-- The kind that a name means: a registered one of that name, a known one of that name, and else
the same for the part behind the first point. There a known kind counts first. -/
def resolve (registry : KindRegistry) (name : String) : KindIdentifier :=
  let behindLanguage : Option KindIdentifier := do
    let rest ← withoutLanguage name
    (KindIdentifier.known? rest).or
      (if registry.isRegistered rest then some (.custom rest) else none)
  if registry.isRegistered name then .custom name
  else ((KindIdentifier.known? name).or behindLanguage).getD (.unknown name)

end KindRegistry

/-- The kind of a symbol as a document gives it. -/
structure Kind where
  identifier : KindIdentifier
  /-- The kind in words. -/
  displayName : String
  /-- The name in the document. -/
  source : String
deriving DecidableEq, Repr

namespace Kind

/-- The kind of a name in a document. -/
def ofSource (registry : KindRegistry) (source displayName : String) : Kind :=
  { identifier := registry.resolve source, displayName, source }

/-- A kind in a language. -/
def ofLanguage (language : String) (identifier : KindIdentifier) (displayName : String) : Kind :=
  { identifier, displayName, source := s!"{language}.{identifier.name}" }

/-- The record of a kind. -/
def shape : RecordShape :=
  { name := "RawKind", fields := ["identifier", "displayName"] }

/-- Reads a kind. -/
def decode (registry : KindRegistry) : Decoder Kind :=
  Decoder.record shape <|
    ofSource registry <$> Fields.required "identifier" Decoder.text
      <*> Fields.required "displayName" Decoder.text

/-- Writes a kind. -/
def encode (kind : Kind) : Json :=
  .object [("identifier", .text kind.source), ("displayName", .text kind.displayName)]

end Kind

end ApiAtlas
