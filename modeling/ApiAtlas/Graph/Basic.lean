import ApiAtlas.Module
import ApiAtlas.Notice
import ApiAtlas.Symbol.Basic
import ApiAtlas.Symbol.Relationship

/-!
# Symbol graphs

A symbol graph is the public surface of one module as one platform sees it: the
module, its symbols by their identifiers and the relationships between them, and
the tool that wrote it all down.

A graph is read from a document in two steps. The document is decoded to records
(`GraphRecords.decode`), which fails if the document is not of the right shape.
Then the records are made into symbols and relationships (`SymbolGraph.ofRecords`):
a symbol without an identifier is an error, of two symbols with one identifier
the last stays, and mixins that cannot be read are dropped.
-/

set_option autoImplicit false

namespace ApiAtlas

/-- The symbols and relationships of one module on one platform. -/
structure SymbolGraph where
  metadata : Metadata := {}
  module : Module
  /-- The symbols by their identifiers. -/
  symbols : Table String Symbol := Table.empty
  relationships : List Relationship := []
deriving DecidableEq

/-- Which kinds and mixins have been registered for reading. -/
structure Registries where
  kinds : KindRegistry := Table.empty
  mixins : MixinRegistry := MixinRegistry.standard

/-- Why a graph cannot be read. -/
inductive GraphError
  | document (error : DecodeError)
  /-- The symbol with this title has no identifier. -/
  | missingIdentifier (title : String)
deriving DecidableEq, Repr

/-- Why a graph cannot be read, in words. -/
def GraphError.message : GraphError → String
  | document error => error.message
  | missingIdentifier title => s!"Invalid symbol: symbol `{title}` has an empty identifier"

/-- The records of a graph, with mixins as they stand in the document. -/
structure GraphRecords where
  metadata : Metadata
  module : Module
  symbols : List (Symbol × Table String Json)
  relationships : List (Link × Table String Json)

namespace GraphRecords

/-- The record of a graph. -/
def shape : RecordShape :=
  { name := "RawSymbolGraph", fields := ["metadata", "module", "symbols", "relationships"] }

/-- Reads the records of a graph. -/
def decode (registry : KindRegistry) : Decoder GraphRecords :=
  Decoder.record shape <|
    GraphRecords.mk <$> Fields.withDefault "metadata" {} Metadata.decode
      <*> Fields.required "module" Module.decode
      <*> Fields.withDefault "symbols" [] (Decoder.list (Symbol.decode registry))
      <*> Fields.withDefault "relationships" [] (Decoder.list Relationship.decode)

end GraphRecords

namespace SymbolGraph

/-- The graph with one more symbol, in place of any with the same identifier. -/
def addSymbol (graph : SymbolGraph) (symbol : Symbol) : SymbolGraph :=
  { graph with symbols := graph.symbols.insert symbol.identifier symbol }

/-- The graph with one more relationship. -/
def addRelationship (graph : SymbolGraph) (relationship : Relationship) : SymbolGraph :=
  { graph with relationships := graph.relationships ++ [relationship] }

/-! ## Reading -/

/-- The notices about the mixins of one record. -/
def mixinNotices (registry : MixinRegistry) (members : Table String Json) : List Notice :=
  (Mixins.refusals registry members).map fun refusal => .droppedMixin refusal.1 refusal.2

/-- The symbol of a record. -/
def symbolOf (registry : MixinRegistry) (record : Symbol × Table String Json) : Symbol :=
  { record.1 with mixins := Mixins.ofMembers registry record.2 }

/-- The relationship of a record. -/
def relationshipOf (registry : MixinRegistry) (record : Link × Table String Json) : Relationship :=
  { link := record.1, mixins := Mixins.ofMembers registry record.2 }

/-- The symbols of records by their identifiers, up to the first without an identifier. -/
def symbolsOf (registry : MixinRegistry) (sofar : Table String Symbol) :
    List (Symbol × Table String Json) → Except GraphError (Table String Symbol)
  | [] => .ok sofar
  | record :: rest =>
    if record.1.identifier = "" then
      .error (.missingIdentifier record.1.description.names.title)
    else
      symbolsOf registry (sofar.insert record.1.identifier (symbolOf registry record)) rest

/-- The notices about the symbols of records, up to the first without an identifier. -/
def symbolNotices (registry : MixinRegistry) (module : String) (sofar : KeySet String) :
    List (Symbol × Table String Json) → List Notice
  | [] => []
  | record :: rest =>
    if record.1.identifier = "" then
      []
    else
      let repeated :=
        if sofar.contains record.1.identifier then
          [Notice.repeatedSymbol record.1.identifier module]
        else
          []
      mixinNotices registry record.2 ++ repeated ++
        symbolNotices registry module (KeySet.add sofar record.1.identifier) rest

/-- The graph of records. -/
def ofRecords (registry : MixinRegistry) (records : GraphRecords) :
    Except GraphError SymbolGraph := do
  let symbols ← symbolsOf registry Table.empty records.symbols
  return {
    metadata := records.metadata
    module := records.module
    symbols
    relationships := records.relationships.map (relationshipOf registry) }

/-- The notices about the records of a graph. -/
def recordNotices (registry : MixinRegistry) (records : GraphRecords) : List Notice :=
  let ofSymbols := symbolNotices registry records.module.name Table.empty records.symbols
  if records.symbols.any (·.1.identifier = "") then
    ofSymbols
  else
    ofSymbols ++ records.relationships.flatMap fun record => mixinNotices registry record.2

/-- Reads a graph from a document, and says what was dropped. -/
def read (registries : Registries) (document : Document) :
    Except GraphError SymbolGraph × List Notice :=
  match document.decode (GraphRecords.decode registries.kinds) with
  | .error error => (.error (.document error), [])
  | .ok records =>
    (ofRecords registries.mixins records, recordNotices registries.mixins records)

/-- The graph in a document. -/
def decode (registries : Registries) (document : Document) : Except GraphError SymbolGraph :=
  (read registries document).1

/-! ## Writing -/

/-- Writes a graph. -/
def encode (graph : SymbolGraph) : Json :=
  .object
    [("metadata", graph.metadata.encode), ("module", graph.module.encode),
      ("symbols", .array (graph.symbols.values.map Symbol.encode)),
      ("relationships", .array (graph.relationships.map Relationship.encode))]

/-- The graph without the signs of zeros. -/
def unsignedZeros (graph : SymbolGraph) : SymbolGraph :=
  { graph with
    symbols := graph.symbols.map fun _ symbol => symbol.unsignedZeros
    relationships := graph.relationships.map Relationship.unsignedZeros }

/-- Whether two graphs are equal but for the signs of zeros. -/
def alike (first second : SymbolGraph) : Bool :=
  first.unsignedZeros = second.unsignedZeros

end SymbolGraph

end ApiAtlas
