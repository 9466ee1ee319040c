import ApiAtlas.Graph.Basic
import ApiAtlas.Proofs.Json.Spelling
import ApiAtlas.Proofs.Symbol.Mixins

/-!
# Graphs read back

A graph is readable (`SymbolGraph.IsReadable`) if its symbols stand under their
own identifiers, its kinds are what their names mean, and its mixins can be read
back. Every graph that is read from a document is readable
(`SymbolGraph.isReadable_of_decode`), and a readable graph without doubles is
read back from what is written of it, compactly or over several lines
(`SymbolGraph.IsReadable.decode_compact`, `SymbolGraph.IsReadable.decode_pretty`).
-/

set_option autoImplicit false

namespace ApiAtlas

open Json

/-! ## Symbols -/

namespace Symbol

/-- The slots of an identifier. -/
def identifierSlots (symbol : Symbol) : Slots :=
  [("precise", some (.text symbol.identifier)), ("interfaceLanguage", some (.text symbol.language))]

/-- The slots of a symbol, without those of its mixins. -/
def slots (symbol : Symbol) : Slots :=
  [("identifier", some (.object (filled symbol.identifierSlots))),
    ("kind", some symbol.description.kind.encode),
    ("pathComponents", some (.ofTexts symbol.description.path)),
    ("names", some symbol.description.names.encode),
    ("docComment", symbol.comment.map DocComment.encode),
    ("accessLevel", some (.text symbol.description.accessLevel))]

theorem encode_eq (symbol : Symbol) : symbol.encode =
    .object (filled (withExtras symbol.slots (Mixins.members symbol.mixins))) := by
  rw [filled_withExtras, ← filterMap_slots, ← Mixins.encode_eq]
  rfl

/-- The record that a symbol is written as. -/
def record (symbol : Symbol) : Symbol × Table String Json :=
  ({ symbol with mixins := Table.empty }, Mixins.members symbol.mixins)

/-- A symbol whose kinds are what their names mean and whose mixins can be read back. -/
structure IsReadable (registry : KindRegistry) (symbol : Symbol) : Prop where
  kind : symbol.description.kind.IsResolved registry
  names : symbol.description.names.AreResolved
  mixins : Mixins.AreReadable shape symbol.mixins

variable {registry : KindRegistry} {symbol : Symbol}

theorem decode_identifierSlots (symbol : Symbol) :
    decodeIdentifier (object (filled symbol.identifierSlots)).draft =
      .ok (symbol.identifier, symbol.language) := by
  refine isForm_id.decode_record rfl (by decide) fun members holds => ?_
  have precise := holds.required identifierShape 0 rfl (isForm_id.decode_text symbol.identifier)
  have language := holds.required identifierShape 1 rfl (isForm_id.decode_text symbol.language)
  exact (precise.map Prod.mk).seq language

/-- **A readable symbol is read back**, with the members of its mixins. -/
theorem IsReadable.decode_encode (readable : symbol.IsReadable registry) :
    decode registry symbol.encode.draft = .ok symbol.record := by
  rw [encode_eq]
  refine decode_openRecord rfl (by decide) readable.mixins.isExtra fun members holds => ?_
  have identifier := holds.required shape 0 rfl symbol.decode_identifierSlots
  have kind := holds.required shape 1 rfl (Kind.decode_encode isForm_id readable.kind)
  have path := holds.withDefault shape 2 rfl []
    (isForm_id.decode_list fun text _ => isForm_id.decode_text text)
  have names := holds.required shape 3 rfl (Names.decode_encode isForm_id readable.names)
  have comment := holds.optional shape 4 rfl (fun comment _ => comment.decode_encode isForm_id)
    Decoder.record_null
  have accessLevel := holds.withDefault shape 5 rfl ""
    (isForm_id.decode_text symbol.description.accessLevel)
  exact (((((identifier.map _).seq kind).seq path).seq names).seq comment).seq accessLevel

/-- A readable symbol without doubles is written as a plain value. -/
theorem IsReadable.isPlain (readable : symbol.IsReadable registry)
    (exact : Mixins.areExact symbol.mixins = true) : symbol.encode.IsPlain (valueLevels + 1) := by
  have identifier : (object (filled symbol.identifierSlots)).IsPlain 1 :=
    isPlain_filled (by simp [identifierSlots])
  have kind := symbol.description.kind.isPlain_encode
  have path : (ofTexts symbol.description.path).IsPlain 1 := isPlain_ofTexts 0 _
  have names := symbol.description.names.isPlain_encode
  have few : 5 ≤ valueLevels := by decide
  rw [encode_eq]
  refine isPlain_withExtras ?_ (readable.mixins.isPlain exact)
  simp only [slots, List.forall_mem_cons, Option.mem_def, Option.some.injEq, forall_eq',
    Option.map_eq_some_iff, forall_exists_index, and_imp, forall_apply_eq_imp_iff₂]
  exact ⟨identifier.mono (by omega), kind.mono (by omega), path.mono (by omega),
    names.mono (by omega), fun comment _ => comment.isPlain_encode.mono few, isPlain_text _ _,
    List.forall_mem_nil _⟩

/-- Every symbol that is read is readable with the mixins of its record. -/
theorem ensures_readable (registry : KindRegistry) : (decode registry).Ensures fun record =>
    (SymbolGraph.symbolOf MixinRegistry.standard record).IsReadable registry :=
  Decoder.ensures_openRecord <|
    ((((((Fields.ensure_anything _).map fun _ _ _ kind _ _ _ names _ _ _ _ _ kept =>
      ⟨kind, names, Mixins.areReadable_ofMembers kept⟩).seq
        (Fields.ensure_required (Kind.ensures_resolved registry))).seq
        (Fields.ensure_anything _)).seq
        (Fields.ensure_required Names.ensures_resolved)).seq
        (Fields.ensure_anything _)).seq (Fields.ensure_anything _)

end Symbol

/-! ## Relationships -/

/-- The name of a kind of relationship means that kind. -/
def RelationshipKind.IsResolved (kind : RelationshipKind) : Prop :=
  ofName kind.name = kind

/-- What a name means is a kind whose name means it. -/
theorem RelationshipKind.isResolved_ofName (name : String) : (ofName name).IsResolved :=
  congrArg ofName (name_getD_find? known RelationshipKind.name rfl)

namespace Relationship

/-- The slots of a relationship, without those of its mixins. -/
def slots (relationship : Relationship) : Slots :=
  [("source", some (.text relationship.link.source)),
    ("target", some (.text relationship.link.target)),
    ("kind", some (.text relationship.link.kind.name)),
    ("targetFallback", relationship.link.targetFallback.map .text)]

theorem encode_eq (relationship : Relationship) : relationship.encode =
    .object (filled (withExtras relationship.slots (Mixins.members relationship.mixins))) := by
  rw [filled_withExtras, ← filterMap_slots, ← Mixins.encode_eq]
  rfl

/-- The record that a relationship is written as. -/
def record (relationship : Relationship) : Link × Table String Json :=
  (relationship.link, Mixins.members relationship.mixins)

/-- A relationship whose kind is what its name means and whose mixins can be read back. -/
structure IsReadable (relationship : Relationship) : Prop where
  kind : relationship.link.kind.IsResolved
  mixins : Mixins.AreReadable shape relationship.mixins

/-- **A readable relationship is read back**, with the members of its mixins. -/
theorem IsReadable.decode_encode {relationship : Relationship}
    (readable : relationship.IsReadable) :
    decode relationship.encode.draft = .ok relationship.record := by
  rw [encode_eq]
  refine decode_openRecord rfl (by decide) readable.mixins.isExtra fun members holds => ?_
  have source := holds.required shape 0 rfl (isForm_id.decode_text relationship.link.source)
  have target := holds.required shape 1 rfl (isForm_id.decode_text relationship.link.target)
  have kind : (Fields.required "kind" fun draft =>
      (Decoder.text draft).map RelationshipKind.ofName).Gives shape _ relationship.link.kind :=
    holds.required shape 2 rfl (isForm_id.decode_meaning readable.kind)
  have targetFallback := holds.optional shape 3 rfl (fun text _ => isForm_id.decode_text text)
    Decoder.text_null
  exact (((source.map _).seq target).seq kind).seq targetFallback

/-- A readable relationship without doubles is written as a plain value. -/
theorem IsReadable.isPlain {relationship : Relationship} (readable : relationship.IsReadable)
    (exact : Mixins.areExact relationship.mixins = true) :
    relationship.encode.IsPlain (valueLevels + 1) := by
  rw [encode_eq]
  exact isPlain_withExtras (by simp [slots]) (readable.mixins.isPlain exact)

/-- Every relationship that is read is readable with the mixins of its record. -/
theorem ensures_readable : decode.Ensures fun record =>
    (SymbolGraph.relationshipOf MixinRegistry.standard record).IsReadable :=
  Decoder.ensures_openRecord <|
    ((((Fields.ensure_anything _).map fun _ _ _ _ _ kind _ _ _ kept =>
      ⟨kind, Mixins.areReadable_ofMembers kept⟩).seq (Fields.ensure_anything _)).seq
        (Fields.ensure_required (Decoder.ensures_meaning RelationshipKind.isResolved_ofName))).seq
        (Fields.ensure_anything _)

end Relationship

/-! ## Graphs -/

/-- The records of a graph are read field by field. -/
theorem GraphRecords.decode_eq_ok_iff {registry : KindRegistry} {draft : Draft}
    {records : GraphRecords} :
    decode registry draft = .ok records ↔ ∃ parts, draft.parts? = some parts ∧
      Fields.withDefault "metadata" {} Metadata.decode shape parts = .ok records.metadata ∧
      Fields.required "module" Module.decode shape parts = .ok records.module ∧
      Fields.withDefault "symbols" [] (Decoder.list (Symbol.decode registry)) shape parts =
        .ok records.symbols ∧
      Fields.withDefault "relationships" [] (Decoder.list Relationship.decode) shape parts =
        .ok records.relationships ∧
      Fields.strangers shape parts = .ok () := by
  rw [decode, Decoder.record_eq_ok_iff]
  refine exists_congr fun parts => and_congr_right fun _ => ?_
  constructor
  · rintro ⟨all, none⟩
    obtain ⟨_, relationships, three, fourth, rfl⟩ := Fields.both_eq_ok_iff.1 all
    obtain ⟨_, symbols, two, third, rfl⟩ := Fields.both_eq_ok_iff.1 three
    obtain ⟨_, module, one, second, rfl⟩ := Fields.both_eq_ok_iff.1 two
    obtain ⟨metadata, first, rfl⟩ := Outcome.map_eq_ok_iff.1 one
    exact ⟨first, second, third, fourth, none⟩
  · rintro ⟨first, second, third, fourth, none⟩
    have metadata : (Fields.withDefault "metadata" {} Metadata.decode).Gives shape parts
        records.metadata := first
    exact ⟨(((metadata.map GraphRecords.mk).seq second).seq third).seq fourth, none⟩

namespace SymbolGraph

/-- A graph whose symbols stand under their own identifiers, and that has nothing that could not be
read back. -/
structure IsReadable (registry : KindRegistry) (graph : SymbolGraph) : Prop where
  identified : ∀ identifier symbol, graph.symbols.get? identifier = some symbol →
    symbol.identifier = identifier ∧ identifier ≠ ""
  symbols : ∀ identifier symbol, graph.symbols.get? identifier = some symbol →
    symbol.IsReadable registry
  relationships : ∀ relationship ∈ graph.relationships, relationship.IsReadable

/-- Whether no value that is kept verbatim holds a double. -/
def isExact (graph : SymbolGraph) : Bool :=
  graph.symbols.values.all (fun symbol => Mixins.areExact symbol.mixins) &&
    graph.relationships.all fun relationship => Mixins.areExact relationship.mixins

/-- The slots of a graph. -/
def slots (graph : SymbolGraph) : Slots :=
  [("metadata", some graph.metadata.encode), ("module", some graph.module.encode),
    ("symbols", some (.array (graph.symbols.values.map Symbol.encode))),
    ("relationships", some (.array (graph.relationships.map Relationship.encode)))]

theorem encode_eq (graph : SymbolGraph) : graph.encode = .object (filled graph.slots) :=
  rfl

/-- The records that a graph is written as. -/
def records (graph : SymbolGraph) : GraphRecords where
  metadata := graph.metadata
  module := graph.module
  symbols := graph.symbols.values.map Symbol.record
  relationships := graph.relationships.map Relationship.record

/-- Symbols with identifiers are put one after the other under their identifiers. -/
theorem symbolsOf_eq_ok_iff {registry : MixinRegistry} {sofar symbols : Table String Symbol}
    {records : List (Symbol × Table String Json)} :
    symbolsOf registry sofar records = .ok symbols ↔
      (∀ record ∈ records, record.1.identifier ≠ "") ∧
        sofar.insertAll (records.map fun record =>
          (record.1.identifier, symbolOf registry record)) = symbols := by
  -- The table so far grows with every record, so the induction is over all of them.
  induction records generalizing sofar with
  | nil => simp [symbolsOf, Table.insertAll]
  | cons record rest ih =>
    rw [symbolsOf]
    split
    · next empty => simp [empty]
    · next named =>
      rw [ih, List.forall_mem_cons, List.map_cons]
      simp only [ne_eq, named, not_false_eq_true, true_and]
      rfl

variable {registry : KindRegistry} {graph : SymbolGraph}

/-- The symbols of a readable graph are put together again. -/
theorem IsReadable.symbolsOf_records (readable : graph.IsReadable registry) :
    symbolsOf MixinRegistry.standard Table.empty graph.records.symbols = .ok graph.symbols := by
  have own : ∀ entry ∈ graph.symbols.entries,
      (entry.2.record.1.identifier, symbolOf MixinRegistry.standard entry.2.record) = entry := by
    rintro ⟨identifier, symbol⟩ member
    have found := Table.get?_eq_some_iff.2 member
    have same := Mixins.ofMembers_members (readable.symbols identifier symbol found).mixins
    obtain ⟨rfl, -⟩ := readable.identified identifier symbol found
    simp only [Symbol.record, symbolOf, same]
  rw [symbolsOf_eq_ok_iff]
  constructor
  · intro record member
    obtain ⟨symbol, within, rfl⟩ := List.mem_map.1 member
    obtain ⟨identifier, found⟩ := Table.mem_values.1 within
    obtain ⟨same, named⟩ := readable.identified identifier symbol found
    exact same ▸ named
  · refine Eq.trans ?_ (Table.ofList_entries graph.symbols)
    rw [records, Table.values, List.map_map, List.map_map]
    exact congrArg Table.ofList ((List.map_congr_left own).trans (List.map_id _))

/-- A readable graph is put together again from its records. -/
theorem IsReadable.ofRecords_records (readable : graph.IsReadable registry) :
    ofRecords MixinRegistry.standard graph.records = .ok graph := by
  have relationships :
      graph.records.relationships.map (relationshipOf MixinRegistry.standard) =
        graph.relationships := by
    rw [records, List.map_map]
    refine (List.map_congr_left fun relationship member => ?_).trans (List.map_id _)
    have same := Mixins.ofMembers_members (readable.relationships relationship member).mixins
    simp only [Function.comp, Relationship.record, relationshipOf, same, id]
  rw [ofRecords, readable.symbolsOf_records, relationships]
  rfl

/-- The records of a readable graph are read back. -/
theorem IsReadable.decode_records (readable : graph.IsReadable registry) :
    GraphRecords.decode registry graph.encode.draft = .ok graph.records := by
  rw [encode_eq]
  refine isForm_id.decode_record rfl (by decide) fun members holds => ?_
  have symbols : Decoder.list (Symbol.decode registry)
      (id (array (graph.symbols.values.map Symbol.encode))).draft = .ok graph.records.symbols :=
    isForm_id.decode_map fun symbol member => by
      obtain ⟨identifier, found⟩ := Table.mem_values.1 member
      exact (readable.symbols identifier symbol found).decode_encode
  have relationships : Decoder.list Relationship.decode
      (id (array (graph.relationships.map Relationship.encode))).draft =
        .ok graph.records.relationships :=
    isForm_id.decode_map fun relationship member =>
      (readable.relationships relationship member).decode_encode
  have metadata := holds.withDefault GraphRecords.shape 0 rfl {}
    (graph.metadata.decode_encode isForm_id)
  have module := holds.required GraphRecords.shape 1 rfl (graph.module.decode_encode isForm_id)
  exact (((metadata.map GraphRecords.mk).seq module).seq
    (holds.withDefault GraphRecords.shape 2 rfl [] symbols)).seq
    (holds.withDefault GraphRecords.shape 3 rfl [] relationships)

/-- A readable graph without doubles is written without doubles. -/
theorem IsReadable.isExact_encode (readable : graph.IsReadable registry)
    (exact : graph.isExact = true) : graph.encode.isExact = true := by
  rw [isExact, Bool.and_eq_true, List.all_eq_true, List.all_eq_true] at exact
  have symbols : (array (graph.symbols.values.map Symbol.encode)).IsPlain
      (Symbol.valueLevels + 2) := by
    refine isPlain_array (List.forall_mem_map.2 fun symbol member => ?_)
    obtain ⟨identifier, found⟩ := Table.mem_values.1 member
    exact (readable.symbols identifier symbol found).isPlain (exact.1 symbol member)
  have relationships : (array (graph.relationships.map Relationship.encode)).IsPlain
      (Relationship.valueLevels + 2) :=
    isPlain_array <| List.forall_mem_map.2 fun relationship member =>
      (readable.relationships relationship member).isPlain (exact.2 relationship member)
  have metadata := graph.metadata.isPlain_encode
  have module := graph.module.isPlain_encode
  rw [encode_eq, isExact_object]
  simp [slots, filled, metadata.exact, module.exact, symbols.exact, relationships.exact]

/-- A document holds a graph if it is whole and its records make the graph. -/
theorem decode_eq_ok_iff {registries : Registries} {document : Document} :
    decode registries document = .ok graph ↔
      ∃ records, GraphRecords.decode registries.kinds document.root = .ok records ∧
        document.isWhole = true ∧ ofRecords registries.mixins records = .ok graph := by
  unfold decode read Document.decode
  cases GraphRecords.decode registries.kinds document.root with
  | error error => simp [Except.mapError, bind, Except.bind]
  | ok records =>
    cases document.isWhole <;> simp [Except.mapError, bind, Except.bind, pure, Except.pure, throw,
      throwThe, MonadExceptOf.throw]

/-- A readable graph is read back from its value. -/
theorem IsReadable.decode_draft (readable : graph.IsReadable registry) :
    decode { kinds := registry } { root := graph.encode.draft, isWhole := true } = .ok graph :=
  decode_eq_ok_iff.2 ⟨graph.records, readable.decode_records, rfl, readable.ofRecords_records⟩

/-- **A readable graph without doubles is read back from its compact text.** -/
theorem IsReadable.decode_compact (readable : graph.IsReadable registry)
    (exact : graph.isExact = true) :
    decode { kinds := registry } (Document.ofText graph.encode.compact) = .ok graph := by
  rw [Document.ofText_compact (readable.isExact_encode exact)]
  exact readable.decode_draft

/-- **A readable graph without doubles is read back from its text over several lines.** -/
theorem IsReadable.decode_pretty (readable : graph.IsReadable registry)
    (exact : graph.isExact = true) :
    decode { kinds := registry } (Document.ofText graph.encode.pretty) = .ok graph := by
  rw [Document.ofText_pretty (readable.isExact_encode exact)]
  exact readable.decode_draft

/-! ## Reading -/

/-- All records that are read are readable. -/
theorem ensures_readable (registry : KindRegistry) :
    (GraphRecords.decode registry).Ensures fun records =>
      (∀ record ∈ records.symbols,
        (symbolOf MixinRegistry.standard record).IsReadable registry) ∧
      ∀ record ∈ records.relationships,
        (relationshipOf MixinRegistry.standard record).IsReadable :=
  Decoder.ensures_record <|
    ((((Fields.ensure_anything _).map fun _ _ _ _ _ symbols _ relationships =>
      ⟨symbols, relationships⟩).seq (Fields.ensure_anything _)).seq
        (Fields.ensure_withDefault (Symbol.ensures_readable registry).list (by simp))).seq
        (Fields.ensure_withDefault Relationship.ensures_readable.list (by simp))

/-- The graph of records has their symbols, the last of each identifier. -/
theorem ofRecords_eq_ok_iff {mixins : MixinRegistry} {records : GraphRecords} :
    ofRecords mixins records = .ok graph ↔
      (∀ record ∈ records.symbols, record.1.identifier ≠ "") ∧
        graph = {
          metadata := records.metadata
          module := records.module
          symbols := Table.ofList (records.symbols.map fun record =>
            (record.1.identifier, symbolOf mixins record))
          relationships := records.relationships.map (relationshipOf mixins) } := by
  rw [ofRecords, Outcome.bind_eq_ok_iff]
  simp only [symbolsOf_eq_ok_iff]
  constructor
  · rintro ⟨symbols, ⟨named, rfl⟩, made⟩
    cases made
    exact ⟨named, rfl⟩
  · rintro ⟨named, rfl⟩
    exact ⟨_, ⟨named, rfl⟩, rfl⟩

/-- **Every graph that is read from a document is readable.** -/
theorem isReadable_of_decode {document : Document}
    (read : decode { kinds := registry } document = .ok graph) : graph.IsReadable registry := by
  obtain ⟨records, decoded, -, made⟩ := decode_eq_ok_iff.1 read
  obtain ⟨named, rfl⟩ := ofRecords_eq_ok_iff.1 made
  obtain ⟨symbols, relationships⟩ := ensures_readable registry _ _ decoded
  have origin : ∀ identifier symbol, (Table.ofList (records.symbols.map fun record =>
      (record.1.identifier, symbolOf MixinRegistry.standard record))).get? identifier =
        some symbol → ∃ record ∈ records.symbols,
          record.1.identifier = identifier ∧ symbolOf MixinRegistry.standard record = symbol := by
    intro identifier symbol found
    obtain ⟨record, member, same⟩ := List.mem_map.1 (Table.mem_of_get?_ofList found)
    cases same
    exact ⟨record, member, rfl, rfl⟩
  refine ⟨fun identifier symbol found => ?_, fun identifier symbol found => ?_, ?_⟩
  · obtain ⟨record, member, rfl, rfl⟩ := origin identifier symbol found
    exact ⟨rfl, named record member⟩
  · obtain ⟨record, member, -, rfl⟩ := origin identifier symbol found
    exact symbols record member
  · exact List.forall_mem_map.2 relationships

end SymbolGraph

end ApiAtlas
