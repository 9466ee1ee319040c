import ApiAtlas.Proofs.Overload.Keeping

/-!
# Nothing is lost in writing

A graph that was read from a document, and perhaps grouped since, can be written
and read again: nothing changes (`SymbolGraph.keptFrom_regrouped`). Moreover
everything in the records of the document that has no meaning here is written
again with the records that the graph keeps (`Draft.IsKeptIn`).

Of several records of one symbol the last is kept, unless the symbol is a group
and groups have been removed. The record of a relationship is kept at least if it
neither leads to a group nor touches one.
-/

set_option autoImplicit false

namespace ApiAtlas

open Json

/-! ## Records of a document -/

/-- Every member of a record that has neither a field nor a reader is a member of what is written,
with the value that it has in the record. -/
def Draft.IsKeptIn (shape : RecordShape) (record : Draft) (written : Json) : Prop :=
  ∀ name item, record.lastMember? name = some item → name ∉ shape.fields →
    Table.contains MixinRegistry.standard name = false →
      ∃ value, item.value? Symbol.valueLevels = .ok value ∧ written.member? name = some value

namespace Document

/-- The records of symbols in a document. -/
def symbolRecords (document : Document) : List Draft :=
  document.root.itemsOf GraphRecords.shape "symbols"

/-- The records of relationships in a document. -/
def relationshipRecords (document : Document) : List Draft :=
  document.root.itemsOf GraphRecords.shape "relationships"

/-- The last record of a symbol with an identifier. -/
def lastSymbol? (registry : KindRegistry) (document : Document) (identifier : String) :
    Option Draft :=
  (document.symbolRecords.filter fun record =>
    (Symbol.decode registry record).toOption.map (·.1.identifier) = some identifier).getLast?

end Document

/-- The records of a graph are decoded from those of the document. -/
theorem GraphRecords.items_of_decode {registry : KindRegistry} {document : Document}
    {records : GraphRecords} (read : GraphRecords.decode registry document.root = .ok records) :
    Decoder.items (Symbol.decode registry) document.symbolRecords = .ok records.symbols ∧
      Decoder.items Relationship.decode document.relationshipRecords =
        .ok records.relationships := by
  obtain ⟨parts, whole, -, -, third, fourth, -⟩ := decode_eq_ok_iff.1 read
  exact ⟨Fields.items_of_withDefault whole third, Fields.items_of_withDefault whole fourth⟩

/-! ## Members without a meaning -/

/-- A member without a reader is kept verbatim. -/
theorem Mixins.get?_ofMembers_verbatim {members : Table String Json} {name : String} {value : Json}
    (unread : Table.contains MixinRegistry.standard name = false)
    (found : members.get? name = some value) :
    Table.get? (ofMembers MixinRegistry.standard members) name = some (.verbatim value) := by
  have absent : Table.get? MixinRegistry.standard name = none := by
    simpa [Table.contains] using unread
  rw [ofMembers, Table.get?_filterMap, found, Option.bind_some,
    MixinRegistry.read_verbatim absent]
  rfl

/-- A record with a mixin that is kept verbatim is written with its value. -/
theorem Mixins.member?_verbatim {slots : Slots} {mixins : Mixins} {name : String} {value : Json}
    (strange : name ∉ slots.map (·.1)) (found : Table.get? mixins name = some (.verbatim value)) :
    (object (filled (withExtras slots (members mixins)))).member? name = some value := by
  rw [member?_withExtras strange]
  exact get?_members.2 ⟨_, found, rfl⟩

namespace Symbol

variable {registry : KindRegistry} {draft : Draft} {record : Symbol × Table String Json}

theorem get?_mixins_of_decode (read : decode registry draft = .ok record) {name : String}
    (strange : name ∉ shape.fields) {item : Draft} (last : draft.lastMember? name = some item)
    (unread : Table.contains MixinRegistry.standard name = false) :
    ∃ value, item.value? valueLevels = .ok value ∧
      Table.get? (SymbolGraph.symbolOf MixinRegistry.standard record).mixins name =
        some (.verbatim value) := by
  obtain ⟨value, decoded, found⟩ := Decoder.kept_of_openRecord
    (((((((Fields.ensure_anything _).map fun _ _ _ _ _ _ _ _ _ _ _ _ _ => rfl).seq
      (Fields.ensure_anything _)).seq (Fields.ensure_anything _)).seq
      (Fields.ensure_anything _)).seq (Fields.ensure_anything _)).seq (Fields.ensure_anything _))
    read strange last
  exact ⟨value, decoded, Mixins.get?_ofMembers_verbatim unread found⟩

/-- **The record of a symbol is kept in what is written of it**, whatever else has changed since, if
its mixins have not, but for the place in a group. -/
theorem isKeptIn_encode (read : decode registry draft = .ok record) {symbol : Symbol}
    (same : ∀ key, key ≠ Mixin.overloadKey → Table.get? symbol.mixins key =
      Table.get? (SymbolGraph.symbolOf MixinRegistry.standard record).mixins key) :
    draft.IsKeptIn shape symbol.encode := by
  intro name item last strange unread
  obtain ⟨value, decoded, found⟩ := get?_mixins_of_decode read strange last unread
  have other : name ≠ Mixin.overloadKey := by
    rintro rfl
    revert unread
    decide +kernel
  rw [← same name other] at found
  refine ⟨value, decoded, ?_⟩
  rw [encode_eq]
  exact Mixins.member?_verbatim strange found

end Symbol

/-- **The record of a relationship is kept in what is written of it.** -/
theorem Relationship.isKeptIn_encode {draft : Draft} {record : Link × Table String Json}
    (read : decode draft = .ok record) :
    draft.IsKeptIn shape (SymbolGraph.relationshipOf MixinRegistry.standard record).encode := by
  intro name item last strange unread
  obtain ⟨value, decoded, found⟩ := Decoder.kept_of_openRecord
    (((((Fields.ensure_anything _).map fun _ _ _ _ _ _ _ _ _ => rfl).seq
      (Fields.ensure_anything _)).seq (Fields.ensure_anything _)).seq (Fields.ensure_anything _))
    read strange last
  refine ⟨value, decoded, ?_⟩
  rw [encode_eq]
  exact Mixins.member?_verbatim strange (Mixins.get?_ofMembers_verbatim unread found)

/-! ## The records of a graph that is read -/

namespace SymbolGraph

variable {registry : KindRegistry} {document : Document} {graph : SymbolGraph}

/-- **A graph that is read has the symbol of the last record with an identifier.** -/
theorem get?_symbols_of_decode (read : decode { kinds := registry } document = .ok graph)
    {identifier : String} {draft : Draft}
    (last : document.lastSymbol? registry identifier = some draft) :
    ∃ record, Symbol.decode registry draft = .ok record ∧
      graph.symbols.get? identifier = some (symbolOf MixinRegistry.standard record) := by
  obtain ⟨records, decoded, -, made⟩ := decode_eq_ok_iff.1 read
  obtain ⟨-, rfl⟩ := ofRecords_eq_ok_iff.1 made
  let isMeant (outcome : Except DecodeError (Symbol × Table String Json)) : Bool :=
    outcome.toOption.map (·.1.identifier) = some identifier
  have all := Decoder.map_of_items (GraphRecords.items_of_decode decoded).1
  -- The records that bear the identifier are the same before and after decoding.
  have meant := congrArg (fun outcomes => (outcomes.filter isMeant).getLast?) all
  simp only [List.filter_map, List.getLast?_map] at meant
  have final : (document.symbolRecords.filter (isMeant ∘ Symbol.decode registry)).getLast? =
      some draft := last
  rw [final] at meant
  obtain ⟨record, ends, same⟩ := Option.map_eq_some_iff.1 meant.symm
  refine ⟨record, same.symm, ?_⟩
  have under : ∀ record ∈ records.symbols,
      (isMeant ∘ .ok) record = decide (identifier = record.1.identifier) := by
    intro record _
    simp [isMeant, Except.toOption, eq_comm]
  rw [List.filter_congr under] at ends
  rw [Table.get?_ofList, List.filter_map, List.getLast?_map, Option.map_map]
  exact congrArg (Option.map _) ends

/-- A graph that is read has the relationship of every record. -/
theorem relationships_of_decode (read : decode { kinds := registry } document = .ok graph)
    {draft : Draft} (within : draft ∈ document.relationshipRecords) :
    ∃ record, Relationship.decode draft = .ok record ∧
      relationshipOf MixinRegistry.standard record ∈ graph.relationships := by
  obtain ⟨records, decoded, -, made⟩ := decode_eq_ok_iff.1 read
  obtain ⟨-, rfl⟩ := ofRecords_eq_ok_iff.1 made
  have all := Decoder.map_of_items (GraphRecords.items_of_decode decoded).2
  have outcome : Relationship.decode draft ∈ records.relationships.map .ok :=
    all ▸ List.mem_map_of_mem within
  obtain ⟨record, member, same⟩ := List.mem_map.1 outcome
  exact ⟨record, same.symm, List.mem_map_of_mem member⟩

/-! ## Nothing is lost -/

/-- What is kept of a document in a graph that was made of it by so many passes of grouping. -/
structure KeptFrom (registry : KindRegistry) (document : Document) (passes : Nat)
    (graph : SymbolGraph) : Prop where
  /-- The graph is read back from its compact text. -/
  compact : graph.isExact = true →
    decode { kinds := registry } (Document.ofText graph.encode.compact) = .ok graph
  /-- The graph is read back from its text over several lines. -/
  pretty : graph.isExact = true →
    decode { kinds := registry } (Document.ofText graph.encode.pretty) = .ok graph
  /-- The last record of every symbol is kept, unless it is a group and groups were removed. -/
  symbols : ∀ identifier record, document.lastSymbol? registry identifier = some record →
    passes = 0 ∨ isGroupIdentifier identifier = false →
      ∃ symbol, graph.symbols.get? identifier = some symbol ∧
        record.IsKeptIn Symbol.shape symbol.encode
  /-- Every record of a relationship is kept in what is written of it, and it is written unless it
  leads to a group or touches one and groups were removed. -/
  relationships : ∀ record ∈ document.relationshipRecords, ∃ relationship,
    (Relationship.decode record).map (relationshipOf MixinRegistry.standard) = .ok relationship ∧
      (passes = 0 ∨ relationship.link.kind ≠ .overloadOf ∧
          isGroupIdentifier relationship.link.source = false ∧
          isGroupIdentifier relationship.link.target = false →
        relationship ∈ graph.relationships) ∧
      record.IsKeptIn Relationship.shape relationship.encode

/-- **Nothing is lost by writing a graph that was read from a document**, grouped any number of
times since. -/
theorem keptFrom_regrouped (registry : KindRegistry) (document : Document) (passes : Nat)
    (source : SymbolGraph) (read : decode { kinds := registry } document = .ok source) :
    KeptFrom registry document passes (Overload.regrouped passes source) := by
  have readable := (Overload.isKept_isReadable registry).regrouped passes
    (isReadable_of_decode read)
  refine ⟨readable.decode_compact, readable.decode_pretty, ?_, ?_⟩
  · intro identifier record last kept
    obtain ⟨made, decoded, found⟩ := get?_symbols_of_decode read last
    rcases kept with rfl | plain
    · exact ⟨_, found, Symbol.isKeptIn_encode decoded fun _ _ => rfl⟩
    · obtain ⟨after, present, same⟩ := Overload.get?_mixins_regrouped passes plain found
      exact ⟨after, present, Symbol.isKeptIn_encode decoded same⟩
  · intro record within
    obtain ⟨made, decoded, member⟩ := relationships_of_decode read within
    refine ⟨relationshipOf MixinRegistry.standard made, by rw [decoded]; rfl, ?_,
      Relationship.isKeptIn_encode decoded⟩
    rintro (rfl | ⟨kind, source, target⟩)
    · exact member
    · exact (Overload.isKept_mem kind source target).regrouped passes member

/-- The record of one of several methods with the same name, with further members. -/
def sketch (identifier : String) (extras : List (String × Json)) : Json :=
  .object <|
    extras ++
      [("names", .object [("title", .text "draw")]), ("accessLevel", .text "public"),
        ("kind", .object [("displayName", .text "Method"), ("identifier", .text "swift.method")]),
        ("identifier",
          .object [("precise", .text identifier), ("interfaceLanguage", .text "swift")]),
        ("pathComponents", .ofTexts ["Widget", "draw"])]

/-- A document with two overloads, of which one says more than has a meaning here. -/
def sketches : Document where
  root := Json.draft <| .object
    [("module", .object [("name", .text "Kit")]),
      ("symbols", .array
        [sketch "drawIn" [("stability", .object [("until", .ofCount 3), ("level", .text "beta")])],
          sketch "drawAt" []]),
      ("relationships", .array
        [.object [("kind", .text "memberOf"), ("origin", .boolean true), ("target", .text "widget"),
          ("source", .text "drawAt")]])]
  isWhole := true

/-- The graph in the document. -/
def sketched : SymbolGraph :=
  let stability : Json := .object [("level", .text "beta"), ("until", .ofCount 3)]
  { module := { name := "Kit" }
    symbols := Table.ofList
      [("drawAt", Overload.drawing "drawAt"),
        ("drawIn", { Overload.drawing "drawIn" with
          mixins := Table.ofList [("stability", .verbatim stability)] })]
    relationships :=
      [{ Relationship.between "drawAt" "widget" .memberOf with
        mixins := Table.ofList [("origin", .verbatim (.boolean true))] }] }

theorem keptFrom_regrouped_sketches :
    decode { kinds := Table.empty } sketches = .ok sketched ∧
      (Overload.regrouped 2 sketched).symbols.keys =
        ["drawAt", "drawAt::OverloadGroup", "drawIn"] ∧
      KeptFrom Table.empty sketches 2 (Overload.regrouped 2 sketched) :=
  have read : decode { kinds := Table.empty } sketches = .ok sketched := by decide +kernel
  ⟨read, by decide +kernel, keptFrom_regrouped Table.empty sketches 2 sketched read⟩

end SymbolGraph

end ApiAtlas
