import ApiAtlas.Proofs.Graph.ReadBack
import ApiAtlas.Proofs.Json.Changes

/-!
# A mixin that is refused harms only itself

A reader may refuse the value under its key. Then the graph is the one of the document
without that key in the record, and the same holds of a location with a position that is
none (`SymbolGraph.decode_put_refused`). Neither the record nor anything else in the
document is lost with the mixin.

What stands under the key of a reader reaches a graph through the mixin that is read from
it and in no other way (`SymbolGraph.ofRecords_put`). Before that the value only has to be
taken in, like that of any member without a field (`GraphRecords.carries_put`). This much
is asked of the content, to be a value that is not too deep; otherwise the document is no
JSON.
-/

set_option autoImplicit false

namespace ApiAtlas

/-! ## Records of a document -/

/-- The lists of records in a graph. -/
inductive RecordList
  | symbols
  | relationships

namespace RecordList

/-- The field of a graph in which a list stands. -/
def field : RecordList → String
  | symbols => "symbols"
  | relationships => "relationships"

/-- The records in a list. -/
def shape : RecordList → RecordShape
  | symbols => Symbol.shape
  | relationships => Relationship.shape

/-- No field of a record stands under the key of a reader. -/
theorem not_mem_fields (list : RecordList) {key : String} {reader : MixinReader}
    (registered : Table.get? MixinRegistry.standard key = some reader) :
    key ∉ list.shape.fields := by
  have apart : ∀ key ∈ MixinRegistry.readers.map (·.1), key ∉ list.shape.fields := by
    cases list <;> decide
  exact apart key (List.mem_map_of_mem (MixinRegistry.get?_standard_iff.1 registered))

end RecordList

/-- The document with a content put under a key of one of its records, at a place among the other
members. Without a content the key is left out of the record. -/
def Document.put (list : RecordList) (place : Nat) (key : String) (among : Nat)
    (content : Option Draft) (document : Document) : Document :=
  { document with
    root := document.root.mapField GraphRecords.shape list.field
      (Draft.mapItem place (Draft.mapMembers (Fields.put key among content))) }

/-- The records of a graph with a value under a key of one of them, or without the key. -/
def GraphRecords.put (list : RecordList) (place : Nat) (key : String) (value : Option Json)
    (records : GraphRecords) : GraphRecords :=
  match list with
  | .symbols =>
    { records with
      symbols := records.symbols.modify place fun record =>
        (record.1, record.2.alter key fun _ => value) }
  | .relationships =>
    { records with
      relationships := records.relationships.modify place fun record =>
        (record.1, record.2.alter key fun _ => value) }

/-! ## Changes that reach the records -/

section

variable {key : String} {content : Option Draft} {value : Option Json}

theorem Symbol.carries_put (registry : KindRegistry) (strange : key ∉ shape.fields) (among : Nat)
    (valued : content.map (Draft.value? valueLevels) = value.map .ok) :
    (decode registry).Carries (Draft.mapMembers (Fields.put key among content))
      (fun record => (record.1, record.2.alter key fun _ => value)) := by
  have other : ∀ name ∈ shape.fields, name ≠ key := fun name own same => strange (same ▸ own)
  refine Decoder.carries_openRecord ?_ ?_ strange among valued
  · exact ((((((Fields.ensure_anything _).map fun _ _ _ _ _ _ _ _ _ _ _ _ => ⟨_, fun _ => rfl⟩).seq
      (Fields.ensure_anything _)).seq (Fields.ensure_anything _)).seq
      (Fields.ensure_anything _)).seq (Fields.ensure_anything _)).seq (Fields.ensure_anything _)
  · exact (((((((Fields.ignores_required (other "identifier" (by decide))).map _).seq
      (Fields.ignores_required (other "kind" (by decide)))).seq
      (Fields.ignores_withDefault (other "pathComponents" (by decide)))).seq
      (Fields.ignores_required (other "names" (by decide)))).seq
      (Fields.ignores_optional (other "docComment" (by decide)))).seq
      (Fields.ignores_withDefault (other "accessLevel" (by decide))))

theorem Relationship.carries_put (strange : key ∉ shape.fields) (among : Nat)
    (valued : content.map (Draft.value? valueLevels) = value.map .ok) :
    decode.Carries (Draft.mapMembers (Fields.put key among content))
      (fun record => (record.1, record.2.alter key fun _ => value)) := by
  have other : ∀ name ∈ shape.fields, name ≠ key := fun name own same => strange (same ▸ own)
  refine Decoder.carries_openRecord ?_ ?_ strange among valued
  · exact ((((Fields.ensure_anything _).map fun _ _ _ _ _ _ _ _ => ⟨_, fun _ => rfl⟩).seq
      (Fields.ensure_anything _)).seq (Fields.ensure_anything _)).seq (Fields.ensure_anything _)
  · exact (((((Fields.ignores_required (other "source" (by decide))).map _).seq
      (Fields.ignores_required (other "target" (by decide)))).seq
      (Fields.ignores_required (other "kind" (by decide)))).seq
      (Fields.ignores_optional (other "targetFallback" (by decide))))

end

namespace GraphRecords

variable {registry : KindRegistry} {change : Draft → Draft}

/-- A change of one of the lists leaves everything else as it was read. -/
theorem decode_mapField {name : String} (own : name ∈ shape.fields) (metadata : "metadata" ≠ name)
    (module : "module" ≠ name) {draft : Draft} {records changed : GraphRecords}
    (read : decode registry draft = .ok records)
    (same : changed.metadata = records.metadata ∧ changed.module = records.module)
    (symbols : ∀ parts,
      Fields.withDefault "symbols" [] (Decoder.list (Symbol.decode registry)) shape parts =
        .ok records.symbols →
      Fields.withDefault "symbols" [] (Decoder.list (Symbol.decode registry)) shape
        (parts.mapField shape name change) = .ok changed.symbols)
    (relationships : ∀ parts,
      Fields.withDefault "relationships" [] (Decoder.list Relationship.decode) shape parts =
        .ok records.relationships →
      Fields.withDefault "relationships" [] (Decoder.list Relationship.decode) shape
        (parts.mapField shape name change) = .ok changed.relationships) :
    decode registry (draft.mapField shape name change) = .ok changed := by
  obtain ⟨parts, whole, first, second, third, fourth, none⟩ := decode_eq_ok_iff.1 read
  have untouched := Fields.sameBut_mapField own change parts
  refine decode_eq_ok_iff.2 ⟨_, (Draft.parts?_mapField ..).trans (congrArg _ whole), ?_, ?_,
    symbols parts third, relationships parts fourth, Fields.strangers_mapField own change none⟩
  · rw [same.1]
    exact Fields.ignores_withDefault metadata untouched first
  · rw [same.2]
    exact Fields.ignores_required module untouched second

/-- **A value put into a record of a document is put into the record that is read from it.** -/
theorem carries_put (list : RecordList) (place : Nat) {key : String}
    (strange : key ∉ list.shape.fields) (among : Nat) {content : Option Draft}
    {value : Option Json} (valued : content.map (Draft.value? Symbol.valueLevels) = value.map .ok) :
    (decode registry).Carries
      (Draft.mapField shape list.field
        (Draft.mapItem place (Draft.mapMembers (Fields.put key among content))))
      (put list place key value) := by
  intro draft records read
  cases list with
  | symbols =>
    have own : "symbols" ∈ shape.fields := by decide
    have carries := (Symbol.carries_put registry strange among valued).list place
    refine decode_mapField own (by decide) (by decide) read ⟨rfl, rfl⟩
      (fun parts third => ?_) fun parts fourth => ?_
    · exact Fields.withDefault_mapField carries (List.modify_nil ..) third
    · exact Fields.ignores_withDefault (by decide) (Fields.sameBut_mapField own _ parts) fourth
  | relationships =>
    have own : "relationships" ∈ shape.fields := by decide
    have carries := (Relationship.carries_put strange among valued).list place
    refine decode_mapField own (by decide) (by decide) read ⟨rfl, rfl⟩
      (fun parts third => ?_) fun parts fourth => ?_
    · exact Fields.ignores_withDefault (by decide) (Fields.sameBut_mapField own _ parts) third
    · exact Fields.withDefault_mapField carries (List.modify_nil ..) fourth

end GraphRecords

/-! ## What readers refuse -/

/-- A reader that refuses a value is registered. -/
theorem MixinRegistry.exists_reader_of_read {registry : MixinRegistry} {key : String}
    {value : Json} {error : MixinError} (refused : registry.read key value = .error error) :
    ∃ reader, Table.get? registry key = some reader := by
  refine Option.ne_none_iff_exists'.1 fun unread => ?_
  rw [read, unread] at refused
  cases refused

/-- The value of a location has no position, or one that is none. -/
def Json.IsUnplaced (value : Json) : Prop :=
  ∀ held position, value.member? "position" = some held →
    held.decode Position.decode ≠ .ok position

/-- Without a position a location is read from its address alone. -/
theorem Mixin.readLocation_congr {first second : Json} (firstUnplaced : first.IsUnplaced)
    (secondUnplaced : second.IsUnplaced) (same : first.member? "uri" = second.member? "uri") :
    readLocation first = readLocation second := by
  have nowhere : ∀ value : Json, value.IsUnplaced → ((value.member? "position").bind fun held =>
      (held.decode Position.decode).toOption) = none := by
    intro value unplaced
    refine Option.bind_eq_none_iff.2 fun held stands => ?_
    refine Option.eq_none_iff_forall_ne_some.2 fun position made => ?_
    exact unplaced held position stands (Outcome.toOption_eq_some_iff.1 made)
  simp only [readLocation, same, nowhere first firstUnplaced, nowhere second secondUnplaced]

/-! ## What reaches the graph -/

/-- Changes of an item that are not told apart by an image make no difference to the images. -/
theorem map_modify_congr {α β : Type} {first second : α → α} {image : α → β}
    (same : ∀ item, image (first item) = image (second item)) (items : List α) (place : Nat) :
    (items.modify place first).map image = (items.modify place second).map image := by
  induction items generalizing place with
  | nil => rw [List.modify_nil, List.modify_nil]
  | cons item rest ih =>
    cases place with
    | zero => simp [same]
    | succ place => simp [ih]

/-- A value put into the record of a symbol does not change its identifier. -/
theorem GraphRecords.identifiers_put (list : RecordList) (place : Nat) (key : String)
    (value : Option Json) (records : GraphRecords) :
    (records.put list place key value).symbols.map (·.1.identifier) =
      records.symbols.map (·.1.identifier) := by
  cases list with
  | symbols =>
    have same : (records.symbols.modify place fun record =>
          (record.1, record.2.alter key fun _ => value)).map (·.1.identifier) =
        (records.symbols.modify place id).map (·.1.identifier) := by
      apply map_modify_congr
      exact fun _ => rfl
    rwa [List.modify_id] at same
  | relationships => rfl

/-- Values from which the same mixin is read make the same mixins. -/
theorem Mixins.ofMembers_alter_congr {registry : MixinRegistry} {key : String}
    {first second : Option Json}
    (same : (first.bind fun value => (registry.read key value).toOption) =
      second.bind fun value => (registry.read key value).toOption)
    (members : Table String Json) :
    ofMembers registry (members.alter key fun _ => first) =
      ofMembers registry (members.alter key fun _ => second) := by
  apply Table.ext_get?
  intro name
  simp only [ofMembers, Table.get?_filterMap, Table.get?_alter]
  split
  · next equal =>
    rw [equal]
    exact same
  · rfl

namespace SymbolGraph

/-- **A value reaches the graph through its mixin alone.** -/
theorem ofRecords_put {registry : MixinRegistry} {records : GraphRecords} {graph : SymbolGraph}
    (made : ofRecords registry records = .ok graph) (list : RecordList) (place : Nat)
    {key : String} {first second : Option Json}
    (same : (first.bind fun value => (registry.read key value).toOption) =
      second.bind fun value => (registry.read key value).toOption) :
    ∃ changed, ofRecords registry (records.put list place key first) = .ok changed ∧
      ofRecords registry (records.put list place key second) = .ok changed := by
  obtain ⟨named, rfl⟩ := ofRecords_eq_ok_iff.1 made
  have alike := Mixins.ofMembers_alter_congr same
  have still : ∀ value, ∀ record ∈ (records.put list place key value).symbols,
      record.1.identifier ≠ "" := by
    intro value
    rw [← List.forall_mem_map (P := fun identifier => identifier ≠ ""),
      GraphRecords.identifiers_put]
    exact List.forall_mem_map.2 named
  simp only [ofRecords_eq_ok_iff]
  cases list with
  | symbols =>
    refine ⟨_, ⟨still first, rfl⟩, still second, ?_⟩
    simp only [GraphRecords.put]
    rw [map_modify_congr]
    intro record
    simp only [symbolOf, alike]
  | relationships =>
    refine ⟨_, ⟨still first, rfl⟩, still second, ?_⟩
    simp only [GraphRecords.put]
    rw [map_modify_congr]
    intro record
    simp only [relationshipOf, alike]

variable {registry : KindRegistry} {document : Document} {graph : SymbolGraph}

/-- **Contents from which the same mixin is read make the same graph.** -/
theorem decode_put (read : decode { kinds := registry } document = .ok graph) (list : RecordList)
    (place : Nat) {key : String} (strange : key ∉ list.shape.fields) (among : Nat)
    {first second : Option Draft} {one two : Option Json}
    (firstValued : first.map (Draft.value? Symbol.valueLevels) = one.map .ok)
    (secondValued : second.map (Draft.value? Symbol.valueLevels) = two.map .ok)
    (same : (one.bind fun value => (MixinRegistry.standard.read key value).toOption) =
      two.bind fun value => (MixinRegistry.standard.read key value).toOption) :
    ∃ changed,
      decode { kinds := registry } (document.put list place key among first) = .ok changed ∧
      decode { kinds := registry } (document.put list place key among second) = .ok changed := by
  obtain ⟨records, decoded, whole, made⟩ := decode_eq_ok_iff.1 read
  obtain ⟨changed, left, right⟩ := ofRecords_put made list place same
  refine ⟨changed, decode_eq_ok_iff.2 ⟨_, ?_, whole, left⟩,
    decode_eq_ok_iff.2 ⟨_, ?_, whole, right⟩⟩
  · exact GraphRecords.carries_put list place strange among firstValued _ _ decoded
  · exact GraphRecords.carries_put list place strange among secondValued _ _ decoded

/-- **A mixin that is refused harms only itself.** -/
theorem decode_put_refused (read : decode { kinds := registry } document = .ok graph)
    (list : RecordList) (place among : Nat) :
    (∀ {key : String} {draft : Draft} {value : Json} {error : MixinError},
      draft.value? Symbol.valueLevels = .ok value →
      MixinRegistry.standard.read key value = .error error →
      ∃ changed,
        decode { kinds := registry } (document.put list place key among (some draft)) =
          .ok changed ∧
        decode { kinds := registry } (document.put list place key among none) = .ok changed) ∧
    ∀ {fields : List (Draft × Draft)} {value : Json},
      (Draft.object fields).value? Symbol.valueLevels = .ok value →
      value.IsUnplaced →
      ∃ changed,
        decode { kinds := registry }
          (document.put list place Mixin.locationKey among (some (.object fields))) =
            .ok changed ∧
        decode { kinds := registry }
          (document.put list place Mixin.locationKey among
            (some (.object (Fields.leaveOut "position" fields)))) = .ok changed := by
  constructor
  · intro key draft value error taken refused
    obtain ⟨reader, registered⟩ := MixinRegistry.exists_reader_of_read refused
    have valued : (some draft).map (Draft.value? Symbol.valueLevels) = (some value).map .ok :=
      congrArg some taken
    have nothing : (none : Option Draft).map (Draft.value? Symbol.valueLevels) =
        (none : Option Json).map .ok := rfl
    refine decode_put read list place (list.not_mem_fields registered) among valued nothing ?_
    rw [Option.bind_some, refused]
    rfl
  · intro fields value taken unplaced
    obtain ⟨rest, without, members⟩ := Draft.value?_leaveOut "position" taken
    have listed : (Mixin.locationKey, Mixin.readLocation) ∈ MixinRegistry.readers :=
      List.mem_of_getElem? (i := 2) rfl
    have valued : (some (Draft.object fields)).map (Draft.value? Symbol.valueLevels) =
        (some value).map .ok := congrArg some taken
    have restValued : (some (Draft.object (Fields.leaveOut "position" fields))).map
        (Draft.value? Symbol.valueLevels) = (some rest).map .ok := congrArg some without
    have restUnplaced : rest.IsUnplaced := by
      intro held position stands
      rw [members, if_pos rfl] at stands
      cases stands
    have same : value.member? "uri" = rest.member? "uri" := by
      rw [members, if_neg (by decide)]
    have read_eq := Mixin.readLocation_congr unplaced restUnplaced same
    have strange := list.not_mem_fields (MixinRegistry.get?_standard_iff.2 listed)
    refine decode_put read list place strange among valued restValued ?_
    rw [Option.bind_some, Option.bind_some, MixinRegistry.read_eq listed,
      MixinRegistry.read_eq listed, read_eq]

/-- A document with a system interface and a relationship of it. -/
def pens : Document where
  root := Json.draft <| .object
    [("module", .object [("name", .text "Kit")]),
      ("symbols", .array
        [.object
          [("identifier",
              .object [("precise", .text "pen"), ("interfaceLanguage", .text "swift")]),
            ("kind",
              .object [("identifier", .text "swift.class"), ("displayName", .text "Class")]),
            ("spi", .boolean true), ("pathComponents", .ofTexts ["Pen"]),
            ("names", .object [("title", .text "Pen")]), ("accessLevel", .text "public")]]),
      ("relationships", .array
        [.object
          [("source", .text "pen"), ("target", .text "tool"), ("kind", .text "inheritsFrom")]])]
  isWhole := true

/-- The graph in the document, with mixins of the relationship. -/
def penned (mixins : Mixins) : SymbolGraph :=
  let pen : Symbol :=
    { identifier := "pen"
      language := "swift"
      description :=
        { kind := { identifier := .classType, displayName := "Class", source := "swift.class" }
          path := ["Pen"]
          names := { title := "Pen" }
          accessLevel := "public" }
      mixins := Table.ofList [(Mixin.systemInterfaceKey, .systemInterface true)] }
  { module := { name := "Kit" }
    symbols := Table.ofList [("pen", pen)]
    relationships := [{ Relationship.between "pen" "tool" .inheritsFrom with mixins }] }

/-- An availability with a version that is none is dropped and the mixin beside it is not, and of a
location with half a position the address stays. -/
theorem decode_put_refused_pens :
    let soon : Json := .array [.object [("domain", .text "iOS"), ("introduced", .text "soon")]]
    let place : List (String × Json) :=
      [("position", .object [("line", .ofCount 3)]), ("uri", .text "Pen.swift")]
    decode { kinds := Table.empty } pens = .ok (penned Table.empty) ∧
      decode { kinds := Table.empty }
        (pens.put .symbols 0 Mixin.availabilityKey 2 (some soon.draft)) =
          .ok (penned Table.empty) ∧
      decode { kinds := Table.empty }
        (pens.put .relationships 0 Mixin.locationKey 1 (some (Json.object place).draft)) =
          .ok (penned (Table.ofList [(Mixin.locationKey, .location { uri := "Pen.swift" })])) := by
  intro soon place
  have read : decode { kinds := Table.empty } pens = .ok (penned Table.empty) := by decide +kernel
  have refused : MixinRegistry.standard.read Mixin.availabilityKey soon =
      .error (.shape (.wrongType (.text "soon") (.record "SemanticVersion"))) := by
    decide +kernel
  have unplaced : (Json.object place).IsUnplaced := by
    rintro held position ⟨⟩
    have none : (Json.decode (.object [("line", .ofCount 3)]) Position.decode) =
        .error (.missingField "character") := by
      decide +kernel
    rw [none]
    exact nofun
  have taken : soon.draft.value? Symbol.valueLevels = .ok soon := by decide +kernel
  have valued : (Json.object place).draft.value? Symbol.valueLevels = .ok (.object place) := by
    decide +kernel
  refine ⟨read, ?_, ?_⟩
  · obtain ⟨changed, given, without⟩ := (decode_put_refused read .symbols 0 2).1 taken refused
    have rest : decode { kinds := Table.empty } (pens.put .symbols 0 Mixin.availabilityKey 2 none) =
        .ok (penned Table.empty) := by decide +kernel
    exact given.trans (without.symm.trans rest)
  · obtain ⟨changed, given, without⟩ :=
      (decode_put_refused read .relationships 0 1).2 valued unplaced
    have rest : decode { kinds := Table.empty } (pens.put .relationships 0 Mixin.locationKey 1
        (some (.object (Fields.leaveOut "position" (Json.draftMembers place))))) =
          .ok (penned (Table.ofList [(Mixin.locationKey, .location { uri := "Pen.swift" })])) := by
      decide +kernel
    exact given.trans (without.symm.trans rest)

end SymbolGraph

end ApiAtlas
