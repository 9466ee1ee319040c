import ApiAtlas.Proofs.Json.Records

/-!
# What decoders make

A decoder ensures a property if everything it makes has it (`Decoder.Ensures`).
For a record that follows from what the fields ensure, one by one
(`Fields.Ensure`); for an open record the members beside the fields are such as
can be read back (`Json.IsExtra`).

They are also exactly the last members of the document under their names, as
`Decoder.kept_of_openRecord` says: what has no field is not lost.
-/

set_option autoImplicit false

namespace ApiAtlas

variable {α β : Type}

/-! ## Records as they stand in a draft -/

/-- The parts of a draft that stands for a record. -/
def Draft.parts? : Draft → Option RecordParts
  | .object members => some (.members members)
  | .array items => some (.items items)
  | _ => none

/-- What stands in a field of a record. -/
def RecordParts.field? (shape : RecordShape) (name : String) : RecordParts → Option Draft
  | .members held => (held.filter (Fields.isNamed name)).head?.map (·.2)
  | .items held => held[shape.fields.idxOf name]?

/-- The items of the list in a field of a record, if there is one. -/
def Draft.itemsOf (shape : RecordShape) (name : String) (draft : Draft) : List Draft :=
  match draft.parts?.bind (RecordParts.field? shape name) with
  | some (.array items) => items
  | _ => []

/-- With their places left out, the members with a name are those of all members that have it. -/
theorem Fields.map_fst_named (name : String) (members : List (Draft × Draft)) :
    (named name members).map (·.1) = members.filter (isNamed name) := by
  have mapped := List.filter_map (f := Prod.fst) (p := isNamed name) (l := members.zipIdx)
  rw [List.zipIdx_map_fst] at mapped
  exact mapped.symm

/-- What is found in a field is decoded from what stands in it. -/
theorem Fields.field?_eq_ok {name : String} {decoder : Decoder α} {shape : RecordShape}
    {parts : RecordParts} {found : Option α} (read : field? name decoder shape parts = .ok found) :
    found = none ∧ parts.field? shape name = none ∨
      ∃ draft made, parts.field? shape name = some draft ∧ decoder draft = .ok made ∧
        found = some made := by
  cases parts with
  | members members =>
    simp only [RecordParts.field?, ← map_fst_named, List.head?_map]
    simp only [field?] at read
    split at read
    · next none =>
      cases read
      exact .inl ⟨rfl, by rw [none]; rfl⟩
    · next member _ repeated first =>
      rw [first]
      split at read
      · cases read
      · next value decoded =>
        cases read
        exact .inr ⟨_, value, rfl, decoded, rfl⟩
      · cases read
  | items items =>
    simp only [field?] at read
    split at read
    · next none =>
      cases read
      exact .inl ⟨rfl, none⟩
    · next item stands =>
      split at read
      · next decoded =>
        cases read
        exact .inr ⟨item, _, stands, decoded, rfl⟩
      · cases read

/-- A list that may be missing is decoded from the items in its field. -/
theorem Fields.items_of_withDefault {name : String} {decoder : Decoder α} {shape : RecordShape}
    {draft : Draft} {parts : RecordParts} {made : List α} (whole : draft.parts? = some parts)
    (read : withDefault name [] (Decoder.list decoder) shape parts = .ok made) :
    Decoder.items decoder (draft.itemsOf shape name) = .ok made := by
  have mapped : (field? name (Decoder.list decoder) shape parts).map (·.getD []) = .ok made := read
  obtain ⟨found, own, rfl⟩ := Outcome.map_eq_ok_iff.1 mapped
  simp only [Draft.itemsOf, whole, Option.bind_some]
  rcases field?_eq_ok own with ⟨rfl, absent⟩ | ⟨item, items, stands, decoded, rfl⟩
  · rw [absent]
    rfl
  · rw [stands]
    cases item with
    | array drafts => exact decoded
    | _ => cases decoded

/-! ## Fields -/

/-- Whatever a reading of fields makes has a property. -/
def Fields.Ensure (fields : Fields α) (property : α → Prop) : Prop :=
  ∀ shape parts made, fields shape parts = .ok made → property made

/-- Whatever a decoder makes has a property. -/
def Decoder.Ensures (decoder : Decoder α) (property : α → Prop) : Prop :=
  ∀ draft made, decoder draft = .ok made → property made

namespace Fields

variable {name : String} {decoder : Decoder α} {property : α → Prop}

theorem ensure_anything (fields : Fields α) : fields.Ensure fun _ => True :=
  fun _ _ _ _ => trivial

theorem Ensure.map {fields : Fields α} {image : α → β} {result : β → Prop}
    (ensured : fields.Ensure property) (enough : ∀ made, property made → result (image made)) :
    (image <$> fields).Ensure result := by
  intro shape parts made read
  have mapped : (fields shape parts).map image = .ok made := read
  obtain ⟨value, own, rfl⟩ := Outcome.map_eq_ok_iff.1 mapped
  exact enough value (ensured shape parts value own)

/-- Two readings succeed together if each does. -/
theorem both_eq_ok_iff {build : Fields (α → β)} {fields : Fields α} {shape : RecordShape}
    {parts : RecordParts} {made : β} : (build <*> fields) shape parts = .ok made ↔
      ∃ image value, build shape parts = .ok image ∧ fields shape parts = .ok value ∧
        image value = made := by
  show both build fields shape parts = _ ↔ _
  unfold both
  cases build shape parts <;> cases fields shape parts <;> simp

theorem Ensure.seq {build : Fields (α → β)} {fields : Fields α} {result : β → Prop}
    (built : build.Ensure fun image => ∀ made, property made → result (image made))
    (ensured : fields.Ensure property) : (build <*> fields).Ensure result := by
  intro shape parts made read
  obtain ⟨image, value, first, second, rfl⟩ := both_eq_ok_iff.1 read
  exact built shape parts image first value (ensured shape parts value second)

/-- What is found in a field comes from its decoder. -/
theorem ensure_field? (ensured : decoder.Ensures property) :
    (field? name decoder).Ensure fun found => ∀ made, found = some made → property made := by
  intro shape parts found read made same
  rcases field?_eq_ok read with ⟨absent, -⟩ | ⟨draft, value, -, decoded, rfl⟩
  · rw [absent] at same
    cases same
  · cases same
    exact ensured draft _ decoded

theorem ensure_required (ensured : decoder.Ensures property) :
    (required name decoder).Ensure property := by
  intro shape parts made read
  unfold required at read
  split at read
  · next found =>
    cases read
    exact ensure_field? ensured shape parts _ found made rfl
  · cases read
  · cases read

theorem ensure_withDefault {default : α} (ensured : decoder.Ensures property)
    (always : property default) : (withDefault name default decoder).Ensure property := by
  refine (ensure_field? ensured).map fun found all => ?_
  cases found with
  | none => exact always
  | some made => exact all made rfl

theorem ensure_optional (ensured : decoder.Ensures property) :
    (optional name decoder).Ensure fun found => ∀ made, found = some made → property made := by
  refine ensure_withDefault (fun draft found read => ?_) (by simp)
  unfold Decoder.orNull at read
  split at read
  · cases read
    simp
  · obtain ⟨value, decoded, rfl⟩ := Outcome.map_eq_ok_iff.1 read
    rintro made ⟨⟩
    exact ensured _ _ decoded

end Fields

/-! ## Decoders -/

namespace Decoder

variable {decoder : Decoder α} {property : α → Prop}

/-- A name is decoded to what it means. -/
theorem ensures_meaning {meaning : String → α} (all : ∀ name, property (meaning name)) :
    Ensures (fun draft => (text draft).map meaning) property := by
  intro draft made read
  obtain ⟨name, -, rfl⟩ := Outcome.map_eq_ok_iff.1 read
  exact all name

/-- Items are decoded one by one. -/
theorem map_of_items {drafts : List Draft} {made : List α}
    (read : items decoder drafts = .ok made) :
    drafts.map decoder = made.map .ok := by
  induction drafts generalizing made with
  | nil =>
    cases read
    rfl
  | cons draft rest ih =>
    rw [items, Outcome.bind_eq_ok_iff] at read
    obtain ⟨first, decoded, read⟩ := read
    obtain ⟨others, further, same⟩ := Outcome.bind_eq_ok_iff.1 read
    cases same
    rw [List.map_cons, List.map_cons, decoded, ih further]

/-- The items of a list come from the decoder of items. -/
theorem Ensures.list (ensured : decoder.Ensures property) :
    (Decoder.list decoder).Ensures fun items => ∀ item ∈ items, property item := by
  intro draft made read item member
  cases draft with
  | array drafts =>
    have decoded : (.ok item : Except DecodeError α) ∈ drafts.map decoder :=
      map_of_items read ▸ List.mem_map_of_mem member
    obtain ⟨held, -, own⟩ := List.mem_map.1 decoded
    exact ensured held item own
  | _ => cases read

/-- A record is read from the parts of a draft in which there are no strangers. -/
theorem record_eq_ok_iff {shape : RecordShape} {fields : Fields α} {draft : Draft}
    {made : α} : record shape fields draft = .ok made ↔
      ∃ parts, draft.parts? = some parts ∧ fields shape parts = .ok made ∧
        Fields.strangers shape parts = .ok () := by
  have whole : ∀ parts, ((fun value (_ : Unit) => value) <$> fields <*> Fields.strangers)
      shape parts = .ok made ↔
        fields shape parts = .ok made ∧ Fields.strangers shape parts = .ok () := by
    intro parts
    rw [Fields.both_eq_ok_iff]
    constructor
    · rintro ⟨_, ⟨⟩, first, second, rfl⟩
      obtain ⟨value, own, rfl⟩ := Outcome.map_eq_ok_iff.1 first
      exact ⟨own, second⟩
    · rintro ⟨own, second⟩
      exact ⟨_, (), Outcome.map_eq_ok_iff.2 ⟨made, own, rfl⟩, second, rfl⟩
  cases draft with
  | object members =>
    simp only [Draft.parts?, Option.some.injEq, exists_eq_left']
    exact Outcome.mapError_eq_ok_iff.trans (whole (.members members))
  | array items =>
    simp only [Draft.parts?, Option.some.injEq, exists_eq_left']
    exact Outcome.mapError_eq_ok_iff.trans (whole (.items items))
  | _ => simp [record, Draft.parts?]

/-- A record is read from the parts of a draft. -/
theorem record_eq_ok {shape : RecordShape} {fields : Fields α} {draft : Draft} {made : α}
    (read : record shape fields draft = .ok made) :
    ∃ parts, draft.parts? = some parts ∧ fields shape parts = .ok made := by
  obtain ⟨parts, whole, own, -⟩ := record_eq_ok_iff.1 read
  exact ⟨parts, whole, own⟩

/-- **A record has a property if what its fields ensure is enough for it.** -/
theorem ensures_record {shape : RecordShape} {fields : Fields α}
    (ensured : fields.Ensure property) : (record shape fields).Ensures property := by
  intro draft made read
  obtain ⟨parts, -, own⟩ := record_eq_ok read
  exact ensured shape parts made own

end Decoder

/-! ## Members beside the fields -/

/-- The last member of an object with a name. -/
def Draft.lastMember? (name : String) : Draft → Option Draft
  | .object members => (members.filter (Fields.isNamed name)).getLast?.map (·.2)
  | _ => none

namespace Fields

variable {levels : Nat} {shape : RecordShape} {members : List (Draft × Draft)}
  {pairs : List (String × Json)}

/-- Every member that is taken in beside the fields has a name of its own and comes from a draft. -/
theorem exists_of_extraMembers {place : Nat}
    (taken : extraMembers levels shape place members = .ok pairs) :
    ∀ pair ∈ pairs, pair.1 ∉ shape.fields ∧
      ∃ member ∈ members, member.2.value? levels = .ok pair.2 := by
  induction members generalizing place pairs with
  | nil =>
    cases taken
    simp
  | cons member rest ih =>
    obtain ⟨key, item⟩ := member
    rw [extraMembers] at taken
    have later : ∀ pair : String × Json, (pair.1 ∉ shape.fields ∧
        ∃ member ∈ rest, member.2.value? levels = .ok pair.2) →
        pair.1 ∉ shape.fields ∧
          ∃ member ∈ (key, item) :: rest, member.2.value? levels = .ok pair.2 := by
      rintro pair ⟨strange, held, within, own⟩
      exact ⟨strange, held, List.mem_cons_of_mem _ within, own⟩
    split at taken
    · cases taken
    · split at taken
      · exact fun pair within => later pair (ih taken pair within)
      · next strange =>
        split at taken
        · cases taken
        · next own =>
          obtain ⟨others, further, rfl⟩ := Outcome.map_eq_ok_iff.1 taken
          intro pair within
          rcases List.mem_cons.1 within with rfl | other
          · exact ⟨strange, (key, item), List.mem_cons_self .., own⟩
          · exact later pair (ih further pair other)

/-- The members of a name without a field are taken in one by one. -/
theorem filter_extraMembers {place : Nat} {name : String} (strange : name ∉ shape.fields)
    (taken : extraMembers levels shape place members = .ok pairs) :
    (members.filter (isNamed name)).map (fun member => member.2.value? levels) =
      (pairs.filter fun pair => name = pair.1).map fun pair => .ok pair.2 := by
  induction members generalizing place pairs with
  | nil =>
    cases taken
    rfl
  | cons member rest ih =>
    obtain ⟨key, item⟩ := member
    rw [extraMembers] at taken
    cases key with
    | text key =>
      simp only [Draft.keyText?] at taken
      split at taken
      · next own =>
        have other : key ≠ name := fun same => strange (same ▸ own)
        rw [List.filter_cons_of_neg (by simpa [isNamed] using other)]
        exact ih taken
      · split at taken
        · cases taken
        · next decoded =>
          obtain ⟨others, further, rfl⟩ := Outcome.map_eq_ok_iff.1 taken
          by_cases same : key = name
          · rw [List.filter_cons_of_pos (by simpa [isNamed] using same),
              List.filter_cons_of_pos (by simpa using same.symm), List.map_cons, List.map_cons,
              ih further, decoded]
          · rw [List.filter_cons_of_neg (by simpa [isNamed] using same),
              List.filter_cons_of_neg (by simpa [eq_comm] using same)]
            exact ih further
    -- Where a key is no text, nothing has been taken in.
    | _ => cases taken

/-- Under each name the last member is taken in, if the name has no field. -/
theorem get?_of_extraMembers {place : Nat}
    (taken : extraMembers levels shape place members = .ok pairs) (name : String) :
    ((Table.ofList pairs).get? name).map .ok =
      if name ∈ shape.fields then none
      else (members.filter (isNamed name)).getLast?.map fun member => member.2.value? levels := by
  rw [Table.get?_ofList]
  split
  · next own =>
    have none : pairs.filter (fun pair => name = pair.1) = [] := by
      rw [List.filter_eq_nil_iff]
      rintro pair within same
      exact (exists_of_extraMembers taken pair within).1 (of_decide_eq_true same ▸ own)
    rw [none]
    rfl
  · next strange =>
    have ends := congrArg List.getLast? (filter_extraMembers strange taken)
    rw [List.getLast?_map, List.getLast?_map] at ends
    rw [ends, Option.map_map]
    rfl

end Fields

namespace Decoder

variable {levels : Nat} {shape : RecordShape} {fields : Fields (Table String Json → α)}

/-- An open record is an object whose fields and other members are read. -/
theorem openRecord_eq_ok {draft : Draft} {made : α}
    (read : openRecord shape levels fields draft = .ok made) :
    ∃ members image pairs, draft = .object members ∧ fields shape (.members members) = .ok image ∧
      Fields.extraMembers levels shape 0 members = .ok pairs ∧
      image (Table.ofList pairs) = made := by
  cases draft with
  | object members =>
    have whole := Outcome.mapError_eq_ok_iff.1 read
    obtain ⟨image, extras, own, beside, same⟩ := Fields.both_eq_ok_iff.1 whole
    obtain ⟨pairs, taken, rfl⟩ := Outcome.map_eq_ok_iff.1 beside
    exact ⟨members, image, pairs, rfl, own, taken, same⟩
  | _ => cases read

/-- **An open record has a property if what its fields ensure is enough for it**, with members
beside the fields that can be read back. -/
theorem ensures_openRecord {property : α → Prop}
    (ensured : fields.Ensure fun image => ∀ extras : Table String Json,
      (∀ member ∈ extras.entries, Json.IsExtra shape levels member) → property (image extras)) :
    (openRecord shape levels fields).Ensures property := by
  intro draft made read
  obtain ⟨members, image, pairs, -, own, taken, rfl⟩ := openRecord_eq_ok read
  refine ensured shape _ image own _ fun member within => ?_
  have given : member ∈ pairs := Table.mem_of_get?_ofList (Table.get?_eq_some_iff.2 within)
  obtain ⟨strange, held, -, decoded⟩ := Fields.exists_of_extraMembers taken member given
  obtain ⟨sorted, shallow⟩ := Draft.sorted_of_value? decoded
  exact ⟨strange, sorted, shallow⟩

/-- **An open record keeps the last member of every name without a field.** -/
theorem kept_of_openRecord {draft : Draft} {result : α × Table String Json}
    {build : Fields (Table String Json → α × Table String Json)}
    (keeps : build.Ensure fun image => ∀ extras, (image extras).2 = extras)
    (read : openRecord shape levels build draft = .ok result) {name : String}
    (strange : name ∉ shape.fields) {item : Draft} (last : draft.lastMember? name = some item) :
    ∃ value, item.value? levels = .ok value ∧ result.2.get? name = some value := by
  obtain ⟨members, image, pairs, rfl, own, taken, rfl⟩ := openRecord_eq_ok read
  obtain ⟨member, final, rfl⟩ := Option.map_eq_some_iff.1 last
  have found := Fields.get?_of_extraMembers taken name
  rw [if_neg strange, final] at found
  obtain ⟨value, stands, decoded⟩ := Option.map_eq_some_iff.1 found
  refine ⟨value, decoded.symm, ?_⟩
  rw [keeps shape _ image own, stands]

end Decoder

end ApiAtlas
