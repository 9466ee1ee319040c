import ApiAtlas.Json.Decoder
import ApiAtlas.Proofs.Json.Values

/-!
# Records read back

A record is written as the members of its slots, of which each has a name and
may be empty (`Json.filled`). Values are then kept as they are or sorted; both
are forms, which keep the members of every object (`Json.IsForm`).

A reading of fields that finds its slots gives what they were filled with
(`Fields.Gives`), in whatever order the members stand (`Holds`). So a record is
read back if its fields are, one by one (`Json.IsForm.decode_record`). The
members that belong to no field are taken in sorted (`Fields.extraMembers_draft`).
-/

set_option autoImplicit false

namespace ApiAtlas

/-! ## Slots -/

namespace Json

/-- The names of a record, each with the value of its member if there is one. -/
abbrev Slots : Type :=
  List (String × Option Json)

/-- The members of the slots that are not empty. -/
def filled (slots : Slots) : List (String × Json) :=
  slots.filterMap fun slot => slot.2.map (slot.1, ·)

/-- What stands for a truth value that is written only if it is true. -/
def flagValue (value : Bool) : Option Json :=
  if value then some (.boolean true) else none

theorem flag_eq (name : String) (value : Bool) :
    flag name value = field? name (flagValue value) := by
  cases value <;> rfl

/-- Slots are written as the fields that are not empty. -/
theorem filterMap_slots (slots : Slots) :
    (slots.map fun slot => field? slot.1 slot.2).filterMap id = filled slots := by
  rw [List.filterMap_map]
  rfl

theorem ofFields_slots (slots : Slots) :
    ofFields (slots.map fun slot => field? slot.1 slot.2) = .object (filled slots) :=
  congrArg object (filterMap_slots slots)

@[simp]
theorem flagValue_eq_some_iff {value : Bool} {written : Json} :
    flagValue value = some written ↔ value = true ∧ written = .boolean true := by
  cases value <;> simp [flagValue, eq_comm]

theorem mem_filled {slots : Slots} {name : String} {value : Json} :
    (name, value) ∈ filled slots ↔ (name, some value) ∈ slots := by
  simp only [filled, List.mem_filterMap, Option.map_eq_some_iff, Prod.mk.injEq]
  constructor
  · rintro ⟨⟨other, content⟩, member, held, shown, rfl, rfl⟩
    rw [← shown]
    exact member
  · intro member
    exact ⟨(name, some value), member, value, rfl, rfl, rfl⟩

/-- Filled slots stand in the order of the slots. -/
theorem map_fst_filled_sublist (slots : Slots) :
    ((filled slots).map (·.1)).Sublist (slots.map (·.1)) := by
  induction slots with
  | nil => exact .slnil
  | cons slot rest ih =>
    obtain ⟨name, content⟩ := slot
    cases content with
    | none => exact ih.cons name
    | some value => exact ih.cons_cons name

/-! ## Plain values -/

/-- A value without doubles, of at most so many levels of arrays and objects. -/
structure IsPlain (levels : Nat) (value : Json) : Prop where
  exact : value.isExact = true
  shallow : value.depth ≤ levels

theorem IsPlain.sorted {levels : Nat} {value : Json} (plain : value.IsPlain levels) :
    value.sorted.IsPlain levels :=
  ⟨isExact_sorted plain.exact, depth_sorted_le plain.shallow⟩

theorem IsPlain.mono {few levels : Nat} {value : Json} (plain : value.IsPlain few)
    (fewer : few ≤ levels) : value.IsPlain levels :=
  ⟨plain.exact, Nat.le_trans plain.shallow fewer⟩

@[simp]
theorem isPlain_text (levels : Nat) (text : String) : (Json.text text).IsPlain levels :=
  ⟨rfl, Nat.zero_le _⟩

@[simp]
theorem isPlain_boolean (levels : Nat) (value : Bool) : (boolean value).IsPlain levels :=
  ⟨rfl, Nat.zero_le _⟩

@[simp]
theorem isPlain_ofWord (levels : Nat) (word : UInt64) : (ofWord word).IsPlain levels :=
  ⟨rfl, Nat.zero_le _⟩

/-- An array of plain items has one level more. -/
theorem isPlain_array {levels : Nat} {items : List Json}
    (plain : ∀ item ∈ items, item.IsPlain levels) : (array items).IsPlain (levels + 1) where
  exact := isExact_array.2 fun item member => (plain item member).exact
  shallow := depth_array_le.2 fun item member => (plain item member).shallow

@[simp]
theorem isPlain_ofTexts (levels : Nat) (texts : List String) :
    (ofTexts texts).IsPlain (levels + 1) :=
  isPlain_array (by simp)

/-- A record of plain members has one level more. -/
theorem isPlain_filled {levels : Nat} {slots : Slots}
    (plain : ∀ slot ∈ slots, ∀ value ∈ slot.2, value.IsPlain levels) :
    (object (filled slots)).IsPlain (levels + 1) where
  exact := isExact_object.2 fun _ within => (plain _ (mem_filled.1 within) _ rfl).exact
  shallow := depth_object_le.2 fun _ within => (plain _ (mem_filled.1 within) _ rfl).shallow

/-! ## Forms -/

/-- A form of values keeps scalars and the items of arrays, and of objects the members, in whatever
order. -/
structure IsForm (form : Json → Json) : Prop where
  boolean : ∀ value, form (.boolean value) = .boolean value
  number : ∀ value, form (.number value) = .number value
  text : ∀ value, form (.text value) = .text value
  array : ∀ items, form (.array items) = .array (items.map form)
  object : ∀ members : List (String × Json), (members.map (·.1)).Nodup →
    ∃ written, form (.object members) = .object written ∧ (written.map (·.1)).Nodup ∧
      ∀ name value, (name, value) ∈ written ↔ ∃ held, (name, held) ∈ members ∧ value = form held

theorem isForm_id : IsForm id where
  boolean _ := rfl
  number _ := rfl
  text _ := rfl
  array items := (congrArg Json.array (List.map_id items)).symm
  object members distinct := ⟨members, rfl, distinct, fun name value => by simp⟩

theorem isForm_sorted : IsForm sorted where
  boolean _ := rfl
  number _ := rfl
  text _ := rfl
  array := sorted_array
  object members distinct := by
    refine ⟨_, sorted_object members, Table.nodup_keys _, fun name value => ?_⟩
    rw [← Table.get?_eq_some_iff, Table.get?_ofList_iff (by rwa [List.map_map])]
    simp only [List.mem_map, Prod.mk.injEq]
    constructor
    · rintro ⟨⟨key, held⟩, member, rfl, rfl⟩
      exact ⟨held, member, rfl⟩
    · rintro ⟨held, member, rfl⟩
      exact ⟨(name, held), member, rfl, rfl⟩

/-- If no name stands twice, a member is found exactly if it is there. -/
theorem lookup_eq_some_iff {members : List (String × Json)} (distinct : (members.map (·.1)).Nodup)
    {name : String} {value : Json} :
    members.lookup name = some value ↔ (name, value) ∈ members := by
  induction members with
  | nil => simp
  | cons member rest ih =>
    obtain ⟨key, held⟩ := member
    obtain ⟨fresh, others⟩ := List.nodup_cons.1 distinct
    by_cases same : name = key
    · subst same
      have absent : (name, value) ∉ rest := fun within =>
        fresh (List.mem_map.2 ⟨(name, value), within, rfl⟩)
      simp [absent, eq_comm]
    · rw [List.lookup_cons, beq_false_of_ne same]
      simp [ih others, same]

end Json

/-- Members that hold the slots of a record in a form, in whatever order. -/
structure Holds (form : Json → Json) (slots : Json.Slots) (members : List (String × Json)) :
    Prop where
  names : (slots.map (·.1)).Nodup
  distinct : (members.map (·.1)).Nodup
  mem_iff : ∀ name value, (name, value) ∈ members ↔
    ∃ held, (name, some held) ∈ slots ∧ value = form held

theorem Json.IsForm.holds {form : Json → Json} (isForm : IsForm form) {slots : Slots}
    (names : (slots.map (·.1)).Nodup) :
    ∃ members, form (.object (filled slots)) = .object members ∧ Holds form slots members := by
  obtain ⟨members, written, distinct, mem_iff⟩ :=
    isForm.object (filled slots) (names.sublist (map_fst_filled_sublist slots))
  refine ⟨members, written, names, distinct, fun name value => ?_⟩
  simp only [mem_iff, mem_filled]

/-! ## Fields -/

namespace Fields

variable {α β : Type} {name : String} {decoder : Decoder α} {shape : RecordShape}

/-- Where no member has a name there is none to find. -/
theorem named_of_not_mem {members : List (String × Json)}
    (absent : ∀ value, (name, value) ∉ members) (start : Nat) :
    ((Json.draftMembers members).zipIdx start).filter (fun member => isNamed name member.1) =
      [] := by
  induction members generalizing start with
  | nil => rfl
  | cons member rest ih =>
    obtain ⟨key, value⟩ := member
    have other : key ≠ name := fun same => absent value (same ▸ List.mem_cons_self ..)
    have none := ih (fun held within => absent held (List.mem_cons_of_mem _ within)) (start + 1)
    rw [Json.draftMembers, List.zipIdx_cons, List.filter_cons_of_neg, none]
    simpa [isNamed] using other

/-- A member with a name that no other member has is the only one to find. -/
theorem named_of_mem {members : List (String × Json)} (distinct : (members.map (·.1)).Nodup)
    {value : Json} (member : (name, value) ∈ members) (start : Nat) :
    ∃ place, ((Json.draftMembers members).zipIdx start).filter
        (fun member => isNamed name member.1) = [((.text name, value.draft), place)] := by
  induction members generalizing start with
  | nil => cases member
  | cons first rest ih =>
    obtain ⟨key, held⟩ := first
    obtain ⟨fresh, others⟩ := List.nodup_cons.1 distinct
    rw [Json.draftMembers, List.zipIdx_cons]
    rcases List.mem_cons.1 member with same | later
    -- The first member has the name, so none of the rest has it.
    · cases same
      have absent : ∀ other, (name, other) ∉ rest := fun other within =>
        fresh (List.mem_map.2 ⟨(name, other), within, rfl⟩)
      refine ⟨start, ?_⟩
      rw [List.filter_cons_of_pos (by simp [isNamed]), named_of_not_mem absent]
    · have other : key ≠ name := fun same =>
        fresh (List.mem_map.2 ⟨(name, value), later, same.symm⟩)
      rw [List.filter_cons_of_neg (by simpa [isNamed] using other)]
      exact ih others later (start + 1)

/-- A reading of fields gives a value. -/
def Gives (fields : Fields α) (shape : RecordShape) (parts : RecordParts) (made : α) : Prop :=
  fields shape parts = .ok made

theorem Gives.map {fields : Fields α} {parts : RecordParts} {made : α}
    (gives : fields.Gives shape parts made) (image : α → β) :
    (image <$> fields).Gives shape parts (image made) := by
  have read : fields shape parts = .ok made := gives
  show (fields shape parts).map image = _
  rw [read]
  rfl

theorem Gives.seq {build : Fields (α → β)} {fields : Fields α} {parts : RecordParts}
    {image : α → β} {made : α} (first : build.Gives shape parts image)
    (second : fields.Gives shape parts made) :
    (build <*> fields).Gives shape parts (image made) := by
  have built : build shape parts = .ok image := first
  have read : fields shape parts = .ok made := second
  show both build fields shape parts = _
  simp only [both, built, read]

/-- A field whose member is there gives what the member is decoded to. -/
theorem gives_field? {members : List (String × Json)} (distinct : (members.map (·.1)).Nodup)
    {value : Json} (member : (name, value) ∈ members) {made : α}
    (decoded : decoder value.draft = .ok made) :
    (field? name decoder).Gives shape (.members (Json.draftMembers members)) (some made) := by
  obtain ⟨place, only⟩ := named_of_mem distinct member 0
  simp only [Gives, field?, named, only, decoded]

/-- A field whose member is not there gives nothing. -/
theorem gives_field?_none {members : List (String × Json)}
    (absent : ∀ value, (name, value) ∉ members) :
    (field? name decoder).Gives shape (.members (Json.draftMembers members)) none := by
  simp only [Gives, field?, named, named_of_not_mem absent]

end Fields

namespace Holds

open Fields

variable {α β : Type} {form : Json → Json} {slots : Json.Slots} {members : List (String × Json)}
  {name : String} {decoder : Decoder α} (shape : RecordShape)

/-- The member of a filled slot is decoded. -/
theorem field? (holds : Holds form slots members) (place : Nat) {value : Json}
    (slot : slots[place]? = some (name, some value)) {made : α}
    (decoded : decoder (form value).draft = .ok made) :
    (Fields.field? name decoder).Gives shape (.members (Json.draftMembers members))
      (some made) := by
  have member := (holds.mem_iff name (form value)).2 ⟨value, List.mem_of_getElem? slot, rfl⟩
  exact gives_field? holds.distinct member decoded

/-- An empty slot has no member. -/
theorem absent (holds : Holds form slots members) (place : Nat)
    (slot : slots[place]? = some (name, none)) (value : Json) : (name, value) ∉ members := by
  intro member
  obtain ⟨held, filled, -⟩ := (holds.mem_iff name value).1 member
  have equal := List.inj_on_of_nodup_map holds.names filled (List.mem_of_getElem? slot) rfl
  cases equal

/-- The field of an empty slot gives nothing. -/
theorem field?_none (holds : Holds form slots members) (place : Nat)
    (slot : slots[place]? = some (name, none)) :
    (Fields.field? name decoder).Gives shape (.members (Json.draftMembers members)) none :=
  gives_field?_none (holds.absent place slot)

/-- A required field gives what its slot was filled with. -/
theorem required (holds : Holds form slots members) (place : Nat) {value : Json}
    (slot : slots[place]? = some (name, some value)) {made : α}
    (decoded : decoder (form value).draft = .ok made) :
    (Fields.required name decoder).Gives shape (.members (Json.draftMembers members)) made := by
  have found : Fields.field? name decoder shape _ = .ok (some made) :=
    holds.field? shape place slot decoded
  simp only [Gives, Fields.required, found]

/-- A field with a default gives what its slot was filled with. -/
theorem withDefault (holds : Holds form slots members) (place : Nat) {value : Json}
    (slot : slots[place]? = some (name, some value)) {made : α} (default : α)
    (decoded : decoder (form value).draft = .ok made) :
    (Fields.withDefault name default decoder).Gives shape (.members (Json.draftMembers members))
      made :=
  Gives.map (holds.field? shape place slot decoded) (·.getD default)

/-- A field with a default gives the default if its slot is empty. -/
theorem withDefault_none (holds : Holds form slots members) (place : Nat)
    (slot : slots[place]? = some (name, none)) (default : α) :
    (Fields.withDefault name default decoder).Gives shape (.members (Json.draftMembers members))
      default :=
  Gives.map (holds.field?_none shape place slot) (·.getD default)

/-- A flag is read as it was written. -/
theorem flag (holds : Holds form slots members) (isForm : Json.IsForm form) (place : Nat)
    {value : Bool} (slot : slots[place]? = some (name, Json.flagValue value)) :
    (Fields.withDefault name false Decoder.boolean).Gives shape
      (.members (Json.draftMembers members)) value := by
  cases value with
  | false => exact holds.withDefault_none shape place slot false
  | true =>
    refine holds.withDefault shape place slot false ?_
    rw [isForm.boolean]
    rfl

/-- An optional field gives what its slot was filled with, or nothing. Null stands for nothing, so
it must not be how a value is written. -/
theorem optional (holds : Holds form slots members) (place : Nat) {content : Option α}
    {encode : α → Json} (slot : slots[place]? = some (name, content.map encode))
    (decoded : ∀ made, content = some made → decoder (form (encode made)).draft = .ok made)
    (refuses : ∀ made, decoder .null ≠ .ok made) :
    (Fields.optional name decoder).Gives shape (.members (Json.draftMembers members)) content := by
  cases content with
  | none => exact holds.withDefault_none shape place slot none
  | some made =>
    have read := decoded made rfl
    refine holds.withDefault shape place slot none ?_
    rw [Decoder.orNull]
    · rw [read]
      rfl
    · intro null
      rw [null] at read
      exact refuses made read

/-- The member of a filled slot is found by its name. -/
theorem lookup (holds : Holds form slots members) (place : Nat) {value : Json}
    (slot : slots[place]? = some (name, some value)) :
    members.lookup name = some (form value) :=
  (Json.lookup_eq_some_iff holds.distinct).2
    ((holds.mem_iff name (form value)).2 ⟨value, List.mem_of_getElem? slot, rfl⟩)

/-- No member is found by the name of an empty slot. -/
theorem lookup_none (holds : Holds form slots members) (place : Nat)
    (slot : slots[place]? = some (name, none)) : members.lookup name = none := by
  refine Option.eq_none_iff_forall_ne_some.2 fun value found => ?_
  exact holds.absent place slot value ((Json.lookup_eq_some_iff holds.distinct).1 found)

end Holds

/-! ## Null -/

namespace Decoder

theorem text_null (made : String) : text .null ≠ .ok made :=
  nofun

theorem list_null {α : Type} {decoder : Decoder α} (made : List α) :
    list decoder .null ≠ .ok made :=
  nofun

theorem record_null {α : Type} {shape : RecordShape} {fields : Fields α} (made : α) :
    record shape fields .null ≠ .ok made :=
  nofun

end Decoder

/-! ## Members without a field -/

namespace Fields

/-- No member of an object gives trouble where it is passed over. -/
theorem gives_strangers (shape : RecordShape) (members : List (String × Json)) :
    strangers.Gives shape (.members (Json.draftMembers members)) () := by
  have all : ∀ place, checkMembers (skimStranger shape) place (Json.draftMembers members) =
      .ok () := by
    induction members with
    | nil => exact fun place => rfl
    | cons member rest ih =>
      intro place
      have skimmed : skimStranger shape (.text member.1, member.2.draft) = .ok () := by
        rw [skimStranger, Draft.skim_draft]
        show (if member.1 ∈ shape.fields then _ else _) = _
        split <;> rfl
      rw [Json.draftMembers, checkMembers, skimmed]
      exact ih (place + 1)
  exact all 0

/-- **The members without a field are taken in sorted.** -/
theorem extraMembers_draft {levels : Nat} {shape : RecordShape} {members : List (String × Json)}
    (shallow : ∀ member ∈ members, member.1 ∉ shape.fields → member.2.depth ≤ levels)
    (place : Nat) :
    extraMembers levels shape place (Json.draftMembers members) =
      .ok ((members.filter fun member => member.1 ∉ shape.fields).map
        fun member => (member.1, member.2.sorted)) := by
  induction members generalizing place with
  | nil => rfl
  | cons member rest ih =>
    have further := ih (fun other within => shallow other (List.mem_cons_of_mem _ within))
      (place + 1)
    by_cases own : member.1 ∈ shape.fields
    · rw [Json.draftMembers, extraMembers, List.filter_cons_of_neg (by simpa using own)]
      simp only [Draft.keyText?, own, if_true]
      exact further
    · have taken := Draft.value?_draft (shallow member (List.mem_cons_self ..) own)
      rw [Json.draftMembers, extraMembers, List.filter_cons_of_pos (by simpa using own)]
      simp only [Draft.keyText?, own, if_false, taken, further]
      rfl

end Fields

/-! ## Records -/

namespace Json.IsForm

open Fields

variable {α β : Type} {form : Json → Json} (isForm : IsForm form)

include isForm

theorem decode_text (text : String) : Decoder.text (form (.text text)).draft = .ok text := by
  rw [isForm.text]
  rfl

/-- A name is read as what it means. -/
theorem decode_meaning {meaning : String → α} {name : String} {made : α}
    (means : meaning name = made) :
    (Decoder.text (form (.text name)).draft).map meaning = .ok made := by
  rw [isForm.decode_text]
  exact congrArg Except.ok means

theorem decode_boolean (value : Bool) :
    Decoder.boolean (form (.boolean value)).draft = .ok value := by
  rw [isForm.boolean]
  rfl

/-- A word below a limit is read as itself. -/
theorem decode_natural (word : UInt64) {limit : Nat} (below : word.toNat < limit)
    (expected : Expectation) :
    Decoder.natural limit expected (form (.ofWord word)).draft = .ok word.toNat := by
  have fits : 0 ≤ (WholeNumber.ofWord word).value ∧ (WholeNumber.ofWord word).value < limit := by
    simp only [WholeNumber.ofWord]
    omega
  rw [ofWord, isForm.number, draft, Decoder.natural, if_pos fits]
  rfl

theorem decode_word32 (word : UInt32) :
    Decoder.word32 (form (.ofWord word.toUInt64)).draft = .ok word := by
  have below : word.toUInt64.toNat < 4294967296 := by
    rw [UInt32.toNat_toUInt64]
    exact word.toNat_lt
  rw [Decoder.word32, isForm.decode_natural _ below]
  simp [Except.map]

theorem decode_word64 (word : UInt64) : Decoder.word64 (form (.ofWord word)).draft = .ok word := by
  rw [Decoder.word64, isForm.decode_natural word word.toNat_lt]
  simp [Except.map]

/-- A list is read if its items are. -/
theorem decode_map {decoder : Decoder β} {encode : α → Json} {image : α → β} {items : List α}
    (decoded : ∀ item ∈ items, decoder (form (encode item)).draft = .ok (image item)) :
    Decoder.list decoder (form (.array (items.map encode))).draft = .ok (items.map image) := by
  rw [isForm.array, draft, Decoder.list]
  induction items with
  | nil => rfl
  | cons item rest ih =>
    have first := decoded item (List.mem_cons_self ..)
    have others := ih fun other member => decoded other (List.mem_cons_of_mem _ member)
    rw [List.map_cons, List.map_cons, draftItems, Decoder.items, first, others]
    rfl

/-- A list is read back if its items are. -/
theorem decode_list {decoder : Decoder α} {encode : α → Json} {items : List α}
    (decoded : ∀ item ∈ items, decoder (form (encode item)).draft = .ok item) :
    Decoder.list decoder (form (.array (items.map encode))).draft = .ok items :=
  (isForm.decode_map decoded).trans (congrArg Except.ok (List.map_id items))

/-- **A record is read back if its fields are**, each from the member of its slot. -/
theorem decode_record {shape : RecordShape} {fields : Fields α} {slots : Slots} {made : α}
    (names : slots.map (·.1) = shape.fields) (distinct : shape.fields.Nodup)
    (gives : ∀ members, Holds form slots members →
      fields.Gives shape (.members (draftMembers members)) made) :
    Decoder.record shape fields (form (.object (filled slots))).draft = .ok made := by
  obtain ⟨members, written, holds⟩ := isForm.holds (names ▸ distinct)
  have whole := ((gives members holds).map fun value (_ : Unit) => value).seq
    (gives_strangers shape members)
  have read : ((fun value _ => value) <$> fields <*> Fields.strangers) shape
      (.members (draftMembers members)) = .ok made := whole
  rw [written, draft, Decoder.record]
  simp only [read]
  rfl

end Json.IsForm

/-- A member of an open record beside its fields, as it is kept: under no name of a field, sorted
and not too deep. -/
structure Json.IsExtra (shape : RecordShape) (levels : Nat) (member : String × Json) : Prop where
  strange : member.1 ∉ shape.fields
  sorted : member.2.sorted = member.2
  shallow : member.2.depth ≤ levels

/-- The members of an open record as slots: those of its fields and those beside them. -/
def Json.withExtras (slots : Slots) (extras : Table String Json) : Slots :=
  slots ++ extras.entries.map fun member => (member.1, some member.2)

theorem Json.filled_withExtras (slots : Slots) (extras : Table String Json) :
    filled (withExtras slots extras) = filled slots ++ extras.entries := by
  rw [withExtras, filled, List.filterMap_append, List.filterMap_map]
  have each : ∀ member ∈ extras.entries,
      (Option.map (Prod.mk member.1) (some member.2) : Option (String × Json)) = some member :=
    fun member _ => rfl
  exact congrArg (filled slots ++ ·) ((List.filterMap_congr each).trans List.filterMap_some)

/-- A name without a field names a member beside the fields. -/
theorem Json.member?_withExtras {slots : Slots} {extras : Table String Json} {name : String}
    (strange : name ∉ slots.map (·.1)) :
    (object (filled (withExtras slots extras))).member? name = extras.get? name := by
  have absent : (filled slots).lookup name = none :=
    List.lookup_eq_none_iff.2 fun member within => by
      have named : member.1 ∈ slots.map (·.1) :=
        (map_fst_filled_sublist slots).subset (List.mem_map_of_mem within)
      have other : name ≠ member.1 := fun same => strange (same ▸ named)
      simpa using other
  rw [member?, filled_withExtras, List.lookup_append, absent, Option.none_or]
  apply Option.ext
  intro value
  rw [lookup_eq_some_iff extras.nodup_keys, Table.get?_eq_some_iff]

/-- An open record of plain members has one level more. -/
theorem Json.isPlain_withExtras {levels : Nat} {slots : Slots} {extras : Table String Json}
    (own : ∀ slot ∈ slots, ∀ value ∈ slot.2, value.IsPlain levels)
    (beside : ∀ member ∈ extras.entries, member.2.IsPlain levels) :
    (object (filled (withExtras slots extras))).IsPlain (levels + 1) := by
  refine isPlain_filled fun slot member => ?_
  rcases List.mem_append.1 member with field | extra
  · exact own slot field
  · obtain ⟨held, within, rfl⟩ := List.mem_map.1 extra
    rintro value ⟨⟩
    exact beside held within

/-- **An open record is read back with the members beside its fields**, if its fields are. -/
theorem Json.decode_openRecord {α : Type} {shape : RecordShape} {levels : Nat}
    {fields : Fields (Table String Json → α)} {slots : Slots} {extras : Table String Json}
    {make : Table String Json → α} (names : slots.map (·.1) = shape.fields)
    (distinct : shape.fields.Nodup)
    (kept : ∀ member ∈ extras.entries, IsExtra shape levels member)
    (gives : ∀ members, Holds id (withExtras slots extras) members →
      fields.Gives shape (.members (draftMembers members)) make) :
    Decoder.openRecord shape levels fields (object (filled (withExtras slots extras))).draft =
      .ok (make extras) := by
  -- Fields and extras have different names, so that each slot is found by its own.
  have apart : ((withExtras slots extras).map (·.1)).Nodup := by
    rw [withExtras, List.map_append, List.map_map, names]
    refine List.Nodup.append distinct ?_ ?_
    · exact extras.nodup_keys
    · intro name own other
      obtain ⟨member, within, rfl⟩ := List.mem_map.1 other
      exact (kept member within).strange own
  obtain ⟨members, written, holds⟩ := isForm_id.holds apart
  cases written
  have beside : (filled (withExtras slots extras)).filter (fun member => member.1 ∉ shape.fields) =
      extras.entries := by
    have own : (filled slots).filter (fun member => member.1 ∉ shape.fields) = [] := by
      rw [List.filter_eq_nil_iff]
      rintro ⟨name, value⟩ member
      have named : name ∈ shape.fields :=
        names ▸ List.mem_map.2 ⟨(name, some value), mem_filled.1 member, rfl⟩
      simpa using named
    have strange : extras.entries.filter (fun member => member.1 ∉ shape.fields) =
        extras.entries :=
      List.filter_eq_self.2 fun member within => decide_eq_true (kept member within).strange
    rw [filled_withExtras, List.filter_append, own, strange, List.nil_append]
  have shallow : ∀ member ∈ filled (withExtras slots extras), member.1 ∉ shape.fields →
      member.2.depth ≤ levels := by
    intro member within strange
    have other : member ∈ (filled (withExtras slots extras)).filter
        (fun member => member.1 ∉ shape.fields) :=
      List.mem_filter.2 ⟨within, decide_eq_true strange⟩
    rw [beside] at other
    exact (kept member other).shallow
  have unchanged : extras.entries.map (fun member => (member.1, member.2.sorted)) =
      extras.entries := by
    refine (List.map_congr_left fun member within => ?_).trans (List.map_id _)
    rw [(kept member within).sorted]
    rfl
  have taken : (Fields.extras levels).Gives shape
      (.members (draftMembers (filled (withExtras slots extras)))) extras := by
    simp only [Fields.Gives, Fields.extras, Fields.extraMembers_draft shallow, beside, unchanged,
      Except.map, Table.ofList_entries]
  have read : (fields <*> Fields.extras levels) shape
      (.members (draftMembers (filled (withExtras slots extras)))) = .ok (make extras) :=
    (gives _ holds).seq taken
  rw [draft, Decoder.openRecord, read]
  rfl

end ApiAtlas
