import ApiAtlas.Proofs.Json.Outcomes
import ApiAtlas.Proofs.Symbol.Parts
import ApiAtlas.Symbol.Basic

/-!
# Mixins read back

The records of mixins are read back like those of other parts, sorted as they are
written. So a mixin is read back under the key whose reader made it, and a mixin
kept verbatim under every key without a reader (`Mixin.isReadable_of_read`).

With all its mixins readable, and none under the name of a field, the further
members of a record give the same mixins again (`Mixins.ofMembers_members`).
-/

set_option autoImplicit false

namespace ApiAtlas

open Json

variable {form : Json → Json}

/-! ## Records -/

namespace Availability

/-- The slots of an item. -/
def slots (item : Availability) : Slots :=
  [("domain", item.domain.map .text), ("introduced", item.introduced.map Version.encode),
    ("deprecated", item.deprecated.map Version.encode),
    ("obsoleted", item.obsoleted.map Version.encode), ("message", item.message.map .text),
    ("renamed", item.renamed.map .text),
    ("isUnconditionallyDeprecated", flagValue item.isUnconditionallyDeprecated),
    ("isUnconditionallyUnavailable", flagValue item.isUnconditionallyUnavailable),
    ("willEventuallyBeDeprecated", flagValue item.willEventuallyBeDeprecated)]

theorem encode_eq (item : Availability) : item.encode = .object (filled item.slots) := by
  simp only [encode, flag_eq]
  exact ofFields_slots item.slots

@[simp]
theorem isPlain_encode (item : Availability) : item.encode.IsPlain 2 := by
  rw [encode_eq]
  exact isPlain_filled (by simp [slots])

theorem decode_encode (isForm : IsForm form) (item : Availability) :
    decode (form item.encode).draft = .ok item := by
  rw [encode_eq]
  refine isForm.decode_record rfl (by decide) fun members holds => ?_
  have domain := holds.optional shape 0 rfl (fun text _ => isForm.decode_text text)
    Decoder.text_null
  have introduced := holds.optional shape 1 rfl (fun version _ => version.decode_encode isForm)
    Decoder.record_null
  have deprecated := holds.optional shape 2 rfl (fun version _ => version.decode_encode isForm)
    Decoder.record_null
  have obsoleted := holds.optional shape 3 rfl (fun version _ => version.decode_encode isForm)
    Decoder.record_null
  have message := holds.optional shape 4 rfl (fun text _ => isForm.decode_text text)
    Decoder.text_null
  have renamed := holds.optional shape 5 rfl (fun text _ => isForm.decode_text text)
    Decoder.text_null
  have isDeprecated := holds.flag shape isForm 6 rfl
  have isUnavailable := holds.flag shape isForm 7 rfl
  have willBeDeprecated := holds.flag shape isForm 8 rfl
  exact ((((((((domain.map Availability.mk).seq introduced).seq deprecated).seq obsoleted).seq
    message).seq renamed).seq isDeprecated).seq isUnavailable).seq willBeDeprecated

end Availability

namespace Location

/-- The slots of a location. -/
def slots (location : Location) : Slots :=
  [("uri", some (.text location.uri)), ("position", location.position.map Position.encode)]

theorem encode_eq (location : Location) : location.encode = .object (filled location.slots) :=
  ofFields_slots location.slots

@[simp]
theorem isPlain_encode (location : Location) : location.encode.IsPlain 2 := by
  rw [encode_eq]
  exact isPlain_filled (by simp [slots])

/-- The position of a location is read back, also if there is none. -/
theorem position_encode {location : Location} {members : List (String × Json)}
    (holds : Holds sorted location.slots members) :
    ((object members).member? "position").bind
      (fun held => (held.decode Position.decode).toOption) = location.position := by
  cases location with
  | mk address position =>
    cases position with
    | none =>
      have absent : (object members).member? "position" = none := holds.lookup_none 1 rfl
      rw [absent]
      rfl
    | some position =>
      have found : (object members).member? "position" = some position.encode.sorted :=
        holds.lookup 1 rfl
      have decoded : position.encode.sorted.decode Position.decode = .ok position :=
        position.decode_encode isForm_sorted
      rw [found, Option.bind_some, decoded]
      rfl

/-- A location is read back from its address and its position. -/
theorem readLocation_encode (location : Location) :
    Mixin.readLocation location.encode.sorted = .ok (.location location) := by
  have names : location.slots.map (·.1) = ["uri", "position"] := rfl
  have distinct : (location.slots.map (·.1)).Nodup := by
    rw [names]
    decide
  obtain ⟨members, written, holds⟩ := isForm_sorted.holds distinct
  have address : (object members).member? "uri" = some (sorted (.text location.uri)) :=
    holds.lookup 0 rfl
  rw [encode_eq, written, Mixin.readLocation, address, position_encode holds]
  rfl

end Location

namespace OverloadPlace

/-- The slots of a place in a group. -/
def slots (place : OverloadPlace) : Slots :=
  [("overloadGroupIdentifier", some (.text place.group)),
    ("overloadGroupIndex", some (.ofWord place.index))]

theorem encode_eq (place : OverloadPlace) : place.encode = .object (filled place.slots) :=
  rfl

@[simp]
theorem isPlain_encode (place : OverloadPlace) : place.encode.IsPlain 1 := by
  rw [encode_eq]
  exact isPlain_filled (by simp [slots])

theorem decode_encode (isForm : IsForm form) (place : OverloadPlace) :
    decode (form place.encode).draft = .ok place := by
  rw [encode_eq]
  refine isForm.decode_record rfl (by decide) fun members holds => ?_
  have group := holds.required shape 0 rfl (isForm.decode_text place.group)
  have index := holds.required shape 1 rfl (isForm.decode_word64 place.index)
  exact (group.map OverloadPlace.mk).seq index

end OverloadPlace

namespace GenericConstraint

/-- The slots of a condition. -/
def slots (constraint : GenericConstraint) : Slots :=
  [("kind", some (.text constraint.kind)), ("lhs", some (.text constraint.left)),
    ("rhs", some (.text constraint.right))]

theorem encode_eq (constraint : GenericConstraint) :
    constraint.encode = .object (filled constraint.slots) :=
  rfl

@[simp]
theorem isPlain_encode (constraint : GenericConstraint) : constraint.encode.IsPlain 1 := by
  rw [encode_eq]
  exact isPlain_filled (by simp [slots])

theorem decode_encode (isForm : IsForm form) (constraint : GenericConstraint) :
    decode (form constraint.encode).draft = .ok constraint := by
  rw [encode_eq]
  refine isForm.decode_record rfl (by decide) fun members holds => ?_
  have kind := holds.required shape 0 rfl (isForm.decode_text constraint.kind)
  have left := holds.required shape 1 rfl (isForm.decode_text constraint.left)
  have right := holds.required shape 2 rfl (isForm.decode_text constraint.right)
  exact ((kind.map GenericConstraint.mk).seq left).seq right

end GenericConstraint

namespace ExtendedType

/-- The slots of an extended type. -/
def slots (type : ExtendedType) : Slots :=
  [("extendedModule", some (.text type.module)), ("typeKind", type.kind.map .text),
    ("constraints", some (.array (type.constraints.map GenericConstraint.encode)))]

theorem encode_eq (type : ExtendedType) : type.encode = .object (filled type.slots) :=
  ofFields_slots type.slots

@[simp]
theorem isPlain_encode (type : ExtendedType) : type.encode.IsPlain 3 := by
  have constraints : (array (type.constraints.map GenericConstraint.encode)).IsPlain 2 :=
    isPlain_array (by simp)
  rw [encode_eq]
  exact isPlain_filled (by simp [slots, constraints])

theorem decode_encode (isForm : IsForm form) (type : ExtendedType) :
    decode (form type.encode).draft = .ok type := by
  rw [encode_eq]
  refine isForm.decode_record rfl (by decide) fun members holds => ?_
  have module := holds.required shape 0 rfl (isForm.decode_text type.module)
  have kind := holds.optional shape 1 rfl (fun text _ => isForm.decode_text text)
    Decoder.text_null
  have constraints := holds.withDefault shape 2 rfl []
    (isForm.decode_list fun constraint _ => constraint.decode_encode isForm)
  exact ((module.map ExtendedType.mk).seq kind).seq constraints

end ExtendedType

/-! ## One mixin -/

namespace Mixin

/-- A mixin that is read back under a key, and written sorted and not too deep. -/
structure IsReadable (key : String) (mixin : Mixin) : Prop where
  read : MixinRegistry.standard.read key mixin.encode = .ok mixin
  sorted : mixin.encode.sorted = mixin.encode
  shallow : mixin.encode.depth ≤ Symbol.valueLevels

/-- Whether a mixin is kept without doubles. -/
def isExact : Mixin → Bool
  | verbatim value => value.isExact
  | _ => true

/-- A mixin with a meaning is written sorted, as a plain value of few levels. -/
theorem exists_plain (mixin : Mixin) (meaningful : ∀ value, mixin ≠ verbatim value) :
    ∃ value : Json, mixin.encode = value.sorted ∧ value.IsPlain 3 := by
  cases mixin with
  | declaration fragments =>
    exact ⟨_, rfl, (Fragment.isPlain_encodeAll fragments).mono (by decide)⟩
  | availability items => exact ⟨_, rfl, isPlain_array (by simp)⟩
  | location place => exact ⟨_, rfl, place.isPlain_encode.mono (by decide)⟩
  | overload place => exact ⟨_, rfl, place.isPlain_encode.mono (by decide)⟩
  | extendedType type => exact ⟨_, rfl, type.isPlain_encode⟩
  | systemInterface flag => exact ⟨_, rfl, isPlain_boolean 3 flag⟩
  | readOnly flag => exact ⟨_, rfl, isPlain_boolean 3 flag⟩
  | verbatim value => exact absurd rfl (meaningful value)

/-- A mixin with a meaning is readable under a key whose reader reads it back. -/
theorem isReadable_of_meaningful {key : String} {mixin : Mixin}
    (meaningful : ∀ value, mixin ≠ verbatim value)
    (read : MixinRegistry.standard.read key mixin.encode = .ok mixin) : mixin.IsReadable key := by
  obtain ⟨value, written, plain⟩ := exists_plain mixin meaningful
  refine ⟨read, ?_, ?_⟩
  · rw [written, sorted_sorted]
  · rw [written]
    exact Nat.le_trans plain.sorted.shallow (by decide)

/-- A readable mixin without doubles is written as a plain value. -/
theorem IsReadable.isPlain {key : String} {mixin : Mixin} (readable : mixin.IsReadable key)
    (exact : mixin.isExact = true) : mixin.encode.IsPlain Symbol.valueLevels := by
  refine ⟨?_, readable.shallow⟩
  by_cases meaningful : ∀ value, mixin ≠ verbatim value
  · obtain ⟨value, written, plain⟩ := exists_plain mixin meaningful
    rw [written]
    exact plain.sorted.exact
  · obtain ⟨value, same⟩ := not_forall_not.1 meaningful
    rw [same] at exact ⊢
    exact exact

theorem readerOf_eq_ok_iff {α : Type} {decoder : Decoder α} {make : α → Mixin} {value : Json}
    {mixin : Mixin} : readerOf decoder make value = .ok mixin ↔
      ∃ made, decoder value.draft = .ok made ∧ make made = mixin := by
  rw [readerOf, Outcome.mapError_eq_ok_iff, Outcome.map_eq_ok_iff]
  rfl

end Mixin

namespace MixinRegistry

/-- The keys with a meaning, each with its reader. -/
def readers : List (String × MixinReader) :=
  [(Mixin.declarationKey, Mixin.readerOf (Decoder.list Fragment.decode) .declaration),
    (Mixin.availabilityKey, Mixin.readerOf (Decoder.list Availability.decode) .availability),
    (Mixin.locationKey, Mixin.readLocation),
    (Mixin.overloadKey, Mixin.readerOf OverloadPlace.decode .overload),
    (Mixin.extendedTypeKey, Mixin.readerOf ExtendedType.decode .extendedType),
    (Mixin.systemInterfaceKey, Mixin.readerOf Decoder.boolean .systemInterface),
    (Mixin.readOnlyKey, Mixin.readerOf Decoder.boolean .readOnly)]

theorem get?_standard_iff {key : String} {reader : MixinReader} :
    Table.get? standard key = some reader ↔ (key, reader) ∈ readers := by
  have distinct : (readers.map (·.1)).Nodup := by decide
  exact Table.get?_ofList_iff distinct

theorem read_eq {key : String} {reader : MixinReader} (listed : (key, reader) ∈ readers)
    (value : Json) : standard.read key value = reader value := by
  rw [read, get?_standard_iff.2 listed]

/-- Without a reader a value is kept verbatim. -/
theorem read_verbatim {key : String} (unread : Table.get? standard key = Option.none)
    (value : Json) : standard.read key value = .ok (.verbatim value) := by
  rw [read, unread]

end MixinRegistry

namespace Mixin

open MixinRegistry

/-- What a decoder reads back is readable under the key of its reader. -/
theorem isReadable_make {α : Type} {key : String} {decoder : Decoder α} {make : α → Mixin}
    {made : α} {value : Json} (place : Nat)
    (listed : readers[place]? = some (key, readerOf decoder make))
    (meaningful : ∀ value, make made ≠ verbatim value) (written : (make made).encode = value.sorted)
    (decoded : decoder value.sorted.draft = .ok made) : (make made).IsReadable key := by
  refine isReadable_of_meaningful meaningful ?_
  rw [read_eq (List.mem_of_getElem? listed), written]
  exact readerOf_eq_ok_iff.2 ⟨made, decoded, rfl⟩

theorem isReadable_declaration {fragments : List Fragment}
    (resolved : ∀ fragment ∈ fragments, fragment.kind.IsResolved) :
    (declaration fragments).IsReadable declarationKey :=
  isReadable_make 0 rfl (fun _ => nofun) rfl
    (Fragment.decode_encodeAll isForm_sorted resolved)

theorem isReadable_availability (items : List Availability) :
    (availability items).IsReadable availabilityKey :=
  isReadable_make 1 rfl (fun _ => nofun) rfl
    (isForm_sorted.decode_list fun item _ => item.decode_encode isForm_sorted)

theorem isReadable_location (place : Location) : (location place).IsReadable locationKey := by
  refine isReadable_of_meaningful (fun _ => nofun) ?_
  rw [read_eq (List.mem_of_getElem? (i := 2) rfl)]
  exact place.readLocation_encode

theorem isReadable_overload (place : OverloadPlace) : (overload place).IsReadable overloadKey :=
  isReadable_make 3 rfl (fun _ => nofun) rfl (place.decode_encode isForm_sorted)

theorem isReadable_extendedType (type : ExtendedType) :
    (extendedType type).IsReadable extendedTypeKey :=
  isReadable_make 4 rfl (fun _ => nofun) rfl (type.decode_encode isForm_sorted)

theorem isReadable_systemInterface (flag : Bool) :
    (systemInterface flag).IsReadable systemInterfaceKey :=
  isReadable_make 5 rfl (fun _ => nofun) rfl (isForm_sorted.decode_boolean flag)

theorem isReadable_readOnly (flag : Bool) : (readOnly flag).IsReadable readOnlyKey :=
  isReadable_make 6 rfl (fun _ => nofun) rfl (isForm_sorted.decode_boolean flag)

/-- Reading a location makes one. -/
theorem exists_of_readLocation {value : Json} {mixin : Mixin}
    (read : readLocation value = .ok mixin) : ∃ place, mixin = location place := by
  unfold readLocation at read
  split at read
  · cases read
  · cases read
    exact ⟨_, rfl⟩

/-- **What the reader of a key makes is readable under it**, if it was made of a value that is
sorted and not too deep. -/
theorem isReadable_of_read {key : String} {value : Json} {mixin : Mixin}
    (read : standard.read key value = .ok mixin) (sorted : value.sorted = value)
    (shallow : value.depth ≤ Symbol.valueLevels) : mixin.IsReadable key := by
  cases found : Table.get? standard key with
  | none =>
    rw [read_verbatim found] at read
    cases read
    exact ⟨read_verbatim found value, sorted, shallow⟩
  | some reader =>
    have listed := get?_standard_iff.1 found
    rw [read_eq listed] at read
    simp only [readers, List.mem_cons, Prod.mk.injEq, List.not_mem_nil, or_false] at listed
    -- Only a declaration could hold something that does not read back as it is: a kind of fragment
    -- under the name of another one. What has been read never does.
    rcases listed with ⟨rfl, rfl⟩ | ⟨rfl, rfl⟩ | ⟨rfl, rfl⟩ | ⟨rfl, rfl⟩ | ⟨rfl, rfl⟩ | ⟨rfl, rfl⟩ |
      ⟨rfl, rfl⟩
    · obtain ⟨fragments, decoded, rfl⟩ := readerOf_eq_ok_iff.1 read
      exact isReadable_declaration (Fragment.ensures_resolved.list _ _ decoded)
    · obtain ⟨items, -, rfl⟩ := readerOf_eq_ok_iff.1 read
      exact isReadable_availability items
    · obtain ⟨location, rfl⟩ := exists_of_readLocation read
      exact isReadable_location location
    · obtain ⟨place, -, rfl⟩ := readerOf_eq_ok_iff.1 read
      exact isReadable_overload place
    · obtain ⟨type, -, rfl⟩ := readerOf_eq_ok_iff.1 read
      exact isReadable_extendedType type
    · obtain ⟨flag, -, rfl⟩ := readerOf_eq_ok_iff.1 read
      exact isReadable_systemInterface flag
    · obtain ⟨flag, -, rfl⟩ := readerOf_eq_ok_iff.1 read
      exact isReadable_readOnly flag

end Mixin

/-! ## The mixins of a record -/

namespace Mixins

/-- The further members of a record with mixins. -/
def members (mixins : Mixins) : Table String Json :=
  Table.map mixins fun _ mixin => mixin.encode

theorem encode_eq (mixins : Mixins) : encode mixins = (members mixins).entries := by
  exact (congrFun List.filterMap_eq_map mixins.entries).symm

theorem get?_members {mixins : Mixins} {key : String} {value : Json} :
    (members mixins).get? key = some value ↔
      ∃ mixin, Table.get? mixins key = some mixin ∧ mixin.encode = value := by
  rw [members, Table.get?_map, Option.map_eq_some_iff]

/-- Mixins that can be read back, none of which stands under the name of a field. -/
def AreReadable (shape : RecordShape) (mixins : Mixins) : Prop :=
  ∀ key mixin, Table.get? mixins key = some mixin → key ∉ shape.fields ∧ mixin.IsReadable key

/-- Whether all mixins are kept without doubles. -/
def areExact (mixins : Mixins) : Bool :=
  (Table.values mixins).all Mixin.isExact

variable {shape : RecordShape} {mixins : Mixins}

/-- **Readable mixins are read back from their members.** -/
theorem ofMembers_members (readable : AreReadable shape mixins) :
    ofMembers MixinRegistry.standard (members mixins) = mixins := by
  apply Table.ext_get?
  intro key
  rw [ofMembers, Table.get?_filterMap, members, Table.get?_map]
  cases found : Table.get? mixins key with
  | none => rfl
  | some mixin =>
    rw [Option.map_some, Option.bind_some, (readable key mixin found).2.read]
    rfl

theorem AreReadable.isExtra (readable : AreReadable shape mixins) :
    ∀ member ∈ (members mixins).entries, IsExtra shape Symbol.valueLevels member := by
  rintro ⟨key, value⟩ member
  obtain ⟨mixin, found, rfl⟩ := get?_members.1 (Table.get?_eq_some_iff.2 member)
  obtain ⟨strange, own⟩ := readable key mixin found
  exact ⟨strange, own.sorted, own.shallow⟩

theorem AreReadable.isPlain (readable : AreReadable shape mixins) (exact : areExact mixins = true) :
    ∀ member ∈ (members mixins).entries, member.2.IsPlain Symbol.valueLevels := by
  rintro ⟨key, value⟩ member
  obtain ⟨mixin, found, rfl⟩ := get?_members.1 (Table.get?_eq_some_iff.2 member)
  exact (readable key mixin found).2.isPlain
    (List.all_eq_true.1 exact mixin (Table.mem_values.2 ⟨key, found⟩))

/-- **The mixins that are read from a record are readable.** -/
theorem areReadable_ofMembers {extras : Table String Json}
    (kept : ∀ member ∈ extras.entries, IsExtra shape Symbol.valueLevels member) :
    AreReadable shape (ofMembers MixinRegistry.standard extras) := by
  intro key mixin found
  rw [ofMembers, Table.get?_filterMap, Option.bind_eq_some_iff] at found
  obtain ⟨value, held, read⟩ := found
  have extra := kept (key, value) (Table.get?_eq_some_iff.1 held)
  refine ⟨extra.strange, Mixin.isReadable_of_read ?_ extra.sorted extra.shallow⟩
  exact Outcome.toOption_eq_some_iff.1 read

theorem AreReadable.insert (readable : AreReadable shape mixins) {key : String} {mixin : Mixin}
    (strange : key ∉ shape.fields) (own : mixin.IsReadable key) :
    AreReadable shape (Table.insert mixins key mixin) := by
  intro other held found
  rw [Table.get?_insert] at found
  split at found
  · next same =>
    cases found
    rw [same]
    exact ⟨strange, own⟩
  · exact readable other held found

theorem AreReadable.erase (readable : AreReadable shape mixins) (key : String) :
    AreReadable shape (Table.erase mixins key) := by
  intro other held found
  rw [Table.get?_erase] at found
  split at found
  · cases found
  · exact readable other held found

end Mixins

end ApiAtlas
