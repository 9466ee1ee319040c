import ApiAtlas.Symbol.Documentation
import ApiAtlas.Version

/-!
# Mixins

Besides its fixed fields a symbol or a relationship carries mixins: further
members of its record, each under a key of its own. A key with a registered
reader gives a mixin with a meaning; every other one is kept verbatim and
written as it was read.

A registered reader may refuse a value. Then that mixin is dropped
(`Mixins.ofMembers`) and a refusal noted (`Mixins.refusals`), and everything
else stays.
-/

set_option autoImplicit false

namespace ApiAtlas

/-- Since when a symbol exists, is deprecated or is gone in one domain. -/
structure Availability where
  domain : Option String := none
  introduced : Option Version := none
  deprecated : Option Version := none
  obsoleted : Option Version := none
  message : Option String := none
  renamed : Option String := none
  isUnconditionallyDeprecated : Bool := false
  isUnconditionallyUnavailable : Bool := false
  willEventuallyBeDeprecated : Bool := false
deriving DecidableEq, Repr

/-- Where a symbol is declared. -/
structure Location where
  uri : String
  position : Option Position := none
deriving DecidableEq, Repr

/-- The place of a symbol in a group of overloads. -/
structure OverloadPlace where
  group : String
  index : UInt64
deriving DecidableEq, Repr

/-- A condition on the parameters of a generic type. -/
structure GenericConstraint where
  kind : String
  left : String
  right : String
deriving DecidableEq, Repr

/-- The type that a member was added to from outside. -/
structure ExtendedType where
  module : String
  kind : Option String := none
  constraints : List GenericConstraint := []
deriving DecidableEq, Repr

/-- A further member of a record. -/
inductive Mixin
  | declaration (fragments : List Fragment)
  | availability (items : List Availability)
  | location (location : Location)
  | overload (place : OverloadPlace)
  | extendedType (type : ExtendedType)
  | systemInterface (flag : Bool)
  | readOnly (flag : Bool)
  /-- A member without a meaning here. -/
  | verbatim (value : Json)
deriving DecidableEq, Repr

/-! ## Records -/

namespace Availability

/-- Whether the item says that the symbol is deprecated. -/
def isDeprecated (item : Availability) : Bool :=
  item.isUnconditionallyDeprecated || item.deprecated.isSome

/-- The record of an item. -/
def shape : RecordShape :=
  { name := "AvailabilityItem"
    fields :=
      ["domain", "introduced", "deprecated", "obsoleted", "message", "renamed",
        "isUnconditionallyDeprecated", "isUnconditionallyUnavailable",
        "willEventuallyBeDeprecated"] }

/-- Reads an item. -/
def decode : Decoder Availability :=
  Decoder.record shape <|
    Availability.mk <$> Fields.optional "domain" Decoder.text
      <*> Fields.optional "introduced" Version.decode
      <*> Fields.optional "deprecated" Version.decode
      <*> Fields.optional "obsoleted" Version.decode
      <*> Fields.optional "message" Decoder.text
      <*> Fields.optional "renamed" Decoder.text
      <*> Fields.withDefault "isUnconditionallyDeprecated" false Decoder.boolean
      <*> Fields.withDefault "isUnconditionallyUnavailable" false Decoder.boolean
      <*> Fields.withDefault "willEventuallyBeDeprecated" false Decoder.boolean

/-- Writes an item. -/
def encode (item : Availability) : Json :=
  .ofFields
    [Json.field? "domain" (item.domain.map .text),
      Json.field? "introduced" (item.introduced.map Version.encode),
      Json.field? "deprecated" (item.deprecated.map Version.encode),
      Json.field? "obsoleted" (item.obsoleted.map Version.encode),
      Json.field? "message" (item.message.map .text),
      Json.field? "renamed" (item.renamed.map .text),
      Json.flag "isUnconditionallyDeprecated" item.isUnconditionallyDeprecated,
      Json.flag "isUnconditionallyUnavailable" item.isUnconditionallyUnavailable,
      Json.flag "willEventuallyBeDeprecated" item.willEventuallyBeDeprecated]

end Availability

namespace Location

/-- Writes a location. -/
def encode (location : Location) : Json :=
  .ofFields
    [Json.field "uri" (.text location.uri),
      Json.field? "position" (location.position.map Position.encode)]

end Location

namespace OverloadPlace

/-- The record of a place in a group. -/
def shape : RecordShape :=
  { name := "OverloadData", fields := ["overloadGroupIdentifier", "overloadGroupIndex"] }

/-- Reads a place in a group. -/
def decode : Decoder OverloadPlace :=
  Decoder.record shape <|
    OverloadPlace.mk <$> Fields.required "overloadGroupIdentifier" Decoder.text
      <*> Fields.required "overloadGroupIndex" Decoder.word64

/-- Writes a place in a group. -/
def encode (place : OverloadPlace) : Json :=
  .object
    [("overloadGroupIdentifier", .text place.group), ("overloadGroupIndex", .ofWord place.index)]

end OverloadPlace

namespace GenericConstraint

/-- The record of a condition. -/
def shape : RecordShape :=
  { name := "GenericConstraint", fields := ["kind", "lhs", "rhs"] }

/-- Reads a condition. -/
def decode : Decoder GenericConstraint :=
  Decoder.record shape <|
    GenericConstraint.mk <$> Fields.required "kind" Decoder.text
      <*> Fields.required "lhs" Decoder.text
      <*> Fields.required "rhs" Decoder.text

/-- Writes a condition. -/
def encode (constraint : GenericConstraint) : Json :=
  .object
    [("kind", .text constraint.kind), ("lhs", .text constraint.left),
      ("rhs", .text constraint.right)]

end GenericConstraint

namespace ExtendedType

/-- The record of an extended type. -/
def shape : RecordShape :=
  { name := "SwiftExtension", fields := ["extendedModule", "typeKind", "constraints"] }

/-- Reads an extended type. -/
def decode : Decoder ExtendedType :=
  Decoder.record shape <|
    ExtendedType.mk <$> Fields.required "extendedModule" Decoder.text
      <*> Fields.optional "typeKind" Decoder.text
      <*> Fields.withDefault "constraints" [] (Decoder.list GenericConstraint.decode)

/-- Writes an extended type. -/
def encode (type : ExtendedType) : Json :=
  .ofFields
    [Json.field "extendedModule" (.text type.module), Json.field? "typeKind" (type.kind.map .text),
      Json.field "constraints" (.array (type.constraints.map GenericConstraint.encode))]

end ExtendedType

/-! ## Reading and writing one mixin -/

/-- Why a registered reader refuses a value. -/
inductive MixinError
  | shape (error : DecodeError)
  | invalid (key message : String)
deriving DecidableEq, Repr

/-- The refusal in words. -/
def MixinError.message : MixinError → String
  | shape error => s!"JSON error: {error.message}"
  | invalid key message => s!"Invalid mixin `{key}`: {message}"

/-- A reader of one mixin. -/
abbrev MixinReader : Type :=
  Json → Except MixinError Mixin

namespace Mixin

/-- The key of the declaration. -/
def declarationKey : String :=
  "declarationFragments"

/-- The key of the availability. -/
def availabilityKey : String :=
  "availability"

/-- The key of the location. -/
def locationKey : String :=
  "location"

/-- The key of the place in a group of overloads. -/
def overloadKey : String :=
  "overloadData"

/-- The key of the extended type. -/
def extendedTypeKey : String :=
  "swiftExtension"

/-- The key that marks a symbol as a system interface. -/
def systemInterfaceKey : String :=
  "spi"

/-- The key that marks a symbol as read-only. -/
def readOnlyKey : String :=
  "isReadOnly"

/-- The reader that decodes the whole value. -/
def readerOf {α : Type} (decoder : Decoder α) (make : α → Mixin) : MixinReader := fun value =>
  ((value.decode decoder).map make).mapError .shape

/-- Reads a location. Only the address is needed; a position that is none is left out. -/
def readLocation : MixinReader := fun value =>
  match (value.member? "uri").bind Json.text? with
  | none => .error (.invalid locationKey "missing `uri`")
  | some uri =>
    let position := (value.member? "position").bind fun held =>
      (held.decode Position.decode).toOption
    .ok (.location { uri, position })

/-- Writes a mixin. Members of objects stand in ascending order of their keys. -/
def encode : Mixin → Json
  | declaration fragments => (Fragment.encodeAll fragments).sorted
  | availability items => (Json.array (items.map Availability.encode)).sorted
  | location place => place.encode.sorted
  | overload place => place.encode.sorted
  | extendedType type => type.encode.sorted
  | systemInterface flag => .boolean flag
  | readOnly flag => .boolean flag
  | verbatim value => value

/-- The mixin without the signs of zeros in a value kept verbatim. -/
def unsignedZeros : Mixin → Mixin
  | verbatim value => verbatim value.unsignedZeros
  | other => other

end Mixin

/-! ## The registry -/

/-- The readers of the keys with a meaning. -/
abbrev MixinRegistry : Type :=
  Table String MixinReader

namespace MixinRegistry

/-- The registry without a reader: every mixin is kept verbatim. -/
def none : MixinRegistry :=
  Table.empty

/-- The registry of all mixins with a meaning. -/
def standard : MixinRegistry :=
  Table.ofList
    [(Mixin.declarationKey, Mixin.readerOf (Decoder.list Fragment.decode) .declaration),
      (Mixin.availabilityKey, Mixin.readerOf (Decoder.list Availability.decode) .availability),
      (Mixin.locationKey, Mixin.readLocation),
      (Mixin.overloadKey, Mixin.readerOf OverloadPlace.decode .overload),
      (Mixin.extendedTypeKey, Mixin.readerOf ExtendedType.decode .extendedType),
      (Mixin.systemInterfaceKey, Mixin.readerOf Decoder.boolean .systemInterface),
      (Mixin.readOnlyKey, Mixin.readerOf Decoder.boolean .readOnly)]

/-- Reads the mixin under a key. -/
def read (registry : MixinRegistry) (key : String) (value : Json) : Except MixinError Mixin :=
  match Table.get? registry key with
  | some reader => reader value
  | Option.none => .ok (.verbatim value)

end MixinRegistry

/-! ## The mixins of a record -/

/-- The mixins of one record by their keys. -/
abbrev Mixins : Type :=
  Table String Mixin

namespace Mixins

/-- The mixins of the members of a record. What a reader refuses is left out. -/
def ofMembers (registry : MixinRegistry) (members : Table String Json) : Mixins :=
  members.filterMap fun key value => (registry.read key value).toOption

/-- The members that a reader refuses, with the reasons. -/
def refusals (registry : MixinRegistry) (members : Table String Json) :
    List (String × MixinError) :=
  members.entries.filterMap fun member =>
    match registry.read member.1 member.2 with
    | .ok _ => none
    | .error error => some (member.1, error)

/-- The members of a record for its mixins, in ascending order of their keys. -/
def encode (mixins : Mixins) : List (String × Json) :=
  mixins.entries.map fun entry => (entry.1, entry.2.encode)

/-- The declaration. -/
def declaration? (mixins : Mixins) : Option (List Fragment) :=
  match Table.get? mixins Mixin.declarationKey with
  | some (.declaration fragments) => some fragments
  | _ => none

/-- The availability. -/
def availability? (mixins : Mixins) : Option (List Availability) :=
  match Table.get? mixins Mixin.availabilityKey with
  | some (.availability items) => some items
  | _ => none

/-- The location. -/
def location? (mixins : Mixins) : Option Location :=
  match Table.get? mixins Mixin.locationKey with
  | some (.location location) => some location
  | _ => none

/-- The place in a group of overloads. -/
def overloadPlace? (mixins : Mixins) : Option OverloadPlace :=
  match Table.get? mixins Mixin.overloadKey with
  | some (.overload place) => some place
  | _ => none

/-- Whether the symbol is deprecated in some domain. -/
def isDeprecated (mixins : Mixins) : Bool :=
  match availability? mixins with
  | some items => items.any Availability.isDeprecated
  | none => false

/-- The mixins without the signs of zeros. -/
def unsignedZeros (mixins : Mixins) : Mixins :=
  Table.map mixins fun _ mixin => mixin.unsignedZeros

end Mixins

end ApiAtlas
