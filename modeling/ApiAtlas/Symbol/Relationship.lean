import ApiAtlas.Symbol.Mixin

/-!
# Relationships

A relationship leads from one symbol to another and says how the first relates
to the second. Its ends, its kind and the text that stands in for an end outside
the graph make up its link, and the link alone tells relationships apart; mixins
only describe it.
-/

set_option autoImplicit false

namespace ApiAtlas

/-- How one symbol relates to another. -/
inductive RelationshipKind
  /-- The first is a member of the second. -/
  | memberOf
  | conformsTo
  | inheritsFrom
  /-- The first is the default implementation of the requirement that is the second. -/
  | defaultImplementationOf
  | overrides
  | requirementOf
  | optionalRequirementOf
  | extensionTo
  | references
  /-- The first is one of the overloads in the group that is the second. -/
  | overloadOf
  /-- A kind without a meaning here. -/
  | other (name : String)
deriving DecidableEq, Repr

namespace RelationshipKind

/-- The kinds with a meaning, in their order. -/
def known : List RelationshipKind :=
  [memberOf, conformsTo, inheritsFrom, defaultImplementationOf, overrides, requirementOf,
    optionalRequirementOf, extensionTo, references, overloadOf]

/-- The name of a kind in documents. -/
def name : RelationshipKind → String
  | memberOf => "memberOf"
  | conformsTo => "conformsTo"
  | inheritsFrom => "inheritsFrom"
  | defaultImplementationOf => "defaultImplementationOf"
  | overrides => "overrides"
  | requirementOf => "requirementOf"
  | optionalRequirementOf => "optionalRequirementOf"
  | extensionTo => "extensionTo"
  | references => "references"
  | overloadOf => "overloadOf"
  | other name => name

/-- The kind of a name; a name without a meaning is kept. -/
def ofName (name : String) : RelationshipKind :=
  (known.find? fun kind => kind.name = name).getD (other name)

/-- Whether a kind has no meaning here. -/
def isOther : RelationshipKind → Bool
  | other _ => true
  | _ => false

/-- Whether a kind places the first symbol inside the second. -/
def isStructural : RelationshipKind → Bool
  | memberOf | requirementOf | optionalRequirementOf | extensionTo => true
  | _ => false

/-- A kind's place among the known ones, then its name. -/
def place (kind : RelationshipKind) : Nat × String :=
  (known.idxOf kind, kind.name)

/-- The kind at a place. -/
def ofPlace (place : Nat × String) : RelationshipKind :=
  known[place.1]?.getD (other place.2)

theorem ofPlace_place (kind : RelationshipKind) : ofPlace kind.place = kind := by
  cases kind <;> rfl

/-- The known kinds stand in their order, all others after them by name. -/
instance : Key RelationshipKind :=
  Key.along place fun first second same => by
    rw [← ofPlace_place first, ← ofPlace_place second, same]

end RelationshipKind

/-- What tells one relationship from another. -/
structure Link where
  source : String
  target : String
  kind : RelationshipKind
  /-- The text to show for a target outside the graph. -/
  targetFallback : Option String := none
deriving DecidableEq, Repr

namespace Link

/-- The parts of a link in the order in which they are compared. -/
def parts (link : Link) : String × String × RelationshipKind × Option String :=
  (link.source, link.target, link.kind, link.targetFallback)

/-- Links are ordered by source, target, kind and fallback. -/
instance : Key Link :=
  Key.along parts fun first second same => by
    simp only [parts, Prod.mk.injEq] at same
    cases first
    cases second
    simp_all

end Link

/-- A relationship between two symbols. -/
structure Relationship where
  link : Link
  mixins : Mixins := Table.empty
deriving DecidableEq

namespace Relationship

/-- A relationship of two symbols about which nothing else is known. -/
def between (source target : String) (kind : RelationshipKind) : Relationship :=
  { link := { source, target, kind } }

/-- The relationship without the signs of zeros. -/
def unsignedZeros (relationship : Relationship) : Relationship :=
  { relationship with mixins := Mixins.unsignedZeros relationship.mixins }

/-- Whether two relationships are equal but for the signs of zeros. -/
def alike (first second : Relationship) : Bool :=
  first.unsignedZeros = second.unsignedZeros

/-- The number of levels that are left for a value inside a record of a graph. -/
def valueLevels : Nat :=
  124

/-- The record of a relationship. -/
def shape : RecordShape :=
  { name := "RawRelationship", fields := ["source", "target", "kind", "targetFallback"] }

/-- Reads a link and the other members of its record. -/
def decode : Decoder (Link × Table String Json) :=
  Decoder.openRecord shape valueLevels <|
    (fun source target kind targetFallback members =>
        ({ source, target, kind, targetFallback }, members))
      <$> Fields.required "source" Decoder.text
      <*> Fields.required "target" Decoder.text
      <*> Fields.required "kind"
        (fun draft => (Decoder.text draft).map RelationshipKind.ofName)
      <*> Fields.optional "targetFallback" Decoder.text

/-- Writes a relationship. -/
def encode (relationship : Relationship) : Json :=
  .object <|
    [Json.field "source" (.text relationship.link.source),
        Json.field "target" (.text relationship.link.target),
        Json.field "kind" (.text relationship.link.kind.name),
        Json.field? "targetFallback" (relationship.link.targetFallback.map .text)].filterMap id ++
      Mixins.encode relationship.mixins

end Relationship

end ApiAtlas
