import ApiAtlas.Declaration.Simplify
import ApiAtlas.Table.Sort
import ApiAtlas.Unified.Graph

/-!
# Families of overloads

Symbols with the same language, kind and path are overloads of each other and
make up a family (`FamilyKey`). A member that is the default implementation of
another member of its family does not count (`eligible`).

The members of a family are ranked: those that are not deprecated first, then by
the text of the simplified declaration, then by identifier (`Candidate`). The
first one represents the family.
-/

set_option autoImplicit false

namespace ApiAtlas.Overload

/-- What the members of a family have in common. -/
structure FamilyKey where
  language : String
  kind : KindIdentifier
  path : List String
deriving DecidableEq, Repr

namespace FamilyKey

/-- The parts of a key in the order in which they are compared. -/
def parts (key : FamilyKey) : String × KindIdentifier × List String :=
  (key.language, key.kind, key.path)

/-- Families are ordered by language, kind and path. -/
instance : Key FamilyKey :=
  Key.along parts fun first second same => by
    simp only [parts, Prod.mk.injEq] at same
    cases first
    cases second
    simp_all

end FamilyKey

/-- The members of each family. -/
abbrev Families : Type :=
  Table FamilyKey (KeySet String)

/-- The families of keys with their members. -/
def familiesOf (members : List (FamilyKey × String)) : Families :=
  members.foldl
    (fun sofar member => sofar.alter member.1 fun family =>
      some (KeySet.add (family.getD Table.empty) member.2))
    Table.empty

/-- Whether a symbol is the default implementation of a member of a family. -/
def isDefaultIn (relationships : List Relationship) (family : KeySet String) (member : String) :
    Bool :=
  relationships.any fun relationship =>
    relationship.link.kind = .defaultImplementationOf && relationship.link.source = member &&
      family.contains relationship.link.target

/-- The members of a family that count. -/
def eligible (relationships : List Relationship) (family : KeySet String) : List String :=
  family.toList.filter fun member => !isDefaultIn relationships family member

/-- A member of a family with what it is ranked by. -/
structure Candidate where
  isDeprecated : Bool
  /-- The text of the simplified declaration; nothing without a declaration. -/
  declaration : String
  identifier : String
deriving DecidableEq, Repr

namespace Candidate

/-- The parts of a candidate in the order in which they are compared. -/
def parts (candidate : Candidate) : Bool × String × String :=
  (candidate.isDeprecated, candidate.declaration, candidate.identifier)

/-- Candidates that are not deprecated come first; then declaration and identifier decide. -/
instance : Key Candidate :=
  Key.along parts fun first second same => by
    simp only [parts, Prod.mk.injEq] at same
    cases first
    cases second
    simp_all

/-- The candidate of a symbol with a declaration or without one. -/
def of (identifier : String) (isDeprecated : Bool) (declaration : Option (List Fragment)) :
    Candidate :=
  { isDeprecated
    declaration :=
      match declaration with
      | some fragments => Fragment.textOf (Declaration.simplify fragments)
      | none => ""
    identifier }

end Candidate

/-- The names of a group: those of its representative, with the simplified declaration for
navigation and listings. -/
def groupNames (names : Names) (declaration : Option (List Fragment)) : Names :=
  match declaration with
  | some fragments =>
    { names with
      navigator := some (Declaration.simplify fragments)
      subHeading := some (Declaration.simplify fragments) }
  | none => names

/-- The mixin of a member of a group. -/
def placeMixin (group : String) (index : Nat) : Mixin :=
  .overload { group, index := index.toUInt64 }

/-- The relationship of a member to its group. -/
def membership (member group : String) : Relationship :=
  Relationship.between member group .overloadOf

/-- Whether a relationship places a symbol inside another one. -/
def placesSymbol (symbol : String) (relationship : Relationship) : Bool :=
  relationship.link.source = symbol && relationship.link.kind.isStructural

/-- The relationship with another source. -/
def withSource (source : String) (relationship : Relationship) : Relationship :=
  { relationship with link := { relationship.link with source } }

end ApiAtlas.Overload
