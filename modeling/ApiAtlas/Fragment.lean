import ApiAtlas.Json.Decoder

/-!
# Declaration fragments

A declaration is kept as a sequence of fragments, each a piece of its text
together with what the piece is: a keyword, a name, a parameter label, plain
text between them. A kind of fragment that is not known keeps its own name, so
that it is written as it was read.
-/

set_option autoImplicit false

namespace ApiAtlas

/-- What a fragment of a declaration is. -/
inductive FragmentKind
  | keyword
  /-- The name of an attribute, such as `@objc`. -/
  | attributeName
  | number
  | string
  | identifier
  | typeIdentifier
  | genericParameter
  /-- The name of a parameter inside the body. -/
  | internalParameter
  /-- The label of a parameter where the declared thing is used. -/
  | externalParameter
  | text
  /-- A kind without a meaning here. -/
  | other (name : String)
deriving DecidableEq, Repr

namespace FragmentKind

/-- The kinds with a meaning, in their order. -/
def known : List FragmentKind :=
  [keyword, attributeName, number, string, identifier, typeIdentifier, genericParameter,
    internalParameter, externalParameter, text]

/-- The name of a kind in documents. -/
def name : FragmentKind → String
  | keyword => "keyword"
  | attributeName => "attribute"
  | number => "number"
  | string => "string"
  | identifier => "identifier"
  | typeIdentifier => "typeIdentifier"
  | genericParameter => "genericParameter"
  | internalParameter => "internalParam"
  | externalParameter => "externalParam"
  | text => "text"
  | other name => name

/-- The kind of a name; a name without a meaning is kept. -/
def ofName (name : String) : FragmentKind :=
  (known.find? fun kind => kind.name = name).getD (other name)

/-- Whether a kind has no meaning here. -/
def isOther : FragmentKind → Bool
  | other _ => true
  | _ => false

/-- A kind's place among the known ones, then its name. -/
def place (kind : FragmentKind) : Nat × String :=
  (known.idxOf kind, kind.name)

/-- The kind at a place. -/
def ofPlace (place : Nat × String) : FragmentKind :=
  known[place.1]?.getD (other place.2)

theorem ofPlace_place (kind : FragmentKind) : ofPlace kind.place = kind := by
  cases kind <;> rfl

/-- The known kinds stand in their order, all others after them by name. -/
instance : Key FragmentKind :=
  Key.along place fun first second same => by
    rw [← ofPlace_place first, ← ofPlace_place second, same]

/-- The name of a kind is read as that kind, unless a kind without a meaning bears it. -/
theorem ofName_name {kind : FragmentKind} (unclaimed : ∀ name, kind = other name →
    ∀ meaning ∈ known, meaning.name ≠ name) : ofName kind.name = kind := by
  cases kind with
  | other name =>
    have none : known.find? (fun meaning => meaning.name = name) = none :=
      List.find?_eq_none.2 fun meaning member => by
        simpa using unclaimed name rfl meaning member
    unfold ofName
    rw [show (other name).name = name from rfl, none]
    rfl
  | _ => decide

end FragmentKind

/-- One piece of a declaration. -/
structure Fragment where
  kind : FragmentKind
  spelling : String
  /-- The identifier of the symbol that the piece refers to. -/
  reference : Option String := none
deriving DecidableEq, Repr

namespace Fragment

/-- A keyword fragment. -/
def keyword (spelling : String) : Fragment :=
  { kind := .keyword, spelling }

/-- A fragment of plain text. -/
def text (spelling : String) : Fragment :=
  { kind := .text, spelling }

/-- A fragment that names the declared thing. -/
def identifier (spelling : String) : Fragment :=
  { kind := .identifier, spelling }

/-- A parameter label. -/
def label (spelling : String) : Fragment :=
  { kind := .externalParameter, spelling }

/-- The record of a fragment. -/
def shape : RecordShape :=
  { name := "Fragment", fields := ["kind", "spelling", "preciseIdentifier"] }

/-- Reads a fragment. -/
def decode : Decoder Fragment :=
  Decoder.record shape <|
    Fragment.mk
      <$> Fields.required "kind" (fun draft => (Decoder.text draft).map FragmentKind.ofName)
      <*> Fields.required "spelling" Decoder.text
      <*> Fields.optional "preciseIdentifier" Decoder.text

/-- Writes a fragment. -/
def encode (fragment : Fragment) : Json :=
  .ofFields
    [Json.field "kind" (.text fragment.kind.name), Json.field "spelling" (.text fragment.spelling),
      Json.field? "preciseIdentifier" (fragment.reference.map .text)]

/-- Writes a sequence of fragments. -/
def encodeAll (fragments : List Fragment) : Json :=
  .array (fragments.map encode)

/-- The text of a sequence of fragments: their spellings in a row. -/
def textOf (fragments : List Fragment) : String :=
  String.join (fragments.map (·.spelling))

end Fragment

end ApiAtlas
