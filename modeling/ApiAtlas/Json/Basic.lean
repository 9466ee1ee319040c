import ApiAtlas.Decimal.Double
import ApiAtlas.Table.Basic

/-!
# JSON values

A value is a tree of objects and arrays over texts, numbers, truth values and
null. An object is a list of members in the order in which they are written. A
value whose meaning is open keeps its members in ascending order of their keys,
and each key once (`Json.sorted`); so two such values are equal as trees exactly
if they hold the same members.

Numbers are whole numbers of at most 64 bits or doubles, and a whole number
differs from a double of the same size. Zero has two signs among the doubles;
where they do not count, values are compared without them (`Json.unsignedZeros`).
-/

set_option autoImplicit false

namespace ApiAtlas

/-- A whole number that fits into 64 bits, with or without a sign. -/
structure WholeNumber where
  value : Int
  inRange : -9223372036854775808 ≤ value ∧ value < 18446744073709551616 := by decide
deriving DecidableEq, Repr

/-- A word as a whole number. -/
def WholeNumber.ofWord (word : UInt64) : WholeNumber :=
  ⟨word.toNat, by have := word.toNat_lt; omega⟩

/-- A number of a JSON text. -/
inductive JsonNumber
  | whole (number : WholeNumber)
  | double (number : Decimal.Double)
deriving DecidableEq, Repr

/-- A JSON value. -/
inductive Json
  | null
  | boolean (value : Bool)
  | number (value : JsonNumber)
  | text (value : String)
  | array (items : List Json)
  | object (members : List (String × Json))
deriving Repr

namespace Json

instance : Inhabited Json :=
  ⟨null⟩

/-! ## Equality -/

mutual

/-- Equality of values is decided along their structure. -/
def decideEq : (first second : Json) → Decidable (first = second)
  | null, null => .isTrue rfl
  | boolean first, boolean second =>
    if same : first = second then .isTrue (by rw [same])
    else .isFalse fun equal => same (Json.boolean.inj equal)
  | number first, number second =>
    if same : first = second then .isTrue (by rw [same])
    else .isFalse fun equal => same (Json.number.inj equal)
  | text first, text second =>
    if same : first = second then .isTrue (by rw [same])
    else .isFalse fun equal => same (Json.text.inj equal)
  | array first, array second =>
    match decideItems first second with
    | .isTrue same => .isTrue (by rw [same])
    | .isFalse differ => .isFalse fun equal => differ (Json.array.inj equal)
  | object first, object second =>
    match decideMembers first second with
    | .isTrue same => .isTrue (by rw [same])
    | .isFalse differ => .isFalse fun equal => differ (Json.object.inj equal)
  | null, boolean _ | null, number _ | null, text _ | null, array _ | null, object _
  | boolean _, null | boolean _, number _ | boolean _, text _ | boolean _, array _
  | boolean _, object _ | number _, null | number _, boolean _ | number _, text _
  | number _, array _ | number _, object _ | text _, null | text _, boolean _ | text _, number _
  | text _, array _ | text _, object _ | array _, null | array _, boolean _ | array _, number _
  | array _, text _ | array _, object _ | object _, null | object _, boolean _
  | object _, number _ | object _, text _ | object _, array _ =>
    .isFalse (by intro equal; cases equal)

/-- Equality of the items of two arrays. -/
def decideItems : (first second : List Json) → Decidable (first = second)
  | [], [] => .isTrue rfl
  | [], _ :: _ => .isFalse (by intro equal; cases equal)
  | _ :: _, [] => .isFalse (by intro equal; cases equal)
  | first :: firsts, second :: seconds =>
    match decideEq first second, decideItems firsts seconds with
    | .isTrue head, .isTrue tail => .isTrue (by rw [head, tail])
    | .isFalse head, _ => .isFalse fun equal => head (List.cons.inj equal).1
    | _, .isFalse tail => .isFalse fun equal => tail (List.cons.inj equal).2

/-- Equality of the members of two objects. -/
def decideMembers : (first second : List (String × Json)) → Decidable (first = second)
  | [], [] => .isTrue rfl
  | [], _ :: _ => .isFalse (by intro equal; cases equal)
  | _ :: _, [] => .isFalse (by intro equal; cases equal)
  | (key, first) :: firsts, (other, second) :: seconds =>
    match decEq key other, decideEq first second, decideMembers firsts seconds with
    | .isTrue name, .isTrue head, .isTrue tail => .isTrue (by rw [name, head, tail])
    | .isFalse name, _, _ => .isFalse fun equal => name (Prod.mk.inj (List.cons.inj equal).1).1
    | _, .isFalse head, _ => .isFalse fun equal => head (Prod.mk.inj (List.cons.inj equal).1).2
    | _, _, .isFalse tail => .isFalse fun equal => tail (List.cons.inj equal).2

end

instance : DecidableEq Json :=
  decideEq

/-! ## Passing over a value -/

mutual

/-- The value with every number replaced by its image. -/
def mapNumbers (image : JsonNumber → JsonNumber) : Json → Json
  | null => null
  | boolean value => boolean value
  | number value => number (image value)
  | text value => text value
  | array items => array (mapNumbersItems image items)
  | object members => object (mapNumbersMembers image members)

/-- The items of an array with every number replaced by its image. -/
def mapNumbersItems (image : JsonNumber → JsonNumber) : List Json → List Json
  | [] => []
  | item :: rest => mapNumbers image item :: mapNumbersItems image rest

/-- The members of an object with every number replaced by its image. -/
def mapNumbersMembers (image : JsonNumber → JsonNumber) :
    List (String × Json) → List (String × Json)
  | [] => []
  | (key, value) :: rest => (key, mapNumbers image value) :: mapNumbersMembers image rest

end

mutual

/-- The value with the members of every object in ascending order of their keys; of several members
with one key the last stays. -/
def sorted : Json → Json
  | null => null
  | boolean value => boolean value
  | number value => number value
  | text value => text value
  | array items => array (sortedItems items)
  | object members => object (Table.ofList (sortedMembers members)).entries

/-- The sorted items of an array. -/
def sortedItems : List Json → List Json
  | [] => []
  | item :: rest => sorted item :: sortedItems rest

/-- The members of an object with sorted values. -/
def sortedMembers : List (String × Json) → List (String × Json)
  | [] => []
  | (key, value) :: rest => (key, sorted value) :: sortedMembers rest

end

/-- A number without the sign of zero. -/
def unsignedZeroNumber : JsonNumber → JsonNumber
  | .whole count => .whole count
  | .double real => .double real.unsignedZero

/-- The value without the signs of zeros. -/
def unsignedZeros (value : Json) : Json :=
  value.mapNumbers unsignedZeroNumber

/-! ## Parts of a value -/

/-- The value of the first member with a key, if the value is an object that has one. -/
def member? (value : Json) (key : String) : Option Json :=
  match value with
  | object members => members.lookup key
  | _ => none

/-- The text of a value that is one. -/
def text? : Json → Option String
  | text value => some value
  | _ => none

/-- A word as a JSON value. -/
def ofWord (word : UInt64) : Json :=
  number (.whole (.ofWord word))

/-- A count as a JSON value. -/
def ofCount (count : Nat) : Json :=
  ofWord count.toUInt64

/-- A list of texts as a JSON value. -/
def ofTexts (texts : List String) : Json :=
  array (texts.map text)

/-- A member of an object that is there. -/
def field (name : String) (value : Json) : Option (String × Json) :=
  some (name, value)

/-- A member of an object that is there if it has a value. -/
def field? (name : String) (value : Option Json) : Option (String × Json) :=
  value.map (name, ·)

/-- A member of an object that is there if it is true. -/
def flag (name : String) (value : Bool) : Option (String × Json) :=
  if value then some (name, boolean true) else none

/-- The object of the members that are there. -/
def ofFields (fields : List (Option (String × Json))) : Json :=
  object (fields.filterMap id)

end Json

end ApiAtlas
