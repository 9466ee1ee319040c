import ApiAtlas.Json.Printer
import ApiAtlas.Json.Reader
import ApiAtlas.Text.Quoted

/-!
# Decoding drafts

A decoder makes a value of a type out of a draft or says why it cannot. The
reasons are causes (`DecodeError`), and their wording stands in one place
(`DecodeError.message`).

A record is written as an object or as the array of its fields in order. Its
fields are read one by one and independently (`Fields`), each from its own
place in the record. If several fail, the failure that comes first in the text
counts (`Failure.earlier`); a field that is missing fails behind the last place,
and of several missing ones the first in the order of the record counts. Members
without a field of their own are passed over (`Fields.strangers`), or taken in
as they are by a record that is open (`Fields.extras`).

A text is decoded by decoding its draft (`Document.decode`). There an array with
too many items is a fault of the text, and so is anything behind the value.
-/

set_option autoImplicit false

namespace ApiAtlas

/-! ## Causes -/

/-- What would have been right. -/
inductive Expectation
  | text
  | boolean
  | sequence
  | table
  /-- A whole number of 32 bits without a sign. -/
  | word32
  /-- A whole number of 64 bits without a sign. -/
  | word64
  /-- The value null. -/
  | nothing
  | textOrTable
  | singleMember
  | record (name : String)
  | recordFields (name : String) (count : Nat)
  | fewerItems
deriving DecidableEq, Repr

/-- Why a draft could not be decoded. -/
inductive DecodeError
  /-- The text is not JSON. -/
  | text (fault : TextFault)
  | missingField (name : String)
  | duplicateField (name : String)
  | wrongType (found : Found) (expected : Expectation)
  | wrongValue (found : Found) (expected : Expectation)
  | wrongLength (count : Nat) (expected : Expectation)
  | unknownChoice (name : String) (choices : List String)
deriving DecidableEq, Repr

/-- What was found, in words. -/
def Found.message : Found → String
  | .null => "null"
  | .boolean value => s!"boolean `{Json.compact (.boolean value)}`"
  | .number (.whole count) => s!"integer `{count.value}`"
  | .number (.double real) => s!"floating point `{Json.numberText (.double real)}`"
  | .text value => s!"string {Text.quotedText value}"
  | .sequence => "sequence"
  | .table => "map"

/-- What was expected, in words. -/
def Expectation.message : Expectation → String
  | text => "a string"
  | boolean => "a boolean"
  | sequence => "a sequence"
  | table => "a map"
  | word32 => "u32"
  | word64 => "usize"
  | nothing => "unit"
  | textOrTable => "string or map"
  | singleMember => "map with a single key"
  | record name => s!"struct {name}"
  | recordFields name count => s!"struct {name} with {count} elements"
  | fewerItems => "fewer elements in array"

/-- A list of names in words: two with "or" between them, more after "one of". -/
def choicesMessage : List String → String
  | [] => "there are no variants"
  | [only] => s!"expected `{only}`"
  | [first, second] => s!"expected `{first}` or `{second}`"
  | several => "expected one of " ++ ", ".intercalate (several.map fun name => s!"`{name}`")

/-- Why a draft could not be decoded, in words. Faults of the text itself have none. -/
def DecodeError.message : DecodeError → String
  | text _ => ""
  | missingField name => s!"missing field `{name}`"
  | duplicateField name => s!"duplicate field `{name}`"
  | wrongType found expected => s!"invalid type: {found.message}, expected {expected.message}"
  | wrongValue found expected => s!"invalid value: {found.message}, expected {expected.message}"
  | wrongLength count expected => s!"invalid length {count}, expected {expected.message}"
  | unknownChoice name choices => s!"unknown variant `{name}`, {choicesMessage choices}"

/-- What is being decoded: a text as it is read, or a value that is known as a whole. -/
inductive Origin
  | text
  | value
deriving DecidableEq, Repr

/-! ## Decoders -/

/-- A way to make a value out of a draft. -/
abbrev Decoder (α : Type) : Type :=
  Draft → Except DecodeError α

/-- The error of a draft that is not of the expected type. -/
def Draft.refuse (draft : Draft) (expected : Expectation) : DecodeError :=
  match draft.found? with
  | .ok found => .wrongType found expected
  | .error fault => .text fault

namespace Decoder

/-- A text. -/
def text : Decoder String
  | .text value => .ok value
  | other => .error (other.refuse .text)

/-- A truth value. -/
def boolean : Decoder Bool
  | .boolean value => .ok value
  | other => .error (other.refuse .boolean)

/-- A whole number without a sign below a limit. -/
def natural (limit : Nat) (expected : Expectation) : Decoder Nat
  | .number (.whole count) =>
    if 0 ≤ count.value ∧ count.value < limit then .ok count.value.toNat
    else .error (.wrongValue (.number (.whole count)) expected)
  | other => .error (other.refuse expected)

/-- A whole number of 32 bits without a sign. -/
def word32 : Decoder UInt32 := fun draft =>
  (natural 4294967296 .word32 draft).map Nat.toUInt32

/-- A whole number of 64 bits without a sign. -/
def word64 : Decoder UInt64 := fun draft =>
  (natural 18446744073709551616 .word64 draft).map Nat.toUInt64

/-- A value or null. -/
def orNull {α : Type} (decoder : Decoder α) : Decoder (Option α)
  | .null => .ok none
  | other => (decoder other).map some

/-- All items in their order, up to the first that cannot be decoded. -/
def items {α : Type} (decoder : Decoder α) : List Draft → Except DecodeError (List α)
  | [] => .ok []
  | item :: rest => do
    let value ← decoder item
    let others ← items decoder rest
    return value :: others

/-- A list. -/
def list {α : Type} (decoder : Decoder α) : Decoder (List α)
  | .array drafts => items decoder drafts
  | other => .error (other.refuse .sequence)

/-- Any value with at most so many levels of arrays and objects. -/
def value (levels : Nat) : Decoder Json := fun draft =>
  (draft.value? levels).mapError .text

/-- Nothing but null. -/
def nothing : Decoder Unit
  | .null => .ok ()
  | other => .error (other.refuse .nothing)

end Decoder

/-! ## Fields of records -/

/-- The name of a record and the names of its fields in order. -/
structure RecordShape where
  name : String
  fields : List String
deriving DecidableEq, Repr

/-- The parts of a record: the members of an object, or the items of an array. -/
inductive RecordParts
  | members (members : List (Draft × Draft))
  | items (items : List Draft)

/-- An error at a place of a record. -/
structure Failure where
  place : Nat
  error : DecodeError

/-- Of two failures the one at the earlier place; at one place the first. -/
def Failure.earlier (first second : Failure) : Failure :=
  if second.place < first.place then second else first

/-- A way to read fields of a record. -/
def Fields (α : Type) : Type :=
  RecordShape → RecordParts → Except Failure α

namespace Fields

variable {α β : Type}

/-- Both readings; of two failures the earlier one counts. -/
def both (first : Fields (α → β)) (second : Fields α) : Fields β := fun shape parts =>
  match first shape parts, second shape parts with
  | .ok build, .ok value => .ok (build value)
  | .error failure, .ok _ => .error failure
  | .ok _, .error failure => .error failure
  | .error failure, .error other => .error (failure.earlier other)

instance : Applicative Fields where
  pure value := fun _ _ => .ok value
  map build fields := fun shape parts => (fields shape parts).map build
  seq first second := both first (second ())

/-- Whether a member has a key. -/
def isNamed (name : String) (member : Draft × Draft) : Bool :=
  match member.1 with
  | .text key => key = name
  | _ => false

/-- The members with a key and their places. -/
def named (name : String) (members : List (Draft × Draft)) : List ((Draft × Draft) × Nat) :=
  members.zipIdx.filter fun member => isNamed name member.1

/-- A field that may be missing. A second member with its key is an error. -/
def field? (name : String) (decoder : Decoder α) : Fields (Option α) := fun shape parts =>
  match parts with
  | .members members =>
    match named name members with
    | [] => .ok none
    | (member, place) :: repeated =>
      match decoder member.2, repeated with
      | .error error, _ => .error ⟨place, error⟩
      | .ok value, [] => .ok (some value)
      | .ok _, (_, again) :: _ => .error ⟨again, .duplicateField name⟩
  | .items items =>
    let place := shape.fields.idxOf name
    match items[place]? with
    | none => .ok none
    | some item =>
      match decoder item with
      | .ok value => .ok (some value)
      | .error error => .error ⟨place, error⟩

/-- The failure of a field that is missing: behind the last place of the record. -/
def missing (name : String) (shape : RecordShape) : RecordParts → Failure
  | .members members => ⟨members.length, .missingField name⟩
  | .items _ =>
    let place := shape.fields.idxOf name
    ⟨place, .wrongLength place (.recordFields shape.name shape.fields.length)⟩

/-- A field that must be there. -/
def required (name : String) (decoder : Decoder α) : Fields α := fun shape parts =>
  match field? name decoder shape parts with
  | .ok (some value) => .ok value
  | .ok none => .error (missing name shape parts)
  | .error failure => .error failure

/-- A field with a value to take if it is missing. -/
def withDefault (name : String) (default : α) (decoder : Decoder α) : Fields α :=
  (·.getD default) <$> field? name decoder

/-- A field that may be missing or null. -/
def optional (name : String) (decoder : Decoder α) : Fields (Option α) :=
  withDefault name none (Decoder.orNull decoder)

/-- Passes over a member without a field of its own, but not over a key that cannot be read. -/
def skimStranger (shape : RecordShape) (member : Draft × Draft) : Except DecodeError Unit := do
  let key ← member.1.keyText?.mapError .text
  if key ∈ shape.fields then
    return ()
  else
    member.2.skim.mapError .text

/-- The first failure of a check of members in their order. -/
def checkMembers (check : Draft × Draft → Except DecodeError Unit) (place : Nat) :
    List (Draft × Draft) → Except Failure Unit
  | [] => .ok ()
  | member :: rest =>
    match check member with
    | .ok _ => checkMembers check (place + 1) rest
    | .error error => .error ⟨place, error⟩

/-- The error of an item behind the last field, in an array of so many items. -/
def surplus (count : Nat) : Draft → DecodeError
  | .broken fault => .text fault.whenClosing
  | _ => .wrongLength count .fewerItems

/-- Everything in a record that belongs to no field: members are passed over, items are too many. -/
def strangers : Fields Unit := fun shape parts =>
  match parts with
  | .members members => checkMembers (skimStranger shape) 0 members
  | .items items =>
    match items[shape.fields.length]? with
    | none => .ok ()
    | some item => .error ⟨shape.fields.length, surplus items.length item⟩

/-- Members without a field of their own, with the values that they have within the levels. -/
def extraMembers (levels : Nat) (shape : RecordShape) (place : Nat) :
    List (Draft × Draft) → Except Failure (List (String × Json))
  | [] => .ok []
  | (key, item) :: rest =>
    match key.keyText? with
    | .error fault => .error ⟨place, .text fault⟩
    | .ok name =>
      if name ∈ shape.fields then
        extraMembers levels shape (place + 1) rest
      else
        match item.value? levels with
        | .error fault => .error ⟨place, .text fault⟩
        | .ok value => (extraMembers levels shape (place + 1) rest).map ((name, value) :: ·)

/-- All members of a record without a field of their own; of several with one key the last stays. -/
def extras (levels : Nat) : Fields (Table String Json) := fun shape parts =>
  match parts with
  | .members members => (extraMembers levels shape 0 members).map Table.ofList
  | .items _ => .ok Table.empty

end Fields

namespace Decoder

/-- A record: an object of its fields, or the array of them in order. -/
def record {α : Type} (shape : RecordShape) (fields : Fields α) : Decoder α := fun draft =>
  let whole : Fields α := (fun value _ => value) <$> fields <*> Fields.strangers
  match draft with
  | .object members => (whole shape (.members members)).mapError (·.error)
  | .array items => (whole shape (.items items)).mapError (·.error)
  | other => .error (other.refuse (.record shape.name))

/-- A record that keeps the members without a field of their own. It is always an object. -/
def openRecord {α : Type} (shape : RecordShape) (levels : Nat)
    (fields : Fields (Table String Json → α)) : Decoder α := fun draft =>
  match draft with
  | .object members =>
    ((fields <*> Fields.extras levels) shape (.members members)).mapError (·.error)
  | other => .error (other.refuse (.record shape.name))

/-! ## Choices -/

/-- The choice with a name. -/
def choiceNamed {α : Type} (choices : List (String × α)) (name : String) : Except DecodeError α :=
  match choices.lookup name with
  | some choice => .ok choice
  | none => .error (.unknownChoice name (choices.map (·.1)))

/-- The choice that a key names. -/
def choiceOfKey {α : Type} (choices : List (String × α)) : Decoder α
  | .text name => choiceNamed choices name
  | .broken fault => .error (.text fault.whenRead)
  | _ => .error (.text .malformed)

/-- The choice that an object of a text names. The one member is read in the order of the text: the
key, the value and the closing brace. -/
def choiceOfMembers {α : Type} (choices : List (String × α)) :
    List (Draft × Draft) → Except DecodeError α
  | [] => .error (.text .malformed)
  | (key, item) :: rest => do
    let choice ← choiceOfKey choices key
    nothing item
    match rest with
    | [] => return choice
    | (.broken fault, _) :: _ => throw (.text fault.whenClosing)
    | _ => throw (.text .malformed)

/-- The choice that an object names, once the whole object is known. -/
def choiceOfObject {α : Type} (choices : List (String × α)) :
    List (Draft × Draft) → Except DecodeError α
  | [(key, item)] => do
    let choice ← choiceOfKey choices key
    nothing item
    return choice
  | _ => .error (.wrongValue .table .singleMember)

/-- One of several choices: its name, or the object that has only its name as a key and null as the
value of it. -/
def choice {α : Type} (origin : Origin) (choices : List (String × α)) : Decoder α
  | .text name => choiceNamed choices name
  | .object members =>
    match origin with
    | .text => choiceOfMembers choices members
    | .value => choiceOfObject choices members
  | .broken fault => .error (.text fault.whenOpening)
  | other =>
    match origin with
    | .text => .error (.text .malformed)
    | .value => .error (other.refuse .textOrTable)

end Decoder

/-! ## Texts and values -/

/-- The error as it is reported for a text: there an array that is too long is a fault of the
text. -/
def DecodeError.inText : DecodeError → DecodeError
  | .wrongLength _ .fewerItems => .text .malformed
  | other => other

/-- Decodes a text. -/
def Document.decode {α : Type} (document : Document) (decoder : Decoder α) :
    Except DecodeError α := do
  let value ← (decoder document.root).mapError DecodeError.inText
  if document.isWhole then return value else throw (.text .malformed)

/-- Decodes a value. -/
def Json.decode {α : Type} (value : Json) (decoder : Decoder α) : Except DecodeError α :=
  decoder value.draft

end ApiAtlas
