import ApiAtlas.Json.Basic

/-!
# Drafts of JSON values

A JSON text is read into a draft before anything is made of it. A draft is a
value that may be unfinished: where the text stops making sense, the draft holds
the fault instead of the rest (`Draft.broken`). Members stand in the order of
the text, repeated keys included.

So reading a text and judging its content are apart. A decoder walks over the
draft in the order of the text and reports what it meets first, be it a fault of
the text or content that does not fit. What a fault is called depends on what
the decoder was doing: taking the value in, passing over it (`Draft.skim`) or
waiting for the end of an array (`Fault`). A text with an unpaired surrogate and
a number that is out of range are misspelt; they count only where the value is
taken in.

Every value is a draft (`Json.draft`), and a draft without faults has a value
(`Draft.value?`), in which the members of an object are sorted and the last one
with a key stays.
-/

set_option autoImplicit false

namespace ApiAtlas

/-- What stands where something else was expected. -/
inductive Found
  | null
  | boolean (value : Bool)
  | number (value : JsonNumber)
  | text (value : String)
  | sequence
  | table
deriving DecidableEq, Repr

/-- The ways in which a text is not JSON. -/
inductive TextFault
  /-- Something stands in the text that cannot stand there. -/
  | malformed
  /-- The text ends too early. -/
  | ended
deriving DecidableEq, Repr

/-- Where a text stops making sense. -/
inductive Fault
  | malformed
  | ended
  /-- The text ends inside the word of a value. -/
  | endedInWord
  /-- The text ends inside a number. -/
  | endedInNumber
  /-- The text ends after an item or a member, where a comma or the closing bracket is due. -/
  | endedBeforeSeparator
  /-- The text ends inside a text that was misspelt before. -/
  | endedAfterMisspelling
deriving DecidableEq, Repr

namespace Fault

/-- The fault as met by one who takes the value in. -/
def whenRead : Fault → TextFault
  | ended | endedInWord | endedInNumber | endedBeforeSeparator => .ended
  | malformed | endedAfterMisspelling => .malformed

/-- The fault as met by one who passes over the value. -/
def whenSkimmed : Fault → TextFault
  | ended | endedInWord | endedBeforeSeparator | endedAfterMisspelling => .ended
  | malformed | endedInNumber => .malformed

/-- The fault as met by one who expects the closing bracket. -/
def whenClosing : Fault → TextFault
  | endedBeforeSeparator => .ended
  | _ => .malformed

/-- The fault as met by one who expects a text or an object and looks at its first glyph alone. -/
def whenOpening : Fault → TextFault
  | endedInWord | endedInNumber => .malformed
  | other => other.whenRead

end Fault

/-- A JSON value as far as a text makes sense. -/
inductive Draft
  | null
  | boolean (value : Bool)
  | number (value : JsonNumber)
  | text (value : String)
  | array (items : List Draft)
  /-- The key of a member is a text, misspelt or broken; a broken key is the end of the object. -/
  | object (members : List (Draft × Draft))
  /-- A text or a number that has the right form and no value. -/
  | misspelt
  /-- The text does not make sense from here on. -/
  | broken (fault : Fault)
deriving Repr

instance : Inhabited Draft :=
  ⟨.null⟩

/-! ## Values as drafts -/

mutual

/-- The draft of a value. -/
def Json.draft : Json → Draft
  | .null => .null
  | .boolean value => .boolean value
  | .number value => .number value
  | .text value => .text value
  | .array items => .array (Json.draftItems items)
  | .object members => .object (Json.draftMembers members)

/-- The drafts of the items of an array. -/
def Json.draftItems : List Json → List Draft
  | [] => []
  | item :: rest => Json.draft item :: Json.draftItems rest

/-- The drafts of the members of an object. -/
def Json.draftMembers : List (String × Json) → List (Draft × Draft)
  | [] => []
  | (key, value) :: rest => (.text key, Json.draft value) :: Json.draftMembers rest

end

namespace Draft

/-! ## Taking a value in -/

mutual

/-- The value of a draft in which at most so many arrays and objects stand inside each other. -/
def value? (levels : Nat) : Draft → Except TextFault Json
  | null => .ok .null
  | boolean value => .ok (.boolean value)
  | number value => .ok (.number value)
  | text value => .ok (.text value)
  | array items =>
    if levels = 0 then .error .malformed
    else (values? (levels - 1) items).map .array
  | object members =>
    if levels = 0 then .error .malformed
    else (memberValues? (levels - 1) members).map fun pairs =>
      .object (Table.ofList pairs).entries
  | misspelt => .error .malformed
  | broken fault => .error fault.whenRead

/-- The values of the items of an array. -/
def values? (levels : Nat) : List Draft → Except TextFault (List Json)
  | [] => .ok []
  | item :: rest => do
    let value ← value? levels item
    let others ← values? levels rest
    return value :: others

/-- The members of an object with their values. -/
def memberValues? (levels : Nat) : List (Draft × Draft) → Except TextFault (List (String × Json))
  | [] => .ok []
  | (key, item) :: rest => do
    let name ← key.keyText?
    let value ← value? levels item
    let others ← memberValues? levels rest
    return (name, value) :: others

/-- The text of a key. -/
def keyText? : Draft → Except TextFault String
  | text value => .ok value
  | broken fault => .error fault.whenRead
  | _ => .error .malformed

end

/-! ## Passing over a value -/

mutual

/-- Passes over a value that is of no interest and reports the first fault in it. -/
def skim : Draft → Except TextFault Unit
  | array items => skimItems items
  | object members => skimMembers members
  | broken fault => .error fault.whenSkimmed
  | _ => .ok ()

/-- Passes over the items of an array. -/
def skimItems : List Draft → Except TextFault Unit
  | [] => .ok ()
  | item :: rest => do
    skim item
    skimItems rest

/-- Passes over the members of an object. -/
def skimMembers : List (Draft × Draft) → Except TextFault Unit
  | [] => .ok ()
  | (key, item) :: rest => do
    skim key
    skim item
    skimMembers rest

end

/-- What a draft is found to be where it does not fit. -/
def found? : Draft → Except TextFault Found
  | null => .ok .null
  | boolean value => .ok (.boolean value)
  | number value => .ok (.number value)
  | text value => .ok (.text value)
  | array _ => .ok .sequence
  | object _ => .ok .table
  | misspelt => .error .malformed
  | broken fault => .error fault.whenRead

end Draft

end ApiAtlas
