import ApiAtlas.Proofs.Json.Outcomes

/-!
# Changes that are carried over

A change of a draft is carried over by a decoder (`Decoder.Carries`) if what could be
decoded before can be decoded after it, to an image of what was made. From the inside to
the outside that holds of a change of members beside the fields of an open record
(`Decoder.carries_openRecord`), of one item of a list (`Decoder.Carries.list`) and of
one field of a record (`Fields.withDefault_mapField`).

All else is untouched, since fields read nothing but what stands under their own names
(`Fields.Ignores`). A member that is put in or left out moves those behind it, and with
them the places of failures. So readings are compared where they succeed, and nothing is
said of where a reading fails.
-/

set_option autoImplicit false

namespace ApiAtlas

variable {α β : Type}

/-! ## Members under a key -/

namespace Fields

variable {key name : String} {members : List (Draft × Draft)}

theorem isNamed_iff {member : Draft × Draft} :
    isNamed name member = true ↔ member.1 = .text name := by
  unfold isNamed
  split <;> simp_all

/-- The members that do not stand under a key. -/
def leaveOut (key : String) (members : List (Draft × Draft)) : List (Draft × Draft) :=
  members.filter fun member => !isNamed key member

/-- The members with a content under a key, at a place among the others. Without a content the key
is left out. -/
def put (key : String) (place : Nat) (content : Option Draft) (members : List (Draft × Draft)) :
    List (Draft × Draft) :=
  (leaveOut key members).take place ++ (content.map (Draft.text key, ·)).toList ++
    (leaveOut key members).drop place

theorem filter_leaveOut_self : (leaveOut key members).filter (isNamed key) = [] := by
  rw [leaveOut, List.filter_filter, List.filter_eq_nil_iff]
  simp

/-- Under other names leaving out a key changes nothing. -/
theorem filter_leaveOut_of_ne (other : name ≠ key) :
    (leaveOut key members).filter (isNamed name) = members.filter (isNamed name) := by
  rw [leaveOut, List.filter_filter]
  refine List.filter_congr fun member _ => ?_
  by_cases named : isNamed name member = true
  · have apart : isNamed key member = false := by
      rw [← Bool.not_eq_true, isNamed_iff, isNamed_iff.1 named]
      exact fun same => other (Draft.text.inj same)
    rw [named, apart]
    rfl
  · rw [Bool.not_eq_true] at named
    rw [named]
    rfl

theorem mem_put {place : Nat} {content : Option Draft} {member : Draft × Draft} :
    member ∈ put key place content members ↔
      member ∈ leaveOut key members ∨ ∃ item, content = some item ∧ member = (.text key, item) := by
  have others : member ∈ leaveOut key members ↔ member ∈ (leaveOut key members).take place ∨
      member ∈ (leaveOut key members).drop place := by
    rw [← List.mem_append, List.take_append_drop]
  cases content <;> simp [put, others, or_assoc, or_comm]

/-- Under the key stands the content. -/
theorem filter_put_self (place : Nat) (content : Option Draft) :
    (put key place content members).filter (isNamed key) =
      (content.map (Draft.text key, ·)).toList := by
  have none : ∀ part : List (Draft × Draft), part.Sublist (leaveOut key members) →
      part.filter (isNamed key) = [] := by
    intro part within
    have filtered := within.filter (isNamed key)
    rwa [filter_leaveOut_self, List.sublist_nil] at filtered
  rw [put, List.filter_append, List.filter_append, none _ (List.take_sublist _ _),
    none _ (List.drop_sublist _ _), List.nil_append, List.append_nil]
  cases content <;> simp [isNamed]

/-- Under other names putting in a content changes nothing. -/
theorem filter_put_of_ne (other : name ≠ key) (place : Nat) (content : Option Draft) :
    (put key place content members).filter (isNamed name) = members.filter (isNamed name) := by
  have none : (content.map (Draft.text key, ·)).toList.filter (isNamed name) = [] := by
    cases content <;> simp [isNamed, other.symm]
  rw [put, List.filter_append, List.filter_append, none, List.append_nil, ← List.filter_append,
    List.take_append_drop, filter_leaveOut_of_ne other]

end Fields

/-! ## Fields and what they read -/

namespace Fields

variable {name : String} {decoder : Decoder α} {shape : RecordShape} {found : Option α}

/-- A field is read from the members with its name, of which there may be one. -/
theorem field?_members_iff {members : List (Draft × Draft)} :
    field? name decoder shape (.members members) = .ok found ↔
      (members.filter (isNamed name)).map (fun member => decoder member.2) =
        found.toList.map .ok := by
  rw [← map_fst_named, List.map_map]
  simp only [field?]
  split
  · next none =>
    cases found <;> simp [none]
  · next member place repeated first =>
    rw [first]
    cases decoded : decoder member.2 <;> cases repeated <;> cases found <;> simp [decoded]

/-- A field is read from the item at its place. -/
theorem field?_items_iff {items : List Draft} :
    field? name decoder shape (.items items) = .ok found ↔
      (items[shape.fields.idxOf name]?).map decoder = found.map .ok := by
  simp only [field?]
  split
  · next none =>
    cases found <;> simp [none]
  · next item stands =>
    cases decoded : decoder item <;> cases found <;> simp [stands, decoded]

theorem withDefault_eq_ok_iff {default made : α} {parts : RecordParts} :
    withDefault name default decoder shape parts = .ok made ↔
      ∃ found, field? name decoder shape parts = .ok found ∧ found.getD default = made :=
  Outcome.map_eq_ok_iff

end Fields

/-- Two records differ in nothing but what stands under a key. -/
inductive RecordParts.SameBut (shape : RecordShape) (key : String) :
    RecordParts → RecordParts → Prop
  | members {first second : List (Draft × Draft)} :
    (∀ name, name ≠ key →
      second.filter (Fields.isNamed name) = first.filter (Fields.isNamed name)) →
    SameBut shape key (.members first) (.members second)
  | items {first second : List Draft} : key ∈ shape.fields →
    (∀ place, place ≠ shape.fields.idxOf key → second[place]? = first[place]?) →
    SameBut shape key (.items first) (.items second)

/-- What is read does not depend on what stands under a key. -/
def Fields.Ignores (fields : Fields α) (key : String) : Prop :=
  ∀ ⦃shape first second made⦄, RecordParts.SameBut shape key first second →
    fields shape first = .ok made → fields shape second = .ok made

namespace Fields

variable {name key : String} {decoder : Decoder α}

theorem Ignores.map {fields : Fields α} (ignores : fields.Ignores key) (image : α → β) :
    (image <$> fields).Ignores key := by
  intro shape first second made same read
  obtain ⟨value, own, rfl⟩ := Outcome.map_eq_ok_iff.1 read
  exact Outcome.map_eq_ok_iff.2 ⟨value, ignores same own, rfl⟩

theorem Ignores.seq {build : Fields (α → β)} {fields : Fields α} (built : build.Ignores key)
    (ignores : fields.Ignores key) : (build <*> fields).Ignores key := by
  intro shape first second made same read
  obtain ⟨image, value, one, two, rfl⟩ := both_eq_ok_iff.1 read
  exact both_eq_ok_iff.2 ⟨image, value, built same one, ignores same two, rfl⟩

/-- A field ignores what stands under other keys. -/
theorem ignores_field? (other : name ≠ key) : (field? name decoder).Ignores key := by
  intro shape first second made same read
  cases same with
  | members same =>
    rw [field?_members_iff] at read ⊢
    rwa [same name other]
  | items own same =>
    have apart : shape.fields.idxOf name ≠ shape.fields.idxOf key :=
      fun equal => other ((List.idxOf_inj own).1 equal.symm).symm
    rw [field?_items_iff] at read ⊢
    rwa [same _ apart]

theorem ignores_required (other : name ≠ key) : (required name decoder).Ignores key := by
  intro shape first second made same read
  unfold required at read ⊢
  split at read
  · next found =>
    cases read
    rw [ignores_field? other same found]
  · cases read
  · cases read

theorem ignores_withDefault {default : α} (other : name ≠ key) :
    (withDefault name default decoder).Ignores key :=
  (ignores_field? other).map _

theorem ignores_optional (other : name ≠ key) : (optional name decoder).Ignores key :=
  ignores_withDefault other

end Fields

/-! ## Changes of drafts -/

/-- What is decoded from a draft is still decoded after a change of it, to an image of what was
made. -/
def Decoder.Carries (decoder : Decoder α) (change : Draft → Draft) (image : α → α) : Prop :=
  ∀ draft made, decoder draft = .ok made → decoder (change draft) = .ok (image made)

namespace Draft

/-- An array with a change of one of its items. -/
def mapItem (place : Nat) (change : Draft → Draft) : Draft → Draft
  | array items => array (items.modify place change)
  | other => other

/-- An object with a change of its members. -/
def mapMembers (change : List (Draft × Draft) → List (Draft × Draft)) : Draft → Draft
  | object members => object (change members)
  | other => other

end Draft

/-- The members of an object with a change of those with a name. -/
def Fields.mapNamed (name : String) (change : Draft → Draft) (members : List (Draft × Draft)) :
    List (Draft × Draft) :=
  members.map fun member => if isNamed name member then (member.1, change member.2) else member

/-- The parts of a record with a change of what stands in a field. -/
def RecordParts.mapField (shape : RecordShape) (name : String) (change : Draft → Draft) :
    RecordParts → RecordParts
  | members held => .members (Fields.mapNamed name change held)
  | items held => .items (held.modify (shape.fields.idxOf name) change)

/-- A record with a change of what stands in a field. -/
def Draft.mapField (shape : RecordShape) (name : String) (change : Draft → Draft) : Draft → Draft
  | object members => object (Fields.mapNamed name change members)
  | array items => array (items.modify (shape.fields.idxOf name) change)
  | other => other

/-! ## One item of a list -/

namespace Decoder

variable {decoder : Decoder α} {change : Draft → Draft} {image : α → α}

theorem Carries.items (carries : decoder.Carries change image) {drafts : List Draft}
    {made : List α} (read : Decoder.items decoder drafts = .ok made) (place : Nat) :
    Decoder.items decoder (drafts.modify place change) = .ok (made.modify place image) := by
  induction drafts generalizing made place with
  | nil =>
    cases read
    rw [List.modify_nil, List.modify_nil]
    rfl
  | cons draft rest ih =>
    rw [Decoder.items, Outcome.bind_eq_ok_iff] at read
    obtain ⟨first, decoded, read⟩ := read
    obtain ⟨others, further, same⟩ := Outcome.bind_eq_ok_iff.1 read
    cases same
    cases place with
    | zero =>
      rw [List.modify_zero_cons, Decoder.items, carries draft first decoded, further]
      rfl
    | succ place =>
      rw [List.modify_succ_cons, Decoder.items, decoded, ih further place]
      rfl

/-- **A change of one item of a list is carried over.** -/
theorem Carries.list (carries : decoder.Carries change image) (place : Nat) :
    (Decoder.list decoder).Carries (Draft.mapItem place change)
      (fun made => made.modify place image) := by
  intro draft made read
  cases draft with
  | array drafts => exact carries.items read place
  | _ => cases read

end Decoder

/-! ## One field of a record -/

theorem Draft.parts?_mapField (shape : RecordShape) (name : String) (change : Draft → Draft)
    (draft : Draft) : (draft.mapField shape name change).parts? =
      draft.parts?.map (RecordParts.mapField shape name change) := by
  cases draft <;> rfl

namespace Fields

variable {name : String} {decoder : Decoder α} {shape : RecordShape} {parts : RecordParts}
  {change : Draft → Draft}

/-- A change of the members with a name is one of those that are read under it. -/
theorem filter_mapNamed (members : List (Draft × Draft)) (other : String) :
    (mapNamed name change members).filter (isNamed other) =
      (members.filter (isNamed other)).map fun member =>
        if other = name then (member.1, change member.2) else member := by
  have same : isNamed other ∘ (fun member : Draft × Draft =>
      if isNamed name member then (member.1, change member.2) else member) = isNamed other := by
    funext member
    show isNamed other (if isNamed name member then (member.1, change member.2) else member) = _
    split <;> rfl
  rw [mapNamed, List.filter_map, same]
  refine List.map_congr_left fun member within => ?_
  have stands : member.1 = .text other := isNamed_iff.1 (List.mem_filter.1 within).2
  by_cases equal : other = name
  · rw [if_pos equal, if_pos (isNamed_iff.2 (equal ▸ stands))]
  · rw [if_neg equal, if_neg]
    rw [isNamed_iff, stands]
    exact fun same => equal (Draft.text.inj same)

theorem sameBut_mapField (own : name ∈ shape.fields) (change : Draft → Draft)
    (parts : RecordParts) : parts.SameBut shape name (parts.mapField shape name change) := by
  cases parts with
  | members held =>
    refine .members fun other apart => ?_
    rw [filter_mapNamed]
    simp [apart]
  | items held =>
    refine .items own fun place apart => ?_
    simp [apart.symm]

/-- What stands in a field is decoded after a change that its decoder carries over. -/
theorem field?_mapField {image : α → α} (carries : decoder.Carries change image)
    {found : Option α} (read : field? name decoder shape parts = .ok found) :
    field? name decoder shape (parts.mapField shape name change) = .ok (found.map image) := by
  cases parts with
  | members held =>
    rw [field?_members_iff] at read
    rw [RecordParts.mapField, field?_members_iff, filter_mapNamed]
    cases found with
    | none => simpa using read
    | some made =>
      obtain ⟨member, only, decoded⟩ := List.map_eq_singleton_iff.1 read
      simp [only, carries _ _ decoded]
  | items held =>
    rw [field?_items_iff] at read
    rw [RecordParts.mapField, field?_items_iff, List.getElem?_modify]
    cases found with
    | none => simpa using read
    | some made =>
      obtain ⟨item, stands, decoded⟩ := Option.map_eq_some_iff.1 read
      simp [stands, carries _ _ decoded]

theorem withDefault_mapField {default made : α} {image : α → α}
    (carries : decoder.Carries change image) (fixed : image default = default)
    (read : withDefault name default decoder shape parts = .ok made) :
    withDefault name default decoder shape (parts.mapField shape name change) =
      .ok (image made) := by
  obtain ⟨found, own, rfl⟩ := withDefault_eq_ok_iff.1 read
  refine withDefault_eq_ok_iff.2 ⟨found.map image, field?_mapField carries own, ?_⟩
  cases found with
  | none => exact fixed.symm
  | some value => rfl

theorem checkMembers_eq_ok_iff {check : Draft × Draft → Except DecodeError Unit}
    {members : List (Draft × Draft)} {place : Nat} :
    checkMembers check place members = .ok () ↔ ∀ member ∈ members, check member = .ok () := by
  induction members generalizing place with
  | nil => simp [checkMembers]
  | cons member rest ih =>
    rw [checkMembers, List.forall_mem_cons]
    cases check member with
    | ok value => simp [ih]
    | error error => simp

/-- What stands in a field is no stranger to the record. -/
theorem strangers_mapField (own : name ∈ shape.fields) (change : Draft → Draft)
    (read : strangers shape parts = .ok ()) :
    strangers shape (parts.mapField shape name change) = .ok () := by
  cases parts with
  | members held =>
    refine checkMembers_eq_ok_iff.2 (List.forall_mem_map.2 fun member within => ?_)
    split
    · next named =>
      rw [skimStranger, isNamed_iff.1 named]
      exact if_pos own
    · exact checkMembers_eq_ok_iff.1 read member within
  | items held =>
    have few : held[shape.fields.length]? = none := by
      simp only [strangers] at read
      split at read
      · next none => exact none
      · cases read
    have still : (held.modify (shape.fields.idxOf name) change)[shape.fields.length]? = none := by
      rwa [List.getElem?_eq_none_iff, List.length_modify, ← List.getElem?_eq_none_iff]
    simp only [RecordParts.mapField, strangers, still]

end Fields

/-! ## Members of an open record -/

namespace Fields

variable {levels : Nat} {shape : RecordShape} {members : List (Draft × Draft)} {key : String}

/-- A member is taken in beside the fields, or belongs to one of them. -/
def IsTakenIn (levels : Nat) (shape : RecordShape) (member : Draft × Draft) : Prop :=
  ∃ name, member.1 = .text name ∧
    (name ∈ shape.fields ∨ ∃ value, member.2.value? levels = .ok value)

/-- It can be told of the members one by one whether they are taken in. -/
theorem exists_extraMembers_iff {place : Nat} :
    (∃ pairs, extraMembers levels shape place members = .ok pairs) ↔
      ∀ member ∈ members, IsTakenIn levels shape member := by
  induction members generalizing place with
  | nil => simp [extraMembers]
  | cons member rest ih =>
    obtain ⟨written, item⟩ := member
    rw [List.forall_mem_cons, ← @ih (place + 1), extraMembers]
    cases written with
    | text name =>
      by_cases own : name ∈ shape.fields
      · simp [Draft.keyText?, IsTakenIn, own]
      · cases taken : item.value? levels with
        | error fault => simp [Draft.keyText?, IsTakenIn, own, taken]
        | ok value => simp [Draft.keyText?, IsTakenIn, own, taken, Outcome.map_eq_ok_iff]
    | _ => simp [Draft.keyText?, IsTakenIn]

/-- A content put under a key is taken in with its value, and nothing else changes. -/
theorem extras_put (strange : key ∉ shape.fields) (place : Nat) {table : Table String Json}
    (taken : extras levels shape (.members members) = .ok table) {content : Option Draft}
    {value : Option Json} (valued : content.map (Draft.value? levels) = value.map .ok) :
    extras levels shape (.members (put key place content members)) =
      .ok (table.alter key fun _ => value) := by
  obtain ⟨pairs, before, rfl⟩ := Outcome.map_eq_ok_iff.1 taken
  have all : ∀ member ∈ put key place content members, IsTakenIn levels shape member := by
    intro member within
    rcases mem_put.1 within with other | ⟨item, given, rfl⟩
    · exact exists_extraMembers_iff.1 ⟨pairs, before⟩ member (List.mem_filter.1 other).1
    · rw [given] at valued
      obtain ⟨own, -, decoded⟩ := Option.map_eq_some_iff.1 valued.symm
      exact ⟨key, rfl, .inr ⟨own, decoded.symm⟩⟩
  obtain ⟨changed, after⟩ := exists_extraMembers_iff.2 all
  refine Outcome.map_eq_ok_iff.2 ⟨changed, after, Table.ext_get? fun name => ?_⟩
  have read : ∀ outcome outcome' : Option Json,
      outcome.map (Except.ok (ε := TextFault)) = outcome'.map .ok → outcome = outcome' :=
    fun _ _ => (Option.map_inj_right fun _ _ => Except.ok.inj).1
  apply read
  rw [get?_of_extraMembers after, Table.get?_alter]
  by_cases same : name = key
  · rw [same, if_neg strange, if_pos rfl, filter_put_self, ← valued]
    cases content <;> rfl
  · rw [if_neg same, filter_put_of_ne same, get?_of_extraMembers before]

end Fields

/-- **A change of one member beside the fields of an open record is carried over**, if it still has
a value. -/
theorem Decoder.carries_openRecord {shape : RecordShape} {levels : Nat}
    {build : Fields (Table String Json → α × Table String Json)} {key : String}
    (keeps : build.Ensure fun image => ∃ made, ∀ extras, image extras = (made, extras))
    (ignores : build.Ignores key) (strange : key ∉ shape.fields) (place : Nat)
    {content : Option Draft} {value : Option Json}
    (valued : content.map (Draft.value? levels) = value.map .ok) :
    (openRecord shape levels build).Carries
      (Draft.mapMembers (Fields.put key place content))
      (fun made => (made.1, made.2.alter key fun _ => value)) := by
  intro draft made read
  cases draft with
  | object members =>
    obtain ⟨image, extras, own, beside, rfl⟩ :=
      Fields.both_eq_ok_iff.1 (Outcome.mapError_eq_ok_iff.1 read)
    obtain ⟨record, image_eq⟩ := keeps _ _ _ own
    have same : (RecordParts.members members).SameBut shape key
        (.members (Fields.put key place content members)) :=
      .members fun name other => Fields.filter_put_of_ne other place content
    refine Outcome.mapError_eq_ok_iff.2 (Fields.both_eq_ok_iff.2
      ⟨image, _, ignores same own, Fields.extras_put strange place beside valued, ?_⟩)
    rw [image_eq, image_eq]
  | _ => cases read

/-! ## Members of a value -/

/-- The members of an object that is a table are found in the table. -/
theorem Json.member?_entries (table : Table String Json) (name : String) :
    (object table.entries).member? name = table.get? name := by
  apply Option.ext
  intro value
  rw [member?, lookup_eq_some_iff table.nodup_keys, Table.get?_eq_some_iff]

namespace Draft

variable {levels : Nat} {key : String} {members : List (Draft × Draft)}

theorem memberValues?_leaveOut {pairs : List (String × Json)}
    (taken : memberValues? levels members = .ok pairs) :
    memberValues? levels (Fields.leaveOut key members) =
      .ok (pairs.filter fun pair => pair.1 ≠ key) := by
  induction members generalizing pairs with
  | nil =>
    cases taken
    rfl
  | cons member rest ih =>
    obtain ⟨written, item⟩ := member
    rw [memberValues?, Outcome.bind_eq_ok_iff] at taken
    obtain ⟨name, read, taken⟩ := taken
    obtain ⟨value, decoded, taken⟩ := Outcome.bind_eq_ok_iff.1 taken
    obtain ⟨others, further, same⟩ := Outcome.bind_eq_ok_iff.1 taken
    cases same
    cases written with
    | text spelling =>
      cases read
      by_cases equal : name = key
      · rw [Fields.leaveOut, List.filter_cons_of_neg (by simpa [Fields.isNamed] using equal),
          List.filter_cons_of_neg (by simpa using equal)]
        exact ih further
      · rw [Fields.leaveOut, List.filter_cons_of_pos (by simpa [Fields.isNamed] using equal),
          List.filter_cons_of_pos (by simpa using equal), memberValues?, decoded]
        exact congrArg (Except.map ((name, value) :: ·)) (ih further)
    | _ => cases read

/-- **Leaving out a key leaves out its member of the value**, and nothing else. -/
theorem value?_leaveOut (key : String) {value : Json}
    (taken : (object members).value? levels = .ok value) :
    ∃ rest, (object (Fields.leaveOut key members)).value? levels = .ok rest ∧
      ∀ name, rest.member? name = if name = key then none else value.member? name := by
  cases levels with
  | zero => cases taken
  | succ levels =>
    rw [value?, if_neg (Nat.succ_ne_zero _), Nat.add_sub_cancel] at taken ⊢
    obtain ⟨pairs, all, rfl⟩ := Outcome.map_eq_ok_iff.1 taken
    refine ⟨_, Outcome.map_eq_ok_iff.2 ⟨_, memberValues?_leaveOut all, rfl⟩, fun name => ?_⟩
    rw [Json.member?_entries, Json.member?_entries, Table.get?_ofList, Table.get?_ofList,
      List.filter_filter]
    split
    · next same =>
      have none : pairs.filter (fun pair => name = pair.1 && pair.1 ≠ key) = [] := by
        simp only [List.filter_eq_nil_iff, Bool.and_eq_true, decide_eq_true_eq, not_and, not_not]
        exact fun pair _ own => own.symm.trans same
      rw [none]
      rfl
    · next other =>
      have kept : pairs.filter (fun pair => name = pair.1 && pair.1 ≠ key) =
          pairs.filter fun pair => name = pair.1 :=
        List.filter_congr fun pair _ => by
          by_cases own : name = pair.1
          · simp [own, own ▸ other]
          · simp [own]
      rw [kept]

end Draft

end ApiAtlas
