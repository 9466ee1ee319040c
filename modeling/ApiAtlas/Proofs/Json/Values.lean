import ApiAtlas.Json.Draft
import ApiAtlas.Proofs.Table.Lookup

/-!
# Values and their drafts

A value is proved something of by induction along its arrays and objects
(`Json.induction`). Sorting a value changes nothing that has been sorted before
(`Json.sorted_sorted`). Taking the draft of a value in gives that value sorted, if
the arrays and objects in it do not stand too deep (`Draft.value?_draft`), and
whatever is taken in from a draft is sorted and no deeper than was allowed
(`Draft.sorted_of_value?`).
-/

set_option autoImplicit false

namespace ApiAtlas

/-! ## Outcomes -/

namespace Outcome

variable {ε δ α β : Type}

/-- Two steps succeed if the first does and the second does with what the first made. -/
theorem bind_eq_ok_iff {first : Except ε α} {second : α → Except ε β} {made : β} :
    (first >>= second) = .ok made ↔ ∃ value, first = .ok value ∧ second value = .ok made := by
  cases first with
  | error error => simp [bind, Except.bind]
  | ok value => simp [bind, Except.bind]

theorem map_eq_ok_iff {outcome : Except ε α} {image : α → β} {made : β} :
    outcome.map image = .ok made ↔ ∃ value, outcome = .ok value ∧ image value = made := by
  cases outcome <;> simp [Except.map]

theorem mapError_eq_ok_iff {outcome : Except ε α} {image : ε → δ} {made : α} :
    outcome.mapError image = .ok made ↔ outcome = .ok made := by
  cases outcome <;> simp [Except.mapError]

theorem toOption_eq_some_iff {outcome : Except ε α} {made : α} :
    outcome.toOption = some made ↔ outcome = .ok made := by
  cases outcome <;> simp [Except.toOption]

end Outcome

/-! ## Values -/

namespace Json

/-- A property of values holds if arrays have it by their items and objects by their members. -/
@[elab_as_elim]
theorem induction {motive : Json → Prop} (null : motive .null)
    (boolean : ∀ value, motive (.boolean value)) (number : ∀ value, motive (.number value))
    (text : ∀ value, motive (.text value))
    (array : ∀ items, (∀ item ∈ items, motive item) → motive (.array items))
    (object : ∀ members, (∀ member ∈ members, motive member.2) → motive (.object members))
    (value : Json) : motive value := by
  refine @Json.rec motive (fun items => ∀ item ∈ items, motive item)
    (fun members => ∀ member ∈ members, motive member.2) (fun member => motive member.2)
    null boolean number text array object ?_ ?_ ?_ ?_ ?_ value
  · intro item member
    cases member
  · intro item rest first others other member
    rcases List.mem_cons.1 member with same | later
    · rw [same]
      exact first
    · exact others other later
  · intro item member
    cases member
  · intro member rest first others other within
    rcases List.mem_cons.1 within with same | later
    · rw [same]
      exact first
    · exact others other later
  · intro key value held
    exact held

/-! ## Lists of items and members -/

theorem sortedItems_eq (items : List Json) : sortedItems items = items.map sorted := by
  induction items with
  | nil => rfl
  | cons item rest ih => rw [sortedItems, ih, List.map_cons]

theorem sortedMembers_eq (members : List (String × Json)) :
    sortedMembers members = members.map fun member => (member.1, member.2.sorted) := by
  induction members with
  | nil => rfl
  | cons member rest ih => rw [sortedMembers, ih, List.map_cons]

/-! ## Sorted values -/

theorem sorted_array (items : List Json) : (array items).sorted = array (items.map sorted) := by
  rw [sorted, sortedItems_eq]

theorem sorted_object (members : List (String × Json)) :
    (object members).sorted =
      object (Table.ofList (members.map fun member => (member.1, member.2.sorted))).entries := by
  rw [sorted, sortedMembers_eq]

/-- An object is sorted if its members are those of a table and sorted themselves. -/
theorem sorted_entries {table : Table String Json}
    (members : ∀ member ∈ table.entries, member.2.sorted = member.2) :
    (object table.entries).sorted = object table.entries := by
  have unchanged : table.entries.map (fun member => (member.1, member.2.sorted)) =
      table.entries := by
    refine (List.map_congr_left fun member within => ?_).trans (List.map_id _)
    rw [members member within]
    rfl
  rw [sorted_object, unchanged, Table.ofList_entries]

/-- A member of a sorted object is a sorted member of the object. -/
theorem exists_of_mem_sorted {members : List (String × Json)} {member : String × Json}
    (within : member ∈ (Table.ofList
      (members.map fun member => (member.1, member.2.sorted))).entries) :
    ∃ held ∈ members, member = (held.1, held.2.sorted) := by
  have given := Table.mem_of_get?_ofList (Table.get?_eq_some_iff.2 within)
  obtain ⟨held, found, same⟩ := List.mem_map.1 given
  exact ⟨held, found, same.symm⟩

/-- Sorting again changes nothing. -/
theorem sorted_sorted (value : Json) : value.sorted.sorted = value.sorted := by
  induction value using Json.induction with
  | null | boolean _ | number _ | text _ => rfl
  | array items ih =>
    rw [sorted_array, sorted_array, List.map_map]
    exact congrArg array (List.map_congr_left ih)
  | object members ih =>
    rw [sorted_object]
    apply sorted_entries
    intro member within
    obtain ⟨held, found, rfl⟩ := exists_of_mem_sorted within
    exact ih held found

/-! ## Depth and numbers -/

mutual

/-- The number of arrays and objects that stand inside each other. -/
def depth : Json → Nat
  | null | boolean _ | number _ | text _ => 0
  | array items => depthOfItems items + 1
  | object members => depthOfMembers members + 1

/-- The depth of the deepest item. -/
def depthOfItems : List Json → Nat
  | [] => 0
  | item :: rest => max (depth item) (depthOfItems rest)

/-- The depth of the deepest member. -/
def depthOfMembers : List (String × Json) → Nat
  | [] => 0
  | (_, value) :: rest => max (depth value) (depthOfMembers rest)

end

mutual

/-- Whether all numbers of a value are whole. -/
def isExact : Json → Bool
  | null | boolean _ | text _ | number (.whole _) => true
  | number (.double _) => false
  | array items => areExactItems items
  | object members => areExactMembers members

/-- Whether all numbers of the items of an array are whole. -/
def areExactItems : List Json → Bool
  | [] => true
  | item :: rest => isExact item && areExactItems rest

/-- Whether all numbers of the members of an object are whole. -/
def areExactMembers : List (String × Json) → Bool
  | [] => true
  | (_, value) :: rest => isExact value && areExactMembers rest

end

theorem depth_array_le {items : List Json} {levels : Nat} :
    (array items).depth ≤ levels + 1 ↔ ∀ item ∈ items, item.depth ≤ levels := by
  have all : depthOfItems items ≤ levels ↔ ∀ item ∈ items, item.depth ≤ levels := by
    induction items with
    | nil => simp [depthOfItems]
    | cons item rest ih => rw [depthOfItems, Nat.max_le, ih, List.forall_mem_cons]
  rw [← all, depth]
  omega

theorem depth_object_le {members : List (String × Json)} {levels : Nat} :
    (object members).depth ≤ levels + 1 ↔ ∀ member ∈ members, member.2.depth ≤ levels := by
  have all : depthOfMembers members ≤ levels ↔ ∀ member ∈ members, member.2.depth ≤ levels := by
    induction members with
    | nil => simp [depthOfMembers]
    | cons member rest ih => rw [depthOfMembers, Nat.max_le, ih, List.forall_mem_cons]
  rw [← all, depth]
  omega

theorem isExact_array {items : List Json} :
    (array items).isExact = true ↔ ∀ item ∈ items, item.isExact = true := by
  rw [isExact]
  induction items with
  | nil => simp [areExactItems]
  | cons item rest ih => simp [areExactItems, ih]

theorem isExact_object {members : List (String × Json)} :
    (object members).isExact = true ↔ ∀ member ∈ members, member.2.isExact = true := by
  rw [isExact]
  induction members with
  | nil => simp [areExactMembers]
  | cons member rest ih => simp [areExactMembers, ih]

/-- Sorting makes nothing deeper. -/
theorem depth_sorted_le {value : Json} {levels : Nat} (shallow : value.depth ≤ levels) :
    value.sorted.depth ≤ levels := by
  induction value using Json.induction generalizing levels with
  | null | boolean _ | number _ | text _ => exact shallow
  | array items ih =>
    cases levels with
    | zero => exact absurd shallow (Nat.not_succ_le_zero _)
    | succ levels =>
      rw [depth_array_le] at shallow
      rw [sorted_array, depth_array_le, List.forall_mem_map]
      intro item member
      exact ih item member (shallow item member)
  | object members ih =>
    cases levels with
    | zero => exact absurd shallow (Nat.not_succ_le_zero _)
    | succ levels =>
      rw [depth_object_le] at shallow
      rw [sorted_object, depth_object_le]
      intro member within
      obtain ⟨held, found, rfl⟩ := exists_of_mem_sorted within
      exact ih held found (shallow held found)

/-- Sorting brings in no doubles. -/
theorem isExact_sorted {value : Json} (exact : value.isExact = true) :
    value.sorted.isExact = true := by
  induction value using Json.induction with
  | null | boolean _ | number _ | text _ => exact exact
  | array items ih =>
    rw [isExact_array] at exact
    rw [sorted_array, isExact_array, List.forall_mem_map]
    intro item member
    exact ih item member (exact item member)
  | object members ih =>
    rw [isExact_object] at exact
    rw [sorted_object, isExact_object]
    intro member within
    obtain ⟨held, found, rfl⟩ := exists_of_mem_sorted within
    exact ih held found (exact held found)

end Json

/-! ## Drafts -/

namespace Draft

/-- A property of drafts holds if arrays have it by their items and objects by their members. -/
@[elab_as_elim]
theorem induction {motive : Draft → Prop} (null : motive .null)
    (boolean : ∀ value, motive (.boolean value)) (number : ∀ value, motive (.number value))
    (text : ∀ value, motive (.text value))
    (array : ∀ items, (∀ item ∈ items, motive item) → motive (.array items))
    (object : ∀ members, (∀ member ∈ members, motive member.2) → motive (.object members))
    (misspelt : motive .misspelt) (broken : ∀ fault, motive (.broken fault)) (draft : Draft) :
    motive draft := by
  refine @Draft.rec motive (fun items => ∀ item ∈ items, motive item)
    (fun members => ∀ member ∈ members, motive member.2) (fun member => motive member.2)
    null boolean number text array object misspelt broken ?_ ?_ ?_ ?_ ?_ draft
  · intro item member
    cases member
  · intro item rest first others other member
    rcases List.mem_cons.1 member with same | later
    · rw [same]
      exact first
    · exact others other later
  · intro item member
    cases member
  · intro member rest first others other within
    rcases List.mem_cons.1 within with same | later
    · rw [same]
      exact first
    · exact others other later
  · intro key value _ held
    exact held

/-- The draft of a value has no faults to pass over. -/
theorem skim_draft (value : Json) : value.draft.skim = .ok () := by
  induction value using Json.induction with
  | null | boolean _ | number _ | text _ => rfl
  | array items ih =>
    rw [Json.draft, skim]
    induction items with
    | nil => rfl
    | cons item rest further =>
      rw [Json.draftItems, skimItems, ih item (List.mem_cons_self ..)]
      exact further fun other member => ih other (List.mem_cons_of_mem _ member)
  | object members ih =>
    rw [Json.draft, skim]
    induction members with
    | nil => rfl
    | cons member rest further =>
      rw [Json.draftMembers, skimMembers, ih member (List.mem_cons_self ..)]
      exact further fun other within => ih other (List.mem_cons_of_mem _ within)

/-- **The draft of a value is taken in as that value sorted**, if it does not go too deep. -/
theorem value?_draft {value : Json} {levels : Nat} (shallow : value.depth ≤ levels) :
    value.draft.value? levels = .ok value.sorted := by
  induction value using Json.induction generalizing levels with
  | null | boolean _ | number _ | text _ => rfl
  | array items ih =>
    cases levels with
    | zero => exact absurd shallow (Nat.not_succ_le_zero _)
    | succ levels =>
      rw [Json.depth_array_le] at shallow
      have all : values? levels (Json.draftItems items) = .ok (Json.sortedItems items) := by
        induction items with
        | nil => rfl
        | cons item rest further =>
          have first := ih item (List.mem_cons_self ..) (shallow item (List.mem_cons_self ..))
          have others := further (fun other member => ih other (List.mem_cons_of_mem _ member))
            fun other member => shallow other (List.mem_cons_of_mem _ member)
          rw [Json.draftItems, values?, first, others]
          rfl
      rw [Json.draft, value?, if_neg (Nat.succ_ne_zero _), Nat.add_sub_cancel, all]
      rfl
  | object members ih =>
    cases levels with
    | zero => exact absurd shallow (Nat.not_succ_le_zero _)
    | succ levels =>
      rw [Json.depth_object_le] at shallow
      have all : memberValues? levels (Json.draftMembers members) =
          .ok (Json.sortedMembers members) := by
        induction members with
        | nil => rfl
        | cons member rest further =>
          have first := ih member (List.mem_cons_self ..) (shallow member (List.mem_cons_self ..))
          have others := further (fun other within => ih other (List.mem_cons_of_mem _ within))
            fun other within => shallow other (List.mem_cons_of_mem _ within)
          rw [Json.draftMembers, memberValues?, first, others]
          rfl
      rw [Json.draft, value?, if_neg (Nat.succ_ne_zero _), Nat.add_sub_cancel, all]
      rfl

/-- Every item that is taken in comes from a draft. -/
theorem exists_of_values? {levels : Nat} {items : List Draft} {values : List Json}
    (taken : values? levels items = .ok values) :
    ∀ value ∈ values, ∃ item ∈ items, item.value? levels = .ok value := by
  induction items generalizing values with
  | nil =>
    cases taken
    intro value member
    cases member
  | cons item rest ih =>
    rw [values?, Outcome.bind_eq_ok_iff] at taken
    obtain ⟨first, own, taken⟩ := taken
    obtain ⟨others, further, same⟩ := Outcome.bind_eq_ok_iff.1 taken
    cases same
    intro value member
    rcases List.mem_cons.1 member with same | later
    · exact ⟨item, List.mem_cons_self .., by rw [same]; exact own⟩
    · obtain ⟨held, within, shown⟩ := ih further value later
      exact ⟨held, List.mem_cons_of_mem _ within, shown⟩

/-- Every member that is taken in comes from a draft. -/
theorem exists_of_memberValues? {levels : Nat} {members : List (Draft × Draft)}
    {pairs : List (String × Json)} (taken : memberValues? levels members = .ok pairs) :
    ∀ pair ∈ pairs, ∃ member ∈ members, member.2.value? levels = .ok pair.2 := by
  induction members generalizing pairs with
  | nil =>
    cases taken
    intro pair member
    cases member
  | cons member rest ih =>
    rw [memberValues?, Outcome.bind_eq_ok_iff] at taken
    obtain ⟨name, -, taken⟩ := taken
    obtain ⟨first, own, taken⟩ := Outcome.bind_eq_ok_iff.1 taken
    obtain ⟨others, further, same⟩ := Outcome.bind_eq_ok_iff.1 taken
    cases same
    intro pair within
    rcases List.mem_cons.1 within with same | later
    · exact ⟨member, List.mem_cons_self .., by rw [same]; exact own⟩
    · obtain ⟨held, found, shown⟩ := ih further pair later
      exact ⟨held, List.mem_cons_of_mem _ found, shown⟩

/-- **What is taken in from a draft is sorted and no deeper than was allowed.** -/
theorem sorted_of_value? {draft : Draft} {levels : Nat} {value : Json}
    (taken : draft.value? levels = .ok value) : value.sorted = value ∧ value.depth ≤ levels := by
  induction draft using Draft.induction generalizing levels value with
  | null | boolean _ | number _ | text _ =>
    cases taken
    exact ⟨rfl, Nat.zero_le _⟩
  | misspelt => cases taken
  | broken fault => cases taken
  | array items ih =>
    cases levels with
    | zero => cases taken
    | succ levels =>
      rw [value?, if_neg (Nat.succ_ne_zero _), Nat.add_sub_cancel] at taken
      obtain ⟨values, all, rfl⟩ := Outcome.map_eq_ok_iff.1 taken
      have each : ∀ value ∈ values, value.sorted = value ∧ value.depth ≤ levels := by
        intro value member
        obtain ⟨item, within, own⟩ := exists_of_values? all value member
        exact ih item within own
      rw [Json.sorted_array, Json.depth_array_le]
      refine ⟨congrArg Json.array ?_, fun value member => (each value member).2⟩
      exact (List.map_congr_left fun value member => (each value member).1).trans (List.map_id _)
  | object members ih =>
    cases levels with
    | zero => cases taken
    | succ levels =>
      rw [value?, if_neg (Nat.succ_ne_zero _), Nat.add_sub_cancel] at taken
      obtain ⟨pairs, all, rfl⟩ := Outcome.map_eq_ok_iff.1 taken
      have each : ∀ pair ∈ (Table.ofList pairs).entries,
          pair.2.sorted = pair.2 ∧ pair.2.depth ≤ levels := by
        rintro ⟨key, value⟩ within
        have given := Table.mem_of_get?_ofList (Table.get?_eq_some_iff.2 within)
        obtain ⟨member, found, own⟩ := exists_of_memberValues? all _ given
        exact ih member found own
      rw [Json.depth_object_le]
      exact ⟨Json.sorted_entries fun pair within => (each pair within).1,
        fun pair within => (each pair within).2⟩

end Draft

end ApiAtlas
