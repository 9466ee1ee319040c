import ApiAtlas.Table.Key

/-!
# Tables

A table assigns values to finitely many keys. Its entries are kept in strictly
ascending order of their keys, so a table has one representation: two tables
that answer every look-up alike are equal (`Table.ext_get?`).

Every change goes through `Table.alter`, which hands the value under one key to
a function and stores what it answers. Inserting, erasing and merging are
special cases, and two equations describe them all: what a look-up finds under
the altered key (`get?_alter_self`) and under every other (`get?_alter_of_ne`).
Passing through all entries is `filterMap`, which keeps the order
(`get?_filterMap`).

A set of keys is a table of units (`KeySet`).
-/

set_option autoImplicit false

namespace ApiAtlas

variable {κ ν μ : Type} [Key κ]

/-- Entries stand in strictly ascending order of their keys. -/
def Ascending (entries : List (κ × ν)) : Prop :=
  entries.Pairwise fun first second => Key.rank first.1 second.1 = .lt

/-- A finite assignment of values to keys, held in ascending order of the keys. -/
structure Table (κ ν : Type) [Key κ] where
  /-- The entries in ascending order of their keys. -/
  entries : List (κ × ν)
  /-- No key stands twice, and none out of order. -/
  ascending : Ascending entries

namespace Table

/-! ## Entry lists -/

/-- The value under a key; the search ends at the first greater key. -/
def lookUp (key : κ) : List (κ × ν) → Option ν
  | [] => none
  | (other, value) :: rest =>
    match Key.rank key other with
    | .lt => none
    | .eq => some value
    | .gt => lookUp key rest

/-- An entry for the key if there is a value, in front of the rest. -/
def put (key : κ) : Option ν → List (κ × ν) → List (κ × ν)
  | none, rest => rest
  | some value, rest => (key, value) :: rest

/-- The entries with the value under a key replaced by what the change makes of it. -/
def alterEntries (key : κ) (change : Option ν → Option ν) : List (κ × ν) → List (κ × ν)
  | [] => put key (change none) []
  | (other, value) :: rest =>
    match Key.rank key other with
    | .lt => put key (change none) ((other, value) :: rest)
    | .eq => put key (change (some value)) rest
    | .gt => (other, value) :: alterEntries key change rest

/-- The first entry of an ascending list comes before all others, which are ascending again. -/
theorem ascending_cons {entry : κ × ν} {rest : List (κ × ν)} :
    Ascending (entry :: rest) ↔
      (∀ later ∈ rest, Key.rank entry.1 later.1 = .lt) ∧ Ascending rest :=
  List.pairwise_cons

/-- Every key of an altered list is the altered key or was there before. -/
theorem mem_alterEntries {key : κ} {change : Option ν → Option ν} {entry : κ × ν}
    {entries : List (κ × ν)} (member : entry ∈ alterEntries key change entries) :
    entry.1 = key ∨ entry ∈ entries := by
  have putCase : ∀ (outcome : Option ν) (rest : List (κ × ν)),
      entry ∈ put key outcome rest → entry.1 = key ∨ entry ∈ rest := by
    intro outcome rest within
    cases outcome with
    | none => exact .inr within
    | some value =>
      rcases List.mem_cons.1 within with same | later
      · exact .inl (by rw [same])
      · exact .inr later
  induction entries with
  | nil => exact putCase _ _ member
  | cons head rest ih =>
    obtain ⟨other, value⟩ := head
    simp only [alterEntries] at member
    split at member
    · exact putCase _ _ member
    · exact (putCase _ _ member).imp id (List.mem_cons_of_mem _)
    · rcases List.mem_cons.1 member with same | later
      · exact .inr (by rw [same]; exact List.mem_cons_self ..)
      · exact (ih later).imp id (List.mem_cons_of_mem _)

/-- Altering keeps the entries ascending. -/
theorem ascending_alterEntries (key : κ) (change : Option ν → Option ν)
    {entries : List (κ × ν)} (ascending : Ascending entries) :
    Ascending (alterEntries key change entries) := by
  have putCase : ∀ (outcome : Option ν) {rest : List (κ × ν)}, Ascending rest →
      (∀ later ∈ rest, Key.rank key later.1 = .lt) → Ascending (put key outcome rest) := by
    intro outcome rest kept before
    cases outcome with
    | none => exact kept
    | some value => exact ascending_cons.2 ⟨before, kept⟩
  induction entries with
  | nil => exact putCase _ List.Pairwise.nil (by simp)
  | cons head rest ih =>
    obtain ⟨other, value⟩ := head
    have parts := ascending_cons.1 ascending
    simp only [alterEntries]
    split
    · next before =>
      refine putCase _ ascending fun later member => ?_
      rcases List.mem_cons.1 member with same | further
      · rw [same]; exact before
      · exact Key.rank_lt_trans before (parts.1 later further)
    · next same =>
      exact putCase _ parts.2 fun later member => Key.eq_of_rank same ▸ parts.1 later member
    · next after =>
      refine ascending_cons.2 ⟨fun later member => ?_, ih parts.2⟩
      rcases mem_alterEntries member with same | further
      · rw [same]; exact Key.rank_gt_iff.1 after
      · exact parts.1 later further

/-- A key before all keys of a list is not found in it. -/
theorem lookUp_eq_none_of_before {key : κ} {entries : List (κ × ν)}
    (before : ∀ entry ∈ entries, Key.rank key entry.1 = .lt) : lookUp key entries = none := by
  cases entries with
  | nil => rfl
  | cons head rest =>
    have first := before head (List.mem_cons_self ..)
    simp only [lookUp, first]

/-- What is found under the altered key is what the change made. -/
theorem lookUp_alterEntries_self (key : κ) (change : Option ν → Option ν)
    {entries : List (κ × ν)} (ascending : Ascending entries) :
    lookUp key (alterEntries key change entries) = change (lookUp key entries) := by
  have putCase : ∀ (outcome : Option ν) {rest : List (κ × ν)},
      (∀ later ∈ rest, Key.rank key later.1 = .lt) →
        lookUp key (put key outcome rest) = outcome := by
    intro outcome rest before
    cases outcome with
    | none => exact lookUp_eq_none_of_before before
    | some value => simp only [put, lookUp, Key.rank_self]
  induction entries with
  | nil => exact putCase _ (by simp)
  | cons head rest ih =>
    obtain ⟨other, value⟩ := head
    have parts := ascending_cons.1 ascending
    cases ranked : Key.rank key other with
    | lt =>
      simp only [alterEntries, lookUp, ranked]
      refine putCase _ fun later member => ?_
      rcases List.mem_cons.1 member with same | further
      · rw [same]; exact ranked
      · exact Key.rank_lt_trans ranked (parts.1 later further)
    | eq =>
      simp only [alterEntries, lookUp, ranked]
      exact putCase _ fun later member => Key.eq_of_rank ranked ▸ parts.1 later member
    | gt => simp only [alterEntries, lookUp, ranked, ih parts.2]

/-- Altering one key leaves what is found under every other. -/
theorem lookUp_alterEntries_of_ne {key wanted : κ} (differs : wanted ≠ key)
    (change : Option ν → Option ν) {entries : List (κ × ν)} (ascending : Ascending entries) :
    lookUp wanted (alterEntries key change entries) = lookUp wanted entries := by
  have apart : Key.rank wanted key ≠ .eq := fun same => differs (Key.eq_of_rank same)
  have putCase : ∀ (outcome : Option ν) {rest : List (κ × ν)},
      (∀ later ∈ rest, Key.rank key later.1 = .lt) →
        lookUp wanted (put key outcome rest) = lookUp wanted rest := by
    intro outcome rest before
    cases outcome with
    | none => rfl
    | some value =>
      cases ranked : Key.rank wanted key with
      | lt =>
        simp only [put, lookUp, ranked]
        exact (lookUp_eq_none_of_before fun later member =>
          Key.rank_lt_trans ranked (before later member)).symm
      | eq => exact absurd ranked apart
      | gt => simp only [put, lookUp, ranked]
  induction entries with
  | nil => exact putCase _ (by simp)
  | cons head rest ih =>
    obtain ⟨other, value⟩ := head
    have parts := ascending_cons.1 ascending
    cases ranked : Key.rank key other with
    | lt =>
      simp only [alterEntries, ranked]
      refine putCase _ fun later member => ?_
      rcases List.mem_cons.1 member with same | further
      · rw [same]; exact ranked
      · exact Key.rank_lt_trans ranked (parts.1 later further)
    | eq =>
      have same := Key.eq_of_rank ranked
      subst same
      simp only [alterEntries, ranked]
      rw [putCase _ parts.1]
      cases order : Key.rank wanted key with
      | lt =>
        simp only [lookUp, order]
        exact lookUp_eq_none_of_before fun later member =>
          Key.rank_lt_trans order (parts.1 later member)
      | eq => exact absurd order apart
      | gt => simp only [lookUp, order]
    | gt =>
      simp only [alterEntries, ranked, lookUp]
      cases Key.rank wanted other with
      | lt => rfl
      | eq => rfl
      | gt => exact ih parts.2

/-- In an ascending list a value is found under a key exactly if that entry is in the list. -/
theorem lookUp_eq_some_iff {key : κ} {value : ν} {entries : List (κ × ν)}
    (ascending : Ascending entries) :
    lookUp key entries = some value ↔ (key, value) ∈ entries := by
  induction entries with
  | nil => simp [lookUp]
  | cons head rest ih =>
    obtain ⟨other, held⟩ := head
    have parts := ascending_cons.1 ascending
    cases ranked : Key.rank key other with
    | lt =>
      simp only [lookUp, ranked]
      constructor
      · intro found; cases found
      · intro member
        rcases List.mem_cons.1 member with same | further
        · rw [(Prod.mk.inj same).1] at ranked
          exact absurd ranked (Key.rank_ne_lt_self other)
        · exact absurd (parts.1 _ further) (Key.rank_ne_lt_of_lt ranked)
    | eq =>
      have same := Key.eq_of_rank ranked
      subst same
      simp only [lookUp, ranked, Option.some.injEq, List.mem_cons, Prod.mk.injEq, true_and]
      constructor
      · exact fun equal => .inl equal.symm
      · rintro (equal | further)
        · exact equal.symm
        · exact absurd (parts.1 _ further) (Key.rank_ne_lt_self key)
    | gt =>
      simp only [lookUp, ranked, ih parts.2, List.mem_cons, Prod.mk.injEq]
      constructor
      · exact .inr
      · rintro (⟨same, -⟩ | further)
        · rw [same, Key.rank_self] at ranked
          cases ranked
        · exact further

/-- Ascending lists with the same entries are equal. -/
theorem entries_eq_of_mem_iff {left right : List (κ × ν)} (leftAscending : Ascending left)
    (rightAscending : Ascending right) (same : ∀ entry, entry ∈ left ↔ entry ∈ right) :
    left = right := by
  induction left generalizing right with
  | nil =>
    cases right with
    | nil => rfl
    | cons head rest => exact absurd ((same head).2 (List.mem_cons_self ..)) (by simp)
  | cons head rest ih =>
    cases right with
    | nil => exact absurd ((same head).1 (List.mem_cons_self ..)) (by simp)
    | cons other others =>
      have leftParts := ascending_cons.1 leftAscending
      have rightParts := ascending_cons.1 rightAscending
      have heads : head = other := by
        rcases List.mem_cons.1 ((same head).1 (List.mem_cons_self ..)) with equal | further
        · exact equal
        · rcases List.mem_cons.1 ((same other).2 (List.mem_cons_self ..)) with equal | beyond
          · exact equal.symm
          · exact absurd (leftParts.1 other beyond)
              (Key.rank_ne_lt_of_lt (rightParts.1 head further))
      subst heads
      refine congrArg (head :: ·) (ih leftParts.2 rightParts.2 fun entry => ?_)
      constructor
      · intro member
        rcases List.mem_cons.1 ((same entry).1 (List.mem_cons_of_mem _ member)) with equal | found
        · exact absurd (leftParts.1 entry member) (equal ▸ Key.rank_ne_lt_self _)
        · exact found
      · intro member
        rcases List.mem_cons.1 ((same entry).2 (List.mem_cons_of_mem _ member)) with equal | found
        · exact absurd (rightParts.1 entry member) (equal ▸ Key.rank_ne_lt_self _)
        · exact found

/-! ## Operations -/

/-- The table without entries. -/
def empty : Table κ ν :=
  ⟨[], List.Pairwise.nil⟩

instance : EmptyCollection (Table κ ν) :=
  ⟨empty⟩

instance : Inhabited (Table κ ν) :=
  ⟨empty⟩

instance [DecidableEq κ] [DecidableEq ν] : DecidableEq (Table κ ν) := fun left right =>
  if same : left.entries = right.entries then
    .isTrue (by cases left; cases right; cases same; rfl)
  else
    .isFalse fun equal => same (congrArg entries equal)

/-- The value under a key. -/
def get? (table : Table κ ν) (key : κ) : Option ν :=
  lookUp key table.entries

/-- Whether there is a value under a key. -/
def contains (table : Table κ ν) (key : κ) : Bool :=
  (table.get? key).isSome

/-- The table whose value under one key is what the change makes of it; `none` is no entry. -/
def alter (table : Table κ ν) (key : κ) (change : Option ν → Option ν) : Table κ ν :=
  ⟨alterEntries key change table.entries, ascending_alterEntries key change table.ascending⟩

/-- The table with a value put under a key, in place of any that was there. -/
def insert (table : Table κ ν) (key : κ) (value : ν) : Table κ ν :=
  table.alter key fun _ => some value

/-- The table without an entry for a key. -/
def erase (table : Table κ ν) (key : κ) : Table κ ν :=
  table.alter key fun _ => none

/-- The table in which the value under a key, if there is one, is replaced by its image. -/
def modify (table : Table κ ν) (key : κ) (change : ν → ν) : Table κ ν :=
  table.alter key (·.map change)

/-- The keys in ascending order. -/
def keys (table : Table κ ν) : List κ :=
  table.entries.map (·.1)

/-- The values in ascending order of their keys. -/
def values (table : Table κ ν) : List ν :=
  table.entries.map (·.2)

/-- The number of entries. -/
def size (table : Table κ ν) : Nat :=
  table.entries.length

/-- Whether there are no entries. -/
def isEmpty (table : Table κ ν) : Bool :=
  table.entries.isEmpty

/-- The pairs inserted one after the other; of several values for a key the last stays. -/
def insertAll (table : Table κ ν) (pairs : List (κ × ν)) : Table κ ν :=
  pairs.foldl (fun sofar pair => sofar.insert pair.1 pair.2) table

/-- The table of a list of pairs; of several values for a key the last stays. -/
def ofList (pairs : List (κ × ν)) : Table κ ν :=
  empty.insertAll pairs

/-- All entries of both tables; under a shared key the second table decides. -/
def union (first second : Table κ ν) : Table κ ν :=
  first.insertAll second.entries

/-- The image of one entry, if it has one. -/
def mapEntry (image : κ → ν → Option μ) (entry : κ × ν) : Option (κ × μ) :=
  (image entry.1 entry.2).map (entry.1, ·)

theorem ascending_filterMap (image : κ → ν → Option μ) {entries : List (κ × ν)}
    (ascending : Ascending entries) : Ascending (entries.filterMap (mapEntry image)) := by
  refine List.Pairwise.filterMap _ (fun first second before => ?_) ascending
  intro new made newer later
  simp only [mapEntry, Option.map_eq_some_iff] at made later
  obtain ⟨_, -, rfl⟩ := made
  obtain ⟨_, -, rfl⟩ := later
  exact before

/-- The table of the images of the entries; an entry without an image is left out. -/
def filterMap (table : Table κ ν) (image : κ → ν → Option μ) : Table κ μ :=
  ⟨table.entries.filterMap (mapEntry image), ascending_filterMap image table.ascending⟩

/-- The table with every value replaced by its image. -/
def map (table : Table κ ν) (image : κ → ν → μ) : Table κ μ :=
  table.filterMap fun key value => some (image key value)

/-- The entries that pass the test. -/
def filter (table : Table κ ν) (keep : κ → ν → Bool) : Table κ ν :=
  table.filterMap fun key value => if keep key value then some value else none

/-! ## Look-ups after operations -/

/-- Tables that answer every look-up alike are equal. -/
theorem ext_get? {left right : Table κ ν} (same : ∀ key, left.get? key = right.get? key) :
    left = right := by
  have equal : left.entries = right.entries := by
    refine entries_eq_of_mem_iff left.ascending right.ascending fun entry => ?_
    rw [← lookUp_eq_some_iff left.ascending, ← lookUp_eq_some_iff right.ascending]
    exact (congrArg (· = some entry.2) (same entry.1)).to_iff
  cases left
  cases right
  cases equal
  rfl

/-- A value is found under a key exactly if that entry is in the table. -/
theorem get?_eq_some_iff {table : Table κ ν} {key : κ} {value : ν} :
    table.get? key = some value ↔ (key, value) ∈ table.entries :=
  lookUp_eq_some_iff table.ascending

@[simp]
theorem get?_empty (key : κ) : (empty : Table κ ν).get? key = none :=
  rfl

@[simp]
theorem get?_alter_self (table : Table κ ν) (key : κ) (change : Option ν → Option ν) :
    (table.alter key change).get? key = change (table.get? key) :=
  lookUp_alterEntries_self key change table.ascending

theorem get?_alter_of_ne (table : Table κ ν) {key wanted : κ} (differs : wanted ≠ key)
    (change : Option ν → Option ν) : (table.alter key change).get? wanted = table.get? wanted :=
  lookUp_alterEntries_of_ne differs change table.ascending

theorem get?_alter [DecidableEq κ] (table : Table κ ν) (key wanted : κ)
    (change : Option ν → Option ν) :
    (table.alter key change).get? wanted =
      if wanted = key then change (table.get? key) else table.get? wanted := by
  split
  · next same => rw [same, get?_alter_self]
  · next differs => exact table.get?_alter_of_ne differs change

theorem get?_insert [DecidableEq κ] (table : Table κ ν) (key wanted : κ) (value : ν) :
    (table.insert key value).get? wanted =
      if wanted = key then some value else table.get? wanted :=
  table.get?_alter key wanted _

theorem get?_erase [DecidableEq κ] (table : Table κ ν) (key wanted : κ) :
    (table.erase key).get? wanted = if wanted = key then none else table.get? wanted :=
  table.get?_alter key wanted _

/-- What is found after passing through all entries is the image of what was there. -/
theorem get?_filterMap (table : Table κ ν) (image : κ → ν → Option μ) (key : κ) :
    (table.filterMap image).get? key = (table.get? key).bind (image key) := by
  apply Option.ext
  intro result
  rw [get?_eq_some_iff, Option.bind_eq_some_iff]
  simp only [filterMap, List.mem_filterMap, mapEntry, Option.map_eq_some_iff, Prod.mk.injEq]
  constructor
  · rintro ⟨⟨other, value⟩, member, found, made, rfl, rfl⟩
    exact ⟨value, get?_eq_some_iff.2 member, made⟩
  · rintro ⟨value, found, made⟩
    exact ⟨(key, value), get?_eq_some_iff.1 found, result, made, rfl, rfl⟩

theorem get?_map (table : Table κ ν) (image : κ → ν → μ) (key : κ) :
    (table.map image).get? key = (table.get? key).map (image key) := by
  rw [map, get?_filterMap]
  cases table.get? key <;> rfl

theorem get?_filter (table : Table κ ν) (keep : κ → ν → Bool) (key : κ) :
    (table.filter keep).get? key = (table.get? key).filter (keep key) := by
  rw [filter, get?_filterMap]
  cases table.get? key <;> rfl

end Table

/-! ## Sets of keys -/

/-- A finite set of keys in ascending order: a table of units. -/
abbrev KeySet (κ : Type) [Key κ] : Type :=
  Table κ Unit

namespace KeySet

/-- The set with one more member. -/
def add (set : KeySet κ) (key : κ) : KeySet κ :=
  Table.insert set key ()

/-- The set of the members of a list. -/
def ofList (members : List κ) : KeySet κ :=
  members.foldl add Table.empty

/-- The members in ascending order. -/
def toList (set : KeySet κ) : List κ :=
  Table.keys set

end KeySet

end ApiAtlas
