import ApiAtlas.Table.Basic
import Mathlib.Data.List.Induction
import Mathlib.Data.List.Nodup
import Mathlib.Logic.Basic
import Mathlib.Tactic.Tauto

/-!
# Look-ups after runs of changes

A run of alterations is seen through its look-ups: under one key only the
alterations of that key count, one after the other (`get?_foldl_alter`). Where
the run passes through the entries of a table, at most one of them counts
(`foldl_entries_at`). So a union is found entry by entry (`get?_union`), and its
laws are those of looking in the second table first.

A run may also collect the members of a list by a key; then under each key stand
those that have it, in the order of the list (`get?_foldl_collect_iff`).

A set of keys is known by its members (`KeySet.ext_contains`), and so is the set
of the members of a list (`KeySet.contains_ofList`) and a list in strictly
ascending order of a key (`Key.eq_of_mem_iff`).
-/

set_option autoImplicit false

namespace ApiAtlas

variable {κ ν μ α β : Type} [Key κ]

namespace Table

/-! ## Runs -/

/-- Under one key a run of alterations does what those of that key do. -/
theorem get?_foldl_alter [DecidableEq κ] (key : α → κ) (change : α → Option ν → Option ν)
    (items : List α) (table : Table κ ν) (wanted : κ) :
    (items.foldl (fun sofar item => sofar.alter (key item) (change item)) table).get? wanted =
      items.foldl (fun held item => if wanted = key item then change item held else held)
        (table.get? wanted) := by
  induction items generalizing table with
  | nil => rfl
  | cons item rest ih =>
    rw [List.foldl_cons, List.foldl_cons, ih, get?_alter]
    by_cases same : wanted = key item
    · rw [if_pos same, if_pos same, same]
    · rw [if_neg same, if_neg same]

/-- Members collected by a key: what is found under a key are the images of those that have it, if
some have. -/
theorem get?_foldl_collect_iff [DecidableEq κ] (key : α → κ) (image : α → β) (members : List α)
    {wanted : κ} {collected : List β} :
    (members.foldl
        (fun sofar member => sofar.alter (key member) fun held =>
          some (held.getD [] ++ [image member]))
        empty).get? wanted = some collected ↔
      collected ≠ [] ∧
        collected = (members.filter fun member => wanted = key member).map image := by
  rw [get?_foldl_alter key fun member held => some (held.getD [] ++ [image member]), get?_empty]
  induction members using List.reverseRecOn generalizing collected with
  | nil => simp
  | append_singleton before last ih =>
    rw [List.foldl_append, List.foldl_cons, List.foldl_nil, List.filter_append, List.map_append]
    by_cases same : wanted = key last
    · have sofar : (before.foldl (fun held member =>
          if wanted = key member then some (held.getD [] ++ [image member]) else held)
          none).getD [] = (before.filter fun member => wanted = key member).map image := by
        cases found : before.foldl (fun held member =>
          if wanted = key member then some (held.getD [] ++ [image member]) else held) none with
        | some held => exact (ih.1 found).2
        | none =>
          by_contra differs
          have present := ih.2 ⟨fun none => differs none.symm, rfl⟩
          rw [found] at present
          cases present
      rw [if_pos same, sofar, List.filter_cons_of_pos (by simpa using same), List.filter_nil,
        List.map_singleton, Option.some.injEq]
      constructor
      · rintro rfl
        exact ⟨by simp, rfl⟩
      · exact fun equal => equal.2.symm
    · rw [if_neg same, ih, List.filter_cons_of_neg (by simpa using same), List.filter_nil,
        List.map_nil, List.append_nil]

/-- The entries under a key are the one that is found. -/
theorem filter_ascending_at [DecidableEq κ] (wanted : κ) {entries : List (κ × ν)}
    (ascending : Ascending entries) :
    entries.filter (fun entry => wanted = entry.1) =
      ((lookUp wanted entries).map (wanted, ·)).toList := by
  induction entries with
  | nil => rfl
  | cons head rest ih =>
    obtain ⟨other, value⟩ := head
    have parts := ascending_cons.1 ascending
    have none : ∀ low : κ, (∀ entry ∈ rest, Key.rank low entry.1 = .lt) →
        rest.filter (fun entry => low = entry.1) = [] := by
      intro low before
      rw [List.filter_eq_nil_iff]
      intro entry member same
      exact Key.ne_of_rank_lt (before entry member) (of_decide_eq_true same)
    cases ranked : Key.rank wanted other with
    | lt =>
      have differs : wanted ≠ other := Key.ne_of_rank_lt ranked
      rw [List.filter_cons_of_neg (by simpa using differs), lookUp, ranked,
        none wanted fun entry member => Key.rank_lt_trans ranked (parts.1 entry member)]
      rfl
    | eq =>
      have same := Key.eq_of_rank ranked
      subst same
      rw [List.filter_cons_of_pos (by simp), lookUp, ranked, none wanted parts.1]
      rfl
    | gt =>
      have differs : wanted ≠ other := (Key.ne_of_rank_lt (Key.rank_gt_iff.1 ranked)).symm
      rw [List.filter_cons_of_neg (by simpa using differs), lookUp, ranked, ih parts.2]

theorem filter_entries_at [DecidableEq κ] (table : Table κ ν) (wanted : κ) :
    table.entries.filter (fun entry => wanted = entry.1) =
      ((table.get? wanted).map (wanted, ·)).toList :=
  filter_ascending_at wanted table.ascending

theorem filterMap_entries_at [DecidableEq κ] (table : Table κ ν) (wanted : κ) (image : ν → α) :
    table.entries.filterMap
        (fun entry => if wanted = entry.1 then some (image entry.2) else none) =
      ((table.get? wanted).map image).toList := by
  have filtered : (table.entries.filter fun entry => wanted = entry.1).filterMap
        (fun entry => some (image entry.2)) =
      table.entries.filterMap
        (fun entry => if wanted = entry.1 then some (image entry.2) else none) := by
    simp only [List.filterMap_filter, decide_eq_true_eq]
  rw [← filtered, filter_entries_at]
  cases table.get? wanted <;> rfl

/-- Of the entries of a table at most one counts under a key, the one that is found. -/
theorem foldl_entries_at [DecidableEq κ] (table : Table κ ν) (wanted : κ)
    (step : β → κ × ν → β) (held : β) :
    table.entries.foldl
        (fun sofar entry => if wanted = entry.1 then step sofar entry else sofar) held =
      ((table.get? wanted).map fun value => step held (wanted, value)).getD held := by
  have filtered : (table.entries.filter fun entry => wanted = entry.1).foldl step held =
      table.entries.foldl
        (fun sofar entry => if wanted = entry.1 then step sofar entry else sofar) held := by
    simp only [List.foldl_filter, decide_eq_true_eq]
  rw [← filtered, filter_entries_at]
  cases table.get? wanted <;> rfl

/-- If a reading of a state heeds the entries under one key alone, then a run through the entries of
a table shows at most one of them to it. -/
theorem read_foldl_entries [DecidableEq κ] {σ : Type} (table : Table κ ν) (wanted : κ)
    (read : σ → β) (step : σ → κ × ν → σ) (act : β → κ × ν → β)
    (heeds : ∀ state entry,
      read (step state entry) = if wanted = entry.1 then act (read state) entry else read state)
    (start : σ) :
    read (table.entries.foldl step start) =
      ((table.get? wanted).map fun value => act (read start) (wanted, value)).getD
        (read start) := by
  rw [← foldl_entries_at]
  exact (List.foldl_hom read fun state entry => (heeds state entry).symm).symm

/-- In ascending order the first entry that passes a test comes before all others that pass it. -/
theorem find?_ascending_iff {entries : List (κ × ν)} (ascending : Ascending entries)
    (test : κ × ν → Bool) {entry : κ × ν} :
    entries.find? test = some entry ↔
      entry ∈ entries ∧ test entry = true ∧
        ∀ other ∈ entries, test other = true → Key.rank other.1 entry.1 ≠ .lt := by
  induction entries with
  | nil => simp
  | cons head rest ih =>
    have parts := ascending_cons.1 ascending
    rw [List.find?_cons]
    cases passed : test head with
    | true =>
      simp only [Option.some.injEq]
      constructor
      · rintro rfl
        refine ⟨List.mem_cons_self .., passed, fun other member _ => ?_⟩
        rcases List.mem_cons.1 member with rfl | later
        · exact Key.rank_ne_lt_self _
        · exact Key.rank_ne_lt_of_lt (parts.1 other later)
      · rintro ⟨member, -, first⟩
        rcases List.mem_cons.1 member with same | later
        · exact same.symm
        · exact absurd (parts.1 entry later) (first head (List.mem_cons_self ..) passed)
    | false =>
      rw [ih parts.2]
      have failed : entry = head → test entry = true → False := by
        rintro rfl holds
        rw [passed] at holds
        cases holds
      simp only [List.mem_cons, forall_eq_or_imp, passed, Bool.false_eq_true, false_implies,
        true_and]
      constructor
      · rintro ⟨member, holds, first⟩
        exact ⟨.inr member, holds, first⟩
      · rintro ⟨same | member, holds, first⟩
        · exact absurd holds (failed same)
        · exact ⟨member, holds, first⟩

/-- The first entry of a table that passes a test is the one with the first key. -/
theorem find?_entries_iff (table : Table κ ν) (test : κ × ν → Bool) {key : κ} {value : ν} :
    table.entries.find? test = some (key, value) ↔
      table.get? key = some value ∧ test (key, value) = true ∧
        ∀ other held, table.get? other = some held → test (other, held) = true →
          Key.rank other key ≠ .lt := by
  rw [find?_ascending_iff table.ascending, get?_eq_some_iff]
  simp only [get?_eq_some_iff, Prod.forall]

/-! ## Keys -/

theorem contains_iff {table : Table κ ν} {key : κ} :
    table.contains key = true ↔ ∃ value, table.get? key = some value :=
  Option.isSome_iff_exists

theorem mem_keys {table : Table κ ν} {key : κ} :
    key ∈ table.keys ↔ table.contains key = true := by
  simp only [keys, List.mem_map, contains_iff, get?_eq_some_iff]
  constructor
  · rintro ⟨⟨_, value⟩, member, rfl⟩
    exact ⟨value, member⟩
  · rintro ⟨value, member⟩
    exact ⟨(key, value), member, rfl⟩

/-- No key stands twice. -/
theorem nodup_keys (table : Table κ ν) : table.keys.Nodup :=
  List.pairwise_map.2 (table.ascending.imp Key.ne_of_rank_lt)

theorem mem_values {table : Table κ ν} {value : ν} :
    value ∈ table.values ↔ ∃ key, table.get? key = some value := by
  simp only [values, List.mem_map, get?_eq_some_iff]
  constructor
  · rintro ⟨⟨key, _⟩, member, rfl⟩
    exact ⟨key, member⟩
  · rintro ⟨key, member⟩
    exact ⟨(key, value), member, rfl⟩

/-- A table has no entries exactly if nothing is found in it. -/
theorem isEmpty_iff {table : Table κ ν} :
    table.isEmpty = true ↔ ∀ key, table.get? key = none := by
  rw [isEmpty, List.isEmpty_iff]
  constructor
  · intro none key
    rw [get?, none]
    rfl
  · intro absent
    refine List.eq_nil_iff_forall_not_mem.2 fun entry member => ?_
    have found := get?_eq_some_iff.2 (show (entry.1, entry.2) ∈ table.entries from member)
    rw [absent] at found
    cases found

theorem isEmpty_eq_false_iff {table : Table κ ν} :
    table.isEmpty = false ↔ ∃ key value, table.get? key = some value := by
  rw [← Bool.not_eq_true, isEmpty_iff]
  simp only [not_forall, Option.ne_none_iff_exists']

/-! ## Passing through all entries -/

theorem entries_map (table : Table κ ν) (image : κ → ν → μ) :
    (table.map image).entries =
      table.entries.map fun entry => (entry.1, image entry.1 entry.2) := by
  rw [← List.filterMap_eq_map]
  rfl

theorem entries_filter (table : Table κ ν) (keep : κ → ν → Bool) :
    (table.filter keep).entries = table.entries.filter fun entry => keep entry.1 entry.2 := by
  rw [← List.filterMap_eq_filter]
  refine congrArg (List.filterMap · table.entries) (funext fun entry => ?_)
  cases kept : keep entry.1 entry.2 <;> simp [mapEntry, Option.guard, kept]

/-- A table with other values has the same keys. -/
@[simp]
theorem keys_map (table : Table κ ν) (image : κ → ν → μ) : (table.map image).keys = table.keys := by
  rw [keys, entries_map, List.map_map]
  rfl

theorem values_map (table : Table κ ν) (image : κ → ν → μ) :
    (table.map image).values = table.entries.map fun entry => image entry.1 entry.2 := by
  rw [values, entries_map, List.map_map]
  rfl

theorem map_insert [DecidableEq κ] (table : Table κ ν) (key : κ) (value : ν) (image : κ → ν → μ) :
    (table.insert key value).map image = (table.map image).insert key (image key value) := by
  refine ext_get? fun wanted => ?_
  rw [get?_map, get?_insert, get?_insert, get?_map]
  split
  · next same => rw [same, Option.map_some]
  · rfl

/-- A change of one value may be made before the values are mapped or after that. -/
theorem map_alter [DecidableEq κ] (table : Table κ ν) (key : κ) {change : Option ν → Option ν}
    {mapped : Option μ → Option μ} (image : κ → ν → μ)
    (commutes : ∀ held, (change held).map (image key) = mapped (held.map (image key))) :
    (table.alter key change).map image = (table.map image).alter key mapped := by
  refine ext_get? fun wanted => ?_
  rw [get?_map, get?_alter, get?_alter, get?_map, get?_map]
  by_cases same : wanted = key
  · rw [if_pos same, if_pos same, same, commutes]
  · rw [if_neg same, if_neg same]

theorem map_modify [DecidableEq κ] (table : Table κ ν) (key : κ) {change : ν → ν} {mapped : μ → μ}
    (image : κ → ν → μ) (commutes : ∀ value, image key (change value) = mapped (image key value)) :
    (table.modify key change).map image = (table.map image).modify key mapped := by
  refine map_alter table key image fun held => ?_
  cases held with
  | none => rfl
  | some value => exact congrArg some (commutes value)

theorem map_erase [DecidableEq κ] (table : Table κ ν) (key : κ) (image : κ → ν → μ) :
    (table.erase key).map image = (table.map image).erase key :=
  map_alter table key image fun _ => rfl

theorem filter_keys (table : Table κ ν) (test : κ → Bool) :
    table.keys.filter test = (table.filter fun key _ => test key).keys := by
  rw [keys, keys, entries_filter, List.filter_map]
  rfl

/-- If a reading of a state heeds one key alone, then a run through some keys of a table shows at
most one of them to it. -/
theorem read_foldl_keys [DecidableEq κ] {σ : Type} (table : Table κ ν) (test : κ → Bool)
    (wanted : κ) (read : σ → β) (step : σ → κ → σ) (act : β → β)
    (heeds : ∀ state key,
      read (step state key) = if wanted = key then act (read state) else read state)
    (start : σ) :
    read ((table.keys.filter test).foldl step start) =
      if table.contains wanted && test wanted then act (read start) else read start := by
  have run := read_foldl_entries (table.filter fun key _ => test key) wanted read
    (fun state entry => step state entry.1) (fun held _ => act held)
    (fun state entry => heeds state entry.1) start
  rw [filter_keys, keys, List.foldl_map, run, get?_filter, contains]
  cases table.get? wanted with
  | none => rfl
  | some value => cases test wanted <;> rfl

/-! ## Changes of one key -/

theorem contains_insert [DecidableEq κ] (table : Table κ ν) (key wanted : κ) (value : ν) :
    (table.insert key value).contains wanted = true ↔
      wanted = key ∨ table.contains wanted = true := by
  rw [contains, get?_insert]
  by_cases same : wanted = key <;> simp [same, contains]

/-- A change that always leaves a value puts it there. -/
theorem alter_some [DecidableEq κ] (table : Table κ ν) (key : κ) (change : Option ν → ν) :
    (table.alter key fun held => some (change held)) =
      table.insert key (change (table.get? key)) := by
  refine ext_get? fun wanted => ?_
  rw [get?_alter, get?_insert]

theorem insert_eq_self [DecidableEq κ] {table : Table κ ν} {key : κ} {value : ν}
    (found : table.get? key = some value) : table.insert key value = table := by
  refine ext_get? fun wanted => ?_
  rw [get?_insert]
  split
  · next same => rw [same, found]
  · rfl

/-- Values put under different keys may be put there in either order. -/
theorem insert_comm [DecidableEq κ] (table : Table κ ν) {first second : κ}
    (differ : first ≠ second) (left right : ν) :
    (table.insert first left).insert second right =
      (table.insert second right).insert first left := by
  refine ext_get? fun wanted => ?_
  simp only [get?_insert]
  by_cases here : wanted = first
  · subst here
    rw [if_neg differ, if_pos rfl, if_pos rfl]
  · rw [if_neg here, if_neg here]

@[simp]
theorem erase_insert [DecidableEq κ] (table : Table κ ν) (key : κ) (value : ν) :
    (table.insert key value).erase key = table.erase key := by
  refine ext_get? fun wanted => ?_
  simp only [get?_erase, get?_insert]
  by_cases same : wanted = key <;> simp [same]

@[simp]
theorem erase_erase [DecidableEq κ] (table : Table κ ν) (key : κ) :
    (table.erase key).erase key = table.erase key := by
  refine ext_get? fun wanted => ?_
  simp only [get?_erase]
  by_cases same : wanted = key <;> simp [same]

theorem erase_eq_self [DecidableEq κ] {table : Table κ ν} {key : κ}
    (absent : table.get? key = none) : table.erase key = table := by
  refine ext_get? fun wanted => ?_
  rw [get?_erase]
  split
  · next same => rw [same, absent]
  · rfl

/-! ## Unions -/

/-- A union is looked up in the second table first. -/
theorem get?_union [DecidableEq κ] (first second : Table κ ν) (wanted : κ) :
    (first.union second).get? wanted = (second.get? wanted).or (first.get? wanted) := by
  have run := get?_foldl_alter (fun entry : κ × ν => entry.1) (fun entry _ => some entry.2)
    second.entries first wanted
  rw [foldl_entries_at second wanted (fun _ entry => some entry.2)] at run
  rw [union, insertAll]
  refine run.trans ?_
  cases second.get? wanted <;> rfl

theorem union_assoc [DecidableEq κ] (first second third : Table κ ν) :
    (first.union second).union third = first.union (second.union third) := by
  refine ext_get? fun wanted => ?_
  simp only [get?_union, Option.or_assoc]

@[simp]
theorem empty_union [DecidableEq κ] (table : Table κ ν) : empty.union table = table := by
  refine ext_get? fun wanted => ?_
  rw [get?_union, get?_empty, Option.or_none]

@[simp]
theorem union_empty [DecidableEq κ] (table : Table κ ν) : table.union empty = table := by
  refine ext_get? fun wanted => ?_
  rw [get?_union, get?_empty, Option.none_or]

/-- Tables that agree on their common keys may change places in a union. -/
theorem union_comm_of_agree [DecidableEq κ] {first second : Table κ ν}
    (agree : ∀ key left right, first.get? key = some left → second.get? key = some right →
      left = right) :
    first.union second = second.union first := by
  refine ext_get? fun wanted => ?_
  rw [get?_union, get?_union]
  cases left : first.get? wanted with
  | none => rw [Option.or_none, Option.none_or]
  | some value =>
    cases right : second.get? wanted with
    | none => rfl
    | some other => rw [agree wanted value other left right]

/-- The second table takes over the first one without a change if it has all its keys. -/
theorem union_eq_right_iff [DecidableEq κ] {first second : Table κ ν} :
    first.union second = second ↔
      ∀ key, first.contains key = true → second.contains key = true := by
  constructor
  · intro same key present
    rw [← same, contains, get?_union, Option.isSome_or]
    exact Bool.or_eq_true_iff.2 (.inr present)
  · intro within
    refine ext_get? fun wanted => ?_
    rw [get?_union]
    cases found : second.get? wanted with
    | some value => rfl
    | none =>
      cases held : first.get? wanted with
      | none => rfl
      | some value =>
        obtain ⟨other, present⟩ := contains_iff.1 (within wanted (contains_iff.2 ⟨value, held⟩))
        rw [found] at present
        cases present

@[simp]
theorem union_self [DecidableEq κ] (table : Table κ ν) : table.union table = table :=
  union_eq_right_iff.2 fun _ present => present

theorem erase_union [DecidableEq κ] (first second : Table κ ν) (key : κ) :
    (first.union second).erase key = (first.erase key).union (second.erase key) := by
  refine ext_get? fun wanted => ?_
  simp only [get?_union, get?_erase]
  by_cases same : wanted = key <;> simp [same]

/-! ## Tables of lists -/

/-- In the table of a list the last pair with a key counts. -/
theorem get?_ofList [DecidableEq κ] (pairs : List (κ × ν)) (wanted : κ) :
    (ofList pairs).get? wanted =
      ((pairs.filter fun pair => wanted = pair.1).getLast?).map (·.2) := by
  have run := get?_foldl_alter (fun pair : κ × ν => pair.1) (fun pair _ => some pair.2) pairs empty
    wanted
  refine Eq.trans run ?_
  clear run
  induction pairs using List.reverseRecOn with
  | nil => rfl
  | append_singleton before last ih =>
    rw [List.foldl_append, List.foldl_cons, List.foldl_nil, ih, List.filter_append]
    by_cases same : wanted = last.1 <;> simp [same]

/-- What is found in the table of a list comes from the list. -/
theorem mem_of_get?_ofList [DecidableEq κ] {pairs : List (κ × ν)} {key : κ} {value : ν}
    (found : (ofList pairs).get? key = some value) : (key, value) ∈ pairs := by
  rw [get?_ofList, Option.map_eq_some_iff] at found
  obtain ⟨⟨other, held⟩, last, rfl⟩ := found
  obtain ⟨member, same⟩ := List.mem_filter.1 (List.mem_of_getLast? last)
  rw [of_decide_eq_true same]
  exact member

/-- If no key stands twice in a list, its table has exactly the pairs of the list. -/
theorem get?_ofList_iff [DecidableEq κ] {pairs : List (κ × ν)}
    (distinct : (pairs.map (·.1)).Nodup) {key : κ} {value : ν} :
    (ofList pairs).get? key = some value ↔ (key, value) ∈ pairs := by
  refine ⟨mem_of_get?_ofList, fun member => ?_⟩
  have under : (key, value) ∈ pairs.filter fun pair => key = pair.1 :=
    List.mem_filter.2 ⟨member, decide_eq_true rfl⟩
  cases last : (pairs.filter fun pair => key = pair.1).getLast? with
  | none =>
    rw [List.getLast?_eq_none_iff.1 last] at under
    cases under
  | some pair =>
    obtain ⟨within, same⟩ := List.mem_filter.1 (List.mem_of_getLast? last)
    have equal := List.inj_on_of_nodup_map distinct within member (of_decide_eq_true same).symm
    rw [get?_ofList, last, equal]
    rfl

/-- A table is the table of its entries. -/
theorem ofList_entries [DecidableEq κ] (table : Table κ ν) : ofList table.entries = table := by
  apply ext_get?
  intro key
  apply Option.ext
  intro value
  rw [get?_ofList_iff table.nodup_keys, get?_eq_some_iff]

end Table

/-! ## Lists in the order of a key -/

namespace Key

/-- Of two different keys that are not in the wrong order the first comes before the second. -/
theorem rank_lt_of_ne {first second : κ} (ascending : rank first second ≠ .gt)
    (differ : first ≠ second) : rank first second = .lt := by
  cases ranked : rank first second with
  | lt => rfl
  | eq => exact absurd (eq_of_rank ranked) differ
  | gt => exact absurd ranked ascending

/-- Lists in strictly ascending order of a key are equal if they have the same members. -/
theorem eq_of_mem_iff (key : α → κ) {first second : List α}
    (ascending : first.Pairwise fun earlier later => rank (key earlier) (key later) = .lt)
    (likewise : second.Pairwise fun earlier later => rank (key earlier) (key later) = .lt)
    (same : ∀ member, member ∈ first ↔ member ∈ second) : first = second := by
  have keyed : first.map (fun member => (key member, member)) =
      second.map fun member => (key member, member) := by
    refine Table.entries_eq_of_mem_iff (List.pairwise_map.2 ascending)
      (List.pairwise_map.2 likewise) fun entry => ?_
    simp only [List.mem_map, same]
  exact List.map_injective_iff.2 (fun _ _ equal => (Prod.mk.inj equal).2) keyed

end Key

/-! ## Sets of keys -/

namespace KeySet

/-- Sets with the same members are equal. -/
theorem ext_contains {first second : KeySet κ}
    (same : ∀ key, first.contains key = true ↔ second.contains key = true) : first = second := by
  refine Table.ext_get? fun key => ?_
  have alike := same key
  unfold Table.contains at alike
  cases left : Table.get? first key <;> cases right : Table.get? second key <;> simp_all

theorem mem_toList {set : KeySet κ} {key : κ} : key ∈ set.toList ↔ set.contains key = true :=
  Table.mem_keys

theorem contains_add [DecidableEq κ] (set : KeySet κ) (key wanted : κ) :
    (set.add key).contains wanted = true ↔ wanted = key ∨ set.contains wanted = true :=
  Table.contains_insert set key wanted ()

theorem contains_foldl_add [DecidableEq κ] (set : KeySet κ) (members : List κ) (wanted : κ) :
    (members.foldl add set).contains wanted = true ↔
      wanted ∈ members ∨ set.contains wanted = true := by
  induction members generalizing set with
  | nil => simp
  | cons member rest ih =>
    rw [List.foldl_cons, ih, contains_add, List.mem_cons]
    tauto

theorem contains_ofList [DecidableEq κ] (members : List κ) (wanted : κ) :
    (ofList members).contains wanted = true ↔ wanted ∈ members := by
  rw [ofList, contains_foldl_add]
  simp [Table.contains]

/-- Lists with the same members have the same set. -/
theorem ofList_congr [DecidableEq κ] {first second : List κ}
    (same : ∀ key, key ∈ first ↔ key ∈ second) : ofList first = ofList second :=
  ext_contains fun key => by rw [contains_ofList, contains_ofList, same]

end KeySet

end ApiAtlas
