import ApiAtlas.Proofs.Overload.Untouched
import Mathlib.Data.List.Perm.Subperm

/-!
# Counting groups

A grouping counts its groups family by family. Families of different languages
may be represented by the same symbol, and then they share one group. So what is
counted is each group once for every language of the scope in which it is known
afterwards (`length_groupsOf`), and this is the number of groups exactly if no
symbol represents overloads in two of these languages
(`length_groupsOf_eq_iff`). Two overloads that two languages show alike are
counted as two groups, although they have one (`length_groupsOf_bilingual`).
-/

set_option autoImplicit false

namespace ApiAtlas.Overload

/-- The languages of a scope in which some view knows an identifier. -/
def languagesIn (scope : Scope) (graph : UnifiedGraph) (identifier : String) : List String :=
  (KeySet.ofList <| ((graph.symbols.get? identifier).elim [] fun symbol =>
    symbol.views.map View.language).filter scope.includes).toList

/-- The groups that are known in some language of a scope. -/
def groupsIn (scope : Scope) (graph : UnifiedGraph) : List String :=
  graph.groups.toList.filter fun identifier => !(languagesIn scope graph identifier).isEmpty

/-- The groups of a graph, each once for every language of a scope in which it is known. -/
def groupLanguages (scope : Scope) (graph : UnifiedGraph) : List (String × String) :=
  graph.groups.toList.flatMap fun identifier =>
    (languagesIn scope graph identifier).map (identifier, ·)

/-- No group stands for overloads of two languages of a scope. -/
def SharesNoGroup (scope : Scope) (graph : UnifiedGraph) : Prop :=
  ∀ (group first second : String) (ranked others : List Candidate),
    scope.includes first = true → scope.includes second = true →
      OverloadsIn graph first group ranked → OverloadsIn graph second group others →
        first = second

variable {scope : Scope} {graph : UnifiedGraph} {language identifier : String}

/-! ## Groups and their languages -/

theorem mem_languagesIn :
    language ∈ languagesIn scope graph identifier ↔
      scope.includes language = true ∧
        ∃ view facet, view.language = language ∧ graph.facetAt identifier view = some facet := by
  have shown : language ∈ ((graph.symbols.get? identifier).elim [] fun symbol =>
        symbol.views.map View.language) ↔
      ∃ view facet, view.language = language ∧ graph.facetAt identifier view = some facet := by
    cases found : graph.symbols.get? identifier with
    | none => simp [facetIn, found]
    | some symbol =>
      simp only [Option.elim_some, List.mem_map, UnifiedSymbol.views, Table.mem_keys,
        Table.contains_iff, facetIn_of_get? found, UnifiedSymbol.facet?]
      refine exists_congr fun view => ?_
      rw [and_comm, exists_and_left]
  rw [languagesIn, KeySet.mem_toList, KeySet.contains_ofList, List.mem_filter, shown, and_comm]

theorem mem_groupLanguages :
    (identifier, language) ∈ groupLanguages scope graph ↔
      scope.includes language = true ∧ graph.groups.contains identifier = true ∧
        ∃ view facet, view.language = language ∧ graph.facetAt identifier view = some facet := by
  simp only [groupLanguages, List.mem_flatMap, List.mem_map, Prod.mk.injEq, KeySet.mem_toList]
  constructor
  · rintro ⟨_, present, _, within, rfl, rfl⟩
    obtain ⟨included, known⟩ := mem_languagesIn.1 within
    exact ⟨included, present, known⟩
  · rintro ⟨included, present, known⟩
    exact ⟨identifier, present, language, mem_languagesIn.2 ⟨included, known⟩, rfl, rfl⟩

/-- No group is listed twice with the same language. -/
theorem nodup_groupLanguages (scope : Scope) (graph : UnifiedGraph) :
    (groupLanguages scope graph).Nodup := by
  refine List.nodup_flatMap.2 ⟨fun identifier _ => ?_, ?_⟩
  · refine (Table.nodup_keys _).map fun first second same => ?_
    exact (Prod.mk.inj same).2
  · refine graph.groups.nodup_keys.imp fun {first second} differ pair ofFirst ofSecond => ?_
    obtain ⟨_, -, rfl⟩ := List.mem_map.1 ofFirst
    obtain ⟨_, -, same⟩ := List.mem_map.1 ofSecond
    exact differ (Prod.mk.inj same).1.symm

theorem mem_groupsIn :
    identifier ∈ groupsIn scope graph ↔
      ∃ language, (identifier, language) ∈ groupLanguages scope graph := by
  have occupied : (!(languagesIn scope graph identifier).isEmpty) = true ↔
      ∃ language, language ∈ languagesIn scope graph identifier := by
    rw [Bool.not_eq_true', List.isEmpty_eq_false_iff_exists_mem]
  rw [groupsIn, List.mem_filter, occupied, KeySet.mem_toList]
  simp only [mem_languagesIn, mem_groupLanguages]
  exact ⟨fun ⟨present, language, included, known⟩ => ⟨language, included, present, known⟩,
    fun ⟨language, included, present, known⟩ => ⟨present, language, included, known⟩⟩

/-- Without a restriction all groups of a well-formed graph are known in some language. -/
theorem groupsIn_none (wellFormed : graph.WellFormed) :
    groupsIn none graph = graph.groups.toList := by
  refine List.filter_eq_self.2 fun identifier member => ?_
  obtain ⟨⟨view, facet, known⟩, -⟩ :=
    wellFormed.contains_groups_iff.1 (KeySet.mem_toList.1 member)
  have within : view.language ∈ languagesIn none graph identifier :=
    mem_languagesIn.2 ⟨rfl, view, facet, rfl, known⟩
  rw [Bool.not_eq_true', List.isEmpty_eq_false_iff]
  exact List.ne_nil_of_mem within

/-! ## Planned groups and their languages -/

/-- The planned groups by identifier and language. -/
def plannedLanguages (scope : Scope) (graph : UnifiedGraph) : List (String × String) :=
  (groupsOf scope graph).map fun group => (group.identifier, group.language)

/-- No two groups with the same identifier are planned for one language. -/
theorem nodup_plannedLanguages (wellFormed : graph.WellFormed) (scope : Scope) :
    (plannedLanguages scope graph).Nodup := by
  refine List.pairwise_map.2 ((isPlan_groupsOf wellFormed scope).apart.imp ?_)
  intro first second apart same
  obtain ⟨identifier, language⟩ := Prod.mk.inj same
  exact apart.identifier_ne language identifier

/-- **The groups that are planned for a language are those that it knows afterwards.** -/
theorem mem_plannedLanguages_iff (wellFormed : graph.WellFormed) :
    (identifier, language) ∈ plannedLanguages scope graph ↔
      (identifier, language) ∈ groupLanguages scope (groupUnified scope graph) := by
  rw [mem_groupLanguages, plannedLanguages]
  simp only [List.mem_map, Prod.mk.injEq]
  constructor
  · rintro ⟨group, member, rfl, rfl⟩
    have included := includes_of_mem_groupsOf wellFormed member
    exact ⟨included, (known_groups_groupUnified wellFormed included).2 ⟨group, member, rfl, rfl⟩⟩
  · rintro ⟨included, present⟩
    obtain ⟨group, member, own, same⟩ := (known_groups_groupUnified wellFormed included).1 present
    exact ⟨group, member, same.symm, own⟩

/-- **Each group is counted once for every language of the scope in which it is known.** -/
theorem length_groupsOf (wellFormed : graph.WellFormed) (scope : Scope) :
    (groupsOf scope graph).length =
      (groupLanguages scope (groupUnified scope graph)).length := by
  have perm : (plannedLanguages scope graph).Perm
      (groupLanguages scope (groupUnified scope graph)) := by
    refine (List.perm_ext_iff_of_nodup (nodup_plannedLanguages wellFormed scope)
      (nodup_groupLanguages scope _)).2 ?_
    exact fun _ => mem_plannedLanguages_iff wellFormed
  rw [← perm.length_eq, plannedLanguages, List.length_map]

/-- Two groups are planned under one identifier exactly if a symbol represents overloads in two
languages. -/
theorem nodup_identifiers_iff (wellFormed : graph.WellFormed) :
    ((groupsOf scope graph).map PlannedGroup.identifier).Nodup ↔ SharesNoGroup scope graph := by
  have planned : ∀ {language group : String}, scope.includes language = true →
      ((∃ ranked, OverloadsIn graph language group ranked) ↔
        (group, language) ∈ plannedLanguages scope graph) := by
    intro language group included
    have alike := readAlike_groupUnified wellFormed scope language
    simp only [alike.overloadsIn_iff, overloadsIn_groupUnified_iff wellFormed included,
      plannedLanguages, List.mem_map, Prod.mk.injEq]
    constructor
    · rintro ⟨_, one, member, own, rfl, -⟩
      exact ⟨one, member, rfl, own⟩
    · rintro ⟨one, member, same, own⟩
      exact ⟨one.members, one, member, own, same.symm, rfl⟩
  have identifiers : (groupsOf scope graph).map PlannedGroup.identifier =
      (plannedLanguages scope graph).map Prod.fst := by
    rw [plannedLanguages, List.map_map]
    rfl
  rw [identifiers, List.nodup_map_iff_inj_on (nodup_plannedLanguages wellFormed scope)]
  constructor
  · intro injective group first second ranked others ofFirst ofSecond one other
    have same := injective (group, first) ((planned ofFirst).1 ⟨ranked, one⟩) (group, second)
      ((planned ofSecond).1 ⟨others, other⟩) rfl
    exact (Prod.mk.inj same).2
  · rintro shared ⟨group, first⟩ one ⟨_, second⟩ other rfl
    have included : ∀ {language}, (group, language) ∈ plannedLanguages scope graph →
        scope.includes language = true := fun member =>
      (mem_groupLanguages.1 ((mem_plannedLanguages_iff wellFormed).1 member)).1
    obtain ⟨ranked, ofFirst⟩ := (planned (included one)).2 one
    obtain ⟨others, ofSecond⟩ := (planned (included other)).2 other
    rw [shared group first second ranked others (included one) (included other) ofFirst ofSecond]

/-! ## The count -/

/-- A list is as long as the list of its different members exactly if it has no repetitions. -/
theorem length_eq_iff_nodup {α : Type} {members different : List α} (distinct : different.Nodup)
    (same : ∀ member, member ∈ different ↔ member ∈ members) :
    members.length = different.length ↔ members.Nodup := by
  constructor
  · intro equal
    have within : different.Subperm members := distinct.subperm fun member => (same member).1
    exact (within.perm_of_length_le (Nat.le_of_eq equal)).nodup_iff.1 distinct
  · intro nodup
    have perm := (List.perm_ext_iff_of_nodup nodup distinct).2 fun member => (same member).symm
    exact perm.length_eq

/-- The identifiers of the planned groups are those of the groups that are known afterwards. -/
theorem mem_groupsIn_groupUnified (wellFormed : graph.WellFormed) :
    identifier ∈ groupsIn scope (groupUnified scope graph) ↔
      identifier ∈ (groupsOf scope graph).map PlannedGroup.identifier := by
  simp only [mem_groupsIn, ← mem_plannedLanguages_iff wellFormed, plannedLanguages, List.mem_map,
    Prod.mk.injEq]
  constructor
  · rintro ⟨_, group, member, same, -⟩
    exact ⟨group, member, same⟩
  · rintro ⟨group, member, same⟩
    exact ⟨group.language, group, member, same, rfl⟩

/-- **A grouping counts each group once for every language of its scope.** So it counts its groups
exactly if no symbol represents overloads in two of these languages. -/
theorem length_groupsOf_eq_iff (reachable : graph.Reachable) (scope : Scope) :
    (groupsOf scope graph).length =
        (groupLanguages scope (groupUnified scope graph)).length ∧
      ((groupsOf scope graph).length = (groupsIn scope (groupUnified scope graph)).length ↔
        SharesNoGroup scope graph) ∧
      ((groupsOf none graph).length = (groupUnified none graph).groups.size ↔
        SharesNoGroup none graph) := by
  have wellFormed := reachable.wellFormed
  have counted : ∀ scope,
      ((groupsOf scope graph).length = (groupsIn scope (groupUnified scope graph)).length ↔
        SharesNoGroup scope graph) := by
    intro scope
    have distinct : (groupsIn scope (groupUnified scope graph)).Nodup :=
      (groupUnified scope graph).groups.nodup_keys.filter _
    rw [← nodup_identifiers_iff wellFormed, ← length_eq_iff_nodup distinct fun _ =>
      mem_groupsIn_groupUnified wellFormed, List.length_map]
  refine ⟨length_groupsOf wellFormed scope, counted scope, ?_⟩
  have all : (groupsIn none (groupUnified none graph)).length =
      (groupUnified none graph).groups.size := by
    rw [groupsIn_none (wellFormed_groupUnified wellFormed none)]
    exact List.length_map ..
  rw [← all]
  exact counted none

/-- The unified graph of the overloads in two languages. -/
def unifiedBilingual : UnifiedGraph :=
  unifiedDrawings.merge translatedDrawings "Kit.occ.symbols.json" true

theorem reachable_unifiedBilingual : unifiedBilingual.Reachable :=
  .merge _ _ _ (.merge _ _ _ (.empty "Kit"))

/-- In one of the two languages the overloads have one group, and one is counted. -/
theorem length_groupsOf_eq_iff_bilingual :
    unifiedBilingual.Reachable ∧
      (groupsOf (some (KeySet.ofList ["swift"])) unifiedBilingual).length = 1 ∧
      SharesNoGroup (some (KeySet.ofList ["swift"])) unifiedBilingual := by
  have counts := length_groupsOf_eq_iff reachable_unifiedBilingual
    (some (KeySet.ofList ["swift"]))
  exact ⟨reachable_unifiedBilingual, by decide +kernel, counts.2.1.1 (by decide +kernel)⟩

/-- In both languages together they still have one group, but two are counted. -/
theorem length_groupsOf_bilingual :
    unifiedBilingual.Reachable ∧
      (groupsOf none unifiedBilingual).length = 2 ∧
      (groupsIn none (groupUnified none unifiedBilingual)).length = 1 ∧
      (groupUnified none unifiedBilingual).groups.size = 1 :=
  ⟨reachable_unifiedBilingual, by decide +kernel, by decide +kernel, by decide +kernel⟩

end ApiAtlas.Overload
