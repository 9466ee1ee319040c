import ApiAtlas.Proofs.Overload.Families
import ApiAtlas.Proofs.Overload.Plans

/-!
# What is planned

A plan has one group for each family, in the languages of its scope, of which at
least two members remain, and the members of the group are the ranking of the
family (`mem_plan_iff`). So no symbol is a member of two groups of one language,
and the groups can be added one after the other (`isPlan_plan`).
-/

set_option autoImplicit false

namespace ApiAtlas

namespace Overload

variable {scope : Scope} {graph : UnifiedGraph}

/-! ## Members of families -/

theorem mem_mainLanguages {identifier : String} {symbol : UnifiedSymbol}
    (found : graph.symbols.get? identifier = some symbol) {language : String} :
    language ∈ mainLanguages symbol ↔
      ∃ view facet, MainIn graph language identifier view facet := by
  simp only [mainLanguages, KeySet.mem_toList, KeySet.contains_ofList, UnifiedSymbol.mainViews,
    UnifiedSymbol.mainFacets, List.mem_map, List.mem_filter, mainIn_iff found, Prod.exists]
  constructor
  · rintro ⟨_, ⟨view, facet, ⟨member, isMain⟩, rfl⟩, own⟩
    exact ⟨view, facet, own, Table.get?_eq_some_iff.2 member, isMain⟩
  · rintro ⟨view, facet, own, known, isMain⟩
    exact ⟨view, ⟨view, facet, ⟨Table.get?_eq_some_iff.1 known, isMain⟩, rfl⟩, own⟩

theorem language_of_familyIn? {symbol : UnifiedSymbol} {language : String} {family : FamilyKey}
    (shown : familyIn? symbol language = some family) : family.language = language := by
  obtain ⟨facet, -, rfl⟩ := Option.map_eq_some_iff.1 shown
  rfl

/-- **The members that are found are those that are meant.** -/
theorem contains_unifiedFamilies {family : FamilyKey} {identifier : String} :
    (∃ members, (unifiedFamilies scope graph).get? family = some members ∧
        members.contains identifier = true) ↔
      scope.includes family.language = true ∧ BelongsTo graph family identifier := by
  rw [unifiedFamilies, contains_familiesOf, List.mem_flatMap]
  constructor
  · rintro ⟨⟨key, symbol⟩, entry, within⟩
    have found := Table.get?_eq_some_iff.2 entry
    split at within
    · cases within
    · next noGroup =>
      obtain ⟨language, included, made⟩ := List.mem_filterMap.1 within
      obtain ⟨read, shown, same⟩ := Option.map_eq_some_iff.1 made
      cases same
      obtain rfl := language_of_familyIn? shown
      exact ⟨(List.mem_filter.1 included).2, Bool.eq_false_iff.2 noGroup,
        (familyIn?_eq_some_iff found).1 shown⟩
  · rintro ⟨included, noGroup, view, facet, first, kind, path⟩
    obtain ⟨symbol, found, -⟩ := exists_of_facetIn first.main.known
    refine ⟨(identifier, symbol), Table.get?_eq_some_iff.1 found, ?_⟩
    rw [if_neg (by rw [noGroup]; exact Bool.false_ne_true), List.mem_filterMap]
    refine ⟨family.language, List.mem_filter.2 ⟨?_, included⟩, ?_⟩
    · exact (mem_mainLanguages found).2 ⟨view, facet, first.main⟩
    · rw [(familyIn?_eq_some_iff found).2 ⟨view, facet, first, kind, path⟩]
      rfl

/-- The set of the members of a family. -/
def IsFamily (graph : UnifiedGraph) (family : FamilyKey) (members : KeySet String) : Prop :=
  ∀ identifier, members.contains identifier = true ↔ BelongsTo graph family identifier

theorem isFamily_of_get? {family : FamilyKey} {members : KeySet String}
    (found : (unifiedFamilies scope graph).get? family = some members) :
    scope.includes family.language = true ∧ IsFamily graph family members := by
  have meant : ∀ identifier, members.contains identifier = true ↔
      scope.includes family.language = true ∧ BelongsTo graph family identifier := by
    intro identifier
    rw [← contains_unifiedFamilies, found]
    simp
  obtain ⟨member, within⟩ := exists_contains_of_get?_familiesOf found
  have included := ((meant member).1 within).1
  exact ⟨included, fun identifier => by rw [meant]; exact and_iff_right included⟩

/-! ## Rankings that are found -/

/-- A default implementation is found in the relationships of all views. -/
theorem isDefaultIn_iff_exists {members : KeySet String} {identifier : String} :
    isDefaultIn graph.allRelationships members identifier = true ↔
      ∃ view link mixins, Table.get? graph.edges (view, link) = some mixins ∧
        link.kind = .defaultImplementationOf ∧ link.source = identifier ∧
          members.contains link.target = true := by
  rw [isDefaultIn, List.any_eq_true]
  simp only [Bool.and_eq_true, decide_eq_true_eq]
  constructor
  · rintro ⟨relationship, member, ⟨kind, source⟩, target⟩
    obtain ⟨view, mixins, recorded⟩ :=
      EdgeTable.exists_mem_distinct.1 ⟨relationship, member, rfl⟩
    exact ⟨view, relationship.link, mixins, recorded, kind, source, target⟩
  · rintro ⟨view, link, mixins, recorded, kind, source, target⟩
    obtain ⟨relationship, member, rfl⟩ := EdgeTable.exists_mem_distinct.2 ⟨view, mixins, recorded⟩
    exact ⟨relationship, member, ⟨kind, source⟩, target⟩

/-- Who is found to be a default implementation is meant to be one. -/
theorem isDefaultIn_iff {family : FamilyKey} {members : KeySet String}
    (meant : IsFamily graph family members) {identifier : String} :
    isDefaultIn graph.allRelationships members identifier = true ↔
      Implements graph family identifier := by
  simp only [isDefaultIn_iff_exists, meant _, Implements]

theorem mem_eligible_iff {family : FamilyKey} {members : KeySet String}
    (meant : IsFamily graph family members) {identifier : String} :
    identifier ∈ eligible graph.allRelationships members ↔ Remains graph family identifier := by
  rw [eligible, List.mem_filter, KeySet.mem_toList, meant, Bool.not_eq_true', Remains,
    ← isDefaultIn_iff meant, Bool.not_eq_true]

/-- The candidates of the members of a family that count, in ascending order. -/
def rankedIn (graph : UnifiedGraph) (family : FamilyKey × KeySet String) : List Candidate :=
  Key.sort <| ((eligible graph.allRelationships family.2).filterMap graph.symbols.get?).map
    (unifiedCandidate family.1.language)

/-- Symbols that are there are found under their identifiers. -/
theorem map_identifier_filterMap (wellFormed : graph.WellFormed) {identifiers : List String}
    (present : ∀ identifier ∈ identifiers, graph.symbols.contains identifier = true) :
    (identifiers.filterMap graph.symbols.get?).map (·.identifier) = identifiers := by
  induction identifiers with
  | nil => rfl
  | cons identifier rest ih =>
    obtain ⟨symbol, found⟩ := Table.contains_iff.1 (present identifier (List.mem_cons_self ..))
    rw [List.filterMap_cons_some found, List.map_cons, wellFormed.identifier_eq found,
      ih fun other member => present other (List.mem_cons_of_mem _ member)]

theorem Remains.contains {family : FamilyKey} {identifier : String} (wellFormed : graph.WellFormed)
    (remains : Remains graph family identifier) : graph.symbols.contains identifier = true := by
  obtain ⟨⟨-, view, facet, first, -⟩, -⟩ := remains
  exact wellFormed.contains_iff.2 ⟨view, facet, first.main.known⟩

/-- The members that are ranked are those that count. -/
theorem map_identifier_rankedIn (wellFormed : graph.WellFormed) {family : FamilyKey}
    {members : KeySet String} (meant : IsFamily graph family members) :
    ((rankedIn graph (family, members)).map (·.identifier)).Perm
      (eligible graph.allRelationships members) := by
  have found := map_identifier_filterMap wellFormed fun identifier member =>
    ((mem_eligible_iff meant).1 member).contains wellFormed
  refine ((Key.sortBy_perm id _).map _).trans ?_
  rw [List.map_map]
  exact List.Perm.of_eq found

/-- **The ranking that is found is the one that is meant.** -/
theorem ranking_rankedIn (wellFormed : graph.WellFormed) {family : FamilyKey}
    {members : KeySet String} (meant : IsFamily graph family members) :
    Ranking graph family (rankedIn graph (family, members)) where
  described member within := by
    rw [rankedIn, Key.sort, (Key.sortBy_perm id _).mem_iff, List.mem_map] at within
    obtain ⟨symbol, found, rfl⟩ := within
    obtain ⟨identifier, -, present⟩ := List.mem_filterMap.1 found
    exact describes_unifiedCandidate present (wellFormed.identifier_eq present) family.language
  members identifier := by
    rw [← mem_eligible_iff meant, ← (map_identifier_rankedIn wellFormed meant).mem_iff,
      List.mem_map]
  ascending := by
    have distinct : ((rankedIn graph (family, members)).map (·.identifier)).Nodup :=
      (map_identifier_rankedIn wellFormed meant).nodup_iff.2
        ((Table.nodup_keys members).filter _)
    refine (Key.sortBy_ascending id _).imp₂ ?_ (List.pairwise_map.1 distinct)
    intro first second before differ
    rw [Candidate.precedes_iff]
    cases ranked : Key.rank first second with
    | lt => rfl
    | eq => exact absurd (congrArg Candidate.identifier (Key.eq_of_rank ranked)) differ
    | gt => exact absurd ranked before

/-- Every family has a ranking. -/
theorem exists_ranking (wellFormed : graph.WellFormed) (family : FamilyKey) :
    ∃ ranked, Ranking graph family ranked := by
  cases found : (unifiedFamilies none graph).get? family with
  | some members => exact ⟨_, ranking_rankedIn wellFormed (isFamily_of_get? found).2⟩
  | none =>
    refine ⟨[], fun _ => nofun, fun identifier => ⟨nofun, fun remains => ?_⟩, List.Pairwise.nil⟩
    obtain ⟨members, present, -⟩ := contains_unifiedFamilies.2
      ⟨(rfl : Scope.includes none family.language = true), remains.1⟩
    rw [found] at present
    cases present

/-! ## Plans -/

/-- The group with these ranked members, if there are any. -/
def groupOf (family : FamilyKey) : List Candidate → Option PlannedGroup
  | [] => none
  | representative :: others =>
    some { language := family.language, path := family.path, representative, others }

theorem groupOf_eq_some_iff {family : FamilyKey} {ranked : List Candidate} {group : PlannedGroup} :
    groupOf family ranked = some group ↔
      group.language = family.language ∧ group.path = family.path ∧ group.members = ranked := by
  obtain ⟨language, path, representative, others⟩ := group
  cases ranked with
  | nil =>
    constructor
    · intro planned
      cases planned
    · rintro ⟨-, -, same⟩
      cases same
  | cons first rest =>
    rw [groupOf, Option.some.injEq, PlannedGroup.mk.injEq, PlannedGroup.members, List.cons.injEq]
    constructor
    · rintro ⟨rfl, rfl, rfl, rfl⟩
      exact ⟨rfl, rfl, rfl, rfl⟩
    · rintro ⟨rfl, rfl, rfl, rfl⟩
      exact ⟨rfl, rfl, rfl, rfl⟩

theorem planFamily_eq (graph : UnifiedGraph) (family : FamilyKey) (members : KeySet String) :
    planFamily graph graph.allRelationships (family, members) =
      if (eligible graph.allRelationships members).length < 2 then none
      else groupOf family (rankedIn graph (family, members)) :=
  rfl

/-- A group is planned for a family if at least two members remain. -/
theorem planFamily_eq_some_iff (wellFormed : graph.WellFormed) {family : FamilyKey}
    {members : KeySet String} (meant : IsFamily graph family members) {group : PlannedGroup} :
    planFamily graph graph.allRelationships (family, members) = some group ↔
      group.language = family.language ∧ group.path = family.path ∧
        Ranking graph family group.members ∧ group.others ≠ [] := by
  have length : (eligible graph.allRelationships members).length =
      (rankedIn graph (family, members)).length := by
    rw [← (map_identifier_rankedIn wellFormed meant).length_eq, List.length_map]
  have found := ranking_rankedIn wellFormed meant
  have several : group.others ≠ [] ↔ ¬group.members.length < 2 := by
    rw [PlannedGroup.members, List.length_cons, ← List.length_pos_iff]
    omega
  rw [planFamily_eq, length, several]
  constructor
  · intro planned
    split at planned
    · cases planned
    · next enough =>
      obtain ⟨language, path, same⟩ := groupOf_eq_some_iff.1 planned
      rw [same]
      exact ⟨language, path, found, enough⟩
  · rintro ⟨language, path, ranking, enough⟩
    have same := ranking.unique found
    rw [if_neg (by rwa [← same])]
    exact groupOf_eq_some_iff.2 ⟨language, path, same⟩

/-- **A plan has a group for each family with a ranking of at least two members.** -/
theorem mem_plan_iff (wellFormed : graph.WellFormed) {group : PlannedGroup} :
    group ∈ plan scope graph ↔
      scope.includes group.language = true ∧ group.others ≠ [] ∧
        ∃ kind, Ranking graph { language := group.language, kind, path := group.path }
          group.members := by
  rw [plan, List.mem_filterMap]
  constructor
  · rintro ⟨⟨family, members⟩, entry, planned⟩
    obtain ⟨included, meant⟩ := isFamily_of_get? (Table.get?_eq_some_iff.2 entry)
    obtain ⟨language, path, ranking, several⟩ := (planFamily_eq_some_iff wellFormed meant).1 planned
    rw [language, path]
    exact ⟨included, several, family.kind, ranking⟩
  · rintro ⟨included, several, kind, ranking⟩
    obtain ⟨members, found, -⟩ := contains_unifiedFamilies.2
      ⟨included, ranking.belongsTo group.representative_mem⟩
    obtain ⟨-, meant⟩ := isFamily_of_get? found
    exact ⟨_, Table.get?_eq_some_iff.1 found,
      (planFamily_eq_some_iff wellFormed meant).2 ⟨rfl, rfl, ranking, several⟩⟩

/-- The groups of a plan do not get in each other's way. -/
theorem isPlan_plan (wellFormed : graph.WellFormed) : IsPlan (plan scope graph) where
  sound group member := by
    obtain ⟨-, -, kind, ranking⟩ := (mem_plan_iff wellFormed).1 member
    exact ⟨fun one within => (ranking.belongsTo within).plain wellFormed, ranking.distinct⟩
  apart := by
    -- Groups come from different families, and a symbol belongs to one family of a language.
    refine List.pairwise_filterMap.2 ((unifiedFamilies scope graph).ascending.imp_of_mem ?_)
    rintro ⟨family, members⟩ ⟨rival, others⟩ entry another before first planned second made
    obtain ⟨-, meant⟩ := isFamily_of_get? (Table.get?_eq_some_iff.2 entry)
    obtain ⟨-, named⟩ := isFamily_of_get? (Table.get?_eq_some_iff.2 another)
    obtain ⟨language, path, ranking, -⟩ := (planFamily_eq_some_iff wellFormed meant).1 planned
    obtain ⟨tongue, way, order, -⟩ := (planFamily_eq_some_iff wellFormed named).1 made
    intro shared one within other present same
    have belongs := ranking.belongsTo within
    rw [same] at belongs
    exact Key.ne_of_rank_lt before (belongs.unique (order.belongsTo present)
      (language.symm.trans (shared.trans tongue)))

/-- The groups that a grouping makes do not get in each other's way. -/
theorem isPlan_groupsOf (wellFormed : graph.WellFormed) (scope : Scope) :
    IsPlan (groupsOf scope graph) :=
  isPlan_plan (wellFormed.pruneUnified scope)

/-- The representatives of planned groups are known. -/
theorem isKnown_of_mem_plan (wellFormed : graph.WellFormed) {group : PlannedGroup}
    (member : group ∈ plan scope graph) : group.IsKnown graph := by
  obtain ⟨-, -, kind, ranking⟩ := (mem_plan_iff wellFormed).1 member
  obtain ⟨-, view, facet, first, -⟩ := ranking.belongsTo group.representative_mem
  exact ⟨view, facet, first.main.language_eq, first.main.known⟩

/-- Grouping leaves a well-formed graph. -/
theorem wellFormed_groupUnified (wellFormed : graph.WellFormed) (scope : Scope) :
    (groupUnified scope graph).WellFormed :=
  wellFormed_addGroups (wellFormed.pruneUnified scope)
    (isPlan_groupsOf wellFormed scope)
    fun _ member => isKnown_of_mem_plan (wellFormed.pruneUnified scope) member

end Overload

end ApiAtlas
