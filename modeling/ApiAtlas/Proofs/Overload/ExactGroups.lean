import ApiAtlas.Proofs.Overload.Planning

/-!
# Overloads are grouped exactly

After a grouping every family with at least two members that count has its
group, in each language of the scope, and nothing else has one: the groups, the
places of symbols in groups and the relationships to groups are those that the
rankings of the families ask for (`GroupedExactly`). What a group is called, what
a place says and what a relationship to a group consists of is written out there.
Nothing of an earlier grouping is left, whatever merges, groupings and
collections of orphans came before (`groupUnified_exact`).

The families are the same before and after a grouping, because a grouping
changes nothing of symbols that are no groups but their places
(`readAlike_groupUnified`).
-/

set_option autoImplicit false

namespace ApiAtlas

/-- The unified graphs to which merges, groupings and collections of orphans lead. -/
inductive UnifiedGraph.Reachable : UnifiedGraph → Prop
  | empty (moduleName : String) : Reachable (UnifiedGraph.empty moduleName)
  | merge {unified : UnifiedGraph} (graph : SymbolGraph) (source : String) (isMain : Bool) :
      Reachable unified → Reachable (unified.merge graph source isMain)
  | group {unified : UnifiedGraph} (scope : Overload.Scope) :
      Reachable unified → Reachable (Overload.groupUnified scope unified)
  | collectOrphans {unified : UnifiedGraph} :
      Reachable unified → Reachable unified.collectOrphans

theorem UnifiedGraph.Reachable.wellFormed {unified : UnifiedGraph}
    (reachable : unified.Reachable) : unified.WellFormed := by
  induction reachable with
  | empty moduleName => exact .empty moduleName
  | merge graph source isMain _ ih => exact ih.merge graph source isMain
  | group scope _ ih => exact Overload.wellFormed_groupUnified ih scope
  | collectOrphans _ ih => exact ih.collectOrphans

namespace Overload

/-! ## What a grouping is meant to do -/

/-- A family of a language has a ranking of at least two members, and a group whose identifier is
that of the first with an ending. -/
structure OverloadsIn (graph : UnifiedGraph) (language group : String)
    (ranked : List Candidate) : Prop where
  family : ∃ family : FamilyKey, family.language = language ∧ Ranking graph family ranked
  several : 2 ≤ ranked.length
  named : ∃ first, ranked.head? = some first ∧ group = first.identifier ++ "::OverloadGroup"

/-- In a language there are the groups of overloads, the places in them and the relationships to
them that there should be, and no others. -/
structure GroupedExactly (graph : UnifiedGraph) (language : String) : Prop where
  /-- Every family can be ranked. -/
  ranked : ∀ family : FamilyKey, family.language = language →
    ∃ ranked, Ranking graph family ranked
  /-- The groups that some view of the language knows are those of overloads. -/
  groups : ∀ identifier,
    (graph.groups.contains identifier = true ∧
        ∃ view facet, view.language = language ∧ graph.facetAt identifier view = some facet) ↔
      ∃ ranked, OverloadsIn graph language identifier ranked
  /-- The places in the views of the language are those of ranked members: they name the group and
  say how many members are ranked before. -/
  places : ∀ identifier view facet place, view.language = language →
    graph.facetAt identifier view = some facet →
      (Table.get? facet.mixins "overloadData" = some place ↔
        ∃ (group : String) (ranked : List Candidate) (index : Nat),
          OverloadsIn graph language group ranked ∧
            (ranked.map (·.identifier))[index]? = some identifier ∧
              place = .overload { group, index := index.toUInt64 })
  /-- The relationships to groups in the views of the language are those of ranked members, each in
  the views that know the member. They lead from the member to the group, and nothing else is known
  of them. -/
  memberships : ∀ view link mixins, view.language = language → link.kind = .overloadOf →
    (Table.get? graph.edges (view, link) = some mixins ↔
      mixins = Table.empty ∧ ∃ group ranked, OverloadsIn graph language group ranked ∧
        ∃ member ∈ ranked,
          link = { source := member.identifier, target := group, kind := .overloadOf,
                   targetFallback := none } ∧
            ∃ facet, graph.facetAt member.identifier view = some facet)

/-! ## Families before and after -/

variable {scope : Scope} {graph : UnifiedGraph} {language : String}

theorem ReadAlike.trans {first second third : UnifiedGraph}
    (forward : ReadAlike language first second) (onward : ReadAlike language second third) :
    ReadAlike language first third where
  ofFirst := forward.ofFirst
  ofSecond := onward.ofSecond
  facets identifier view plain own :=
    (forward.facets identifier view plain own).trans (onward.facets identifier view plain own)
  implementations view link kind source target :=
    (forward.implementations view link kind source target).trans
      (onward.implementations view link kind source target)

theorem readAlike_pruneUnified (wellFormed : graph.WellFormed) (scope : Scope)
    (language : String) : ReadAlike language graph (pruneUnified scope graph) where
  ofFirst := wellFormed
  ofSecond := wellFormed.pruneUnified scope
  facets identifier view plain _ := by
    rw [facetAt_pruneUnified, wellFormed.contains_groups_eq_false plain]
    cases scope.includes view.language with
    | false => rfl
    | true =>
      rw [if_pos rfl, if_neg Bool.false_ne_true, Option.map_map]
      refine congrArg (Option.map · _) (funext fun facet => ?_)
      exact facet.withoutPlace_withoutPlace.symm
  implementations view link kind source target := by
    have plain : link.concernsGroups = false :=
      Link.concernsGroups_eq_false_iff.2 ⟨by rw [kind]; exact nofun, source, target⟩
    exact (get?_edges_pruneUnified_of_plain wellFormed plain view).symm

theorem readAlike_addGroups (wellFormed : graph.WellFormed) {groups : List PlannedGroup}
    (plan : IsPlan groups) (known : ∀ group ∈ groups, group.IsKnown graph) (language : String) :
    ReadAlike language graph (groups.foldl addGroup graph) where
  ofFirst := wellFormed
  ofSecond := wellFormed_addGroups wellFormed plan known
  facets identifier view plain _ := by
    rw [facetAt_addGroups plan graph plain, Option.map_map]
    refine congrArg (Option.map · _) (funext fun facet => ?_)
    exact (facet.withoutPlace_withPlace _).symm
  implementations view link kind source _ := by
    have other : link.kind ≠ .overloadOf := by
      rw [kind]
      exact nofun
    rw [get?_edges_addGroups plan, findSome?_addedAt_eq_none groups graph other source]
    exact Option.merge_none_right.symm

/-- **A grouping changes no family.** -/
theorem readAlike_groupUnified (wellFormed : graph.WellFormed) (scope : Scope)
    (language : String) : ReadAlike language graph (groupUnified scope graph) :=
  have pruned := wellFormed.pruneUnified scope
  (readAlike_pruneUnified wellFormed scope language).trans
    (readAlike_addGroups pruned (isPlan_groupsOf wellFormed scope)
      (fun _ member => isKnown_of_mem_plan pruned member) language)

theorem ReadAlike.overloadsIn_iff {first second : UnifiedGraph}
    (alike : ReadAlike language first second) {group : String} {ranked : List Candidate} :
    OverloadsIn first language group ranked ↔ OverloadsIn second language group ranked := by
  have families : (∃ family : FamilyKey, family.language = language ∧
        Ranking first family ranked) ↔
      ∃ family : FamilyKey, family.language = language ∧ Ranking second family ranked :=
    exists_congr fun family => and_congr_right fun own => alike.ranking_iff own
  constructor
  · intro overloads
    exact ⟨families.1 overloads.family, overloads.several, overloads.named⟩
  · intro overloads
    exact ⟨families.2 overloads.family, overloads.several, overloads.named⟩

/-! ## Plans and what they are meant for -/

/-- The groups that are planned for a language are those of its overloads. -/
theorem overloadsIn_iff_mem_plan (wellFormed : graph.WellFormed)
    (included : scope.includes language = true) {group : String} {ranked : List Candidate} :
    OverloadsIn graph language group ranked ↔
      ∃ planned ∈ plan scope graph, planned.language = language ∧
        group = planned.identifier ∧ ranked = planned.members := by
  constructor
  · rintro ⟨⟨family, own, ranking⟩, several, ⟨first, head, rfl⟩⟩
    cases ranked with
    | nil => cases head
    | cons representative others =>
      obtain rfl := Option.some.inj head
      let planned : PlannedGroup :=
        { language := family.language, path := family.path, representative, others }
      have further : planned.others ≠ [] := fun none => by
        rw [show others = [] from none, List.length_singleton] at several
        omega
      subst own
      exact ⟨planned, (mem_plan_iff wellFormed).2 ⟨included, further, family.kind, ranking⟩,
        rfl, rfl, rfl⟩
  · rintro ⟨planned, member, rfl, rfl, rfl⟩
    obtain ⟨-, further, kind, ranking⟩ := (mem_plan_iff wellFormed).1 member
    refine ⟨⟨_, rfl, ranking⟩, ?_, planned.representative, rfl, rfl⟩
    have others := List.length_pos_iff.2 further
    simp only [PlannedGroup.members, List.length_cons]
    omega

/-! ## What a grouping does -/

section Grouping

variable {identifier : String} {view : View}

/-- Nothing is left of the groups of an earlier grouping. -/
theorem facetAt_pruneUnified_group (wellFormed : graph.WellFormed)
    (included : scope.includes view.language = true)
    (isGroup : isGroupIdentifier identifier = true) :
    (pruneUnified scope graph).facetAt identifier view = none := by
  rw [facetAt_pruneUnified, if_pos included]
  split
  · rfl
  · next noGroup =>
    rw [Option.map_eq_none_iff]
    cases known : graph.facetAt identifier view with
    | none => rfl
    | some facet =>
      exact absurd (wellFormed.contains_groups_iff.2 ⟨⟨view, facet, known⟩, isGroup⟩) noGroup

/-- Groups are planned for the languages of the scope alone. -/
theorem includes_of_mem_groupsOf (wellFormed : graph.WellFormed) {group : PlannedGroup}
    (member : group ∈ groupsOf scope graph) : scope.includes group.language = true :=
  ((mem_plan_iff (wellFormed.pruneUnified scope)).1 member).1

/-- Nothing is known yet of the groups that are planned once the earlier ones are removed. -/
theorem areFresh_groupsOf (wellFormed : graph.WellFormed) (scope : Scope) :
    AreFresh (groupsOf scope graph) (pruneUnified scope graph) := by
  intro planned member place own
  refine facetAt_pruneUnified_group wellFormed ?_ planned.isGroupIdentifier_identifier
  rw [own]
  exact includes_of_mem_groupsOf wellFormed member

/-- No place of an earlier grouping is left. -/
theorem get?_mixins_of_pruneUnified (included : scope.includes view.language = true)
    {facet : Facet} (known : (pruneUnified scope graph).facetAt identifier view = some facet) :
    Table.get? facet.mixins Mixin.overloadKey = none := by
  rw [facetAt_pruneUnified, if_pos included] at known
  split at known
  · cases known
  · obtain ⟨held, -, rfl⟩ := Option.map_eq_some_iff.1 known
    exact (Table.get?_erase ..).trans (if_pos rfl)

/-- What is known of a group in a view after a grouping is what it has from its representative. -/
theorem facetAt_groupUnified_group (wellFormed : graph.WellFormed)
    (included : scope.includes view.language = true)
    (isGroup : isGroupIdentifier identifier = true) :
    (groupUnified scope graph).facetAt identifier view =
      (groupIn? (groupsOf scope graph) identifier view.language).bind fun planned =>
        ((pruneUnified scope graph).facetAt planned.representative.identifier view).map
          groupFacet := by
  have plan := isPlan_groupsOf wellFormed scope
  have fresh := areFresh_groupsOf wellFormed scope
  refine (facetAt_addGroups_group plan _ fresh isGroup view).trans ?_
  rw [facetAt_pruneUnified_group wellFormed included isGroup]
  cases groupIn? (groupsOf scope graph) identifier view.language <;> rfl

/-- What is known of a symbol that is no group once a grouping is done. -/
theorem facetAt_groupUnified_plain (wellFormed : graph.WellFormed)
    (plain : isGroupIdentifier identifier = false) (view : View) :
    (groupUnified scope graph).facetAt identifier view =
      ((pruneUnified scope graph).facetAt identifier view).map
        (·.withPlace ((groupsOf scope graph).findSome? (·.place? view identifier))) :=
  facetAt_addGroups (isPlan_groupsOf wellFormed scope) _ plain view

/-- What is recorded once a grouping is done. -/
theorem get?_edges_groupUnified (wellFormed : graph.WellFormed) (view : View) (link : Link) :
    Table.get? (groupUnified scope graph).edges (view, link) =
      EdgeTable.join (Table.get? (pruneUnified scope graph).edges (view, link))
        ((groupsOf scope graph).findSome? (addedAt (pruneUnified scope graph) view link)) :=
  get?_edges_addGroups (isPlan_groupsOf wellFormed scope) _ view link

/-- The places in the views of a language are those that the plan gives. -/
theorem get?_place_groupUnified (wellFormed : graph.WellFormed)
    (included : scope.includes view.language = true) {facet : Facet}
    (known : (groupUnified scope graph).facetAt identifier view = some facet) {place : Mixin} :
    Table.get? facet.mixins Mixin.overloadKey = some place ↔
      ∃ planned ∈ groupsOf scope graph, planned.place? view identifier = some place := by
  have plan := isPlan_groupsOf wellFormed scope
  cases isGroup : isGroupIdentifier identifier with
  | true =>
    rw [facetAt_groupUnified_group wellFormed included isGroup, Option.bind_eq_some_iff] at known
    obtain ⟨planned, -, shown⟩ := known
    obtain ⟨held, -, rfl⟩ := Option.map_eq_some_iff.1 shown
    have bare : Table.get? (groupFacet held).mixins Mixin.overloadKey = none :=
      (Table.get?_erase ..).trans (if_pos rfl)
    rw [bare]
    constructor
    · intro placed
      cases placed
    · rintro ⟨other, member, placed⟩
      rw [PlannedGroup.place?, (plan.sound other member).position?_eq_none isGroup,
        Option.map_none, ite_self] at placed
      cases placed
  | false =>
    rw [facetAt_groupUnified_plain wellFormed isGroup, Option.map_eq_some_iff] at known
    obtain ⟨held, before, rfl⟩ := known
    rw [Facet.get?_mixins_withPlace (get?_mixins_of_pruneUnified included before)]
    exact findSome?_eq_some_iff_of_alone _ (plan.place?_alone view identifier)

/-- The groups that some view of a language knows are those that are planned for it. -/
theorem known_groups_groupUnified (wellFormed : graph.WellFormed)
    (included : scope.includes language = true) :
    ((groupUnified scope graph).groups.contains identifier = true ∧
        ∃ view facet, view.language = language ∧
          (groupUnified scope graph).facetAt identifier view = some facet) ↔
      ∃ planned ∈ groupsOf scope graph,
        planned.language = language ∧ identifier = planned.identifier := by
  have pruned := wellFormed.pruneUnified scope
  have plan := isPlan_groupsOf wellFormed scope
  constructor
  · rintro ⟨present, view, facet, rfl, known⟩
    have isGroup :=
      ((wellFormed_groupUnified wellFormed scope).contains_groups_iff.1 present).2
    rw [facetAt_groupUnified_group wellFormed included isGroup, Option.bind_eq_some_iff] at known
    obtain ⟨planned, found, -⟩ := known
    obtain ⟨member, same, own⟩ := plan.groupIn?_eq_some_iff.1 found
    exact ⟨planned, member, own, same.symm⟩
  · rintro ⟨planned, member, rfl, rfl⟩
    refine ⟨(contains_groups_addGroups _ _ _).2 (.inl ⟨planned, member, rfl⟩), ?_⟩
    obtain ⟨view, facet, language, known⟩ := isKnown_of_mem_plan pruned member
    refine ⟨view, groupFacet facet, language, ?_⟩
    rw [facetAt_groupUnified_group wellFormed (by rw [language, included])
      planned.isGroupIdentifier_identifier,
      plan.groupIn?_eq_some_iff.2 ⟨member, rfl, language.symm⟩, Option.bind_some, known]
    rfl

/-- The relationships to groups in the views of a language are those that the plan adds. -/
theorem get?_memberships_groupUnified (wellFormed : graph.WellFormed)
    (included : scope.includes view.language = true) {link : Link}
    (kind : link.kind = .overloadOf) {mixins : Mixins} :
    Table.get? (groupUnified scope graph).edges (view, link) = some mixins ↔
      ∃ planned ∈ groupsOf scope graph,
        addedAt (pruneUnified scope graph) view link planned = some mixins := by
  have plan := isPlan_groupsOf wellFormed scope
  have bare : Table.get? (pruneUnified scope graph).edges (view, link) = none := by
    rw [get?_edges_pruneUnified, included, kind]
    rfl
  rw [get?_edges_groupUnified wellFormed, bare, EdgeTable.join, Option.merge_none_left,
    findSome?_addedAt_eq_some_iff plan]

/-- Symbols that are no groups are known where they were before. -/
theorem exists_facetAt_groupUnified (wellFormed : graph.WellFormed)
    (plain : isGroupIdentifier identifier = false) :
    (∃ facet, (groupUnified scope graph).facetAt identifier view = some facet) ↔
      ∃ facet, (pruneUnified scope graph).facetAt identifier view = some facet := by
  rw [facetAt_groupUnified_plain wellFormed plain, ← Option.isSome_iff_exists,
    ← Option.isSome_iff_exists, Option.isSome_map]

/-- The overloads in a language after a grouping are those for which groups are planned. -/
theorem overloadsIn_groupUnified_iff (wellFormed : graph.WellFormed)
    (included : scope.includes language = true) {group : String} {ranked : List Candidate} :
    OverloadsIn (groupUnified scope graph) language group ranked ↔
      ∃ planned ∈ groupsOf scope graph, planned.language = language ∧
        group = planned.identifier ∧ ranked = planned.members := by
  have pruned := wellFormed.pruneUnified scope
  have alike := readAlike_groupUnified wellFormed scope language
  rw [← alike.overloadsIn_iff, (readAlike_pruneUnified wellFormed scope language).overloadsIn_iff]
  exact overloadsIn_iff_mem_plan pruned included

/-- The places after a grouping are those of ranked members. -/
theorem places_groupUnified (wellFormed : graph.WellFormed)
    (included : scope.includes view.language = true) {facet : Facet}
    (known : (groupUnified scope graph).facetAt identifier view = some facet) {place : Mixin} :
    Table.get? facet.mixins Mixin.overloadKey = some place ↔
      ∃ (group : String) (ranked : List Candidate) (index : Nat),
        OverloadsIn (groupUnified scope graph) view.language group ranked ∧
          (ranked.map (·.identifier))[index]? = some identifier ∧
            place = .overload { group, index := index.toUInt64 } := by
  have sound : ∀ planned ∈ groupsOf scope graph, planned.IsSound :=
    (isPlan_groupsOf wellFormed scope).sound
  rw [get?_place_groupUnified wellFormed included known]
  simp only [overloadsIn_groupUnified_iff wellFormed included]
  constructor
  · rintro ⟨group, member, placed⟩
    obtain ⟨language, index, within, same⟩ := (sound group member).place?_eq_some_iff.1 placed
    exact ⟨group.identifier, group.members, index, ⟨group, member, language.symm, rfl, rfl⟩,
      within, same⟩
  · rintro ⟨_, _, index, ⟨group, member, language, rfl, rfl⟩, within, same⟩
    refine ⟨group, member, ?_⟩
    exact (sound group member).place?_eq_some_iff.2 ⟨language.symm, index, within, same⟩

/-- The relationships to groups after a grouping are those of ranked members, where the members
are known. -/
theorem memberships_groupUnified (wellFormed : graph.WellFormed)
    (included : scope.includes view.language = true) {link : Link}
    (kind : link.kind = .overloadOf) {mixins : Mixins} :
    Table.get? (groupUnified scope graph).edges (view, link) = some mixins ↔
      mixins = Table.empty ∧ ∃ group ranked,
        OverloadsIn (groupUnified scope graph) view.language group ranked ∧
          ∃ member ∈ ranked,
            link = { source := member.identifier, target := group, kind := .overloadOf,
                     targetFallback := none } ∧
              ∃ facet, (groupUnified scope graph).facetAt member.identifier view = some facet := by
  have sound : ∀ planned ∈ groupsOf scope graph, planned.IsSound :=
    (isPlan_groupsOf wellFormed scope).sound
  rw [get?_memberships_groupUnified wellFormed included kind]
  simp only [overloadsIn_groupUnified_iff wellFormed included, addedAt_eq_some_iff kind]
  constructor
  · rintro ⟨group, member, bare, language, one, within, same, known⟩
    refine ⟨bare, group.identifier, group.members, ⟨group, member, language.symm, rfl, rfl⟩,
      one, within, same, ?_⟩
    exact (exists_facetAt_groupUnified wellFormed ((sound group member).plain one within)).2 known
  · rintro ⟨bare, _, _, ⟨group, member, language, rfl, rfl⟩, one, within, same, known⟩
    refine ⟨group, member, bare, language.symm, one, within, same, ?_⟩
    exact (exists_facetAt_groupUnified wellFormed ((sound group member).plain one within)).1 known

end Grouping

/-- **A grouping groups exactly the overloads in the languages of its scope.** The families and
their rankings may be read before the grouping or after it. -/
theorem groupUnified_exact (reachable : graph.Reachable) (scope : Scope)
    (included : scope.includes language = true) :
    GroupedExactly (groupUnified scope graph) language ∧
      ∀ (family : FamilyKey) (ranked : List Candidate), family.language = language →
        (Ranking (groupUnified scope graph) family ranked ↔ Ranking graph family ranked) := by
  have wellFormed := reachable.wellFormed
  have alike := readAlike_groupUnified wellFormed scope language
  refine ⟨⟨fun family _ => exists_ranking alike.ofSecond family, fun identifier => ?_, ?_, ?_⟩,
    fun family ranked own => (alike.ranking_iff own).symm⟩
  · rw [known_groups_groupUnified wellFormed included]
    simp only [overloadsIn_groupUnified_iff wellFormed included]
    constructor
    · rintro ⟨group, member, own, same⟩
      exact ⟨group.members, group, member, own, same, rfl⟩
    · rintro ⟨_, group, member, own, same, -⟩
      exact ⟨group, member, own, same⟩
  · intro identifier view facet place own known
    subst own
    exact places_groupUnified wellFormed included known
  · intro view link mixins own kind
    subst own
    exact memberships_groupUnified wellFormed included kind

/-- A method of a class, one of several with the same name. -/
def drawing (identifier : String) : Symbol :=
  { identifier
    language := "swift"
    description :=
      { kind := { identifier := .instanceMethod, displayName := "Method", source := "swift.method" }
        path := ["Widget", "draw"]
        names := { title := "draw" }
        accessLevel := "public" } }

/-- A class with two overloads of a method, of which one says where it belongs. -/
def drawings : SymbolGraph :=
  let kit : SymbolGraph := { module := { name := "Kit" } }
  ((kit.addSymbol (drawing "drawAt")).addSymbol (drawing "drawIn")).addRelationship
    (Relationship.between "drawAt" "widget" .memberOf)

/-- The unified graph of the overloads alone. -/
def unifiedDrawings : UnifiedGraph :=
  (UnifiedGraph.empty "Kit").merge drawings "Kit.symbols.json" true

theorem groupUnified_exact_drawings :
    unifiedDrawings.Reachable ∧ Scope.includes none "swift" = true ∧
      (groupUnified none unifiedDrawings).groups.contains "drawAt::OverloadGroup" = true ∧
      GroupedExactly (groupUnified none unifiedDrawings) "swift" :=
  have reachable : unifiedDrawings.Reachable := .merge _ _ _ (.empty "Kit")
  ⟨reachable, rfl, by decide +kernel, (groupUnified_exact reachable none rfl).1⟩

end Overload

end ApiAtlas
