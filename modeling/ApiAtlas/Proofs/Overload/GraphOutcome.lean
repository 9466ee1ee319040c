import ApiAtlas.Proofs.Overload.GivingGroups
import ApiAtlas.Proofs.Overload.Mirroring

/-!
# What grouping one graph comes to

The outcome is told from the graph alone, whether or not it has groups already.
Earlier groups go, and with them the relationships that touch them and all
relationships of members to groups (`keptRelationships`). Each family whose
members that count are two or more has a group (`AreOverloads`), and the graph
afterwards is determined by these groups (`IsGroupedBy`): who is there, who has
which place, which symbol a group is, and in which order all relationships are
listed (`relationshipsOf`). Nothing is left open by this (`IsGroupedBy.unique`).

Earlier groups may still be mentioned by relationships, if they are no symbols.
Unifying such a graph is then another matter, but its families and rankings are
those of the unified graph all the same (`ranking_unified_prune_iff`).
-/

set_option autoImplicit false

namespace ApiAtlas.Overload

variable {graph : SymbolGraph} {family : FamilyKey} {identifier : String}

/-! ## What grouping one graph is meant to do -/

/-- The graph has a group with this identifier, and grouping removes it. -/
def IsEarlierGroup (graph : SymbolGraph) (identifier : String) : Prop :=
  isGroupIdentifier identifier = true ∧ graph.symbols.contains identifier = true

instance (graph : SymbolGraph) (identifier : String) :
    Decidable (IsEarlierGroup graph identifier) :=
  inferInstanceAs (Decidable (_ ∧ _))

/-- The relationships that are no memberships in groups and touch no group of the graph. -/
def keptRelationships (graph : SymbolGraph) : List Relationship :=
  graph.relationships.filter fun relationship =>
    relationship.link.kind ≠ .overloadOf ∧ ¬IsEarlierGroup graph relationship.link.source ∧
      ¬IsEarlierGroup graph relationship.link.target

/-- A symbol that is no group is a member of the family of its language, kind and path. -/
def IsMember (graph : SymbolGraph) (family : FamilyKey) (identifier : String) : Prop :=
  isGroupIdentifier identifier = false ∧
    ∃ symbol, graph.symbols.get? identifier = some symbol ∧ familyOf symbol = family

/-- A member counts unless it is kept as the default implementation of a member. -/
def Counts (graph : SymbolGraph) (family : FamilyKey) (identifier : String) : Prop :=
  IsMember graph family identifier ∧
    ¬∃ relationship ∈ keptRelationships graph,
      relationship.link.kind = .defaultImplementationOf ∧
        relationship.link.source = identifier ∧ IsMember graph family relationship.link.target

/-- The candidate says what its symbol says: whether the symbol is deprecated, and the spellings, in
a row, of the simplified declaration; without a declaration there are none. -/
structure DescribesSymbol (symbol : Symbol) (member : Candidate) : Prop where
  identifier : member.identifier = symbol.identifier
  deprecated : member.isDeprecated = true ↔ symbol.mixins.SaysDeprecated
  declared : ∀ fragments, symbol.mixins.Declares fragments →
    member.declaration = String.join ((Declaration.simplify fragments).map (·.spelling))
  undeclared : (∀ fragments, ¬symbol.mixins.Declares fragments) → member.declaration = ""

/-- The members of a family that count, as they are ranked: those that are not deprecated first,
then by the text of the simplified declaration, then by identifier. -/
structure IsRanking (graph : SymbolGraph) (family : FamilyKey) (ranked : List Candidate) :
    Prop where
  described : ∀ member ∈ ranked, ∃ symbol,
    graph.symbols.get? member.identifier = some symbol ∧ DescribesSymbol symbol member
  members : ∀ identifier, (∃ member ∈ ranked, member.identifier = identifier) ↔
    Counts graph family identifier
  ascending : ranked.Pairwise Candidate.Precedes

/-- A family comes before another one by its language; in one language its kind decides, and then
the path. -/
def FamilyKey.Precedes (first second : FamilyKey) : Prop :=
  first.language < second.language ∨
    first.language = second.language ∧
      (Key.rank first.kind second.kind = .lt ∨
        first.kind = second.kind ∧ first.path < second.path)

/-- A table has a group for each family of which at least two members count, with the members as
they are ranked, and no others. -/
structure AreOverloads (graph : SymbolGraph) (overloads : Table FamilyKey PlannedGroup) :
    Prop where
  groups : ∀ family group, overloads.get? family = some group ↔
    group.language = family.language ∧ group.path = family.path ∧
      IsRanking graph family group.members ∧ group.others ≠ []
  ascending : overloads.keys.Pairwise FamilyKey.Precedes

/-- A group is a copy of the symbol that represents it, under its own identifier and without a
place. -/
structure IsGroupOf (group : PlannedGroup) (representative symbol : Symbol) : Prop where
  identifier : symbol.identifier = group.representative.identifier ++ "::OverloadGroup"
  language : symbol.language = representative.language
  kind : symbol.description.kind = representative.description.kind
  path : symbol.description.path = representative.description.path
  accessLevel : symbol.description.accessLevel = representative.description.accessLevel
  names : NamedAfter representative.description.names representative.mixins
    symbol.description.names
  comment : symbol.comment = representative.comment
  mixins : symbol.mixins = Table.erase representative.mixins "overloadData"

/-- What a group brings to the relationships that are kept: copies of those that place the
representative, with the group as their source, and then one from each ranked member to the
group. -/
def relationshipsOf (kept : List Relationship) (group : PlannedGroup) : List Relationship :=
  let identifier := group.representative.identifier ++ "::OverloadGroup"
  let placing := kept.filter fun relationship =>
    relationship.link.source = group.representative.identifier ∧
      relationship.link.kind ∈ [.memberOf, .requirementOf, .optionalRequirementOf, .extensionTo]
  let copies := placing.map fun relationship =>
    { relationship with link := { relationship.link with source := identifier } }
  copies ++ group.members.map fun member =>
    { link := { source := member.identifier, target := identifier, kind := .overloadOf,
                targetFallback := none }
      mixins := Table.empty }

/-- A grouping is what a graph comes to with the groups of a table. -/
structure IsGroupedBy (graph : SymbolGraph) (overloads : Table FamilyKey PlannedGroup)
    (grouping : Grouping) : Prop where
  module : grouping.graph.module = graph.module
  metadata : grouping.graph.metadata = graph.metadata
  /-- Symbols that are no groups are the same, but for their places. -/
  symbols : ∀ identifier, isGroupIdentifier identifier = false →
    (grouping.graph.symbols.get? identifier).map Symbol.withoutPlace =
      (graph.symbols.get? identifier).map Symbol.withoutPlace
  /-- Their places are those of ranked members: they name the group and say how many members are
  ranked before. -/
  places : ∀ identifier symbol place, isGroupIdentifier identifier = false →
    grouping.graph.symbols.get? identifier = some symbol →
      (Table.get? symbol.mixins "overloadData" = some place ↔
        ∃ family group, ∃ index : Nat, overloads.get? family = some group ∧
          (group.members.map (·.identifier))[index]? = some identifier ∧
            place = .overload
              { group := group.representative.identifier ++ "::OverloadGroup"
                index := index.toUInt64 })
  /-- The groups are those of the table. -/
  groups : ∀ identifier symbol, isGroupIdentifier identifier = true →
    (grouping.graph.symbols.get? identifier = some symbol ↔
      ∃ family group representative, overloads.get? family = some group ∧
        graph.symbols.get? group.representative.identifier = some representative ∧
          identifier = group.representative.identifier ++ "::OverloadGroup" ∧
            IsGroupOf group representative symbol)
  /-- First come the relationships that are kept; then, family by family, what the group brings. -/
  relationships : grouping.graph.relationships =
    keptRelationships graph ++ overloads.values.flatMap (relationshipsOf (keptRelationships graph))
  count : grouping.count = overloads.size

/-! ## What is meant is meant in one way -/

/-- A graph has one table of overloads. -/
theorem AreOverloads.unique {overloads others : Table FamilyKey PlannedGroup}
    (one : AreOverloads graph overloads) (another : AreOverloads graph others) :
    overloads = others := by
  refine Table.ext_get? fun family => Option.ext fun group => ?_
  exact (one.groups family group).trans (another.groups family group).symm

/-- Symbols that have the same place and are otherwise the same are equal. -/
theorem eq_of_withoutPlace {first second : Symbol}
    (same : first.withoutPlace = second.withoutPlace)
    (place : Table.get? first.mixins Mixin.overloadKey =
      Table.get? second.mixins Mixin.overloadKey) : first = second := by
  have mixins : first.mixins = second.mixins := by
    refine Table.ext_get? fun key => ?_
    by_cases own : key = Mixin.overloadKey
    · rw [own, place]
    · have others := congrArg (fun symbol : Symbol => Table.get? symbol.mixins key) same
      simpa only [Symbol.withoutPlace, Table.get?_erase, if_neg own] using others
  cases first
  cases second
  simp_all [Symbol.withoutPlace]

/-- **With its groups a graph comes to one thing.** -/
theorem IsGroupedBy.unique {overloads : Table FamilyKey PlannedGroup} {first second : Grouping}
    (one : IsGroupedBy graph overloads first) (another : IsGroupedBy graph overloads second) :
    first = second := by
  have symbols : first.graph.symbols = second.graph.symbols := by
    refine Table.ext_get? fun identifier => ?_
    cases isGroup : isGroupIdentifier identifier with
    | true =>
      apply Option.ext
      intro symbol
      exact (one.groups identifier symbol isGroup).trans
        (another.groups identifier symbol isGroup).symm
    | false =>
      have same := (one.symbols identifier isGroup).trans (another.symbols identifier isGroup).symm
      cases found : first.graph.symbols.get? identifier with
      | none =>
        rw [found, Option.map_none, eq_comm, Option.map_eq_none_iff] at same
        exact same.symm
      | some symbol =>
        rw [found, Option.map_some, eq_comm, Option.map_eq_some_iff] at same
        obtain ⟨other, present, alike⟩ := same
        rw [present, eq_of_withoutPlace alike]
        apply Option.ext
        intro place
        exact (another.places identifier other place isGroup present).trans
          (one.places identifier symbol place isGroup found).symm
  obtain ⟨⟨_, _, _, _⟩, _⟩ := first
  obtain ⟨⟨_, _, _, _⟩, _⟩ := second
  simp only [Grouping.mk.injEq, SymbolGraph.mk.injEq]
  exact ⟨⟨one.metadata.trans another.metadata.symm, one.module.trans another.module.symm, symbols,
    one.relationships.trans another.relationships.symm⟩, one.count.trans another.count.symm⟩

/-- The families stand in a table in the order that is meant. -/
theorem FamilyKey.precedes_iff {first second : FamilyKey} :
    first.Precedes second ↔ Key.rank first second = .lt := by
  refine Iff.trans ?_ (Key.rank_triple_lt_iff first.parts second.parts).symm
  rw [Key.rank_text_lt_iff, Key.rank_texts_lt_iff]
  exact Iff.rfl

/-- What is meant to be brought is what is brought. -/
theorem relationshipsOf_eq_broughtBy (kept : List Relationship) (group : PlannedGroup) :
    relationshipsOf kept group = broughtBy kept group := by
  have placing : (kept.filter fun relationship =>
        relationship.link.source = group.representative.identifier ∧
          relationship.link.kind ∈
            [.memberOf, .requirementOf, .optionalRequirementOf, .extensionTo]) =
      kept.filter (placesSymbol group.representative.identifier) := by
    refine List.filter_congr fun relationship _ => ?_
    rw [Bool.eq_iff_iff, decide_eq_true_iff, placesSymbol_iff, RelationshipKind.isStructural_iff]
  rw [relationshipsOf, placing]
  rfl

/-- The candidate of a symbol is the only one that describes it. -/
theorem describesSymbol_iff {symbol : Symbol} {member : Candidate} :
    DescribesSymbol symbol member ↔ member = candidate symbol := by
  constructor
  · rintro ⟨identifier, deprecated, declared, undeclared⟩
    obtain ⟨isDeprecated, declaration, _⟩ := member
    have flag : isDeprecated = symbol.mixins.isDeprecated := by
      rw [Bool.eq_iff_iff, deprecated, Mixins.isDeprecated_iff]
    dsimp only at identifier
    subst identifier flag
    cases found : symbol.mixins.declaration? with
    | none =>
      obtain rfl := undeclared (Mixins.declaration?_eq_none_iff.1 found)
      rw [candidate, found]
      rfl
    | some fragments =>
      obtain rfl := declared fragments (Mixins.declaration?_eq_some_iff.1 found)
      rw [candidate, found]
      rfl
  · rintro rfl
    refine ⟨rfl, Mixins.isDeprecated_iff, fun fragments declares => ?_, fun nothing => ?_⟩
    · rw [candidate, Mixins.declaration?_eq_some_iff.2 declares]
      rfl
    · rw [candidate, Mixins.declaration?_eq_none_iff.2 nothing]
      rfl

/-! ## Reading the graph without its groups -/

theorem relationships_prune (graph : SymbolGraph) :
    (prune graph).relationships = keptRelationships graph := by
  refine List.filter_congr fun relationship _ => ?_
  rw [Bool.eq_iff_iff]
  refine Iff.trans ?_ decide_eq_true_iff.symm
  simp only [IsEarlierGroup, Bool.and_eq_true, Bool.not_eq_true', decide_eq_true_eq, ne_eq,
    ← Bool.not_eq_true, and_assoc]

/-- A symbol is a member of a family exactly if it belongs to it once the graph is unified. -/
theorem belongsTo_unified_prune_iff (keyed : graph.IsWellKeyed) :
    BelongsTo (prune graph).unified family identifier ↔ IsMember graph family identifier := by
  rw [belongsTo_unified_iff (isWellKeyed_prune keyed) (hasNoGroups_prune graph), IsMember]
  cases plain : isGroupIdentifier identifier with
  | true => simp [get?_symbols_prune, plain]
  | false =>
    rw [get?_symbols_prune_plain plain]
    simp only [Option.map_eq_some_iff, true_and]
    constructor
    · rintro ⟨_, ⟨symbol, found, rfl⟩, own⟩
      exact ⟨symbol, found, own⟩
    · rintro ⟨symbol, found, own⟩
      exact ⟨symbol.withoutPlace, ⟨symbol, found, rfl⟩, own⟩

theorem remains_unified_prune_iff (keyed : graph.IsWellKeyed) :
    Remains (prune graph).unified family identifier ↔ Counts graph family identifier := by
  rw [Remains, Counts, belongsTo_unified_prune_iff keyed]
  refine and_congr_right fun member => not_congr ?_
  obtain ⟨plain, symbol, found, -⟩ := member
  have pruned : (prune graph).symbols.get? identifier = some symbol.withoutPlace := by
    rw [get?_symbols_prune_plain plain, found]
    rfl
  rw [implements_unified_iff (isWellKeyed_prune keyed) pruned, relationships_prune]
  simp only [belongsTo_unified_prune_iff keyed]

/-- The candidate of a symbol is the one that describes it once the graph is unified. -/
theorem describes_unified_iff (keyed : graph.IsWellKeyed) {member : Candidate} {symbol : Symbol}
    (found : graph.symbols.get? member.identifier = some symbol) :
    Describes graph.unified symbol.language member ↔ member = candidate symbol := by
  obtain ⟨held, present, made⟩ := Option.map_eq_some_iff.1 (unifiedCandidate_unified keyed found)
  have described := describes_unifiedCandidate present
    (graph.wellFormed_unified.identifier_eq present) symbol.language
  rw [made] at described
  constructor
  · intro same
    exact same.eq_of_identifier described (keyed _ symbol found).symm
  · rintro rfl
    exact described

/-- **The rankings of a graph's families are those of the unified graph**, once earlier groups are
removed. -/
theorem ranking_unified_prune_iff (keyed : graph.IsWellKeyed) {ranked : List Candidate} :
    Ranking (prune graph).unified family ranked ↔ IsRanking graph family ranked := by
  have described : ∀ member : Candidate, Counts graph family member.identifier →
      (Describes (prune graph).unified family.language member ↔ ∃ symbol,
        graph.symbols.get? member.identifier = some symbol ∧ DescribesSymbol symbol member) := by
    rintro member ⟨⟨plain, symbol, found, rfl⟩, -⟩
    have pruned : (prune graph).symbols.get? member.identifier = some symbol.withoutPlace := by
      rw [get?_symbols_prune_plain plain, found]
      rfl
    refine (describes_unified_iff (isWellKeyed_prune keyed) pruned).trans ?_
    rw [candidate_withoutPlace, ← describesSymbol_iff, found]
    simp
  constructor
  · intro ranking
    have members : ∀ identifier, (∃ member ∈ ranked, member.identifier = identifier) ↔
        Counts graph family identifier :=
      fun identifier => (ranking.members identifier).trans (remains_unified_prune_iff keyed)
    refine ⟨fun member within => ?_, members, ranking.ascending⟩
    exact (described member ((members _).1 ⟨member, within, rfl⟩)).1
      (ranking.described member within)
  · intro ranking
    refine ⟨fun member within => ?_, fun identifier => ?_, ranking.ascending⟩
    · exact (described member ((ranking.members _).1 ⟨member, within, rfl⟩)).2
        (ranking.described member within)
    · exact (ranking.members identifier).trans (remains_unified_prune_iff keyed).symm

/-! ## The groups of a graph -/

/-- The groups of a graph's families. -/
def overloadsOf (graph : SymbolGraph) : Table FamilyKey PlannedGroup :=
  (unifiedFamilies none (prune graph).unified).filterMap fun family members =>
    planFamily (prune graph).unified (prune graph).unified.allRelationships (family, members)

theorem values_overloadsOf (graph : SymbolGraph) :
    (overloadsOf graph).values = plan none (prune graph).unified := by
  rw [Table.values, overloadsOf, Table.filterMap, List.map_filterMap, plan]
  refine congrArg (List.filterMap · _) (funext fun entry => ?_)
  rw [Table.mapEntry, Option.map_map]
  exact Option.map_id_apply

theorem areOverloads_overloadsOf (keyed : graph.IsWellKeyed) :
    AreOverloads graph (overloadsOf graph) := by
  refine ⟨fun family group => ?_,
    List.pairwise_map.2 ((overloadsOf graph).ascending.imp FamilyKey.precedes_iff.2)⟩
  rw [overloadsOf, Table.get?_filterMap, Option.bind_eq_some_iff,
    ← ranking_unified_prune_iff keyed]
  constructor
  · rintro ⟨members, found, planned⟩
    exact (planFamily_eq_some_iff (prune graph).wellFormed_unified
      (isFamily_of_get? found).2).1 planned
  · rintro ⟨language, path, ranking, several⟩
    obtain ⟨members, found, -⟩ := contains_unifiedFamilies.2
      ⟨(rfl : Scope.includes none family.language = true),
        ranking.belongsTo group.representative_mem⟩
    exact ⟨members, found, (planFamily_eq_some_iff (prune graph).wellFormed_unified
      (isFamily_of_get? found).2).2 ⟨language, path, ranking, several⟩⟩

/-- The symbol of a group is a copy of its representative. -/
theorem isGroupOf_iff {group : PlannedGroup} {representative symbol : Symbol} :
    IsGroupOf group representative symbol ↔
      symbol = groupSymbol group.identifier representative.withoutPlace := by
  have declaration : representative.withoutPlace.mixins.declaration? =
      representative.mixins.declaration? := by
    rw [Symbol.withoutPlace, Mixins.declaration?, Table.get?_erase, if_neg (by decide),
      Mixins.declaration?]
  rw [groupSymbol, declaration]
  constructor
  · rintro ⟨identifier, language, kind, path, accessLevel, names, comment, mixins⟩
    obtain ⟨_, _, ⟨_, _, _, _⟩, _, _⟩ := symbol
    rw [namedAfter_iff] at names
    dsimp only at identifier language kind path accessLevel names comment mixins
    subst identifier language kind path accessLevel names comment mixins
    rfl
  · rintro rfl
    exact ⟨rfl, rfl, rfl, rfl, rfl, namedAfter_iff.2 rfl, rfl, rfl⟩

/-! ## The outcome -/

section Outcome

variable (keyed : graph.IsWellKeyed)

include keyed

theorem ready_overloadsOf : Ready (prune graph) (prune graph) (overloadsOf graph).values := by
  rw [values_overloadsOf]
  exact ready_prune keyed

/-- Grouping gives the graph the groups of its families in the order of the families. -/
theorem groupGraph_eq_overloadsOf :
    groupGraph graph =
      { graph := (overloadsOf graph).values.foldl giveGroup (prune graph)
        count := (overloadsOf graph).size } := by
  rw [groupGraph_eq keyed, ← values_overloadsOf, Table.values, List.length_map, Table.size]

/-- A symbol that is no group, once the graph is grouped. -/
theorem get?_symbols_groupGraph (plain : isGroupIdentifier identifier = false) :
    (groupGraph graph).graph.symbols.get? identifier =
      (graph.symbols.get? identifier).map fun symbol => symbol.withoutPlace.placed
        ((overloadsOf graph).values.findSome?
          (·.place? (View.ofSymbol symbol graph.module) identifier)) := by
  rw [groupGraph_eq_overloadsOf keyed, (ready_overloadsOf keyed).symbols_plain plain,
    get?_symbols_prune_plain plain, Option.map_map]
  rfl

/-- The members of groups are symbols of their group's language. -/
theorem language_of_overloadsOf {group : PlannedGroup} {index : Nat} {symbol : Symbol}
    (entry : (overloadsOf graph).get? family = some group)
    (within : (group.members.map (·.identifier))[index]? = some identifier)
    (found : graph.symbols.get? identifier = some symbol) : symbol.language = group.language := by
  obtain ⟨language, -, ranking, -⟩ :=
    ((areOverloads_overloadsOf keyed).groups family group).1 entry
  obtain ⟨member, present, rfl⟩ := List.mem_map.1 (List.mem_of_getElem? within)
  obtain ⟨⟨-, held, same, own⟩, -⟩ := (ranking.members _).1 ⟨member, present, rfl⟩
  rw [found, Option.some.injEq] at same
  rw [same, language, ← own]
  rfl

/-- The places are those of ranked members. -/
theorem places_groupGraph (plain : isGroupIdentifier identifier = false) {symbol : Symbol}
    (found : (groupGraph graph).graph.symbols.get? identifier = some symbol) {place : Mixin} :
    Table.get? symbol.mixins Mixin.overloadKey = some place ↔
      ∃ family group, ∃ index : Nat, (overloadsOf graph).get? family = some group ∧
        (group.members.map (·.identifier))[index]? = some identifier ∧
          place = .overload
            { group := group.representative.identifier ++ "::OverloadGroup"
              index := index.toUInt64 } := by
  have plan := (ready_overloadsOf keyed).plan
  rw [get?_symbols_groupGraph keyed plain, Option.map_eq_some_iff] at found
  obtain ⟨held, present, rfl⟩ := found
  have bare : Table.get? held.withoutPlace.mixins Mixin.overloadKey = none :=
    (Table.get?_erase ..).trans (if_pos rfl)
  rw [Symbol.get?_mixins_placed bare, findSome?_eq_some_iff_of_alone _
    (plan.place?_alone (View.ofSymbol held graph.module) identifier)]
  constructor
  · rintro ⟨group, member, placed⟩
    obtain ⟨family, entry⟩ := Table.mem_values.1 member
    obtain ⟨-, index, within, same⟩ := (plan.sound group member).place?_eq_some_iff.1 placed
    exact ⟨family, group, index, entry, within, same⟩
  · rintro ⟨family, group, index, entry, within, same⟩
    have member := Table.mem_values.2 ⟨family, entry⟩
    refine ⟨group, member, (plan.sound group member).place?_eq_some_iff.2 ?_⟩
    exact ⟨language_of_overloadsOf keyed entry within present, index, within, same⟩

/-- The groups are copies of the first ranked members. -/
theorem groups_groupGraph (isGroup : isGroupIdentifier identifier = true) {symbol : Symbol} :
    (groupGraph graph).graph.symbols.get? identifier = some symbol ↔
      ∃ family group representative, (overloadsOf graph).get? family = some group ∧
        graph.symbols.get? group.representative.identifier = some representative ∧
          identifier = group.representative.identifier ++ "::OverloadGroup" ∧
            IsGroupOf group representative symbol := by
  have ready := ready_overloadsOf keyed
  have found : ∀ group ∈ (overloadsOf graph).values,
      (prune graph).symbols.get? group.representative.identifier =
        (graph.symbols.get? group.representative.identifier).map Symbol.withoutPlace :=
    fun group member => get?_symbols_prune_plain
      ((ready.plan.sound group member).plain _ group.representative_mem)
  rw [groupGraph_eq_overloadsOf keyed, ready.symbols_group isGroup, get?_symbols_prune,
    if_pos isGroup, or_iff_right (by simp)]
  constructor
  · rintro ⟨group, member, same, copied, present, made⟩
    rw [found group member, Option.map_eq_some_iff] at present
    obtain ⟨representative, held, rfl⟩ := present
    obtain ⟨family, entry⟩ := Table.mem_values.1 member
    exact ⟨family, group, representative, entry, held, same, isGroupOf_iff.2 made⟩
  · rintro ⟨family, group, representative, entry, held, same, made⟩
    have member := Table.mem_values.2 ⟨family, entry⟩
    refine ⟨group, member, same, representative.withoutPlace, ?_, isGroupOf_iff.1 made⟩
    rw [found group member, held]
    rfl

theorem isGroupedBy_overloadsOf : IsGroupedBy graph (overloadsOf graph) (groupGraph graph) := by
  obtain ⟨module, metadata⟩ := frame_foldl_giveGroup (overloadsOf graph).values (prune graph)
  constructor
  · rw [groupGraph_eq_overloadsOf keyed]
    exact module
  · rw [groupGraph_eq_overloadsOf keyed]
    exact metadata
  · intro identifier plain
    rw [get?_symbols_groupGraph keyed plain, Option.map_map]
    refine congrArg (Option.map · _) (funext fun symbol => ?_)
    exact (symbol.withoutPlace.withoutPlace_placed _).trans symbol.withoutPlace_withoutPlace
  · intro identifier symbol place plain found
    exact places_groupGraph keyed plain found
  · intro identifier symbol isGroup
    exact groups_groupGraph keyed isGroup
  · rw [groupGraph_eq_overloadsOf keyed, (ready_overloadsOf keyed).relationships,
      relationships_prune, funext (relationshipsOf_eq_broughtBy (keptRelationships graph))]
  · rw [groupGraph_eq_overloadsOf keyed]

end Outcome

/-- **Grouping one graph gives each of its families of overloads a group, and does nothing else.**
The graph and its groups leave no choice of what it comes to. -/
theorem groupGraph_exact (keyed : graph.IsWellKeyed) :
    ∃ overloads, AreOverloads graph overloads ∧ ∀ grouping,
      IsGroupedBy graph overloads grouping ↔ grouping = groupGraph graph := by
  have grouped := isGroupedBy_overloadsOf keyed
  refine ⟨overloadsOf graph, areOverloads_overloadsOf keyed, fun grouping => ⟨?_, ?_⟩⟩
  · intro other
    exact other.unique grouped
  · rintro rfl
    exact grouped

/-- The overloads with an earlier group of which one of them is a member, and with a relationship to
a group that is not there. -/
def staleDrawings : SymbolGraph :=
  let held := drawings.addSymbol (drawing "drawOn::OverloadGroup")
  (held.addRelationship (membership "drawAt" "drawOn::OverloadGroup")).addRelationship
    (Relationship.between "drawIn" "drawBy::OverloadGroup" .references)

theorem groupGraph_exact_stale :
    staleDrawings.IsWellKeyed ∧ (prune staleDrawings).relationships.length = 2 ∧
      (groupGraph staleDrawings).count = 1 ∧
      ∃ overloads, AreOverloads staleDrawings overloads ∧ ∀ grouping,
        IsGroupedBy staleDrawings overloads grouping ↔ grouping = groupGraph staleDrawings :=
  have keyed : staleDrawings.IsWellKeyed :=
    isWellKeyed_drawings.addSymbol (drawing "drawOn::OverloadGroup")
  ⟨keyed, by decide +kernel, by decide +kernel, groupGraph_exact keyed⟩

end ApiAtlas.Overload
