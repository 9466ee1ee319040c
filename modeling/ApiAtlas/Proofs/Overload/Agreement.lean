import ApiAtlas.Proofs.Overload.ExactGroups
import ApiAtlas.Proofs.Overload.GraphGroups

/-!
# Grouping before and after unifying

Both groupings go through the same families in the same order. Grouping one
graph reads the graph that the groups of earlier families have already changed,
but these changes are places, groups and relationships to groups, and no
candidate is made of them (`sort_candidates`). So every family gives the group
that is planned for it (`addFamily_eq`), and grouping a graph gives it the
planned groups one by one (`groupGraph_eq`).

This holds of all graphs. If a graph does not mention groups that it does not
have, giving groups also commutes with unifying (`unified_foldl_giveGroup`), and
at the end the unified graph is the one that is grouped after unifying
(`groupGraph_agrees`).
-/

set_option autoImplicit false

namespace ApiAtlas.Overload

/-! ## Reading a graph that is being grouped -/

/-- Symbols that are no groups are the same in both graphs, but for their places. -/
def SameButPlaces (first second : SymbolGraph) : Prop :=
  ∀ identifier, isGroupIdentifier identifier = false →
    (first.symbols.get? identifier).map Symbol.withoutPlace =
      (second.symbols.get? identifier).map Symbol.withoutPlace

/-- A place says nothing about a candidate. -/
theorem candidate_withoutPlace (symbol : Symbol) :
    candidate symbol.withoutPlace = candidate symbol := by
  have kept : ∀ key, key ≠ Mixin.overloadKey →
      Table.get? symbol.withoutPlace.mixins key = Table.get? symbol.mixins key := by
    intro key other
    rw [Symbol.withoutPlace, Table.get?_erase, if_neg other]
  have declaration : symbol.withoutPlace.mixins.declaration? = symbol.mixins.declaration? := by
    rw [Mixins.declaration?, kept _ (by decide), Mixins.declaration?]
  have deprecated : symbol.withoutPlace.mixins.isDeprecated = symbol.mixins.isDeprecated := by
    rw [Mixins.isDeprecated, Mixins.availability?, kept _ (by decide), Mixins.isDeprecated,
      Mixins.availability?]
  rw [candidate, declaration, deprecated]
  rfl

section Reading

variable {original graph : SymbolGraph} {family : FamilyKey} {members : KeySet String}

/-- **The candidates of a family are ranked as in the unified graph**, whatever groups the graph
has been given before. -/
theorem sort_candidates (keyed : original.IsWellKeyed) (bare : original.HasNoGroups)
    (meant : IsFamily original.unified family members) (same : SameButPlaces graph original) :
    Key.sort (((eligible original.relationships members).filterMap graph.symbols.get?).map
        candidate) = rankedIn original.unified (family, members) := by
  rw [rankedIn, eligible_unified keyed bare meant, List.map_filterMap, List.map_filterMap]
  refine congrArg Key.sort (List.filterMap_congr fun identifier member => ?_)
  rw [← eligible_unified keyed bare meant, mem_eligible_iff meant] at member
  obtain ⟨symbol, found, rfl⟩ := (belongsTo_unified_iff keyed bare).1 member.1
  have alike := same identifier (bare identifier symbol found)
  rw [found, Option.map_some, Option.map_eq_some_iff] at alike
  obtain ⟨held, present, equal⟩ := alike
  rw [present, Option.map_some, ← candidate_withoutPlace, equal, candidate_withoutPlace]
  exact (unifiedCandidate_unified keyed found).symm

/-- The grouping once a group has been added to its graph, if it could be. -/
def Grouping.extend (grouping : Grouping) : Option SymbolGraph → Grouping
  | some graph => { graph, count := grouping.count + 1 }
  | none => grouping

/-- Every family gives the group that is planned for it. -/
theorem addFamily_eq (keyed : original.IsWellKeyed) (bare : original.HasNoGroups)
    (meant : IsFamily original.unified family members) {grouping : Grouping}
    (same : SameButPlaces grouping.graph original) :
    grouping.addFamily original.relationships members =
      (planFamily original.unified original.unified.allRelationships (family, members)).elim
        grouping fun group => grouping.extend (addGroup? grouping.graph group.members) := by
  have steps : grouping.addFamily original.relationships members =
      if (eligible original.relationships members).length < 2 then grouping
      else grouping.extend (addGroup? grouping.graph (Key.sort
        (((eligible original.relationships members).filterMap
          grouping.graph.symbols.get?).map candidate))) := rfl
  rw [steps, planFamily_eq, sort_candidates keyed bare meant same,
    eligible_unified keyed bare meant]
  split
  · rfl
  · cases rankedIn original.unified (family, members) <;> rfl

end Reading

/-! ## Grouping family by family -/

/-- The graph with a group, if a symbol of the graph represents it. -/
def giveGroup (graph : SymbolGraph) (group : PlannedGroup) : SymbolGraph :=
  (graph.symbols.get? group.representative.identifier).elim graph (withGroup graph group)

theorem Represented.giveGroup_eq {graph : SymbolGraph} {group : PlannedGroup}
    {representative : Symbol} (represented : Represented graph group representative) :
    giveGroup graph group = withGroup graph group representative := by
  rw [giveGroup, represented.found, Option.elim_some]

/-- Giving a graph groups changes neither its module nor its metadata. -/
theorem frame_foldl_giveGroup (groups : List PlannedGroup) (graph : SymbolGraph) :
    (groups.foldl giveGroup graph).module = graph.module ∧
      (groups.foldl giveGroup graph).metadata = graph.metadata := by
  induction groups generalizing graph with
  | nil => exact ⟨rfl, rfl⟩
  | cons group rest ih =>
    have step : (giveGroup graph group).module = graph.module ∧
        (giveGroup graph group).metadata = graph.metadata := by
      rw [giveGroup]
      cases graph.symbols.get? group.representative.identifier <;> exact ⟨rfl, rfl⟩
    obtain ⟨module, metadata⟩ := ih (giveGroup graph group)
    exact ⟨module.trans step.1, metadata.trans step.2⟩

/-- The graph can be given these groups, one after the other; apart from groups it is the original
graph. -/
structure Ready (original graph : SymbolGraph) (groups : List PlannedGroup) : Prop where
  same : SameButPlaces graph original
  plan : IsPlan groups
  awaits : ∀ group ∈ groups, Awaits graph group

/-- The graph can be given the remaining groups once it has been given the first. -/
theorem Ready.step {original graph : SymbolGraph} {group : PlannedGroup} {rest : List PlannedGroup}
    (ready : Ready original graph (group :: rest)) :
    ∃ representative, Represented graph group representative ∧
      Ready original (withGroup graph group representative) rest := by
  obtain ⟨representative, represented⟩ := exists_represented ready.plan.sound_head
    (ready.awaits group (List.mem_cons_self ..))
  refine ⟨representative, represented, fun identifier plain => ?_, ready.plan.tail,
    fun other member => ?_⟩
  · rw [represented.get?_symbols_withGroup_plain plain, ← ready.same identifier plain,
      Option.map_map]
    exact congrArg (Option.map · _) (funext fun symbol => symbol.withoutPlace_placed _)
  · exact represented.awaits_withGroup (ready.plan.tail.sound other member)
      (ready.plan.apart_head other member) (ready.awaits other (List.mem_cons_of_mem _ member))

/-- **Grouping family by family gives the planned groups one by one.** -/
theorem foldl_addFamily {original : SymbolGraph} (keyed : original.IsWellKeyed)
    (bare : original.HasNoGroups) {families : List (FamilyKey × KeySet String)}
    (meant : ∀ family ∈ families, IsFamily original.unified family.1 family.2)
    (grouping : Grouping) {groups : List PlannedGroup}
    (planned : families.filterMap (planFamily original.unified original.unified.allRelationships) =
      groups) (ready : Ready original grouping.graph groups) :
    (families.map (·.2)).foldl (Grouping.addFamily original.relationships) grouping =
      { graph := groups.foldl giveGroup grouping.graph
        count := grouping.count + groups.length } := by
  induction families generalizing grouping groups with
  | nil =>
    subst planned
    rfl
  | cons family rest ih =>
    have further : ∀ other ∈ rest, IsFamily original.unified other.1 other.2 :=
      fun other member => meant other (List.mem_cons_of_mem _ member)
    rw [List.map_cons, List.foldl_cons,
      addFamily_eq keyed bare (meant family (List.mem_cons_self ..)) ready.same]
    rw [List.filterMap_cons] at planned
    cases given : planFamily original.unified original.unified.allRelationships family with
    | none =>
      rw [given] at planned
      exact ih further grouping planned ready
    | some group =>
      simp only [given] at planned
      subst planned
      obtain ⟨representative, represented, later⟩ := ready.step
      rw [Option.elim_some, addGroup?_eq represented.found, Grouping.extend,
        ih further _ rfl later, List.foldl_cons, represented.giveGroup_eq, List.length_cons,
        Nat.add_assoc, Nat.add_comm 1]

/-- A graph without groups and places can be given the groups of its families. -/
theorem ready_prune {graph : SymbolGraph} (keyed : graph.IsWellKeyed) :
    Ready (prune graph) (prune graph) (plan none (prune graph).unified) := by
  have pruned := isWellKeyed_prune keyed
  have bare := hasNoGroups_prune graph
  have wellFormed := (prune graph).wellFormed_unified
  refine ⟨fun _ _ => rfl, isPlan_plan wellFormed, fun group member => ?_⟩
  obtain ⟨-, -, kind, ranking⟩ := (mem_plan_iff wellFormed).1 member
  constructor
  · intro one within
    obtain ⟨symbol, found, own⟩ := (belongsTo_unified_iff pruned bare).1 (ranking.belongsTo within)
    refine ⟨symbol, found, congrArg FamilyKey.language own, ?_⟩
    rw [get?_symbols_prune_plain (bare _ _ found)] at found
    obtain ⟨held, -, rfl⟩ := Option.map_eq_some_iff.1 found
    exact (Table.get?_erase ..).trans (if_pos rfl)
  · rw [get?_symbols_prune, if_pos group.isGroupIdentifier_identifier]

/-- **Grouping a graph gives it the groups of its families**, once earlier groups are removed. -/
theorem groupGraph_eq {graph : SymbolGraph} (keyed : graph.IsWellKeyed) :
    groupGraph graph =
      { graph := (plan none (prune graph).unified).foldl giveGroup (prune graph)
        count := (plan none (prune graph).unified).length } := by
  have pruned := isWellKeyed_prune keyed
  have bare := hasNoGroups_prune graph
  have families := unifiedFamilies_unified pruned bare
  have meant : ∀ family ∈ (graphFamilies (prune graph)).entries,
      IsFamily (prune graph).unified family.1 family.2 := by
    intro family member
    rw [← families] at member
    exact (isFamily_of_get? (Table.get?_eq_some_iff.2 member)).2
  have planned : (graphFamilies (prune graph)).entries.filterMap
      (planFamily (prune graph).unified (prune graph).unified.allRelationships) =
        plan none (prune graph).unified := by
    rw [← families]
    rfl
  refine (foldl_addFamily pruned bare meant { graph := prune graph } planned
    (ready_prune keyed)).trans ?_
  rw [Nat.zero_add]

/-! ## Agreement -/

/-- Groups may be given before a graph is unified or after it. -/
theorem unified_foldl_giveGroup {original graph : SymbolGraph} {groups : List PlannedGroup}
    (keyed : graph.IsWellKeyed) (knows : KnowsGroups graph) (ready : Ready original graph groups) :
    (groups.foldl giveGroup graph).IsWellKeyed ∧
      (groups.foldl giveGroup graph).unified = groups.foldl addGroup graph.unified := by
  induction groups generalizing graph with
  | nil => exact ⟨keyed, rfl⟩
  | cons group rest ih =>
    obtain ⟨representative, represented, later⟩ := ready.step
    have prepared : Prepared graph group representative := ⟨represented, keyed, knows⟩
    rw [List.foldl_cons, represented.giveGroup_eq, List.foldl_cons, ← prepared.unified_withGroup]
    exact ih (isWellKeyed_withGroup prepared.sound keyed) prepared.knowsGroups_withGroup later

theorem isUngrouped_prune {graph : SymbolGraph} (ungrouped : graph.IsUngrouped) :
    (prune graph).IsUngrouped where
  symbols found := hasNoGroups_prune graph _ _ found
  ends relationship member := ungrouped.ends relationship (List.mem_filter.1 member).1

/-- A graph whose relationships mention no group knows the groups that they mention. -/
theorem knowsGroups_of_isUngrouped {graph : SymbolGraph} (ungrouped : graph.IsUngrouped) :
    KnowsGroups graph := by
  intro relationship member identifier touches isGroup
  obtain ⟨source, target⟩ := ungrouped.ends relationship member
  rcases touches with rfl | rfl
  · rw [source] at isGroup
    cases isGroup
  · rw [target] at isGroup
    cases isGroup

/-- What has been grouped once a grouping has added these groups. -/
structure GivenGroups (before after : Grouping) (groups : List PlannedGroup) : Prop where
  module : after.graph.module = before.graph.module
  metadata : after.graph.metadata = before.graph.metadata
  keyed : after.graph.IsWellKeyed
  unified : after.graph.unified = groups.foldl addGroup before.graph.unified
  count : after.count = before.count + groups.length

/-- Grouping one graph gives it the groups that are planned for it once it is unified. -/
theorem givenGroups_groupGraph {graph : SymbolGraph} (keyed : graph.IsWellKeyed)
    (ungrouped : graph.IsUngrouped) :
    GivenGroups { graph := prune graph } (groupGraph graph) (groupsOf none graph.unified) := by
  have given := unified_foldl_giveGroup (isWellKeyed_prune keyed)
    (knowsGroups_of_isUngrouped (isUngrouped_prune ungrouped)) (ready_prune keyed)
  obtain ⟨module, metadata⟩ := frame_foldl_giveGroup (plan none (prune graph).unified) (prune graph)
  rw [groupGraph_eq keyed, groupsOf, ← unified_prune keyed ungrouped]
  exact ⟨module, metadata, given.1, given.2, (Nat.zero_add _).symm⟩

theorem unified_groupGraph {graph : SymbolGraph} (keyed : graph.IsWellKeyed)
    (ungrouped : graph.IsUngrouped) :
    (groupGraph graph).graph.unified = groupUnified none graph.unified := by
  rw [(givenGroups_groupGraph keyed ungrouped).unified, groupUnified,
    unified_prune keyed ungrouped]

/-- **Grouping the overloads of one graph before it is unified is grouping them after that**, in all
languages, and both ways make the same number of groups. -/
theorem groupGraph_agrees {graph : SymbolGraph} (keyed : graph.IsWellKeyed)
    (ungrouped : graph.IsUngrouped) :
    ∃ unified, UnifiedGraph.ofGraph graph = .ok unified ∧
      UnifiedGraph.ofGraph (groupGraph graph).graph = .ok (groupUnified none unified) ∧
      (groupGraph graph).count = (groupsOf none unified).length := by
  have given := givenGroups_groupGraph keyed ungrouped
  refine ⟨graph.unified, UnifiedGraph.ofGraph_eq keyed, ?_, ?_⟩
  · rw [UnifiedGraph.ofGraph_eq given.keyed, unified_groupGraph keyed ungrouped]
  · rw [given.count, Nat.zero_add]

theorem isWellKeyed_drawings : drawings.IsWellKeyed :=
  ((SymbolGraph.isWellKeyed_of_symbols_eq_empty rfl).addSymbol (drawing "drawAt")).addSymbol
    (drawing "drawIn")

theorem isUngrouped_drawings : drawings.IsUngrouped :=
  .of_entries (by decide +kernel) (by decide +kernel)

theorem groupGraph_agrees_drawings :
    drawings.IsWellKeyed ∧ drawings.IsUngrouped ∧ (groupGraph drawings).count = 1 ∧
      ∃ unified, UnifiedGraph.ofGraph drawings = .ok unified ∧
        UnifiedGraph.ofGraph (groupGraph drawings).graph = .ok (groupUnified none unified) ∧
        (groupGraph drawings).count = (groupsOf none unified).length :=
  ⟨isWellKeyed_drawings, isUngrouped_drawings, by decide +kernel,
    groupGraph_agrees isWellKeyed_drawings isUngrouped_drawings⟩

end ApiAtlas.Overload
